import AgentsRemember.Backfill.Replay
import AgentsRemember.Foundation.Attempts
import AgentsRemember.Foundation.Keyed

/-!
# Backfill — Rewrite

The walk over a history, parents first, that maps every commit to itself or to
the commit rebuilt with the images of its parents and the trailer planned for
it.
-/

namespace AgentsRemember.Backfill

variable {κ ι : Type} [DecidableEq κ]

/-- The commits of a repository under their names, and the walk of all that
its refs reach, parents first. -/
structure History (git : Git κ ι) where
  objects : List (κ × CommitObject κ ι)
  walk : List κ
  named : ∀ c commit, objects.lookup c = some commit → c = git.oid commit
  nodup : walk.Nodup
  held : ∀ c ∈ walk, ∃ commit, objects.lookup c = some commit
  parentsFirst : ∀ front c back, walk = front ++ c :: back →
    ∀ commit, objects.lookup c = some commit → ∀ p ∈ commit.parents, p ∈ front

theorem History.parents_mem {git : Git κ ι} (h : History git) {front back : List κ}
    (hwalk : h.walk = front ++ back) {c p : κ} {commit : CommitObject κ ι} (hc : c ∈ front)
    (hlook : h.objects.lookup c = some commit) (hp : p ∈ commit.parents) : p ∈ front := by
  obtain ⟨front₁, front₂, rfl⟩ := List.append_of_mem hc
  have hin := h.parentsFirst front₁ c (front₂ ++ back) (by simp [hwalk]) commit hlook p hp
  exact List.mem_append_left _ hin

/-- Why a walk stops: a commit that cannot be read, or not be rebuilt. -/
inductive RewriteError (κ : Type) where
  | unreadable (commit : κ)
  | notRebuilt (commit : κ)

/-- The objects there are, and the new name of every commit visited. -/
structure Rewrite (κ ι : Type) where
  objects : List (κ × CommitObject κ ι)
  identity : List (κ × κ)

/-- What a commit is mapped to. -/
def Rewrite.image (s : Rewrite κ ι) (c : κ) : κ := (s.identity.lookup c).getD c

variable (git : Git κ ι) (wanted : List (κ × List Char))

/-- One commit of the walk. -/
def rewriteCommit (s : Rewrite κ ι) (c : κ) : Except (RewriteError κ) (Rewrite κ ι) :=
  match s.objects.lookup c with
  | none => .error (.unreadable c)
  | some commit =>
    let parents := commit.parents.map s.image
    if wanted.lookup c = none ∧ parents = commit.parents then
      .ok { s with identity := Keyed.set s.identity c c }
    else
      match rebuilt git commit parents (wanted.lookup c) with
      | none => .error (.notRebuilt c)
      | some new =>
        .ok ⟨Keyed.set s.objects (git.oid new) new, Keyed.set s.identity c (git.oid new)⟩

/-- The walk, parents first. -/
def rewriteHistory (objects : List (κ × CommitObject κ ι)) (walk : List κ) :
    Except (RewriteError κ) (Rewrite κ ι) :=
  walk.foldlM (rewriteCommit git wanted) ⟨objects, []⟩

variable {git wanted}

/-! ## What the walk leaves -/

/-- What a commit becomes, when its parents have the images `image`. -/
def Becomes (git : Git κ ι) (wanted : List (κ × List Char)) (image : κ → κ) (c : κ)
    (commit new : CommitObject κ ι) : Prop :=
  if wanted.lookup c = none ∧ commit.parents.map image = commit.parents then new = commit
  else rebuilt git commit (commit.parents.map image) (wanted.lookup c) = some new

/-- A commit that has been visited: its new name, and the object under it. -/
def Visited (h : History git) (wanted : List (κ × List Char)) (s : Rewrite κ ι) (c : κ) : Prop :=
  ∃ commit new, h.objects.lookup c = some commit ∧ Becomes git wanted s.image c commit new ∧
    s.identity.lookup c = some (git.oid new) ∧ s.objects.lookup (git.oid new) = some new

/-- The state after the commits of `front`. -/
structure Walked (h : History git) (wanted : List (κ × List Char)) (front : List κ)
    (s : Rewrite κ ι) : Prop where
  named : ∀ c commit, s.objects.lookup c = some commit → c = git.oid commit
  kept : ∀ c commit, h.objects.lookup c = some commit → s.objects.lookup c = some commit
  only : ∀ c, (s.identity.lookup c).isSome → c ∈ front
  visited : ∀ c ∈ front, Visited h wanted s c

theorem Walked.start (h : History git) : Walked h wanted [] ⟨h.objects, []⟩ :=
  ⟨h.named, fun _ _ hlook => hlook, fun c hc => by simp at hc, fun c hc => by cases hc⟩

section step
variable {h : History git} {front back : List κ} {c : κ} {s s' : Rewrite κ ι}

/-- A step answers with what the commit becomes, under a name of its own. -/
theorem rewriteCommit_eq_ok {commit : CommitObject κ ι} (hlook : s.objects.lookup c = some commit)
    (hname : c = git.oid commit) (hstep : rewriteCommit git wanted s c = .ok s') :
    ∃ new, Becomes git wanted s.image c commit new ∧
      s'.identity = Keyed.set s.identity c (git.oid new) ∧
      (∀ name, s'.objects.lookup name = if git.oid new = name then some new
        else s.objects.lookup name) := by
  unfold rewriteCommit at hstep
  simp only [hlook] at hstep
  split at hstep
  · rename_i hsame
    cases hstep
    refine ⟨commit, by rw [Becomes, if_pos hsame], by rw [← hname], ?_⟩
    intro name
    split
    · rename_i heq
      rw [← heq, ← hname, hlook]
    · rfl
  · rename_i hdiff
    split at hstep
    · cases hstep
    · rename_i new hnew
      cases hstep
      exact ⟨new, by rw [Becomes, if_neg hdiff]; exact hnew, rfl, Keyed.lookup_set _ _ _⟩

/-- Images of commits visited before do not change any more. -/
theorem Visited.frame {c' : κ} (hvisited : Visited h wanted s c')
    (hids : ∀ name id, s.identity.lookup name = some id → s'.identity.lookup name = some id)
    (himage : ∀ commit, h.objects.lookup c' = some commit → ∀ p ∈ commit.parents,
      s'.image p = s.image p)
    (hobjects : ∀ name new, s.objects.lookup name = some new →
      s'.objects.lookup name = some new) :
    Visited h wanted s' c' := by
  obtain ⟨commit, new, hlook, hbecomes, hid, hobj⟩ := hvisited
  refine ⟨commit, new, hlook, ?_, hids _ _ hid, hobjects _ _ hobj⟩
  have hmap : commit.parents.map s'.image = commit.parents.map s.image :=
    List.map_congr_left (himage commit hlook)
  rw [Becomes, hmap]
  exact hbecomes

theorem Walked.step (hwalk : h.walk = front ++ c :: back) (hw : Walked h wanted front s)
    (hstep : rewriteCommit git wanted s c = .ok s') : Walked h wanted (front ++ [c]) s' := by
  have hcwalk : c ∈ h.walk := hwalk ▸ by simp
  have hnew : c ∉ front := by
    have hnodup := hwalk ▸ h.nodup
    exact fun hin => (List.nodup_append.mp hnodup).2.2 c hin c (by simp) rfl
  obtain ⟨commit, hlook⟩ := h.held c hcwalk
  obtain ⟨new, hbecomes, hids, hobjects⟩ :=
    rewriteCommit_eq_ok (hw.kept c commit hlook) (h.named c commit hlook) hstep
  have hidOld : ∀ name id, s.identity.lookup name = some id →
      s'.identity.lookup name = some id := by
    intro name id hid
    have hne : c ≠ name := by
      rintro rfl
      exact hnew (hw.only c (by rw [hid]; rfl))
    rw [hids, Keyed.lookup_set, if_neg hne, hid]
  have hobjOld : ∀ name old, s.objects.lookup name = some old →
      s'.objects.lookup name = some old := by
    intro name old hold
    rw [hobjects]
    split
    · rename_i heq
      rw [git.oid_injective (heq.trans (hw.named name old hold))]
    · exact hold
  -- Parents lie in front, so the images they have are final.
  have himage : ∀ p ∈ front, s'.image p = s.image p := by
    intro p hp
    have hpc : c ≠ p := fun heq => hnew (heq ▸ hp)
    rw [Rewrite.image, Rewrite.image, hids, Keyed.lookup_set, if_neg hpc]
  refine ⟨?_, fun c' commit' hlook' => hobjOld _ _ (hw.kept c' commit' hlook'), ?_, ?_⟩
  · intro name old hold
    rw [hobjects] at hold
    split at hold
    · rename_i heq
      rw [← heq, ← Option.some.inj hold]
    · exact hw.named name old hold
  · intro name hname
    rw [hids, Keyed.lookup_set] at hname
    split at hname
    · rename_i heq
      simp [← heq]
    · exact List.mem_append_left _ (hw.only name hname)
  · intro c' hc'
    rcases List.mem_append.mp hc' with hc' | hc'
    · exact (hw.visited c' hc').frame hidOld
        (fun commit' hlook' p hp => himage p (h.parents_mem hwalk hc' hlook' hp)) hobjOld
    · rw [List.mem_singleton.mp hc']
      have hparents : commit.parents.map s'.image = commit.parents.map s.image :=
        List.map_congr_left fun p hp =>
          himage p (h.parentsFirst front c back hwalk commit hlook p hp)
      refine ⟨commit, new, hlook, ?_, by simp [hids, Keyed.lookup_set], by simp [hobjects]⟩
      rw [Becomes, hparents]
      exact hbecomes

end step

/-- What a finished walk leaves. -/
theorem walked_rewriteHistory {h : History git} {s : Rewrite κ ι}
    (hok : rewriteHistory git wanted h.objects h.walk = .ok s) : Walked h wanted h.walk s := by
  have hrun : ∀ back front s₀, h.walk = front ++ back → Walked h wanted front s₀ →
      back.foldlM (rewriteCommit git wanted) s₀ = .ok s → Walked h wanted h.walk s := by
    intro back
    induction back with
    | nil =>
      intro front s₀ hwalk hw hfold
      cases hfold
      rw [hwalk, List.append_nil]
      exact hw
    | cons c back ih =>
      intro front s₀ hwalk hw hfold
      rw [List.foldlM_cons] at hfold
      obtain ⟨s₁, hstep, hrest⟩ := Attempts.bind_eq_ok.mp hfold
      exact ih (front ++ [c]) s₁ (by simp [hwalk]) (hw.step hwalk hstep) hrest
  exact hrun h.walk [] _ rfl (Walked.start h) hok

end AgentsRemember.Backfill
