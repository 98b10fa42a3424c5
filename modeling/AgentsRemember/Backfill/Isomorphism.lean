import AgentsRemember.Backfill.Rewrite

/-!
# Backfill — Isomorphism

A walk maps every commit to one with the same tree, the same author, the
images of its parents and its message up to the trailer exactly when the
commits it has to rebuild can be replayed: their messages come through the
reading unchanged, their identities are read back, and no two of the parents
become one commit.
-/

namespace AgentsRemember.Backfill

variable {κ ι : Type} [DecidableEq κ] {git : Git κ ι}

/-- A commit with a planned commit among itself and its ancestors. -/
inductive Moved (h : History git) (wanted : List (κ × List Char)) : κ → Prop
  | planned {c : κ} {code : List Char} : wanted.lookup c = some code → Moved h wanted c
  | inherited {c p : κ} {commit : CommitObject κ ι} : h.objects.lookup c = some commit →
      p ∈ commit.parents → Moved h wanted p → Moved h wanted c

/-- A commit and the one it became: all that the rewrite must leave alone. -/
structure Faithful (wanted : List (κ × List Char)) (image : κ → κ) (c : κ)
    (commit new : CommitObject κ ι) : Prop where
  parents : new.parents = commit.parents.map image
  tree : new.tree = commit.tree
  author : new.author = commit.author
  planned : ∀ code, wanted.lookup c = some code → Appended commit.message code new.message
  unplanned : wanted.lookup c = none → new.message = commit.message

/-- The map of a finished walk: total on the walk, faithful at every commit,
and the identity where nothing is planned upstream. -/
structure Isomorphic (h : History git) (wanted : List (κ × List Char)) (s : Rewrite κ ι) :
    Prop where
  faithful : ∀ c ∈ h.walk, ∀ commit, h.objects.lookup c = some commit →
    ∃ name new, s.identity.lookup c = some name ∧ s.objects.lookup name = some new ∧
      (∀ p ∈ commit.parents, (s.identity.lookup p).isSome) ∧
      Faithful wanted s.image c commit new
  untouched : ∀ c ∈ h.walk, ¬ Moved h wanted c → s.identity.lookup c = some c

/-! ## Which commits become one -/

/-- What a commit becomes, its parents apart. -/
def Outline (h : History git) (wanted : List (κ × List Char)) (c : κ)
    (commit outline : CommitObject κ ι) : Prop :=
  ¬ Moved h wanted c ∧ outline = { commit with parents := [] } ∨
    Moved h wanted c ∧ rebuilt git commit [] (wanted.lookup c) = some outline

/-- Commits that become one: what they become differs in nothing, and their
parents become one in turn. -/
inductive Alike (h : History git) (wanted : List (κ × List Char)) : κ → κ → Prop
  | refl (c : κ) : Alike h wanted c c
  | step {c c' : κ} {commit commit' outline : CommitObject κ ι} :
      h.objects.lookup c = some commit → h.objects.lookup c' = some commit' →
      Outline h wanted c commit outline → Outline h wanted c' commit' outline →
      commit.parents.length = commit'.parents.length →
      (∀ (i : Nat) (p p' : κ), commit.parents[i]? = some p → commit'.parents[i]? = some p' →
        Alike h wanted p p') →
      Alike h wanted c c'

/-- The commits to be rebuilt that the rewrite can replay. -/
structure Replayable (h : History git) (wanted : List (κ × List Char)) (c : κ)
    (commit : CommitObject κ ι) : Prop where
  identity : ∃ committer, replay git commit = some (commit.author, committer)
  message : ∃ body, Plain body ∧ ∃ k, commit.message = body ++ List.replicate k '\n' ∧
    if (wanted.lookup c).isSome then k ≤ 2 else k = 1
  parents : commit.parents.Pairwise fun p p' => ¬ Alike h wanted p p'

/-! ## Along the walk -/

theorem History.induction_on (h : History git) {front back : List κ}
    (hwalk : h.walk = front ++ back) {motive : κ → Prop}
    (step : ∀ c ∈ front, ∀ commit, h.objects.lookup c = some commit →
      (∀ p ∈ commit.parents, motive p) → motive c) : ∀ c ∈ front, motive c := by
  induction front using List.reverseRecOn generalizing back with
  | nil => exact fun c hc => by cases hc
  | append_singleton front c₀ ih =>
    have hfront : ∀ c ∈ front, motive c :=
      ih (by simp [hwalk] : h.walk = front ++ c₀ :: back) fun c hc => step c (List.mem_append_left _ hc)
    intro c hc
    rcases List.mem_append.mp hc with hc | hc
    · exact hfront c hc
    · obtain rfl := List.mem_singleton.mp hc
      obtain ⟨commit, hlook⟩ := h.held c (by simp [hwalk])
      exact step c (by simp) commit hlook fun p hp =>
        hfront p (h.parentsFirst front c back (by simp [hwalk]) commit hlook p hp)

section walked
variable {h : History git} {wanted : List (κ × List Char)} {front back : List κ} {s : Rewrite κ ι}

theorem Visited.image_eq {c : κ} {new : CommitObject κ ι}
    (hid : s.identity.lookup c = some (git.oid new)) : s.image c = git.oid new := by
  rw [Rewrite.image, hid]
  rfl

/-- Nothing planned upstream: the commit is its own image. -/
theorem Walked.image_of_not_moved (hwalk : h.walk = front ++ back)
    (hw : Walked h wanted front s) : ∀ c ∈ front, ¬ Moved h wanted c →
      s.identity.lookup c = some c := by
  refine h.induction_on hwalk fun c hc commit hlook ih hstay => ?_
  obtain ⟨commit', new, hlook', hbecomes, hid, -⟩ := hw.visited c hc
  rw [hlook, Option.some.injEq] at hlook'
  subst hlook'
  have hnone : wanted.lookup c = none := by
    cases hcode : wanted.lookup c with
    | none => rfl
    | some code => exact absurd (.planned hcode) hstay
  have hparents : commit.parents.map s.image = commit.parents := by
    conv_rhs => rw [← List.map_id commit.parents]
    refine List.map_congr_left fun p hp => ?_
    rw [Rewrite.image, ih p hp fun hp' => hstay (.inherited hlook hp hp')]
    rfl
  rw [Becomes, if_pos ⟨hnone, hparents⟩] at hbecomes
  rw [hid, hbecomes, ← h.named c commit hlook]

/-- A commit that came out as it should, and under another name where the
rewrite had something to do. -/
def Good (h : History git) (wanted : List (κ × List Char)) (s : Rewrite κ ι) (c : κ) : Prop :=
  ∃ commit new, h.objects.lookup c = some commit ∧ Becomes git wanted s.image c commit new ∧
    s.image c = git.oid new ∧ Faithful wanted s.image c commit new ∧
    (Moved h wanted c → s.image c ≠ c)

/-- A planned commit has another message, its descendants have other parents. -/
theorem image_ne_of_faithful {c : κ} {commit new : CommitObject κ ι}
    (hlook : h.objects.lookup c = some commit) (himage : s.image c = git.oid new)
    (hfaithful : Faithful wanted s.image c commit new)
    (hparents : ∀ p ∈ commit.parents, Moved h wanted p → s.image p ≠ p)
    (hmoved : Moved h wanted c) : s.image c ≠ c := by
  rw [himage]
  intro heq
  have hsame : new = commit := git.oid_injective (heq.trans (h.named c commit hlook))
  subst hsame
  cases hmoved with
  | planned hcode => exact (hfaithful.planned _ hcode).ne rfl
  | inherited hlook' hp hmoved =>
    rw [hlook, Option.some.injEq] at hlook'
    subst hlook'
    have hid : new.parents.map s.image = new.parents.map id := by
      rw [← hfaithful.parents, List.map_id]
    exact hparents _ hp hmoved (List.map_inj_left.mp hid _ hp)

/-- What has another name has been rebuilt. -/
theorem rebuilt_of_image_ne {c : κ} {commit new : CommitObject κ ι}
    (hlook : h.objects.lookup c = some commit) (himage : s.image c = git.oid new)
    (hbecomes : Becomes git wanted s.image c commit new) (hne : s.image c ≠ c) :
    rebuilt git commit (commit.parents.map s.image) (wanted.lookup c) = some new := by
  unfold Becomes at hbecomes
  split at hbecomes
  · rw [himage, hbecomes, ← h.named c commit hlook] at hne
    exact absurd rfl hne
  · exact hbecomes

theorem rebuilt_eq_some {commit new : CommitObject κ ι} {parents : List κ}
    {code : Option (List Char)} (hnew : rebuilt git commit parents code = some new) :
    ∃ committer, replay git commit = some (new.author, committer) ∧ new.tree = commit.tree ∧
      new.message = recorded commit code ∧ new.parents = parents.reverse.dedup.reverse ∧
      rebuilt git commit [] code = some { new with parents := [] } := by
  obtain ⟨who, hwho, rfl⟩ := Option.map_eq_some_iff.mp hnew
  exact ⟨who.2, hwho, rfl, rfl, rfl, by rw [rebuilt, hwho]; rfl⟩

/-- Parents apart, a commit becomes its outline. -/
theorem Good.outline {c : κ} {commit new : CommitObject κ ι}
    (hlook : h.objects.lookup c = some commit) (himage : s.image c = git.oid new)
    (hbecomes : Becomes git wanted s.image c commit new)
    (hne : Moved h wanted c → s.image c ≠ c)
    (hstay : ¬ Moved h wanted c → s.image c = c) :
    Outline h wanted c commit { new with parents := [] } := by
  by_cases hmoved : Moved h wanted c
  · have hnew := rebuilt_of_image_ne hlook himage hbecomes (hne hmoved)
    exact .inr ⟨hmoved, (rebuilt_eq_some hnew).choose_spec.2.2.2.2⟩
  · have hsame : new = commit := by
      have hname := hstay hmoved
      rw [himage] at hname
      exact git.oid_injective (hname.trans (h.named c commit hlook))
    exact .inl ⟨hmoved, by rw [hsame]⟩

theorem Outline.unique {c : κ} {commit outline outline' : CommitObject κ ι}
    (ho : Outline h wanted c commit outline) (ho' : Outline h wanted c commit outline') :
    outline = outline' := by
  rcases ho with ⟨hm, ho⟩ | ⟨hm, ho⟩ <;> rcases ho' with ⟨hm', ho'⟩ | ⟨hm', ho'⟩
  · rw [ho, ho']
  · exact absurd hm' hm
  · exact absurd hm hm'
  · rw [ho, Option.some.injEq] at ho'
    exact ho'

omit [DecidableEq κ] in
theorem eq_of_outline_eq {new new' : CommitObject κ ι} (hparents : new.parents = new'.parents)
    (houtline : { new with parents := [] } = { new' with parents := ([] : List κ) }) :
    new = new' := by
  obtain ⟨tree, parents, author, committer, extra, message⟩ := new
  obtain ⟨tree', parents', author', committer', extra', message'⟩ := new'
  simp only [CommitObject.mk.injEq] at houtline ⊢
  simp only at hparents
  exact ⟨houtline.1, hparents, houtline.2.2⟩

end walked

/-! ## One name for two commits -/

section alike
variable {h : History git} {wanted : List (κ × List Char)} {front back : List κ} {s : Rewrite κ ι}
  (hwalk : h.walk = front ++ back)
  (hstay : ∀ c ∈ front, ¬ Moved h wanted c → s.identity.lookup c = some c)
  (hgood : ∀ c ∈ front, Good h wanted s c)
include hstay hgood

theorem good_outline {c : κ} (hc : c ∈ front) : ∃ commit new,
    h.objects.lookup c = some commit ∧ s.image c = git.oid new ∧
      new.parents = commit.parents.map s.image ∧
      Outline h wanted c commit { new with parents := [] } := by
  obtain ⟨commit, new, hlook, hbecomes, himage, hfaithful, hne⟩ := hgood c hc
  refine ⟨commit, new, hlook, himage, hfaithful.parents,
    Good.outline hlook himage hbecomes hne fun hc' => ?_⟩
  rw [Rewrite.image, hstay c hc hc']
  rfl

include hwalk

theorem alike_of_image_eq : ∀ c ∈ front, ∀ c' ∈ front, s.image c = s.image c' →
    Alike h wanted c c' := by
  refine h.induction_on hwalk fun c hc commit hlook ih c' hc' heq => ?_
  obtain ⟨commit₁, new, hlook₁, himage, hparents, houtline⟩ := good_outline hstay hgood hc
  obtain ⟨commit', new', hlook', himage', hparents', houtline'⟩ := good_outline hstay hgood hc'
  rw [hlook, Option.some.injEq] at hlook₁
  subst hlook₁
  have hnew : new = new' := git.oid_injective (by rw [← himage, ← himage', heq])
  subst hnew
  have hmap : commit.parents.map s.image = commit'.parents.map s.image := by
    rw [← hparents, ← hparents']
  refine .step hlook hlook' houtline houtline' (by simpa using congrArg List.length hmap) ?_
  intro i p p' hp hp'
  have hpc : p ∈ commit.parents := List.mem_of_getElem? hp
  have hp'c : p' ∈ front := h.parents_mem hwalk hc' hlook' (List.mem_of_getElem? hp')
  have hat := congrArg (fun l => l[i]?) hmap
  simp only [List.getElem?_map, hp, hp', Option.map_some, Option.some.injEq] at hat
  exact ih p hpc p' hp'c hat

theorem image_eq_of_alike {c c' : κ} (halike : Alike h wanted c c') (hc : c ∈ front)
    (hc' : c' ∈ front) : s.image c = s.image c' := by
  induction halike with
  | refl c => rfl
  | @step c c' commit commit' outline hlook hlook' ho ho' hlen _ ih =>
    obtain ⟨commit₁, new, hlook₁, himage, hparents, houtline⟩ := good_outline hstay hgood hc
    obtain ⟨commit₁', new', hlook₁', himage', hparents', houtline'⟩ :=
      good_outline hstay hgood hc'
    rw [hlook, Option.some.injEq] at hlook₁
    rw [hlook', Option.some.injEq] at hlook₁'
    subst hlook₁ hlook₁'
    have hpar : new.parents = new'.parents := by
      rw [hparents, hparents']
      refine List.ext_getElem? fun i => ?_
      rw [List.getElem?_map, List.getElem?_map]
      cases hp : commit.parents[i]? with
      | none =>
        have hnone : commit'.parents[i]? = none := by
          rw [List.getElem?_eq_none_iff] at hp ⊢
          omega
        rw [hnone]
      | some p =>
        have hlt : i < commit'.parents.length := by
          have := (List.getElem?_eq_some_iff.mp hp).1
          omega
        have hp' : commit'.parents[i]? = some commit'.parents[i] := List.getElem?_eq_getElem hlt
        rw [hp', Option.map_some, Option.map_some, ih i p _ hp hp'
          (h.parents_mem hwalk hc hlook (List.mem_of_getElem? hp))
          (h.parents_mem hwalk hc' hlook' (List.mem_of_getElem? hp'))]
    rw [himage, himage', eq_of_outline_eq hpar
      ((houtline.unique ho).trans (ho'.unique houtline'))]

end alike

/-! ## Both directions -/

section directions
variable {h : History git} {wanted : List (κ × List Char)} {front back : List κ} {s : Rewrite κ ι}

/-- A finished walk has all its commits good exactly when its map is an isomorphism. -/
theorem isomorphic_iff_good (hw : Walked h wanted h.walk s) :
    Isomorphic h wanted s ↔ ∀ c ∈ h.walk, Good h wanted s c := by
  have hall : h.walk = h.walk ++ [] := (List.append_nil _).symm
  constructor
  · intro hiso
    refine h.induction_on hall fun c hc commit hlook ih => ?_
    obtain ⟨commit', new, hlook', hbecomes, hid, hobj⟩ := hw.visited c hc
    rw [hlook, Option.some.injEq] at hlook'
    subst hlook'
    obtain ⟨name, new', hid', hobj', -, hfaithful⟩ := hiso.faithful c hc commit hlook
    rw [hid, Option.some.injEq] at hid'
    subst hid'
    rw [hobj, Option.some.injEq] at hobj'
    subst hobj'
    have himage := Visited.image_eq hid
    refine ⟨commit, new, hlook, hbecomes, himage, hfaithful, ?_⟩
    refine image_ne_of_faithful hlook himage hfaithful fun p hp => ?_
    obtain ⟨-, -, -, -, -, -, hne⟩ := ih p hp
    exact hne
  · intro hgood
    refine ⟨fun c hc commit hlook => ?_, hw.image_of_not_moved hall⟩
    obtain ⟨commit₀, new₀, hlook₀, -, hid, hobj⟩ := hw.visited c hc
    obtain ⟨commit', new, hlook', -, himage, hfaithful, -⟩ := hgood c hc
    rw [hlook, Option.some.injEq] at hlook'
    subst hlook'
    have hsame : new₀ = new := git.oid_injective ((Visited.image_eq hid).symm.trans himage)
    subst hsame
    refine ⟨_, new₀, hid, hobj, fun p hp => ?_, hfaithful⟩
    obtain ⟨_, _, _, _, hidp, _⟩ := hw.visited p (h.parents_mem hall hc hlook hp)
    rw [hidp]
    rfl

theorem replayable_of_good (hw : Walked h wanted h.walk s)
    (hgood : ∀ c ∈ h.walk, Good h wanted s c) {c : κ} (hc : c ∈ h.walk)
    (hmoved : Moved h wanted c) {commit : CommitObject κ ι}
    (hlook : h.objects.lookup c = some commit) : Replayable h wanted c commit := by
  have hall : h.walk = h.walk ++ [] := (List.append_nil _).symm
  obtain ⟨commit', new, hlook', hbecomes, himage, hfaithful, hne⟩ := hgood c hc
  rw [hlook, Option.some.injEq] at hlook'
  subst hlook'
  obtain ⟨committer, hreplay, -, hmessage, hparents, -⟩ :=
    rebuilt_eq_some (rebuilt_of_image_ne hlook himage hbecomes (hne hmoved))
  refine ⟨⟨committer, hfaithful.author ▸ hreplay⟩, ?_, ?_⟩
  · cases hcode : wanted.lookup c with
    | none =>
      have hsame := hfaithful.unplanned hcode
      rw [hmessage, hcode] at hsame
      obtain ⟨body, hplain, hbody⟩ := (recorded_none_eq_iff commit).mp hsame
      exact ⟨body, hplain, 1, hbody, by simp⟩
    | some code =>
      have happ := hfaithful.planned code hcode
      rw [hmessage, hcode] at happ
      obtain ⟨body, hplain, k, hk, hbody⟩ := (appended_recorded_iff commit code).mp happ
      exact ⟨body, hplain, k, hbody, by simpa using hk⟩
  · -- The parents written are distinct, so no two of them have become one.
    have hnodup : (commit.parents.map s.image).Nodup := by
      rw [← hfaithful.parents, hparents, List.nodup_reverse]
      exact List.nodup_dedup _
    refine (List.pairwise_map.mp hnodup).imp_of_mem fun hp hp' himages halike => himages ?_
    exact image_eq_of_alike hall (hw.image_of_not_moved hall) hgood halike (h.parents_mem hall hc hlook hp)
      (h.parents_mem hall hc hlook hp')

/-- The commits that are planned, or have a parent with another name, are
those with something planned upstream. -/
theorem moved_of_not_kept (hwalk : h.walk = front ++ back) (hw : Walked h wanted front s) {c : κ}
    {commit : CommitObject κ ι} (hlook : h.objects.lookup c = some commit)
    (hparents : ∀ p ∈ commit.parents, p ∈ front)
    (hdiff : ¬ (wanted.lookup c = none ∧ commit.parents.map s.image = commit.parents)) :
    Moved h wanted c := by
  by_contra hstay
  refine hdiff ⟨?_, ?_⟩
  · cases hcode : wanted.lookup c with
    | none => rfl
    | some code => exact absurd (.planned hcode) hstay
  · conv_rhs => rw [← List.map_id commit.parents]
    refine List.map_congr_left fun p hp => ?_
    rw [Rewrite.image, hw.image_of_not_moved hwalk p (hparents p hp)
      fun hp' => hstay (.inherited hlook hp hp')]
    rfl

variable (hreplay : ∀ c ∈ h.walk, Moved h wanted c → ∀ commit,
  h.objects.lookup c = some commit → Replayable h wanted c commit)
include hreplay

theorem good_of_replayable (hw : Walked h wanted h.walk s) :
    ∀ front back, h.walk = front ++ back → ∀ c ∈ front, Good h wanted s c := by
  have hall : h.walk = h.walk ++ [] := (List.append_nil _).symm
  intro front
  induction front using List.reverseRecOn with
  | nil => exact fun _ _ c hc => by cases hc
  | append_singleton front c₀ ih =>
    intro back hwalk c hc
    have hgood := ih (c₀ :: back) (by simp [hwalk])
    rcases List.mem_append.mp hc with hc | hc
    · exact hgood c hc
    · obtain rfl := List.mem_singleton.mp hc
      have hcwalk : c ∈ h.walk := by simp [hwalk]
      obtain ⟨commit, new, hlook, hbecomes, hid, -⟩ := hw.visited c hcwalk
      have himage := Visited.image_eq hid
      have hfront : ∀ p ∈ commit.parents, p ∈ front :=
        h.parentsFirst front c back (by simp [hwalk]) commit hlook
      -- the parents are in front, so their images are faithful already
      suffices hfaithful : Faithful wanted s.image c commit new by
        refine ⟨commit, new, hlook, hbecomes, himage, hfaithful, ?_⟩
        refine image_ne_of_faithful hlook himage hfaithful fun p hp => ?_
        obtain ⟨-, -, -, -, -, -, hne⟩ := hgood p (hfront p hp)
        exact hne
      unfold Becomes at hbecomes
      split at hbecomes
      · rename_i hsame
        subst hbecomes
        exact ⟨hsame.2.symm, rfl, rfl, fun code hcode => by simp [hsame.1] at hcode, fun _ => rfl⟩
      · rename_i hdiff
        have hmoved : Moved h wanted c := moved_of_not_kept hall hw hlook
          (fun p hp => by simp [hwalk, hfront p hp]) hdiff
        obtain ⟨⟨committer, hidentity⟩, ⟨body, hplain, k, hbody, hk⟩, hpairwise⟩ :=
          hreplay c hcwalk hmoved commit hlook
        obtain ⟨committer', hidentity', htree, hmessage, hparents, -⟩ := rebuilt_eq_some hbecomes
        rw [hidentity, Option.some.injEq, Prod.mk.injEq] at hidentity'
        -- two parents with one image would be alike
        have hnodup : (commit.parents.map s.image).Nodup := by
          refine List.pairwise_map.mpr (hpairwise.imp_of_mem fun hp hp' halike heq => halike ?_)
          exact alike_of_image_eq (by simp [hwalk] : h.walk = front ++ c :: back)
            (fun p hp => hw.image_of_not_moved hall p (by simp [hwalk, hp])) hgood
            _ (hfront _ hp) _ (hfront _ hp') heq
        refine ⟨?_, htree, hidentity'.1.symm, ?_, ?_⟩
        · rw [hparents, List.dedup_eq_self.mpr (List.nodup_reverse.mpr hnodup),
            List.reverse_reverse]
        · intro code hcode
          rw [hcode] at hmessage hk
          rw [hmessage, appended_recorded_iff]
          exact ⟨body, hplain, k, by simpa using hk, hbody⟩
        · intro hnone
          rw [hnone] at hmessage hk
          rw [hmessage, recorded_none_eq_iff]
          have hone : k = 1 := by simpa using hk
          exact ⟨body, hplain, hone ▸ hbody⟩

/-- The walk is not stopped: what it has to rebuild it can. -/
theorem exists_rewriteHistory : ∃ s, rewriteHistory git wanted h.objects h.walk = .ok s := by
  have hrun : ∀ back front s₀, h.walk = front ++ back → Walked h wanted front s₀ →
      ∃ s, back.foldlM (rewriteCommit git wanted) s₀ = .ok s := by
    intro back
    induction back with
    | nil => exact fun _ s₀ _ _ => ⟨s₀, rfl⟩
    | cons c back ih =>
      intro front s₀ hwalk hw
      have hcwalk : c ∈ h.walk := by simp [hwalk]
      obtain ⟨commit, hlook⟩ := h.held c hcwalk
      have hstep : ∃ s₁, rewriteCommit git wanted s₀ c = .ok s₁ := by
        unfold rewriteCommit
        rw [hw.kept c commit hlook]
        by_cases hsame : wanted.lookup c = none ∧ commit.parents.map s₀.image = commit.parents
        · exact ⟨_, if_pos hsame⟩
        · have hmoved := moved_of_not_kept hwalk hw hlook
            (h.parentsFirst front c back hwalk commit hlook) hsame
          obtain ⟨⟨committer, hidentity⟩, -, -⟩ := hreplay c hcwalk hmoved commit hlook
          simp only [if_neg hsame, rebuilt, hidentity, Option.map_some]
          exact ⟨_, rfl⟩
      obtain ⟨s₁, hs₁⟩ := hstep
      obtain ⟨s, hs⟩ := ih (front ++ [c]) s₁ (by simp [hwalk]) (hw.step hwalk hs₁)
      exact ⟨s, Attempts.bind_eq_ok.mpr ⟨s₁, hs₁, hs⟩⟩
  exact hrun h.walk [] _ rfl (Walked.start h)

end directions

/-- The walk finishes with an isomorphism exactly when every commit that has
something planned upstream can be replayed. -/
theorem rewriteHistory_isomorphic_iff (h : History git) (wanted : List (κ × List Char)) :
    (∃ s, rewriteHistory git wanted h.objects h.walk = .ok s ∧ Isomorphic h wanted s) ↔
      ∀ c ∈ h.walk, Moved h wanted c → ∀ commit, h.objects.lookup c = some commit →
        Replayable h wanted c commit := by
  constructor
  · rintro ⟨s, hok, hiso⟩ c hc hmoved commit hlook
    have hw := walked_rewriteHistory hok
    exact replayable_of_good hw ((isomorphic_iff_good hw).mp hiso) hc hmoved hlook
  · intro hreplay
    obtain ⟨s, hok⟩ := exists_rewriteHistory hreplay
    have hw := walked_rewriteHistory hok
    exact ⟨s, hok, (isomorphic_iff_good hw).mpr
      (good_of_replayable hreplay hw h.walk [] (List.append_nil _).symm)⟩

/-! ## A message without an end -/

/-- Names that spell out what they name. -/
inductive ContentName where
  | none
  | before (parent rest : ContentName)
  | commit (tree : String) (parents : ContentName) (author committer : String)
      (extra message : List Char)
  deriving DecidableEq

/-- The name of a list of parents. -/
def ContentName.ofParents : List ContentName → ContentName
  | [] => .none
  | parent :: rest => .before parent (ofParents rest)

theorem ContentName.ofParents_injective : Function.Injective ContentName.ofParents := by
  intro parents parents' heq
  induction parents generalizing parents' with
  | nil =>
    cases parents' with
    | nil => rfl
    | cons => cases heq
  | cons parent parents ih =>
    cases parents' with
    | nil => cases heq
    | cons parent' parents' =>
      obtain ⟨hfirst, hrest⟩ := ContentName.before.inj heq
      rw [hfirst, ih hrest]

/-- Identities that are only a name. -/
def contentGit : Git ContentName String where
  oid commit := .commit commit.tree (.ofParents commit.parents) commit.author commit.committer
    commit.extra commit.message
  oid_injective := by
    rintro ⟨tree, parents, author, committer, extra, message⟩ ⟨_, _, _, _, _, _⟩ heq
    obtain ⟨rfl, hparents, rfl, rfl, rfl, rfl⟩ := ContentName.commit.inj heq
    obtain rfl := ContentName.ofParents_injective hparents
    rfl
  name := String.toList
  email _ := []
  date _ := []
  person name _ _ := some (String.ofList name)

/-- A commit that gets a trailer. -/
def plannedRoot : CommitObject ContentName String :=
  ⟨"root", [], "a", "a", [], ['m', '\n']⟩

/-- Its child, whose message was recorded without a newline at its end. -/
def unendedChild : CommitObject ContentName String :=
  ⟨"child", [contentGit.oid plannedRoot], "a", "a", [], ['r']⟩

/-- A history in which a message does not end its line. -/
def unendedHistory : History contentGit where
  objects := [(contentGit.oid plannedRoot, plannedRoot), (contentGit.oid unendedChild, unendedChild)]
  walk := [contentGit.oid plannedRoot, contentGit.oid unendedChild]
  named := by
    intro c commit hlook
    obtain heq | heq : (c, commit) = (contentGit.oid plannedRoot, plannedRoot) ∨
        (c, commit) = (contentGit.oid unendedChild, unendedChild) := by
      simpa using Keyed.mem_of_lookup hlook
    all_goals
      obtain ⟨rfl, rfl⟩ := Prod.mk.inj heq
      rfl
  nodup := by decide
  held := by
    intro c hc
    rcases List.mem_pair.mp hc with rfl | rfl
    · exact ⟨plannedRoot, by decide⟩
    · exact ⟨unendedChild, by decide⟩
  parentsFirst := by
    intro front c back hwalk commit hlook p hp
    rcases front with _ | ⟨first, _ | ⟨second, rest⟩⟩
    · obtain ⟨rfl, -⟩ := List.cons.inj hwalk
      have hroot : commit = plannedRoot := (Option.some.inj hlook).symm
      rw [hroot] at hp
      cases hp
    · obtain ⟨rfl, hrest⟩ := List.cons.inj hwalk
      obtain ⟨rfl, -⟩ := List.cons.inj hrest
      have hchild : some unendedChild = some commit := by
        rw [← hlook]
        decide
      rw [← Option.some.inj hchild] at hp
      exact hp
    · have hlen := congrArg List.length hwalk
      simp at hlen

/-- The child of a planned commit comes back with a newline it did not have. -/
theorem rewriteHistory_unended :
    (∃ s, rewriteHistory contentGit [(contentGit.oid plannedRoot, ['c'])] unendedHistory.objects
        unendedHistory.walk = .ok s ∧
      (s.objects.lookup (s.image (contentGit.oid unendedChild))).map CommitObject.message =
        some ['r', '\n']) ∧
      ¬ ∃ s, rewriteHistory contentGit [(contentGit.oid plannedRoot, ['c'])]
          unendedHistory.objects unendedHistory.walk = .ok s ∧
        Isomorphic unendedHistory [(contentGit.oid plannedRoot, ['c'])] s := by
  have hrun : ∃ s, rewriteHistory contentGit [(contentGit.oid plannedRoot, ['c'])]
      unendedHistory.objects unendedHistory.walk = .ok s ∧
      (s.objects.lookup (s.image (contentGit.oid unendedChild))).map CommitObject.message =
        some ['r', '\n'] := ⟨_, rfl, by decide⟩
  refine ⟨hrun, ?_⟩
  rintro ⟨s, hok, hiso⟩
  obtain ⟨s₀, hok₀, hmessage⟩ := hrun
  obtain rfl : s = s₀ := Except.ok.inj (hok.symm.trans hok₀)
  obtain ⟨name, new, hid, hobj, -, hfaithful⟩ :=
    hiso.faithful (contentGit.oid unendedChild) (by decide) unendedChild (by decide)
  have hsame : new.message = ['r'] := hfaithful.unplanned (by decide)
  have himage : s.image (contentGit.oid unendedChild) = name := by
    rw [Rewrite.image, hid]
    rfl
  rw [himage, hobj, Option.map_some, hsame] at hmessage
  cases hmessage

end AgentsRemember.Backfill
