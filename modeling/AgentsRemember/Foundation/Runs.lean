/-!
# Foundation — Runs

Runs of a labelled, partial transition function. A run is the list of
labels it takes; a label that is not enabled ends it. Everything here
is about an arbitrary state type, so the modules that model a concrete
component only supply `step` and one lemma a label.

`Along P s ls` says that `P` holds of every transition the run `ls`
takes from `s`. The two rules at the end are the only inductions on
runs: a preserved invariant reaches the end of a run, and a property
of transitions that is, under an invariant, equivalent to a condition
on transitions is equivalent to it along whole runs.
-/

namespace Runs

variable {σ ℓ : Type} (step : σ → ℓ → Option σ)

/-- The state a run ends in, when every label of it is enabled. -/
def run : σ → List ℓ → Option σ
  | s, [] => some s
  | s, l :: ls => (step s l).bind (run · ls)

/-- `P` holds of every transition that the run `ls` takes from `s`. -/
def Along (P : σ → ℓ → σ → Prop) : σ → List ℓ → Prop
  | _, [] => True
  | s, l :: ls => ∀ s', step s l = some s' → P s l s' ∧ Along P s' ls

instance decidableAlong {P : σ → ℓ → σ → Prop} [∀ s l s', Decidable (P s l s')] :
    (s : σ) → (ls : List ℓ) → Decidable (Along step P s ls)
  | _, [] => isTrue trivial
  | s, l :: ls =>
    have := fun s' => decidableAlong (P := P) s' ls
    inferInstanceAs (Decidable (∀ s' ∈ step s l, P s l s' ∧ Along step P s' ls))

/-- Every state that the run `ls` visits from `s` satisfies `P`. -/
def Always (P : σ → Prop) (s : σ) (ls : List ℓ) : Prop :=
  P s ∧ Along step (fun _ _ s' => P s') s ls

/-- The states that some run from `init` ends in. -/
def Reachable (init s : σ) : Prop := ∃ ls, run step init ls = some s

/-- How many transitions of the run `ls` from `s` satisfy `P`. -/
def count (P : σ → σ → Prop) [∀ s s', Decidable (P s s')] : σ → List ℓ → Nat
  | _, [] => 0
  | s, l :: ls =>
    match step s l with
    | none => 0
    | some s' => (if P s s' then 1 else 0) + count P s' ls

variable {step}

@[simp] theorem run_nil (s : σ) : run step s [] = some s := rfl

theorem run_cons_eq_some {s t : σ} {l : ℓ} {ls : List ℓ} :
    run step s (l :: ls) = some t ↔
      ∃ s', step s l = some s' ∧ run step s' ls = some t :=
  Option.bind_eq_some_iff

theorem run_append {s t : σ} {ls ks : List ℓ} :
    run step s (ls ++ ks) = some t ↔
      ∃ u, run step s ls = some u ∧ run step u ks = some t := by
  induction ls generalizing s with
  | nil => simp
  | cons l ls ih =>
    simp only [List.cons_append, run_cons_eq_some, ih]
    constructor
    · rintro ⟨s', hs, u, hu, ht⟩
      exact ⟨u, ⟨s', hs, hu⟩, ht⟩
    · rintro ⟨u, ⟨s', hs, hu⟩, ht⟩
      exact ⟨s', hs, u, hu, ht⟩

theorem Reachable.init (s : σ) : Reachable step s s := ⟨[], rfl⟩

theorem Reachable.snoc {s t u : σ} {l : ℓ} (h : Reachable step s t)
    (hs : step t l = some u) : Reachable step s u := by
  obtain ⟨ls, hls⟩ := h
  exact ⟨ls ++ [l], run_append.mpr ⟨t, hls, run_cons_eq_some.mpr ⟨u, hs, rfl⟩⟩⟩

theorem Along.mono {P Q : σ → ℓ → σ → Prop} {s : σ} {ls : List ℓ}
    (hPQ : ∀ s l s', P s l s' → Q s l s') (h : Along step P s ls) :
    Along step Q s ls := by
  induction ls generalizing s with
  | nil => trivial
  | cons l ls ih =>
    intro s' hs
    obtain ⟨hp, hrest⟩ := h s' hs
    exact ⟨hPQ _ _ _ hp, ih hrest⟩

theorem Along.append {P : σ → ℓ → σ → Prop} {s u : σ} {ls ks : List ℓ}
    (h : Along step P s (ls ++ ks)) (hu : run step s ls = some u) :
    Along step P s ls ∧ Along step P u ks := by
  induction ls generalizing s with
  | nil => cases hu; exact ⟨trivial, h⟩
  | cons l ls ih =>
    obtain ⟨s', hs, hrest⟩ := run_cons_eq_some.mp hu
    obtain ⟨hp, hk⟩ := h s' hs
    obtain ⟨hl, hk⟩ := ih hk hrest
    refine ⟨fun t ht => ?_, hk⟩
    cases hs.symm.trans ht
    exact ⟨hp, hl⟩

/-- A property of transitions may be checked at each place of the run. -/
theorem along_of_forall {P : σ → ℓ → σ → Prop} {s : σ} {ls : List ℓ}
    (h : ∀ pre l post, ls = pre ++ l :: post → ∀ u u', run step s pre = some u →
      step u l = some u' → P u l u') : Along step P s ls := by
  induction ls generalizing s with
  | nil => trivial
  | cons l ls ih =>
    intro s' hs
    refine ⟨h [] l ls rfl s s' rfl hs, ih ?_⟩
    rintro pre k post rfl u u' hu hk
    exact h (l :: pre) k post rfl u u' (run_cons_eq_some.mpr ⟨s', hs, hu⟩) hk

/-- Where a property does not hold along a run, some step of it breaks it. -/
theorem exists_of_not_along {P : σ → ℓ → σ → Prop} {s : σ} {ls : List ℓ}
    (h : ¬Along step P s ls) : ∃ pre l post u u', ls = pre ++ l :: post ∧
      run step s pre = some u ∧ step u l = some u' ∧ ¬P u l u' := by
  apply Classical.byContradiction
  intro hn
  apply h
  apply along_of_forall
  intro pre l post he u u' hu hl
  apply Classical.byContradiction
  intro hp
  exact hn ⟨pre, l, post, u, u', he, hu, hl, hp⟩

/-- What a run visits includes where it ends. -/
theorem Always.at_end {P : σ → Prop} {s t : σ} {ls : List ℓ} (h : Always step P s ls)
    (ht : run step s ls = some t) : P t := by
  induction ls generalizing s with
  | nil => cases ht; exact h.1
  | cons l ls ih =>
    obtain ⟨s', hs', hrest⟩ := run_cons_eq_some.mp ht
    exact ih (h.2 s' hs') hrest

/-- The invariant rule: what every step meeting the condition `C`
preserves holds at the end of every run whose steps all meet `C`. -/
theorem Along.invariant {C : σ → ℓ → σ → Prop} {I : σ → Prop}
    (keep : ∀ s l s', I s → step s l = some s' → C s l s' → I s')
    {s t : σ} {ls : List ℓ} (hs : I s) (hC : Along step C s ls)
    (ht : run step s ls = some t) : I t := by
  induction ls generalizing s with
  | nil => cases ht; exact hs
  | cons l ls ih =>
    obtain ⟨s', hs', hrest⟩ := run_cons_eq_some.mp ht
    obtain ⟨hc, hk⟩ := hC s' hs'
    exact ih (keep _ _ _ hs hs' hc) hk hrest

/-- What an invariant gives holds all along every run whose steps all meet `C`. -/
theorem Along.always {C : σ → ℓ → σ → Prop} {I P : σ → Prop}
    (keep : ∀ s l s', I s → step s l = some s' → C s l s' → I s') (give : ∀ s, I s → P s)
    {s : σ} {ls : List ℓ} (hs : I s) (hC : Along step C s ls) : Always step P s ls := by
  refine ⟨give s hs, ?_⟩
  induction ls generalizing s with
  | nil => trivial
  | cons l ls ih =>
    intro s' hs'
    obtain ⟨hc, hrest⟩ := hC s' hs'
    have hi := keep s l s' hs hs' hc
    exact ⟨give s' hi, ih hi hrest⟩

/-- The invariant rule for an unconditional invariant. -/
theorem Reachable.invariant {I : σ → Prop}
    (keep : ∀ s l s', I s → step s l = some s' → I s') {s t : σ} (hs : I s)
    (ht : Reachable step s t) : I t := by
  obtain ⟨ls, hls⟩ := ht
  induction ls generalizing s with
  | nil => cases hls; exact hs
  | cons l ls ih =>
    obtain ⟨s', hs', hrest⟩ := run_cons_eq_some.mp hls
    exact ih (keep _ _ _ hs hs') hrest

/-- What an invariant gives holds all along every run. -/
theorem always_of_invariant {I P : σ → Prop}
    (keep : ∀ s l s', I s → step s l = some s' → I s') (give : ∀ s, I s → P s) {s : σ}
    {ls : List ℓ} (hs : I s) : Always step P s ls := by
  refine ⟨give s hs, ?_⟩
  induction ls generalizing s with
  | nil => trivial
  | cons l ls ih =>
    intro s' hs'
    have hi := keep s l s' hs hs'
    exact ⟨give s' hi, ih hi⟩

/-- What only happens where `Q` does not hold yet, and leaves `Q` to hold for
good, happens once at most. -/
theorem count_le_one {P : σ → σ → Prop} [∀ s s', Decidable (P s s')] {Q : σ → Prop}
    (keep : ∀ s l s', step s l = some s' → Q s → Q s')
    (once : ∀ s l s', step s l = some s' → P s s' → ¬Q s ∧ Q s') (s : σ) (ls : List ℓ) :
    count step P s ls ≤ 1 ∧ (Q s → count step P s ls = 0) := by
  induction ls generalizing s with
  | nil => simp [count]
  | cons l ls ih =>
    rw [count]
    split
    · simp
    next s' hs =>
      by_cases hp : P s s'
      · obtain ⟨hbefore, hafter⟩ := once s l s' hs hp
        rw [if_pos hp, (ih s').2 hafter]
        exact ⟨Nat.le_refl 1, fun hq => absurd hq hbefore⟩
      · rw [if_neg hp, Nat.zero_add]
        exact ⟨(ih s').1, fun hq => (ih s').2 (keep s l s' hs hq)⟩

/-- What holds at the end of a run held all along it, or a last step made it
hold and it held from there on. -/
theorem always_or_last {Q : σ → Prop} {s t : σ} {ls : List ℓ} (ht : run step s ls = some t)
    (hQ : Q t) : Always step Q s ls ∨ ∃ pre l post u u', ls = pre ++ l :: post ∧
      run step s pre = some u ∧ step u l = some u' ∧ run step u' post = some t ∧
      ¬Q u ∧ Always step Q u' post := by
  induction ls generalizing s with
  | nil => cases ht; exact .inl ⟨hQ, trivial⟩
  | cons l ls ih =>
    obtain ⟨s', hs', hrest⟩ := run_cons_eq_some.mp ht
    obtain hall | ⟨pre, k, post, u, u', rfl, hu, hk, hend, hnot, hkeep⟩ := ih hrest
    · by_cases hs : Q s
      · left
        refine ⟨hs, fun v hv => ?_⟩
        cases hs'.symm.trans hv
        exact hall
      · exact .inr ⟨[], l, ls, s, s', rfl, rfl, hs', hrest, hs, hall⟩
    · exact .inr ⟨l :: pre, k, post, u, u', rfl, run_cons_eq_some.mpr ⟨s', hs', hu⟩, hk, hend,
        hnot, hkeep⟩

/-- Under an invariant that the steps meeting `C` preserve, a property
of transitions that is equivalent to `C` step by step is equivalent to
it along the whole run: the first bad step would break both. -/
theorem along_iff_along {C P : σ → ℓ → σ → Prop} {I : σ → Prop}
    (keep : ∀ s l s', I s → step s l = some s' → C s l s' → I s')
    (same : ∀ s l s', I s → step s l = some s' → (C s l s' ↔ P s l s'))
    {s : σ} {ls : List ℓ} (hs : I s) :
    Along step C s ls ↔ Along step P s ls := by
  induction ls generalizing s with
  | nil => exact Iff.rfl
  | cons l ls ih =>
    constructor
    · intro h s' hs'
      obtain ⟨hc, hrest⟩ := h s' hs'
      exact ⟨(same _ _ _ hs hs').mp hc, (ih (keep _ _ _ hs hs' hc)).mp hrest⟩
    · intro h s' hs'
      obtain ⟨hp, hrest⟩ := h s' hs'
      have hc := (same _ _ _ hs hs').mpr hp
      exact ⟨hc, (ih (keep _ _ _ hs hs' hc)).mpr hrest⟩

end Runs
