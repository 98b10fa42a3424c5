/-!
# Foundation — Mirror

A component that answers every call with the mutations it made, and a reader
that holds a copy and applies them. `Leads` says that a list of mutations takes
one copy to another, each of them proper for the copy that it meets. The run
rule is the only induction on calls: mutations that lead from what the
component showed before a call to what it shows after it do so along every run.
-/

namespace Mirror

section leads
variable {ρ μ : Type} (receive : ρ → μ → ρ) (Proper : ρ → μ → Prop)

/-- The mutations lead from one copy to another. -/
def Leads : ρ → List μ → ρ → Prop
  | r, [], r' => r = r'
  | r, m :: ms, r' => Proper r m ∧ Leads (receive r m) ms r'

variable {receive Proper}

theorem Leads.nil (r : ρ) : Leads receive Proper r [] r := rfl

theorem Leads.single {r r' : ρ} {m : μ} (hm : Proper r m) (h : receive r m = r') :
    Leads receive Proper r [m] r' := ⟨hm, h⟩

theorem Leads.append {r r' r'' : ρ} {ms ns : List μ} (h : Leads receive Proper r ms r')
    (h' : Leads receive Proper r' ns r'') : Leads receive Proper r (ms ++ ns) r'' := by
  induction ms generalizing r with
  | nil =>
    obtain rfl : r = r' := h
    exact h'
  | cons m ms ih => exact ⟨h.1, ih h.2⟩

/-- The reader that applies them ends with the copy they lead to. -/
theorem Leads.foldl {r r' : ρ} {ms : List μ} (h : Leads receive Proper r ms r') :
    ms.foldl receive r = r' := by
  induction ms generalizing r with
  | nil => exact h
  | cons m ms ih => exact ih h.2

end leads

section runs
variable {σ κ μ ρ : Type} (step : σ → κ → σ × List μ)

/-- The state after a list of calls, and all the mutations they answered. -/
def run : σ → List κ → σ × List μ
  | s, [] => (s, [])
  | s, k :: ks => ((run (step s k).1 ks).1, (step s k).2 ++ (run (step s k).1 ks).2)

/-- Every call of the run meets `C` in the state in which it comes. -/
def Throughout (C : σ → κ → Prop) : σ → List κ → Prop
  | _, [] => True
  | s, k :: ks => C s k ∧ Throughout C (step s k).1 ks

instance {C : σ → κ → Prop} [∀ s k, Decidable (C s k)] :
    (s : σ) → (ks : List κ) → Decidable (Throughout step C s ks)
  | _, [] => isTrue trivial
  | s, k :: ks => @instDecidableAnd _ _ _ (instDecidableThroughout (step s k).1 ks)

variable {step} {receive : ρ → μ → ρ} {Proper : ρ → μ → Prop}

theorem run_invariant {I : σ → Prop} (keep : ∀ s k, I s → I (step s k).1) {s : σ}
    (ks : List κ) (hs : I s) : I (run step s ks).1 := by
  induction ks generalizing s with
  | nil => exact hs
  | cons k ks ih => exact ih (keep s k hs)

/-- What a call gives of the state before and the state after it, a run does. -/
theorem run_rel {R : σ → σ → Prop} (refl : ∀ s, R s s)
    (trans : ∀ {s t u}, R s t → R t u → R s u) {I : σ → Prop}
    (keep : ∀ s k, I s → I (step s k).1) (give : ∀ s k, I s → R s (step s k).1) {s : σ}
    (ks : List κ) (hs : I s) : R s (run step s ks).1 := by
  induction ks generalizing s with
  | nil => exact refl s
  | cons k ks ih => exact trans (give s k hs) (ih (keep s k hs))

/-- Calls that keep an invariant, and each meet `C` where it holds, do so along every run of
them. -/
theorem throughout_of_calls {I : σ → Prop} {P : κ → Prop} {C : σ → κ → Prop}
    (keep : ∀ s k, I s → P k → I (step s k).1) (meet : ∀ s k, I s → P k → C s k) {s : σ}
    {ks : List κ} (hs : I s) (hks : ∀ k ∈ ks, P k) :
    Throughout step C s ks ∧ I (run step s ks).1 := by
  induction ks generalizing s with
  | nil => exact ⟨trivial, hs⟩
  | cons k ks ih =>
    obtain ⟨hk, hrest⟩ := List.forall_mem_cons.mp hks
    obtain ⟨hthroughout, hend⟩ := ih (keep s k hs hk) hrest
    exact ⟨⟨meet s k hs hk, hthroughout⟩, hend⟩

theorem leads_run {view : σ → ρ} {I : σ → Prop} {C : σ → κ → Prop}
    (keep : ∀ s k, I s → I (step s k).1)
    (lead : ∀ s k, I s → C s k →
      Leads receive Proper (view s) (step s k).2 (view (step s k).1))
    {s : σ} {ks : List κ} (hs : I s) (hC : Throughout step C s ks) :
    Leads receive Proper (view s) (run step s ks).2 (view (run step s ks).1) := by
  induction ks generalizing s with
  | nil => exact rfl
  | cons k ks ih =>
    obtain ⟨hk, hrest⟩ := hC
    exact (lead s k hs hk).append (ih (keep s k hs) hrest)

end runs

end Mirror
