import Mathlib.Logic.Relation
import Mathlib.Order.Bounds.Basic
import Mathlib.Order.WellFoundedSet

/-!
# Foundation — Layers

A graph in layers: the layer of a vertex is the length of the longest chain of
edges that ends in it. The layers can be peeled off one after the other, each the
vertices all of whose predecessors are peeled; of finitely many vertices nothing
is left in the end exactly when there is no cycle.
-/

namespace Layers

open Relation

variable {α : Type} (E : α → α → Prop)

/-- A chain of so many edges ends in the vertex. -/
def Chain : Nat → α → Prop
  | 0, _ => True
  | k + 1, v => ∃ u, E u v ∧ Chain k u

/-- The longest chain that ends in the vertex has this length. -/
def Layer (k : Nat) (v : α) : Prop := IsGreatest {m | Chain E m v} k

/-- No vertex reaches itself. -/
def Acyclic : Prop := ∀ v, ¬TransGen E v v

variable {E}

theorem Chain.pred {k : Nat} {v : α} (h : Chain E (k + 1) v) : Chain E k v := by
  induction k generalizing v with
  | zero => trivial
  | succ k ih =>
    obtain ⟨u, hu, hchain⟩ := h
    exact ⟨u, hu, ih hchain⟩

theorem Chain.anti {k m : Nat} {v : α} (h : Chain E m v) (hkm : k ≤ m) : Chain E k v := by
  induction m, hkm using Nat.le_induction with
  | base => exact h
  | succ m _ ih => exact ih h.pred

theorem layer_iff {k : Nat} {v : α} : Layer E k v ↔ Chain E k v ∧ ¬Chain E (k + 1) v := by
  constructor
  · intro ⟨hchain, hgreatest⟩
    exact ⟨hchain, fun hlonger => Nat.not_succ_le_self k (hgreatest hlonger)⟩
  · rintro ⟨hchain, hlast⟩
    refine ⟨hchain, fun m hm => ?_⟩
    by_contra hlt
    exact hlast (Chain.anti hm (not_le.mp hlt))

/-- A vertex is in the next layer once its predecessors are all peeled. -/
theorem layer_iff_peeled {k : Nat} {v : α} :
    Layer E k v ↔ Chain E k v ∧ ∀ u, E u v → ¬Chain E k u := by
  rw [layer_iff]
  constructor
  · rintro ⟨hchain, hlast⟩
    exact ⟨hchain, fun u hu hu' => hlast ⟨u, hu, hu'⟩⟩
  · rintro ⟨hchain, hpeeled⟩
    exact ⟨hchain, fun ⟨u, hu, hu'⟩ => hpeeled u hu hu'⟩

theorem chain_succ_iff {k : Nat} {v : α} : Chain E (k + 1) v ↔ Chain E k v ∧ ¬Layer E k v := by
  rw [layer_iff]
  constructor
  · intro h
    exact ⟨h.pred, fun hlayer => hlayer.2 h⟩
  · rintro ⟨hchain, hnot⟩
    by_contra hlast
    exact hnot ⟨hchain, hlast⟩

/-- Around a cycle a chain may be of any length. -/
theorem chain_of_transGen {v : α} (h : TransGen E v v) (k : Nat) : Chain E k v := by
  have hback : ∀ {u w : α}, TransGen E u w → ∀ k, Chain E k u → Chain E (k + 1) w := by
    intro u w huw
    induction huw with
    | single hw => exact fun k hk => ⟨_, hw, hk⟩
    | tail _ hw ih => exact fun k hk => ⟨_, hw, (ih k hk).pred⟩
  induction k with
  | zero => trivial
  | succ k ih => exact hback h k ih

/-- Without a cycle, peeling a finite set of vertices, with their predecessors,
stops only when nothing is left. -/
theorem no_chain_of_stopped {s : Set α} (hfinite : s.Finite) (hclosed : ∀ u v, E u v → u ∈ s)
    (hacyclic : Acyclic E) {k : Nat} (hstop : ∀ v ∈ s, ¬Layer E k v) :
    ∀ v ∈ s, ¬Chain E k v := by
  intro v hvs hv
  have hpred : ∀ w ∈ s, Chain E k w → ∃ u, E u w ∧ Chain E k u := by
    intro w hws hw
    by_contra hnone
    exact hstop w hws (layer_iff_peeled.mpr ⟨hw, fun u hu hu' => hnone ⟨u, hu, hu'⟩⟩)
  -- what is left has a least vertex along the edges
  have hleft : {w | w ∈ s ∧ Chain E k w}.Finite := hfinite.subset fun w hw => hw.1
  have hstrict : IsStrictOrder α (TransGen E) :=
    { irrefl := hacyclic
      trans := fun _ _ _ => TransGen.trans }
  have hwf := hleft.wellFoundedOn (r := TransGen E)
  obtain ⟨w, -, hleast⟩ := hwf.has_min Set.univ ⟨⟨v, hvs, hv⟩, trivial⟩
  obtain ⟨u, hu, hchain⟩ := hpred w.1 w.2.1 w.2.2
  exact hleast ⟨u, hclosed u w.1 hu, hchain⟩ trivial (.single hu)

/-! ## The same graph over other vertices -/

section simulation
variable {β : Type} {F : β → β → Prop} {R : α → β → Prop}

theorem transGen_back (hback : ∀ ⦃u v b⦄, E u v → R v b → ∃ a, R u a ∧ F a b) {u v : α} {b : β}
    (h : TransGen E u v) (hv : R v b) : ∃ a, R u a ∧ TransGen F a b := by
  induction h using TransGen.head_induction_on with
  | single hu =>
    obtain ⟨a, ha, hab⟩ := hback hu hv
    exact ⟨a, ha, .single hab⟩
  | head hu _ ih =>
    obtain ⟨c, hc, hcb⟩ := ih
    obtain ⟨a, ha, hac⟩ := hback hu hc
    exact ⟨a, ha, .head hac hcb⟩

/-- A graph whose edges are followed in a graph without a cycle has none. -/
theorem Acyclic.of_simulation (hF : Acyclic F)
    (hback : ∀ ⦃u v b⦄, E u v → R v b → ∃ a, R u a ∧ F a b)
    (hone : ∀ ⦃v a b⦄, R v a → R v b → a = b) (htarget : ∀ ⦃u v⦄, E u v → ∃ b, R v b) :
    Acyclic E := by
  intro v hcycle
  obtain ⟨u, -, huv⟩ := TransGen.tail'_iff.mp hcycle
  obtain ⟨b, hb⟩ := htarget huv
  obtain ⟨a, ha, hab⟩ := transGen_back hback hcycle hb
  rw [hone ha hb] at hab
  exact hF b hab

theorem chain_iff (hback : ∀ ⦃u v b⦄, E u v → R v b → ∃ a, R u a ∧ F a b)
    (hforth : ∀ ⦃a b v⦄, F a b → R v b → ∃ u, R u a ∧ E u v) {k : Nat} {v : α} {b : β}
    (h : R v b) : Chain E k v ↔ Chain F k b := by
  induction k generalizing v b with
  | zero => exact Iff.rfl
  | succ k ih =>
    constructor
    · rintro ⟨u, hu, hchain⟩
      obtain ⟨a, ha, hab⟩ := hback hu h
      exact ⟨a, hab, (ih ha).mp hchain⟩
    · rintro ⟨a, hab, hchain⟩
      obtain ⟨u, hu, huv⟩ := hforth hab h
      exact ⟨u, huv, (ih hu).mpr hchain⟩

end simulation

end Layers
