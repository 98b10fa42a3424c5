/-!
# Foundation — Checks

Validators: sequences of checks, each of which refuses with an error or lets
pass, of which the first refusal is the result.
-/

namespace Checks

variable {ε : Type}

/-- Refuse when the condition holds. -/
def refuseIf (c : Prop) [Decidable c] (e : ε) : Except ε Unit :=
  if c then .error e else .ok ()

/-- The first refusal of the checks, in order. -/
def inOrder : List (Except ε Unit) → Except ε Unit
  | [] => .ok ()
  | .error e :: _ => .error e
  | .ok () :: checks => inOrder checks

@[simp] theorem refuseIf_ok {c : Prop} [Decidable c] {e : ε} : refuseIf c e = .ok () ↔ ¬c := by
  unfold refuseIf
  split
  next h => simp [h]
  next h => simp [h]

@[simp] theorem inOrder_nil_ok : inOrder ([] : List (Except ε Unit)) = .ok () := rfl

@[simp] theorem inOrder_cons_ok {check : Except ε Unit} {checks : List (Except ε Unit)} :
    inOrder (check :: checks) = .ok () ↔ check = .ok () ∧ inOrder checks = .ok () := by
  cases check with
  | error e => simp [inOrder]
  | ok u => simp [inOrder]

theorem inOrder_ok {checks : List (Except ε Unit)} :
    inOrder checks = .ok () ↔ ∀ check ∈ checks, check = .ok () := by
  induction checks with
  | nil => simp
  | cons check checks ih => simp [ih]

/-- Every check of a list that passes has passed. -/
theorem ok_of_inOrder {checks : List (Except ε Unit)} (h : inOrder checks = .ok ())
    {check : Except ε Unit} (hc : check ∈ checks) : check = .ok () :=
  inOrder_ok.mp h check hc

/-- What succeeds is the result taken out of it. -/
theorem eq_ok_get {α : Type} {x : Except ε α} (h : x.toOption.isSome = true) :
    x = .ok (x.toOption.get h) := by
  cases x with
  | error e => cases h
  | ok a => rfl

end Checks
