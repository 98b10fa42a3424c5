/-!
# Foundation — Attempts

Computations that may stop half-way: how a sequence of two ends, read from its
parts, and two that run in parallel, which end alike and in related states.
-/

namespace Attempts

variable {ε α β : Type} {x : Except ε α} {f : α → Except ε β}

theorem bind_eq_ok {b : β} : x >>= f = .ok b ↔ ∃ a, x = .ok a ∧ f a = .ok b := by
  constructor
  · intro h
    cases x with
    | error e => cases h
    | ok a => exact ⟨a, rfl, h⟩
  · rintro ⟨a, rfl, h⟩
    exact h

theorem bind_eq_error {e : ε} :
    x >>= f = .error e ↔ x = .error e ∨ ∃ a, x = .ok a ∧ f a = .error e := by
  constructor
  · intro h
    cases x with
    | error e' =>
      cases h
      exact .inl rfl
    | ok a => exact .inr ⟨a, rfl, h⟩
  · rintro (rfl | ⟨a, rfl, h⟩)
    · rfl
    · exact h

theorem forM_eq_ok {f : α → Except ε Unit} {xs : List α} :
    xs.forM f = .ok () ↔ ∀ x ∈ xs, f x = .ok () := by
  induction xs with
  | nil => simp [pure, Except.pure]
  | cons x xs ih =>
    rw [show (x :: xs).forM f = f x >>= fun _ => xs.forM f from rfl, bind_eq_ok]
    simp only [List.mem_cons, forall_eq_or_imp]
    constructor
    · rintro ⟨_, hx, hxs⟩
      exact ⟨hx, ih.mp hxs⟩
    · rintro ⟨hx, hxs⟩
      exact ⟨(), hx, ih.mpr hxs⟩

theorem forM_eq_error {f : α → Except ε Unit} {xs : List α} {e : ε}
    (h : xs.forM f = .error e) : ∃ x ∈ xs, f x = .error e := by
  induction xs with
  | nil => cases h
  | cons x xs ih =>
    rw [show (x :: xs).forM f = f x >>= fun _ => xs.forM f from rfl, bind_eq_error] at h
    obtain hx | ⟨_, -, hxs⟩ := h
    · exact ⟨x, List.mem_cons_self, hx⟩
    · obtain ⟨y, hy, he⟩ := ih hxs
      exact ⟨y, List.mem_cons_of_mem x hy, he⟩

theorem mapM_eq_error {f : α → Except ε β} {xs : List α} {e : ε} (h : xs.mapM f = .error e) :
    ∃ x ∈ xs, f x = .error e := by
  induction xs with
  | nil => cases h
  | cons x xs ih =>
    rw [List.mapM_cons] at h
    obtain hx | ⟨y, -, h⟩ := bind_eq_error.mp h
    · exact ⟨x, List.mem_cons_self, hx⟩
    · obtain h | ⟨ys, -, h⟩ := bind_eq_error.mp h
      · obtain ⟨z, hz, he⟩ := ih h
        exact ⟨z, List.mem_cons_of_mem x hz, he⟩
      · cases h

theorem exists_mapM_eq_ok {f : α → Except ε β} {xs : List α} :
    (∃ ys, xs.mapM f = .ok ys) ↔ ∀ x ∈ xs, ∃ y, f x = .ok y := by
  induction xs with
  | nil => exact ⟨fun _ x hx => (List.not_mem_nil hx).elim, fun _ => ⟨[], rfl⟩⟩
  | cons x xs ih =>
    simp only [List.mapM_cons, bind_eq_ok, List.mem_cons, forall_eq_or_imp, ← ih]
    constructor
    · rintro ⟨_, y, hy, rest, hrest, -⟩
      exact ⟨⟨y, hy⟩, rest, hrest⟩
    · rintro ⟨⟨y, hy⟩, rest, hrest⟩
      exact ⟨y :: rest, y, hy, rest, hrest, rfl⟩

theorem ok_of_mem_mapM {f : α → Except ε β} {xs : List α} {ys : List β}
    (h : xs.mapM f = .ok ys) {x : α} (hx : x ∈ xs) : ∃ y, f x = .ok y :=
  exists_mapM_eq_ok.mp ⟨ys, h⟩ x hx

theorem mem_mapM {f : α → Except ε β} {xs : List α} {ys : List β} (h : xs.mapM f = .ok ys)
    (y : β) : y ∈ ys ↔ ∃ x ∈ xs, f x = .ok y := by
  induction xs generalizing ys with
  | nil =>
    cases h
    simp
  | cons x xs ih =>
    rw [List.mapM_cons] at h
    obtain ⟨z, hz, h⟩ := bind_eq_ok.mp h
    obtain ⟨zs, hzs, h⟩ := bind_eq_ok.mp h
    cases h
    rw [List.mem_cons, ih hzs]
    constructor
    · rintro (rfl | ⟨x', hx', hy⟩)
      · exact ⟨x, by simp, hz⟩
      · exact ⟨x', by simp [hx'], hy⟩
    · rintro ⟨x', hx', hy⟩
      rcases List.mem_cons.mp hx' with rfl | hx'
      · rw [hz] at hy
        exact .inl (Except.ok.inj hy).symm
      · exact .inr ⟨x', hx', hy⟩

theorem length_mapM {f : α → Except ε β} {xs : List α} {ys : List β}
    (h : xs.mapM f = .ok ys) : ys.length = xs.length := by
  induction xs generalizing ys with
  | nil =>
    cases h
    rfl
  | cons x xs ih =>
    rw [List.mapM_cons] at h
    obtain ⟨z, -, h⟩ := bind_eq_ok.mp h
    obtain ⟨zs, hzs, h⟩ := bind_eq_ok.mp h
    cases h
    rw [List.length_cons, List.length_cons, ih hzs]

/-- Results that tell their arguments tell the list. -/
theorem map_of_mapM {f : α → Except ε β} {g : β → α} (hf : ∀ x y, f x = .ok y → g y = x)
    {xs : List α} {ys : List β} (h : xs.mapM f = .ok ys) : ys.map g = xs := by
  induction xs generalizing ys with
  | nil =>
    cases h
    rfl
  | cons x xs ih =>
    rw [List.mapM_cons] at h
    obtain ⟨z, hz, h⟩ := bind_eq_ok.mp h
    obtain ⟨zs, hzs, h⟩ := bind_eq_ok.mp h
    cases h
    rw [List.map_cons, hf x z hz, ih hzs]

/-- The results stand where their arguments stood. -/
theorem getElem?_mapM {f : α → Except ε β} {xs : List α} {ys : List β} (h : xs.mapM f = .ok ys)
    {i : Nat} {x : α} (hx : xs[i]? = some x) : ∃ y, ys[i]? = some y ∧ f x = .ok y := by
  induction xs generalizing ys i with
  | nil => simp at hx
  | cons head xs ih =>
    rw [List.mapM_cons] at h
    obtain ⟨z, hz, h⟩ := bind_eq_ok.mp h
    obtain ⟨zs, hzs, h⟩ := bind_eq_ok.mp h
    cases h
    cases i with
    | zero =>
      rw [List.getElem?_cons_zero, Option.some.injEq] at hx
      exact ⟨z, rfl, hx ▸ hz⟩
    | succ i => exact ih hzs (by simpa using hx)

/-- Both succeed, or both stop, in related states. -/
def Parallel {σ τ : Type} (R : σ → τ → Prop) : Except σ σ → Except τ τ → Prop
  | .ok s, .ok t => R s t
  | .error s, .error t => R s t
  | _, _ => False

theorem Parallel.of_ok {σ τ : Type} {R : σ → τ → Prop} {x : Except σ σ} {y : Except τ τ}
    (h : Parallel R x y) {s : σ} (hx : x = .ok s) : ∃ t, y = .ok t ∧ R s t := by
  rw [hx] at h
  cases y with
  | ok t => exact ⟨t, rfl, h⟩
  | error t => exact h.elim

theorem Parallel.of_error {σ τ : Type} {R : σ → τ → Prop} {x : Except σ σ} {y : Except τ τ}
    (h : Parallel R x y) {s : σ} (hx : x = .error s) : ∃ t, y = .error t ∧ R s t := by
  rw [hx] at h
  cases y with
  | ok t => exact h.elim
  | error t => exact ⟨t, rfl, h⟩

end Attempts
