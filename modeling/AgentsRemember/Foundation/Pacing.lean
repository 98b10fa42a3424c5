import Mathlib.Data.List.Pairwise

/-!
# Foundation — Pacing

Events of named sources, each at a time, and a gap that two events of one source
keep. An event may follow when the source was last heard at least the gap ago;
a source may also be forgotten, and starts anew.
-/

namespace Pacing

variable {κ : Type} {gap : Int} {events : List (κ × Int)}

/-- Two events of one source are at least the gap apart. -/
def Spaced (gap : Int) (events : List (κ × Int)) : Prop :=
  events.Pairwise fun a b => a.1 = b.1 → gap ≤ b.2 - a.2

instance [DecidableEq κ] : Decidable (Spaced gap events) :=
  inferInstanceAs (Decidable (events.Pairwise _))

/-- The source was not heard after the time. -/
def HeardBy (events : List (κ × Int)) (source : κ) (time : Int) : Prop :=
  ∀ t, (source, t) ∈ events → t ≤ time

theorem Spaced.snoc {source : κ} {last time : Int} (h : Spaced gap events)
    (hlast : HeardBy events source last) (htime : gap ≤ time - last) :
    Spaced gap (events ++ [(source, time)]) := by
  refine List.pairwise_append.mpr ⟨h, List.pairwise_singleton _ _, ?_⟩
  rintro ⟨k, t⟩ hk ⟨_, _⟩ hnew rfl
  obtain ⟨rfl, rfl⟩ := Prod.mk.inj (List.mem_singleton.mp hnew)
  have := hlast t hk
  show gap ≤ _ - t
  omega

/-- A source that was never heard may speak at any time. -/
theorem Spaced.first {source : κ} {time : Int} (h : Spaced gap events)
    (hnew : ∀ t, (source, t) ∉ events) : Spaced gap (events ++ [(source, time)]) := by
  refine List.pairwise_append.mpr ⟨h, List.pairwise_singleton _ _, ?_⟩
  rintro ⟨k, t⟩ hk ⟨_, _⟩ hlast rfl
  obtain ⟨rfl, rfl⟩ := Prod.mk.inj (List.mem_singleton.mp hlast)
  exact absurd hk (hnew t)

theorem Spaced.filter (p : κ × Int → Bool) (h : Spaced gap events) :
    Spaced gap (events.filter p) := List.Pairwise.filter p h

end Pacing
