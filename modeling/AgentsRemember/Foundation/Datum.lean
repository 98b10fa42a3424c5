import AgentsRemember.Foundation.Keyed
import Mathlib.Algebra.Order.Ring.Unbundled.Rat
import Mathlib.Data.List.Perm.Subperm

/-!
# Foundation — Datum

The values a dynamic language passes around: scalars, lists and dictionaries
with string keys. `equal` compares two of them by their leaves, with
dictionaries compared without regard to order, so that one definition serves
every language: what differs between them is when two scalars are equal.

`strip` drops some keys at every depth. On values whose dictionaries name no
key twice, comparing is an equivalence as soon as it is one on scalars, and
this is all a reader of the later modules needs: the recursion over nested
lists and dictionaries is done here once.
-/

/-- A value without parts. -/
inductive Scalar where
  | null
  | bool (b : Bool)
  | num (q : ℚ)
  | str (s : String)
deriving DecidableEq

/-- A value. -/
inductive Datum where
  | leaf (s : Scalar)
  | list (items : List Datum)
  | dict (members : List (String × Datum))

namespace Datum

/-- Induction over values: a list or a dictionary has the property when all
that it holds has it. -/
@[elab_as_elim]
theorem induct {P : Datum → Prop} (leaf : ∀ s, P (leaf s))
    (list : ∀ items, (∀ t ∈ items, P t) → P (list items))
    (dict : ∀ members, (∀ m ∈ members, P m.2) → P (dict members)) : ∀ t, P t :=
  Datum.rec (motive_2 := fun items => ∀ t ∈ items, P t)
    (motive_3 := fun members => ∀ m ∈ members, P m.2) (motive_4 := fun m => P m.2)
    leaf list dict (by simp) (fun _ _ h hs => List.forall_mem_cons.mpr ⟨h, hs⟩) (by simp)
    (fun _ _ h hs => List.forall_mem_cons.mpr ⟨h, hs⟩) (fun _ _ h => h)

mutual

/-- No dictionary in the value names a key twice. -/
def Unique : Datum → Prop
  | leaf _ => True
  | list items => UniqueItems items
  | dict members => (members.map Prod.fst).Nodup ∧ UniqueMembers members

/-- No dictionary in these items names a key twice. -/
def UniqueItems : List Datum → Prop
  | [] => True
  | t :: rest => Unique t ∧ UniqueItems rest

/-- No key comes again, at any depth of these members. -/
def UniqueMembers : List (String × Datum) → Prop
  | [] => True
  | (_, t) :: rest => Unique t ∧ UniqueMembers rest

end

mutual

/-- The value without the dropped keys, at every depth. -/
def strip (drop : String → Bool) : Datum → Datum
  | leaf s => leaf s
  | list items => list (stripItems drop items)
  | dict members => dict (stripMembers drop members)

/-- `strip` in every item. -/
def stripItems (drop : String → Bool) : List Datum → List Datum
  | [] => []
  | t :: rest => strip drop t :: stripItems drop rest

/-- `strip` in every member, dropped keys left out. -/
def stripMembers (drop : String → Bool) : List (String × Datum) → List (String × Datum)
  | [] => []
  | (k, t) :: rest =>
    if drop k then stripMembers drop rest else (k, strip drop t) :: stripMembers drop rest

end

mutual

/-- Equality of values under an equality of scalars: lists item by item,
dictionaries when they have as many keys and agree at each of them. -/
def equal (same : Scalar → Scalar → Bool) : Datum → Datum → Bool
  | leaf a, leaf b => same a b
  | list xs, list ys => equalItems same xs ys
  | dict ds, dict es => ds.length == es.length && equalMembers same ds es
  | _, _ => false

/-- The items are equal one by one. -/
def equalItems (same : Scalar → Scalar → Bool) : List Datum → List Datum → Bool
  | [], [] => true
  | x :: xs, y :: ys => equal same x y && equalItems same xs ys
  | _, _ => false

/-- Every member on the left has an equal one on the right. -/
def equalMembers (same : Scalar → Scalar → Bool) :
    List (String × Datum) → List (String × Datum) → Bool
  | [], _ => true
  | (k, x) :: ds, es =>
    (match es.lookup k with
      | some y => equal same x y
      | none => false) && equalMembers same ds es

end

/-- The value a dictionary holds under a key. -/
def field (t : Datum) (k : String) : Option Datum :=
  match t with
  | dict members => members.lookup k
  | _ => none

/-! ## The recursions, as facts about members -/

theorem uniqueItems_iff {items : List Datum} :
    UniqueItems items ↔ ∀ t ∈ items, Unique t := by
  induction items with
  | nil => simp [UniqueItems]
  | cons t rest ih => simp [UniqueItems, ih]

theorem uniqueMembers_iff {members : List (String × Datum)} :
    UniqueMembers members ↔ ∀ m ∈ members, Unique m.2 := by
  induction members with
  | nil => simp [UniqueMembers]
  | cons m rest ih =>
    obtain ⟨k, t⟩ := m
    rw [UniqueMembers, ih]
    simp

theorem unique_list {items : List Datum} : Unique (list items) ↔ ∀ t ∈ items, Unique t :=
  uniqueItems_iff

theorem unique_dict {members : List (String × Datum)} :
    Unique (dict members) ↔ (members.map Prod.fst).Nodup ∧ ∀ m ∈ members, Unique m.2 :=
  and_congr_right fun _ => uniqueMembers_iff

theorem stripItems_eq (drop : String → Bool) (items : List Datum) :
    stripItems drop items = items.map (strip drop) := by
  induction items with
  | nil => rfl
  | cons t rest ih => simp [stripItems, ih]

theorem stripMembers_eq (drop : String → Bool) (members : List (String × Datum)) :
    stripMembers drop members =
      (members.filter fun m => !drop m.1).map fun m => (m.1, strip drop m.2) := by
  induction members with
  | nil => rfl
  | cons m rest ih =>
    obtain ⟨k, t⟩ := m
    by_cases hk : drop k = true
    · simp [stripMembers, hk, ih]
    · simp [stripMembers, hk, ih]

theorem lookup_stripMembers (drop : String → Bool) (members : List (String × Datum))
    (k : String) : (stripMembers drop members).lookup k =
      if drop k then none else (members.lookup k).map (strip drop) := by
  induction members with
  | nil => simp [stripMembers]
  | cons m rest ih =>
    obtain ⟨j, t⟩ := m
    by_cases hj : drop j = true
    · by_cases hk : j = k
      · subst hk; simp [stripMembers, hj, ih]
      · simp [stripMembers, hj, ih, Keyed.lookup_cons, hk]
    · by_cases hk : j = k
      · subst hk; simp [stripMembers, hj]
      · simp [stripMembers, hj, ih, Keyed.lookup_cons, hk]

theorem equalMembers_iff {same : Scalar → Scalar → Bool} {ds es : List (String × Datum)} :
    equalMembers same ds es = true ↔
      ∀ d ∈ ds, ∃ y, es.lookup d.1 = some y ∧ equal same d.2 y = true := by
  induction ds with
  | nil => simp [equalMembers]
  | cons d ds ih =>
    obtain ⟨k, x⟩ := d
    cases hk : es.lookup k with
    | none => simp [equalMembers, hk]
    | some y => simp [equalMembers, hk, ih]

theorem equal_list {same : Scalar → Scalar → Bool} {xs ys : List Datum} :
    equal same (list xs) (list ys) = equalItems same xs ys := rfl

theorem equal_dict {same : Scalar → Scalar → Bool} {ds es : List (String × Datum)} :
    equal same (dict ds) (dict es) = (ds.length == es.length && equalMembers same ds es) := rfl

/-! ## Comparing is an equivalence

Lists are equal when they are equal at every position, dictionaries without
repeated keys when they are equal at every key, absence included. In that form
the three laws hold because they hold of the entries. -/

/-- Two entries that are equal, or two absences. -/
def entryEqual (same : Scalar → Scalar → Bool) : Option Datum → Option Datum → Bool
  | some a, some b => equal same a b
  | none, none => true
  | _, _ => false

section laws
variable {same : Scalar → Scalar → Bool}

theorem entryEqual_refl {a : Option Datum} (h : ∀ t ∈ a, equal same t t = true) :
    entryEqual same a a = true := by
  cases a with
  | none => rfl
  | some t => exact h t rfl

theorem entryEqual_symm {a b : Option Datum}
    (h : ∀ t ∈ a, ∀ u ∈ b, equal same t u = true → equal same u t = true)
    (hab : entryEqual same a b = true) : entryEqual same b a = true := by
  cases a with
  | none => cases b <;> simp_all [entryEqual]
  | some t =>
    cases b with
    | none => simp [entryEqual] at hab
    | some u => exact h t rfl u rfl hab

theorem entryEqual_trans {a b c : Option Datum}
    (h : ∀ t ∈ a, ∀ u ∈ b, ∀ v ∈ c, equal same t u = true → equal same u v = true →
      equal same t v = true)
    (hab : entryEqual same a b = true) (hbc : entryEqual same b c = true) :
    entryEqual same a c = true := by
  cases a <;> cases b <;> cases c <;> simp only [entryEqual, Bool.false_eq_true] at hab hbc ⊢
  exact h _ rfl _ rfl _ rfl hab hbc

theorem equal_list_iff {xs ys : List Datum} :
    equal same (list xs) (list ys) = true ↔
      ∀ i : Nat, entryEqual same xs[i]? ys[i]? = true := by
  rw [equal_list]
  induction xs generalizing ys with
  | nil =>
    cases ys with
    | nil => simp [equalItems, entryEqual]
    | cons y ys => simpa [equalItems] using ⟨0, by simp [entryEqual]⟩
  | cons x xs ih =>
    cases ys with
    | nil => simpa [equalItems] using ⟨0, by simp [entryEqual]⟩
    | cons y ys =>
      rw [equalItems, Bool.and_eq_true, ih]
      constructor
      · rintro ⟨hxy, h⟩ i
        cases i with
        | zero => simpa [entryEqual] using hxy
        | succ i => simpa using h i
      · intro h
        exact ⟨by simpa [entryEqual] using h 0, fun i => by simpa using h (i + 1)⟩

theorem keys_subset_of_equal {ds es : List (String × Datum)}
    (hd : (ds.map Prod.fst).Nodup) (hlen : ds.length = es.length)
    (h : equalMembers same ds es = true) : es.map Prod.fst ⊆ ds.map Prod.fst := by
  have hsub : ds.map Prod.fst ⊆ es.map Prod.fst := by
    intro k hk
    obtain ⟨d, hd, rfl⟩ := List.mem_map.mp hk
    obtain ⟨y, hy, -⟩ := equalMembers_iff.mp h d hd
    exact List.mem_map.mpr ⟨(d.1, y), Keyed.mem_of_lookup hy, rfl⟩
  exact ((hd.subperm hsub).perm_of_length_le (by simp [hlen])).symm.subset

theorem equal_dict_iff {ds es : List (String × Datum)}
    (hd : (ds.map Prod.fst).Nodup) (he : (es.map Prod.fst).Nodup) :
    equal same (dict ds) (dict es) = true ↔
      ∀ k, entryEqual same (ds.lookup k) (es.lookup k) = true := by
  simp only [equal_dict, Bool.and_eq_true, beq_iff_eq]
  constructor
  · rintro ⟨hlen, h⟩ k
    cases hk : ds.lookup k with
    | none =>
      -- as many keys and every left one present leaves no key for the right alone
      cases hy : es.lookup k with
      | none => rfl
      | some y =>
        have hm := Keyed.lookup_isSome_iff.mp (Option.isSome_iff_exists.mpr ⟨y, hy⟩)
        have := Keyed.lookup_isSome_iff.mpr (keys_subset_of_equal hd hlen h hm)
        simp [hk] at this
    | some x =>
      obtain ⟨y, hy, hxy⟩ := equalMembers_iff.mp h _ (Keyed.mem_of_lookup hk)
      simp [hy, entryEqual, hxy]
  · intro h
    have hkeys : ∀ k, k ∈ ds.map Prod.fst ↔ k ∈ es.map Prod.fst := by
      intro k
      have hk := h k
      rw [← Keyed.lookup_isSome_iff, ← Keyed.lookup_isSome_iff]
      cases hx : ds.lookup k <;> cases hy : es.lookup k <;> simp_all [entryEqual]
    have hperm := (List.perm_ext_iff_of_nodup hd he).mpr hkeys
    refine ⟨by simpa using hperm.length_eq, equalMembers_iff.mpr fun d hmem => ?_⟩
    have hk := h d.1
    rw [Keyed.lookup_of_mem hd hmem] at hk
    cases hy : es.lookup d.1 with
    | none => simp [hy, entryEqual] at hk
    | some y => exact ⟨y, rfl, by simpa [hy, entryEqual] using hk⟩

theorem equal_refl (hs : ∀ s, same s s = true) :
    ∀ t : Datum, t.Unique → equal same t t = true := by
  refine induct ?_ ?_ ?_
  · intro s _
    exact hs s
  · intro items ih hu
    rw [unique_list] at hu
    rw [equal_list_iff]
    exact fun i => entryEqual_refl fun t ht =>
      ih t (List.mem_of_getElem? ht) (hu t (List.mem_of_getElem? ht))
  · intro members ih hu
    rw [unique_dict] at hu
    rw [equal_dict_iff hu.1 hu.1]
    exact fun k => entryEqual_refl fun t ht =>
      ih _ (Keyed.mem_of_lookup ht) (hu.2 _ (Keyed.mem_of_lookup ht))

theorem equal_symm (hs : ∀ a b, same a b = true → same b a = true) :
    ∀ t : Datum, t.Unique → ∀ u : Datum, u.Unique → equal same t u = true →
      equal same u t = true := by
  refine induct ?_ ?_ ?_
  · intro a _ u _ h
    cases u with
    | leaf b => exact hs _ _ h
    | _ => exact absurd h Bool.false_ne_true
  · intro xs ih hxs u hu h
    cases u with
    | list ys =>
      rw [unique_list] at hxs hu
      rw [equal_list_iff] at h ⊢
      intro i
      refine entryEqual_symm (fun t ht v hv => ?_) (h i)
      have ht := List.mem_of_getElem? ht
      exact ih t ht (hxs t ht) v (hu v (List.mem_of_getElem? hv))
    | _ => exact absurd h Bool.false_ne_true
  · intro ds ih hds u hu h
    cases u with
    | dict es =>
      rw [unique_dict] at hds hu
      rw [equal_dict_iff hds.1 hu.1] at h
      rw [equal_dict_iff hu.1 hds.1]
      intro k
      refine entryEqual_symm (fun t ht v hv => ?_) (h k)
      have ht := Keyed.mem_of_lookup ht
      exact ih _ ht (hds.2 _ ht) v (hu.2 _ (Keyed.mem_of_lookup hv))
    | _ => exact absurd h Bool.false_ne_true

theorem equal_trans (hs : ∀ a b c, same a b = true → same b c = true → same a c = true) :
    ∀ t : Datum, t.Unique → ∀ u : Datum, u.Unique → ∀ v : Datum, v.Unique →
      equal same t u = true → equal same u v = true → equal same t v = true := by
  refine induct ?_ ?_ ?_
  · intro a _ u _ v _ h h'
    cases u with
    | leaf b =>
      cases v with
      | leaf c => exact hs _ _ _ h h'
      | _ => exact absurd h' Bool.false_ne_true
    | _ => exact absurd h Bool.false_ne_true
  · intro xs ih hxs u hu v hv h h'
    cases u with
    | list ys =>
      cases v with
      | list zs =>
        rw [unique_list] at hxs hu hv
        rw [equal_list_iff] at h h' ⊢
        intro i
        refine entryEqual_trans (fun t ht u hu' v hv' => ?_) (h i) (h' i)
        have ht := List.mem_of_getElem? ht
        exact ih t ht (hxs t ht) u (hu u (List.mem_of_getElem? hu'))
          v (hv v (List.mem_of_getElem? hv'))
      | _ => exact absurd h' Bool.false_ne_true
    | _ => exact absurd h Bool.false_ne_true
  · intro ds ih hds u hu v hv h h'
    cases u with
    | dict es =>
      cases v with
      | dict fs =>
        rw [unique_dict] at hds hu hv
        rw [equal_dict_iff hds.1 hu.1] at h
        rw [equal_dict_iff hu.1 hv.1] at h'
        rw [equal_dict_iff hds.1 hv.1]
        intro k
        refine entryEqual_trans (fun t ht u hu' v hv' => ?_) (h k) (h' k)
        have ht := Keyed.mem_of_lookup ht
        exact ih _ ht (hds.2 _ ht) u (hu.2 _ (Keyed.mem_of_lookup hu'))
          v (hv.2 _ (Keyed.mem_of_lookup hv'))
      | _ => exact absurd h' Bool.false_ne_true
    | _ => exact absurd h Bool.false_ne_true

end laws

/-- A finer equality of scalars makes a finer equality of values. -/
theorem equal_mono {same same' : Scalar → Scalar → Bool}
    (hs : ∀ a b, same a b = true → same' a b = true) :
    ∀ t u : Datum, equal same t u = true → equal same' t u = true := by
  refine induct ?_ ?_ ?_
  · intro a u h
    cases u with
    | leaf b => exact hs _ _ h
    | _ => exact absurd h Bool.false_ne_true
  · intro xs ih u h
    cases u with
    | list ys =>
      rw [equal_list_iff] at h ⊢
      intro i
      have hi := h i
      cases hx : xs[i]? <;> cases hy : ys[i]? <;>
        simp only [hx, hy, entryEqual, Bool.false_eq_true] at hi ⊢
      exact ih _ (List.mem_of_getElem? hx) _ hi
    | _ => exact absurd h Bool.false_ne_true
  · intro ds ih u h
    cases u with
    | dict es =>
      simp only [equal_dict, Bool.and_eq_true, equalMembers_iff] at h ⊢
      refine ⟨h.1, fun d hd => ?_⟩
      obtain ⟨y, hy, hdy⟩ := h.2 d hd
      exact ⟨y, hy, ih d hd y hdy⟩
    | _ => exact absurd h Bool.false_ne_true

/-! ## Stripping -/

theorem unique_strip (drop : String → Bool) :
    ∀ t : Datum, t.Unique → (strip drop t).Unique := by
  refine induct ?_ ?_ ?_
  · intro s _
    trivial
  · intro items ih hu
    rw [unique_list] at hu
    rw [strip, unique_list, stripItems_eq]
    intro t ht
    obtain ⟨u, hmem, rfl⟩ := List.mem_map.mp ht
    exact ih u hmem (hu u hmem)
  · intro members ih hu
    rw [unique_dict] at hu
    rw [strip, unique_dict, stripMembers_eq]
    constructor
    · rw [List.map_map]
      exact hu.1.sublist (List.filter_sublist.map _)
    · intro m hm
      obtain ⟨n, hn, rfl⟩ := List.mem_map.mp hm
      have hn := (List.mem_filter.mp hn).1
      exact ih n hn (hu.2 n hn)

theorem unique_field {t u : Datum} {k : String} (ht : t.Unique) (h : t.field k = some u) :
    u.Unique := by
  cases t with
  | dict members =>
    rw [unique_dict] at ht
    exact ht.2 _ (Keyed.mem_of_lookup h)
  | _ => simp [field] at h

end Datum

/-! ## Documents -/

/-- A value whose dictionaries name no key twice, as every value read from
text or dumped from a record is. -/
@[ext] structure Document where
  datum : Datum
  unique : datum.Unique

namespace Document

/-- The document without the dropped keys. -/
def strip (drop : String → Bool) (d : Document) : Document :=
  ⟨d.datum.strip drop, d.datum.unique_strip drop d.unique⟩

/-- Two documents that are equal, or two absences. -/
def equalAt (same : Scalar → Scalar → Bool) (a b : Option Document) : Bool :=
  Datum.entryEqual same (a.map datum) (b.map datum)

/-- A text. -/
def str (s : String) : Document := ⟨.leaf (.str s), trivial⟩

/-- The documents side by side, as one list. -/
def list (ds : List Document) : Document where
  datum := .list (ds.map datum)
  unique := by
    rw [Datum.unique_list]
    intro t ht
    obtain ⟨d, -, rfl⟩ := List.mem_map.mp ht
    exact d.unique

/-- The dictionary with one entry. -/
def entry (k : String) (d : Document) : Document where
  datum := .dict [(k, d.datum)]
  unique := by simp [Datum.Unique, Datum.UniqueMembers, d.unique]

/-- The document a dictionary holds under a key. -/
def field (d : Document) (k : String) : Option Document :=
  match h : d.datum.field k with
  | none => none
  | some t => some ⟨t, Datum.unique_field d.unique h⟩

@[simp] theorem field_entry (k : String) (d : Document) : (entry k d).field k = some d := by
  unfold field
  split
  · rename_i h
    simp [entry, Datum.field] at h
  · rename_i t h
    simp only [entry, Datum.field, List.lookup_cons_self, Option.some.injEq] at h
    subst h
    rfl

section laws
variable {same : Scalar → Scalar → Bool}

theorem equalAt_refl (hs : ∀ s, same s s = true) (a : Option Document) :
    equalAt same a a = true := by
  refine Datum.entryEqual_refl fun t ht => ?_
  obtain ⟨d, -, rfl⟩ := Option.map_eq_some_iff.mp ht
  exact Datum.equal_refl hs _ d.unique

theorem equalAt_symm (hs : ∀ a b, same a b = true → same b a = true)
    {a b : Option Document} (h : equalAt same a b = true) : equalAt same b a = true := by
  refine Datum.entryEqual_symm (fun t ht u hu => ?_) h
  obtain ⟨d, -, rfl⟩ := Option.map_eq_some_iff.mp ht
  obtain ⟨e, -, rfl⟩ := Option.map_eq_some_iff.mp hu
  exact Datum.equal_symm hs _ d.unique _ e.unique

theorem equalAt_trans (hs : ∀ a b c, same a b = true → same b c = true → same a c = true)
    {a b c : Option Document} (h : equalAt same a b = true) (h' : equalAt same b c = true) :
    equalAt same a c = true := by
  refine Datum.entryEqual_trans (fun t ht u hu v hv => ?_) h h'
  obtain ⟨d, -, rfl⟩ := Option.map_eq_some_iff.mp ht
  obtain ⟨e, -, rfl⟩ := Option.map_eq_some_iff.mp hu
  obtain ⟨f, -, rfl⟩ := Option.map_eq_some_iff.mp hv
  exact Datum.equal_trans hs _ d.unique _ e.unique _ f.unique

theorem equalAt_mono {same' : Scalar → Scalar → Bool}
    (hs : ∀ a b, same a b = true → same' a b = true) {a b : Option Document}
    (h : equalAt same a b = true) : equalAt same' a b = true := by
  cases a <;> cases b <;> simp only [equalAt, Option.map, Datum.entryEqual] at h ⊢ <;>
    first
    | exact h
    | exact Datum.equal_mono hs _ _ h

end laws

end Document
