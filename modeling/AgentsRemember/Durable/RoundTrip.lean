import AgentsRemember.Durable.Store

/-!
# Durable — RoundTrip

A log is written one line feed a record and read by splitting at every
Unicode line boundary. The serializer escapes the boundaries below U+0020 and
leaves the three beyond ASCII as they are, so a record whose texts have one of
these is cut in the middle of its line: the first piece is a proper prefix of
an object, no JSON document, and the strict read raises. A record without
them is one line and validates to itself.
-/

namespace AgentsRemember.Durable

open Lines (splitlines universalNewlines blank isBreak)

/-- The line boundaries that a serialized text can have: next line, line
separator, paragraph separator. -/
def wideBreaks : List Char := ['\u0085', '\u2028', '\u2029']

theorem wideBreaks_facts : ∀ c ∈ wideBreaks, 0x80 ≤ c.toNat ∧ isBreak c = true := by
  intro c hc
  simp only [wideBreaks, List.mem_cons, List.not_mem_nil, or_false] at hc
  rcases hc with rfl | rfl | rfl
  all_goals exact ⟨by decide, by decide⟩

theorem mem_wideBreaks {c : Char} (h : isBreak c = true) (hc : 0x20 ≤ c.toNat) :
    c ∈ wideBreaks := by
  have hm : c ∈ Lines.breaks := List.contains_iff_mem.mp h
  simp only [Lines.breaks, List.mem_cons, List.not_mem_nil, or_false] at hm
  simp only [wideBreaks, List.mem_cons, List.not_mem_nil, or_false]
  rcases hm with rfl | rfl | rfl | rfl | rfl | rfl | rfl | h | h | h
  · revert hc; decide
  · revert hc; decide
  · revert hc; decide
  · revert hc; decide
  · revert hc; decide
  · revert hc; decide
  · revert hc; decide
  · exact .inl h
  · exact .inr (.inl h)
  · exact .inr (.inr h)

namespace RecordModel

variable {ρ : Type} (M : RecordModel ρ)

/-- No text of the record has one of the three characters. -/
def Unbroken (r : ρ) : Prop := ∀ c ∈ wideBreaks, c ∉ M.texts r

instance (r : ρ) : Decidable (M.Unbroken r) :=
  List.decidableBAll (fun c => c ∉ M.texts r) wideBreaks

/-! ## One line -/

theorem no_cr (r : ρ) : '\r' ∉ M.modelDumpJson r := by
  intro h
  have := (Json.render_range _ _ h).1
  revert this
  decide

theorem validate_modelDumpJson (r : ρ) :
    M.modelValidateJson (M.modelDumpJson r) = some r := by
  rw [modelValidateJson, modelDumpJson, Json.parse_render (M.unique r), Option.bind_some,
    M.validate_dump]

theorem modelDumpJson_head (r : ρ) : ∃ t, M.modelDumpJson r = '{' :: t := by
  rw [modelDumpJson, Json.render]
  exact ⟨_, rfl⟩

theorem not_blank_of_head (t : Text) : blank ('{' :: t) = false := by
  rw [blank, List.all_cons]
  rfl

/-- A record without the three characters is one line. -/
theorem splitlines_unbroken {r : ρ} (h : M.Unbroken r) :
    splitlines (M.modelDumpJson r ++ ['\n']) = [M.modelDumpJson r] := by
  apply Lines.splitlines_line
  intro c hc
  cases hb : isBreak c with
  | false => rfl
  | true =>
    obtain ⟨hlow, hwide⟩ := Json.render_range _ _ hc
    have hm := mem_wideBreaks hb hlow
    rcases hwide with hin | hascii
    · exact absurd hin (h c hm)
    · have := (wideBreaks_facts c hm).1
      omega

/-- A record with one of them starts with a piece that is neither blank nor
a document. -/
theorem splitlines_broken {r : ρ} (h : ¬M.Unbroken r) :
    ∃ p ls, splitlines (M.modelDumpJson r ++ ['\n']) = p :: ls ∧ blank p = false
      ∧ M.modelValidateJson p = none := by
  have ⟨c, hc, hin⟩ : ∃ c ∈ wideBreaks, c ∈ M.texts r := by simpa [Unbroken] using h
  obtain ⟨hwide, hb⟩ := wideBreaks_facts c hc
  have hline : c ∈ M.modelDumpJson r := Json.mem_render_of_wide hwide _ hin
  obtain ⟨t, ht⟩ := M.modelDumpJson_head r
  have hcr := M.no_cr r
  -- the opening brace is no boundary, so the cut is behind it
  have hct : c ∈ t := by
    rw [ht, List.mem_cons] at hline
    rcases hline with rfl | hline
    · cases hb
    · exact hline
  have hcrt : '\r' ∉ t := fun hm => hcr (by rw [ht]; exact List.mem_cons_of_mem _ hm)
  obtain ⟨p, q, ls, hpq, hq, hs⟩ := Lines.splitlines_broken hcrt hct hb
  refine ⟨'{' :: p, ls, ?_, not_blank_of_head p, ?_⟩
  · rw [ht, List.cons_append, Lines.splitlines_cons (by decide), hs]
    rfl
  · have hprefix : Json.render (.obj (M.modelDump r)) = ('{' :: p) ++ q := by
      rw [List.cons_append, ← hpq]
      exact ht
    rw [modelValidateJson, Json.parse_prefix_render (M.unique r) hq hprefix]
    rfl

end RecordModel

/-! ## The whole log -/

section Log

variable {ρ : Type} (M : RecordModel ρ)

theorem readLogText_join (log : LogFile) (rs : List ρ)
    (h : log.getD [] = Lines.join (rs.map M.modelDumpJson)) :
    readLogText log = Lines.join (rs.map M.modelDumpJson) := by
  cases log with
  | none => exact h
  | some text =>
    have htext : text = Lines.join (rs.map M.modelDumpJson) := h
    rw [readLogText, htext]
    apply Lines.universalNewlines_of_no_cr
    intro hm
    obtain ⟨l, hl, hc⟩ := List.mem_flatMap.mp hm
    obtain ⟨r, -, rfl⟩ := List.mem_map.mp hl
    rcases List.mem_append.mp hc with hc | hc
    · exact M.no_cr r hc
    · revert hc
      decide

theorem readRecords_cons (r : ρ) (rs : List ρ) :
    readRecords M (Lines.join ((r :: rs).map M.modelDumpJson)) =
      (((splitlines (M.modelDumpJson r ++ ['\n'])).filter (fun l => !blank l)).mapM
        M.modelValidateJson).bind fun hd =>
        (readRecords M (Lines.join (rs.map M.modelDumpJson))).map (hd ++ ·) := by
  rw [readRecords, readRecords, Lines.splitlines_join, Lines.splitlines_join,
    List.map_cons, List.flatMap_cons, List.filter_append, List.mapM_append]
  simp only [Option.bind_eq_bind, Option.pure_def, Option.map_eq_bind]
  rfl

/-- The strict read of a log returns its records, or raises on the first
that is broken. -/
theorem readRecords_join (rs : List ρ) :
    ((∀ r ∈ rs, M.Unbroken r) →
      readRecords M (Lines.join (rs.map M.modelDumpJson)) = some rs) ∧
    ((∃ r ∈ rs, ¬M.Unbroken r) →
      readRecords M (Lines.join (rs.map M.modelDumpJson)) = none) := by
  induction rs with
  | nil => exact ⟨fun _ => rfl, by simp⟩
  | cons r rs ih =>
    rw [readRecords_cons]
    by_cases hr : M.Unbroken r
    · obtain ⟨t, ht⟩ := M.modelDumpJson_head r
      have hb : blank (M.modelDumpJson r) = false := by
        rw [ht]
        exact RecordModel.not_blank_of_head t
      have hhead : ((splitlines (M.modelDumpJson r ++ ['\n'])).filter
          (fun l => !blank l)).mapM M.modelValidateJson = some [r] := by
        rw [M.splitlines_unbroken hr]
        simp [hb, List.mapM_cons, M.validate_modelDumpJson]
      rw [hhead, Option.bind_some]
      constructor
      · intro h
        rw [ih.1 (fun r' h' => h r' (List.mem_cons_of_mem _ h'))]
        rfl
      · rintro ⟨r', hr', hbad⟩
        rcases List.mem_cons.mp hr' with rfl | hr'
        · exact absurd hr hbad
        · rw [ih.2 ⟨r', hr', hbad⟩]
          rfl
    · obtain ⟨p, ls, hs, hb, hp⟩ := M.splitlines_broken hr
      have hhead : ((splitlines (M.modelDumpJson r ++ ['\n'])).filter
          (fun l => !blank l)).mapM M.modelValidateJson = none := by
        rw [hs]
        simp [hb, List.mapM_cons, hp]
      rw [hhead]
      exact ⟨fun h => absurd (h r (by simp)) hr, fun _ => rfl⟩

end Log

/-- Reading a log that holds its records. -/
theorem DurableStore.Holds.read {ρ π : Type} {S : DurableStore ρ π}
    {held : π → List ρ} {files : π → LogFile} (h : S.Holds held files) (p : π) :
    ((∀ r ∈ held p, S.model.Unbroken r) → S.read files p = some (held p)) ∧
    ((∃ r ∈ held p, ¬S.model.Unbroken r) → S.read files p = none) := by
  rw [DurableStore.read, readLogText_join S.model (files p) (held p) (h p)]
  exact readRecords_join S.model (held p)

end AgentsRemember.Durable
