import AgentsRemember.Gates.Records
import AgentsRemember.Durable.RoundTrip

/-!
# Gates — Wire

The gate record as the record library dumps and validates it: camelCase
members in the order of the fields, absent where a field is none; unknown
members refused, literals checked, an unknown schema major refused. Its one
theorem, `modelValidate_modelDump`, makes it a record type of the durable
store, and `gateStore` is the store.
-/

namespace AgentsRemember.Gates

open Durable (RecordModel DurableStore)

/-! ## Fields -/

/-- The members of a record: one for each field that has a value. -/
def filled (slots : List (String × Option Json)) : List (String × Json) :=
  slots.filterMap fun slot => slot.2.map (slot.1, ·)

/-- A member that must be there. -/
def required {α : Type} (member : Option Json) (read : Json → Option α) : Option α :=
  member.bind read

/-- A field that may be none, or missing. -/
def optional {α : Type} (member : Option Json) (read : Json → Option α) :
    Option (Option α) :=
  match member with
  | none => some none
  | some .null => some none
  | some v => (read v).map some

/-- A member with a default. -/
def defaulted {α : Type} (member : Option Json) (default : α) (read : Json → Option α) :
    Option α :=
  match member with
  | none => some default
  | some v => read v

/-- A string. -/
def asString : Json → Option String
  | .str s => some s
  | _ => none

/-- A list of strings. -/
def asStrings : Json → Option (List String)
  | .arr items => items.mapM asString
  | _ => none

/-- One of the literals of a vocabulary. -/
def asLiteral {α : Type} (literals : List α) (wire : α → String) : Json → Option α
  | .str s => literals.find? (fun a => wire a == s)
  | _ => none

/-! What is written into a field is read from it. -/

theorem keys_filled (slots : List (String × Option Json)) :
    ((filled slots).map Prod.fst).Sublist (slots.map Prod.fst) := by
  induction slots with
  | nil => simp [filled]
  | cons slot slots ih =>
    obtain ⟨field, value⟩ := slot
    cases value with
    | none => exact ih.cons _
    | some v => exact ih.cons_cons _

theorem lookup_filled {slots : List (String × Option Json)}
    (h : (slots.map Prod.fst).Nodup) (field : String) :
    (filled slots).lookup field = (slots.lookup field).join := by
  induction slots with
  | nil => rfl
  | cons slot slots ih =>
    obtain ⟨name, value⟩ := slot
    rw [List.map_cons, List.nodup_cons] at h
    have hcons : filled ((name, value) :: slots)
        = (value.map (name, ·)).toList ++ filled slots := by
      cases value <;> rfl
    rw [hcons]
    by_cases hf : field = name
    · subst hf
      have hrest : (filled slots).lookup field = none := by
        cases hl : (filled slots).lookup field with
        | none => rfl
        | some v =>
          have hm : field ∈ (filled slots).map Prod.fst :=
            List.mem_map.mpr ⟨_, Keyed.mem_of_lookup hl, rfl⟩
          exact absurd ((keys_filled slots).subset hm) h.1
      cases value with
      | none => simpa using hrest
      | some v => simp
    · have hb : (field == name) = false := by simpa using hf
      cases value with
      | none => simpa [List.lookup_cons, hb] using ih h.2
      | some v => simpa [List.lookup_cons, hb] using ih h.2

theorem optional_map {α : Type} {read : Json → Option α} {write : α → Json}
    (hr : ∀ a, read (write a) = some a) (hn : ∀ a, write a ≠ .null) (o : Option α) :
    optional (o.map write) read = some o := by
  cases o with
  | none => rfl
  | some a =>
    have hw := hr a
    have hna := hn a
    cases h : write a <;> simp_all [optional]

theorem mapM_of_read {α : Type} {read : Json → Option α} {write : α → Json}
    (hr : ∀ a, read (write a) = some a) (xs : List α) :
    (xs.map write).mapM read = some xs := by
  induction xs with
  | nil => rfl
  | cons a xs ih => simp [List.mapM_cons, hr, ih]

theorem optional_str (o : Option String) : optional (o.map Json.str) asString = some o := by
  apply optional_map
  · intro a
    rfl
  · intro a h
    cases h

/-- A record names each field once, so its object is unique when its values
are. -/
theorem unique_filled {slots : List (String × Option Json)}
    (hn : (slots.map Prod.fst).Nodup)
    (hv : ∀ slot ∈ slots, ∀ v, slot.2 = some v → Json.Unique v) :
    Json.Unique (.obj (filled slots)) := by
  rw [Json.Unique, Json.uniqueMembers_iff]
  constructor
  · exact (keys_filled slots).nodup hn
  · intro m hm
    obtain ⟨slot, hslot, he⟩ := List.mem_filterMap.mp hm
    obtain ⟨v, hval, rfl⟩ := Option.map_eq_some_iff.mp he
    exact hv slot hslot v hval

theorem unique_str (s : String) : Json.Unique (.str s) := by
  rw [Json.Unique]
  · trivial
  all_goals
    intro _ h
    cases h

/-! ## Parts of a record -/

/-- A schema version that is supported. -/
def SchemaVersion.read (v : Json) : Option SchemaVersion :=
  (asString v).bind fun s => if h : schemaVersionSupported s = true then some ⟨s, h⟩ else none

/-- A dictionary read from JSON has each member once. -/
def Packet.read : Json → Option Packet
  | .obj members => if h : (Json.obj members).Unique then some ⟨members, h⟩ else none
  | _ => none

/-- The members of an evidence reference. -/
def GateEvidenceRef.slots (e : GateEvidenceRef) : List (String × Option Json) :=
  [("kind", some (.str e.kind.wire)), ("ref", some (.str e.ref)),
    ("verdict", e.verdict.map .str)]

/-- Their names. -/
def GateEvidenceRef.fields : List String := ["kind", "ref", "verdict"]

/-- An evidence reference; other members are refused. -/
def GateEvidenceRef.read : Json → Option GateEvidenceRef
  | .obj members =>
    if members.all (fun m => GateEvidenceRef.fields.contains m.1) then do
      let kind ← required (members.lookup "kind")
        (asLiteral [GateEvidenceKind.reviewerVerdict] GateEvidenceKind.wire)
      let ref ← required (members.lookup "ref") asString
      let verdict ← optional (members.lookup "verdict") asString
      some { kind := kind, ref := ref, verdict := verdict }
    else none
  | _ => none

/-- A list of evidence references. -/
def readEvidenceRefs : Json → Option (List GateEvidenceRef)
  | .arr items => items.mapM GateEvidenceRef.read
  | _ => none

theorem SchemaVersion.read_value (v : SchemaVersion) :
    SchemaVersion.read (.str v.value) = some v := by
  simp [SchemaVersion.read, asString, v.supported]

theorem Packet.read_members (p : Packet) : Packet.read (.obj p.members) = some p := by
  simp [Packet.read, p.unique]

/-- Members that only fields of a record have pass its check for extras. -/
theorem all_fields {slots : List (String × Option Json)} {fields : List String}
    (h : slots.map Prod.fst = fields) :
    (filled slots).all (fun m => fields.contains m.1) = true := by
  rw [List.all_eq_true]
  intro m hm
  rw [← h]
  exact List.contains_iff_mem.mpr
    ((keys_filled slots).subset (List.mem_map.mpr ⟨m, hm, rfl⟩))

theorem GateEvidenceRef.nodup (e : GateEvidenceRef) : (e.slots.map Prod.fst).Nodup := by
  show GateEvidenceRef.fields.Nodup
  decide

theorem GateEvidenceRef.unique (e : GateEvidenceRef) :
    Json.Unique (.obj (filled e.slots)) := by
  apply unique_filled e.nodup
  intro slot hslot v hv
  simp only [slots, List.mem_cons, List.not_mem_nil, or_false] at hslot
  rcases hslot with rfl | rfl | rfl
  · cases hv; exact unique_str _
  · cases hv; exact unique_str _
  · obtain ⟨s, -, rfl⟩ := Option.map_eq_some_iff.mp hv
    exact unique_str s

theorem GateEvidenceRef.read_slots (e : GateEvidenceRef) :
    GateEvidenceRef.read (.obj (filled e.slots)) = some e := by
  have hkind : required ((filled e.slots).lookup "kind")
      (asLiteral [GateEvidenceKind.reviewerVerdict] GateEvidenceKind.wire) = some e.kind := by
    rw [lookup_filled e.nodup]
    cases e with
    | mk kind ref verdict => cases kind; rfl
  have href : required ((filled e.slots).lookup "ref") asString = some e.ref := by
    rw [lookup_filled e.nodup]
    rfl
  have hverdict : optional ((filled e.slots).lookup "verdict") asString = some e.verdict := by
    rw [lookup_filled e.nodup]
    exact optional_str e.verdict
  have hall : (filled e.slots).all (fun m => GateEvidenceRef.fields.contains m.1) = true :=
    all_fields rfl
  rw [GateEvidenceRef.read, if_pos hall, hkind, href, hverdict]
  rfl

/-! ## The record -/

/-- The fields of a snapshot in the order they are dumped. -/
def GateRecord.slots (r : GateRecord) : List (String × Option Json) :=
  [("schemaVersion", some (.str r.schemaVersion.value)),
    ("schema", some (.str r.schema)),
    ("id", some (.str r.id)),
    ("ts", some (.str r.ts)),
    ("kind", some (.str r.kind.wire)),
    ("state", some (.str r.state.wire)),
    ("lifecycleId", r.lifecycleId.map .str),
    ("enclosure", r.enclosure.map .str),
    ("repoId", r.repoId.map .str),
    ("packet", some (.obj r.packet.members)),
    ("requiredDecision", r.requiredDecision.map fun ds => .arr (ds.map .str)),
    ("decidedBy", r.decidedBy.map .str),
    ("decidedVia", r.decidedVia.map fun via => .str via.wire),
    ("decidingRole", r.decidingRole.map .str),
    ("decisionNote", r.decisionNote.map .str),
    ("decidedAt", r.decidedAt.map .str),
    ("evidenceRefs", some (.arr (r.evidenceRefs.map fun e => .obj (filled e.slots)))),
    ("appliedOperation", r.appliedOperation.map .str)]

/-- The names of the members of a record. -/
def GateRecord.fields : List String :=
  ["schemaVersion", "schema", "id", "ts", "kind", "state", "lifecycleId", "enclosure",
    "repoId", "packet", "requiredDecision", "decidedBy", "decidedVia", "decidingRole",
    "decisionNote", "decidedAt", "evidenceRefs", "appliedOperation"]

/-- `model_dump(by_alias, exclude_none)`. -/
def GateRecord.modelDump (r : GateRecord) : List (String × Json) := filled r.slots

/-- `model_validate`. -/
def GateRecord.modelValidate : Json → Option GateRecord
  | .obj members =>
    -- a member that is no field is refused
    if members.all (fun m => GateRecord.fields.contains m.1) then do
      let version ← defaulted (members.lookup "schemaVersion") Gates.schemaVersion
        SchemaVersion.read
      let schema ← defaulted (members.lookup "schema") gateRecordSchema asString
      let id ← required (members.lookup "id") asString
      let ts ← required (members.lookup "ts") asString
      let kind ← required (members.lookup "kind") (asLiteral gateKinds GateKind.wire)
      let state ← required (members.lookup "state") (asLiteral gateStates GateState.wire)
      let lifecycleId ← optional (members.lookup "lifecycleId") asString
      let enclosure ← optional (members.lookup "enclosure") asString
      let repoId ← optional (members.lookup "repoId") asString
      let packet ← defaulted (members.lookup "packet") Packet.empty Packet.read
      let requiredDecision ← optional (members.lookup "requiredDecision") asStrings
      let decidedBy ← optional (members.lookup "decidedBy") asString
      let decidedVia ← optional (members.lookup "decidedVia")
        (asLiteral decidedVias DecidedVia.wire)
      let decidingRole ← optional (members.lookup "decidingRole") asString
      let decisionNote ← optional (members.lookup "decisionNote") asString
      let decidedAt ← optional (members.lookup "decidedAt") asString
      let evidenceRefs ← defaulted (members.lookup "evidenceRefs") [] readEvidenceRefs
      let appliedOperation ← optional (members.lookup "appliedOperation") asString
      some {
        schemaVersion := version
        schema := schema
        id := id
        ts := ts
        kind := kind
        state := state
        lifecycleId := lifecycleId
        enclosure := enclosure
        repoId := repoId
        packet := packet
        requiredDecision := requiredDecision
        decidedBy := decidedBy
        decidedVia := decidedVia
        decidingRole := decidingRole
        decisionNote := decisionNote
        decidedAt := decidedAt
        evidenceRefs := evidenceRefs
        appliedOperation := appliedOperation }
    else none
  | _ => none

theorem GateRecord.nodup (r : GateRecord) : (r.slots.map Prod.fst).Nodup := by
  show GateRecord.fields.Nodup
  decide

theorem GateKind.read_wire (k : GateKind) :
    asLiteral gateKinds GateKind.wire (.str k.wire) = some k := by
  cases k <;> rfl

theorem GateState.read_wire (s : GateState) :
    asLiteral gateStates GateState.wire (.str s.wire) = some s := by
  cases s <;> rfl

theorem DecidedVia.read_wire (v : DecidedVia) :
    asLiteral decidedVias DecidedVia.wire (.str v.wire) = some v := by
  cases v <;> rfl

/-- What a field of a dumped record is looked up as. -/
theorem GateRecord.lookup_modelDump (r : GateRecord) (field : String) :
    r.modelDump.lookup field = (r.slots.lookup field).join :=
  lookup_filled r.nodup field

theorem GateRecord.unique (r : GateRecord) : Json.Unique (.obj r.modelDump) := by
  apply unique_filled r.nodup
  have hopt : ∀ (o : Option String) v, o.map Json.str = some v → Json.Unique v := by
    intro o v hv
    obtain ⟨s, -, rfl⟩ := Option.map_eq_some_iff.mp hv
    exact unique_str s
  have hstr : ∀ (s : String) v, some (Json.str s) = some v → Json.Unique v := by
    intro s v hv
    cases hv
    exact unique_str s
  have hdecision : ∀ v, (r.requiredDecision.map fun ds => Json.arr (ds.map .str)) = some v →
      Json.Unique v := by
    intro v hv
    obtain ⟨ds, -, rfl⟩ := Option.map_eq_some_iff.mp hv
    rw [Json.Unique, Json.uniqueItems_iff]
    intro w hw
    obtain ⟨s, -, rfl⟩ := List.mem_map.mp hw
    exact unique_str s
  have hvia : ∀ v, (r.decidedVia.map fun via => Json.str via.wire) = some v →
      Json.Unique v := by
    intro v hv
    obtain ⟨via, -, rfl⟩ := Option.map_eq_some_iff.mp hv
    exact unique_str _
  have hpacket : ∀ v, some (Json.obj r.packet.members) = some v → Json.Unique v := by
    intro v hv
    cases hv
    exact r.packet.unique
  have hrefs : ∀ v, some (Json.arr (r.evidenceRefs.map fun e => .obj (filled e.slots)))
      = some v → Json.Unique v := by
    intro v hv
    cases hv
    rw [Json.Unique, Json.uniqueItems_iff]
    intro w hw
    obtain ⟨e, -, rfl⟩ := List.mem_map.mp hw
    exact e.unique
  have hslots : r.slots.Forall fun slot => ∀ v, slot.2 = some v → Json.Unique v :=
    ⟨hstr _, hstr _, hstr _, hstr _, hstr _, hstr _, hopt _, hopt _, hopt _, hpacket,
      hdecision, hopt _, hvia, hopt _, hopt _, hopt _, hrefs, hopt _⟩
  exact List.forall_iff_forall_mem.mp hslots

theorem GateRecord.modelValidate_modelDump (r : GateRecord) :
    GateRecord.modelValidate (.obj r.modelDump) = some r := by
  have hall : r.modelDump.all (fun m => GateRecord.fields.contains m.1) = true :=
    all_fields rfl
  have hdecision : optional (r.requiredDecision.map fun ds => Json.arr (ds.map .str))
      asStrings = some r.requiredDecision := by
    apply optional_map
    · exact mapM_of_read fun _ => rfl
    · intro a h
      cases h
  have hvia : optional (r.decidedVia.map fun via => Json.str via.wire)
      (asLiteral decidedVias DecidedVia.wire) = some r.decidedVia := by
    apply optional_map
    · exact DecidedVia.read_wire
    · intro a h
      cases h
  have hrefs : readEvidenceRefs (.arr (r.evidenceRefs.map fun e => .obj (filled e.slots)))
      = some r.evidenceRefs := mapM_of_read GateEvidenceRef.read_slots r.evidenceRefs
  rw [GateRecord.modelValidate, if_pos hall]
  simp only [GateRecord.lookup_modelDump]
  simp [GateRecord.slots, List.lookup, required, defaulted, asString, optional_str,
    SchemaVersion.read_value, GateKind.read_wire, GateState.read_wire, Packet.read_members,
    hdecision, hvia, hrefs]

/-! ## The store -/

/-- Gate snapshots as a record type of the durable store. -/
def gateModel : RecordModel GateRecord where
  modelDump := GateRecord.modelDump
  modelValidate := GateRecord.modelValidate
  unique := GateRecord.unique
  validate_dump := GateRecord.modelValidate_modelDump

/-- Where a gate's log lies. -/
inductive GateLog where
  | workspace
  | lifecycle (id : String)
  deriving DecidableEq

/-- `GateStore.log_path`: no lifecycle, or an empty one, is the workspace. -/
def gateLog : Option String → GateLog
  | none => .workspace
  | some id => if id = "" then .workspace else .lifecycle id

/-- `GateStore`: one log for the workspace and one for each lifecycle. -/
def gateStore : DurableStore GateRecord GateLog where
  model := gateModel
  logPath := fun r => gateLog r.lifecycleId

end AgentsRemember.Gates
