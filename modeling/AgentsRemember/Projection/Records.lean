import AgentsRemember.Foundation.Datum

/-!
# Projection — Records

The resolved workspace as the server serves it: three collections of rows, each
row found by the identifier it holds under its key, and five values beside
them. A row or a value is what a record dumps to on the wire, so what the
records hold beyond that is left out.

Ages are recomputed from the clock at every tick. `stripVolatile` drops them;
what is compared, on the server and in the dashboard, is what is left. A `Part`
is one thing a delta can replace, and `WorkspaceProjection.at` what a
projection has there.
-/

namespace AgentsRemember.Projection

/-- The keys that hold an age. -/
def volatileAgeFields : List String :=
  ["staleSeconds", "snapshotStaleSeconds", "ageSeconds", "waitSeconds",
    "heartbeatAgeSeconds", "elapsedSeconds"]

/-- The key holds an age. -/
def isVolatile (key : String) : Bool := volatileAgeFields.contains key

/-- The document without its ages. -/
def stripVolatile : Document → Document := Document.strip isVolatile

/-- A row found by the identifier its dump holds under `key`. -/
structure Row (key : String) where
  ident : String
  dump : Document
  keyed : dump.field key = some (.str ident)

/-- The workspace as it is served. -/
structure WorkspaceProjection where
  version : Int := 2
  generatedAt : String
  lifecycles : List (Row "id") := []
  enclosures : List (Row "enclosure") := []
  providers : List (Row "id") := []
  activeWorktreeGroups : List String := []
  closeoutQueues : Option (List Document) := none
  metrics : Document
  analytics : Document

/-- The array of strings on the wire. -/
def strings (xs : List String) : Document := .list (xs.map .str)

/-- A list that may be missing, read as an empty one. -/
def asList (queues : Option (List Document)) : Document := .list (queues.getD [])

/-! ## Parts -/

/-- The collections that are sent row by row. -/
inductive Collection where
  | lifecycles | enclosures | providers
deriving DecidableEq

/-- The key of the identifier. -/
def Collection.key : Collection → String
  | lifecycles => "id"
  | enclosures => "enclosure"
  | providers => "id"

/-- The event an upserted row of the collection is sent as. -/
def Collection.event : Collection → String
  | lifecycles => "lifecycle"
  | enclosures => "enclosure"
  | providers => "provider"

/-- What a delta can replace. -/
inductive Part where
  | row (c : Collection) (ident : String)
  | activeWorktreeGroups
  | closeoutQueues
  | metrics
  | analytics
deriving DecidableEq

/-- The rows of a collection. -/
def WorkspaceProjection.rows (p : WorkspaceProjection) : (c : Collection) → List (Row c.key)
  | .lifecycles => p.lifecycles
  | .enclosures => p.enclosures
  | .providers => p.providers

/-- The rows by identifier: of two rows that share one, the last. -/
def byIdent {key : String} (rows : List (Row key)) : List (String × Row key) :=
  Keyed.dict (rows.map fun item => (item.ident, item))

/-- What a projection has for a part. -/
def WorkspaceProjection.at (p : WorkspaceProjection) : Part → Option Document
  | .row c ident => ((byIdent (p.rows c)).lookup ident).map Row.dump
  | .activeWorktreeGroups => some (strings p.activeWorktreeGroups)
  | .closeoutQueues => some (asList p.closeoutQueues)
  | .metrics => some p.metrics
  | .analytics => some p.analytics

/-! ## Agreement -/

/-- The same content on the wire, ages apart. -/
def Same (a b : Option Document) : Prop :=
  Document.equalAt (· == ·) (a.map stripVolatile) (b.map stripVolatile) = true

theorem Same.refl (a : Option Document) : Same a a :=
  Document.equalAt_refl (by simp) _

theorem Same.symm {a b : Option Document} (h : Same a b) : Same b a :=
  Document.equalAt_symm (by simp only [beq_iff_eq]; exact fun _ _ => Eq.symm) h

theorem Same.trans {a b c : Option Document} (h : Same a b) (h' : Same b c) : Same a c :=
  Document.equalAt_trans (by simp only [beq_iff_eq]; exact fun _ _ _ => Eq.trans) h h'

instance (a b : Option Document) : Decidable (Same a b) := inferInstanceAs (Decidable (_ = true))

/-- Two projections with the same content: what a reader of either sees,
generation time, ages and the order of rows apart. -/
structure SameContent (p q : WorkspaceProjection) : Prop where
  version : p.version = q.version
  parts : ∀ part, Same (p.at part) (q.at part)
  queues : p.closeoutQueues.isSome = q.closeoutQueues.isSome

end AgentsRemember.Projection
