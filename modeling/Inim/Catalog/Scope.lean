import Inim.Lib.Index
import Inim.Lifecycle.Fingerprint
import Inim.Text

/-!
# Project scope (`catalog/scope.rs`)

| here | there |
| --- | --- |
| `ExcludedEntity`, `ExcludedSourceRecord`, `ScopeConfigFile` | `scope.rs:56-98` |
| `normalizeExact`             | `scope.rs:100-104` |
| `ProjectScope`, `.fromConfig` | `scope.rs:107-120`, `:155-245` |
| `loadScope`                  | `ProjectScope::load` (`scope.rs:123-147`) |
| the lookups                  | `scope.rs:259-293` |

TOML is read by a parameter. `review_date` and `source` of an entity are not kept: nothing reads
them.

A valid policy finds exactly what its file lists (`Holds`): the three indexes are filled with the
positions of the rows, and what would replace an entry is an error.
-/

namespace Inim

open Inim.Lib

structure ExcludedEntity where
  stableKey : String
  reviewedName : String
  reviewedAsns : List UInt32
  aliases : List String
  reasonCode : String
deriving DecidableEq, Repr

structure ExcludedSourceRecord where
  sourceFamily : String
  externalId : String
  reasonCode : String
deriving DecidableEq, Repr

structure ScopeConfigFile where
  schemaVersion : UInt32
  excludedEntities : List ExcludedEntity
  excludedSourceRecords : List ExcludedSourceRecord
deriving DecidableEq, Repr

/-- `SCOPE_CONFIG_SCHEMA_VERSION`. -/
def scopeConfigSchemaVersion : UInt32 := 1

/-- `REASON_PROJECT_OWNER_EXCLUSION`. -/
def reasonProjectOwnerExclusion : String := "project_owner_exclusion"

/-- Trim and ASCII uppercase, "never a fuzzy transformation". -/
def normalizeExact (s : String) : String := (trim s).map Char.toUpper

/-- The maps are lists of entries. -/
structure ProjectScope where
  schemaVersion : UInt32
  entities : List ExcludedEntity
  sourceRecords : List ExcludedSourceRecord
  entityNameIndex : List (String × Nat)
  asnIndex : List (UInt32 × Nat)
  recordIndex : List (String × Nat)
deriving DecidableEq, Repr

/-- `ProjectScope::default()`: everything is included. -/
def ProjectScope.empty : ProjectScope := ⟨0, [], [], [], [], []⟩

/-- The reviewed name and the aliases. -/
def ExcludedEntity.names (e : ExcludedEntity) : List String := e.reviewedName :: e.aliases

/-! ## Validation -/

section
variable (unprintable : Char → Bool)

/-- `file.excluded_entities[prev].stable_key`. -/
def ScopeConfigFile.stableKeyAt (file : ScopeConfigFile) (prev : Nat) : String :=
  (file.excludedEntities[prev]?.map (·.stableKey)).getD ""

def addName (file : ScopeConfigFile) (entity : ExcludedEntity) (i : Nat)
    (index : List (String × Nat)) (name : String) : Except String (List (String × Nat)) := do
  let key := normalizeExact name
  if key.isEmpty then
    throw ("excluded entity " ++ debugStr unprintable entity.stableKey ++ " has an empty alias")
  insertNew (fun prev => "conflicting normalized alias " ++ debugStr unprintable key ++
    " across excluded entities " ++ file.stableKeyAt prev ++ " and " ++ entity.stableKey) key i index

def addAsn (file : ScopeConfigFile) (entity : ExcludedEntity) (i : Nat)
    (index : List (UInt32 × Nat)) (asn : UInt32) : Except String (List (UInt32 × Nat)) :=
  insertNew (fun prev => "ASN " ++ toString asn ++ " listed by both " ++ file.stableKeyAt prev ++
    " and " ++ entity.stableKey) asn i index

/-- The checks of one entity by itself; `keys` are the stable keys before it. -/
def ExcludedEntity.check (keys : List String) (entity : ExcludedEntity) (i : Nat) :
    Except String Unit := do
  let named := debugStr unprintable entity.stableKey
  if trimBlank entity.stableKey then
    throw ("excluded entity #" ++ toString (i + 1) ++ " has an empty stable_key")
  if keys.contains ((trim entity.stableKey).map Char.toLower) then
    throw ("duplicate excluded entity stable_key " ++ named)
  if trimBlank entity.reviewedName then
    throw ("excluded entity " ++ named ++ " has an empty reviewed_name")
  if trimBlank entity.reasonCode then
    throw ("excluded entity " ++ named ++ " has an empty reason_code")
  entity.reviewedAsns.forM fun asn =>
    if asn = 0 then
      throw ("excluded entity " ++ named ++ " has invalid ASN " ++ toString asn)
    else pure ()

/-- One round of the first loop. -/
def addEntity (file : ScopeConfigFile) (st : ProjectScope × List String)
    (entry : ExcludedEntity × Nat) : Except String (ProjectScope × List String) := do
  let entity := entry.1
  entity.check unprintable st.2 entry.2
  let names ← entity.names.foldlM (addName unprintable file entity entry.2) st.1.entityNameIndex
  let asns ← entity.reviewedAsns.foldlM (addAsn file entity entry.2) st.1.asnIndex
  return ({ st.1 with
      entities := st.1.entities ++ [entity], entityNameIndex := names, asnIndex := asns },
    (trim entity.stableKey).map Char.toLower :: st.2)

/-- One round of the second loop. The set of keys there holds the keys of the index. -/
def addRecord (scope : ProjectScope) (entry : ExcludedSourceRecord × Nat) :
    Except String ProjectScope := do
  let rec_ := entry.1
  let named := debugStr unprintable rec_.sourceFamily ++ "/" ++ debugStr unprintable rec_.externalId
  if trimBlank rec_.sourceFamily || trimBlank rec_.externalId then
    throw ("excluded source record #" ++ toString (entry.2 + 1) ++ " has empty identifiers")
  let records ← insertNew (fun _ => "duplicate excluded source record " ++ named)
    (normalizeExact rec_.externalId) entry.2 scope.recordIndex
  if trimBlank rec_.reasonCode then
    throw ("excluded source record " ++ named ++ " has an empty reason_code")
  return { scope with recordIndex := records, sourceRecords := scope.sourceRecords ++ [rec_] }

/-- `ProjectScope::from_config`. -/
def ProjectScope.fromConfig (file : ScopeConfigFile) : Except String ProjectScope := do
  if file.schemaVersion ≠ scopeConfigSchemaVersion then
    throw ("unsupported project-scope schema v" ++ toString file.schemaVersion ++ " (supported: v" ++
      toString scopeConfigSchemaVersion ++ ")")
  let scope := { ProjectScope.empty with schemaVersion := file.schemaVersion }
  let st ← file.excludedEntities.zipIdx.foldlM (addEntity unprintable file) (scope, [])
  file.excludedSourceRecords.zipIdx.foldlM (addRecord unprintable) st.1

end

/-- What reading `config/project-scope.toml` gives. -/
inductive PolicyFile where
  | missing
  | unreadable (error : String)
  | text (content : String)
deriving DecidableEq, Repr

/-- "A missing file yields an empty (all-Included) policy". -/
def loadScope (unprintable : Char → Bool) (parseToml : String → Except String ScopeConfigFile)
    (path : String) : PolicyFile → Except String ProjectScope
  | .missing => .ok .empty
  | .unreadable e => .error ("cannot read project-scope policy " ++ path ++ ": " ++ e)
  | .text content => do
    let file ← (parseToml content).mapError fun e =>
      "invalid project-scope policy " ++ path ++ ": " ++ e
    ProjectScope.fromConfig unprintable file

/-! ## Lookups -/

namespace ProjectScope

/-- The source family is "provenance for the audit". -/
def excludedSourceRecord (s : ProjectScope) (_sourceFamily externalId : String) : Bool :=
  (s.recordIndex.lookup (normalizeExact externalId)).isSome

def excludedEntityName (s : ProjectScope) (name : String) : Bool :=
  (s.entityNameIndex.lookup (normalizeExact name)).isSome

def excludedAsn (s : ProjectScope) (asn : UInt32) : Bool := (s.asnIndex.lookup asn).isSome

/-- `self.source_records[i]` is there (`Holds`). -/
def sourceRecordReason (s : ProjectScope) (_sourceFamily externalId : String) : Option String :=
  ((s.recordIndex.lookup (normalizeExact externalId)).bind (s.sourceRecords[·]?)).map (·.reasonCode)

def entityNameReason (s : ProjectScope) (name : String) : Option String :=
  ((s.entityNameIndex.lookup (normalizeExact name)).bind (s.entities[·]?)).map (·.reasonCode)

def anyAsnExcluded (s : ProjectScope) (asns : List UInt32) : Bool := asns.any s.excludedAsn

/-- The policy finds what `entities` and `records` list. -/
structure Holds (s : ProjectScope) (entities : List ExcludedEntity)
    (records : List ExcludedSourceRecord) : Prop where
  entities_eq : s.entities = entities
  sourceRecords_eq : s.sourceRecords = records
  names : Indexes (fun e : ExcludedEntity => e.names.map normalizeExact) entities s.entityNameIndex
  asns : Indexes ExcludedEntity.reviewedAsns entities s.asnIndex
  records_ : Indexes (fun r : ExcludedSourceRecord => [normalizeExact r.externalId]) records
    s.recordIndex

theorem holds_empty (v : UInt32) : Holds { empty with schemaVersion := v } [] [] :=
  ⟨rfl, rfl, .nil, .nil, .nil⟩

variable {unprintable : Char → Bool} {file : ScopeConfigFile} {scope scope' : ProjectScope}
  {entities : List ExcludedEntity} {records : List ExcludedSourceRecord}

theorem addName_ok {e : ExcludedEntity} {i : Nat} {index index' : List (String × Nat)}
    {name : String} (h : addName unprintable file e i index name = .ok index') :
    index.lookup (normalizeExact name) = none ∧ index' = (normalizeExact name, i) :: index := by
  unfold addName at h
  obtain ⟨-, h⟩ := guard_ok h
  exact insertNew_ok h

theorem holds_addEntity {keys : List String} {e : ExcludedEntity} {st : ProjectScope × List String}
    (hs : Holds scope entities records)
    (h : addEntity unprintable file (scope, keys) (e, entities.length) = .ok st) :
    Holds st.1 (entities ++ [e]) records := by
  unfold addEntity at h
  dsimp only at h
  obtain ⟨-, -, h⟩ := bind_ok h
  obtain ⟨names, hnames, h⟩ := bind_ok h
  obtain ⟨asns, hasns, h⟩ := bind_ok h
  cases h
  refine ⟨congrArg (· ++ [e]) hs.entities_eq, hs.sourceRecords_eq, ?_, ?_, hs.records_⟩
  · refine hs.names.concat fun k i => ?_
    exact lookup_of_foldlM normalizeExact (fun _ _ _ => addName_ok) hnames k i
  · refine hs.asns.concat fun k i => ?_
    rw [lookup_of_foldlM id (fun _ _ _ => insertNew_ok) hasns k i, List.map_id]

theorem holds_addRecord {r : ExcludedSourceRecord} (hs : Holds scope entities records)
    (h : addRecord unprintable scope (r, records.length) = .ok scope') :
    Holds scope' entities (records ++ [r]) := by
  unfold addRecord at h
  obtain ⟨-, h⟩ := guard_ok h
  obtain ⟨index, hindex, h⟩ := bind_ok h
  obtain ⟨-, h⟩ := guard_ok h
  cases h
  obtain ⟨hnew, rfl⟩ := insertNew_ok hindex
  refine ⟨hs.entities_eq, congrArg (· ++ [r]) hs.sourceRecords_eq, hs.names, hs.asns, ?_⟩
  refine hs.records_.concat fun k i => ?_
  rw [lookup_cons_new hnew, List.mem_singleton]

theorem holds_of_fromConfig (h : fromConfig unprintable file = .ok scope) :
    Holds scope file.excludedEntities file.excludedSourceRecords := by
  unfold fromConfig at h
  obtain ⟨-, h⟩ := guard_ok h
  obtain ⟨st, hst, h⟩ := bind_ok h
  have hentities : Holds st.1 file.excludedEntities [] :=
    foldlM_zipIdx_invariant (P := fun done t => Holds t.1 done []) hst (holds_empty _)
      fun _ _ _ _ hP ht => holds_addEntity hP ht
  exact foldlM_zipIdx_invariant (P := fun done t => Holds t file.excludedEntities done) h hentities
    fun _ _ _ _ hP ht => holds_addRecord hP ht

/-- A valid policy is the index of some lists. -/
theorem holds_of_loadScope {parseToml : String → Except String ScopeConfigFile} {path : String}
    {policy : PolicyFile} (h : loadScope unprintable parseToml path policy = .ok scope) :
    ∃ entities records, Holds scope entities records := by
  cases policy with
  | missing =>
    cases h
    exact ⟨[], [], holds_empty 0⟩
  | unreadable e => cases h
  | text content =>
    obtain ⟨file, -, h⟩ := bind_ok h
    exact ⟨_, _, holds_of_fromConfig h⟩

namespace Holds

variable (hs : Holds scope entities records)
include hs

/-- An ASN is excluded if and only if an entity lists it. -/
theorem excludedAsn_iff (asn : UInt32) :
    scope.excludedAsn asn = true ↔ ∃ e ∈ entities, asn ∈ e.reviewedAsns :=
  hs.asns.isSome_lookup asn

theorem excludedEntityName_iff (name : String) :
    scope.excludedEntityName name = true ↔
      ∃ e ∈ entities, ∃ listed ∈ e.names, normalizeExact listed = normalizeExact name := by
  rw [excludedEntityName, hs.names.isSome_lookup]
  simp only [List.mem_map]

theorem excludedSourceRecord_iff (family externalId : String) :
    scope.excludedSourceRecord family externalId = true ↔
      ∃ r ∈ records, normalizeExact r.externalId = normalizeExact externalId := by
  rw [excludedSourceRecord, hs.records_.isSome_lookup]
  simp only [List.mem_singleton, eq_comm]

/-- There is a reason for what is excluded, and for nothing else. -/
theorem isSome_entityNameReason (name : String) :
    (scope.entityNameReason name).isSome = scope.excludedEntityName name := by
  rw [entityNameReason, Option.isSome_map, hs.entities_eq, hs.names.isSome_row]
  rfl

theorem isSome_sourceRecordReason (family externalId : String) :
    (scope.sourceRecordReason family externalId).isSome =
      scope.excludedSourceRecord family externalId := by
  rw [sourceRecordReason, Option.isSome_map, hs.sourceRecords_eq, hs.records_.isSome_row]
  rfl

end Holds

end ProjectScope

end Inim
