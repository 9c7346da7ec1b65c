import Inim.Domain.Route
import Inim.Text

/-!
# Reviewed manifests (`manifest.rs`, `plan.rs`)

| here | there |
| --- | --- |
| `TransitPredicateMapping`, `.validate`, `.isReady` | `plan.rs:41-84` |
| `Manifest`, `.validate`                            | `manifest.rs:24-99`, `:121-189` |

Deserialising is serde's; a manifest text is parsed by a parameter of the modules that read one.
`ticket_window_local`, `path_classifiers`, the prefix selection and the collectors' provenance are
not kept: no function modelled here reads them.
-/

namespace Inim

structure Provenance where
  statement : String
  reviewedBy : String
  date : String
deriving DecidableEq, Repr

inductive PredicateReviewStatus where
  | unresolved
  | reviewed
deriving DecidableEq, Repr

/-- `format!("{:?}", status)`. -/
def PredicateReviewStatus.debug : PredicateReviewStatus → String
  | .unresolved => "Unresolved"
  | .reviewed => "Reviewed"

structure TransitPredicateMapping where
  status : PredicateReviewStatus
  predicate : Option TransitPredicate
  provenance : Option Provenance
deriving DecidableEq, Repr

def TransitPredicate.emptySet : TransitPredicate → Bool
  | .containsAny asns | .containsAll asns => asns.isEmpty
  | .adjacent _ _ => false

def TransitPredicateMapping.validate (m : TransitPredicateMapping) : Except String Unit :=
  match m.status with
  | .reviewed => do
    if m.predicate.isNone then throw "Reviewed predicate requires a predicate value"
    if m.provenance.isNone then throw "Reviewed predicate requires provenance"
    if m.predicate.any TransitPredicate.emptySet then
      throw "Transit predicate ASN set must be non-empty"
  | .unresolved => do
    if m.predicate.isSome then
      throw "Unresolved predicate must not expose an executable predicate"

def TransitPredicateMapping.isReady (m : TransitPredicateMapping) : Bool :=
  m.status == .reviewed && m.predicate.isSome

structure Window where
  start : String
  stop : String
deriving DecidableEq, Repr

structure ManifestTarget where
  label : String
  originAsns : List UInt32
  managedNetworkAsn : Option UInt32
  internet2Asn : Option UInt32
  transitPredicate : TransitPredicateMapping
deriving DecidableEq, Repr

structure Manifest where
  eventId : String
  revision : UInt32
  schemaVersion : UInt32
  eventWindowUtc : Window
  isOpen : Bool
  analysisEndUtc : Option String
  warmupMinutes : Int
  cooldownMinutes : Int
  target : ManifestTarget
  collectors : List String
  sourceFamily : String
  analystNotes : List String
deriving DecidableEq, Repr

/-- `MANIFEST_SCHEMA_VERSION` (`schema.rs:16`). -/
def manifestSchemaVersion : UInt32 := 2

def legacyManifestRequiresMigration : String := "LegacyManifestRequiresMigration"

/-- An explicit, non-blank analysis cutoff. -/
def Manifest.hasCutoff (m : Manifest) : Bool := m.analysisEndUtc.any fun c => !trimBlank c

def Manifest.validate (m : Manifest) : Except String Manifest := do
  if m.target.managedNetworkAsn.isSome || m.target.internet2Asn.isSome then
    throw (legacyManifestRequiresMigration ++ ": manifest " ++ m.eventId ++ " uses a legacy " ++
      "single-ASN shortcut field (managed_network_asn/internet2_asn). Migrate to " ++
      "TransitPredicateMapping before analysis.")
  if m.schemaVersion < manifestSchemaVersion then
    throw (legacyManifestRequiresMigration ++ ": manifest " ++ m.eventId ++ " is schema v" ++
      toString m.schemaVersion ++ ", current is v" ++ toString manifestSchemaVersion ++ ".")
  if manifestSchemaVersion < m.schemaVersion then
    throw ("UnsupportedManifestRevision: manifest " ++ m.eventId ++ " schema v" ++
      toString m.schemaVersion ++ " is newer than supported v" ++
      toString manifestSchemaVersion ++ ".")
  if m.eventId.isEmpty then throw "manifest event_id is empty"
  if m.eventWindowUtc.start.isEmpty || (m.eventWindowUtc.stop.isEmpty && !m.isOpen) then
    throw "manifest event_window_utc has empty start/end"
  if m.isOpen && !m.hasCutoff then
    throw "manifest open event requires an explicit analysis_end_utc cutoff"
  if m.collectors.isEmpty then throw "manifest collectors list is empty"
  if m.warmupMinutes < 0 ∨ m.cooldownMinutes < 0 then
    throw "warmup_minutes and cooldown_minutes must be >= 0"
  if m.target.originAsns.isEmpty then throw "manifest target.origin_asns is empty"
  m.target.transitPredicate.validate
  return m

end Inim
