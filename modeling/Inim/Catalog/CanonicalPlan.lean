import Inim.Catalog.Manifest
import Inim.Lib.Dedup

/-!
# The canonical plan hash (`catalog/jobs/plan.rs:24-125`)

| here | there |
| --- | --- |
| `CanonicalPlan`, `.fromManifest`   | `plan.rs:25`, `:46-90` |
| `normalizePredicate`               | `plan.rs:99-113` |
| `CanonicalPlan.canonicalJson`      | `plan.rs:93`; serde writes the fields as declared |
| `canonicalPlanHash`                | `plan.rs:117-124` |
-/

namespace Inim

open Inim.Lib

structure CanonicalPlan where
  eventId : String
  manifestSchema : UInt32
  manifestRevision : UInt32
  lifecycle : String
  analysisStart : String
  analysisEnd : String
  warmupMinutes : Int
  cooldownMinutes : Int
  sourceFamily : String
  collectors : List String
  originAsns : List UInt32
  transitPredicate : Option TransitPredicate
  transitPredicateReview : String
  targetLabel : String
  reviewProvenance : Option String
deriving DecidableEq, Repr

def normalizePredicate : TransitPredicate → TransitPredicate
  | .containsAny asns => .containsAny (sortDedup compare asns)
  | .containsAll asns => .containsAll (sortDedup compare asns)
  | .adjacent a b => .adjacent a b

def CanonicalPlan.fromManifest (m : Manifest) : CanonicalPlan where
  eventId := m.eventId
  manifestSchema := m.schemaVersion
  manifestRevision := m.revision
  lifecycle := if m.isOpen then "Open" else "Closed"
  analysisStart := m.eventWindowUtc.start
  analysisEnd := if m.isOpen then m.analysisEndUtc.getD "" else m.eventWindowUtc.stop
  warmupMinutes := m.warmupMinutes
  cooldownMinutes := m.cooldownMinutes
  sourceFamily := m.sourceFamily
  collectors := sortDedup compare m.collectors
  originAsns := sortDedup compare m.target.originAsns
  transitPredicate := m.target.transitPredicate.predicate.map normalizePredicate
  transitPredicateReview := m.target.transitPredicate.status.debug
  targetLabel := m.target.label
  reviewProvenance := m.target.transitPredicate.provenance.map fun p => p.reviewedBy ++ "|" ++ p.date

def jsonAsns (asns : List UInt32) : String := jsonArray (asns.map toString)

def jsonPredicate : TransitPredicate → String
  | .containsAny asns => jsonObject [("ContainsAny", jsonAsns asns)]
  | .containsAll asns => jsonObject [("ContainsAll", jsonAsns asns)]
  | .adjacent a b => jsonObject [("Adjacent", jsonAsns [a, b])]

def CanonicalPlan.canonicalJson (p : CanonicalPlan) : String :=
  jsonObject [("event_id", jsonString p.eventId), ("manifest_schema", toString p.manifestSchema),
    ("manifest_revision", toString p.manifestRevision), ("lifecycle", jsonString p.lifecycle),
    ("analysis_start", jsonString p.analysisStart), ("analysis_end", jsonString p.analysisEnd),
    ("warmup_minutes", toString p.warmupMinutes), ("cooldown_minutes", toString p.cooldownMinutes),
    ("source_family", jsonString p.sourceFamily),
    ("collectors", jsonArray (p.collectors.map jsonString)),
    ("origin_asns", jsonAsns p.originAsns),
    ("transit_predicate", jsonOption jsonPredicate p.transitPredicate),
    ("transit_predicate_review", jsonString p.transitPredicateReview),
    ("target_label", jsonString p.targetLabel),
    ("review_provenance", jsonOption jsonString p.reviewProvenance)]

/-- `parse` is serde's reading of a manifest, `sha256` the digest in hexadecimal. -/
def canonicalPlanHash (parse : String → Except String Manifest) (sha256 : String → String)
    (manifestPayload : String) : Except String String := do
  let m ← (parse manifestPayload).mapError fun e => "invalid manifest payload: " ++ e
  return sha256 (CanonicalPlan.fromManifest m).canonicalJson

/-- The manifest with its origins listed as `l`. -/
def Manifest.withOrigins (m : Manifest) (l : List UInt32) : Manifest :=
  { m with target := { m.target with originAsns := l } }

/-- All listings of one origin set have one canonical plan. -/
theorem CanonicalPlan.fromManifest_congr (m : Manifest) {l l' : List UInt32}
    (h : ∀ a, a ∈ l ↔ a ∈ l') :
    CanonicalPlan.fromManifest (m.withOrigins l) = CanonicalPlan.fromManifest (m.withOrigins l') := by
  unfold CanonicalPlan.fromManifest Manifest.withOrigins
  rw [sortDedup_congr h]

end Inim
