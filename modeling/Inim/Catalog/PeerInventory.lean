import Inim.Lib.FirstSeen

/-!
# The peer inventory (`catalog/netprofile.rs:45-72`, `:674-709`, `:795-1092`)

One row for each session (peer address, peer ASN, address family) of a RIB, with counts of its routes,
of its target-origin routes and of the planes on their paths, kept up while the routes stream by. The
direct-session decision reads the rows.

| here | there |
| --- | --- |
| `ServicePlaneProfile.validate` | `ServicePlaneProfile::validate` (:57) |
| `PathClassCounts.observe` | `PathClassCounts::observe` (:688) |
| `InventorySource`, `first`, `add`, `observe`, `finish` | `PeerInventoryAccumulator` (:843-978) |
| `peerInventory`      | `peer_inventory` (:988) |
| `directSessionDecision` | `direct_session_decision` (:1041) |

The planes of a session are listed in the order they were first seen, so the rows depend on the order of
the routes unless the planes are nested (`Nested`). The direct count looks at the first direct peer ASN
only, and of each of its addresses at one row: `inventoryRight_iff` is the exact condition.
-/

namespace Inim.Netprofile

open Std Inim.Lib

/-! ## Profiles -/

structure NamedServicePlane where
  id : String
  displayLabel : String
  asns : List UInt32
deriving DecidableEq, Repr

structure ServicePlaneProfile where
  servicePlanes : List NamedServicePlane
deriving DecidableEq, Repr

def validatePlanes (seen : List String) : List NamedServicePlane → Except String Unit
  | [] => .ok ()
  | plane :: planes =>
    if plane.id = "" then .error "service plane id must not be empty"
    else if plane.asns.isEmpty then .error ("service plane '" ++ plane.id ++ "' has no ASNs")
    else if plane.id ∈ seen then .error ("duplicate service plane id '" ++ plane.id ++ "'")
    else validatePlanes (seen ++ [plane.id]) planes

def ServicePlaneProfile.validate (profile : ServicePlaneProfile) : Except String Unit :=
  validatePlanes [] profile.servicePlanes

/-- `path.iter().any(|a| plane.asns.contains(a))`. -/
def NamedServicePlane.isOn (plane : NamedServicePlane) (path : List UInt32) : Bool :=
  path.any plane.asns.contains

theorem validatePlanes_nodup {seen : List String} {planes : List NamedServicePlane}
    (h : validatePlanes seen planes = .ok ()) :
    (planes.map (·.id)).Nodup ∧ ∀ plane ∈ planes, plane.id ∉ seen := by
  induction planes generalizing seen with
  | nil => exact ⟨List.nodup_nil, fun _ hp => by cases hp⟩
  | cons plane planes ih =>
    rw [validatePlanes] at h
    split at h
    · cases h
    split at h
    · cases h
    split at h
    · cases h
    next hnew =>
      obtain ⟨hnodup, hseen⟩ := ih h
      refine ⟨List.nodup_cons.2 ⟨fun hmem => ?_, hnodup⟩, List.forall_mem_cons.2 ⟨hnew, ?_⟩⟩
      · obtain ⟨p, hp, hid⟩ := List.mem_map.1 hmem
        exact hseen p hp (List.mem_append_right _ (List.mem_singleton.2 hid))
      · exact fun p hp hmem => hseen p hp (List.mem_append_left _ hmem)

/-- A validated profile names each plane once. -/
theorem ServicePlaneProfile.ids_nodup {profile : ServicePlaneProfile}
    (h : profile.validate = .ok ()) : (profile.servicePlanes.map (·.id)).Nodup :=
  (validatePlanes_nodup h).1

/-! ## Path classes -/

structure PathClassCounts where
  perPlaneContains : List (String × Nat)
  neitherPlane : Nat
  total : Nat
deriving DecidableEq, Repr

namespace PathClassCounts

def default : PathClassCounts := ⟨[], 0, 0⟩

def observe (profile : ServicePlaneProfile) (c : PathClassCounts) (path : List UInt32) :
    PathClassCounts :=
  let seen := profile.servicePlanes.foldl
    (fun s plane => if plane.isOn path then (bump plane.id s.1, true) else s)
    (c.perPlaneContains, false)
  { perPlaneContains := seen.1
    neitherPlane := if seen.2 then c.neitherPlane else c.neitherPlane + 1
    total := c.total + 1 }

end PathClassCounts

/-! ## Rows -/

/-- The fields of a route that the inventory reads. -/
structure PathEvidence where
  peerIp : String
  peerAsn : UInt32
  addressFamily : String
  pfx : String
  asPath : List UInt32
  originAsns : List UInt32
deriving DecidableEq, Repr

def PathEvidence.session (r : PathEvidence) : String × UInt32 × String :=
  (r.peerIp, r.peerAsn, r.addressFamily)

structure MutableInventoryRow where
  peerIp : String
  peerAsn : UInt32
  addressFamily : String
  totalRouteCount : Nat
  originRouteCount : Nat
  originPrefixes : List String
  pathClass : PathClassCounts
  originPathClass : PathClassCounts
deriving DecidableEq, Repr

structure PeerInventoryRow where
  sourceFamily : String
  collector : String
  location : String
  ribTimestampUtc : String
  ribSourceSha : String
  ribSource : String
  peerIp : String
  peerAsn : UInt32
  addressFamily : String
  totalRouteCount : Nat
  originRouteCount : Nat
  distinctOriginPrefixes : Nat
  pathClass : PathClassCounts
  originPathClass : PathClassCounts
deriving DecidableEq, Repr

def PeerInventoryRow.session (row : PeerInventoryRow) : String × UInt32 × String :=
  (row.peerIp, row.peerAsn, row.addressFamily)

structure CollectorLocation where
  family : String
  collector : String
  location : String
deriving DecidableEq, Repr

abbrev CollectorLocationRegistry := List CollectorLocation

/-- The family is compared without case, as ASCII. -/
def CollectorLocationRegistry.location (registry : CollectorLocationRegistry)
    (family collector : String) : Option CollectorLocation :=
  registry.find? fun c => c.family.map Char.toLower = family.map Char.toLower && c.collector = collector

/-- What an accumulator is made with. -/
structure InventorySource where
  profile : ServicePlaneProfile
  registry : CollectorLocationRegistry
  sourceFamily : String
  collector : String
  evidenceAt : String
  sourceSha : String
  ribSource : String
  originAsns : List UInt32

/-- By peer address, address family and peer ASN. -/
def inventoryOrder : PeerInventoryRow → PeerInventoryRow → Ordering :=
  compareLex (compareOn (·.peerIp)) (compareLex (compareOn (·.addressFamily)) (compareOn (·.peerAsn)))

instance : TransCmp inventoryOrder :=
  inferInstanceAs (TransCmp (compareLex _ (compareLex _ _)))

namespace InventorySource
variable (src : InventorySource)

def isOrigin (route : PathEvidence) : Bool :=
  !route.originAsns.isEmpty && route.originAsns.any src.originAsns.contains

/-- The row of a session's first route. -/
def first (route : PathEvidence) : MutableInventoryRow :=
  { peerIp := route.peerIp
    peerAsn := route.peerAsn
    addressFamily := route.addressFamily
    totalRouteCount := 1
    originRouteCount := if src.isOrigin route then 1 else 0
    originPrefixes := if src.isOrigin route then [route.pfx] else []
    pathClass := PathClassCounts.default.observe src.profile route.asPath
    originPathClass := if src.isOrigin route then PathClassCounts.default.observe src.profile route.asPath
      else PathClassCounts.default }

/-- A further route of the session. -/
def add (row : MutableInventoryRow) (route : PathEvidence) : MutableInventoryRow :=
  let row := { row with
    totalRouteCount := row.totalRouteCount + 1
    pathClass := row.pathClass.observe src.profile route.asPath }
  if src.isOrigin route then
    { row with
      originRouteCount := row.originRouteCount + 1
      originPathClass := row.originPathClass.observe src.profile route.asPath
      originPrefixes := keepNew row.originPrefixes route.pfx }
  else row

def observe (route : PathEvidence) : List MutableInventoryRow → List MutableInventoryRow
  | [] => [src.first route]
  | row :: rows =>
    if row.peerIp = route.peerIp ∧ row.peerAsn = route.peerAsn ∧ row.addressFamily = route.addressFamily then
      src.add row route :: rows
    else row :: observe route rows

def report (r : MutableInventoryRow) : PeerInventoryRow :=
  { sourceFamily := src.sourceFamily
    collector := src.collector
    location := ((src.registry.location src.sourceFamily src.collector).map (·.location)).getD "unknown"
    ribTimestampUtc := src.evidenceAt
    ribSourceSha := src.sourceSha
    ribSource := src.ribSource
    peerIp := r.peerIp
    peerAsn := r.peerAsn
    addressFamily := r.addressFamily
    totalRouteCount := r.totalRouteCount
    originRouteCount := r.originRouteCount
    distinctOriginPrefixes := r.originPrefixes.length
    pathClass := r.pathClass
    originPathClass := r.originPathClass }

def finish (rows : List MutableInventoryRow) : List PeerInventoryRow :=
  sortBy inventoryOrder (rows.map src.report)

/-- An accumulator that has consumed the routes. -/
def inventory (routes : List PathEvidence) : List PeerInventoryRow :=
  src.finish (routes.foldl (fun rows route => src.observe route rows) [])

end InventorySource

/-- The accumulator of `peer_inventory`, which is given no path of a RIB. -/
def peerSource (profile : ServicePlaneProfile) (registry : CollectorLocationRegistry)
    (sourceFamily collector evidenceAt sourceSha : String) (originAsns : List UInt32) :
    InventorySource :=
  ⟨profile, registry, sourceFamily, collector, evidenceAt, sourceSha, "", originAsns⟩

def peerInventory (profile : ServicePlaneProfile) (registry : CollectorLocationRegistry)
    (sourceFamily collector evidenceAt sourceSha : String) (routes : List PathEvidence)
    (originAsns : List UInt32) : List PeerInventoryRow :=
  (peerSource profile registry sourceFamily collector evidenceAt sourceSha originAsns).inventory routes

/-! ## The direct session of a plane -/

structure PlaneDirectSessionDecision where
  planeId : String
  planeLabel : String
  directSessionPresent : Bool
  directPeerIp : Option String
  directPeerAsn : Option UInt32
  directOriginRouteCount : Nat
  planeAsnInPath : Bool
deriving DecidableEq, Repr

/-- One row of the last loop: the addresses seen, and the total. -/
def countDirect (asn : UInt32) (s : List String × Nat) (row : PeerInventoryRow) : List String × Nat :=
  if row.peerAsn = asn ∧ row.peerIp ∉ s.1 then (s.1 ++ [row.peerIp], s.2 + row.originRouteCount) else s

def directSessionDecision (profile : ServicePlaneProfile) (planeId : String)
    (inventory : List PeerInventoryRow) : Option PlaneDirectSessionDecision :=
  (profile.servicePlanes.find? (·.id = planeId)).map fun plane =>
    let direct := inventory.find? fun row => plane.asns.contains row.peerAsn
    let total := (inventory.foldl (countDirect ((direct.map (·.peerAsn)).getD 0xFFFFFFFF)) ([], 0)).2
    { planeId := plane.id
      planeLabel := plane.displayLabel
      directSessionPresent := direct.isSome
      directPeerIp := direct.map (·.peerIp)
      directPeerAsn := direct.map (·.peerAsn)
      directOriginRouteCount := if direct.isSome then total else 0
      planeAsnInPath := inventory.any fun row =>
        row.pathClass.perPlaneContains.any fun e => e.1 = planeId && 0 < e.2 }

/-! ## What the counts are -/

/-- A path is on a plane of this id. -/
def ServicePlaneProfile.shows (profile : ServicePlaneProfile) (path : List UInt32) (id : String) : Bool :=
  profile.servicePlanes.any fun plane => plane.id = id && plane.isOn path

/-- The counts of some paths. -/
def classCounts (profile : ServicePlaneProfile) (paths : List (List UInt32)) : PathClassCounts :=
  { perPlaneContains :=
      tally (paths.flatMap fun path => (profile.servicePlanes.filter (·.isOn path)).map (·.id))
    neitherPlane := paths.countP fun path => !profile.servicePlanes.any (·.isOn path)
    total := paths.length }

/-- The loop over the planes raises those the path is on, and says whether there are any. -/
theorem foldl_planes (planes : List NamedServicePlane) (path : List UInt32)
    (counts : List (String × Nat)) (matched : Bool) :
    planes.foldl (fun s plane => if plane.isOn path then (bump plane.id s.1, true) else s)
        (counts, matched) =
      (((planes.filter (·.isOn path)).map (·.id)).foldl (fun c id => bump id c) counts,
        matched || planes.any (·.isOn path)) := by
  induction planes generalizing counts matched with
  | nil => simp
  | cons plane planes ih =>
    rw [List.foldl_cons]
    by_cases hon : plane.isOn path = true
    · rw [if_pos hon, ih]
      simp [hon]
    · rw [if_neg hon, ih]
      simp [hon]

theorem observe_classCounts (profile : ServicePlaneProfile) (paths : List (List UInt32))
    (path : List UInt32) :
    (classCounts profile paths).observe profile path = classCounts profile (paths ++ [path]) := by
  rw [PathClassCounts.observe, foldl_planes, Bool.false_or]
  have hcounts : (classCounts profile (paths ++ [path])).perPlaneContains =
      ((profile.servicePlanes.filter (·.isOn path)).map (·.id)).foldl (fun c id => bump id c)
        (classCounts profile paths).perPlaneContains := by
    simp only [classCounts, tally, List.flatMap_append, List.foldl_append, List.flatMap_cons,
      List.flatMap_nil, List.append_nil]
  have hneither : (classCounts profile (paths ++ [path])).neitherPlane =
      if profile.servicePlanes.any (·.isOn path) then (classCounts profile paths).neitherPlane
      else (classCounts profile paths).neitherPlane + 1 := by
    simp only [classCounts, List.countP_append, List.countP_singleton]
    cases profile.servicePlanes.any (·.isOn path) <;> rfl
  have htotal : (classCounts profile (paths ++ [path])).total = (classCounts profile paths).total + 1 := by
    simp only [classCounts, List.length_append, List.length_singleton]
  rw [PathClassCounts.mk.injEq]
  exact ⟨hcounts.symm, hneither.symm, htotal.symm⟩

namespace InventorySource
variable (src : InventorySource)

/-- The row of a session that sent these routes. -/
def rowOf (k : String × UInt32 × String) (routes : List PathEvidence) : MutableInventoryRow :=
  { peerIp := k.1
    peerAsn := k.2.1
    addressFamily := k.2.2
    totalRouteCount := routes.length
    originRouteCount := routes.countP src.isOrigin
    originPrefixes := firstSeen ((routes.filter src.isOrigin).map (·.pfx))
    pathClass := classCounts src.profile (routes.map (·.asPath))
    originPathClass := classCounts src.profile ((routes.filter src.isOrigin).map (·.asPath)) }

theorem add_rowOf (k : String × UInt32 × String) (routes : List PathEvidence) (r : PathEvidence) :
    src.add (src.rowOf k routes) r = src.rowOf k (routes ++ [r]) := by
  by_cases ho : src.isOrigin r = true
  · simp [add, rowOf, ho, observe_classCounts, List.filter_append, List.countP_append, firstSeen_concat]
  · simp [add, rowOf, ho, observe_classCounts, List.filter_append, List.countP_append]

theorem first_eq (r : PathEvidence) : src.first r = src.rowOf r.session [r] := by
  have hnil : classCounts src.profile [] = PathClassCounts.default := rfl
  rw [← List.nil_append [r], ← add_rowOf]
  by_cases ho : src.isOrigin r = true
  · simp [first, add, rowOf, ho, hnil, PathEvidence.session, firstSeen, keepNew]
  · simp [first, add, rowOf, ho, hnil, PathEvidence.session, firstSeen]

/-- Observing a route is adding it to the group of its session. -/
theorem observe_map_rowOf (m : List ((String × UInt32 × String) × List PathEvidence)) (r : PathEvidence) :
    src.observe r (m.map fun g => src.rowOf g.1 g.2) =
      (addTo r.session r m).map fun g => src.rowOf g.1 g.2 := by
  induction m with
  | nil => exact congrArg (fun row => [row]) (src.first_eq r)
  | cons g m ih =>
    obtain ⟨⟨ip, asn, af⟩, routes⟩ := g
    rw [List.map_cons, observe, addTo]
    by_cases hk : (ip, asn, af) = r.session
    · have hsame : ip = r.peerIp ∧ asn = r.peerAsn ∧ af = r.addressFamily := by
        simpa [PathEvidence.session] using hk
      rw [if_pos hk, List.map_cons, ← add_rowOf]
      exact if_pos hsame
    · have hsame : ¬ (ip = r.peerIp ∧ asn = r.peerAsn ∧ af = r.addressFamily) := by
        simpa [PathEvidence.session] using hk
      rw [if_neg hk, List.map_cons, ← ih]
      exact if_neg hsame

theorem foldl_observe (routes : List PathEvidence) :
    routes.foldl (fun rows r => src.observe r rows) [] =
      (groupOn PathEvidence.session routes).map fun g => src.rowOf g.1 g.2 := by
  induction routes using List.reverseRecOn with
  | nil => rfl
  | append_singleton routes r ih =>
    rw [List.foldl_concat, ih, observe_map_rowOf, groupOn_concat]

/-! ## The rows -/

/-- The routes of a session. -/
def sent (k : String × UInt32 × String) (routes : List PathEvidence) : List PathEvidence :=
  routes.filter fun r => r.session = k

/-- The row of a session. -/
def reported (routes : List PathEvidence) (k : String × UInt32 × String) : PeerInventoryRow :=
  src.report (src.rowOf k (sent k routes))

/-- **One row for each session, with the counts of its routes.** -/
theorem inventory_eq (routes : List PathEvidence) : src.inventory routes =
    sortBy inventoryOrder ((firstSeen (routes.map (·.session))).map (src.reported routes)) := by
  rw [inventory, foldl_observe, finish, groupOn_eq_map, List.map_map, List.map_map]
  rfl

theorem mem_inventory {routes : List PathEvidence} {row : PeerInventoryRow} :
    row ∈ src.inventory routes ↔ ∃ k, (∃ r ∈ routes, r.session = k) ∧ src.reported routes k = row := by
  rw [inventory_eq, mem_sortBy, List.mem_map]
  simp only [mem_firstSeen, List.mem_map]

theorem map_session_inventory_perm (routes : List PathEvidence) :
    ((src.inventory routes).map (·.session)).Perm (firstSeen (routes.map (·.session))) := by
  rw [inventory_eq]
  refine ((sortBy_perm _ _).map _).trans ?_
  rw [List.map_map]
  exact List.Perm.of_eq (List.map_id _)

theorem sessions_nodup (routes : List PathEvidence) :
    ((src.inventory routes).map (·.session)).Nodup :=
  (src.map_session_inventory_perm routes).nodup_iff.2 (firstSeen_nodup _)

theorem inventory_nodup (routes : List PathEvidence) : (src.inventory routes).Nodup :=
  (src.sessions_nodup routes).of_map

theorem inventoryOrder_eq {a b : PeerInventoryRow} (h : inventoryOrder a b = .eq) :
    a.session = b.session := by
  simp only [inventoryOrder, compareLex_eq_eq] at h
  have hip : a.peerIp = b.peerIp := Std.compare_eq_iff_eq.1 h.1
  have haf : a.addressFamily = b.addressFamily := Std.compare_eq_iff_eq.1 h.2.1
  have hasn : a.peerAsn = b.peerAsn := Std.compare_eq_iff_eq.1 h.2.2
  rw [PeerInventoryRow.session, PeerInventoryRow.session, hip, haf, hasn]

/-- Rows of one session are one row. -/
theorem eq_of_session {routes : List PathEvidence} {a b : PeerInventoryRow}
    (ha : a ∈ src.inventory routes) (hb : b ∈ src.inventory routes) (h : a.session = b.session) : a = b :=
  List.inj_on_of_nodup_map (src.sessions_nodup routes) ha hb h

/-- The first row that passes is the least that passes. -/
theorem find?_inventory_iff {routes : List PathEvidence} {p : PeerInventoryRow → Bool}
    {row : PeerInventoryRow} : (src.inventory routes).find? p = some row ↔
      row ∈ src.inventory routes ∧ p row = true ∧
        ∀ b ∈ src.inventory routes, p b = true → CmpLE inventoryOrder row b := by
  have hmem : ∀ {x}, x ∈ (firstSeen (routes.map (·.session))).map (src.reported routes) ↔
      x ∈ src.inventory routes := by
    intro x
    rw [inventory_eq, mem_sortBy]
  rw [inventory_eq, find?_sortBy_iff, ← inventory_eq]
  · simp only [hmem]
  · intro a ha b hb htie
    exact src.eq_of_session (hmem.1 ha) (hmem.1 hb) (inventoryOrder_eq htie)

end InventorySource

/-! ## The counts of a session -/

/-- The numbers of some paths: all, those on each plane, those on none. -/
structure CountsOf (profile : ServicePlaneProfile) (paths : List (List UInt32))
    (c : PathClassCounts) : Prop where
  total : c.total = paths.length
  neither : c.neitherPlane = paths.countP fun path => !profile.servicePlanes.any (·.isOn path)
  planes : ∀ id n, (id, n) ∈ c.perPlaneContains ↔
    ∃ plane ∈ profile.servicePlanes, plane.id = id ∧ n = paths.countP plane.isOn ∧ 0 < n

section Counts
variable {profile : ServicePlaneProfile} (hids : (profile.servicePlanes.map (·.id)).Nodup)
include hids

theorem eq_of_id {p q : NamedServicePlane} (hp : p ∈ profile.servicePlanes)
    (hq : q ∈ profile.servicePlanes) (h : p.id = q.id) : p = q :=
  List.inj_on_of_nodup_map hids hp hq h

theorem mem_shownIds {plane : NamedServicePlane} (hp : plane ∈ profile.servicePlanes)
    (path : List UInt32) :
    plane.id ∈ (profile.servicePlanes.filter (·.isOn path)).map (·.id) ↔ plane.isOn path = true := by
  constructor
  · intro h
    obtain ⟨q, hq, hid⟩ := List.mem_map.1 h
    obtain ⟨hq, hon⟩ := List.mem_filter.1 hq
    rwa [← eq_of_id hids hq hp hid]
  · exact fun hon => List.mem_map.2 ⟨plane, List.mem_filter.2 ⟨hp, hon⟩, rfl⟩

theorem count_shownIds {plane : NamedServicePlane} (hp : plane ∈ profile.servicePlanes)
    (paths : List (List UInt32)) :
    (paths.flatMap fun path => (profile.servicePlanes.filter (·.isOn path)).map (·.id)).count plane.id =
      paths.countP plane.isOn := by
  induction paths with
  | nil => rfl
  | cons path paths ih =>
    have hnodup : ((profile.servicePlanes.filter (·.isOn path)).map (·.id)).Nodup :=
      hids.sublist (List.filter_sublist.map _)
    have hmem := mem_shownIds hids hp path
    rw [List.flatMap_cons, List.count_append, ih, hnodup.count, List.countP_cons, Nat.add_comm]
    by_cases hon : plane.isOn path = true
    · rw [if_pos (hmem.2 hon), if_pos hon]
    · rw [if_neg (fun h => hon (hmem.1 h)), if_neg hon]

theorem classCounts_spec (paths : List (List UInt32)) :
    CountsOf profile paths (classCounts profile paths) where
  total := rfl
  neither := rfl
  planes := by
    intro id n
    rw [classCounts, mem_tally]
    constructor
    · rintro ⟨hmem, rfl⟩
      obtain ⟨path, -, hid⟩ := List.mem_flatMap.1 hmem
      obtain ⟨plane, hplane, rfl⟩ := List.mem_map.1 hid
      have hp := (List.mem_filter.1 hplane).1
      exact ⟨plane, hp, rfl, count_shownIds hids hp paths, List.count_pos_iff.2 hmem⟩
    · rintro ⟨plane, hp, rfl, rfl, hpos⟩
      rw [← count_shownIds hids hp] at hpos ⊢
      exact ⟨List.count_pos_iff.1 hpos, rfl⟩

end Counts

/-- The counts of a row are those of the routes of its session. -/
structure RowCounts (src : InventorySource) (routes : List PathEvidence) (row : PeerInventoryRow) :
    Prop where
  total : row.totalRouteCount = routes.length
  origin : row.originRouteCount = routes.countP src.isOrigin
  pathClass : CountsOf src.profile (routes.map (·.asPath)) row.pathClass
  originPathClass :
    CountsOf src.profile ((routes.filter src.isOrigin).map (·.asPath)) row.originPathClass

theorem rowCounts_of_mem {src : InventorySource}
    (hids : (src.profile.servicePlanes.map (·.id)).Nodup) {routes : List PathEvidence}
    {row : PeerInventoryRow} (h : row ∈ src.inventory routes) :
    RowCounts src (InventorySource.sent row.session routes) row := by
  obtain ⟨k, -, rfl⟩ := src.mem_inventory.1 h
  exact ⟨rfl, rfl, classCounts_spec hids _, classCounts_spec hids _⟩

/-! ## The order of the routes -/

/-- Of two planes on routes of a session, the one that the profile names first is on every route the
other is on. -/
def PlanesNested (profile : ServicePlaneProfile) (routes : List PathEvidence) : Prop :=
  Nested profile.servicePlanes (fun r plane => plane.isOn r.asPath) routes

section Arrangements
variable {profile : ServicePlaneProfile}

theorem filter_shows (hids : (profile.servicePlanes.map (·.id)).Nodup) (path : List UInt32) :
    (profile.servicePlanes.filter (·.isOn path)).map (·.id) =
      (profile.servicePlanes.map (·.id)).filter (profile.shows path) := by
  rw [List.filter_map]
  refine congrArg (List.map _) (List.filter_congr fun plane hp => ?_)
  rw [Bool.eq_iff_iff, Function.comp_apply, ServicePlaneProfile.shows, List.any_eq_true]
  constructor
  · exact fun hon => ⟨plane, hp, by simp [hon]⟩
  · rintro ⟨q, hq, hqon⟩
    simp only [Bool.and_eq_true, decide_eq_true_eq] at hqon
    rw [← eq_of_id hids hq hp hqon.1]
    exact hqon.2

theorem shows_id (hids : (profile.servicePlanes.map (·.id)).Nodup) {plane : NamedServicePlane}
    (hp : plane ∈ profile.servicePlanes) (path : List UInt32) :
    profile.shows path plane.id = true ↔ plane.isOn path = true := by
  rw [← mem_shownIds hids hp path, filter_shows hids, List.mem_filter]
  exact (and_iff_right (List.mem_map.2 ⟨plane, hp, rfl⟩)).symm

theorem nested_ids_iff (hids : (profile.servicePlanes.map (·.id)).Nodup) (routes : List PathEvidence) :
    Nested (profile.servicePlanes.map (·.id)) (fun r id => profile.shows r.asPath id) routes ↔
      PlanesNested profile routes := by
  constructor
  · rintro hn p q hpq ⟨a, ha, hap⟩ b hb hbq
    have hp : p ∈ profile.servicePlanes := hpq.subset (by simp)
    have hq : q ∈ profile.servicePlanes := hpq.subset (by simp)
    have hb' := hn p.id q.id (hpq.map NamedServicePlane.id) ⟨a, ha, (shows_id hids hp _).2 hap⟩ b hb
      ((shows_id hids hq _).2 hbq)
    exact (shows_id hids hp _).1 hb'
  · rintro hn i j hij ⟨a, ha, hai⟩ b hb hbj
    obtain ⟨l, hl, hmap⟩ := List.sublist_map_iff.1 hij
    obtain ⟨p, q, rfl⟩ : ∃ p q, l = [p, q] := by
      refine List.length_eq_two.1 ?_
      rw [← List.length_map (·.id), ← hmap]
      rfl
    obtain ⟨rfl, rfl⟩ : i = p.id ∧ j = q.id := by simpa using hmap
    have hp : p ∈ profile.servicePlanes := hl.subset (by simp)
    have hq : q ∈ profile.servicePlanes := hl.subset (by simp)
    have hb' := hn p q hl ⟨a, ha, (shows_id hids hp _).1 hai⟩ b hb ((shows_id hids hq _).1 hbj)
    exact (shows_id hids hp _).2 hb'

theorem perPlane_eq (hids : (profile.servicePlanes.map (·.id)).Nodup) (routes : List PathEvidence) :
    (classCounts profile (routes.map (·.asPath))).perPlaneContains =
      tally (shown (profile.servicePlanes.map (·.id)) (fun r id => profile.shows r.asPath id) routes) := by
  rw [classCounts, List.flatMap_map]
  simp only [filter_shows hids]
  rfl

/-- The counts of a list of routes are those of all its arrangements when its planes are nested. -/
theorem classCounts_perm (hids : (profile.servicePlanes.map (·.id)).Nodup)
    {routes routes' : List PathEvidence} (h : routes.Perm routes') (hn : PlanesNested profile routes) :
    classCounts profile (routes'.map (·.asPath)) = classCounts profile (routes.map (·.asPath)) := by
  have hseen := (firstSeen_shown_perm_iff hids).2 ((nested_ids_iff hids routes).2 hn) routes' h
  have hcount : ∀ id, (shown (profile.servicePlanes.map (·.id))
        (fun r id => profile.shows r.asPath id) routes').count id =
      (shown (profile.servicePlanes.map (·.id)) (fun r id => profile.shows r.asPath id) routes).count id :=
    fun id => (h.symm.flatMap_right _).count_eq id
  rw [PathClassCounts.mk.injEq]
  refine ⟨?_, (h.map _).symm.countP_eq _, (h.map _).symm.length_eq⟩
  have hplanes : (classCounts profile (routes'.map (·.asPath))).perPlaneContains =
      (classCounts profile (routes.map (·.asPath))).perPlaneContains := by
    rw [perPlane_eq hids, perPlane_eq hids, tally_eq_map, tally_eq_map, hseen]
    exact List.map_congr_left fun id _ => congrArg (Prod.mk id) (hcount id)
  exact hplanes

theorem nested_of_classCounts (hids : (profile.servicePlanes.map (·.id)).Nodup)
    {routes : List PathEvidence} (h : ∀ routes', routes.Perm routes' →
      classCounts profile (routes'.map (·.asPath)) = classCounts profile (routes.map (·.asPath))) :
    PlanesNested profile routes := by
  refine (nested_ids_iff hids routes).1 ((firstSeen_shown_perm_iff hids).1 fun routes' hperm => ?_)
  have hkeys := congrArg (fun c => c.perPlaneContains.map Prod.fst) (h routes' hperm)
  simp only [perPlane_eq hids, map_fst_tally] at hkeys
  exact hkeys

end Arrangements

namespace InventorySource
variable {src : InventorySource}

/-- Both counts of every session can be listed in one order only. -/
def SessionsNested (src : InventorySource) (routes : List PathEvidence) : Prop :=
  ∀ k, PlanesNested src.profile (sent k routes) ∧
    PlanesNested src.profile ((sent k routes).filter src.isOrigin)

theorem reported_perm (hids : (src.profile.servicePlanes.map (·.id)).Nodup)
    {routes routes' : List PathEvidence} (h : routes.Perm routes') (hn : src.SessionsNested routes)
    (k : String × UInt32 × String) : src.reported routes' k = src.reported routes k := by
  have hsent : (sent k routes).Perm (sent k routes') := h.filter _
  have horigin := hsent.filter src.isOrigin
  have hprefixes := (firstSeen_perm (horigin.map (·.pfx))).length_eq
  simp only [reported, report, rowOf, classCounts_perm hids hsent (hn k).1,
    classCounts_perm hids horigin (hn k).2, hprefixes, hsent.length_eq, hsent.countP_eq]

/-- **The rows are the same for all arrangements of the routes exactly when the planes of every
session are nested.** -/
theorem inventory_perm_iff (hids : (src.profile.servicePlanes.map (·.id)).Nodup)
    {routes : List PathEvidence} :
    (∀ routes', routes.Perm routes' → src.inventory routes' = src.inventory routes) ↔
      src.SessionsNested routes := by
  constructor
  · intro hsame k
    -- any arrangement of the session's routes is part of one of all routes
    have hrow : ∀ routes', (sent k routes).Perm routes' → routes' ≠ [] →
        src.report (src.rowOf k routes') = src.reported routes k := by
      intro m hm hne
      obtain ⟨routes', hperm, hfilter⟩ := exists_perm_filter _ hm
      have hsent : sent k routes' = m := hfilter
      obtain ⟨r, hr⟩ := List.exists_mem_of_ne_nil m hne
      rw [← hsent] at hr
      obtain ⟨hr, hk⟩ := List.mem_filter.1 hr
      have hmem : src.reported routes' k ∈ src.inventory routes := by
        rw [← hsame routes' hperm]
        exact src.mem_inventory.2 ⟨k, ⟨r, hr, of_decide_eq_true hk⟩, rfl⟩
      have hmem' : src.reported routes k ∈ src.inventory routes :=
        src.mem_inventory.2 ⟨k, ⟨r, hperm.mem_iff.2 hr, of_decide_eq_true hk⟩, rfl⟩
      rw [← hsent]
      exact src.eq_of_session hmem hmem' rfl
    constructor
    · refine nested_of_classCounts hids fun m hm => ?_
      by_cases hne : m = []
      · obtain rfl := hne
        rw [hm.eq_nil]
      · exact congrArg (·.pathClass) (hrow m hm hne)
    · refine nested_of_classCounts hids fun m hm => ?_
      by_cases hne : m = []
      · obtain rfl := hne
        rw [hm.eq_nil]
      · obtain ⟨m', hm', hfilter⟩ := exists_perm_filter _ hm
        have hne' : m' ≠ [] := by
          rintro rfl
          exact hne hfilter.symm
        have hclass := congrArg (·.originPathClass) (hrow m' hm' hne')
        simp only [report, reported, rowOf, hfilter] at hclass
        exact hclass
  · intro hn routes' h
    have hrows : src.reported routes' = src.reported routes := funext (reported_perm hids h hn)
    have hsessions := firstSeen_perm (h.symm.map (·.session))
    rw [inventory_eq, inventory_eq, hrows]
    refine sortBy_eq_of_perm (hsessions.map _) fun a ha b hb htie => ?_
    obtain ⟨k, -, rfl⟩ := List.mem_map.1 ha
    obtain ⟨k', -, rfl⟩ := List.mem_map.1 hb
    exact congrArg (src.reported routes) (inventoryOrder_eq htie)

end InventorySource

/-! ## The decision -/

/-- The last loop counts the first row of each address. -/
theorem foldl_countDirect (asn : UInt32) (rows : List PeerInventoryRow) :
    rows.foldl (countDirect asn) ([], 0) =
      ((keepFirst PeerInventoryRow.peerIp (rows.filter (·.peerAsn = asn))).map (·.peerIp),
        ((keepFirst PeerInventoryRow.peerIp (rows.filter (·.peerAsn = asn))).map
          (·.originRouteCount)).sum) := by
  induction rows using List.reverseRecOn with
  | nil => rfl
  | append_singleton rows row ih =>
    rw [List.foldl_concat, ih, countDirect, List.filter_append]
    by_cases hasn : row.peerAsn = asn
    · have hkeep := keepFirst_concat PeerInventoryRow.peerIp (rows.filter (·.peerAsn = asn)) row
      rw [insertUnique_fst] at hkeep
      simp only [List.filter_cons, hasn, decide_true, if_true, List.filter_nil, hkeep, true_and]
      split
      · simp
      · next hseen => simp [not_not.1 hseen]
    · simp [hasn]

/-- The rows of some peer ASNs carry the origin routes of those ASNs. -/
theorem sum_originRouteCount (src : InventorySource) (routes : List PathEvidence) (p : UInt32 → Bool) :
    (((src.inventory routes).filter fun row => p row.peerAsn).map (·.originRouteCount)).sum =
      routes.countP fun r => src.isOrigin r && p r.peerAsn := by
  have hrows : (src.inventory routes).Perm
      ((groupOn PathEvidence.session routes).map fun g => src.report (src.rowOf g.1 g.2)) := by
    rw [InventorySource.inventory, InventorySource.foldl_observe, InventorySource.finish, List.map_map]
    exact sortBy_perm _ _
  have hgroup : ∀ g ∈ groupOn PathEvidence.session routes,
      g.2.countP (fun r => src.isOrigin r && p r.peerAsn) =
        if p g.1.2.1 then g.2.countP src.isOrigin else 0 := by
    intro g hg
    obtain ⟨k, rs⟩ := g
    obtain ⟨-, rfl⟩ := (mem_groupOn _).1 hg
    have hasn : ∀ r ∈ routes.filter (fun r => decide (r.session = k)), r.peerAsn = k.2.1 := by
      intro r hr
      rw [← of_decide_eq_true (List.mem_filter.1 hr).2]
      rfl
    by_cases hp : p k.2.1 = true
    · rw [if_pos hp]
      refine List.countP_congr fun r hr => ?_
      rw [hasn r hr, hp, Bool.and_true]
    · rw [if_neg hp]
      refine List.countP_eq_zero.2 fun r hr => ?_
      rw [hasn r hr, Bool.eq_false_iff.2 hp, Bool.and_false]
      exact Bool.false_ne_true
  rw [← (flatten_groupOn_perm PathEvidence.session routes).countP_eq, List.countP_flatten, List.map_map,
    ((hrows.filter _).map _).sum_eq]
  generalize groupOn PathEvidence.session routes = m at hgroup
  induction m with
  | nil => rfl
  | cons g m ih =>
    have hg := hgroup g List.mem_cons_self
    have ih := ih fun g' hg' => hgroup g' (List.mem_cons_of_mem g hg')
    rw [List.map_cons, List.map_cons, List.sum_cons, ← ih, Function.comp_apply, hg, List.filter_cons]
    by_cases hp : p g.1.2.1 = true
    · rw [if_pos hp, if_pos (show p (src.report (src.rowOf g.1 g.2)).peerAsn = true from hp)]
      rfl
    · rw [if_neg hp, if_neg (show ¬ p (src.report (src.rowOf g.1 g.2)).peerAsn = true from hp), Nat.zero_add]

/-- The order of the rows, as one of sessions. -/
def sessionOrder : String × UInt32 × String → String × UInt32 × String → Ordering :=
  compareLex (compareOn (·.1)) (compareLex (compareOn (·.2.2)) (compareOn (·.2.1)))

/-- A route of the first session whose peer belongs to the plane. -/
def FirstDirect (plane : NamedServicePlane) (routes : List PathEvidence) (d : PathEvidence) : Prop :=
  d ∈ routes ∧ d.peerAsn ∈ plane.asns ∧
    ∀ r ∈ routes, r.peerAsn ∈ plane.asns → CmpLE sessionOrder d.session r.session

/-- Every target-origin route from the plane has the peer ASN of the first direct session, and comes
from the first address family of its peer address and ASN. -/
def DirectCounted (src : InventorySource) (routes : List PathEvidence) (plane : NamedServicePlane) :
    Prop :=
  ∀ r ∈ routes, src.isOrigin r = true → r.peerAsn ∈ plane.asns →
    (∀ d, FirstDirect plane routes d → d.peerAsn = r.peerAsn) ∧
      ∀ s ∈ routes, s.peerIp = r.peerIp → s.peerAsn = r.peerAsn → r.addressFamily ≤ s.addressFamily

/-- What the decision about a plane says of the routes. -/
structure DecisionRight (src : InventorySource) (routes : List PathEvidence) (plane : NamedServicePlane)
    (d : PlaneDirectSessionDecision) : Prop where
  present : d.directSessionPresent = true ↔ ∃ r ∈ routes, r.peerAsn ∈ plane.asns
  originCount : d.directOriginRouteCount =
    routes.countP fun r => src.isOrigin r && plane.asns.contains r.peerAsn
  inPath : d.planeAsnInPath = true ↔ ∃ r ∈ routes, ∃ a ∈ r.asPath, a ∈ plane.asns

namespace InventorySource
variable {src : InventorySource} {routes : List PathEvidence}

variable (src) in
theorem reported_mem {r : PathEvidence} (hr : r ∈ routes) :
    src.reported routes r.session ∈ src.inventory routes :=
  src.mem_inventory.2 ⟨r.session, ⟨r, hr, rfl⟩, rfl⟩

/-- A row is that of one of its routes. -/
theorem exists_route {row : PeerInventoryRow} (h : row ∈ src.inventory routes) :
    ∃ r ∈ routes, r.session = row.session := by
  obtain ⟨k, ⟨r, hr, rfl⟩, rfl⟩ := src.mem_inventory.1 h
  exact ⟨r, hr, rfl⟩

variable (src) in
theorem present_iff {plane : NamedServicePlane} :
    ((src.inventory routes).find? fun row => plane.asns.contains row.peerAsn).isSome = true ↔
      ∃ r ∈ routes, r.peerAsn ∈ plane.asns := by
  rw [List.find?_isSome]
  constructor
  · rintro ⟨row, hrow, hasn⟩
    obtain ⟨r, hr, hsession⟩ := exists_route hrow
    have hpeer : r.peerAsn = row.peerAsn := congrArg (·.2.1) hsession
    exact ⟨r, hr, hpeer ▸ List.contains_iff_mem.1 hasn⟩
  · rintro ⟨r, hr, hasn⟩
    exact ⟨_, src.reported_mem hr, List.contains_iff_mem.2 hasn⟩

theorem inPath_iff (hids : (src.profile.servicePlanes.map (·.id)).Nodup) {plane : NamedServicePlane}
    (hp : plane ∈ src.profile.servicePlanes) :
    ((src.inventory routes).any fun row =>
        row.pathClass.perPlaneContains.any fun e => e.1 = plane.id && 0 < e.2) = true ↔
      ∃ r ∈ routes, ∃ a ∈ r.asPath, a ∈ plane.asns := by
  simp only [List.any_eq_true, Bool.and_eq_true, decide_eq_true_eq]
  constructor
  · rintro ⟨row, hrow, ⟨id, n⟩, he, rfl, -⟩
    obtain ⟨q, hq, hid, rfl, hpos⟩ := ((rowCounts_of_mem hids hrow).pathClass.planes _ n).1 he
    obtain rfl := eq_of_id hids hq hp hid
    obtain ⟨path, hpath, hon⟩ := List.countP_pos_iff.1 hpos
    obtain ⟨r, hr, rfl⟩ := List.mem_map.1 hpath
    obtain ⟨a, ha, hasn⟩ := List.any_eq_true.1 hon
    exact ⟨r, (List.mem_filter.1 hr).1, a, ha, List.contains_iff_mem.1 hasn⟩
  · rintro ⟨r, hr, a, ha, hasn⟩
    have hrow := rowCounts_of_mem hids (src.reported_mem hr)
    have hon : plane.isOn r.asPath = true :=
      List.any_eq_true.2 ⟨a, ha, List.contains_iff_mem.2 hasn⟩
    have hsent : r ∈ sent r.session routes := List.mem_filter.2 ⟨hr, decide_eq_true rfl⟩
    have hpos : 0 < ((sent r.session routes).map (·.asPath)).countP plane.isOn :=
      List.countP_pos_iff.2 ⟨r.asPath, List.mem_map.2 ⟨r, hsent, rfl⟩, hon⟩
    exact ⟨_, src.reported_mem hr, _, (hrow.pathClass.planes _ _).2 ⟨plane, hp, rfl, rfl, hpos⟩, rfl, hpos⟩

/-- Of the rows of an ASN, those counted have the first address family of their peer address. -/
theorem mem_counted_iff {asn : UInt32} {row : PeerInventoryRow} :
    row ∈ keepFirst PeerInventoryRow.peerIp ((src.inventory routes).filter (·.peerAsn = asn)) ↔
      row ∈ src.inventory routes ∧ row.peerAsn = asn ∧ ∀ s ∈ routes, s.peerIp = row.peerIp →
        s.peerAsn = asn → row.addressFamily ≤ s.addressFamily := by
  have horder : ∀ b : PeerInventoryRow, b.peerIp = row.peerIp → b.peerAsn = row.peerAsn →
      (CmpLE inventoryOrder row b ↔ row.addressFamily ≤ b.addressFamily) := by
    intro b hip hasn
    have hcmp : inventoryOrder row b = compare row.addressFamily b.addressFamily := by
      simp only [inventoryOrder, compareLex, compareOn, hip, hasn, ReflOrd.compare_self, Ordering.eq_then,
        Ordering.then_eq]
    rw [CmpLE, hcmp, Ordering.isLE_iff_ne_gt, ← compare_le_iff_le]
  rw [mem_keepFirst_iff_find?, List.find?_filter, find?_inventory_iff]
  simp only [decide_eq_true_eq, and_true]
  refine and_congr_right fun hrow => and_congr_right fun hasn => ?_
  constructor
  · intro hle s hs hip hs'
    have hb := hle _ (src.reported_mem hs) ⟨hs', hip⟩
    exact (horder (src.reported routes s.session) hip (hs'.trans hasn.symm)).1 hb
  · rintro hle b hb ⟨hb', hip⟩
    obtain ⟨s, hs, hsession⟩ := exists_route hb
    have hs1 : s.peerIp = b.peerIp := congrArg (·.1) hsession
    have hs2 : s.peerAsn = b.peerAsn := congrArg (·.2.1) hsession
    have hs3 : s.addressFamily = b.addressFamily := congrArg (·.2.2) hsession
    exact (horder b hip (hb'.trans hasn.symm)).2 (hs3 ▸ hle s hs (hs1.trans hip) (hs2.trans hb'))

/-- Where the decision's peer ASN is that of the first direct session, its total leaves out nothing
exactly when every direct origin route is counted. -/
theorem directTotal_iff {plane : NamedServicePlane} {d : PeerInventoryRow}
    (hd : (src.inventory routes).find? (fun row => plane.asns.contains row.peerAsn) = some d) :
    ((src.inventory routes).foldl (countDirect d.peerAsn) ([], 0)).2 =
        (routes.countP fun r => src.isOrigin r && plane.asns.contains r.peerAsn) ↔
      DirectCounted src routes plane := by
  obtain ⟨hdmem, hdasn, hdle⟩ := (src.find?_inventory_iff).1 hd
  have hsub : (keepFirst PeerInventoryRow.peerIp
      ((src.inventory routes).filter (·.peerAsn = d.peerAsn))).Sublist
      ((src.inventory routes).filter fun row => plane.asns.contains row.peerAsn) := by
    refine (keepFirst_sublist _ _).trans (List.monotone_filter_right _ fun row hrow => ?_)
    rw [of_decide_eq_true hrow]
    exact hdasn
  rw [foldl_countDirect, ← sum_originRouteCount src routes plane.asns.contains,
    sum_map_sublist_iff _ hsub ((src.inventory_nodup routes).filter _)]
  -- the first direct session of the routes is that of `d`
  have hfirst : ∀ {r}, FirstDirect plane routes r → r.peerAsn = d.peerAsn := by
    rintro r ⟨hr, hasn, hle⟩
    obtain ⟨s, hs, hsession⟩ := exists_route hdmem
    have hs' : s.peerAsn ∈ plane.asns := by
      rw [show s.peerAsn = d.peerAsn from congrArg (·.2.1) hsession]
      exact List.contains_iff_mem.1 hdasn
    have hrd : CmpLE inventoryOrder (src.reported routes r.session) d := by
      have hrs := hle s hs hs'
      rw [hsession] at hrs
      exact hrs
    have hdr := hdle _ (src.reported_mem hr) (List.contains_iff_mem.2 hasn)
    exact congrArg (·.2.1) (inventoryOrder_eq (OrientedCmp.isLE_antisymm hrd hdr))
  constructor
  · intro hzero r hr horigin hasn
    have hmem : src.reported routes r.session ∈
        (src.inventory routes).filter fun row => plane.asns.contains row.peerAsn :=
      List.mem_filter.2 ⟨src.reported_mem hr, List.contains_iff_mem.2 hasn⟩
    have hpos : (src.reported routes r.session).originRouteCount ≠ 0 := by
      refine Nat.pos_iff_ne_zero.1 (List.countP_pos_iff.2 ⟨r, ?_, horigin⟩)
      exact List.mem_filter.2 ⟨hr, decide_eq_true rfl⟩
    obtain ⟨-, hd', hle⟩ := mem_counted_iff.1 (by_contra fun h => hpos (hzero _ hmem h))
    exact ⟨fun f hf => (hfirst hf).trans hd'.symm, fun s hs hip hs' => hle s hs hip (hs'.trans hd')⟩
  · intro hcounted row hrow hleft
    obtain ⟨hrow, hasn⟩ := List.mem_filter.1 hrow
    by_contra hne
    obtain ⟨k, -, rfl⟩ := src.mem_inventory.1 hrow
    obtain ⟨r, hsent, horigin⟩ := List.countP_pos_iff.1 (Nat.pos_of_ne_zero hne)
    obtain ⟨hr, hk⟩ := List.mem_filter.1 hsent
    obtain rfl := of_decide_eq_true hk
    obtain ⟨hsame, hle⟩ := hcounted r hr horigin (List.contains_iff_mem.1 hasn)
    obtain ⟨f, hf, hsession⟩ := exists_route hdmem
    have hfasn : f.peerAsn = d.peerAsn := congrArg (·.2.1) hsession
    have hff : FirstDirect plane routes f := by
      refine ⟨hf, ?_, fun s hs hs' => ?_⟩
      · rw [hfasn]
        exact List.contains_iff_mem.1 hdasn
      · rw [hsession]
        exact hdle _ (src.reported_mem hs) (List.contains_iff_mem.2 hs')
    have hrd : r.peerAsn = d.peerAsn := (hsame f hff).symm.trans hfasn
    exact hleft (mem_counted_iff.2 ⟨hrow, hrd, fun s hs hip hs' => hle s hs hip (hs'.trans hrd.symm)⟩)

theorem decisionRight_iff (hids : (src.profile.servicePlanes.map (·.id)).Nodup)
    {plane : NamedServicePlane} (hp : plane ∈ src.profile.servicePlanes) :
    (∃ d, directSessionDecision src.profile plane.id (src.inventory routes) = some d ∧
        DecisionRight src routes plane d) ↔ DirectCounted src routes plane := by
  have hfind : src.profile.servicePlanes.find? (·.id = plane.id) = some plane := by
    obtain ⟨q, hq⟩ : ∃ q, src.profile.servicePlanes.find? (·.id = plane.id) = some q :=
      Option.isSome_iff_exists.1 (List.find?_isSome.2 ⟨plane, hp, by simp⟩)
    have hid : q.id = plane.id := by simpa using List.find?_some hq
    rw [hq, eq_of_id hids (List.mem_of_find?_eq_some hq) hp hid]
  rw [directSessionDecision, hfind]
  simp only [Option.map_some, Option.some.injEq, exists_eq_left']
  cases hd : (src.inventory routes).find? fun row => plane.asns.contains row.peerAsn with
  | none =>
    have hnone : ¬ ∃ r ∈ routes, r.peerAsn ∈ plane.asns := by
      rw [← src.present_iff, hd]
      exact Bool.false_ne_true
    constructor
    · exact fun _ r hr _ hasn => absurd ⟨r, hr, hasn⟩ hnone
    · intro _
      refine ⟨iff_of_false Bool.false_ne_true hnone, ?_, inPath_iff hids hp⟩
      refine (List.countP_eq_zero.2 fun r hr hro => hnone ⟨r, hr, ?_⟩).symm
      exact List.contains_iff_mem.1 (Bool.and_eq_true_iff.1 hro).2
  | some d =>
    rw [← directTotal_iff hd]
    constructor
    · exact fun h => h.originCount
    · intro h
      refine ⟨?_, h, inPath_iff hids hp⟩
      rw [← src.present_iff, hd]

end InventorySource

/-! ## When the inventory and the decisions are right -/

/-- One row a session with its counts, however the routes are listed. -/
structure InventoryRight (src : InventorySource) (routes : List PathEvidence)
    (inventory : List PathEvidence → List PeerInventoryRow) : Prop where
  sessions : ((inventory routes).map (·.session)).Nodup ∧
    ∀ k, k ∈ (inventory routes).map (·.session) ↔ ∃ r ∈ routes, r.session = k
  sameRows : ∀ routes', routes.Perm routes' → inventory routes' = inventory routes
  counts : ∀ row ∈ inventory routes, RowCounts src (InventorySource.sent row.session routes) row

theorem InventorySource.right_iff {src : InventorySource}
    (hids : (src.profile.servicePlanes.map (·.id)).Nodup) (routes : List PathEvidence) :
    (InventoryRight src routes src.inventory ∧ ∀ plane ∈ src.profile.servicePlanes, ∃ d,
        directSessionDecision src.profile plane.id (src.inventory routes) = some d ∧
          DecisionRight src routes plane d) ↔
      src.SessionsNested routes ∧ ∀ plane ∈ src.profile.servicePlanes, DirectCounted src routes plane := by
  refine and_congr ?_ (forall₂_congr fun plane hp => decisionRight_iff hids hp)
  rw [← inventory_perm_iff hids]
  constructor
  · exact fun h => h.sameRows
  · intro h
    refine ⟨⟨src.sessions_nodup routes, fun k => ?_⟩, h, fun row => rowCounts_of_mem hids⟩
    rw [(src.map_session_inventory_perm routes).mem_iff, mem_firstSeen, List.mem_map]

section
variable (profile : ServicePlaneProfile) (registry : CollectorLocationRegistry)
  (sourceFamily collector evidenceAt sourceSha : String) (originAsns : List UInt32)

/-- **The rows and the decisions are right exactly when the planes of every session are nested and the
direct origin routes of each plane are all counted.** -/
theorem inventoryRight_iff (hvalid : profile.validate = .ok ()) (routes : List PathEvidence) :
    (InventoryRight (peerSource profile registry sourceFamily collector evidenceAt sourceSha originAsns)
          routes (peerInventory profile registry sourceFamily collector evidenceAt sourceSha · originAsns) ∧
        ∀ plane ∈ profile.servicePlanes, ∃ d,
          directSessionDecision profile plane.id
              (peerInventory profile registry sourceFamily collector evidenceAt sourceSha routes
                originAsns) = some d ∧
            DecisionRight (peerSource profile registry sourceFamily collector evidenceAt sourceSha
              originAsns) routes plane d) ↔
      (peerSource profile registry sourceFamily collector evidenceAt sourceSha originAsns).SessionsNested
          routes ∧
        ∀ plane ∈ profile.servicePlanes, DirectCounted (peerSource profile registry sourceFamily collector
          evidenceAt sourceSha originAsns) routes plane :=
  InventorySource.right_iff (profile.ids_nodup hvalid) routes

end

/-! ## Two planes, and a plane of two ASNs -/

def twoPlanes : ServicePlaneProfile :=
  ⟨[⟨"re", "Research and education", [64500, 64502]⟩, ⟨"pex", "Peering exchange", [64501]⟩]⟩

/-- A route to a target origin. -/
def routeFrom (ip : String) (asn : UInt32) (af : String) (asPath : List UInt32) : PathEvidence :=
  ⟨ip, asn, af, "198.51.100.0/24", asPath, [225]⟩

theorem inventoryRight_one_route : twoPlanes.validate = .ok () ∧
    InventoryRight (peerSource twoPlanes [] "ris" "rrc06" "T" "sha" [225])
      [routeFrom "192.0.2.1" 64500 "ipv4" [64500, 225]]
      (peerInventory twoPlanes [] "ris" "rrc06" "T" "sha" · [225]) := by
  refine ⟨rfl, ((inventoryRight_iff twoPlanes [] "ris" "rrc06" "T" "sha" [225] rfl
    [routeFrom "192.0.2.1" 64500 "ipv4" [64500, 225]]).2 ⟨?_, ?_⟩).1⟩
  · have hone : ∀ l : List PathEvidence,
        l.Sublist [routeFrom "192.0.2.1" 64500 "ipv4" [64500, 225]] → PlanesNested twoPlanes l := by
      rintro l hl p q - ⟨a, ha, hap⟩ b hb -
      have ha' := List.mem_singleton.1 (hl.subset ha)
      have hb' := List.mem_singleton.1 (hl.subset hb)
      rw [hb', ← ha']
      exact hap
    exact fun k => ⟨hone _ List.filter_sublist, hone _ (List.filter_sublist.trans List.filter_sublist)⟩
  · intro plane _ r hr _ _
    have hr' := List.mem_singleton.1 hr
    refine ⟨fun d hd => ?_, fun s hs _ _ => ?_⟩
    · rw [hr', List.mem_singleton.1 hd.1]
    · rw [hr', List.mem_singleton.1 hs]

/-- The planes of a session are listed as its routes come. -/
theorem rows_follow_the_routes :
    twoPlanes.validate = .ok () ∧
      [routeFrom "192.0.2.1" 64600 "ipv4" [64600, 64501], routeFrom "192.0.2.1" 64600 "ipv4" [64600, 64500]].Perm
        [routeFrom "192.0.2.1" 64600 "ipv4" [64600, 64500],
          routeFrom "192.0.2.1" 64600 "ipv4" [64600, 64501]] ∧
      peerInventory twoPlanes [] "ris" "rrc06" "T" "sha"
          [routeFrom "192.0.2.1" 64600 "ipv4" [64600, 64501],
            routeFrom "192.0.2.1" 64600 "ipv4" [64600, 64500]] [225] ≠
        peerInventory twoPlanes [] "ris" "rrc06" "T" "sha"
          [routeFrom "192.0.2.1" 64600 "ipv4" [64600, 64500],
            routeFrom "192.0.2.1" 64600 "ipv4" [64600, 64501]] [225] :=
  ⟨rfl, List.Perm.swap _ _ _, by decide⟩

/-- **Bug**: the sessions of the plane's second ASN are not counted. -/
theorem second_asn_is_not_counted :
    ((directSessionDecision twoPlanes "re" (peerInventory twoPlanes [] "ris" "rrc06" "T" "sha"
      [routeFrom "192.0.2.1" 64500 "ipv4" [64500, 225], routeFrom "192.0.2.2" 64502 "ipv4" [64502, 225]]
      [225])).map (·.directOriginRouteCount)) = some 1 := by
  decide

/-- **Bug**: nor is the second address family of a peer. -/
theorem second_family_is_not_counted :
    ((directSessionDecision twoPlanes "re" (peerInventory twoPlanes [] "ris" "rrc06" "T" "sha"
      [routeFrom "192.0.2.1" 64500 "ipv4" [64500, 225], routeFrom "192.0.2.1" 64500 "ipv6" [64500, 225]]
      [225])).map (·.directOriginRouteCount)) = some 1 := by
  decide

end Inim.Netprofile
