import Inim.Cohort

/-!
# Ingestion of MRT archives (`ingest/mod.rs`)

| here | there |
| --- | --- |
| `IngestContext`, `InimError`  | `ingest/mod.rs:30-70`, its `Display` at `:85-125` |
| `BgpElem`, `BgpkitParser`     | what is used of the bgpkit-parser crate |
| `canonicalIp`, `segmentAsns`, `buildAttributes` | `ingest/mod.rs:259-310` |
| `elemObservation`, `bgpElemToObservation` | `ingest/mod.rs:201-255` |
| `fromLocalFile`               | `ingest/mod.rs:144-186`; a stream is the list it yields |
| `ribContext`, `ribScan`       | the RIB loop of `run_inner_impl` (`orchestrate.rs:350-428`) |

The parser is outside: `open` gives the elements it decodes from a file, in order, and
`addFilter` what it yields of them under a filter. `f64_to_utc` has been applied to an element's
timestamp.
-/

namespace Inim

structure IngestContext where
  role : IngestRole
  collector : CollectorId
  sourceUrl : Option String
  sourceSha : Option String
  originAsnFilters : List UInt32
  archiveOrder : Nat
deriving DecidableEq, Repr

inductive InimError where
  | inputOpenError (path source : String)
  | parserInitializationError (path source : String)
  | invalidFilterError (filter source : String)
  | recordDecodeError (path : String) (position : Option Nat) (source : String)
  | unsupportedObservationError (path : String) (elementSeq : Nat) (reason : String)
  | missingBaselineError (collector : CollectorId) (reason : String)
  | discontinuousObservationError (collector : CollectorId) (elementSeq : Nat) (reason : String)
deriving DecidableEq, Repr

def debugPosition : Option Nat → String
  | none => "None"
  | some n => "Some(" ++ toString n ++ ")"

def InimError.display : InimError → String
  | .inputOpenError path source => "cannot open input " ++ path ++ ": " ++ source
  | .parserInitializationError path source => "parser init failed for " ++ path ++ ": " ++ source
  | .invalidFilterError filter source => "invalid filter '" ++ filter ++ "': " ++ source
  | .recordDecodeError path position source =>
    "record decode error in " ++ path ++ " at " ++ debugPosition position ++ ": " ++ source
  | .unsupportedObservationError path seq reason =>
    "unsupported observation in " ++ path ++ " element #" ++ toString seq ++ ": " ++ reason
  | .missingBaselineError collector reason => "missing baseline for " ++ collector ++ ": " ++ reason
  | .discontinuousObservationError collector seq reason =>
    "discontinuous observation for " ++ collector ++ " at element #" ++ toString seq ++ ": " ++ reason

/-! ## The parser's elements -/

inductive ElemType where
  | announce
  | withdraw
deriving DecidableEq, Repr

inductive AsPathSegment where
  | asSequence (asns : List UInt32)
  | asSet (asns : List UInt32)
  | confedSequence (asns : List UInt32)
  | confedSet (asns : List UInt32)
deriving DecidableEq, Repr

structure BgpElem where
  timestamp : DateTime
  elemType : ElemType
  peerIp : IpAddr
  peerAsn : UInt32
  pfx : Prefix
  pathId : Option UInt32
  asPath : Option (List AsPathSegment)
  originAsns : Option (List UInt32)
  nextHop : Option IpAddr
  origin : Option String
  localPref : Option UInt32
  med : Option UInt32
  atomic : Bool
  communities : Option (List String)
deriving DecidableEq, Repr

structure BgpkitParser where
  /-- `BgpkitParser::new(path)`, then `into_elem_iter`. -/
  openElems : String → Except String (List BgpElem)
  /-- `add_filter(name, value)`: what the iterator then yields of these elements. -/
  addFilter : String → String → List BgpElem → Except String (List BgpElem)

/-! ## Conversion -/

/-- An IPv4-mapped address as the IPv4 address. -/
def canonicalIp : IpAddr → IpAddr
  | .v6 b => if b.toNat / 2 ^ 32 = 0xffff then .v4 (b.setWidth 32) else .v6 b
  | ip => ip

def segmentAsns : AsPathSegment → List UInt32
  | .asSequence v | .asSet v | .confedSequence v | .confedSet v => v

def buildAttributes (elem : BgpElem) : ObservationAttributes where
  asPath := (elem.asPath.map (·.flatMap segmentAsns)).getD []
  originAsns := elem.originAsns.getD []
  nextHop := elem.nextHop
  origin := elem.origin
  localPref := elem.localPref
  med := elem.med
  atomicAggregate := elem.atomic
  communities := elem.communities.getD []

def observationKind (elem : BgpElem) : IngestRole → ObservationKind
  | .rib => .ribEntry
  | .updates => match elem.elemType with
    | .announce => .announcement
    | .withdraw => .withdrawal

def elemObservation (elem : BgpElem) (elementSeq : Nat) (inputPath : String)
    (context : IngestContext) : RouteObservation :=
  let kind := observationKind elem context.role
  { id := elementSeq
    source := ⟨inputPath⟩
    timestamp := elem.timestamp
    collector := context.collector
    peerIp := canonicalIp elem.peerIp
    peerAsn := elem.peerAsn
    pfx := elem.pfx
    kind := kind
    attributes := match kind with
      | .announcement | .ribEntry => some (buildAttributes elem)
      | .withdrawal | .sessionBoundary => none
    pathId := elem.pathId
    provenance := ⟨inputPath, context.sourceUrl, context.sourceSha, context.role, elementSeq,
      context.archiveOrder⟩ }

/-- The conversion never returns an error, though its type allows one. -/
def bgpElemToObservation (elem : BgpElem) (elementSeq : Nat) (inputPath : String)
    (context : IngestContext) : Except InimError RouteObservation :=
  .ok (elemObservation elem elementSeq inputPath context)

/-- Only the first listed origin becomes a parser filter, and the parser numbers what is left. -/
def fromLocalFile (parser : BgpkitParser) (path : String) (context : IngestContext) :
    Except InimError (List (Except InimError RouteObservation)) := do
  let elems ← (parser.openElems path).mapError (.parserInitializationError path)
  let elems ← match context.role, context.originAsnFilters with
    | .rib, asn :: _ =>
      match parser.addFilter "origin_asn" (toString asn) elems with
      | .ok kept => .ok kept
      | .error _ => (parser.openElems path).mapError (.parserInitializationError path)
    | _, _ => .ok elems
  return elems.mapIdx fun seq elem => bgpElemToObservation elem seq path context

/-! ## The RIB loop -/

def ribContext (collector : CollectorId) (url sha : String) (originAsns : List UInt32) :
    IngestContext where
  role := .rib
  collector := collector
  sourceUrl := some url
  sourceSha := some sha
  originAsnFilters := originAsns
  archiveOrder := 0

structure RibScan where
  parsed : Nat
  originMatch : Nat
  transitMatch : Nat
  obs : List RouteObservation
deriving DecidableEq, Repr

/-- `origin_asns.contains(&origin)` of an entry that has attributes. -/
def originMatches (originAsns : List UInt32) (o : RouteObservation) : Bool :=
  (o.attributes.map fun a => originAsns.contains a.firstOrigin).getD false

def ribScan (originAsns : List UInt32) (transitPredicate : TransitPredicate) (acc : RibScan) :
    List (Except InimError RouteObservation) → Except String RibScan
  | [] => .ok acc
  | .error e :: _ => .error ("RIB parse error: " ++ e.display)
  | .ok o :: rest =>
    let acc := { acc with parsed := acc.parsed + 1 }
    if !originMatches originAsns o then ribScan originAsns transitPredicate acc rest
    else
      let acc := { acc with originMatch := acc.originMatch + 1 }
      if !transitPredicate.matchesObs o then ribScan originAsns transitPredicate acc rest
      else
        let acc := { acc with transitMatch := acc.transitMatch + 1, obs := acc.obs ++ [o] }
        ribScan originAsns transitPredicate acc rest

/-- What the loop counts in `origin_match`. -/
def originMatching (originAsns : List UInt32) (stream : List (Except InimError RouteObservation)) :
    List RouteObservation :=
  (stream.filterMap (·.toOption)).filter (originMatches originAsns)

theorem originMatching_ok (originAsns : List UInt32) (obs : List RouteObservation) :
    originMatching originAsns (obs.map .ok) = obs.filter (originMatches originAsns) := by
  rw [originMatching, List.filterMap_map]
  exact congrArg _ List.filterMap_some

/-- The loop keeps of the origin-matching entries those the predicate holds of. -/
theorem ribScan_ok (originAsns : List UInt32) (transitPredicate : TransitPredicate)
    (obs : List RouteObservation) (acc : RibScan) :
    ribScan originAsns transitPredicate acc (obs.map .ok) = .ok
      { parsed := acc.parsed + obs.length
        originMatch := acc.originMatch + (originMatching originAsns (obs.map .ok)).length
        transitMatch := acc.transitMatch
          + ((originMatching originAsns (obs.map .ok)).filter transitPredicate.matchesObs).length
        obs := acc.obs
          ++ (originMatching originAsns (obs.map .ok)).filter transitPredicate.matchesObs } := by
  simp only [originMatching_ok]
  induction obs generalizing acc with
  | nil => simp [ribScan]
  | cons o obs ih =>
    rw [List.map_cons, ribScan]
    cases ho : originMatches originAsns o with
    | false => simp [ih, ho, Nat.add_assoc, Nat.add_comm 1]
    | true =>
      cases ht : transitPredicate.matchesObs o with
      | false => simp [ih, ho, ht, Nat.add_assoc, Nat.add_comm 1]
      | true => simp [ih, ho, ht, Nat.add_assoc, Nat.add_comm 1]

/-! ## What a RIB file yields, with numbers -/

/-- The origins of the element include `a`. -/
def BgpElem.carries (a : UInt32) (e : BgpElem) : Bool := (e.originAsns.getD []).contains a

/-- The element has an origin, and it is one of `l`. -/
def BgpElem.originIn (l : List UInt32) (e : BgpElem) : Bool :=
  (e.originAsns.getD []).head?.any l.contains

/-- The parser's filter, set from the first of the origins, lets the element through. -/
def BgpElem.keptBy (originAsns : List UInt32) (e : BgpElem) : Bool :=
  originAsns.head?.all fun a => e.carries a

/-- The documented behaviour of the parser's filter `origin_asn`. -/
def BgpkitParser.FiltersOrigin (parser : BgpkitParser) : Prop :=
  ∀ asn elems, parser.addFilter "origin_asn" (toString asn) elems
    = .ok (elems.filter (BgpElem.carries asn))

/-- The elements with `q` among those the filter `keep` lets through, with their numbers there. -/
def numberedBy (keep q : BgpElem → Bool) (elems : List BgpElem) : List (BgpElem × Nat) :=
  (elems.filter keep).zipIdx.filter fun p => q p.1

theorem numberedBy_concat (keep q : BgpElem → Bool) (elems : List BgpElem) (e : BgpElem) :
    numberedBy keep q (elems ++ [e]) = numberedBy keep q elems
      ++ if keep e ∧ q e then [(e, elems.countP keep)] else [] := by
  unfold numberedBy
  rw [List.filter_append, List.zipIdx_append, List.filter_append, List.countP_eq_length_filter]
  by_cases hc : keep e = true
  · by_cases ho : q e = true
    · simp [hc, ho]
    · simp [hc, ho]
  · simp [hc]

section RibFile

variable {parser : BgpkitParser} {path : String} {elems : List BgpElem}
variable (collector : CollectorId) (url sha : String)

/-- The observation of a numbered element; the origins of the context do not show in it. -/
def ribObservation (path : String) (collector : CollectorId) (url sha : String)
    (p : BgpElem × Nat) : RouteObservation :=
  elemObservation p.1 p.2 path (ribContext collector url sha [])

theorem fromLocalFile_rib (hopen : parser.openElems path = .ok elems) (hf : parser.FiltersOrigin)
    (l : List UInt32) :
    fromLocalFile parser path (ribContext collector url sha l) = .ok
      (((elems.filter (BgpElem.keptBy l)).zipIdx.map
        (ribObservation path collector url sha)).map .ok) := by
  unfold fromLocalFile
  cases l with
  | nil =>
    have hall : elems.filter (BgpElem.keptBy []) = elems := List.filter_eq_self.mpr fun _ _ => rfl
    simp only [hopen, ribContext, Except.mapError, bind, Except.bind, pure, Except.pure,
      List.mapIdx_eq_zipIdx_map, List.map_map, hall]
    rfl
  | cons a l =>
    have hkept : BgpElem.keptBy (a :: l) = BgpElem.carries a := rfl
    simp only [hopen, ribContext, hf a elems, Except.mapError, bind, Except.bind, pure,
      Except.pure, List.mapIdx_eq_zipIdx_map, List.map_map, hkept]
    rfl

/-- On an element the filter lets through the loop's check is `originIn`. -/
theorem originMatches_ribObservation {l : List UInt32} {p : BgpElem × Nat}
    (hk : p.1.keptBy l = true) :
    originMatches l (ribObservation path collector url sha p) = p.1.originIn l := by
  change l.contains ((p.1.originAsns.getD []).head?.getD 0)
    = (p.1.originAsns.getD []).head?.any l.contains
  cases l with
  | nil => cases (p.1.originAsns.getD []).head? <;> rfl
  | cons a l =>
    have hc : (p.1.originAsns.getD []).contains a = true := hk
    cases ho : p.1.originAsns.getD [] with
    | nil => simp [ho] at hc
    | cons o os => rfl

/-- The origin-matching observations of a RIB file. -/
theorem originMatching_rib (l : List UInt32) (elems : List BgpElem) :
    originMatching l (((elems.filter (BgpElem.keptBy l)).zipIdx.map
        (ribObservation path collector url sha)).map .ok)
      = (numberedBy (BgpElem.keptBy l) (BgpElem.originIn l) elems).map
          (ribObservation path collector url sha) := by
  rw [originMatching_ok, List.filter_map, numberedBy]
  refine congrArg (List.map _) (List.filter_congr fun p hp => ?_)
  exact originMatches_ribObservation collector url sha
    (List.mem_filter.mp (List.fst_mem_of_mem_zipIdx hp)).2

end RibFile

end Inim
