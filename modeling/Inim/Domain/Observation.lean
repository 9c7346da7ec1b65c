import Mathlib
import Inim.Lib.Calendar
/-!
# Route observations (`domain/observation.rs`)

| here | there |
| --- | --- |
| `DateTime`                | `chrono::DateTime<Utc>`, as nanoseconds since the epoch |
| `IpAddr`, `IpAddr.display` | `std::net::IpAddr` with its derived order and its `Display` (RFC 5952 for IPv6) |
| `Asn`, `CollectorId`, `ObservationId` | the newtypes at `observation.rs:17`, `:27`, `:130` |
| `ObservationKind`, `ObservationAttributes`, `RouteObservation` | `observation.rs:70`, `:84`, `:97` |
| `EvidenceRef`             | `observation.rs:144-194`, with `from_observation` and `synthetic` |
| `ObservationProvenance`   | `observation.rs:200`; `parser_representation` (a constant) and `mrt_timestamp` are not kept, nothing reads them |

`Communities { values }` is its list of strings. The field `prefix` is `pfx` throughout (the
word is reserved in Lean).
-/

namespace Inim

open Std

/-- Nanoseconds since the epoch; `chrono` compares instants by exactly this number. -/
abbrev DateTime := Int

/-- The seconds chrono can represent: the years -262143 to 262142. -/
def utcInRange (secs : Int) : Bool :=
  Lib.daysFromCivil (-262143) 1 1 * 86400 ≤ secs && secs < Lib.daysFromCivil 262143 1 1 * 86400

/-- `num_seconds` of a `chrono` duration: whole seconds, towards zero. -/
def numSeconds (ns : Int) : Int := ns.tdiv 1000000000

abbrev Asn := UInt32
abbrev CollectorId := String
abbrev ObservationId := Nat
/-- `Prefix(pub String)` (`route.rs:11`). -/
abbrev Prefix := String

/-! ## IP addresses -/

inductive IpAddr where
  | v4 (bits : BitVec 32)
  | v6 (bits : BitVec 128)
deriving DecidableEq, Repr

namespace IpAddr

/-- `0` for IPv4, `1` for IPv6: the derived order puts the enum variant first. -/
def family : IpAddr → Nat
  | .v4 _ => 0
  | .v6 _ => 1

/-- Octets (segments) compare lexicographically, so as the number they spell. -/
def value : IpAddr → Nat
  | .v4 b => b.toNat
  | .v6 b => b.toNat

def cmp : IpAddr → IpAddr → Ordering := compareLex (compareOn family) (compareOn value)

instance : Ord IpAddr := ⟨cmp⟩

instance : TransOrd IpAddr :=
  inferInstanceAs (TransCmp (compareLex (compareOn family) (compareOn value)))

theorem eq_of_cmp : ∀ {a b : IpAddr}, compare a b = .eq → a = b
  | .v4 a, .v4 b, h => by
    change cmp (.v4 a) (.v4 b) = .eq at h
    simp only [cmp, compareLex_eq_eq, compareOn, LawfulEqCmp.compare_eq_iff_eq, value] at h
    rw [BitVec.eq_of_toNat_eq h.2]
  | .v6 a, .v6 b, h => by
    change cmp (.v6 a) (.v6 b) = .eq at h
    simp only [cmp, compareLex_eq_eq, compareOn, LawfulEqCmp.compare_eq_iff_eq, value] at h
    rw [BitVec.eq_of_toNat_eq h.2]
  | .v4 a, .v6 b, h => by
    change cmp (.v4 a) (.v6 b) = .eq at h
    simp [cmp, compareLex_eq_eq, compareOn, family] at h
  | .v6 a, .v4 b, h => by
    change cmp (.v6 a) (.v4 b) = .eq at h
    simp [cmp, compareLex_eq_eq, compareOn, family] at h

instance : LawfulEqOrd IpAddr where
  eq_of_compare := eq_of_cmp

/-- `Ipv4Addr`'s `Display`: dotted decimal octets. -/
def displayV4 (n : Nat) : String :=
  String.intercalate "." ([24, 16, 8, 0].map fun s => toString (n / 2 ^ s % 256))

/-- Lower-case hexadecimal without leading zeros (`{:x}`). -/
def hex (n : Nat) : String := String.ofList (Nat.toDigits 16 n)

def segments (n : Nat) : List Nat := [112, 96, 80, 64, 48, 32, 16, 0].map fun s => n / 2 ^ s % 65536

/-- The longest run of zero segments, the first one on a tie, as `(start, length)`. -/
def longestZeros : Nat → Nat × Nat → Nat × Nat → List Nat → Nat × Nat
  | _, _, longest, [] => longest
  | i, cur, longest, s :: rest =>
    if s = 0 then
      let cur := if cur.2 = 0 then (i, 1) else (cur.1, cur.2 + 1)
      longestZeros (i + 1) cur (if longest.2 < cur.2 then cur else longest) rest
    else longestZeros (i + 1) (0, 0) longest rest

/-- `Ipv6Addr`'s `Display`: an IPv4-mapped address in its mixed form, else the segments with
the longest zero run of at least two compressed to `::`. -/
def displayV6 (n : Nat) : String :=
  if n / 2 ^ 32 = 65535 then "::ffff:" ++ displayV4 (n % 2 ^ 32)
  else
    let segs := segments n
    let z := longestZeros 0 (0, 0) (0, 0) segs
    if 1 < z.2 then
      String.intercalate ":" ((segs.take z.1).map hex) ++ "::" ++
        String.intercalate ":" ((segs.drop (z.1 + z.2)).map hex)
    else String.intercalate ":" (segs.map hex)

def display : IpAddr → String
  | .v4 b => displayV4 b.toNat
  | .v6 b => displayV6 b.toNat

example : (v4 0xB9010841).display = "185.1.8.65" := by decide
example : (v6 0x20010db8000000000000000000000001).display = "2001:db8::1" := by decide
example : (v6 0xffff0a000001).display = "::ffff:10.0.0.1" := by decide

end IpAddr

/-! ## Observations -/

/-- `ObservationSource::LocalFile`: the only way an observation is sourced. -/
structure ObservationSource where
  localFile : String
deriving DecidableEq, Repr

inductive IngestRole where
  | rib
  | updates
deriving DecidableEq, Repr

inductive ObservationKind where
  | ribEntry
  | announcement
  | withdrawal
  | sessionBoundary
deriving DecidableEq, Repr

structure ObservationAttributes where
  asPath : List UInt32
  originAsns : List Asn
  nextHop : Option IpAddr
  origin : Option String
  localPref : Option UInt32
  med : Option UInt32
  atomicAggregate : Bool
  communities : List String
deriving DecidableEq, Repr

structure ObservationProvenance where
  input : String
  sourceUrl : Option String
  archiveSha256 : Option String
  role : IngestRole
  /-- Position of the element among those the parser yielded for its archive. -/
  elementSeq : Nat
  /-- Position of the archive in the run that parsed it. -/
  archiveOrder : Nat
deriving DecidableEq, Repr

structure RouteObservation where
  id : ObservationId
  source : ObservationSource
  timestamp : DateTime
  collector : CollectorId
  peerIp : IpAddr
  peerAsn : Asn
  pfx : Prefix
  kind : ObservationKind
  /-- `None` for withdrawals and session boundaries. -/
  attributes : Option ObservationAttributes
  /-- ADD-PATH path identifier. -/
  pathId : Option UInt32
  provenance : ObservationProvenance
deriving DecidableEq, Repr

/-- A bare observation, from peer `0.0.0.1` (AS 1) with position `seq` in archive 0: what the concrete runs are
written with. -/
def RouteObservation.plain (collector : CollectorId) (seq : Nat) (kind : ObservationKind)
    (timestamp : DateTime) (pathId : Option UInt32 := none) (asPath : List UInt32 := []) :
    RouteObservation where
  id := 0
  source := ⟨"a"⟩
  timestamp := timestamp
  collector := collector
  peerIp := .v4 1
  peerAsn := 1
  pfx := "10.0.0.0/8"
  kind := kind
  attributes := match kind with
    | .ribEntry | .announcement =>
      some ⟨asPath, asPath.getLast?.toList, none, none, none, none, false, []⟩
    | _ => none
  pathId := pathId
  provenance := ⟨"a", none, none, if kind = .ribEntry then .rib else .updates, seq, 0⟩

/-! ## Evidence references -/

structure EvidenceRef where
  observationId : ObservationId
  sourceUrl : Option String
  archiveSha256 : Option String
  collector : CollectorId
  peerIp : IpAddr
  peerAsn : Asn
  pfx : Prefix
  timestamp : DateTime
  elementSeq : Nat
  pathId : Option UInt32
deriving DecidableEq, Repr

/-- `EvidenceRef::from_observation` through `to_evidence_ref` (`observation.rs:162`, `:236`). -/
def EvidenceRef.fromObservation (obs : RouteObservation) : EvidenceRef where
  observationId := obs.id
  sourceUrl := obs.provenance.sourceUrl
  archiveSha256 := obs.provenance.archiveSha256
  collector := obs.collector
  peerIp := obs.peerIp
  peerAsn := obs.peerAsn
  pfx := obs.pfx
  timestamp := obs.timestamp
  elementSeq := obs.provenance.elementSeq
  pathId := obs.pathId

/-- `EvidenceRef::synthetic` (`observation.rs:175`), dated 2026-07-30T09:00:00Z. -/
def EvidenceRef.synthetic (id : Nat) (url sha : String) : EvidenceRef where
  observationId := id
  sourceUrl := some url
  archiveSha256 := some sha
  collector := "test"
  peerIp := .v4 0
  peerAsn := 0
  pfx := "0.0.0.0/0"
  timestamp := 1785402000 * 1000000000
  elementSeq := 0
  pathId := none

end Inim
