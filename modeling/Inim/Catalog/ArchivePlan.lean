import Inim.Cache.Keys
import Inim.Discover.Select
import Inim.Lib.Digits
/-!
# The archive plan of a case study (`catalog/archive_plan.rs`)

| here | there |
| --- | --- |
| `StudyWindow`, `StudyTarget`   | what `CaseStudy` and `CaseStudyTarget` give the planner |
| `ExpectedFile`, `CollectorPlan`, `ArchivePlan`, … | `archive_plan.rs:90-182`; a plan is built without a pilot |
| `floorTo`                      | `:192` |
| `archiveUrlFor`                | `:197-278`, with `routeviews_url` and `ris_url_for` |
| `planCollector`                | the body of the loops of `:350-433` |
| `buildPlanForFamilies`         | `:317-477` |

A family has an interval for its RIBs and one for its UPDATEs; the files are named by the slots of
these grids. The times of the horizon are kept as times, not as texts. `none` is a panic: a text that
is no time (`parse_utc`), and a time chrono cannot represent. The byte counts are `i64`; a plan that
overflows one would list more than 10¹¹ files.
-/

namespace Inim

open Lib

/-! ## Times and names -/

def hourNanos : Int := 3600000000000
def minuteNanos : Int := 60000000000

/-- A result of chrono's arithmetic, which panics outside its range. -/
def checkedTime (t : DateTime) : Option DateTime :=
  if utcInRange (t / 1000000000) then some t else none

def dateOf (t : DateTime) : CivilDate := .ofDays (t / (24 * hourNanos))
def hourOf (t : DateTime) : Nat := (t / hourNanos % 24).toNat
def minuteOf (t : DateTime) : Nat := (t / minuteNanos % 60).toNat

/-- `%Y`: a year that has not four digits is written with its sign. -/
def formatYear (y : Int) : List Char :=
  if 0 ≤ y ∧ y ≤ 9999 then padZero 4 y.toNat
  else (if 0 ≤ y then '+' else '-') :: padZero 4 y.natAbs

/-- `{y:04}`. -/
def padYear (y : Int) : List Char :=
  if 0 ≤ y then padZero 4 y.toNat else '-' :: padZero 3 y.natAbs

/-- `%Y%m%d`. -/
def dateText (t : DateTime) : List Char :=
  formatYear (dateOf t).year ++ (padZero 2 (dateOf t).month ++ padZero 2 (dateOf t).day)

/-- `%H00`. -/
def ribTime (t : DateTime) : List Char := padZero 2 (hourOf t) ++ ['0', '0']

/-- `%H%M`. -/
def updateTime (t : DateTime) : List Char := padZero 2 (hourOf t) ++ padZero 2 (minuteOf t)

def ribOrUpdateStamp (t : DateTime) (kind : String) : String :=
  String.ofList (dateText t ++ '.' :: if kind = "RIBS" then ribTime t else updateTime t)

/-- `{year:04}.{month:02}`. -/
def monthDir (t : DateTime) : String :=
  String.ofList (padYear (dateOf t).year ++ '.' :: padZero 2 (dateOf t).month)

def routeviewsUrlFor (collector : String) (t : DateTime) (kind : String) : String :=
  let base :=
    if collector = "route-views2" then "http://archive.routeviews.org/bgpdata"
    else "http://archive.routeviews.org/" ++ collector ++ "/bgpdata"
  let filePrefix := if kind = "RIBS" then "rib" else if kind = "UPDATES" then "updates" else kind
  base ++ "/" ++ monthDir t ++ "/" ++ kind ++ "/" ++ filePrefix ++ "." ++ ribOrUpdateStamp t kind
    ++ ".bz2"

def risUrlFor (collector : String) (t : DateTime) (kind : String) : String :=
  let file :=
    (if kind = "RIBS" then "bview." else "updates.") ++ ribOrUpdateStamp t kind ++ ".gz"
  "https://data.ris.ripe.net/" ++ collector ++ "/" ++ monthDir t ++ "/" ++ file

def archiveUrlFor : SourceFamily → String → DateTime → String → String
  | .routeViews => routeviewsUrlFor
  | .ripeRis => risUrlFor

example : archiveUrlFor .ripeRis "rrc00" 1566345600000000000 "RIBS" =
    "https://data.ris.ripe.net/rrc00/2019.08/bview.20190821.0000.gz" := by decide +kernel

def trimEndMatches (pat : List Char) (cs : List Char) : List Char :=
  (strip pat.reverse cs.reverse cs.length).reverse
where
  /-- Drops `pat` from the front as often as it is there. -/
  strip (pat cs : List Char) : Nat → List Char
    | 0 => cs
    | fuel + 1 => if pat.isPrefixOf cs then strip pat (cs.drop pat.length) fuel else cs

/-- The timestamp of a URL: what follows the first point of the file name, without extension. -/
def stampOf (url : String) : String :=
  let file := (url.toList.splitOn '/').getLastD []
  let dotted := if '.' ∈ file then (file.dropWhile (· ≠ '.')).tail else file
  String.ofList (trimEndMatches ".gz".toList (trimEndMatches ".bz2".toList dotted))

example : stampOf "http://x/2019.08/RIBS/rib.20190821.0200.bz2" = "20190821.0200" := by
  decide +kernel

/-! ## The plan -/

def SourceFamily.ribIntervalSecs : SourceFamily → Int
  | .routeViews => 2 * 3600
  | .ripeRis => 8 * 3600

def SourceFamily.familyCollectors : SourceFamily → List String
  | .routeViews => ["route-views2", "route-views6"]
  | .ripeRis => ["rrc00", "rrc01"]

def updateIntervalSecs : Int := 5 * 60
def ribEstimatedBytes : Int := 75000000
def updateEstimatedBytes : Int := 3000000
def ribEstimatedUncompressedBytes : Int := 1100000000
def updateEstimatedUncompressedBytes : Int := 20000000

structure StudyWindow where
  startUtc : Option String
  endUtc : Option String
deriving DecidableEq, Repr

structure StudyTarget where
  sourceLabel : String
  researchStatus : String
deriving DecidableEq, Repr

structure AnalysisHorizon where
  warmupStartUtc : DateTime
  incidentStartUtc : DateTime
  incidentEndUtc : DateTime
  cooldownEndUtc : DateTime
  warmupHours : Int
  cooldownHours : Int
  reviewRequired : Bool
deriving DecidableEq, Repr

structure ExpectedFile where
  url : String
  sizeEstimatedBytes : Option Int
  sizeEstimated : Bool
deriving DecidableEq, Repr

structure CollectorPlan where
  collector : String
  sourceFamily : String
  availability : String
  baselineRib : ExpectedFile
  validationRib : Option ExpectedFile
  updates : List ExpectedFile
  firstUpdateUtc : String
  lastUpdateUtc : String
  uncoveredIntervals : List String
  duplicateUrls : Nat
  estimatedCompressedBytes : Int
  estimatedUncompressedBytes : Int
deriving DecidableEq, Repr

structure BlockedTarget where
  sourceLabel : String
  reason : String
deriving DecidableEq, Repr

structure ArchivePlan where
  collectors : List CollectorPlan
  blockedTargets : List BlockedTarget
  skippedTargets : List BlockedTarget
  estimatedTotalBytes : Int
  estimatedTotalUncompressedBytes : Int
  estimatedTotalIsEstimate : Bool
  notes : List String
deriving DecidableEq, Repr

def floorTo (t : DateTime) (interval : Int) : Option DateTime :=
  let secs := t / 1000000000
  checkedTime ((secs - secs % interval) * 1000000000)

/-- The values of the loop variable `u`. -/
def gridSlots (first last : DateTime) : List DateTime :=
  (List.range ((last - first) / (updateIntervalSecs * 1000000000) + 1).toNat).map fun k : Nat =>
    first + k * (updateIntervalSecs * 1000000000)

/-- The value the loop ends with. -/
def slotAfter (first last : DateTime) : Option DateTime :=
  if first ≤ last then checkedTime (last + updateIntervalSecs * 1000000000) else some first

def ribFile (family : SourceFamily) (collector : String) (t : DateTime) : ExpectedFile :=
  ⟨archiveUrlFor family collector t "RIBS", some ribEstimatedBytes, true⟩

def updateFile (family : SourceFamily) (collector : String) (t : DateTime) : ExpectedFile :=
  ⟨archiveUrlFor family collector t "UPDATES", some updateEstimatedBytes, true⟩

/-- The variables of the loop over the slots, with the two totals. -/
structure SlotScan where
  updates : List ExpectedFile
  seen : List String
  duplicates : Nat
  totalBytes : Int
  totalUncompressedBytes : Int
deriving DecidableEq, Repr

def scanSlot (family : SourceFamily) (collector : String) (s : SlotScan) (u : DateTime) :
    SlotScan :=
  let file := updateFile family collector u
  if file.url ∈ s.seen then { s with duplicates := s.duplicates + 1 }
  else { s with
    updates := s.updates ++ [file]
    seen := file.url :: s.seen
    totalBytes := s.totalBytes + updateEstimatedBytes
    totalUncompressedBytes := s.totalUncompressedBytes + updateEstimatedUncompressedBytes }

structure PlanTotals where
  collectors : List CollectorPlan
  estimatedTotalBytes : Int
  estimatedTotalUncompressedBytes : Int
deriving DecidableEq, Repr

def planCollector (warmupStart cooldownEnd : DateTime) (s : PlanTotals)
    (source : SourceFamily × String) : Option PlanTotals := do
  let (family, collector) := source
  let baselineT ← floorTo warmupStart family.ribIntervalSecs
  let validationT ← floorTo cooldownEnd family.ribIntervalSecs
  let validationRib :=
    if validationT > baselineT then some (ribFile family collector validationT) else none
  let validationCount : Int := if validationRib.isSome then 1 else 0
  let updStart ← floorTo warmupStart updateIntervalSecs
  let updEnd ← floorTo cooldownEnd updateIntervalSecs
  let scan := (gridSlots updStart updEnd).foldl (scanSlot family collector) {
    updates := []
    seen := []
    duplicates := 0
    totalBytes := s.estimatedTotalBytes + ribEstimatedBytes
      + (if validationRib.isSome then ribEstimatedBytes else 0)
    totalUncompressedBytes := s.estimatedTotalUncompressedBytes + ribEstimatedUncompressedBytes
      + (if validationRib.isSome then ribEstimatedUncompressedBytes else 0) }
  let _ ← slotAfter updStart updEnd
  let plan : CollectorPlan := {
    collector := collector
    sourceFamily := family.asStr
    availability := "candidate-2019 (verify at execution)"
    baselineRib := ribFile family collector baselineT
    validationRib := validationRib
    updates := scan.updates
    firstUpdateUtc := (scan.updates.head?.map fun f => stampOf f.url).getD ""
    lastUpdateUtc := (scan.updates.getLast?.map fun f => stampOf f.url).getD ""
    uncoveredIntervals := []
    duplicateUrls := scan.duplicates
    estimatedCompressedBytes := ribEstimatedBytes * (1 + validationCount)
      + scan.updates.length * updateEstimatedBytes
    estimatedUncompressedBytes := ribEstimatedUncompressedBytes * (1 + validationCount)
      + scan.updates.length * updateEstimatedUncompressedBytes }
  return ⟨s.collectors ++ [plan], scan.totalBytes, scan.totalUncompressedBytes⟩

/-- The sources in the order of the loops. -/
def planSources (families : List SourceFamily) : List (SourceFamily × String) :=
  families.flatMap fun family => family.familyCollectors.map (family, ·)

def targetStatusHistoricallyReviewed : String := "HistoricallyReviewed"
def targetStatusNotApplicable : String := "NotApplicableToPublicBgp"

def skippedTargets (targets : List StudyTarget) : List BlockedTarget :=
  (targets.filter (·.researchStatus = targetStatusNotApplicable)).map fun t =>
    ⟨t.sourceLabel, "not applicable to public BGP (reviewed)"⟩

def blockedTargets (targets : List StudyTarget) : List BlockedTarget :=
  (targets.filter fun t => t.researchStatus ≠ targetStatusHistoricallyReviewed ∧
    t.researchStatus ≠ targetStatusNotApplicable).map fun t =>
      ⟨t.sourceLabel, "target mapping unresolved (research status: " ++ t.researchStatus ++ ")"⟩

def planNotes (blocked skipped : List BlockedTarget) : List String :=
  ["initial reproducible horizon; final window requires review",
    "sizes are estimates; exact sizes recorded at acquisition",
    "2019 collector and peer availability verified at execution time",
    "no archives were downloaded to produce this plan"]
  ++ if blocked.isEmpty && skipped.isEmpty then ["no analysis targets are blocked"] else []

/-- `parse` is `parse_utc`, `none` its panic. -/
def buildPlanForFamilies (parse : String → Option DateTime) (cs : StudyWindow)
    (targets : List StudyTarget) (warmupHours cooldownHours : Int) (families : List SourceFamily) :
    Option (Except String (AnalysisHorizon × ArchivePlan)) :=
  match cs.startUtc with
  | none => some (.error "case study has no start time; cannot plan an analysis window")
  | some s => do
    let incidentStart ← parse s
    match cs.endUtc with
    | none => some (.error "case study has no end time; cannot plan an analysis window")
    | some e => do
      let incidentEnd ← parse e
      if incidentEnd ≤ incidentStart then
        some (.error "case study end must be after start")
      else do
        let warmupStart ← checkedTime (incidentStart - warmupHours * hourNanos)
        let cooldownEnd ← checkedTime (incidentEnd + cooldownHours * hourNanos)
        let totals ← (planSources families).foldlM (planCollector warmupStart cooldownEnd) ⟨[], 0, 0⟩
        let blocked := blockedTargets targets
        let skipped := skippedTargets targets
        return .ok (⟨warmupStart, incidentStart, incidentEnd, cooldownEnd, warmupHours, cooldownHours, true⟩, {
          collectors := totals.collectors
          blockedTargets := blocked
          skippedTargets := skipped
          estimatedTotalBytes := totals.estimatedTotalBytes
          estimatedTotalUncompressedBytes := totals.estimatedTotalUncompressedBytes
          estimatedTotalIsEstimate := true
          notes := planNotes blocked skipped })

end Inim
