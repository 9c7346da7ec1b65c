import Inim.Cache.Updates
import Inim.Lib.Calendar
import Inim.Text

/-!
# Selection of archives (`discover.rs:36-55`, `:162-291`)

| here | there |
| --- | --- |
| `ArchiveItem`                    | `discover.rs:40-55` |
| `fileName`                       | `Path::file_name`: the last component, if it is a name |
| `utcTimestamp`                   | `with_ymd_and_hms(..).single()` of the chrono crate |
| `filenameTimestamp`              | `discover.rs:249-266` |
| `canonicalTsStart`               | `discover.rs:233-245` |
| `selectUpdates`                  | `discover.rs:180-225` |
| `validateUpdateGaps`             | `discover.rs:272-291`; a `Gap` holds what its text shows |

A `str` is sliced at byte offsets and a slice that ends inside a character panics; `none` is the
panic of the function.
-/

namespace Inim

open Std Inim.Lib

structure ArchiveItem where
  project : String
  collectorId : String
  dataType : String
  tsStart : DateTime
  tsEnd : DateTime
  url : String
  size : Nat
deriving DecidableEq, Repr

/-! ## Timestamps of file names -/

/-- `&s[..n]` and `&s[n..]`. -/
def splitBytes : Nat → List Char → Option (List Char × List Char)
  | 0, cs => some ([], cs)
  | _ + 1, [] => none
  | n + 1, c :: cs =>
    if c.utf8Size ≤ n + 1 then
      (splitBytes (n + 1 - c.utf8Size) cs).map fun p => (c :: p.1, p.2)
    else none

/-- `&s[a..b]`. -/
def sliceBytes (a b : Nat) (cs : List Char) : Option (List Char) := do
  let (_, rest) ← splitBytes a cs
  let (mid, _) ← splitBytes (b - a) rest
  return mid

def byteLength (cs : List Char) : Nat := (cs.map Char.utf8Size).sum

/-- An hour and minute of a day that exist. -/
def utcTimestamp (y : Int) (m d hour min : Nat) : Option DateTime :=
  if 1 ≤ m ∧ m ≤ 12 ∧ 1 ≤ d ∧ d ≤ daysInMonth y m ∧ hour < 24 ∧ min < 60 then
    some ((daysFromCivil y m d * 86400 + hour * 3600 + min * 60) * 1000000000)
  else none

example : utcTimestamp 2024 2 29 12 30 = some 1709209800000000000 := by decide

/-- Empty components and `.` are skipped, `..` is not a name. -/
def fileName (path : List Char) : Option (List Char) :=
  match ((path.splitOn '/').filter fun c => !c.isEmpty && c != ['.']).getLast? with
  | none => none
  | some c => if c = ['.', '.'] then none else some c

/-- `s[a..b].parse().ok()?`, then the rest: a text that does not parse ends the function before
anything else is sliced. -/
def withField (parse : List Char → Option α) (cs : List Char) (a b : Nat)
    (rest : α → Option (Option β)) : Option (Option β) :=
  match sliceBytes a b cs with
  | none => none
  | some field =>
    match parse field with
    | none => some none
    | some v => rest v

def filenameTimestamp (url : String) : Option (Option DateTime) :=
  match fileName url.toList with
  | none => some none
  | some name =>
    let parts := name.splitOn '.'
    if parts.length < 3 then some none
    else
      let date := parts.getD (parts.length - 3) []
      let time := parts.getD (parts.length - 2) []
      if byteLength date ≠ 8 ∨ byteLength time ≠ 4 then some none
      else
        withField parseI32 date 0 4 fun year =>
        withField parseU32 date 4 6 fun month =>
        withField parseU32 date 6 8 fun day =>
        withField parseU32 time 0 2 fun hour =>
        withField parseU32 time 2 4 fun min =>
        some (utcTimestamp year month day hour min)

/-! ## Selection -/

def minutes (n : Int) : Int := n * 60000000000

/-- `num_minutes` truncates, seconds first. -/
def numMinutes (duration : Int) : Int := (duration.tdiv 1000000000).tdiv 60

def updateCadenceToleranceMinutes : Int := 30

def canonicalTsStart (item : ArchiveItem) : Option DateTime :=
  match filenameTimestamp item.url with
  | none => none
  | some none => some item.tsStart
  | some (some ft) =>
    if updateCadenceToleranceMinutes < |numMinutes (ft - item.tsStart)| then some ft
    else some item.tsStart

/-- The selected items with their canonical start. -/
def selectStamped (items : List ArchiveItem) (ribTimestamp cooldownEnd : DateTime) :
    Option (List (DateTime × ArchiveItem)) := do
  let lower := ribTimestamp - minutes updateCadenceToleranceMinutes
  let stamped ← (items.filter (·.dataType = "updates")).mapM fun item =>
    (canonicalTsStart item).map (·, item)
  let inside := stamped.filter fun p => lower ≤ p.1 ∧ p.1 ≤ cooldownEnd
  return keepFirst (·.2.url) (sortBy (compareLex (compareOn (·.1)) (compareOn (·.2.url))) inside)

def selectUpdates (items : List ArchiveItem) (ribTimestamp cooldownEnd : DateTime) :
    Option (List ArchiveItem) :=
  (selectStamped items ribTimestamp cooldownEnd).map fun l => l.map (·.2)

/-! ## Gaps -/

structure Gap where
  seconds : Int
  prevUrl : String
  prevEnd : DateTime
  nextUrl : String
  nextStart : DateTime
deriving DecidableEq, Repr

def gapBetween (prev next : ArchiveItem) : Gap where
  seconds := (next.tsStart - prev.tsEnd).tdiv 1000000000
  prevUrl := prev.url
  prevEnd := prev.tsEnd
  nextUrl := next.url
  nextStart := next.tsStart

def validateUpdateGaps (tolerance : Int) : List ArchiveItem → List Gap
  | prev :: next :: rest =>
    (if tolerance < next.tsStart - prev.tsEnd then [gapBetween prev next] else []) ++
      validateUpdateGaps tolerance (next :: rest)
  | _ => []

/-- A gap is reported exactly where a file starts that long after the end of the one before. -/
theorem validateUpdateGaps_eq_nil_iff (tolerance : Int) (updates : List ArchiveItem) :
    validateUpdateGaps tolerance updates = [] ↔
      updates.IsChain fun prev next => next.tsStart - prev.tsEnd ≤ tolerance := by
  induction updates with
  | nil => simp [validateUpdateGaps]
  | cons prev rest ih =>
    cases rest with
    | nil => simp [validateUpdateGaps]
    | cons next rest =>
      rw [validateUpdateGaps, List.isChain_cons_cons, ← ih]
      by_cases h : tolerance < next.tsStart - prev.tsEnd
      · refine iff_of_false (by simp [h]) fun hchain => ?_
        exact absurd hchain.1 (Int.not_le.2 h)
      · rw [if_neg h, List.nil_append]
        exact (and_iff_right (Int.not_lt.1 h)).symm

end Inim
