import Inim.Domain.Observation
import Inim.Jobs.State
import Inim.Text
/-!
# Staging cleanup (`catalog/jobs/cleanup.rs`)

| here | there |
| --- | --- |
| `containmentOk`           | `containment_ok` (`cleanup.rs:46`) |
| `proposalFor`, `scan`     | the loop of `scan` (`cleanup.rs:70`) |
| `applyProposal`, `cleanup` | `cleanup` (`cleanup.rs:154`) |
| `parseOlderThan`          | `parse_older_than` (`cleanup.rs:232`) |

A path is the list of its components. What the scan sees of the files and jobs is a `CleanupView`,
what the re-check sees another: jobs and directories may change in between. `CleanupRun.removed` is
every path handed to `remove_dir_all`, with its outcome or without.

The age of a staging directory is that of its modification time; the job's `finished_at` is not
read. A directory's time moves when its own entries change, so a job may have finished later.

**Bug**: the seconds are a product of `u64`s, which wraps in a release build, and are compared
after a cast to `i64`. A long enough age lets everything through (`long_age_deletes_all`).
-/

namespace Inim

abbrev PathParts := List String

/-- The metadata of `data/jobs/<id>/staging`. -/
structure StagingMeta where
  mtime : Option DateTime
  /-- `dir_size`. -/
  size : Nat
deriving DecidableEq, Repr

/-- An entry of `data/jobs`; a file name has no separator. -/
structure JobDir where
  name : String
  isDir : Bool
  staging : Option StagingMeta
  plain : '/' ∉ name.toList

structure CleanupJob where
  state : JobState
  stagedArtifactRoot : Option String
  /-- `finished_at`, as an instant. -/
  finishedAt : Option DateTime
deriving DecidableEq, Repr

structure CleanupView where
  /-- `read_dir(data/jobs)`. -/
  entries : Option (List JobDir)
  /-- `service::get`. -/
  job : String → Option CleanupJob
  canonicalize : PathParts → Option PathParts

/-- `split('/')`. -/
def pathParts (s : String) : PathParts := (s.toList.splitOn '/').map String.ofList

/-- The canonical path of the deepest ancestor that has one; the path is given in reverse. -/
def deepestCanonical (canonicalize : PathParts → Option PathParts) : PathParts → Option PathParts
  | [] => canonicalize []
  | c :: rest => (canonicalize (c :: rest).reverse).or (deepestCanonical canonicalize rest)

def containmentOk (v : CleanupView) (root : PathParts) (stored : String) : Bool :=
  if stored.toList.head? == some '/' || (pathParts stored).any (fun c => c == ".." || c.isEmpty) then
    false
  else match v.canonicalize root with
    | none => false
    | some canonRoot =>
      match deepestCanonical v.canonicalize (root ++ pathParts stored).reverse with
      | some canon => canonRoot.isPrefixOf canon
      | none => false

structure CleanupProposal where
  jobId : String
  jobState : String
  relativePath : String
  ageSecs : Int
  sizeBytes : Nat
  reason : String
deriving DecidableEq, Repr

structure CleanupReport where
  proposals : List CleanupProposal
  deleted : List String
  refused : List String
deriving DecidableEq, Repr

/-- `as i64` of a `u64`. -/
def asI64 (n : Nat) : Int := if n < 2 ^ 63 then n else (n : Int) - 2 ^ 64

def eligibleReason : JobState → Option String
  | .failed => some "failed job staging (terminal)"
  | .cancelled => some "cancelled job staging (terminal)"
  | .completed => some "unreferenced temporary staging after publication"
  | _ => none

/-- One entry of the scan; `olderThan` is in seconds. -/
def proposalFor (v : CleanupView) (root : PathParts) (now : DateTime) (olderThan : Nat)
    (e : JobDir) : Option CleanupProposal := do
  guard (e.isDir = true)
  let staging ← e.staging
  let job ← v.job e.name
  let stored ← job.stagedArtifactRoot
  guard (containmentOk v root stored = true)
  let mtime ← staging.mtime
  let age := max (numSeconds (now - mtime)) 0
  guard (¬ age < asI64 olderThan)
  let reason ← eligibleReason job.state
  return ⟨e.name, job.state.asStr, stored, age, staging.size, reason⟩

def scan (v : CleanupView) (root : PathParts) (now : DateTime) (olderThan : Nat) :
    List CleanupProposal :=
  (v.entries.getD []).filterMap (proposalFor v root now olderThan)

/-- The place of a job's staging directory, relative to the catalog root. -/
def canonicalStaging (jobId : String) : String := "data/jobs/" ++ jobId ++ "/staging"

structure CleanupRun where
  report : CleanupReport
  removed : List PathParts
deriving DecidableEq, Repr

section Cleanup
variable (v v' : CleanupView) (root : PathParts) (now : DateTime) (olderThan : Nat) (apply : Bool)
  (removeDirAll : PathParts → Except String Unit)

/-- The re-check of one proposal, and the removal. -/
def applyProposal (r : CleanupRun) (p : CleanupProposal) : CleanupRun :=
  let canonical := canonicalStaging p.jobId
  let eligible := match v'.job p.jobId with
    | some job => (job.state == .failed || job.state == .cancelled || job.state == .completed) &&
        (job.stagedArtifactRoot.map fun s => s == p.relativePath && s == canonical).getD false
    | none => false
  if !eligible || !containmentOk v' root canonical then
    { r with report.refused := r.report.refused ++ [p.jobId ++ " (eligibility re-check failed)"] }
  else
    let full := root ++ pathParts canonical
    match removeDirAll full with
    | .ok () =>
      { report := { r.report with
          deleted := r.report.deleted ++ [p.jobId], proposals := r.report.proposals ++ [p] }
        removed := r.removed ++ [full] }
    | .error e =>
      { report := { r.report with refused := r.report.refused ++ [p.jobId ++ " (" ++ e ++ ")"] }
        removed := r.removed ++ [full] }

def cleanup : CleanupRun :=
  let proposals := scan v root now olderThan
  if !apply then ⟨⟨proposals, [], []⟩, []⟩
  else proposals.foldl (applyProposal v' root removeDirAll) ⟨⟨[], [], []⟩, []⟩

end Cleanup

/-! ## Durations -/

/-- The number and the unit, in seconds, of texts like `7d`, `48h`, `90m` and `30`. -/
def durationUnits (s : String) : Option (Nat × Nat) :=
  let t := (trim s).toList
  let number := parseU64 (trim (String.ofList t.dropLast))
  match t.getLast? with
  | some 'd' => number.map (·, 86400)
  | some 'h' => number.map (·, 3600)
  | some 'm' => number.map (·, 60)
  | _ => (parseU64 (trim s)).map (·, 1)

/-- Seconds; `u64` multiplication wraps. -/
def parseOlderThan (s : String) : Except String Nat :=
  match durationUnits s with
  | some (n, unit) => .ok (n * unit % 2 ^ 64)
  | none => .error ("invalid duration: " ++ s)

theorem parseOlderThan_ok {s : String} {secs : Nat} :
    parseOlderThan s = .ok secs ↔ ∃ n unit, durationUnits s = some (n, unit) ∧
      secs = n * unit % 2 ^ 64 := by
  unfold parseOlderThan
  split
  · next n unit hunits => simp [hunits, eq_comm]
  · next hunits => simp [hunits]

/-- The conversion is exact iff the product fits in 64 bits. -/
theorem parseOlderThan_exact_iff {s : String} {secs n unit : Nat} (h : parseOlderThan s = .ok secs)
    (hunits : durationUnits s = some (n, unit)) : secs = n * unit ↔ n * unit < 2 ^ 64 := by
  obtain ⟨n', unit', hunits', rfl⟩ := parseOlderThan_ok.1 h
  rw [hunits] at hunits'
  cases hunits'
  constructor
  · intro heq
    rw [← heq]
    exact Nat.mod_lt _ (by decide)
  · exact Nat.mod_eq_of_lt

/-- The threshold keeps its sign iff it fits in 63 bits. -/
theorem asI64_nonneg_iff {n : Nat} (h : n < 2 ^ 64) : 0 ≤ asI64 n ↔ n < 2 ^ 63 := by
  unfold asI64
  split_ifs with hn
  · exact iff_of_true (Int.natCast_nonneg n) hn
  · refine iff_of_false ?_ hn
    omega

/-! ## What is removed -/

theorem proposalFor_eq_some {v : CleanupView} {root : PathParts} {now : DateTime} {olderThan : Nat}
    {e : JobDir} {p : CleanupProposal} (h : proposalFor v root now olderThan e = some p) :
    p.jobId = e.name ∧ ∃ mtime, e.staging.bind (·.mtime) = some mtime ∧
      p.ageSecs = max (numSeconds (now - mtime)) 0 ∧ asI64 olderThan ≤ p.ageSecs := by
  unfold proposalFor at h
  simp only [Option.bind_eq_bind, Option.bind_eq_some_iff, Option.guard_eq_some'] at h
  obtain ⟨-, -, staging, hstaging, job, -, stored, -, -, -, mtime, hmtime, -, hage, reason, -, h⟩ := h
  cases h
  exact ⟨rfl, mtime, by rw [hstaging]; exact hmtime, rfl, not_lt.1 hage⟩

theorem pathParts_canonicalStaging {jobId : String} (h : '/' ∉ jobId.toList) :
    pathParts (canonicalStaging jobId) = ["data", "jobs", jobId, "staging"] := by
  have hjoin : (canonicalStaging jobId).toList =
      ['/'].intercalate ["data".toList, "jobs".toList, jobId.toList, "staging".toList] := by
    simp [canonicalStaging, List.intercalate]
  rw [pathParts, hjoin, List.splitOn_intercalate]
  · simp
  · simp [h]
  · simp

/-- The path is the staging directory of a job that is terminal at the re-check, records this very
place, and had a directory that old at the scan; and it resolves under the catalog root. -/
def StaleStaging (v v' : CleanupView) (root : PathParts) (now : DateTime) (threshold : Nat)
    (path : PathParts) : Prop :=
  ∃ e ∈ v.entries.getD [], ∃ mtime job, path = root ++ ["data", "jobs", e.name, "staging"] ∧
    e.staging.bind (·.mtime) = some mtime ∧ (threshold : Int) ≤ max (numSeconds (now - mtime)) 0 ∧
    v'.job e.name = some job ∧ job.state.isActive = false ∧
    job.stagedArtifactRoot = some (canonicalStaging e.name) ∧
    ∃ canonRoot canon, v'.canonicalize root = some canonRoot ∧
      deepestCanonical v'.canonicalize path.reverse = some canon ∧ canonRoot <+: canon

theorem containmentOk_resolves {v : CleanupView} {root : PathParts} {stored : String}
    (h : containmentOk v root stored = true) : ∃ canonRoot canon,
      v.canonicalize root = some canonRoot ∧
      deepestCanonical v.canonicalize (root ++ pathParts stored).reverse = some canon ∧
      canonRoot <+: canon := by
  unfold containmentOk at h
  split at h
  · cases h
  · split at h
    · cases h
    · next canonRoot hroot =>
      split at h
      · next canon hcanon => exact ⟨canonRoot, canon, hroot, hcanon, List.isPrefixOf_iff_prefix.1 h⟩
      · cases h

section Removed
variable {v v' : CleanupView} {root : PathParts} {now : DateTime} {olderThan : Nat}
  {removeDirAll : PathParts → Except String Unit}

/-- One proposal is refused, or its staging directory is handed to `remove_dir_all`. -/
theorem applyProposal_cases (r : CleanupRun) (p : CleanupProposal) :
    ((applyProposal v' root removeDirAll r p).removed = r.removed ∧
      (applyProposal v' root removeDirAll r p).report.deleted = r.report.deleted) ∨
    ((applyProposal v' root removeDirAll r p).removed =
        r.removed ++ [root ++ pathParts (canonicalStaging p.jobId)] ∧
      ((applyProposal v' root removeDirAll r p).report.deleted = r.report.deleted ∨
        (applyProposal v' root removeDirAll r p).report.deleted = r.report.deleted ++ [p.jobId]) ∧
      containmentOk v' root (canonicalStaging p.jobId) = true ∧
      ∃ job, v'.job p.jobId = some job ∧ job.state.isActive = false ∧
        job.stagedArtifactRoot = some (canonicalStaging p.jobId)) := by
  unfold applyProposal
  dsimp only
  split_ifs with hcheck
  · exact .inl ⟨rfl, rfl⟩
  · rw [Bool.or_eq_true, not_or, Bool.not_eq_true', Bool.not_eq_true', Bool.not_eq_false,
      Bool.not_eq_false] at hcheck
    obtain ⟨heligible, hcontained⟩ := hcheck
    have hjob : ∃ job, v'.job p.jobId = some job ∧ job.state.isActive = false ∧
        job.stagedArtifactRoot = some (canonicalStaging p.jobId) := by
      split at heligible
      · next job hjob =>
        rw [Bool.and_eq_true] at heligible
        obtain ⟨hstate, hstored⟩ := heligible
        refine ⟨job, hjob, ?_, ?_⟩
        · cases hs : job.state <;> simp_all [JobState.isActive]
        · cases hroot : job.stagedArtifactRoot with
          | none => simp [hroot] at hstored
          | some stored =>
            simp only [hroot, Option.map_some, Option.getD_some, Bool.and_eq_true, beq_iff_eq] at hstored
            rw [hstored.2]
      · cases heligible
    split
    · exact .inr ⟨rfl, .inr rfl, hcontained, hjob⟩
    · exact .inr ⟨rfl, .inl rfl, hcontained, hjob⟩

/-- What the loop removes is stale, and what it reports deleted it removed. -/
theorem foldl_applyProposal {ps : List CleanupProposal} {r : CleanupRun} {threshold : Nat}
    (hps : ∀ p ∈ ps, ∃ e ∈ v.entries.getD [], ∃ mtime, p.jobId = e.name ∧
      e.staging.bind (·.mtime) = some mtime ∧ (threshold : Int) ≤ max (numSeconds (now - mtime)) 0)
    (hr : (∀ path ∈ r.removed, StaleStaging v v' root now threshold path) ∧
      ∀ id ∈ r.report.deleted, root ++ ["data", "jobs", id, "staging"] ∈ r.removed) :
    (∀ path ∈ (ps.foldl (applyProposal v' root removeDirAll) r).removed,
      StaleStaging v v' root now threshold path) ∧
    ∀ id ∈ (ps.foldl (applyProposal v' root removeDirAll) r).report.deleted,
      root ++ ["data", "jobs", id, "staging"] ∈
        (ps.foldl (applyProposal v' root removeDirAll) r).removed := by
  induction ps generalizing r with
  | nil => exact hr
  | cons p ps ih =>
    refine ih (fun q hq => hps q (List.mem_cons_of_mem _ hq)) ?_
    obtain ⟨hremoved, hdeleted⟩ := hr
    obtain ⟨e, he, mtime, hid, hmtime, hage⟩ := hps p (List.mem_cons_self ..)
    rcases @applyProposal_cases v' root removeDirAll r p with
      ⟨hsame, hdel⟩ | ⟨hmore, hdel, hcontained, job, hjob, hterminal, hstored⟩
    · rw [hsame, hdel]
      exact ⟨hremoved, hdeleted⟩
    · rw [hid] at hmore hdel hcontained hjob hstored
      obtain ⟨canonRoot, canon, hroot, hcanon, hunder⟩ := containmentOk_resolves hcontained
      rw [pathParts_canonicalStaging e.plain] at hmore hcanon
      rw [hmore]
      refine ⟨fun path hpath => ?_, fun id hid' => ?_⟩
      · rcases List.mem_append.1 hpath with hpath | hpath
        · exact hremoved path hpath
        · obtain rfl := List.mem_singleton.1 hpath
          exact ⟨e, he, mtime, job, rfl, hmtime, hage, hjob, hterminal, hstored, canonRoot, canon,
            hroot, hcanon, hunder⟩
      · rcases hdel with hdel | hdel
        · rw [hdel] at hid'
          exact List.mem_append_left _ (hdeleted id hid')
        · rw [hdel] at hid'
          rcases List.mem_append.1 hid' with hid' | hid'
          · exact List.mem_append_left _ (hdeleted id hid')
          · obtain rfl := List.mem_singleton.1 hid'
            exact List.mem_append_right _ (List.mem_singleton_self _)

end Removed

/-- **Cleanup removes stale staging only**: for an age below 2^63 seconds the conversion is exact,
and whatever is handed to `remove_dir_all` is the staging directory of a terminal job, with a
modification time that far in the past. -/
theorem cleanup_removes_stale {s : String} {secs n unit : Nat} (hparse : parseOlderThan s = .ok secs)
    (hunits : durationUnits s = some (n, unit)) (hsmall : n * unit < 2 ^ 63) :
    secs = n * unit ∧
    ∀ (v v' : CleanupView) (root : PathParts) (now : DateTime) (apply : Bool)
      (removeDirAll : PathParts → Except String Unit),
      (∀ path ∈ (cleanup v v' root now secs apply removeDirAll).removed,
        apply = true ∧ StaleStaging v v' root now (n * unit) path) ∧
      ∀ id ∈ (cleanup v v' root now secs apply removeDirAll).report.deleted,
        root ++ ["data", "jobs", id, "staging"] ∈
          (cleanup v v' root now secs apply removeDirAll).removed := by
  have hexact : secs = n * unit := (parseOlderThan_exact_iff hparse hunits).2 (by omega)
  refine ⟨hexact, fun v v' root now apply removeDirAll => ?_⟩
  cases apply with
  | false => exact ⟨fun path hpath => absurd hpath List.not_mem_nil,
      fun id hid => absurd hid List.not_mem_nil⟩
  | true =>
    have hscan : ∀ p ∈ scan v root now secs, ∃ e ∈ v.entries.getD [], ∃ mtime, p.jobId = e.name ∧
        e.staging.bind (·.mtime) = some mtime ∧
        ((n * unit : Nat) : Int) ≤ max (numSeconds (now - mtime)) 0 := by
      intro p hp
      obtain ⟨e, he, hprop⟩ := List.mem_filterMap.1 hp
      obtain ⟨hid, mtime, hmtime, hageSecs, hage⟩ := proposalFor_eq_some hprop
      refine ⟨e, he, mtime, hid, hmtime, ?_⟩
      rw [hageSecs, asI64, hexact, if_pos hsmall] at hage
      exact hage
    obtain ⟨hremoved, hdeleted⟩ := @foldl_applyProposal v v' root now removeDirAll _
      ⟨⟨[], [], []⟩, []⟩ _ hscan ⟨fun path hpath => absurd hpath List.not_mem_nil,
        fun id hid => absurd hid List.not_mem_nil⟩
    exact ⟨fun path hpath => ⟨rfl, hremoved path hpath⟩, hdeleted⟩

/-! ### A job that finished just now -/

/-- Whatever is removed belongs to a job that finished so long ago. -/
def RemovesFinished (v v' : CleanupView) (root : PathParts) (now : DateTime) (s : String)
    (apply : Bool) (removeDirAll : PathParts → Except String Unit) : Prop :=
  ∀ secs n unit, parseOlderThan s = .ok secs → durationUnits s = some (n, unit) →
    ∀ path ∈ (cleanup v v' root now secs apply removeDirAll).removed,
      ∃ e ∈ v.entries.getD [], ∃ job finished, path = root ++ ["data", "jobs", e.name, "staging"] ∧
        v'.job e.name = some job ∧ job.state.isActive = false ∧ job.finishedAt = some finished ∧
        ((n * unit : Nat) : Int) * 1000000000 ≤ now - finished

namespace CleanupSample

/-- An hour after the epoch. -/
def now : DateTime := 3600000000000

/-- One failed job: its staging directory was last touched at `touched`, it finished now. -/
def view (touched : DateTime) : CleanupView where
  entries := some [⟨"ab", true, some ⟨some touched, 4⟩, by decide⟩]
  job id := if id = "ab" then some ⟨.failed, some "data/jobs/ab/staging", some now⟩ else none
  canonicalize := some

/-- Its directory is ten minutes old. -/
def tenMinutes : CleanupView := view 3000000000000

/-- The directory is older than five minutes and is removed; the job finished zero minutes ago. -/
theorem finished_now_removed :
    (cleanup tenMinutes tenMinutes ["srv"] now 300 true fun _ => .ok ()).removed =
      [["srv", "data", "jobs", "ab", "staging"]] ∧
    ¬ RemovesFinished tenMinutes tenMinutes ["srv"] now "5m" true fun _ => .ok () := by
  have hremoved : (cleanup tenMinutes tenMinutes ["srv"] now 300 true fun _ => .ok ()).removed =
      [["srv", "data", "jobs", "ab", "staging"]] := by decide +kernel
  refine ⟨hremoved, fun h => ?_⟩
  obtain ⟨e, he, job, finished, -, hjob, -, hfinished, hlong⟩ :=
    h 300 5 60 (by decide +kernel) (by decide +kernel) _ (by rw [hremoved]; exact List.mem_singleton_self _)
  obtain rfl : e = ⟨"ab", true, some ⟨some 3000000000000, 4⟩, by decide⟩ := List.mem_singleton.1 he
  have hrow : tenMinutes.job "ab" = some ⟨.failed, some "data/jobs/ab/staging", some now⟩ := by
    decide +kernel
  rw [hrow] at hjob
  cases hjob
  cases hfinished
  exact absurd hlong (by decide)

/-- **Bug**: an age of 2^63 seconds is a negative threshold, one of 2^64 wraps to 17 hours; a
directory touched this moment is removed. -/
theorem long_age_deletes_all :
    parseOlderThan "213503982334602d" = .ok 61184 ∧
    parseOlderThan "106751991167301d" = .ok 9223372036854806400 ∧
    asI64 9223372036854806400 < 0 ∧
    (cleanup (view now) (view now) ["srv"] now 9223372036854806400 true fun _ => .ok ()).removed =
      [["srv", "data", "jobs", "ab", "staging"]] := by
  decide +kernel

theorem cleanup_removes_stale_week : 604800 = 7 * 86400 ∧
    ∀ (v v' : CleanupView) (root : PathParts) (now : DateTime) (apply : Bool)
      (removeDirAll : PathParts → Except String Unit),
      (∀ path ∈ (cleanup v v' root now 604800 apply removeDirAll).removed,
        apply = true ∧ StaleStaging v v' root now (7 * 86400) path) ∧
      ∀ id ∈ (cleanup v v' root now 604800 apply removeDirAll).report.deleted,
        root ++ ["data", "jobs", id, "staging"] ∈
          (cleanup v v' root now 604800 apply removeDirAll).removed :=
  cleanup_removes_stale (show parseOlderThan "7d" = .ok 604800 by decide +kernel) (by decide +kernel)
    (by decide)

end CleanupSample

end Inim
