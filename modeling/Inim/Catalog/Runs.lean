import Inim.Catalog.Import
import Inim.Lib.SortBy

/-!
# Runs in the catalog: publication and import

| here | there |
| --- | --- |
| `AnalysisRun`, `AnalysisArtifact`, …, `RunTables` | `migrations.rs:59-118`, `271-289` and `domain.rs`; an id is the position of its row |
| `insertRun`, `insertArtifact`, `insertStreams`, `insertWaves`, `insertRunTransition` | `store.rs:133-249`, `635-672` |
| `Json`                        | `serde_json::Value` and its accessors |
| `streamEvidenceRefs`, `importStreamSummaries` | `import.rs:541-650` |
| `importWaveSummaries`, `importTransitions` | `import.rs:652-823` |
| `artifactKind`, `mediaTypeFor` | `import.rs:860-897` |
| `importFinalizedRun`, `publishStagedRun` | `jobs/publish.rs:193-328` |
| `importRun`, `importManifest` | `import.rs:324-465`, and the round of `import.rs:94-124` around it |

What is outside: the reading of files as text, serde's parser and SHA-256 of bytes are the
parameters of `RunEnv`; `create_dir_all` and `rename` come with a publication as what they
return. `runtime_secs`, a float, is not kept. A transaction that fails leaves the tables as they
were, but the directory it was about is already in its final place.
-/

namespace Inim

open Inim.Lib

/-! ## JSON -/

inductive Json where
  | null
  | bool (b : Bool)
  | int (n : Int)
  | float
  | str (s : String)
  | arr (items : List Json)
  | obj (fields : List (String × Json))

namespace Json

def get (j : Json) (key : String) : Option Json :=
  match j with
  | obj fields => fields.lookup key
  | null | bool _ | int _ | float | str _ | arr _ => none

def asStr : Json → Option String
  | str s => some s
  | null | bool _ | int _ | float | arr _ | obj _ => none

def asBool : Json → Option Bool
  | bool b => some b
  | null | int _ | float | str _ | arr _ | obj _ => none

def asI64 : Json → Option Int
  | int n => if -2 ^ 63 ≤ n ∧ n < 2 ^ 63 then some n else none
  | null | bool _ | float | str _ | arr _ | obj _ => none

def asU64 : Json → Option Nat
  | int n => if 0 ≤ n ∧ n < 2 ^ 64 then some n.toNat else none
  | null | bool _ | float | str _ | arr _ | obj _ => none

def asArray : Json → Option (List Json)
  | arr items => some items
  | null | bool _ | int _ | float | str _ | obj _ => none

/-- `.get(key).and_then(as_str).unwrap_or("")`. -/
def text (j : Json) (key : String) : String := ((j.get key).bind asStr).getD ""

/-- `.get(key).and_then(as_i64).unwrap_or(0)`. -/
def count (j : Json) (key : String) : Int := ((j.get key).bind asI64).getD 0

/-- `.get(key).and_then(as_bool).unwrap_or(false)`. -/
def flag (j : Json) (key : String) : Bool := ((j.get key).bind asBool).getD false

/-- `.get(key).and_then(as_array).cloned().unwrap_or_default()`. -/
def items (j : Json) (key : String) : List Json := ((j.get key).bind asArray).getD []

end Json

/-! ## The tables -/

structure AnalysisRun where
  planId : Nat
  softwareVersion : String
  gitRevision : Option String
  parserIdentity : String
  cacheSchemaVersion : UInt32
  reportSchemaVersion : UInt32
  status : String
  startedAt : String
  completedAt : Option String
  verdict : Option String
  assessment : Option String
deriving DecidableEq, Repr

structure AnalysisArtifact where
  runId : Nat
  kind : String
  relativePath : String
  mediaType : String
  schemaVersion : Option UInt32
  sha256 : String
  size : Nat
  createdAt : String
deriving DecidableEq, Repr

structure StreamLifecycleSummary where
  runId : Nat
  collector : String
  peerIp : String
  pfx : String
  category : String
  baselineInstances : Int
  maxActiveInstances : Int
  transitionCount : Nat
  withdrawn : Bool
  restored : Bool
  transitState : String
  addPathAmbiguous : Bool
  evidenceRefs : String
  firstChangeUtc : Option String
  restorationTimeUtc : Option String
deriving DecidableEq, Repr

structure SemanticWaveSummary where
  runId : Nat
  waveId : String
  label : String
  start : String
  peakStart : String
  peakEnd : String
  finish : String
  streamCount : Int
  instanceCount : Int
deriving DecidableEq, Repr

structure RunTransitionRecord where
  runId : Nat
  seq : Int
  kind : String
  occurredUtc : String
  runPhase : String
  collector : String
  peerIp : String
  pfx : String
  pathId : Option Int
  materialPathChanged : Bool
  communitiesChanged : Bool
  announced : Bool
  withdrawn : Bool
  observationId : Option Int
  archiveSha256 : Option String
deriving DecidableEq, Repr

structure RunTables where
  runs : List AnalysisRun
  artifacts : List AnalysisArtifact
  streams : List StreamLifecycleSummary
  waves : List SemanticWaveSummary
  transitions : List RunTransitionRecord
deriving DecidableEq, Repr

def RunTables.empty : RunTables := ⟨[], [], [], [], []⟩

def AnalysisRun.key (r : AnalysisRun) : Nat × String := (r.planId, r.startedAt)

def AnalysisArtifact.key (a : AnalysisArtifact) : Nat × String := (a.runId, a.relativePath)

def RunTransitionRecord.key (t : RunTransitionRecord) : Nat × Int := (t.runId, t.seq)

namespace RunTables

/-- The plan is looked at only when a row is written: `plan_id` is a foreign key. -/
def insertRun (t : RunTables) (plans : Nat) (r : AnalysisRun) : Except String (RunTables × Nat) :=
  match t.runs.findIdx? fun r' => decide (r'.key = r.key) with
  | some id => .ok (t, id)
  | none =>
    if r.planId < plans then .ok ({ t with runs := t.runs ++ [r] }, t.runs.length)
    else .error "catalog write failed: FOREIGN KEY constraint failed"

def insertArtifact (t : RunTables) (a : AnalysisArtifact) : RunTables :=
  { t with artifacts := (insertUnique AnalysisArtifact.key a t.artifacts).1 }

def insertStreams (t : RunTables) (rows : List StreamLifecycleSummary) : RunTables :=
  { t with streams := t.streams ++ rows }

def insertWaves (t : RunTables) (rows : List SemanticWaveSummary) : RunTables :=
  { t with waves := t.waves ++ rows }

def insertRunTransition (t : RunTables) (r : RunTransitionRecord) : RunTables :=
  { t with transitions := (insertUnique RunTransitionRecord.key r t.transitions).1 }

end RunTables

/-! ## The files of a run -/

structure RunFile where
  name : String
  bytes : List UInt8
deriving DecidableEq, Repr

structure RunEnv where
  readToString : List UInt8 → Except String String
  parseJson : String → Except String Json
  sha256Bytes : List UInt8 → String

def findFile (files : List RunFile) (name : String) : Option RunFile :=
  files.find? fun f => f.name == name

/-- Read and parse, with the two error texts. -/
def readJson (env : RunEnv) (f : RunFile) (cannotRead invalid : String) : Except String Json := do
  let content ← (env.readToString f.bytes).mapError fun e => cannotRead ++ ": " ++ e
  (env.parseJson content).mapError fun e => invalid ++ ": " ++ e

/-- The records of an optional summary file. -/
def readItems (env : RunEnv) (files : List RunFile) (name cannotRead key : String) :
    Except String (List Json) :=
  match findFile files name with
  | none => .ok []
  | some f => return (← readJson env f cannotRead ("invalid " ++ name)).items key

def readLifecycles (env : RunEnv) (files : List RunFile) : Except String (List Json) :=
  readItems env files "lifecycle.json" "cannot read lifecycle" "lifecycles"

def readWaves (env : RunEnv) (files : List RunFile) : Except String (List Json) :=
  readItems env files "semantic_waves.json" "cannot read waves" "waves"

def transitionImportLimit : Nat := 1000000

def readTransitions (env : RunEnv) (files : List RunFile) (limit : Nat) :
    Except String (List Json) := do
  let transitions ← readItems env files "transitions.json" "cannot read transitions" "transitions"
  if limit < transitions.length then
    throw ("transition import rejected: " ++ toString transitions.length ++
      " records exceeds the sanity bound of " ++ toString limit ++ " per run")
  return transitions

def streamEvidenceRefs (lc : Json) : String :=
  String.intercalate "; " ((lc.items "transitions").filterMap fun t =>
    let ts := t.text "timestamp"
    let sha := t.text "archive_sha256"
    if ts ≠ "" ∧ sha ≠ "" then
      some (lc.text "collector" ++ ":" ++ lc.text "peer_ip" ++ " " ++ lc.text "prefix" ++ " at " ++
        ts ++ " (archive_sha256:" ++ sha ++ ")")
    else none)

def streamSummary (runId : Nat) (lc : Json) : StreamLifecycleSummary where
  runId := runId
  collector := lc.text "collector"
  peerIp := lc.text "peer_ip"
  pfx := lc.text "prefix"
  category := ((lc.get "category").bind Json.asStr).getD "Unchanged"
  baselineInstances := lc.count "baseline_instance_count"
  maxActiveInstances := lc.count "max_concurrent_instances"
  transitionCount := (lc.items "transitions").length
  withdrawn := lc.flag "was_withdrawn"
  restored := ((lc.get "flags").map (·.flag "restored")).getD false
  transitState := ((lc.get "category").bind Json.asStr).getD "Unchanged"
  addPathAmbiguous := ((lc.get "flags").map (·.flag "add_path_ambiguous")).getD false
  evidenceRefs := streamEvidenceRefs lc
  firstChangeUtc := (lc.get "first_change").bind Json.asStr
  restorationTimeUtc := (lc.get "restoration_time").bind Json.asStr

def waveSummary (runId : Nat) (w : Json) : SemanticWaveSummary where
  runId := runId
  waveId := w.text "id"
  label := w.text "label"
  start := w.text "start"
  peakStart := w.text "peak_start"
  peakEnd := w.text "peak_end"
  finish := w.text "end"
  streamCount := w.count "stream_count"
  instanceCount := w.count "route_instance_count"

def runTransition (runId : Nat) (t : Json) : RunTransitionRecord where
  runId := runId
  seq := t.count "seq"
  kind := t.text "kind"
  occurredUtc := t.text "occurred_utc"
  runPhase := t.text "phase"
  collector := t.text "collector"
  peerIp := t.text "peer_ip"
  pfx := t.text "prefix"
  pathId := (t.get "path_id").bind Json.asI64
  materialPathChanged := t.flag "material_path_changed"
  communitiesChanged := t.flag "communities_changed"
  announced := t.flag "announced"
  withdrawn := t.flag "withdrawn"
  observationId := (t.get "observation_id").bind Json.asI64
  archiveSha256 := (t.get "archive_sha256").bind Json.asStr

/-! ## Their rows -/

def artifactKind (rel : String) : String :=
  if rel.endsWith "report.json" || rel.endsWith "report.txt" then "report"
  else if rel.endsWith "evidence_appendix.jsonl" then "evidence-appendix"
  else if rel.endsWith "archive_manifest.json" then "archive-manifest"
  else if rel.endsWith "lifecycle.json" then "lifecycle"
  else if rel.endsWith "semantic_waves.json" then "semantic-waves"
  else if rel.endsWith "withdrawal_audit.json" then "withdrawal-audit"
  else if rel.endsWith "transitions.json" then "transitions"
  else if rel.endsWith "performance.json" then "performance"
  else if rel.endsWith "limitations.json" then "limitations"
  else if rel.endsWith "stdout.json" then "stdout"
  else if rel.endsWith "stderr.log" then "stderr"
  else "artifact"

def mediaTypeFor (kind : String) : String :=
  if kind ∈ ["report", "archive-manifest", "lifecycle", "semantic-waves", "withdrawal-audit",
      "limitations", "stdout"] then "application/json"
  else if kind = "evidence-appendix" then "application/x-ndjson"
  else if kind = "stderr" then "text/plain"
  else "application/octet-stream"

/-- The artifact row of a file under `dir`. -/
def artifactRow (env : RunEnv) (dir createdAt : String) (schema : UInt32) (runId : Nat)
    (f : RunFile) : AnalysisArtifact where
  runId := runId
  kind := artifactKind (dir ++ f.name)
  relativePath := dir ++ f.name
  mediaType := mediaTypeFor (artifactKind (dir ++ f.name))
  schemaVersion := some schema
  sha256 := env.sha256Bytes f.bytes
  size := f.bytes.length
  createdAt := createdAt

/-- `files.sort()`, within one directory. -/
def sortedFiles (files : List RunFile) : List RunFile :=
  sortBy (fun a b => compare a.name b.name) files

namespace RunTables

def insertArtifacts (t : RunTables) (rows : List AnalysisArtifact) : RunTables :=
  rows.foldl insertArtifact t

def importStreamSummaries (env : RunEnv) (t : RunTables) (runId : Nat) (files : List RunFile) :
    Except String RunTables := do
  let lifecycles ← readLifecycles env files
  return t.insertStreams (lifecycles.map (streamSummary runId))

def importWaveSummaries (env : RunEnv) (t : RunTables) (runId : Nat) (files : List RunFile) :
    Except String RunTables := do
  let waves ← readWaves env files
  return t.insertWaves (waves.map (waveSummary runId))

def importTransitions (env : RunEnv) (t : RunTables) (runId : Nat) (files : List RunFile)
    (limit : Nat) : Except String RunTables := do
  let transitions ← readTransitions env files limit
  return (transitions.map (runTransition runId)).foldl insertRunTransition t

end RunTables

/-! ## The report -/

/-- `as_u64().unwrap_or(0) as u32`. -/
def reportSchema (report : Json) : UInt32 :=
  UInt32.ofNat (((report.get "schema_version").bind Json.asU64).getD 0)

/-- `first`, or if it is absent `second`, of the report's `result`. -/
def reportVerdict (report : Json) (first second : String) : Option String :=
  let field key := (report.get "result").bind (·.get key)
  ((field first).or (field second)).bind Json.asStr

def reportAssessment (report : Json) : Option String :=
  ((report.get "assessment").bind (·.get "statement")).bind Json.asStr

def reportGeneratedAt (report : Json) : String :=
  ((((report.get "outcome").bind (·.get "assessment")).bind (·.get "generated_at")).bind
    Json.asStr).getD "2026-07-31T00:00:00Z"

def AnalysisRun.reportVersion : UInt32 := 3

/-- The row of a run, with what the two ways in have in common. -/
def analysisRun (planId : Nat) (softwareVersion : String) (gitRevision : Option String)
    (schema : UInt32) (startedAt completedAt : String) (verdict assessment : Option String) :
    AnalysisRun where
  planId := planId
  softwareVersion := softwareVersion
  gitRevision := gitRevision
  parserIdentity := "0.19.0"
  cacheSchemaVersion := 2
  reportSchemaVersion := schema
  status := "Complete"
  startedAt := startedAt
  completedAt := some completedAt
  verdict := verdict
  assessment := assessment

/-! ## Publication -/

structure RunCatalog where
  tables : CatalogTables
  runs : RunTables
  /-- The directories under `data/runs`, by job and event. -/
  finalDirs : List (String × String)
deriving DecidableEq, Repr

def RunCatalog.empty : RunCatalog := ⟨.empty, .empty, []⟩

structure PublishInputs where
  catalogRoot : String
  jobId : String
  planRevisionId : Nat
  eventId : String
  softwareVersion : String
  gitRevision : Option String
  runStartedAt : String
  runCompletedAt : String
deriving DecidableEq, Repr

def PublishInputs.dir (p : PublishInputs) : String × String := (p.jobId, p.eventId)

/-- The directory relative to the catalog root, and as the error texts show it. -/
def PublishInputs.relativeDir (p : PublishInputs) : String :=
  "data/runs/" ++ p.jobId ++ "/" ++ p.eventId

def PublishInputs.shownDir (p : PublishInputs) : String :=
  "\"" ++ p.catalogRoot ++ "/" ++ p.relativeDir ++ "\""

def readPublishedReport (env : RunEnv) (files : List RunFile) : Except String Json := do
  let some f := findFile files "report.json"
    | throw "cannot read published report.json: No such file or directory (os error 2)"
  let report ← readJson env f "cannot read published report.json" "invalid report.json"
  if reportSchema report ≠ AnalysisRun.reportVersion then
    throw ("report schema v" ++ toString (reportSchema report) ++ " is not current v" ++
      toString AnalysisRun.reportVersion)
  return report

def publishedRun (p : PublishInputs) (report : Json) : AnalysisRun :=
  analysisRun p.planRevisionId p.softwareVersion p.gitRevision (reportSchema report) p.runStartedAt
    p.runCompletedAt (reportVerdict report "verdict_label" "verdict") (reportAssessment report)

/-- Everything that goes to a run beside its row, in the order of both importers; `context` is
what an importer puts before an error. -/
def importChildren (env : RunEnv) (context : String → String) (t : RunTables) (runId : Nat)
    (files : List RunFile) (artifacts : List AnalysisArtifact) : Except String RunTables := do
  let t ← ((t.insertArtifacts artifacts).importStreamSummaries env runId files).mapError
    (context "stream summaries" ++ ·)
  let t ← (t.importWaveSummaries env runId files).mapError (context "wave summaries" ++ ·)
  (t.importTransitions env runId files transitionImportLimit).mapError
    (context "transitions" ++ ·)

def importFinalizedRun (env : RunEnv) (plans : Nat) (t : RunTables) (files : List RunFile)
    (p : PublishInputs) : Except String (RunTables × Nat) := do
  let report ← readPublishedReport env files
  let (t, runId) ← (t.insertRun plans (publishedRun p report)).mapError fun e =>
    "cannot insert run: " ++ e
  let t ← importChildren env (fun what => "cannot import " ++ what ++ ": ") t runId files
    ((sortedFiles files).map
      (artifactRow env (p.relativeDir ++ "/") p.runCompletedAt (reportSchema report) runId))
  return (t, runId)

/-- A staged directory, and what moving it to its final place returns. -/
structure Publication where
  files : List RunFile
  inputs : PublishInputs
  move : Except String Unit

def publishStagedRun (env : RunEnv) (c : RunCatalog) (p : Publication) :
    RunCatalog × Except String Nat :=
  if p.inputs.dir ∈ c.finalDirs then
    (c, .error ("artifact_publication_failed: final run directory already exists: " ++
      p.inputs.shownDir))
  else
    match p.move with
    | .error e => (c, .error e)
    | .ok () =>
      let moved := { c with finalDirs := c.finalDirs ++ [p.inputs.dir] }
      match importFinalizedRun env c.tables.plans.length c.runs p.files p.inputs with
      | .ok (runs, runId) => ({ moved with runs := runs }, .ok runId)
      | .error e => (moved, .error ("catalog_import_failed: " ++ e ++
          "; final directory left unreferenced at " ++ p.inputs.shownDir ++
          "; inspect before cleanup"))

/-! ## Import -/

/-- A manifest with the files of its run output, if that is there. -/
structure ManifestImport where
  input : ImportInput
  output : Option (List RunFile)

structure ImportCommand where
  softwareVersion : String
  gitRevision : Option String
  manifests : List ManifestImport

def conflictMessage (relativePath : String) : String :=
  "import rejected: artifact " ++ relativePath ++
    " conflicts with an existing immutable run (hash mismatch)"

/-- The first artifact whose row under the run has another hash. -/
def conflicting (t : RunTables) (artifacts : List AnalysisArtifact) : Option AnalysisArtifact :=
  artifacts.find? fun a => ((t.artifacts.find? fun b => decide (b.key = a.key)).map fun b =>
    b.sha256 != a.sha256).getD false

/-- The second half of `import_one`: unlike a publication, it writes nothing to a run that is
there, and refuses an artifact the run has with another hash. -/
def importRun (env : RunEnv) (cmd : ImportCommand) (plans : Nat) (t : RunTables) (eventId : String)
    (planId : Nat) (files : List RunFile) : Except String RunTables := do
  let some f := findFile files "report.json"
    | return t
  let report ← readJson env f "cannot read report" ("invalid report.json for " ++ eventId)
  let schema := reportSchema report
  if ¬(2 ≤ schema ∧ schema ≤ AnalysisRun.reportVersion) then
    throw ("import rejected for " ++ eventId ++ ": report schema v" ++ toString schema ++
      " is not a supported historical schema (v2..=v" ++ toString AnalysisRun.reportVersion ++ ")")
  let generatedAt := reportGeneratedAt report
  let run := analysisRun planId cmd.softwareVersion cmd.gitRevision schema generatedAt generatedAt
    (reportVerdict report "verdict" "verdict_label") (reportAssessment report)
  let artifacts (runId : Nat) := (sortedFiles files).map
    (artifactRow env (eventId ++ "/") "2026-07-31T00:00:00Z" schema runId)
  match t.runs.findIdx? fun r => decide (r.key = run.key) with
  | some runId =>
    match conflicting t (artifacts runId) with
    | some a => throw (conflictMessage a.relativePath)
    | none => return t
  | none =>
    let (t, runId) ← t.insertRun plans run
    importChildren env (fun _ => "") t runId files (artifacts runId)

/-- One round of the import loop. -/
def importManifest (ienv : ImportEnv) (env : RunEnv) (cmd : ImportCommand)
    (c : CatalogTables × RunTables) (m : ManifestImport) :
    Except String (CatalogTables × RunTables) := do
  let manifest ← (loadManifest ienv m.input).mapError fun e =>
    "cannot load manifest " ++ m.input.manifestPath ++ ": " ++ e
  if ienv.excluded manifest then return c
  let (tables, ids) ← importOne ienv c.1 m.input
  match m.output with
  | none => return (tables, c.2)
  | some files =>
    return (tables,
      ← importRun env cmd tables.plans.length c.2 manifest.eventId ids.plan files)

def importCommand (ienv : ImportEnv) (env : RunEnv) (c : RunCatalog) (cmd : ImportCommand) :
    RunCatalog :=
  match cmd.manifests.foldlM (importManifest ienv env cmd) (c.tables, c.runs) with
  | .ok (tables, runs) => { c with tables, runs }
  | .error _ => c

/-! ## The system -/

inductive CatalogOp where
  | publish (p : Publication)
  | importRepository (cmd : ImportCommand)

def RunCatalog.step (ienv : ImportEnv) (env : RunEnv) (c : RunCatalog) : CatalogOp → RunCatalog
  | .publish p => (publishStagedRun env c p).1
  | .importRepository cmd => importCommand ienv env c cmd

end Inim
