import Inim.Catalog.Runs
import Inim.Lib.Guards
import Inim.Lib.Runs

/-!
# A published run is a new run, and stays as it is

`publish_staged_run` "returns the new run id" (`publish.rs:175-177`), and the sibling
`import_one` treats a run that is there as immutable (`import.rs:416-447`). The record of a run
is its row with every child row of it. Imports keep all records (`importCommand_kept`), and so
does a publication with a row of its own (`publish_kept`). But `insert_run` hands the id of the
row with the same plan and start time to a publication too, which then writes its children to
that run; start times have whole seconds. `runsImmutable_iff` is when the promise holds over a
history, `second_job_joins_first_run` the case of two jobs of a plan that started together.
-/

namespace Inim

open Inim.Lib

variable {ienv : ImportEnv} {env : RunEnv} {s t u : RunTables} {c : RunCatalog}

/-! ## The record of a run -/

/-- A run's row and its child rows, with their ids. -/
structure RunRecord where
  row : Option AnalysisRun
  artifacts : List (AnalysisArtifact × Nat)
  streams : List (StreamLifecycleSummary × Nat)
  waves : List (SemanticWaveSummary × Nat)
  transitions : List (RunTransitionRecord × Nat)
deriving DecidableEq, Repr

def RunTables.record (t : RunTables) (runId : Nat) : RunRecord where
  row := t.runs[runId]?
  artifacts := rowsOf AnalysisArtifact.runId runId t.artifacts
  streams := rowsOf StreamLifecycleSummary.runId runId t.streams
  waves := rowsOf SemanticWaveSummary.runId runId t.waves
  transitions := rowsOf RunTransitionRecord.runId runId t.transitions

/-- Every run of `s` is in `t` what it was. -/
def RunTables.Kept (s t : RunTables) : Prop :=
  ∀ runId < s.runs.length, t.record runId = s.record runId

namespace RunTables

theorem Kept.refl (t : RunTables) : Kept t t := fun _ _ => rfl

theorem Kept.trans (h : Kept s t) (h' : Kept t u) : Kept s u := by
  intro id hid
  have hrow : t.runs[id]? = s.runs[id]? := congrArg RunRecord.row (h id hid)
  have hlt : id < t.runs.length := by
    rw [List.getElem?_eq_getElem hid] at hrow
    exact (List.getElem?_eq_some_iff.1 hrow).1
  exact (h' id hlt).trans (h id hid)

/-- `t` is `s` with more children of one run. -/
structure ExtendsFor (runId : Nat) (s t : RunTables) : Prop where
  runs : t.runs = s.runs
  artifacts : GrowsFor AnalysisArtifact.runId runId s.artifacts t.artifacts
  streams : GrowsFor StreamLifecycleSummary.runId runId s.streams t.streams
  waves : GrowsFor SemanticWaveSummary.runId runId s.waves t.waves
  transitions : GrowsFor RunTransitionRecord.runId runId s.transitions t.transitions

variable {runId : Nat}

theorem ExtendsFor.refl (t : RunTables) : ExtendsFor runId t t :=
  ⟨rfl, .refl _, .refl _, .refl _, .refl _⟩

theorem ExtendsFor.trans (h : ExtendsFor runId s t) (h' : ExtendsFor runId t u) :
    ExtendsFor runId s u :=
  ⟨h'.runs.trans h.runs, h.artifacts.trans h'.artifacts, h.streams.trans h'.streams,
    h.waves.trans h'.waves, h.transitions.trans h'.transitions⟩

theorem ExtendsFor.record_eq (h : ExtendsFor runId s t) {id : Nat} (hid : id ≠ runId) :
    t.record id = s.record id := by
  simp only [record, h.runs, h.artifacts.rowsOf_eq hid, h.streams.rowsOf_eq hid,
    h.waves.rowsOf_eq hid, h.transitions.rowsOf_eq hid]

/-! ## What the inserts do -/

theorem insertArtifact_extends (t : RunTables) {a : AnalysisArtifact} (ha : a.runId = runId) :
    ExtendsFor runId t (t.insertArtifact a) :=
  ⟨rfl, .insertUnique ha _, .refl _, .refl _, .refl _⟩

theorem insertRunTransition_extends (t : RunTables) {r : RunTransitionRecord}
    (hr : r.runId = runId) : ExtendsFor runId t (t.insertRunTransition r) :=
  ⟨rfl, .refl _, .refl _, .refl _, .insertUnique hr _⟩

/-- A loop of inserts for one run. -/
theorem foldl_extends {α : Type} {f : RunTables → α → RunTables} {rows : List α}
    (hf : ∀ t, ∀ x ∈ rows, ExtendsFor runId t (f t x)) (t : RunTables) :
    ExtendsFor runId t (rows.foldl f t) := by
  induction rows generalizing t with
  | nil => exact .refl t
  | cons x rows ih =>
    exact (hf t x (by simp)).trans (ih (fun t y hy => hf t y (by simp [hy])) _)

theorem insertStreams_extends (t : RunTables) {rows : List StreamLifecycleSummary}
    (h : ∀ r ∈ rows, r.runId = runId) : ExtendsFor runId t (t.insertStreams rows) :=
  ⟨rfl, .refl _, ⟨rows, rfl, h⟩, .refl _, .refl _⟩

theorem insertWaves_extends (t : RunTables) {rows : List SemanticWaveSummary}
    (h : ∀ r ∈ rows, r.runId = runId) : ExtendsFor runId t (t.insertWaves rows) :=
  ⟨rfl, .refl _, .refl _, ⟨rows, rfl, h⟩, .refl _⟩

/-- The two outcomes of a run's insert that succeeds. -/
theorem insertRun_cases {plans id : Nat} {r : AnalysisRun} (h : t.insertRun plans r = .ok (u, id)) :
    (u = t ∧ ∃ r', t.runs[id]? = some r' ∧ r'.key = r.key) ∨
      ((∀ r' ∈ t.runs, r'.key ≠ r.key) ∧ u = { t with runs := t.runs ++ [r] } ∧
        id = t.runs.length) := by
  unfold insertRun at h
  split at h
  · rename_i i hi
    cases h
    obtain ⟨hlt, hkey, -⟩ := List.findIdx?_eq_some_iff_getElem.mp hi
    exact .inl ⟨rfl, _, List.getElem?_eq_getElem hlt, by simpa using hkey⟩
  · rename_i hnone
    rw [List.findIdx?_eq_none_iff] at hnone
    split at h
    · cases h
      exact .inr ⟨fun r' hr' => by simpa using hnone r' hr', rfl, rfl⟩
    · cases h

/-- A row and children of its own keep every earlier record. -/
theorem kept_of_new {r : AnalysisRun}
    (h : ExtendsFor t.runs.length { t with runs := t.runs ++ [r] } u) : Kept t u := by
  intro id hid
  rw [h.record_eq (Nat.ne_of_lt hid)]
  simp [record, List.getElem?_append_left hid]

end RunTables

open RunTables

/-! ## The children of a run -/

theorem importChildren_extends {context : String → String} {runId : Nat} {files : List RunFile}
    {artifacts : List AnalysisArtifact} (ha : ∀ a ∈ artifacts, a.runId = runId)
    (h : importChildren env context t runId files artifacts = .ok u) : ExtendsFor runId t u := by
  obtain ⟨t₁, h₁, h⟩ := bind_ok h
  obtain ⟨t₂, h₂, h⟩ := bind_ok h
  obtain ⟨lifecycles, -, h₁⟩ := bind_ok (mapError_ok_iff.1 h₁)
  obtain ⟨waves, -, h₂⟩ := bind_ok (mapError_ok_iff.1 h₂)
  obtain ⟨transitions, -, h₃⟩ := bind_ok (mapError_ok_iff.1 h)
  cases h₁
  cases h₂
  cases h₃
  refine (foldl_extends (fun t a hmem => insertArtifact_extends t (ha a hmem)) t).trans
    ((insertStreams_extends _ ?_).trans ((insertWaves_extends _ ?_).trans
      (foldl_extends (fun t r hmem => insertRunTransition_extends t ?_) _)))
  · simp [streamSummary]
  · simp [waveSummary]
  · obtain ⟨j, -, rfl⟩ := List.mem_map.1 hmem
    rfl

/-- The three summary files, where they are there, can be read. -/
def summariesReadable (env : RunEnv) (files : List RunFile) : Bool :=
  (readLifecycles env files).isOk && (readWaves env files).isOk
    && (readTransitions env files transitionImportLimit).isOk

theorem isOk_iff {ε α : Type} {x : Except ε α} : x.isOk = true ↔ ∃ a, x = .ok a := by
  cases x <;> simp [Except.isOk, Except.toBool]

theorem importChildren_readable {context : String → String} {runId : Nat} {files : List RunFile}
    {artifacts : List AnalysisArtifact}
    (h : importChildren env context t runId files artifacts = .ok u) :
    summariesReadable env files = true := by
  obtain ⟨t₁, h₁, h⟩ := bind_ok h
  obtain ⟨t₂, h₂, h⟩ := bind_ok h
  obtain ⟨lifecycles, hl, -⟩ := bind_ok (mapError_ok_iff.1 h₁)
  obtain ⟨waves, hw, -⟩ := bind_ok (mapError_ok_iff.1 h₂)
  obtain ⟨transitions, ht, -⟩ := bind_ok (mapError_ok_iff.1 h)
  simp [summariesReadable, hl, hw, ht, Except.isOk, Except.toBool]

theorem importChildren_isOk {files : List RunFile} (h : summariesReadable env files = true)
    (context : String → String) (t : RunTables) (runId : Nat) (artifacts : List AnalysisArtifact) :
    ∃ u, importChildren env context t runId files artifacts = .ok u := by
  simp only [summariesReadable, Bool.and_eq_true, isOk_iff] at h
  obtain ⟨⟨⟨lifecycles, hl⟩, waves, hw⟩, transitions, ht⟩ := h
  unfold importChildren importStreamSummaries importWaveSummaries importTransitions
  rw [hl, hw, ht]
  exact ⟨_, rfl⟩

/-! ## Imports -/

theorem importRun_kept {cmd : ImportCommand} {plans planId : Nat} {eventId : String}
    {files : List RunFile} (h : importRun env cmd plans t eventId planId files = .ok u) :
    Kept t u := by
  unfold importRun at h
  split at h
  · rename_i f _
    obtain ⟨report, -, h⟩ := bind_ok h
    obtain ⟨-, h⟩ := guard_ok h
    dsimp only at h
    split at h
    · -- the run is there: nothing is written, whatever the artifacts say
      split at h
      · cases h
      · cases h
        exact .refl t
    · rename_i hnone
      obtain ⟨⟨t', runId⟩, hins, h⟩ := bind_ok h
      rcases insertRun_cases hins with ⟨-, r', hr', hkey⟩ | ⟨-, rfl, rfl⟩
      · rw [List.findIdx?_eq_none_iff] at hnone
        exact absurd hkey (by simpa using hnone r' (List.mem_of_getElem? hr'))
      · refine kept_of_new (importChildren_extends (fun a ha => ?_) h)
        obtain ⟨f, -, rfl⟩ := List.mem_map.1 ha
        rfl
  · cases h
    exact .refl t

theorem importManifest_kept {cmd : ImportCommand} {m : ManifestImport}
    {p q : CatalogTables × RunTables} (h : importManifest ienv env cmd p m = .ok q) :
    Kept p.2 q.2 := by
  obtain ⟨manifest, -, h⟩ := bind_ok h
  split at h
  · cases h
    exact .refl _
  · obtain ⟨⟨tables, ids⟩, -, h⟩ := bind_ok h
    dsimp only at h
    split at h
    · cases h
      exact .refl _
    · obtain ⟨runs, hruns, h⟩ := bind_ok h
      cases h
      exact importRun_kept hruns

/-- An import adds runs and changes none. -/
theorem importCommand_kept (c : RunCatalog) (cmd : ImportCommand) :
    Kept c.runs (importCommand ienv env c cmd).runs := by
  unfold importCommand
  split
  · rename_i tables runs hok
    exact foldlM_invariant (P := fun p : CatalogTables × RunTables => Kept c.runs p.2) hok
      (.refl _) fun m _ p q hp hq => hp.trans (importManifest_kept hq)
  · exact .refl _

/-! ## The row of a run -/

/-- The row `import_one` writes; `publishedRun` is that of a publication. -/
def importedRun (cmd : ImportCommand) (planId : Nat) (report : Json) : AnalysisRun :=
  analysisRun planId cmd.softwareVersion cmd.gitRevision (reportSchema report)
    (reportGeneratedAt report) (reportGeneratedAt report)
    (reportVerdict report "verdict" "verdict_label") (reportAssessment report)

section Rows
variable {files : List RunFile}

/-- The row an import writes. -/
theorem importRun_row {cmd : ImportCommand} {plans planId : Nat} {eventId : String}
    (h : importRun env cmd plans t eventId planId files = .ok u) :
    u.runs = t.runs ∨ ∃ f report, findFile files "report.json" = some f ∧
      readJson env f "cannot read report" ("invalid report.json for " ++ eventId) = .ok report ∧
      u.runs = t.runs ++ [importedRun cmd planId report] := by
  unfold importRun at h
  split at h
  · rename_i f hf
    obtain ⟨report, hreport, h⟩ := bind_ok h
    obtain ⟨-, h⟩ := guard_ok h
    dsimp only at h
    split at h
    · split at h
      · cases h
      · cases h
        exact .inl rfl
    · obtain ⟨⟨t', runId⟩, hins, h⟩ := bind_ok h
      have hruns : u.runs = t'.runs := (importChildren_extends (fun a ha => by
        obtain ⟨f, -, rfl⟩ := List.mem_map.1 ha
        rfl) h).runs
      rcases insertRun_cases hins with ⟨rfl, -⟩ | ⟨-, rfl, -⟩
      · exact .inl hruns
      · exact .inr ⟨f, report, hf, hreport, hruns⟩
  · cases h
    exact .inl rfl

/-- The row a publication writes. -/
theorem importFinalizedRun_row {p : PublishInputs} {plans id : Nat}
    (h : importFinalizedRun env plans t files p = .ok (u, id)) :
    u.runs = t.runs ∨ ∃ report, readPublishedReport env files = .ok report ∧
      u.runs = t.runs ++ [publishedRun p report] := by
  obtain ⟨report, hreport, h⟩ := bind_ok h
  obtain ⟨⟨t', runId⟩, hins, h⟩ := bind_ok h
  obtain ⟨u', hchildren, h⟩ := bind_ok h
  cases h
  have hruns : u.runs = t'.runs := (importChildren_extends (fun a ha => by
    obtain ⟨f, -, rfl⟩ := List.mem_map.1 ha
    rfl) hchildren).runs
  rcases insertRun_cases (mapError_ok_iff.1 hins) with ⟨rfl, -⟩ | ⟨-, rfl, -⟩
  · exact .inl hruns
  · exact .inr ⟨report, hreport, hruns⟩

end Rows

/-! ## Publications -/

def Publication.key (p : Publication) : Nat × String :=
  (p.inputs.planRevisionId, p.inputs.runStartedAt)

/-- The publication gets through: its directory is free and can be moved there, and its files
can be read. -/
def Publication.Lands (env : RunEnv) (c : RunCatalog) (p : Publication) : Prop :=
  p.inputs.dir ∉ c.finalDirs ∧ p.move = .ok () ∧ (readPublishedReport env p.files).isOk = true ∧
    summariesReadable env p.files = true

theorem publishedRun_key (p : Publication) (report : Json) :
    (publishedRun p.inputs report).key = p.key := rfl

theorem publishStagedRun_ok {p : Publication} {id : Nat} (h : (publishStagedRun env c p).2 = .ok id) :
    p.inputs.dir ∉ c.finalDirs ∧ p.move = .ok () ∧
      importFinalizedRun env c.tables.plans.length c.runs p.files p.inputs
        = .ok ((publishStagedRun env c p).1.runs, id) := by
  unfold publishStagedRun at h ⊢
  split at h
  · cases h
  · rename_i hfree
    simp only [hfree, if_false, not_false_eq_true, true_and]
    split at h
    · cases h
    · rename_i hmove
      refine ⟨hmove, ?_⟩
      split at h
      · rename_i runs runId hok
        cases h
        simpa using hok
      · cases h

theorem importFinalizedRun_cases {p : Publication} {plans id : Nat}
    (h : importFinalizedRun env plans t p.files p.inputs = .ok (u, id)) :
    (readPublishedReport env p.files).isOk = true ∧ summariesReadable env p.files = true ∧
      ((∃ r', t.runs[id]? = some r' ∧ r'.key = p.key) ∨
        ((∀ r' ∈ t.runs, r'.key ≠ p.key) ∧ id = t.runs.length ∧ Kept t u ∧
          ∃ r', u.runs[id]? = some r' ∧ r'.key = p.key)) := by
  obtain ⟨report, hreport, h⟩ := bind_ok h
  obtain ⟨⟨t', runId⟩, hins, h⟩ := bind_ok h
  obtain ⟨u', hchildren, h⟩ := bind_ok h
  cases h
  refine ⟨isOk_iff.2 ⟨report, hreport⟩, importChildren_readable hchildren, ?_⟩
  rcases insertRun_cases (mapError_ok_iff.1 hins) with ⟨-, r', hr', hkey⟩ | ⟨hfresh, rfl, rfl⟩
  · exact .inl ⟨r', hr', hkey⟩
  · have hext := importChildren_extends (fun a ha => by
      obtain ⟨f, -, rfl⟩ := List.mem_map.1 ha
      rfl) hchildren
    refine .inr ⟨hfresh, rfl, kept_of_new hext, publishedRun p.inputs report, ?_, rfl⟩
    rw [hext.runs]
    simp

/-- A publication that lands on the key of a run gets the id of that run. -/
theorem importFinalizedRun_collides {p : Publication} (plans : Nat) {r : AnalysisRun}
    (hreport : (readPublishedReport env p.files).isOk = true)
    (hsum : summariesReadable env p.files = true) (hr : r ∈ t.runs) (hkey : r.key = p.key) :
    ∃ u, ∃ id < t.runs.length,
      importFinalizedRun env plans t p.files p.inputs = .ok (u, id) := by
  obtain ⟨report, hreport⟩ := isOk_iff.1 hreport
  have hins : ∃ id < t.runs.length,
      t.insertRun plans (publishedRun p.inputs report) = .ok (t, id) := by
    unfold RunTables.insertRun
    cases hi : t.runs.findIdx? fun r' => decide (r'.key = (publishedRun p.inputs report).key) with
    | none =>
      rw [List.findIdx?_eq_none_iff] at hi
      exact absurd (hkey.trans (publishedRun_key p report).symm) (by simpa using hi r hr)
    | some id => exact ⟨id, (List.findIdx?_eq_some_iff_getElem.mp hi).1, rfl⟩
  obtain ⟨id, hlt, hins⟩ := hins
  obtain ⟨u, hu⟩ := importChildren_isOk hsum (fun what => "cannot import " ++ what ++ ": ") t id
    ((sortedFiles p.files).map (artifactRow env (p.inputs.relativeDir ++ "/")
      p.inputs.runCompletedAt (reportSchema report) id))
  refine ⟨u, id, hlt, ?_⟩
  simp only [importFinalizedRun, hreport, hins, bind, Except.bind, Except.mapError, hu, pure,
    Except.pure]

/-- A publication that fails writes no row. -/
theorem publishStagedRun_error {p : Publication} {e : String}
    (h : (publishStagedRun env c p).2 = .error e) : (publishStagedRun env c p).1.runs = c.runs := by
  unfold publishStagedRun at h ⊢
  split at h
  · simp only [*, if_true]
  · rename_i hfree
    simp only [hfree, if_false]
    split at h
    · rfl
    · split at h
      · cases h
      · simp only [*]

/-! ## Over a history -/

/-- The promise at one step: earlier runs keep their records, and the id a publication returns
is that of a new row, with the plan and the start time of the publication. -/
structure RunsImmutable (ienv : ImportEnv) (env : RunEnv) (c : RunCatalog) (op : CatalogOp) :
    Prop where
  kept : Kept c.runs (c.step ienv env op).runs
  fresh : ∀ p, op = .publish p → ∀ id, (publishStagedRun env c p).2 = .ok id →
    c.runs.runs[id]? = none ∧ ∃ r, (c.step ienv env op).runs.runs[id]? = some r ∧ r.key = p.key

theorem publish_kept {p : Publication}
    (hfree : p.Lands env c → ∀ r ∈ c.runs.runs, r.key ≠ p.key) :
    RunsImmutable ienv env c (.publish p) := by
  cases hres : (publishStagedRun env c p).2 with
  | error e =>
    refine ⟨?_, ?_⟩
    · rw [RunCatalog.step, publishStagedRun_error hres]
      exact .refl _
    · rintro _ ⟨⟩ id hid
      rw [hres] at hid
      cases hid
  | ok id =>
    obtain ⟨hdir, hmove, himport⟩ := publishStagedRun_ok hres
    obtain ⟨hreport, hsum, hcases⟩ := importFinalizedRun_cases himport
    have hno := hfree ⟨hdir, hmove, hreport, hsum⟩
    rcases hcases with ⟨r', hr', hkey⟩ | ⟨-, rfl, hkept, hrow⟩
    · exact absurd hkey (hno r' (List.mem_of_getElem? hr'))
    · refine ⟨hkept, ?_⟩
      rintro _ ⟨⟩ id hid
      obtain rfl : c.runs.runs.length = id := Except.ok.inj (hres.symm.trans hid)
      exact ⟨by simp, hrow⟩

/-- When the promise holds at every step of a history: no publication that lands finds a run of
its plan with its start time. -/
theorem runsImmutable_iff (ienv : ImportEnv) (env : RunEnv) (ops : List CatalogOp) :
    (∀ pre op post, ops = pre ++ op :: post →
      RunsImmutable ienv env (run (RunCatalog.step ienv env) .empty pre) op) ↔
    ∀ pre p post, ops = pre ++ .publish p :: post →
      p.Lands env (run (RunCatalog.step ienv env) .empty pre) →
      ∀ r ∈ (run (RunCatalog.step ienv env) .empty pre).runs.runs, r.key ≠ p.key := by
  constructor
  · intro h pre p post hops hlands r hr hkey
    obtain ⟨hdir, hmove, hreport, hsum⟩ := hlands
    obtain ⟨u, id, hlt, hok⟩ := importFinalizedRun_collides
      (run (RunCatalog.step ienv env) .empty pre).tables.plans.length hreport hsum hr hkey
    have hres : (publishStagedRun env (run (RunCatalog.step ienv env) .empty pre) p).2 = .ok id := by
      simp only [publishStagedRun, hdir, if_false, hmove, hok]
    have hnone := ((h pre (.publish p) post hops).fresh p rfl id hres).1
    rw [List.getElem?_eq_getElem hlt] at hnone
    cases hnone
  · intro h pre op post hops
    cases op with
    | publish p => exact publish_kept (h pre p post hops)
    | importRepository cmd => exact ⟨importCommand_kept _ cmd, by rintro _ ⟨⟩⟩

/-! ### Two jobs that started in the same second -/

namespace SameSecond

/-- One event; texts are their own hashes. -/
def manifestEnv : ImportEnv where
  parse _ := .ok {
    eventId := "E"
    revision := 1
    schemaVersion := 2
    eventWindowUtc := ⟨"2026-07-30T09:25:00Z", "2026-07-30T09:47:00Z"⟩
    isOpen := false
    analysisEndUtc := none
    warmupMinutes := 60
    cooldownMinutes := 60
    target := ⟨"t", [3333], none, none,
      ⟨.reviewed, some (.containsAny [11537]), some ⟨"s", "a", "d"⟩⟩⟩
    collectors := ["route-views2"]
    sourceFamily := "RouteViews"
    analystNotes := [] }
  sha256 := id
  ticketTitle _ := none
  excluded _ := false

/-- The files named here by one letter each: the report, and a lifecycle of one stream. -/
def runEnv : RunEnv where
  readToString bytes := .ok (if bytes = [82] then "report" else "lifecycle")
  parseJson text := .ok (
    if text = "report" then .obj [("schema_version", .int 3)]
    else .obj [("lifecycles", .arr [.obj [("collector", .str "route-views2")]])])
  sha256Bytes _ := "sha"

def files : List RunFile := [⟨"report.json", [82]⟩, ⟨"lifecycle.json", [76]⟩]

def job (jobId completedAt : String) : Publication where
  files := files
  inputs := ⟨"catalog", jobId, 0, "E", "0.1.0", none, "2026-07-31T10:00:00Z", completedAt⟩
  move := .ok ()

/-- The manifest is imported and the first job published. -/
def history : List CatalogOp :=
  [.importRepository ⟨"0.1.0", none, [⟨⟨"manifests/E.json", "text", none, none⟩, none⟩]⟩,
    .publish (job "job-1" "2026-07-31T10:05:00Z")]

def published : RunCatalog := run (RunCatalog.step manifestEnv runEnv) .empty history

def second : Publication := job "job-2" "2026-07-31T10:07:00Z"

end SameSecond

open SameSecond in
/-- **Bug**: the second job is given the first job's run, and that run has from then on the files
and the stream of both. -/
theorem second_job_joins_first_run :
    (publishStagedRun runEnv published second).2 = .ok 0 ∧
      (published.runs.record 0).artifacts.length = 2 ∧
      (published.runs.record 0).streams.length = 1 ∧
      ((publishStagedRun runEnv published second).1.runs.record 0).artifacts.length = 4 ∧
      ((publishStagedRun runEnv published second).1.runs.record 0).streams.length = 2 ∧
      ¬∀ pre op post, history ++ [.publish second] = pre ++ op :: post →
        RunsImmutable manifestEnv runEnv (run (RunCatalog.step manifestEnv runEnv) .empty pre) op := by
  have hid : (publishStagedRun runEnv published second).2 = .ok 0 := by decide +kernel
  have hrow : published.runs.runs[0]? ≠ none := by decide +kernel
  refine ⟨hid, by decide +kernel, by decide +kernel, by decide +kernel, by decide +kernel, ?_⟩
  intro h
  exact hrow ((h history (.publish second) [] rfl).fresh second rfl 0 hid).1

end Inim
