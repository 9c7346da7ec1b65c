import Inim.Catalog.PlanIdentity
import Inim.Catalog.RunImmutability
/-!
# All or nothing, and once or twice (`catalog/import.rs:46-130`)

`import_repository` works through the manifests in one transaction: the first manifest or artifact
that is rejected drops it. An import that went through can be repeated. Every insert of
`catalog/store.rs` looks for its key first, `upsert_event` writes one constant to `last_seen`, and
the run of a report is not written again once its key is there.

`Landed` is what a manifest leaves in the tables. Later manifests of the import keep it, as tables
only grow, and where it holds the manifest writes nothing.
-/

namespace Inim

open Lib

/-- `seen_at` of every import. -/
def importSeenAt : String := "2026-07-31T00:00:00Z"

/-- The keys of a manifest's rows are there, under `ids`; so is the run of its report. -/
structure Landed (ienv : ImportEnv) (env : RunEnv) (p : CatalogTables × RunTables) (m : ManifestImport)
    (manifest : Manifest) (ids : ImportedIds) : Prop where
  event : p.1.eventKeys.findIdx? (fun k => decide (k = ("local-repository", manifest.eventId))) =
    some ids.event
  seen : ∀ e, p.1.events[ids.event]? = some e → e.lastSeen = importSeenAt
  snapshot : p.1.snapshots.findIdx? (fun s => decide (s.key =
    (eventSnapshot ienv manifest m.input ids.event).key)) = some ids.snapshot
  revision : p.1.manifestRevisions.findIdx? (fun r => decide (r.sha256 =
    (manifestRevision ienv manifest m.input ids.event ids.snapshot).sha256)) =
    some ids.manifestRevision
  plan : p.1.plans.findIdx? (fun q => decide (q.sha256 =
    (buildPlanRecord ienv ids.manifestRevision manifest true).sha256)) = some ids.plan
  run : ∀ files f report, m.output = some files → findFile files "report.json" = some f →
    readJson env f "cannot read report" ("invalid report.json for " ++ manifest.eventId) =
      .ok report →
    ∃ runId, p.2.runs.findIdx? (fun r => decide (r.key = (ids.plan, reportGeneratedAt report))) =
      some runId

/-! ## The writes of a manifest -/

section Write
variable {ienv : ImportEnv} {c : CatalogTables} {manifest : Manifest} {i : ImportInput}

/-- The event an upsert returns was seen now. -/
theorem upsertEvent_seen (kind ext seen : String) (e : CatalogEvent)
    (h : (upsertEvent c kind ext seen).1.events[(upsertEvent c kind ext seen).2]? = some e) :
    e.lastSeen = seen := by
  unfold upsertEvent at h
  split at h
  · simp only [List.getElem?_modify_eq, Option.map_eq_map, Option.map_eq_some_iff] at h
    obtain ⟨e', -, rfl⟩ := h
    rfl
  · simp only [List.getElem?_concat_length, Option.some.injEq] at h
    rw [← h]

/-- Another upsert with the same time does not take it back. -/
theorem upsertEvent_keeps_seen {seen : String} {id : Nat}
    (h : ∀ e, c.events[id]? = some e → e.lastSeen = seen) (hid : id < c.events.length)
    (kind ext : String) (e : CatalogEvent)
    (he : (upsertEvent c kind ext seen).1.events[id]? = some e) : e.lastSeen = seen := by
  unfold upsertEvent at he
  split at he
  · simp only [List.getElem?_modify, Option.map_eq_map] at he
    rw [List.getElem?_eq_getElem hid, Option.map_some, Option.some.injEq] at he
    split at he
    · rw [← he]
    · rw [← he]
      exact h _ (List.getElem?_eq_getElem hid)
  · rw [List.getElem?_append_left hid] at he
    exact h e he

/-- An upsert of an event that was last seen then changes nothing. -/
theorem upsertEvent_present {kind ext seen : String} {id : Nat}
    (h : c.eventKeys.findIdx? (fun k => decide (k = (kind, ext))) = some id)
    (hseen : ∀ e, c.events[id]? = some e → e.lastSeen = seen) :
    upsertEvent c kind ext seen = (c, id) := by
  rw [CatalogTables.eventKeys, List.findIdx?_map] at h
  have hevents : c.events.modify id (fun e => { e with lastSeen := seen }) = c.events := by
    refine List.ext_getElem? fun j => ?_
    rw [List.getElem?_modify]
    by_cases hj : id = j
    · subst hj
      cases he : c.events[id]? with
      | none => rfl
      | some e =>
        rw [← hseen e he]
        simp
    · simp [hj]
  have hfind : c.events.findIdx? (fun e => decide (e.key = (kind, ext))) = some id := h
  rw [upsertEvent, hfind]
  simp only [hevents]

theorem writeManifest_events (ienv : ImportEnv) (c : CatalogTables) (manifest : Manifest)
    (i : ImportInput) : (writeManifest ienv c manifest i).1.events =
      (upsertEvent c "local-repository" manifest.eventId importSeenAt).1.events ∧
    (writeManifest ienv c manifest i).2.event =
      (upsertEvent c "local-repository" manifest.eventId importSeenAt).2 := ⟨rfl, rfl⟩

/-- Where a manifest's rows are there, writing it changes nothing. -/
theorem writeManifest_landed {env : RunEnv} {p : CatalogTables × RunTables} {m : ManifestImport}
    {ids : ImportedIds} (h : Landed ienv env p m manifest ids) :
    writeManifest ienv p.1 manifest m.input = (p.1, ids) := by
  have hup : upsertEvent p.1 "local-repository" manifest.eventId "2026-07-31T00:00:00Z" =
      (p.1, ids.event) := upsertEvent_present h.event h.seen
  have hsnap : insertSnapshot p.1 (eventSnapshot ienv manifest m.input ids.event) =
      (p.1, ids.snapshot) := by
    rw [insertSnapshot, insertUnique_present h.snapshot]
  have hrev : insertManifestRevision p.1
      (manifestRevision ienv manifest m.input ids.event ids.snapshot) =
      (p.1, ids.manifestRevision) := by
    rw [insertManifestRevision, insertUnique_present h.revision]
  have hplan : insertPlan p.1 (buildPlanRecord ienv ids.manifestRevision manifest true) =
      (p.1, ids.plan) := by
    rw [insertPlan, insertUnique_present h.plan]
  simp only [writeManifest, hup, hsnap, hrev, hplan]

end Write

/-! ## One manifest -/

section Manifest
variable {ienv : ImportEnv} {env : RunEnv} {cmd : ImportCommand} {m : ManifestImport}
  {p q : CatalogTables × RunTables}

/-- What a manifest that loads and is in scope leaves is in the tables. -/
def Settled (ienv : ImportEnv) (env : RunEnv) (p : CatalogTables × RunTables) (m : ManifestImport) :
    Prop :=
  ∀ manifest, loadManifest ienv m.input = .ok manifest → ienv.excluded manifest = false →
    ∃ ids, Landed ienv env p m manifest ids

/-- A round of the loop: nothing for a manifest out of scope, else its rows and its run. -/
theorem importManifest_cases (h : importManifest ienv env cmd p m = .ok q) :
    ∃ manifest, loadManifest ienv m.input = .ok manifest ∧
      (ienv.excluded manifest = true ∧ q = p ∨
        ienv.excluded manifest = false ∧ q.1 = (writeManifest ienv p.1 manifest m.input).1 ∧
        (m.output = none ∧ q.2 = p.2 ∨ ∃ files, m.output = some files ∧
          importRun env cmd q.1.plans.length p.2 manifest.eventId
            (writeManifest ienv p.1 manifest m.input).2.plan files = .ok q.2)) := by
  obtain ⟨manifest, hload, h⟩ := bind_ok h
  have hload := mapError_ok_iff.1 hload
  refine ⟨manifest, hload, ?_⟩
  split at h
  · next hex =>
    cases h
    exact .inl ⟨hex, rfl⟩
  · next hex =>
    obtain ⟨⟨tables, ids⟩, hone, h⟩ := bind_ok h
    obtain ⟨manifest', hload', hone⟩ := bind_ok hone
    rw [hload] at hload'
    cases hload'
    obtain ⟨-, hone⟩ := guard_ok hone
    cases hone
    refine .inr ⟨by simpa using hex, ?_⟩
    dsimp only at h
    split at h
    · next hout =>
      cases h
      exact ⟨rfl, .inl ⟨hout, rfl⟩⟩
    · next files hout =>
      obtain ⟨runs, hruns, h⟩ := bind_ok h
      cases h
      exact ⟨rfl, .inr ⟨files, hout, hruns⟩⟩

/-- Runs are only added, and where the report can be read its run is there. -/
theorem importRun_initial {plans planId : Nat} {t u : RunTables} {eventId : String}
    {files : List RunFile} (h : importRun env cmd plans t eventId planId files = .ok u) :
    t.runs <+: u.runs := by
  rcases importRun_row h with hruns | ⟨-, report, -, -, hruns⟩
  · rw [hruns]
  · rw [hruns]
    exact List.prefix_append ..

/-- After the import of a report its run is there. -/
theorem importRun_lands {plans planId : Nat} {t u : RunTables} {eventId : String}
    {files : List RunFile} {f : RunFile} {report : Json}
    (h : importRun env cmd plans t eventId planId files = .ok u)
    (hf : findFile files "report.json" = some f)
    (hread : readJson env f "cannot read report" ("invalid report.json for " ++ eventId) = .ok report) :
    ∃ runId, u.runs.findIdx? (fun r => decide (r.key = (planId, reportGeneratedAt report))) =
      some runId := by
  unfold importRun at h
  rw [hf] at h
  obtain ⟨report', hread', h⟩ := bind_ok h
  rw [hread] at hread'
  cases hread'
  obtain ⟨-, h⟩ := guard_ok h
  dsimp only at h
  split at h
  · rename_i runId hid
    split at h
    · cases h
    · cases h
      exact ⟨runId, hid⟩
  · rename_i hnone
    obtain ⟨⟨t', runId⟩, hins, h⟩ := bind_ok h
    have hruns : u.runs = t'.runs := (importChildren_extends (fun a ha => by
      obtain ⟨f, -, rfl⟩ := List.mem_map.1 ha
      rfl) h).runs
    rcases RunTables.insertRun_cases hins with ⟨-, r', hr', hkey⟩ | ⟨-, rfl, -⟩
    · rw [List.findIdx?_eq_none_iff] at hnone
      exact absurd hkey (by simpa using hnone r' (List.mem_of_getElem? hr'))
    · refine ⟨t.runs.length, ?_⟩
      have hkey : (t.runs.findIdx? fun r => decide (r.key = (planId, reportGeneratedAt report))) =
          none := hnone
      rw [hruns, List.findIdx?_append, hkey]
      simp [AnalysisRun.key, analysisRun]

/-- Where the run is there, nothing is written. -/
theorem importRun_present {plans planId : Nat} {t u : RunTables} {eventId : String}
    {files : List RunFile}
    (hrun : ∀ f report, findFile files "report.json" = some f →
      readJson env f "cannot read report" ("invalid report.json for " ++ eventId) = .ok report →
      ∃ runId, t.runs.findIdx? (fun r => decide (r.key = (planId, reportGeneratedAt report))) =
        some runId)
    (h : importRun env cmd plans t eventId planId files = .ok u) : u = t := by
  unfold importRun at h
  split at h
  · rename_i f hf
    obtain ⟨report, hread, h⟩ := bind_ok h
    obtain ⟨-, h⟩ := guard_ok h
    dsimp only at h
    obtain ⟨runId, hid⟩ := hrun f report hf hread
    split at h
    · split at h
      · cases h
      · cases h
        rfl
    · next hnone =>
      have hkey : (t.runs.findIdx? fun r => decide (r.key = (planId, reportGeneratedAt report))) =
          none := hnone
      rw [hid] at hkey
      cases hkey
  · cases h
    rfl

/-! ## What a round leaves -/

theorem importManifest_settles (h : importManifest ienv env cmd p m = .ok q) :
    Settled ienv env q m := by
  obtain ⟨manifest, hload, hcase⟩ := importManifest_cases h
  intro manifest' hload' hin
  rw [hload] at hload'
  cases hload'
  rcases hcase with ⟨hex, -⟩ | ⟨-, htables, hrun⟩
  · rw [hex] at hin
    cases hin
  · refine ⟨(writeManifest ienv p.1 manifest m.input).2, ?_⟩
    obtain ⟨hkeys, hsnaps, hrevs, hplans, hids⟩ := writeManifest_parts ienv p.1 manifest m.input
    have hevents := writeManifest_events ienv p.1 manifest m.input
    refine ⟨?_, ?_, ?_, ?_, ?_, fun files f report hout hf hread => ?_⟩
    · rw [htables, hkeys, hids]
      exact findIdx?_insertUnique id _ p.1.eventKeys
    · rw [htables, hevents.1, hevents.2]
      exact upsertEvent_seen _ _ _
    · rw [htables, hsnaps, hids]
      exact findIdx?_insertUnique EventSnapshot.key _ p.1.snapshots
    · rw [htables, hrevs, hids]
      exact findIdx?_insertUnique ManifestRevision.sha256 _ p.1.manifestRevisions
    · rw [htables, hplans, hids]
      exact findIdx?_insertUnique AnalysisPlanRecord.sha256 _ p.1.plans
    · rcases hrun with ⟨hnone, -⟩ | ⟨files', hout', hruns⟩
      · rw [hnone] at hout
        cases hout
      · rw [hout] at hout'
        cases hout'
        exact importRun_lands hruns hf hread

/-- What a manifest left stays: later rounds only add, and see every event at the same time. -/
theorem Settled.importManifest {m' : ManifestImport} (hs : Settled ienv env p m)
    (h : importManifest ienv env cmd p m' = .ok q) : Settled ienv env q m := by
  obtain ⟨manifest', -, hcase⟩ := importManifest_cases h
  rcases hcase with ⟨-, rfl⟩ | ⟨-, htables, hrun⟩
  · exact hs
  · intro manifest hload hin
    obtain ⟨ids, hl⟩ := hs manifest hload hin
    have hgrows := writeManifest_grows ienv p.1 manifest' m'.input
    rw [← htables] at hgrows
    have hruns : p.2.runs <+: q.2.runs := by
      rcases hrun with ⟨-, hq⟩ | ⟨files, -, hruns⟩
      · rw [hq]
      · exact importRun_initial hruns
    refine ⟨ids, findIdx?_of_initial hgrows.events hl.event, fun e he => ?_,
      findIdx?_of_initial hgrows.snapshots hl.snapshot,
      findIdx?_of_initial hgrows.revisions hl.revision, findIdx?_of_initial hgrows.plans hl.plan,
      fun files f report hout hf hread => ?_⟩
    · rw [htables, (writeManifest_events ienv p.1 manifest' m'.input).1] at he
      have hlt : ids.event < p.1.events.length := by
        have := (List.findIdx?_eq_some_iff_getElem.mp hl.event).1
        simpa [CatalogTables.eventKeys] using this
      exact upsertEvent_keeps_seen hl.seen hlt _ _ e he
    · obtain ⟨runId, hid⟩ := hl.run files f report hout hf hread
      exact ⟨runId, findIdx?_of_initial hruns hid⟩

/-- Where it stands, the manifest writes nothing. -/
theorem Settled.again (hs : Settled ienv env p m) (h : Inim.importManifest ienv env cmd p m = .ok q) :
    q = p := by
  obtain ⟨manifest, hload, hcase⟩ := importManifest_cases h
  rcases hcase with ⟨-, hq⟩ | ⟨hin, htables, hrun⟩
  · exact hq
  · obtain ⟨ids, hl⟩ := hs manifest hload hin
    rw [writeManifest_landed hl] at htables hrun
    refine Prod.ext htables ?_
    rcases hrun with ⟨-, hq⟩ | ⟨files, hout, hruns⟩
    · exact hq
    · exact importRun_present (fun f report hf hread => hl.run files f report hout hf hread) hruns

end Manifest

/-! ## A whole import -/

section Import
variable (ienv : ImportEnv) (env : RunEnv)

/-- After the loop every manifest stands. -/
theorem settled_of_foldlM {cmd : ImportCommand} {ms : List ManifestImport}
    {p q : CatalogTables × RunTables} (h : ms.foldlM (importManifest ienv env cmd) p = .ok q) :
    ∀ m ∈ ms, Settled ienv env q m := by
  induction ms generalizing p with
  | nil => simp
  | cons m ms ih =>
    rw [List.foldlM_cons] at h
    obtain ⟨p', hp', hrest⟩ := bind_ok h
    refine List.forall_mem_cons.2 ⟨?_, ih hrest⟩
    exact foldlM_invariant (P := fun q => Settled ienv env q m) hrest (importManifest_settles hp')
      fun m' _ t t' ht hstep => ht.importManifest hstep

/-- The import of `cmd` into `c` is all or nothing, and repeating it adds nothing. -/
structure ImportAtomic (c : RunCatalog) (cmd : ImportCommand) : Prop where
  /-- A manifest that is rejected when its turn comes leaves the catalog as it was. -/
  rejected : ∀ pre m post p e, cmd.manifests = pre ++ m :: post →
    pre.foldlM (importManifest ienv env cmd) (c.tables, c.runs) = .ok p →
    importManifest ienv env cmd p m = .error e → importCommand ienv env c cmd = c
  /-- So does an artifact that an existing run has with another hash. -/
  conflict : ∀ pre m post p manifest written files f report runId a,
    cmd.manifests = pre ++ m :: post →
    pre.foldlM (importManifest ienv env cmd) (c.tables, c.runs) = .ok p →
    loadManifest ienv m.input = .ok manifest → ienv.excluded manifest = false →
    importOne ienv p.1 m.input = .ok written → m.output = some files →
    findFile files "report.json" = some f →
    readJson env f "cannot read report" ("invalid report.json for " ++ manifest.eventId) = .ok report →
    p.2.runs.findIdx? (fun r => decide (r.key = (written.2.plan, reportGeneratedAt report))) =
      some runId →
    conflicting p.2 ((sortedFiles files).map (artifactRow env (manifest.eventId ++ "/")
      "2026-07-31T00:00:00Z" (reportSchema report) runId)) = some a →
    importCommand ienv env c cmd = c
  /-- Again with the same content, by whatever version. -/
  again : ∀ p cmd', cmd.manifests.foldlM (importManifest ienv env cmd) (c.tables, c.runs) = .ok p →
    cmd'.manifests = cmd.manifests →
    importCommand ienv env (importCommand ienv env c cmd) cmd' = importCommand ienv env c cmd

variable {ienv env}

theorem importCommand_ok {c : RunCatalog} {cmd : ImportCommand} {p : CatalogTables × RunTables}
    (h : cmd.manifests.foldlM (importManifest ienv env cmd) (c.tables, c.runs) = .ok p) :
    importCommand ienv env c cmd = { c with tables := p.1, runs := p.2 } := by
  rw [importCommand, h]

theorem importCommand_error {c : RunCatalog} {cmd : ImportCommand} {pre post : List ManifestImport}
    {m : ManifestImport} {p : CatalogTables × RunTables} {e : String}
    (hsplit : cmd.manifests = pre ++ m :: post)
    (hpre : pre.foldlM (importManifest ienv env cmd) (c.tables, c.runs) = .ok p)
    (hm : importManifest ienv env cmd p m = .error e) : importCommand ienv env c cmd = c := by
  have hfold : cmd.manifests.foldlM (importManifest ienv env cmd) (c.tables, c.runs) = .error e := by
    rw [hsplit, List.foldlM_append, hpre]
    change (m :: post).foldlM (importManifest ienv env cmd) p = .error e
    rw [List.foldlM_cons, hm]
    rfl
  rw [importCommand, hfold]

theorem importRun_conflict (cmd : ImportCommand) (plans : Nat) {planId runId : Nat} {t : RunTables}
    {eventId : String} {files : List RunFile} {f : RunFile} {report : Json} {a : AnalysisArtifact}
    (hf : findFile files "report.json" = some f)
    (hread : readJson env f "cannot read report" ("invalid report.json for " ++ eventId) = .ok report)
    (hrun : t.runs.findIdx? (fun r => decide (r.key = (planId, reportGeneratedAt report))) =
      some runId)
    (hconflict : conflicting t ((sortedFiles files).map (artifactRow env (eventId ++ "/")
      "2026-07-31T00:00:00Z" (reportSchema report) runId)) = some a) :
    ∃ e, importRun env cmd plans t eventId planId files = .error e := by
  cases h : importRun env cmd plans t eventId planId files with
  | error e => exact ⟨e, rfl⟩
  | ok u =>
    exfalso
    unfold importRun at h
    rw [hf] at h
    obtain ⟨report', hread', h⟩ := bind_ok h
    rw [hread] at hread'
    cases hread'
    obtain ⟨-, h⟩ := guard_ok h
    dsimp only at h
    split at h
    · next runId' hid =>
      have hkey : t.runs.findIdx? (fun r => decide (r.key = (planId, reportGeneratedAt report))) =
          some runId' := hid
      rw [hrun] at hkey
      cases hkey
      rw [hconflict] at h
      cases h
    · next hnone =>
      have hkey : t.runs.findIdx? (fun r => decide (r.key = (planId, reportGeneratedAt report))) =
          none := hnone
      rw [hrun] at hkey
      cases hkey

/-- **An import is all or nothing, and idempotent.** -/
theorem importCommand_atomic (c : RunCatalog) (cmd : ImportCommand) :
    ImportAtomic ienv env c cmd := by
  refine ⟨fun pre m post p e hsplit hpre hm => importCommand_error hsplit hpre hm, ?_, ?_⟩
  · intro pre m post p manifest written files f report runId a hsplit hpre hload hin hone hout hf
      hread hrun hconflict
    cases hm : importManifest ienv env cmd p m with
    | error e => exact importCommand_error hsplit hpre hm
    | ok q =>
      obtain ⟨manifest', hload', hcase⟩ := importManifest_cases hm
      rw [hload] at hload'
      cases hload'
      rcases hcase with ⟨hex, -⟩ | ⟨-, -, ⟨hnone, -⟩ | ⟨files', hout', hok⟩⟩
      · rw [hex] at hin
        cases hin
      · rw [hnone] at hout
        cases hout
      · rw [hout] at hout'
        cases hout'
        have hwritten : written = writeManifest ienv p.1 manifest m.input := by
          obtain ⟨manifest', hload', hone⟩ := bind_ok hone
          rw [hload] at hload'
          cases hload'
          obtain ⟨-, hone⟩ := guard_ok hone
          cases hone
          rfl
        rw [← hwritten] at hok
        obtain ⟨e, he⟩ := importRun_conflict cmd q.1.plans.length hf hread hrun hconflict
        rw [he] at hok
        cases hok
  · intro p cmd' hok hsame
    rw [importCommand_ok hok]
    have hsettled := settled_of_foldlM ienv env hok
    unfold importCommand
    split
    · next tables runs hagain =>
      rw [hsame] at hagain
      have hq : (tables, runs) = p := foldlM_invariant (P := fun q => q = p) hagain rfl
        fun m hm t t' ht hstep => by
          subst ht
          exact (hsettled m hm).again hstep
      rw [← hq]
    · rfl

end Import

end Inim
