import Inim.Catalog.Import
import Inim.Lib.Guards
import Inim.Lib.Runs

/-!
# The plan a manifest revision gets

`insert_manifest_revision` and `insert_plan` return the row that has the hash already, and the
two hash different texts: a revision the whole manifest, a plan what `planPayload` keeps of it.
`importState_tracks` says what the tables hold after any imports: under each hash the row of the
first manifest with it. From there, an import obtains a plan of its own manifest exactly when no
earlier manifest with another text has the same plan text (`planIdentity_iff`).

**Bug**: an edit of the collectors, the window or the predicate without a new `revision` gets the
plan of the older manifest, and a job queued on it runs the older manifest
(`edited_manifest_gets_old_plan`). `CanonicalPlan`, hashed later in the same job, does tell the
two apart.
-/

namespace Inim

open Inim.Lib

/-! ## What imports write, in order -/

/-- A manifest that loaded, with the files it came with. -/
structure WrittenManifest where
  manifest : Manifest
  input : ImportInput
deriving DecidableEq, Repr

/-- What an import writes for the input: nothing for a manifest out of scope. -/
def writtenOf (env : ImportEnv) (i : ImportInput) : Option WrittenManifest :=
  match loadManifest env i with
  | .ok m => if env.excluded m then none else some ⟨m, i⟩
  | .error _ => none

/-- The import of the input does not fail. -/
def importable (env : ImportEnv) (i : ImportInput) : Bool :=
  match loadManifest env i with
  | .ok m => env.excluded m || !m.isOpen || cutoffBacked m i
  | .error _ => false

def ImportCall.commits (env : ImportEnv) (call : ImportCall) : Bool :=
  !call.aborts && call.inputs.all (importable env)

/-- The manifests written by the calls that committed. -/
def importHistory (env : ImportEnv) (calls : List ImportCall) : List WrittenManifest :=
  (calls.filter (·.commits env)).flatMap fun call => call.inputs.filterMap (writtenOf env)

namespace WrittenManifest

def eventKey (w : WrittenManifest) : String × String := ("local-repository", w.manifest.eventId)

def snapshotSha (env : ImportEnv) (w : WrittenManifest) : String :=
  (eventSnapshot env w.manifest w.input 0).contentSha256

def revisionSha (env : ImportEnv) (w : WrittenManifest) : String := env.sha256 w.input.payload

def planSha (env : ImportEnv) (w : WrittenManifest) : String :=
  env.sha256 (planPayload w.manifest true)

end WrittenManifest

/-! ## Tables only grow -/

structure Grows (c c' : CatalogTables) : Prop where
  events : c.eventKeys <+: c'.eventKeys
  snapshots : c.snapshots <+: c'.snapshots
  revisions : c.manifestRevisions <+: c'.manifestRevisions
  plans : c.plans <+: c'.plans

theorem Grows.refl (c : CatalogTables) : Grows c c :=
  ⟨List.prefix_rfl, List.prefix_rfl, List.prefix_rfl, List.prefix_rfl⟩

theorem Grows.trans {a b c : CatalogTables} (h : Grows a b) (h' : Grows b c) : Grows a c :=
  ⟨h.events.trans h'.events, h.snapshots.trans h'.snapshots, h.revisions.trans h'.revisions,
    h.plans.trans h'.plans⟩

section Write

variable (env : ImportEnv) (c : CatalogTables) (m : Manifest) (i : ImportInput)

/-- The tables and ids after each of the four writes. -/
theorem writeManifest_parts :
    let e := insertUnique id ("local-repository", m.eventId) c.eventKeys
    let s := insertUnique EventSnapshot.key (eventSnapshot env m i e.2) c.snapshots
    let r := insertUnique ManifestRevision.sha256 (manifestRevision env m i e.2 s.2)
      c.manifestRevisions
    let p := insertUnique AnalysisPlanRecord.sha256 (buildPlanRecord env r.2 m true) c.plans
    let c' := (writeManifest env c m i).1
    c'.eventKeys = e.1 ∧ c'.snapshots = s.1 ∧ c'.manifestRevisions = r.1 ∧ c'.plans = p.1
      ∧ (writeManifest env c m i).2 = ⟨e.2, s.2, r.2, p.2⟩ := by
  obtain ⟨h1, h2⟩ := upsertEvent_keys c "local-repository" m.eventId "2026-07-31T00:00:00Z"
  have hs : ∀ k x t, (upsertEvent c k x t).1.snapshots = c.snapshots := by
    intro k x t
    unfold upsertEvent
    split <;> rfl
  have hr : ∀ k x t, (upsertEvent c k x t).1.manifestRevisions = c.manifestRevisions := by
    intro k x t
    unfold upsertEvent
    split <;> rfl
  have hp : ∀ k x t, (upsertEvent c k x t).1.plans = c.plans := by
    intro k x t
    unfold upsertEvent
    split <;> rfl
  simp only [writeManifest, insertSnapshot, insertManifestRevision, insertPlan, hs, hr, hp, ← h2]
  exact ⟨h1, trivial, trivial, trivial, trivial⟩

theorem writeManifest_grows : Grows c (writeManifest env c m i).1 := by
  obtain ⟨he, hs, hr, hp, -⟩ := writeManifest_parts env c m i
  refine ⟨?_, ?_, ?_, ?_⟩
  · rw [he]; exact insertUnique_initial ..
  · rw [hs]; exact insertUnique_initial ..
  · rw [hr]; exact insertUnique_initial ..
  · rw [hp]; exact insertUnique_initial ..

end Write

/-! ## What the tables hold -/

/-- The row is what the import of `w` wrote: its text, its event, its snapshot. -/
def RevisionOf (env : ImportEnv) (c : CatalogTables) (w : WrittenManifest)
    (r : ManifestRevision) : Prop :=
  r.payload = w.input.payload ∧ c.eventKeys[r.eventId]? = some w.eventKey
    ∧ (c.snapshots[r.snapshotId]?).map EventSnapshot.key = some (r.eventId, w.snapshotSha env)

/-- The row belongs to a revision with the hash of `w`'s text. -/
def PlanOf (env : ImportEnv) (c : CatalogTables) (w : WrittenManifest)
    (p : AnalysisPlanRecord) : Prop :=
  (c.manifestRevisions[p.manifestRevisionId]?).map (·.sha256) = some (w.revisionSha env)

theorem map_getElem?_of_initial {α β : Type} {f : α → β} {t t' : List α} {j : Nat} {b : β}
    (h : t <+: t') (hj : (t[j]?).map f = some b) : (t'[j]?).map f = some b := by
  obtain ⟨a, ha, rfl⟩ := Option.map_eq_some_iff.mp hj
  rw [getElem?_of_initial h ha, Option.map_some]

theorem RevisionOf.grows {env : ImportEnv} {c c' : CatalogTables} (h : Grows c c')
    {w : WrittenManifest} {r : ManifestRevision} (hr : RevisionOf env c w r) :
    RevisionOf env c' w r :=
  ⟨hr.1, getElem?_of_initial h.events hr.2.1, map_getElem?_of_initial h.snapshots hr.2.2⟩

theorem PlanOf.grows {env : ImportEnv} {c c' : CatalogTables} (h : Grows c c')
    {w : WrittenManifest} {p : AnalysisPlanRecord} (hp : PlanOf env c w p) :
    PlanOf env c' w p :=
  map_getElem?_of_initial h.revisions hp

/-- The tables after writing the manifests `hist` in order. -/
structure TablesOf (env : ImportEnv) (hist : List WrittenManifest) (c : CatalogTables) : Prop where
  events : c.eventKeys.Nodup
  snapshots : (c.snapshots.map EventSnapshot.key).Nodup
  revisions : Tracks ManifestRevision.sha256 (·.revisionSha env) (RevisionOf env c) hist
    c.manifestRevisions
  plans : Tracks AnalysisPlanRecord.sha256 (·.planSha env) (PlanOf env c) hist c.plans

theorem TablesOf.empty (env : ImportEnv) : TablesOf env [] .empty :=
  ⟨List.nodup_nil, List.nodup_nil, .nil, .nil⟩

/-- What an import finds under the ids it obtains. -/
structure Obtained (env : ImportEnv) (hist : List WrittenManifest) (w : WrittenManifest)
    (c : CatalogTables) (ids : ImportedIds) : Prop where
  event : c.eventKeys[ids.event]? = some w.eventKey
  snapshot : (c.snapshots[ids.snapshot]?).map EventSnapshot.key
    = some (ids.event, w.snapshotSha env)
  revision : ∃ r, c.manifestRevisions[ids.manifestRevision]? = some r
    ∧ r.sha256 = w.revisionSha env ∧ RevisionOf env c (firstLike (·.revisionSha env) hist w) r
  plan : ∃ p, c.plans[ids.plan]? = some p ∧ PlanOf env c (firstLike (·.planSha env) hist w) p

theorem eventSnapshot_key (env : ImportEnv) (w : WrittenManifest) (eventId : Nat) :
    (eventSnapshot env w.manifest w.input eventId).key = (eventId, w.snapshotSha env) := by
  unfold WrittenManifest.snapshotSha eventSnapshot EventSnapshot.key
  split <;> rfl

/-- One import keeps the tables those of the history, and obtains rows under their keys. -/
theorem TablesOf.write {env : ImportEnv} {hist : List WrittenManifest} {c : CatalogTables}
    (h : TablesOf env hist c) (w : WrittenManifest) :
    TablesOf env (hist ++ [w]) (writeManifest env c w.manifest w.input).1
      ∧ Obtained env hist w (writeManifest env c w.manifest w.input).1
          (writeManifest env c w.manifest w.input).2 := by
  have hgrows := writeManifest_grows env c w.manifest w.input
  obtain ⟨he, hs, hr, hp, hids⟩ := writeManifest_parts env c w.manifest w.input
  rw [hids]
  generalize (writeManifest env c w.manifest w.input).1 = c' at *
  generalize hE : insertUnique id ("local-repository", w.manifest.eventId) c.eventKeys = E at *
  generalize hS : insertUnique EventSnapshot.key (eventSnapshot env w.manifest w.input E.2)
    c.snapshots = S at *
  generalize hR : insertUnique ManifestRevision.sha256
    (manifestRevision env w.manifest w.input E.2 S.2) c.manifestRevisions = R at *
  have hevent : c'.eventKeys[E.2]? = some w.eventKey := by
    rw [he, ← hE]
    simpa [WrittenManifest.eventKey] using insertUnique_key id w.eventKey c.eventKeys
  have hsnapshot : (c'.snapshots[S.2]?).map EventSnapshot.key = some (E.2, w.snapshotSha env) := by
    rw [hs, ← hS, insertUnique_key, eventSnapshot_key]
  -- the rows handed to the two inserts are those of `w`
  have hnewR : RevisionOf env c' w (manifestRevision env w.manifest w.input E.2 S.2) :=
    ⟨rfl, hevent, hsnapshot⟩
  have hnewP : PlanOf env c' w (buildPlanRecord env R.2 w.manifest true) := by
    unfold PlanOf buildPlanRecord
    rw [hr, ← hR, insertUnique_key]
    rfl
  have hrevisions := h.revisions.mono fun x r => RevisionOf.grows hgrows
  have hplans := h.plans.mono fun x p => PlanOf.grows hgrows
  refine ⟨⟨?_, ?_, ?_, ?_⟩, ⟨hevent, hsnapshot, ?_, ?_⟩⟩
  · rw [he, ← hE]
    have hnodup : (c.eventKeys.map id).Nodup := by simpa using h.events
    simpa using insertUnique_nodup hnodup
  · rw [hs, ← hS]
    exact insertUnique_nodup h.snapshots
  · rw [hr, ← hR]
    exact hrevisions.insert hnewR rfl
  · rw [hp]
    exact hplans.insert hnewP rfl
  · refine ⟨_, ?_, ?_, hrevisions.firstLike_rel hnewR rfl⟩
    · rw [hr, ← hR, insertUnique_row]
    · exact firstLike_key ManifestRevision.sha256 _ _
  · refine ⟨_, ?_, hplans.firstLike_rel hnewP rfl⟩
    rw [hp, insertUnique_row]

/-! ## Runs of imports -/

section Runs

variable {env : ImportEnv} {c c' : CatalogTables} {i : ImportInput}

theorem importOne_ok {ids : ImportedIds} (h : importOne env c i = .ok (c', ids)) :
    ∃ m, loadManifest env i = .ok m ∧ (m.isOpen && !cutoffBacked m i) = false
      ∧ (c', ids) = writeManifest env c m i := by
  unfold importOne at h
  obtain ⟨m, hm, h⟩ := bind_ok h
  obtain ⟨hc, h⟩ := guard_ok h
  exact ⟨m, hm, by simpa using hc, (Except.ok.inj h).symm⟩

/-- A round of the loop succeeds on the importable inputs, and writes what `writtenOf` says. -/
theorem importStep_eq (env : ImportEnv) (c : CatalogTables) (i : ImportInput) :
    (importable env i = false ∧ ∃ e, importStep env c i = .error e) ∨
    (importable env i = true ∧ importStep env c i = .ok
      (match writtenOf env i with
        | some w => (writeManifest env c w.manifest w.input).1
        | none => c)) := by
  unfold importStep importable writtenOf importOne
  cases hm : loadManifest env i with
  | error e => exact .inl ⟨rfl, _, rfl⟩
  | ok m =>
    simp only [Except.mapError, bind, Except.bind]
    cases env.excluded m with
    | true => exact .inr ⟨rfl, rfl⟩
    | false =>
      cases ho : m.isOpen <;> cases hb : cutoffBacked m i
      · exact .inr ⟨rfl, rfl⟩
      · exact .inr ⟨rfl, rfl⟩
      · exact .inl ⟨rfl, _, rfl⟩
      · exact .inr ⟨rfl, rfl⟩

theorem TablesOf.step {hist : List WrittenManifest} (h : TablesOf env hist c)
    (hi : importStep env c i = .ok c') :
    TablesOf env (hist ++ (writtenOf env i).toList) c' ∧ Grows c c' := by
  rcases importStep_eq env c i with ⟨-, e, he⟩ | ⟨-, he⟩
  · rw [he] at hi
    cases hi
  · rw [he] at hi
    cases hi
    cases writtenOf env i with
    | none => simpa using ⟨h, Grows.refl c⟩
    | some w => exact ⟨(h.write w).1, writeManifest_grows ..⟩

theorem TablesOf.importRepository {hist : List WrittenManifest} {inputs : List ImportInput}
    (h : TablesOf env hist c) (hi : importRepository env c inputs = .ok c') :
    TablesOf env (hist ++ inputs.filterMap (writtenOf env)) c' ∧ Grows c c' := by
  unfold Inim.importRepository at hi
  induction inputs generalizing c hist with
  | nil =>
    cases hi
    simpa using ⟨h, Grows.refl _⟩
  | cons i inputs ih =>
    rw [List.foldlM_cons] at hi
    obtain ⟨d, hd, hi⟩ := bind_ok hi
    obtain ⟨hstep, hgrow⟩ := h.step hd
    obtain ⟨hrest, hgrow'⟩ := ih hstep hi
    refine ⟨?_, hgrow.trans hgrow'⟩
    rw [List.append_assoc] at hrest
    cases hw : writtenOf env i <;> simpa [hw] using hrest

/-- The import of a batch succeeds when all its inputs are importable, and only then. -/
theorem importRepository_isOk (env : ImportEnv) (c : CatalogTables) (inputs : List ImportInput) :
    (∃ c', importRepository env c inputs = .ok c') ↔ inputs.all (importable env) := by
  unfold importRepository
  induction inputs generalizing c with
  | nil => exact ⟨fun _ => rfl, fun _ => ⟨c, rfl⟩⟩
  | cons i inputs ih =>
    rw [List.foldlM_cons, List.all_cons, Bool.and_eq_true]
    rcases importStep_eq env c i with ⟨hno, e, he⟩ | ⟨hyes, he⟩
    · rw [he, hno]
      simp [bind, Except.bind]
    · rw [he, hyes]
      simpa [bind, Except.bind] using ih _

theorem TablesOf.call {hist : List WrittenManifest} (h : TablesOf env hist c)
    (call : ImportCall) :
    TablesOf env (hist ++ importHistory env [call]) (ImportCall.step env c call)
      ∧ Grows c (ImportCall.step env c call) := by
  have hok := importRepository_isOk env c call.inputs
  unfold ImportCall.step importHistory ImportCall.commits
  cases hi : Inim.importRepository env c call.inputs with
  | error e =>
    have hall : call.inputs.all (importable env) = false := by
      rw [← Bool.not_eq_true, ← hok, hi]
      simp
    simpa [hall] using ⟨h, Grows.refl c⟩
  | ok d =>
    have hall : call.inputs.all (importable env) = true := hok.mp ⟨d, hi⟩
    cases ha : call.aborts with
    | true => simpa [ha] using ⟨h, Grows.refl c⟩
    | false => simpa [ha, hall] using h.importRepository hi

theorem importHistory_concat (env : ImportEnv) (calls : List ImportCall) (call : ImportCall) :
    importHistory env (calls ++ [call]) = importHistory env calls ++ importHistory env [call] := by
  simp [importHistory]

/-- After any calls the tables hold what the committed ones wrote. -/
theorem importState_tracks (env : ImportEnv) (calls : List ImportCall) :
    TablesOf env (importHistory env calls) (run (ImportCall.step env) .empty calls) := by
  induction calls using List.reverseRecOn with
  | nil => exact .empty env
  | append_singleton calls call ih =>
    rw [run_concat, importHistory_concat]
    exact (ih.call call).1

theorem importRun_grows {hist : List WrittenManifest} (h : TablesOf env hist c)
    (calls : List ImportCall) : Grows c (run (ImportCall.step env) c calls) := by
  refine run_rel (P := fun c => ∃ hist, TablesOf env hist c) ⟨hist, h⟩ ?_ Grows.refl
    Grows.trans ?_ calls
  · rintro c call ⟨hist, h⟩
    exact ⟨_, (h.call call).1⟩
  · rintro c call ⟨hist, h⟩
    exact (h.call call).2

end Runs

/-! ## Plan identity -/

/-- The plan is one of the revision, and the revision's row and what a worker reads through the
plan are the input's. -/
def PlanIdentity (c : CatalogTables) (i : ImportInput) (ids : ImportedIds) : Prop :=
  (c.plans[ids.plan]?).map (·.manifestRevisionId) = some ids.manifestRevision
    ∧ (c.manifestRevisions[ids.manifestRevision]?).map
        (fun r => (r.payload, r.eventId, r.snapshotId)) = some (i.payload, ids.event, ids.snapshot)
    ∧ manifestPayloadForPlan c ids.plan = some i.payload

instance (c : CatalogTables) (i : ImportInput) (ids : ImportedIds) :
    Decidable (PlanIdentity c i ids) :=
  inferInstanceAs (Decidable (_ ∧ _ ∧ _))

/-- Among the manifests written before, the first with the text hash of `w` has its text and its
snapshot, and the first with the plan text of `w` has its text hash. -/
def PlanIdentified (env : ImportEnv) (hist : List WrittenManifest) (w : WrittenManifest) : Prop :=
  let sameText := firstLike (·.revisionSha env) hist w
  sameText.input.payload = w.input.payload ∧ sameText.eventKey = w.eventKey
    ∧ sameText.snapshotSha env = w.snapshotSha env
    ∧ (firstLike (·.planSha env) hist w).revisionSha env = w.revisionSha env

instance (env : ImportEnv) (hist : List WrittenManifest) (w : WrittenManifest) :
    Decidable (PlanIdentified env hist w) :=
  inferInstanceAs (Decidable (_ ∧ _ ∧ _ ∧ _))

theorem Obtained.grows {env : ImportEnv} {hist : List WrittenManifest} {w : WrittenManifest}
    {c c' : CatalogTables} {ids : ImportedIds} (h : Obtained env hist w c ids) (hg : Grows c c') :
    Obtained env hist w c' ids := by
  obtain ⟨he, hs, ⟨r, hr, hsha, hrow⟩, ⟨p, hp, hprow⟩⟩ := h
  exact ⟨getElem?_of_initial hg.events he, map_getElem?_of_initial hg.snapshots hs,
    ⟨r, getElem?_of_initial hg.revisions hr, hsha, hrow.grows hg⟩,
    ⟨p, getElem?_of_initial hg.plans hp, hprow.grows hg⟩⟩

theorem Obtained.ids_iff {env : ImportEnv} {hist hist' : List WrittenManifest}
    {w : WrittenManifest} {c : CatalogTables} {ids : ImportedIds} (h : Obtained env hist w c ids)
    (ht : TablesOf env hist' c) : PlanIdentity c w.input ids ↔ PlanIdentified env hist w := by
  obtain ⟨he, hs, ⟨r, hr, hsha, hpay, hrev, hrsnap⟩, ⟨p, hp, hprow⟩⟩ := h
  obtain ⟨s, hsat, hskey⟩ := Option.map_eq_some_iff.mp hs
  obtain ⟨s', hsat', hskey'⟩ := Option.map_eq_some_iff.mp hrsnap
  obtain ⟨r', hr', hsha'⟩ := Option.map_eq_some_iff.mp hprow
  -- ids are equal when the keys under them are
  have hplan : p.manifestRevisionId = ids.manifestRevision
      ↔ (firstLike (·.planSha env) hist w).revisionSha env = w.revisionSha env := by
    constructor
    · intro e
      rw [e, hr] at hr'
      cases hr'
      rw [← hsha', hsha]
    · intro e
      exact id_eq_of_key ht.revisions.unique hr' hr (by rw [hsha', e, hsha])
  have hevent : r.eventId = ids.event
      ↔ (firstLike (·.revisionSha env) hist w).eventKey = w.eventKey := by
    constructor
    · intro e
      rw [e, he] at hrev
      exact (Option.some.inj hrev).symm
    · intro e
      have hunique : (c.eventKeys.map id).Nodup := by simpa using ht.events
      exact id_eq_of_key hunique hrev he e
  have hsnapshot : r.eventId = ids.event → (r.snapshotId = ids.snapshot
      ↔ (firstLike (·.revisionSha env) hist w).snapshotSha env = w.snapshotSha env) := by
    intro ev
    constructor
    · intro e
      rw [e, hsat] at hsat'
      cases hsat'
      rw [hskey] at hskey'
      exact (Prod.mk.inj hskey').2.symm
    · intro e
      exact id_eq_of_key ht.snapshots hsat' hsat (by rw [hskey', hskey, ev, e])
  unfold PlanIdentity PlanIdentified manifestPayloadForPlan
  rw [hp, hr, Option.map_some, Option.map_some]
  simp only [Option.some.injEq, Prod.mk.injEq, hpay, Option.bind_eq_bind, Option.bind_some]
  constructor
  · rintro ⟨h1, ⟨h2, h3, h4⟩, -⟩
    exact ⟨h2, hevent.mp h3, (hsnapshot h3).mp h4, hplan.mp h1⟩
  · rintro ⟨h2, h3, h4, h1⟩
    refine ⟨hplan.mpr h1, ⟨h2, hevent.mpr h3, (hsnapshot (hevent.mpr h3)).mpr h4⟩, ?_⟩
    rw [hplan.mpr h1, hr, Option.bind_some, hpay, h2]
    rfl

/-- The plan an import obtains, after any calls and the manifests before it in its own, and at
any later time. -/
theorem planIdentity_iff (env : ImportEnv) (calls : List ImportCall)
    (before : List ImportInput) (i : ImportInput) (after : List ImportInput)
    (later : List ImportCall) {c c' d : CatalogTables} {ids : ImportedIds} {m : Manifest}
    (hbefore : importRepository env (run (ImportCall.step env) .empty calls) before = .ok c)
    (hm : loadManifest env i = .ok m) (hi : importOne env c i = .ok (c', ids))
    (hafter : importRepository env c' after = .ok d) :
    PlanIdentity (run (ImportCall.step env) d later) i ids ↔
      PlanIdentified env (importHistory env calls ++ before.filterMap (writtenOf env)) ⟨m, i⟩ := by
  obtain ⟨m', hm', -, hwrite⟩ := importOne_ok hi
  cases hm.symm.trans hm'
  have hc := ((importState_tracks env calls).importRepository hbefore).1
  obtain ⟨hc', hids⟩ := hc.write ⟨m, i⟩
  rw [← hwrite] at hc' hids
  obtain ⟨hd, hgrow⟩ := hc'.importRepository hafter
  have hgrow' := hgrow.trans (importRun_grows hd later)
  have hlast : ∃ hist, TablesOf env hist (run (ImportCall.step env) d later) :=
    run_invariant (P := fun c => ∃ hist, TablesOf env hist c) ⟨_, hd⟩
      (fun _ call ⟨_, h⟩ => ⟨_, (h.call call).1⟩) later
  obtain ⟨hist', hlast⟩ := hlast
  exact (hids.grows hgrow').ids_iff hlast

/-! ### The plan of an edited manifest -/

namespace EditedManifest

/-- An event at one collector; the editions of the manifest differ in their collectors. -/
def edition (collectors : List String) (revision : UInt32) : Manifest where
  eventId := "E"
  revision := revision
  schemaVersion := 2
  eventWindowUtc := ⟨"2026-07-30T09:25:00Z", "2026-07-30T09:47:00Z"⟩
  isOpen := false
  analysisEndUtc := none
  warmupMinutes := 60
  cooldownMinutes := 60
  target := ⟨"t", [3333], none, none,
    ⟨.reviewed, some (.containsAny [11537]), some ⟨"s", "a", "d"⟩⟩⟩
  collectors := collectors
  sourceFamily := "RouteViews"
  analystNotes := []

/-- The texts are named here by what they hold; texts are their own hashes. -/
def env : ImportEnv where
  parse := fun text =>
    if text = "first" then .ok (edition ["route-views2"] 1)
    else if text = "other collectors" then .ok (edition ["route-views2", "route-views3"] 1)
    else if text = "revision bumped" then .ok (edition ["route-views2", "route-views3"] 2)
    else .error "expected value at line 1 column 1"
  sha256 := id
  ticketTitle := fun _ => none
  excluded := fun _ => false

def input (text : String) : ImportInput := ⟨"manifests/E.json", text, none, none⟩

def imported : List ImportCall := [⟨[input "first"], false⟩]

end EditedManifest

open EditedManifest in
/-- With the revision bumped the condition holds, and the plan is the new manifest's. -/
theorem planIdentity_bumped :
    ∃ c ids, importOne env (run (ImportCall.step env) .empty imported) (input "revision bumped")
      = .ok (c, ids) ∧ PlanIdentity (run (ImportCall.step env) c []) (input "revision bumped") ids :=
  ⟨_, _, rfl, (planIdentity_iff env imported [] (input "revision bumped") [] [] rfl
    (m := edition ["route-views2", "route-views3"] 2) rfl rfl rfl).mpr (by decide +kernel)⟩

open EditedManifest in
/-- **Bug**: new collectors under the old `revision` get the plan of the first edition, and a
worker given that plan writes out the first edition. -/
theorem edited_manifest_gets_old_plan :
    ∃ c ids, importOne env (run (ImportCall.step env) .empty imported) (input "other collectors")
      = .ok (c, ids) ∧ ¬PlanIdentity c (input "other collectors") ids
      ∧ manifestPayloadForPlan c ids.plan = some "first" :=
  ⟨_, _, rfl, by decide +kernel, by decide +kernel⟩

end Inim
