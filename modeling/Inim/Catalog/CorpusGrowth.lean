import Inim.Catalog.CaseImportRuns
import Inim.Catalog.Crawl
import Inim.Catalog.FrontierRuns
/-!
# What the crawl's writers leave in place (`catalog/discovery.rs`, `catalog/sync.rs`, `catalog/store.rs`)

Events and snapshots are appended, and so are discoveries, as Pending rows (`Appends`); only the sync of
the frontier writes rows that are there, and of those the status alone (`Settles`).
-/

namespace Inim

open Lib

/-! ## The catalog -/

/-- The rows of the first are rows of the second, under their ids, and references hold where they did. -/
structure CatalogGrows (c c' : CatalogTables) : Prop where
  eventKeys : c.eventKeys <+: c'.eventKeys
  snapshots : c.snapshots <+: c'.snapshots
  nodup : c.eventKeys.Nodup → c'.eventKeys.Nodup
  events : (∀ s ∈ c.snapshots, (c.eventKeys[s.eventId]?).isSome) →
    ∀ s ∈ c'.snapshots, (c'.eventKeys[s.eventId]?).isSome

theorem CatalogGrows.refl (c : CatalogTables) : CatalogGrows c c :=
  ⟨List.prefix_refl _, List.prefix_refl _, id, id⟩

theorem CatalogGrows.trans {c c' c'' : CatalogTables} (h : CatalogGrows c c') (h' : CatalogGrows c' c'') :
    CatalogGrows c c'' :=
  ⟨h.eventKeys.trans h'.eventKeys, h.snapshots.trans h'.snapshots, h'.nodup ∘ h.nodup,
    h'.events ∘ h.events⟩

section Payload
variable (env : SyncEnv)

theorem storePayload_snapshots (c : CatalogTables) (f : Fetched) :
    (storePayload env c f).snapshots = (insertUnique EventSnapshot.key (itemSnapshot env f.item f.at_
      (upsertEvent c f.item.source (eventExternalId env f.item) f.at_).2) c.snapshots).1 := by
  simp only [storePayload, insertSnapshot, upsertEvent_snapshots]

theorem storePayload_grows (c : CatalogTables) (f : Fetched) : CatalogGrows c (storePayload env c f) := by
  have hkeys := storePayload_keys env c f
  have hinitial : c.eventKeys <+: (storePayload env c f).eventKeys := by
    rw [hkeys]
    exact insertUnique_initial ..
  refine ⟨hinitial, ?_, fun hnodup => ?_, fun hrefs s hs => ?_⟩
  · rw [storePayload_snapshots]
    exact insertUnique_initial ..
  · have hunique : ((storePayload env c f).eventKeys.map id).Nodup := by
      rw [hkeys]
      exact insertUnique_nodup (by simpa using hnodup)
    rwa [List.map_id] at hunique
  · rw [storePayload_snapshots] at hs
    rcases mem_of_mem_insertUnique hs with hs | rfl
    · rw [getElem?_eventKeys hinitial (hrefs s hs)]
      exact hrefs s hs
    · have hid := upsertEvent_id env c f
      simp only [itemSnapshot]
      rw [hid]
      rfl

theorem syncItems_grows (startedAt : String) (items : List CatalogSourceItem)
    (st : CatalogTables × SyncSummary) :
    CatalogGrows st.1 (items.foldl (syncItem env startedAt) st).1 := by
  induction items generalizing st with
  | nil => exact .refl _
  | cons item items ih =>
    have hfirst := storePayload_grows env st.1 ⟨item, startedAt⟩
    rw [← syncItem_tables] at hfirst
    exact hfirst.trans (ih _)

theorem recordFetch_grows (c : SyncTables) (syncRunId : Nat) (eventId : Option Nat)
    (item : Option CatalogSourceItem) (metadata : FetchMetadata) (startedAt : String) :
    CatalogGrows c.catalog (recordFetch env c syncRunId eventId item metadata startedAt).1.catalog := by
  have hcatalog := fetchOp_catalog env c syncRunId eventId item metadata startedAt
  rw [SyncOp.step] at hcatalog
  rw [hcatalog, fetchPayload_catalog]
  split
  · exact .refl _
  · cases item with
    | none => exact .refl _
    | some item => exact storePayload_grows env c.catalog ⟨item, startedAt⟩

end Payload

/-! ## The sync of a frontier -/

section Sync
variable {call : SyncCall}

theorem recordAnswer_grows {syncRunId : Nat} {refused : Option String} {externalId : String}
    {fetch : ViewerTicketFetch} {t t' : FrontierTables} {s s' : CorpusSyncSummary}
    (h : recordAnswer call syncRunId refused externalId fetch t s = .ok (t', s')) :
    CatalogGrows t.sync.catalog t'.sync.catalog := by
  unfold recordAnswer at h
  cases refused with
  | some e => cases h
  | none =>
    cases fetch with
    | notFound status retries conditionalRequested =>
      cases h
      exact .refl _
    | unsupported =>
      cases h
      exact .refl _
    | found item status contentType etag lastModified retries conditionalRequested =>
      simp only [metadataFor] at h
      generalize hrec : recordFetch call.env.toSyncEnv t.sync syncRunId none (some item) _ _ = r at h
      have hgrows := congrArg (fun r => r.1.catalog) hrec
      obtain ⟨sync, _ | result⟩ := r
      · cases h
      · cases h
        dsimp only at hgrows
        simp only [markFrontierFetched, updateDiscoveryStatusRows]
        rw [← hgrows]
        exact recordFetch_grows ..

theorem syncIds_grows (syncRunId : Nat) {t : FrontierTables} {st : FrontierState} (hst : st.tables = t)
    (ids : List Visit) :
    CatalogGrows t.sync.catalog (syncIds call syncRunId st ids).1.tables.sync.catalog := by
  induction ids generalizing t st with
  | nil =>
    rw [← hst]
    exact .refl _
  | cons v vs ih =>
    rw [syncIds]
    split
    · rw [← hst]
      exact .refl _
    split
    · exact ih hst
    dsimp only
    split
    · rw [← hst]
      exact .refl _
    · exact ih hst
    · split
      · rw [← hst]
        exact .refl _
      · next tables s hrec =>
        rw [← hst]
        exact (recordAnswer_grows hrec).trans (ih rfl)

theorem syncFrontier_grows (t : FrontierTables) (client : GrnocViewerClient) (ids : List Visit) :
    CatalogGrows t.sync.catalog (syncFrontier call t client ids).tables.sync.catalog := by
  have hgrows := @syncIds_grows call t.sync.syncRuns.length _ ⟨call.begin t, client, {}, []⟩ rfl ids
  unfold syncFrontier
  dsimp only
  split
  · exact .refl _
  · next st heq =>
    rw [heq] at hgrows
    exact hgrows

theorem syncFrontier_wellFormed (ht : ViewerTexts call.env) {t : FrontierTables} (h : t.sync.WellFormed)
    (client : GrnocViewerClient) (ids : List Visit) :
    (syncFrontier call t client ids).tables.sync.WellFormed := by
  have hspec := syncIds_begin ht h client ids
  unfold syncFrontier
  dsimp only
  split
  · exact h
  · next st heq =>
    rw [heq] at hspec
    have hkept : ∀ id e, (walk call client ids).ending ≠ .refused id e := by
      intro id e he
      cases hspec.refused id e he
    obtain ⟨-, s, hheld, -⟩ := hspec.kept hkept
    obtain ⟨hnodup, hsnapshots, hfetches⟩ := hheld.tables.wellFormed
    exact ⟨hnodup, hsnapshots, hfetches⟩

end Sync

/-! ## The corpus -/

namespace Crawl

open CaseImport

/-- What rows of discoveries refer to stays where it is. -/
structure Grows (t t' : CorpusTables) : Prop where
  catalog : CatalogGrows t.catalog t'.catalog
  wellFormed : t.sync.WellFormed → t'.sync.WellFormed
  documents : t.cases.documents.length ≤ t'.cases.documents.length
  links : t.cases.eventLinks.map CaseStudyEventLink.key <+: t'.cases.eventLinks.map CaseStudyEventLink.key

theorem Grows.refl (t : CorpusTables) : Grows t t :=
  ⟨.refl _, id, le_rfl, List.prefix_refl _⟩

theorem Grows.trans {t t' t'' : CorpusTables} (h : Grows t t') (h' : Grows t' t'') : Grows t t'' :=
  ⟨h.catalog.trans h'.catalog, h'.wellFormed ∘ h.wellFormed, h.documents.trans h'.documents,
    h.links.trans h'.links⟩

/-- `J` is kept by what rows refer to staying in place. -/
def Lasting (J : CorpusTables → DiscoveryRow → Prop) : Prop :=
  ∀ t t' d, Grows t t' → J t d → J t' d

theorem lasting_true : Lasting fun _ _ => True := fun _ _ _ _ _ => trivial

/-- The discoveries that are there stay as they are; those that come are Pending, and `J` holds of them. -/
structure Appends (J : CorpusTables → DiscoveryRow → Prop) (t t' : CorpusTables) : Prop extends
    Grows t t' where
  discoveries : ∃ new, t'.discoveries = t.discoveries ++ new ∧ ∀ d ∈ new, d.status = .pending ∧ J t' d
  unique : (t.discoveries.map DiscoveryRow.key).Nodup → (t'.discoveries.map DiscoveryRow.key).Nodup

section Appends
variable {J : CorpusTables → DiscoveryRow → Prop} {t t' t'' : CorpusTables}

/-- A writer of other tables. -/
theorem Grows.appends (h : Grows t t') (hd : t'.discoveries = t.discoveries) : Appends J t t' := by
  refine ⟨h, ⟨[], by rw [hd, List.append_nil], fun _ hd => nomatch hd⟩, fun hu => ?_⟩
  rwa [hd]

theorem Appends.refl (t : CorpusTables) : Appends J t t := (Grows.refl t).appends rfl

theorem Appends.trans (hJ : Lasting J) (h : Appends J t t') (h' : Appends J t' t'') : Appends J t t'' := by
  refine ⟨h.toGrows.trans h'.toGrows, ?_, h'.unique ∘ h.unique⟩
  obtain ⟨new, hnew, hrows⟩ := h.discoveries
  obtain ⟨more, hmore, hrows'⟩ := h'.discoveries
  refine ⟨new ++ more, by rw [hmore, hnew, List.append_assoc], fun d hd => ?_⟩
  rcases List.mem_append.1 hd with hd | hd
  · exact ⟨(hrows d hd).1, hJ _ _ d h'.toGrows (hrows d hd).2⟩
  · exact hrows' d hd

theorem Appends.mem (h : Appends J t t') {d : DiscoveryRow} (hd : d ∈ t.discoveries) :
    d ∈ t'.discoveries := by
  obtain ⟨new, hnew, -⟩ := h.discoveries
  rw [hnew]
  exact List.mem_append_left _ hd

/-- What holds of the rows there holds of all. -/
theorem Appends.all (hJ : Lasting J) (h : Appends J t t') (hall : ∀ d ∈ t.discoveries, J t d) :
    ∀ d ∈ t'.discoveries, J t' d := by
  obtain ⟨new, hnew, hrows⟩ := h.discoveries
  intro d hd
  rw [hnew] at hd
  rcases List.mem_append.1 hd with hd | hd
  · exact hJ _ _ d h.toGrows (hall d hd)
  · exact (hrows d hd).2

end Appends

/-- A writer of discoveries alone. -/
structure Records (J : CorpusTables → DiscoveryRow → Prop) (t t' : CorpusTables) : Prop extends
    Appends J t t' where
  cases : t'.cases = t.cases

theorem Records.refl {J : CorpusTables → DiscoveryRow → Prop} (t : CorpusTables) : Records J t t :=
  ⟨.refl t, rfl⟩

theorem Records.trans {J : CorpusTables → DiscoveryRow → Prop} {t t' t'' : CorpusTables} (hJ : Lasting J)
    (h : Records J t t') (h' : Records J t' t'') : Records J t t'' :=
  ⟨h.toAppends.trans hJ h'.toAppends, h'.cases.trans h.cases⟩

/-! ### Discoveries -/

section Record
variable {J : CorpusTables → DiscoveryRow → Prop} {t : CorpusTables} {d : DiscoveryRow}
  {r : CorpusTables × Nat}

/-- A discovery that is recorded was there, or is appended. -/
theorem recordDiscovery_cases (h : recordDiscovery t d = .ok r) :
    (r.1 = t ∧ ∃ row ∈ t.discoveries, row.key = d.key) ∨
      (r.1 = { t with discoveries := t.discoveries ++ [d] } ∧ t.hasSources d = true ∧
        d.key ∉ t.discoveries.map DiscoveryRow.key) := by
  unfold recordDiscovery at h
  split at h
  · next id hid =>
    cases h
    obtain ⟨hlt, hkey, -⟩ := List.findIdx?_eq_some_iff_getElem.1 hid
    exact .inl ⟨rfl, _, List.getElem_mem hlt, of_decide_eq_true hkey⟩
  · next hnone =>
    split at h
    · next hsources =>
      cases h
      refine .inr ⟨rfl, hsources, fun hmem => ?_⟩
      obtain ⟨row, hrow, hkey⟩ := List.mem_map.1 hmem
      have hno := List.findIdx?_eq_none_iff.1 hnone row hrow
      simp [hkey] at hno
    · cases h

theorem recordDiscovery_records (hJ : Lasting J) (hd : d.status = .pending)
    (hd' : t.hasSources d = true → J t d) (h : recordDiscovery t d = .ok r) : Records J t r.1 := by
  rcases recordDiscovery_cases h with ⟨hr, -⟩ | ⟨hr, hsources, hnew⟩
  · rw [hr]
    exact .refl t
  · have hgrows : Grows t r.1 := by
      rw [hr]
      exact ⟨.refl _, id, le_rfl, List.prefix_refl _⟩
    refine ⟨⟨hgrows, ⟨[d], by rw [hr], fun e he => ?_⟩, fun hu => ?_⟩, by rw [hr]⟩
    · rw [List.mem_singleton.1 he]
      exact ⟨hd, hJ _ _ d hgrows (hd' hsources)⟩
    · rw [hr, List.map_append, List.map_singleton, ← List.concat_eq_append, List.nodup_concat]
      exact ⟨hnew, hu⟩

theorem recordDiscovery_row (h : recordDiscovery t d = .ok r) :
    ∃ row ∈ r.1.discoveries, row.key = d.key := by
  rcases recordDiscovery_cases h with ⟨hr, hrow⟩ | ⟨hr, -⟩
  · rwa [hr]
  · rw [hr]
    exact ⟨d, by simp, rfl⟩

end Record

section Loops
variable {J : CorpusTables → DiscoveryRow → Prop} (hJ : Lasting J)
include hJ

theorem attempt_records {t : CorpusTables} {d : DiscoveryRow} (hd : d.status = .pending)
    (hd' : t.hasSources d = true → J t d) :
    Records J t (attempt (fun t => (recordDiscovery t d).map (·.1)) t).1 := by
  refine attempt_rel .refl fun s hs => ?_
  obtain ⟨r, hr, rfl⟩ := map_ok hs
  exact recordDiscovery_records hJ hd hd' hr

/-- A loop over rows that hold where they are recorded. -/
theorem recordRows_records {t : CorpusTables} {rows : List DiscoveryRow}
    (h : ∀ d ∈ rows, d.status = .pending ∧ ∀ s, Grows t s → s.hasSources d = true → J s d) :
    Records J t (recordRows t rows).1 := by
  have hrel := inTurn_rel (R := fun s s' => Grows t s → Records J s s')
    (rows.map fun d => attempt fun t => (recordDiscovery t d).map (·.1)) (fun s _ => .refl s)
    (fun h h' hs => (h hs).trans hJ (h' (hs.trans (h hs).toGrows)))
  refine hrel (fun f hf s hs => ?_) t (.refl t)
  obtain ⟨d, hd, rfl⟩ := List.mem_map.1 hf
  exact attempt_records hJ (h d hd).1 ((h d hd).2 s hs)

end Loops

@[simp] theorem countRows_fst (n : Nat) (r : CorpusTables × Option String) : (countRows n r).1 = r.1 := by
  obtain ⟨t, _ | e⟩ := r <;> rfl

@[simp] theorem orEnd_countRows (n : Nat) (r : CorpusTables × Option String) :
    orEnd (countRows n r) = r := by
  obtain ⟨t, _ | e⟩ := r <;> rfl

/-- After a loop that no error ends, each of the rows is there. -/
theorem recordRows_rows {t : CorpusTables} {rows : List DiscoveryRow}
    (h : ∀ d ∈ rows, d.status = .pending) (hdone : (recordRows t rows).2 = none) :
    ∀ d ∈ rows, ∃ row ∈ (recordRows t rows).1.discoveries, row.key = d.key := by
  intro d hd
  obtain ⟨s, -, hnone, hend⟩ := inTurn_done (R := Records fun _ _ => True) .refl (.trans lasting_true)
    (fun f hf s => by
      obtain ⟨d, hd, rfl⟩ := List.mem_map.1 hf
      exact attempt_records lasting_true (h d hd) fun _ => trivial) hdone
    _ (List.mem_map_of_mem hd)
  have hok := attempt_done hnone
  obtain ⟨r, hr, heq⟩ := map_ok hok
  obtain ⟨row, hrow, hkey⟩ := recordDiscovery_row hr
  rw [← heq] at hend
  exact ⟨row, hend.mem hrow, hkey⟩

/-! ### Reference expansion -/

section Expand
variable {env : CrawlEnv} {order : SnapshotOrder} {J : CorpusTables → DiscoveryRow → Prop}
  {sourceKind discoveredAt : String} {t : CorpusTables} {m : Mention}

theorem expandMention_ok {st st' : CorpusTables × Nat}
    (h : expandMention sourceKind discoveredAt m st = .ok st') :
    (m.reference.externalId = m.event.externalId ∧ st' = st) ∨
      (m.reference.externalId ≠ m.event.externalId ∧ ∃ id,
        recordDiscovery st.1 (mentionRow sourceKind discoveredAt m) = .ok (st'.1, id)) := by
  unfold expandMention at h
  split at h
  · next hself =>
    cases h
    exact .inl ⟨hself, rfl⟩
  · next hother =>
    obtain ⟨r, hr, h⟩ := bind_ok h
    cases h
    exact .inr ⟨hother, r.2, hr⟩

theorem attempt_expand_records (hJ : Lasting J) {st : CorpusTables × Nat} (hst : Grows t st.1)
    (h : m.reference.externalId ≠ m.event.externalId → J t (mentionRow sourceKind discoveredAt m)) :
    Records J st.1 (attempt (expandMention sourceKind discoveredAt m) st).1.1 := by
  refine attempt_rel (R := fun s s' : CorpusTables × Nat => Records J s.1 s'.1) (fun s => .refl s.1)
    fun s' hs' => ?_
  rcases expandMention_ok hs' with ⟨-, rfl⟩ | ⟨hother, id, hr⟩
  · exact .refl _
  · have hrow := hJ _ _ _ hst (h hother)
    have hrecords := recordDiscovery_records hJ rfl (fun _ => hrow) hr
    exact hrecords

theorem expandFromSnapshots_records (hJ : Lasting J)
    (h : ∀ m ∈ mentions env order t.catalog sourceKind, m.reference.externalId ≠ m.event.externalId →
      J t (mentionRow sourceKind discoveredAt m)) :
    Records J t (expandFromSnapshots env order t sourceKind discoveredAt).1 := by
  have hrel := inTurn_rel (R := fun s s' : CorpusTables × Nat => Grows t s.1 → Records J s.1 s'.1)
    ((mentions env order t.catalog sourceKind).map fun m =>
      attempt (expandMention sourceKind discoveredAt m)) (fun s _ => .refl s.1)
    (fun h h' hs => (h hs).trans hJ (h' (hs.trans (h hs).toGrows)))
  rw [expandFromSnapshots, countRows_fst]
  refine hrel (fun f hf s hs => ?_) (t, 0) (.refl t)
  obtain ⟨m, hm, rfl⟩ := List.mem_map.1 hf
  exact attempt_expand_records hJ hs (h m hm)

/-- After an expansion each mention of another ticket is recorded. -/
theorem expandFromSnapshots_rows
    (hdone : (orEnd (expandFromSnapshots env order t sourceKind discoveredAt)).2 = none) :
    ∀ m ∈ mentions env order t.catalog sourceKind, m.reference.externalId ≠ m.event.externalId →
      ∃ row ∈ (expandFromSnapshots env order t sourceKind discoveredAt).1.discoveries,
        row.key = (mentionRow sourceKind discoveredAt m).key := by
  intro m hm hother
  rw [expandFromSnapshots, orEnd_countRows] at hdone
  obtain ⟨s, -, hnone, hend⟩ := inTurn_done
    (R := fun s s' : CorpusTables × Nat => Records (fun _ _ => True) s.1 s'.1)
    (fun s => .refl s.1) (.trans lasting_true) (fun f hf s => by
      obtain ⟨m, -, rfl⟩ := List.mem_map.1 hf
      exact attempt_expand_records lasting_true (.refl s.1) fun _ => trivial) hdone
    _ (List.mem_map_of_mem hm)
  rw [expandFromSnapshots, countRows_fst]
  rcases expandMention_ok (attempt_done hnone) with ⟨hself, -⟩ | ⟨-, id, hr⟩
  · exact absurd hself hother
  · obtain ⟨row, hrow, hkey⟩ := recordDiscovery_row hr
    exact ⟨row, hend.mem hrow, hkey⟩

end Expand

/-! ### Other writers -/

section Others
variable {J : CorpusTables → DiscoveryRow → Prop}

theorem linkCaseStudyTickets_appends (t : CorpusTables) (caseStudyId : Nat) (sourceKind : String) :
    Appends J t (linkCaseStudyTickets t caseStudyId sourceKind).1 := by
  refine Grows.appends ⟨.refl _, id, le_rfl, ?_⟩ rfl
  have hkey : ∀ l, (linkTicket t.catalog caseStudyId sourceKind l).key = l.key := by
    intro l
    unfold linkTicket
    split <;> rfl
  simp only [linkCaseStudyTickets, List.map_map, Function.comp_def, hkey]
  exact List.prefix_refl _

/-- A reader of the catalog as it is after a directory sync. -/
theorem withSync_grows {t : CorpusTables} {s : SyncTables} (h : CatalogGrows t.catalog s.catalog)
    (hw : t.sync.WellFormed → s.WellFormed) : Appends J t (t.withSync s) :=
  Grows.appends ⟨h, hw, le_rfl, List.prefix_refl _⟩ rfl

theorem syncCatalog_appends (env : SyncEnv) (t : CorpusTables) (source : String)
    (listItems : Except String (List CatalogSourceItem)) (startedAt : String) :
    Appends J t (t.withSync (syncCatalog env t.sync source listItems startedAt).1) := by
  cases listItems with
  | error e => exact withSync_grows (.refl _) id
  | ok items =>
    have hgrows := syncItems_grows env startedAt items (t.catalog, {})
    refine withSync_grows hgrows fun hw => ⟨hgrows.nodup hw.nodup, fun k hk => ?_, fun k hk => ?_⟩
    · obtain ⟨s, hs, rfl⟩ := List.mem_map.1 hk
      refine hgrows.events (fun s hs => ?_) s hs
      exact hw.snapshots _ (List.mem_map_of_mem hs)
    · obtain ⟨f, hf, rfl⟩ := List.mem_map.1 hk
      have hold := hw.fetches _ (List.mem_map_of_mem hf)
      have hkey := getElem?_eventKeys hgrows.eventKeys hold
      exact hkey ▸ hold

/-! ### Case studies -/

theorem foldl_insertUnique_initial {α κ : Type*} [DecidableEq κ] (key : α → κ) (rows t : List α) :
    t <+: rows.foldl (fun t x => (insertUnique key x t).1) t := by
  induction rows generalizing t with
  | nil => exact List.prefix_refl _
  | cons x rows ih => exact (insertUnique_initial key x t).trans (ih _)

theorem addDocuments_documents (now : String) (t : CaseTables) (ds : List DataDocument) :
    t.documents <+: (addDocuments now t ds).1.documents := by
  induction ds using List.reverseRecOn with
  | nil => exact List.prefix_refl _
  | append_singleton ds d ih =>
    rw [addDocuments_concat]
    refine ih.trans ?_
    unfold resolveDocument
    split
    · exact List.prefix_refl _
    · exact insertUnique_initial ..

/-- An import adds case studies, links and documents, and leaves the catalog. -/
theorem importRows_kept {env : CaseEnv} {now : String} {t : CaseTables} {data : CaseStudyDataFile}
    {r : CaseTables × CaseStudyImportSummary} (h : importRows env now t data = .ok r) :
    r.1.catalog = t.catalog ∧ t.documents <+: r.1.documents ∧ t.eventLinks <+: r.1.eventLinks := by
  rw [importRows_eq (valid_of_importRows h)] at h
  obtain ⟨cs, hcs, h⟩ := bind_ok h
  have hcase : cs.1.catalog = t.catalog ∧ cs.1.documents = t.documents ∧
      cs.1.eventLinks = t.eventLinks := by
    unfold insertCaseStudy at hcs
    split at hcs
    · split at hcs <;> cases hcs
      exact ⟨rfl, rfl, rfl⟩
    · cases hcs
      exact ⟨rfl, rfl, rfl⟩
  obtain ⟨hcatalog, hdocuments, hlinks⟩ := hcase
  split at h
  · cases h
    rw [hdocuments, hlinks]
    exact ⟨hcatalog, List.prefix_refl _, List.prefix_refl _⟩
  · cases h
    obtain ⟨documents, more, hdocs, -⟩ := addDocuments_spec now cs.1 data.documents
    have hinitial := addDocuments_documents now cs.1 data.documents
    refine ⟨?_, ?_, ?_⟩
    · rw [children, hdocs]
      exact hcatalog
    · rwa [← hdocuments]
    · rw [children, hdocs, ← hlinks]
      exact foldl_insertUnique_initial ..

theorem importCaseStudy_appends (env : CaseEnv) (t : CorpusTables) (call : CaseImport.ImportCall) :
    Appends J t { t with cases := (importCaseStudy env t.cases call).1 } := by
  unfold importCaseStudy
  split
  · exact .refl t
  · next r hr =>
    split
    · exact .refl t
    · obtain ⟨data, -, hrows⟩ := bind_ok hr
      obtain ⟨hcatalog, hdocuments, hlinks⟩ := importRows_kept hrows
      refine Grows.appends ⟨?_, ?_, hdocuments.length_le, hlinks.map _⟩ rfl
      · simp only [CorpusTables.catalog, hcatalog]
        exact .refl _
      · simp only [CorpusTables.sync, hcatalog]
        exact id

end Others

/-! ### The sync -/

/-- What the sync of a frontier does to the rows: `f` settles them, and what they refer to stays. -/
structure Settles (f : TicketDiscovery → TicketDiscovery) (t t' : CorpusTables) : Prop extends
    Grows t t' where
  discoveries : t'.discoveries = t.discoveries.map fun d => d.withTicket (f d.toTicketDiscovery)

theorem withFrontier_map (t : CorpusTables) (sync : SyncTables) (f : TicketDiscovery → TicketDiscovery) :
    t.withFrontier ⟨sync, t.frontier.discoveries.map f⟩ = { t.withSync sync with
      discoveries := t.discoveries.map fun d => d.withTicket (f d.toTicketDiscovery) } := by
  simp only [CorpusTables.withFrontier, CorpusTables.frontier, List.map_map, List.zipWith_map_right,
    List.zipWith_self]
  rfl

theorem withFrontier_frontier (t : CorpusTables) : t.withFrontier t.frontier = t := by
  have hmap := withFrontier_map t t.sync id
  rw [List.map_id] at hmap
  refine hmap.trans ?_
  have hsame : (fun d : DiscoveryRow => d.withTicket (id d.toTicketDiscovery)) = id := rfl
  rw [hsame, List.map_id]
  rfl

section Sync
variable {call : SyncCall} {t : CorpusTables} {client : GrnocViewerClient} {ids : List Visit}

theorem syncFrontier_settles (ht : ViewerTexts call.env) (h : t.sync.WellFormed)
    (hw : ∀ id error, (walk call client ids).ending ≠ .refused id error) :
    Settles (fun d => (walk call client ids).turns.foldl (·.settle call.sourceKind) d) t
      (t.withFrontier (syncFrontier call t.frontier client ids).tables) := by
  have hsynced := syncFrontier_synced (t := t.frontier) ht h hw
  have hgrows := @syncFrontier_grows call t.frontier client ids
  have hwell := syncFrontier_wellFormed ht (t := t.frontier) h client ids
  have hdiscoveries := hsynced.discoveries
  generalize syncFrontier call t.frontier client ids = r at hgrows hwell hdiscoveries ⊢
  obtain ⟨⟨sync, discoveries⟩, c, asked, result⟩ := r
  dsimp only at hdiscoveries
  rw [hdiscoveries, withFrontier_map]
  exact ⟨⟨hgrows, fun _ => hwell, le_rfl, List.prefix_refl _⟩, rfl⟩

theorem syncFrontier_dropped (ht : ViewerTexts call.env) (h : t.sync.WellFormed) {id error : String}
    (hw : (walk call client ids).ending = .refused id error) :
    t.withFrontier (syncFrontier call t.frontier client ids).tables = t := by
  rw [(syncFrontier_refused (t := t.frontier) ht h hw).1, withFrontier_frontier]

end Sync

end Crawl

end Inim
