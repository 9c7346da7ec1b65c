import Inim.Pipeline.Progress

/-!
# What a finished run answers

Every value that is on its way through the pipeline is one that a call has returned (`Logged`), and a
call is made once for an index, so what the slots hold at the end are the answers of the calls for
their indices. The merge is then a `mapM` over the indices (`mergeSlots_eq`): one entry for every
index, in order, or the error of the first one that failed.
-/

namespace Inim

open Lib

/-- A key that is listed once has one value. -/
theorem eq_of_count_fst_le_one {ι β : Type} [DecidableEq ι] {l : List (ι × β)} {i : ι} {a b : β}
    (h : (l.map (·.1)).count i ≤ 1) (ha : (i, a) ∈ l) (hb : (i, b) ∈ l) : a = b := by
  induction l with
  | nil => cases ha
  | cons x l ih =>
    have hmem : ∀ {c}, (i, c) ∈ l → 0 < (l.map (·.1)).count i := fun hc =>
      List.count_pos_iff.2 (List.mem_map_of_mem hc)
    rw [List.map_cons, count_cons_tick] at h
    rcases List.mem_cons.1 ha with rfl | hal
    · rcases List.mem_cons.1 hb with heq | hbl
      · exact (Prod.mk.inj heq).2.symm
      · have hpos := hmem hbl
        rw [tick_self] at h
        omega
    · rcases List.mem_cons.1 hb with rfl | hbl
      · have hpos := hmem hal
        rw [tick_self] at h
        omega
      · exact ih (by omega) hal hbl

theorem filter_fst_eq_singleton {ι β : Type} [DecidableEq ι] {l : List (ι × β)} {i : ι} {a : β}
    (h : (l.map (·.1)).count i = 1) (ha : (i, a) ∈ l) : l.filter (·.1 = i) = [(i, a)] := by
  have hlength : (l.filter (·.1 = i)).length = 1 := by
    rw [← h, List.count_eq_countP, List.countP_map, List.countP_eq_length_filter]
    rfl
  obtain ⟨x, hx⟩ := List.length_eq_one_iff.1 hlength
  have hmem : (i, a) ∈ l.filter (·.1 = i) := List.mem_filter.2 ⟨ha, by simp⟩
  rw [hx] at hmem
  rw [hx, List.mem_singleton.1 hmem]

section Answers
variable {σ A B R π ρ : Type} {W : Workload σ A B R π ρ}

namespace PipelineState

/-- The download call for the index has returned the item. -/
def Got (s : PipelineState W) (i : W.Index) (b : B) : Prop := (i, .ok b) ∈ s.downloadLog

def Failed (s : PipelineState W) (i : W.Index) (e : String) : Prop := (i, .error e) ∈ s.downloadLog

/-- The item is also what the merge will show for it. -/
def Holds (s : PipelineState W) (i : W.Index) (b : B) : Prop := s.Got i b ∧ s.acquired i = some b

/-- The parse call for it has returned, too. -/
def Parsed (s : PipelineState W) (i : W.Index) (r : R) : Prop :=
  ∃ b, s.Holds i b ∧ (i, b, r) ∈ s.parseLog

/-- Nothing is on its way that no call has returned. -/
structure Logged (s : PipelineState W) : Prop where
  fetched : ∀ {k i b}, s.downloaders k = .fetched i b → s.Got i b
  sending : ∀ {k i b}, s.downloaders k = .sending i b → s.Holds i b
  failed : ∀ {k i e}, s.downloaders k = .failed i e → s.Failed i e
  channel : ∀ {i b}, (i, b) ∈ s.channel → s.Holds i b
  parsing : ∀ {k i b p}, s.parsers k = .parsing i b p → s.Holds i b
  parsed : ∀ {k i r}, s.parsers k = .parsed i r → s.Parsed i r
  filled : ∀ {i r}, s.slots i = some (.ok r) → s.Parsed i r
  refused : ∀ {i e}, s.slots i = some (.error e) → s.Failed i e

/-- What the next state keeps of the answers. -/
structure Keeps (s s' : PipelineState W) : Prop where
  downloads : ∀ x ∈ s.downloadLog, x ∈ s'.downloadLog
  parses : ∀ x ∈ s.parseLog, x ∈ s'.parseLog
  acquired : ∀ i b, s.Holds i b → s'.acquired i = some b

section Keeps
variable {s s' : PipelineState W} {i : W.Index} {b : B} {r : R} {e : String}

theorem Keeps.got (h : s.Keeps s') (hs : s.Got i b) : s'.Got i b := h.downloads _ hs

theorem Keeps.refuse (h : s.Keeps s') (hs : s.Failed i e) : s'.Failed i e := h.downloads _ hs

theorem Keeps.holds (h : s.Keeps s') (hs : s.Holds i b) : s'.Holds i b :=
  ⟨h.got hs.1, h.acquired i b hs⟩

theorem Keeps.parsed (h : s.Keeps s') (hs : s.Parsed i r) : s'.Parsed i r := by
  obtain ⟨b, hb, hr⟩ := hs
  exact ⟨b, h.holds hb, h.parses _ hr⟩

theorem Keeps.of_eq (hd : s'.downloadLog = s.downloadLog) (hp : s'.parseLog = s.parseLog)
    (ha : s'.acquired = s.acquired) : s.Keeps s' where
  downloads _ hx := hd ▸ hx
  parses _ hx := hp ▸ hx
  acquired _ _ h := ha ▸ h.2

end Keeps

/-- A download worker's step; what it has then and what it puts into the channel or a slot is told by
the answers. -/
theorem Logged.downloader {s s' : PipelineState W} (h : s.Logged) (hkeeps : s.Keeps s')
    {k : Fin W.downloadJobs} {pc' : DownloadPc W.Index B π}
    (hd : s'.downloaders = Function.update s.downloaders k pc') (hp : s'.parsers = s.parsers)
    (hfetched : ∀ i b, pc' = .fetched i b → s'.Got i b)
    (hsending : ∀ i b, pc' = .sending i b → s'.Holds i b)
    (hfailed : ∀ i e, pc' = .failed i e → s'.Failed i e)
    (hchannel : ∀ x ∈ s'.channel, x ∈ s.channel ∨ s'.Holds x.1 x.2)
    (hslots : ∀ i v, s'.slots i = some v → s.slots i = some v ∨ ∃ e, v = .error e ∧ s'.Failed i e) :
    s'.Logged where
  fetched {j i b} hj := by
    rw [hd, Function.update_apply] at hj
    split at hj
    · exact hfetched i b hj
    · exact hkeeps.got (h.fetched hj)
  sending {j i b} hj := by
    rw [hd, Function.update_apply] at hj
    split at hj
    · exact hsending i b hj
    · exact hkeeps.holds (h.sending hj)
  failed {j i e} hj := by
    rw [hd, Function.update_apply] at hj
    split at hj
    · exact hfailed i e hj
    · exact hkeeps.refuse (h.failed hj)
  channel {i b} hx := (hchannel _ hx).elim (fun hx => hkeeps.holds (h.channel hx)) id
  parsing hj := hkeeps.holds (h.parsing (hp ▸ hj))
  parsed hj := hkeeps.parsed (h.parsed (hp ▸ hj))
  filled {i r} hi := by
    rcases hslots i _ hi with hi | ⟨e, he, -⟩
    · exact hkeeps.parsed (h.filled hi)
    · cases he
  refused {i e} hi := by
    rcases hslots i _ hi with hi | ⟨e', he, hfail⟩
    · exact hkeeps.refuse (h.refused hi)
    · cases he
      exact hfail

theorem Logged.parser {s s' : PipelineState W} (h : s.Logged) (hkeeps : s.Keeps s')
    {k : Fin W.parseJobs} {pc' : ParsePc W.Index B R ρ}
    (hp : s'.parsers = Function.update s.parsers k pc') (hd : s'.downloaders = s.downloaders)
    (hparsing : ∀ i b p, pc' = .parsing i b p → s'.Holds i b)
    (hparsed : ∀ i r, pc' = .parsed i r → s'.Parsed i r)
    (hchannel : ∀ x ∈ s'.channel, x ∈ s.channel)
    (hslots : ∀ i v, s'.slots i = some v → s.slots i = some v ∨ ∃ r, v = .ok r ∧ s'.Parsed i r) :
    s'.Logged where
  fetched hj := hkeeps.got (h.fetched (hd ▸ hj))
  sending hj := hkeeps.holds (h.sending (hd ▸ hj))
  failed hj := hkeeps.refuse (h.failed (hd ▸ hj))
  channel hx := hkeeps.holds (h.channel (hchannel _ hx))
  parsing {j i b p} hj := by
    rw [hp, Function.update_apply] at hj
    split at hj
    · exact hparsing i b p hj
    · exact hkeeps.holds (h.parsing hj)
  parsed {j i r} hj := by
    rw [hp, Function.update_apply] at hj
    split at hj
    · exact hparsed i r hj
    · exact hkeeps.parsed (h.parsed hj)
  filled {i r} hi := by
    rcases hslots i _ hi with hi | ⟨r', hr, htold⟩
    · exact hkeeps.parsed (h.filled hi)
    · cases hr
      exact htold
  refused {i e} hi := by
    rcases hslots i _ hi with hi | ⟨r, hr, -⟩
    · exact hkeeps.refuse (h.refused hi)
    · cases hr

/-- One call for an index returns once. -/
theorem CountedAt.download_unique {s : PipelineState W} {i : W.Index} (h : s.CountedAt i)
    {d d' : Except String B} (hd : (i, d) ∈ s.downloadLog) (hd' : (i, d') ∈ s.downloadLog) :
    d = d' := by
  have hcalls := h.calls_le.1
  unfold downloadCalls at hcalls
  exact eq_of_count_fst_le_one (by omega) hd hd'

/-- The item that the merge shows is entered when the call has returned it. -/
theorem Logged.acquire {s : PipelineState W} (h : s.Logged) {k : Fin W.downloadJobs} {i : W.Index}
    {b : B} (hcount : s.CountedAt i) (hk : s.downloaders k = .fetched i b) :
    ({ s.setDownloader k (.sending i b) with
      acquired := Function.update s.acquired i (some b) } : PipelineState W).Logged := by
  refine h.downloader ⟨fun _ => id, fun _ => id, fun j b' hj => ?_⟩ rfl rfl (by simp) ?_ (by simp)
    (fun _ hx => .inl hx) (fun _ _ hi => .inl hi)
  · dsimp only
    rw [Function.update_apply]
    split
    · next hji =>
      subst hji
      have heq := hcount.download_unique (h.fetched hk) hj.1
      rw [Except.ok.inj heq]
    · exact hj.2
  · intro j b' heq
    simp only [DownloadPc.sending.injEq] at heq
    obtain ⟨rfl, rfl⟩ := heq
    exact ⟨h.fetched hk, Function.update_self _ _ _⟩

theorem Logged.move {s s' : PipelineState W} (m : PipelineMove s s') (h : s.Logged)
    (hcount : ∀ i, s.CountedAt i) : s'.Logged := by
  cases m with
  | wait => exact h
  | cancel =>
    exact ⟨h.fetched, h.sending, h.failed, h.channel, h.parsing, h.parsed, h.filled, h.refused⟩
  | noMore _ _ | pop _ _ | giveUp _ _ _ | begin _ | fetch _ _ =>
    exact h.downloader (.of_eq rfl rfl rfl) rfl rfl (by simp) (by simp) (by simp)
      (fun _ hx => .inl hx) (fun _ _ hi => .inl hi)
  | @fetched k i p w b hk _ =>
    refine h.downloader ⟨fun _ => List.mem_append_left _, fun _ => id, fun _ _ hj => hj.2⟩ rfl rfl ?_
      (by simp) (by simp) (fun _ hx => .inl hx) (fun _ _ hi => .inl hi)
    intro j b' heq
    simp only [DownloadPc.fetched.injEq] at heq
    obtain ⟨rfl, rfl⟩ := heq
    exact List.mem_append_right _ List.mem_cons_self
  | @failed k i p w e hk _ =>
    refine h.downloader ⟨fun _ => List.mem_append_left _, fun _ => id, fun _ _ hj => hj.2⟩ rfl rfl
      (by simp) (by simp) ?_ (fun _ hx => .inl hx) (fun _ _ hi => .inl hi)
    intro j e' heq
    simp only [DownloadPc.failed.injEq] at heq
    obtain ⟨rfl, rfl⟩ := heq
    exact List.mem_append_right _ List.mem_cons_self
  | acquire hk => exact h.acquire (hcount _) hk
  | @send k i b hk _ =>
    refine h.downloader (.of_eq rfl rfl rfl) rfl rfl (by simp) (by simp) (by simp) (fun x hx => ?_)
      (fun _ _ hi => .inl hi)
    rcases List.mem_append.1 hx with hx | hx
    · exact .inl hx
    · obtain rfl := List.mem_singleton.1 hx
      exact .inr (h.sending hk)
  | @record k i e hk =>
    refine h.downloader (.of_eq rfl rfl rfl) rfl rfl (by simp) (by simp) (by simp)
      (fun _ hx => .inl hx) (fun j v hv => ?_)
    change Function.update s.slots i (some (.error e)) j = some v at hv
    rw [Function.update_apply] at hv
    split at hv
    · next hji =>
      subst hji
      exact .inr ⟨e, (Option.some.inj hv).symm, h.failed hk⟩
    · exact .inl hv
  | lock _ _ | closed _ _ _ =>
    exact h.parser (.of_eq rfl rfl rfl) rfl rfl (by simp) (by simp) (fun _ => id)
      (fun _ _ hi => .inl hi)
  | @receive k i b rest hk hc =>
    refine h.parser (.of_eq rfl rfl rfl) rfl rfl ?_ (by simp)
      (fun x hx => by rw [hc]; exact List.mem_cons_of_mem _ hx) (fun _ _ hi => .inl hi)
    intro j b' p heq
    simp only [ParsePc.parsing.injEq] at heq
    obtain ⟨rfl, rfl, -⟩ := heq
    exact h.channel (by rw [hc]; exact List.mem_cons_self)
  | @parse k i b p w p' hk _ =>
    refine h.parser (.of_eq rfl rfl rfl) rfl rfl ?_ (by simp) (fun _ => id) (fun _ _ hi => .inl hi)
    intro j b' q heq
    simp only [ParsePc.parsing.injEq] at heq
    obtain ⟨rfl, rfl, -⟩ := heq
    exact h.parsing hk
  | @parsed k i b p w r hk _ =>
    refine h.parser ⟨fun _ => id, fun _ => List.mem_append_left _, fun _ _ hj => hj.2⟩ rfl rfl
      (by simp) ?_ (fun _ => id) (fun _ _ hi => .inl hi)
    intro j r' heq
    simp only [ParsePc.parsed.injEq] at heq
    obtain ⟨rfl, rfl⟩ := heq
    exact ⟨b, h.parsing hk, List.mem_append_right _ List.mem_cons_self⟩
  | @fill k i r hk =>
    refine h.parser (.of_eq rfl rfl rfl) rfl rfl (by simp) (by simp) (fun _ => id) (fun j v hv => ?_)
    change Function.update s.slots i (some (.ok r)) j = some v at hv
    rw [Function.update_apply] at hv
    split at hv
    · next hji =>
      subst hji
      exact .inr ⟨r, (Option.some.inj hv).symm, h.parsed hk⟩
    · exact .inl hv

theorem logged_init (w : σ) : (init W w).Logged where
  fetched h := by cases h
  sending h := by cases h
  failed h := by cases h
  channel h := by cases h
  parsing h := by cases h
  parsed h := by cases h
  filled h := by cases h
  refused h := by cases h

end PipelineState

theorem logged_run (w : σ) (as : List (PipelineAction W)) :
    (run pipelineStep (PipelineState.init W w) as).Logged := by
  have hinv : (∀ i, (run pipelineStep (PipelineState.init W w) as).CountedAt i) ∧
      (run pipelineStep (PipelineState.init W w) as).Logged :=
    run_invariant (P := fun s : PipelineState W => (∀ i, s.CountedAt i) ∧ s.Logged)
      ⟨PipelineState.countedAt_init w, PipelineState.logged_init w⟩ (fun s a h =>
        have m := pipelineStep_move s a
        ⟨PipelineState.CountedAt.move m h.1, h.2.move m h.1⟩) as
  exact hinv.2

/-! ## Once all workers have ended -/

namespace PipelineState

variable {s : PipelineState W} {i : W.Index}

theorem withDownloaders_of_ended (h : ∀ k, (s.downloaders k).isEnded = true)
    {g : W.Index → DownloadPc W.Index B π → Nat} (hg : g i .ended = 0) :
    s.withDownloaders g i = 0 := by
  refine Finset.sum_eq_zero fun k _ => ?_
  have hk := h k
  cases hpc : s.downloaders k with
  | ended => exact hg
  | ready | popped _ | fetching _ _ | fetched _ _ | sending _ _ | failed _ _ =>
    rw [hpc] at hk
    cases hk

theorem withParsers_of_ended (h : ∀ k, (s.parsers k).isEnded = true)
    {g : W.Index → ParsePc W.Index B R ρ → Nat} (hg : g i .ended = 0) : s.withParsers g i = 0 := by
  refine Finset.sum_eq_zero fun k _ => ?_
  have hk := h k
  cases hpc : s.parsers k with
  | ended => exact hg
  | ready | receiving | parsing _ _ _ | parsed _ _ =>
    rw [hpc] at hk
    cases hk

theorem Control.channel_empty (h : s.Control) (hend : s.finished) : s.channel = [] :=
  (h.channel ⟨0, W.parseJobs_pos⟩ (hend.2 _)).1

theorem Control.queue_empty (h : s.Control) (hend : s.finished) (hseen : s.cancelSeen = false) :
    s.queue = [] :=
  (h.queue ⟨0, W.downloadJobs_pos⟩ (hend.1 _)).resolve_right (by simp [hseen])

/-- No cancellation seen: every slot is filled. -/
theorem filled_of_finished (hc : s.Control) (hcount : s.CountedAt i) (hend : s.finished)
    (hseen : s.cancelSeen = false) : s.filled i = 1 := by
  have hplace := hcount.place
  rw [hc.queue_empty hend hseen, withDownloaders_of_ended hend.1 rfl, inChannel,
    hc.channel_empty hend, withParsers_of_ended hend.2 rfl, hc.dropped hseen] at hplace
  simpa using hplace

/-- The calls made for the index, each once, and what they returned. -/
def Answers (s : PipelineState W) (i : W.Index) : Except String (B × R) → Prop
  | .ok (b, r) => s.downloadLog.filter (·.1 = i) = [(i, .ok b)] ∧
    s.parseLog.filter (·.1 = i) = [(i, b, r)]
  | .error e => s.downloadLog.filter (·.1 = i) = [(i, .error e)] ∧ s.parseLog.filter (·.1 = i) = []

/-- What the slot and the entry of the item say. -/
def Shows (s : PipelineState W) (i : W.Index) : Except String (B × R) → Prop
  | .ok (b, r) => s.slots i = some (.ok r) ∧ s.acquired i = some b
  | .error e => s.slots i = some (.error e)

theorem exists_answer (hc : s.Control) (hl : s.Logged) (hcount : s.CountedAt i) (hend : s.finished)
    (hseen : s.cancelSeen = false) : ∃ a, s.Answers i a ∧ s.Shows i a := by
  have hfilled := filled_of_finished hc hcount hend hseen
  have hdown := hcount.downloads
  have hparse := hcount.parses
  rw [withDownloaders_of_ended hend.1 rfl, inChannel, hc.channel_empty hend,
    withParsers_of_ended hend.2 rfl, hfilled] at hdown
  rw [withParsers_of_ended hend.2 rfl, Nat.zero_add] at hparse
  cases hslot : s.slots i with
  | none => simp [filled, hslot] at hfilled
  | some v =>
    rw [filledOk, hslot] at hparse
    cases v with
    | ok r =>
      obtain ⟨b, ⟨hgot, hacquired⟩, hr⟩ := hl.filled hslot
      exact ⟨.ok (b, r), ⟨filter_fst_eq_singleton hdown hgot, filter_fst_eq_singleton hparse hr⟩,
        hslot, hacquired⟩
    | error e =>
      refine ⟨.error e, ⟨filter_fst_eq_singleton hdown (hl.refused hslot), ?_⟩, hslot⟩
      rw [List.filter_eq_nil_iff]
      intro x hx
      have hnone := List.count_eq_zero.1 hparse
      simp only [decide_eq_true_eq]
      rintro rfl
      exact hnone (List.mem_map_of_mem hx)

end PipelineState

/-! ## The merge -/

section Merge
variable (s : PipelineState W) (missing : W.Index → List (Option B × R))

/-- What the slot of the index adds to the output, and the error in it. -/
def shownAt (i : W.Index) : List (Option B × R) :=
  match s.slots i with
  | some (.ok r) => [(s.acquired i, r)]
  | _ => missing i

def errorAt (i : W.Index) : Option String :=
  match s.slots i with
  | some (.error e) => some e
  | _ => none

theorem foldl_mergeSlot (l : List W.Index) (acc : List (Option B × R) × Option String) :
    l.foldl (mergeSlot s missing) acc =
      (acc.1 ++ l.flatMap (shownAt s missing), acc.2.or (l.findSome? (errorAt s))) := by
  induction l generalizing acc with
  | nil => simp
  | cons i l ih =>
    rw [List.foldl_cons, ih, List.flatMap_cons, List.findSome?_cons, ← List.append_assoc]
    cases hslot : s.slots i with
    | none => simp [mergeSlot, shownAt, errorAt, hslot]
    | some v =>
      cases v with
      | ok r => simp [mergeSlot, shownAt, errorAt, hslot]
      | error e => simp [mergeSlot, shownAt, errorAt, hslot]

theorem mergeSlots_eq : mergeSlots s missing =
    match (List.finRange W.items.length).findSome? (errorAt s) with
    | some e => .error e
    | none => .ok ((List.finRange W.items.length).flatMap (shownAt s missing)) := by
  cases hfirst : (List.finRange W.items.length).findSome? (errorAt s) with
  | none => simp [mergeSlots, foldl_mergeSlot, hfirst]
  | some e => simp [mergeSlots, foldl_mergeSlot, hfirst]

variable {s missing}

/-- With an answer in every slot the merge lists the answers, or the first error among them. -/
theorem mergeSlots_of_shows {answers : W.Index → Except String (B × R)}
    (h : ∀ i, s.Shows i (answers i)) : mergeSlots s missing =
      (List.finRange W.items.length).mapM fun i => (answers i).map fun p => (some p.1, p.2) := by
  rw [mergeSlots_eq]
  generalize List.finRange W.items.length = l
  induction l with
  | nil => rfl
  | cons i l ih =>
    rw [List.findSome?_cons, List.flatMap_cons, List.mapM_cons, ← ih]
    have hi := h i
    cases ha : answers i with
    | error e =>
      rw [ha] at hi
      have hslot : s.slots i = some (.error e) := hi
      simp only [errorAt, hslot]
      rfl
    | ok p =>
      rw [ha] at hi
      obtain ⟨hslot, hacquired⟩ : s.slots i = some (.ok p.2) ∧ s.acquired i = some p.1 := hi
      simp only [errorAt, shownAt, hslot, hacquired]
      cases l.findSome? (errorAt s) <;> rfl

end Merge

/-! ## The engine -/

/-- The arguments of `run_bounded_pipeline`; with no items no worker is started. -/
def boundedWorkload (download : Task σ A π (Except String B)) (parse : Task σ (B × A) ρ R)
    (items : List A) (downloadJobs parseJobs : Nat) : Workload σ A B R π ρ where
  download := download
  parse := parse
  items := items
  downloadJobs := max (min (max downloadJobs 1) items.length) 1
  parseJobs := max (min (max parseJobs 1) items.length) 1
  downloadJobs_pos := by omega
  parseJobs_pos := by omega
  checksCancel := false

/-- What the engine owes, whatever the calls do: every fair schedule ends; no call is made twice; and
where nothing is cancelled, each index has had its calls and the merge lists what they returned, or the
first error. -/
structure EngineRight (W : Workload σ A B R π ρ) (w : σ) : Prop where
  ends : ∀ f, Fair PipelineAction.worker f →
    ∃ n, (stateAfter pipelineStep (PipelineState.init W w) f n).finished
  once : ∀ as i, (run pipelineStep (PipelineState.init W w) as).downloadCalls i ≤ 1 ∧
    (run pipelineStep (PipelineState.init W w) as).parseCalls i ≤ 1
  answers : ∀ as, (run pipelineStep (PipelineState.init W w) as).finished →
    (run pipelineStep (PipelineState.init W w) as).cancel = false ∨ W.checksCancel = false →
    ∃ answers : W.Index → Except String (B × R),
      (∀ i, (run pipelineStep (PipelineState.init W w) as).Answers i (answers i)) ∧
      boundedResult (run pipelineStep (PipelineState.init W w) as) =
        (List.finRange W.items.length).mapM fun i => (answers i).map fun p => (some p.1, p.2)

theorem exists_answers (w : σ) (as : List (PipelineAction W))
    (hend : (run pipelineStep (PipelineState.init W w) as).finished)
    (hcancel : (run pipelineStep (PipelineState.init W w) as).cancel = false ∨
      W.checksCancel = false) : ∃ answers : W.Index → Except String (B × R), ∀ i,
      (run pipelineStep (PipelineState.init W w) as).Answers i (answers i) ∧
      (run pipelineStep (PipelineState.init W w) as).Shows i (answers i) := by
  have hc := control_run w as
  have hseen : (run pipelineStep (PipelineState.init W w) as).cancelSeen = false := by
    rw [← Bool.not_eq_true]
    intro hseen
    obtain ⟨hset, hcheck⟩ := hc.seen hseen
    rcases hcancel with h | h
    · rw [hset] at h
      cases h
    · rw [hcheck] at h
      cases h
  exact Classical.skolem.1 fun i =>
    PipelineState.exists_answer hc (logged_run w as) (countedAt_run w as i) hend hseen

theorem engineRight (W : Workload σ A B R π ρ) (w : σ) : EngineRight W w where
  ends := finished_of_fair w
  once as i := (countedAt_run w as i).calls_le
  answers as hend hcancel := by
    obtain ⟨answers, h⟩ := exists_answers w as hend hcancel
    exact ⟨answers, fun i => (h i).1, mergeSlots_of_shows fun i => (h i).2⟩

end Answers

end Inim
