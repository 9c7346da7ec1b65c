import Inim.Pipeline.Engine

/-!
# Where an index is

At every moment an index is in exactly one place: in the queue, with a download worker, in the
channel, with a parse worker, in its slot, or given up (`Placed`). The calls made for it are told
by the place (`DownloadsCounted`, `ParsesCounted`), so each is made at most once, whatever the
number of workers and the order of their steps.
-/

namespace Inim

open Lib

section Moves
variable {σ A B R π ρ : Type} {W : Workload σ A B R π ρ}

/-- Everything one action can do. -/
inductive PipelineMove (s : PipelineState W) : PipelineState W → Prop
  | wait : PipelineMove s s
  | cancel : PipelineMove s { s with cancel := true }
  | noMore {k} (hk : s.downloaders k = .ready) (hq : s.queue = []) :
    PipelineMove s (s.setDownloader k .ended)
  | pop {k i rest} (hk : s.downloaders k = .ready) (hq : s.queue = i :: rest) :
    PipelineMove s { s.setDownloader k (.popped i) with queue := rest }
  | giveUp {k i} (hk : s.downloaders k = .popped i) (hcheck : W.checksCancel = true)
    (hcancel : s.cancel = true) :
    PipelineMove s { s.setDownloader k .ended with
      cancelSeen := true, dropped := s.dropped ++ [i] }
  | begin {k i} (hk : s.downloaders k = .popped i) :
    PipelineMove s (s.setDownloader k (.fetching i (W.download.start (W.items.get i))))
  | fetch {k i p w p'} (hk : s.downloaders k = .fetching i p)
    (hstep : W.download.step s.world p = (w, .next p')) :
    PipelineMove s { s.setDownloader k (.fetching i p') with world := w }
  | fetched {k i p w b} (hk : s.downloaders k = .fetching i p)
    (hstep : W.download.step s.world p = (w, .done (.ok b))) :
    PipelineMove s { s.setDownloader k (.fetched i b) with
      world := w, downloadLog := s.downloadLog ++ [(i, .ok b)] }
  | failed {k i p w e} (hk : s.downloaders k = .fetching i p)
    (hstep : W.download.step s.world p = (w, .done (.error e))) :
    PipelineMove s { s.setDownloader k (.failed i e) with
      world := w, downloadLog := s.downloadLog ++ [(i, .error e)] }
  | acquire {k i b} (hk : s.downloaders k = .fetched i b) :
    PipelineMove s { s.setDownloader k (.sending i b) with
      acquired := Function.update s.acquired i (some b) }
  | send {k i b} (hk : s.downloaders k = .sending i b) (hroom : s.channel.length < W.parseJobs) :
    PipelineMove s { s.setDownloader k .ready with channel := s.channel ++ [(i, b)] }
  | record {k i e} (hk : s.downloaders k = .failed i e) :
    PipelineMove s ((s.setDownloader k .ready).setSlot i (.error e))
  | lock {k} (hk : s.parsers k = .ready) (hfree : s.receiver = none) :
    PipelineMove s { s.setParser k .receiving with receiver := some k }
  | receive {k i b rest} (hk : s.parsers k = .receiving) (hc : s.channel = (i, b) :: rest) :
    PipelineMove s { s.setParser k (.parsing i b (W.parse.start (b, W.items.get i))) with
      channel := rest, receiver := none }
  | closed {k} (hk : s.parsers k = .receiving) (hc : s.channel = [])
    (hgone : s.sendersGone = true) :
    PipelineMove s { s.setParser k .ended with receiver := none }
  | parse {k i b p w p'} (hk : s.parsers k = .parsing i b p)
    (hstep : W.parse.step s.world p = (w, .next p')) :
    PipelineMove s { s.setParser k (.parsing i b p') with world := w }
  | parsed {k i b p w r} (hk : s.parsers k = .parsing i b p)
    (hstep : W.parse.step s.world p = (w, .done r)) :
    PipelineMove s { s.setParser k (.parsed i r) with
      world := w, parseLog := s.parseLog ++ [(i, b, r)] }
  | fill {k i r} (hk : s.parsers k = .parsed i r) :
    PipelineMove s ((s.setParser k .ready).setSlot i (.ok r))

theorem downloadStep_move (s : PipelineState W) (k : Fin W.downloadJobs) (seen : Bool) :
    PipelineMove s (s.downloadStep k seen) := by
  unfold PipelineState.downloadStep
  cases hk : s.downloaders k with
  | ready =>
    cases hq : s.queue with
    | nil => exact .noMore hk hq
    | cons i rest => exact .pop hk hq
  | popped i =>
    dsimp only
    split
    · next hstop =>
      simp only [Bool.and_eq_true] at hstop
      exact .giveUp hk hstop.1 hstop.2.2
    · exact .begin hk
  | fetching i p =>
    dsimp only
    split
    · next hstep => exact .fetch hk hstep
    · next hstep => exact .fetched hk hstep
    · next hstep => exact .failed hk hstep
  | fetched i b => exact .acquire hk
  | sending i b =>
    dsimp only
    split
    · next hroom => exact .send hk hroom
    · exact .wait
  | failed i e => exact .record hk
  | ended => exact .wait

theorem parseStep_move (s : PipelineState W) (k : Fin W.parseJobs) :
    PipelineMove s (s.parseStep k) := by
  unfold PipelineState.parseStep
  cases hk : s.parsers k with
  | ready =>
    cases hfree : s.receiver with
    | none => exact .lock hk hfree
    | some _ => exact .wait
  | receiving =>
    cases hc : s.channel with
    | nil =>
      dsimp only
      split
      · next hgone => exact .closed hk hc hgone
      · exact .wait
    | cons p rest => exact .receive hk hc
  | parsing i b p =>
    dsimp only
    split
    · next hstep => exact .parse hk hstep
    · next hstep => exact .parsed hk hstep
  | parsed i r => exact .fill hk
  | ended => exact .wait

theorem pipelineStep_move (s : PipelineState W) (a : PipelineAction W) :
    PipelineMove s (pipelineStep s a) := by
  cases a with
  | download k seen => exact downloadStep_move s k seen
  | parse k => exact parseStep_move s k
  | cancel => exact .cancel

end Moves

/-! ## Counting -/

section Count
variable {ι B R π ρ : Type} [DecidableEq ι]

/-- One if the indices are the same. -/
def tick (j i : ι) : Nat := if j = i then 1 else 0

@[simp] theorem tick_self (i : ι) : tick i i = 1 := if_pos rfl

theorem count_cons_tick (j i : ι) (l : List ι) : (j :: l).count i = l.count i + tick j i := by
  rw [List.count_cons, tick]
  simp only [beq_iff_eq]

theorem count_concat_tick (j i : ι) (l : List ι) : (l ++ [j]).count i = l.count i + tick j i := by
  rw [List.count_append, count_cons_tick, List.count_nil, Nat.zero_add]

namespace DownloadPc

/-- The worker has the index. -/
def taken (i : ι) : DownloadPc ι B π → Nat
  | popped j | fetching j _ | fetched j _ | sending j _ | failed j _ => tick j i
  | ready | ended => 0

/-- The worker's download call for the index has returned. -/
def returned (i : ι) : DownloadPc ι B π → Nat
  | fetched j _ | sending j _ | failed j _ => tick j i
  | ready | popped _ | fetching _ _ | ended => 0

/-- The worker is in the call. -/
def calling (i : ι) : DownloadPc ι B π → Nat
  | fetching j _ => tick j i
  | _ => 0

end DownloadPc

namespace ParsePc

def taken (i : ι) : ParsePc ι B R ρ → Nat
  | parsing j _ _ | parsed j _ => tick j i
  | ready | receiving | ended => 0

def returned (i : ι) : ParsePc ι B R ρ → Nat
  | parsed j _ => tick j i
  | ready | receiving | parsing _ _ _ | ended => 0

def calling (i : ι) : ParsePc ι B R ρ → Nat
  | parsing j _ _ => tick j i
  | _ => 0

end ParsePc

end Count

section Places
variable {σ A B R π ρ : Type} {W : Workload σ A B R π ρ}

namespace PipelineState

def withDownloaders (s : PipelineState W) (g : W.Index → DownloadPc W.Index B π → Nat)
    (i : W.Index) : Nat := ∑ k, g i (s.downloaders k)

def withParsers (s : PipelineState W) (g : W.Index → ParsePc W.Index B R ρ → Nat)
    (i : W.Index) : Nat := ∑ k, g i (s.parsers k)

def inChannel (s : PipelineState W) (i : W.Index) : Nat := (s.channel.map (·.1)).count i

def filled (s : PipelineState W) (i : W.Index) : Nat := if (s.slots i).isSome then 1 else 0

def filledOk (s : PipelineState W) (i : W.Index) : Nat :=
  match s.slots i with
  | some (.ok _) => 1
  | _ => 0

/-- The download calls made for the index so far. -/
def downloadCalls (s : PipelineState W) (i : W.Index) : Nat :=
  s.withDownloaders DownloadPc.calling i + (s.downloadLog.map (·.1)).count i

/-- The parse calls. -/
def parseCalls (s : PipelineState W) (i : W.Index) : Nat :=
  s.withParsers ParsePc.calling i + (s.parseLog.map (·.1)).count i

/-- An index is in one place, and the calls that have returned are told by the place. -/
structure CountedAt (s : PipelineState W) (i : W.Index) : Prop where
  place : s.queue.count i + s.withDownloaders DownloadPc.taken i + s.inChannel i +
    s.withParsers ParsePc.taken i + s.filled i + s.dropped.count i = 1
  downloads : (s.downloadLog.map (·.1)).count i = s.withDownloaders DownloadPc.returned i +
    s.inChannel i + s.withParsers ParsePc.taken i + s.filled i
  parses : (s.parseLog.map (·.1)).count i = s.withParsers ParsePc.returned i + s.filledOk i

theorem withDownloaders_of_update {s s' : PipelineState W} {k : Fin W.downloadJobs}
    {pc : DownloadPc W.Index B π} (h : s'.downloaders = Function.update s.downloaders k pc)
    (g : W.Index → DownloadPc W.Index B π → Nat) (i : W.Index) :
    s'.withDownloaders g i + g i (s.downloaders k) = s.withDownloaders g i + g i pc := by
  rw [withDownloaders, h]
  exact sum_update s.downloaders k pc (g i)

theorem withParsers_of_update {s s' : PipelineState W} {k : Fin W.parseJobs}
    {pc : ParsePc W.Index B R ρ} (h : s'.parsers = Function.update s.parsers k pc)
    (g : W.Index → ParsePc W.Index B R ρ → Nat) (i : W.Index) :
    s'.withParsers g i + g i (s.parsers k) = s.withParsers g i + g i pc := by
  rw [withParsers, h]
  exact sum_update s.parsers k pc (g i)

/-- A download worker's step that leaves the other places as they are. -/
theorem CountedAt.downloader {s s' : PipelineState W} {i : W.Index} (h : s.CountedAt i)
    {k : Fin W.downloadJobs} {pc pc' : DownloadPc W.Index B π} (hk : s.downloaders k = pc)
    (hd : s'.downloaders = Function.update s.downloaders k pc') (hp : s'.parsers = s.parsers)
    (hslots : s'.slots = s.slots) (hlog : s'.parseLog = s.parseLog)
    (hplace : s'.queue.count i + pc'.taken i + s'.inChannel i + s'.dropped.count i =
      s.queue.count i + pc.taken i + s.inChannel i + s.dropped.count i)
    (hreturned : (s'.downloadLog.map (·.1)).count i + pc.returned i + s.inChannel i =
      (s.downloadLog.map (·.1)).count i + pc'.returned i + s'.inChannel i) : s'.CountedAt i := by
  obtain ⟨h₁, h₂, h₃⟩ := h
  have ht := withDownloaders_of_update hd DownloadPc.taken i
  have hr := withDownloaders_of_update hd DownloadPc.returned i
  rw [hk] at ht hr
  have hfilled : s'.filled i = s.filled i := by rw [filled, filled, hslots]
  have hok : s'.filledOk i = s.filledOk i := by rw [filledOk, filledOk, hslots]
  have hsum : ∀ g, s'.withParsers g i = s.withParsers g i := fun g => by
    rw [withParsers, withParsers, hp]
  refine ⟨?_, ?_, ?_⟩
  · rw [hfilled, hsum]
    omega
  · rw [hfilled, hsum]
    omega
  · rw [hok, hsum, hlog]
    exact h₃

/-- A parse worker's. -/
theorem CountedAt.parser {s s' : PipelineState W} {i : W.Index} (h : s.CountedAt i)
    {k : Fin W.parseJobs} {pc pc' : ParsePc W.Index B R ρ} (hk : s.parsers k = pc)
    (hp : s'.parsers = Function.update s.parsers k pc') (hd : s'.downloaders = s.downloaders)
    (hslots : s'.slots = s.slots) (hqueue : s'.queue = s.queue) (hdrop : s'.dropped = s.dropped)
    (hlog : s'.downloadLog = s.downloadLog)
    (hplace : pc'.taken i + s'.inChannel i = pc.taken i + s.inChannel i)
    (hreturned : (s'.parseLog.map (·.1)).count i + pc.returned i =
      (s.parseLog.map (·.1)).count i + pc'.returned i) : s'.CountedAt i := by
  obtain ⟨h₁, h₂, h₃⟩ := h
  have ht := withParsers_of_update hp ParsePc.taken i
  have hr := withParsers_of_update hp ParsePc.returned i
  rw [hk] at ht hr
  have hfilled : s'.filled i = s.filled i := by rw [filled, filled, hslots]
  have hok : s'.filledOk i = s.filledOk i := by rw [filledOk, filledOk, hslots]
  have hsum : ∀ g, s'.withDownloaders g i = s.withDownloaders g i := fun g => by
    rw [withDownloaders, withDownloaders, hd]
  refine ⟨?_, ?_, ?_⟩
  · rw [hfilled, hsum, hqueue, hdrop]
    omega
  · rw [hfilled, hsum, hlog]
    omega
  · rw [hok]
    omega

theorem count_inChannel_cons {s : PipelineState W} {j : W.Index} {b : B} {rest : List (W.Index × B)}
    (hc : s.channel = (j, b) :: rest) (i : W.Index) :
    s.inChannel i = (rest.map (·.1)).count i + tick j i := by
  rw [inChannel, hc, List.map_cons, count_cons_tick]

/-- What a worker has is not in its slot. -/
theorem CountedAt.empty_of_downloader {s : PipelineState W} {i : W.Index} (h : s.CountedAt i)
    {k : Fin W.downloadJobs} (hk : (s.downloaders k).taken i = 1) : s.filled i = 0 := by
  have hsum : (s.downloaders k).taken i ≤ s.withDownloaders DownloadPc.taken i :=
    le_sum_of s.downloaders k (DownloadPc.taken i)
  have hplace := h.place
  omega

theorem CountedAt.empty_of_parsed {s : PipelineState W} {i : W.Index} (h : s.CountedAt i)
    {k : Fin W.parseJobs} (hk : (s.parsers k).taken i = 1) : s.filled i = 0 := by
  have hsum : (s.parsers k).taken i ≤ s.withParsers ParsePc.taken i :=
    le_sum_of s.parsers k (ParsePc.taken i)
  have hplace := h.place
  omega

theorem filled_setSlot (s : PipelineState W) (r : Except String R) {j : W.Index}
    (hempty : s.filled j = 0) (i : W.Index) : (s.setSlot j r).filled i = s.filled i + tick j i := by
  unfold filled setSlot tick at *
  by_cases hij : j = i
  · subst hij
    simp_all
  · simp [Function.update_of_ne (Ne.symm hij), hij]

theorem slots_of_filled {s : PipelineState W} {j : W.Index} (hempty : s.filled j = 0) :
    s.slots j = none := by
  unfold filled at hempty
  cases h : s.slots j with
  | none => rfl
  | some _ => simp [h] at hempty

theorem filledOk_setSlot_ok (s : PipelineState W) (r : R) {j : W.Index} (hempty : s.filled j = 0)
    (i : W.Index) : (s.setSlot j (.ok r)).filledOk i = s.filledOk i + tick j i := by
  have hnone := slots_of_filled hempty
  unfold filledOk setSlot tick
  by_cases hij : j = i
  · subst hij
    simp [hnone]
  · simp [Function.update_of_ne (Ne.symm hij), hij]

theorem filledOk_setSlot_error (s : PipelineState W) (e : String) {j : W.Index}
    (hempty : s.filled j = 0) (i : W.Index) : (s.setSlot j (.error e)).filledOk i = s.filledOk i := by
  have hnone := slots_of_filled hempty
  unfold filledOk setSlot
  by_cases hij : j = i
  · subst hij
    simp [hnone]
  · simp [Function.update_of_ne (Ne.symm hij)]

/-- A failed download goes from its worker to its slot. -/
theorem CountedAt.record {s : PipelineState W} {k : Fin W.downloadJobs} {i j : W.Index} {e : String}
    (h : s.CountedAt i) (hj : s.CountedAt j) (hk : s.downloaders k = .failed j e) :
    ((s.setDownloader k .ready).setSlot j (.error e)).CountedAt i := by
  have hempty : s.filled j = 0 := hj.empty_of_downloader (by rw [hk]; exact tick_self j)
  have hd : ((s.setDownloader k .ready).setSlot j (.error e)).downloaders =
      Function.update s.downloaders k .ready := rfl
  have ht := withDownloaders_of_update hd DownloadPc.taken i
  have hr := withDownloaders_of_update hd DownloadPc.returned i
  have hf := filled_setSlot (s.setDownloader k .ready) (.error e) hempty i
  have hok := filledOk_setSlot_error (s.setDownloader k .ready) e hempty i
  rw [hk] at ht hr
  obtain ⟨h₁, h₂, h₃⟩ := h
  refine ⟨?_, ?_, ?_⟩
  · rw [hf]
    change s.queue.count i + _ + s.inChannel i + s.withParsers _ i + (s.filled i + _) +
      s.dropped.count i = 1
    change _ + tick j i = _ + 0 at ht
    omega
  · rw [hf]
    change (s.downloadLog.map (·.1)).count i = _ + s.inChannel i + s.withParsers _ i +
      (s.filled i + _)
    change _ + tick j i = _ + 0 at hr
    omega
  · rw [hok]
    exact h₃

/-- A parsed item goes from its worker to its slot. -/
theorem CountedAt.fill {s : PipelineState W} {k : Fin W.parseJobs} {i j : W.Index} {r : R}
    (h : s.CountedAt i) (hj : s.CountedAt j) (hk : s.parsers k = .parsed j r) :
    ((s.setParser k .ready).setSlot j (.ok r)).CountedAt i := by
  have hempty : s.filled j = 0 := hj.empty_of_parsed (by rw [hk]; exact tick_self j)
  have hp : ((s.setParser k .ready).setSlot j (.ok r)).parsers =
      Function.update s.parsers k .ready := rfl
  have ht := withParsers_of_update hp ParsePc.taken i
  have hr := withParsers_of_update hp ParsePc.returned i
  have hf := filled_setSlot (s.setParser k .ready) (.ok r) hempty i
  have hok := filledOk_setSlot_ok (s.setParser k .ready) r hempty i
  rw [hk] at ht hr
  change _ + tick j i = _ + 0 at ht hr
  obtain ⟨h₁, h₂, h₃⟩ := h
  refine ⟨?_, ?_, ?_⟩
  · rw [hf]
    change s.queue.count i + s.withDownloaders _ i + s.inChannel i + _ + (s.filled i + _) +
      s.dropped.count i = 1
    omega
  · rw [hf]
    change (s.downloadLog.map (·.1)).count i = s.withDownloaders _ i + s.inChannel i + _ +
      (s.filled i + _)
    omega
  · rw [hok]
    change (s.parseLog.map (·.1)).count i = _ + (s.filledOk i + _)
    omega

theorem CountedAt.move {s s' : PipelineState W} (m : PipelineMove s s')
    (hall : ∀ i, s.CountedAt i) (i : W.Index) : s'.CountedAt i := by
  have h := hall i
  cases m with
  | wait => exact h
  | cancel => exact ⟨h.place, h.downloads, h.parses⟩
  | noMore hk hq => exact h.downloader hk rfl rfl rfl rfl rfl rfl
  | @pop k j rest hk hq =>
    refine h.downloader hk rfl rfl rfl rfl ?_ rfl
    change rest.count i + tick j i + s.inChannel i + _ = _
    rw [hq, count_cons_tick]
    rfl
  | @giveUp k j hk _ _ =>
    refine h.downloader hk rfl rfl rfl rfl ?_ rfl
    change s.queue.count i + 0 + s.inChannel i + (s.dropped ++ [j]).count i =
      s.queue.count i + tick j i + s.inChannel i + s.dropped.count i
    rw [count_concat_tick]
    omega
  | begin hk => exact h.downloader hk rfl rfl rfl rfl rfl rfl
  | fetch hk _ => exact h.downloader hk rfl rfl rfl rfl rfl rfl
  | @fetched k j p w b hk _ =>
    refine h.downloader hk rfl rfl rfl rfl rfl ?_
    rw [List.map_append, List.map_singleton, count_concat_tick]
    rfl
  | @failed k j p w e hk _ =>
    refine h.downloader hk rfl rfl rfl rfl rfl ?_
    rw [List.map_append, List.map_singleton, count_concat_tick]
    rfl
  | acquire hk => exact h.downloader hk rfl rfl rfl rfl rfl rfl
  | @send k j b hk _ =>
    have hsent : ((s.channel ++ [(j, b)]).map (·.1)).count i = s.inChannel i + tick j i := by
      rw [List.map_append, List.map_singleton, count_concat_tick]
      rfl
    refine h.downloader hk rfl rfl rfl rfl ?_ ?_
    · change s.queue.count i + 0 + ((s.channel ++ [(j, b)]).map (·.1)).count i + s.dropped.count i =
        s.queue.count i + tick j i + s.inChannel i + s.dropped.count i
      rw [hsent]
      omega
    · change (s.downloadLog.map (·.1)).count i + tick j i + s.inChannel i =
        (s.downloadLog.map (·.1)).count i + 0 + ((s.channel ++ [(j, b)]).map (·.1)).count i
      rw [hsent]
      omega
  | @record k j e hk => exact h.record (hall j) hk
  | lock hk _ => exact h.parser hk rfl rfl rfl rfl rfl rfl rfl rfl
  | @receive k j b rest hk hc =>
    refine h.parser hk rfl rfl rfl rfl rfl rfl ?_ rfl
    change tick j i + (rest.map (·.1)).count i = 0 + s.inChannel i
    rw [count_inChannel_cons hc]
    omega
  | closed hk hc _ => exact h.parser hk rfl rfl rfl rfl rfl rfl rfl rfl
  | parse hk _ => exact h.parser hk rfl rfl rfl rfl rfl rfl rfl rfl
  | @parsed k j b p w r hk _ =>
    refine h.parser hk rfl rfl rfl rfl rfl rfl rfl ?_
    rw [List.map_append, List.map_singleton, count_concat_tick]
    rfl
  | @fill k j r hk => exact h.fill (hall j) hk

theorem countedAt_init (w : σ) (i : W.Index) : (init W w).CountedAt i := by
  have hdown : ∀ g : W.Index → DownloadPc W.Index B π → Nat, g i .ready = 0 →
      (init W w).withDownloaders g i = 0 := fun g hg => by
    simp [withDownloaders, init, hg]
  have hparse : ∀ g : W.Index → ParsePc W.Index B R ρ → Nat, g i .ready = 0 →
      (init W w).withParsers g i = 0 := fun g hg => by
    simp [withParsers, init, hg]
  have hqueue : (init W w).queue.count i = 1 :=
    List.count_eq_one_of_mem (List.nodup_finRange _) (List.mem_finRange i)
  refine ⟨?_, ?_, ?_⟩
  · rw [hqueue, hdown _ rfl, hparse _ rfl]
    rfl
  · rw [hdown _ rfl, hparse _ rfl]
    rfl
  · rw [hparse _ rfl]
    rfl

/-- The calls an index has had are at most the places it is in after them. -/
theorem CountedAt.calls_le {s : PipelineState W} {i : W.Index} (h : s.CountedAt i) :
    s.downloadCalls i ≤ 1 ∧ s.parseCalls i ≤ 1 := by
  obtain ⟨hplace, hdownloads, hparses⟩ := h
  have hd : s.withDownloaders DownloadPc.calling i + s.withDownloaders DownloadPc.returned i ≤
      s.withDownloaders DownloadPc.taken i := by
    unfold withDownloaders
    rw [← Finset.sum_add_distrib]
    refine Finset.sum_le_sum fun k _ => ?_
    cases s.downloaders k <;> simp [DownloadPc.calling, DownloadPc.returned, DownloadPc.taken]
  have hp : s.withParsers ParsePc.calling i + s.withParsers ParsePc.returned i ≤
      s.withParsers ParsePc.taken i := by
    unfold withParsers
    rw [← Finset.sum_add_distrib]
    refine Finset.sum_le_sum fun k _ => ?_
    cases s.parsers k <;> simp [ParsePc.calling, ParsePc.returned, ParsePc.taken]
  have hok : s.filledOk i ≤ s.filled i := by
    unfold filledOk filled
    split
    · next h => simp [h]
    · exact Nat.zero_le _
  unfold downloadCalls parseCalls
  omega

end PipelineState

theorem countedAt_run (w : σ) (as : List (PipelineAction W)) (i : W.Index) :
    (run pipelineStep (PipelineState.init W w) as).CountedAt i :=
  run_invariant (P := fun s => ∀ i, s.CountedAt i) (PipelineState.countedAt_init w)
    (fun s a h => PipelineState.CountedAt.move (pipelineStep_move s a) h) as i

end Places

end Inim
