import Inim.Lib.Runs
import Inim.Pipeline.Control

/-!
# Every fair schedule ends

A worker waits for the lock of the receiver, for room in the channel, or for an item. The rank of a state
counts the steps that are left: the stage every index and every worker has reached, then the cost of the
calls that are running; a step changes nothing or lowers it (`PipelineMove.rank_lt`). As long as a
worker has not ended, some worker does not wait (`exists_turn`): the senders of a full channel wait for
parse workers, which have not ended and of which one can take an item. So all workers end under every
fair schedule (`finished_of_fair`).
-/

namespace Inim

open Lib

section Rank
variable {σ A B R π ρ : Type} {W : Workload σ A B R π ρ}

def DownloadPc.stage {ι B π : Type} : DownloadPc ι B π → Nat
  | .popped _ => 9
  | .fetching _ _ => 8
  | .fetched _ _ => 7
  | .sending _ _ => 6
  | .failed _ _ => 2
  | .ready => 1
  | .ended => 0

def ParsePc.stage {ι B R ρ : Type} : ParsePc ι B R ρ → Nat
  | .parsing _ _ _ => 4
  | .parsed _ _ => 3
  | .ready => 2
  | .receiving => 1
  | .ended => 0

variable (W) in
/-- What the running call has left. -/
def downloadCost : DownloadPc W.Index B π → Nat
  | .fetching _ p => W.download.cost p
  | _ => 0

variable (W) in
def parseCost : ParsePc W.Index B R ρ → Nat
  | .parsing _ _ p => W.parse.cost p
  | _ => 0

namespace PipelineState

def stage (s : PipelineState W) : Nat :=
  9 * s.queue.length + ∑ k, (s.downloaders k).stage + 4 * s.channel.length +
    ∑ k, (s.parsers k).stage + if s.cancel then 0 else 1

def cost (s : PipelineState W) : Nat :=
  ∑ k, downloadCost W (s.downloaders k) + ∑ k, parseCost W (s.parsers k)

def rank (s : PipelineState W) : ℕ ×ₗ ℕ := toLex (s.stage, s.cost)

theorem rank_lt_of_stage {s s' : PipelineState W} (h : s'.stage < s.stage) : s'.rank < s.rank :=
  Prod.Lex.toLex_lt_toLex.2 (.inl h)

theorem rank_lt_of_cost {s s' : PipelineState W} (h : s'.stage = s.stage) (hc : s'.cost < s.cost) :
    s'.rank < s.rank :=
  Prod.Lex.toLex_lt_toLex.2 (.inr ⟨h, hc⟩)

section Downloader
variable {s s' : PipelineState W} {k : Fin W.downloadJobs} {pc pc' : DownloadPc W.Index B π}

/-- A download worker's step, by the stage it leaves and the one it reaches. -/
theorem stage_downloaders (hk : s.downloaders k = pc)
    (hd : s'.downloaders = Function.update s.downloaders k pc') (hp : s'.parsers = s.parsers)
    (hcancel : s'.cancel = s.cancel) :
    s'.stage + (9 * s.queue.length + pc.stage + 4 * s.channel.length) =
      s.stage + (9 * s'.queue.length + pc'.stage + 4 * s'.channel.length) := by
  have hsum := sum_update s.downloaders k pc' DownloadPc.stage
  rw [hk] at hsum
  unfold stage
  rw [hd, hp, hcancel]
  omega

theorem rank_lt_of_downloaders (hk : s.downloaders k = pc)
    (hd : s'.downloaders = Function.update s.downloaders k pc') (hp : s'.parsers = s.parsers)
    (hcancel : s'.cancel = s.cancel)
    (hlt : 9 * s'.queue.length + pc'.stage + 4 * s'.channel.length <
      9 * s.queue.length + pc.stage + 4 * s.channel.length) : s'.rank < s.rank := by
  have hstage := stage_downloaders hk hd hp hcancel
  exact rank_lt_of_stage (by omega)

theorem rank_lt_of_fetch {i : W.Index} {p p' : π} (hk : s.downloaders k = .fetching i p)
    (hd : s'.downloaders = Function.update s.downloaders k (.fetching i p'))
    (hp : s'.parsers = s.parsers) (hqueue : s'.queue = s.queue) (hchannel : s'.channel = s.channel)
    (hcancel : s'.cancel = s.cancel) (hlt : W.download.cost p' < W.download.cost p) :
    s'.rank < s.rank := by
  have hstage := stage_downloaders hk hd hp hcancel
  have hsum := sum_update s.downloaders k (.fetching i p') (downloadCost W)
  rw [hk] at hsum
  change _ + W.download.cost p = _ + W.download.cost p' at hsum
  rw [hqueue, hchannel] at hstage
  refine rank_lt_of_cost (Nat.add_right_cancel hstage) ?_
  unfold cost
  rw [hd, hp]
  omega

end Downloader

section Parser
variable {s s' : PipelineState W} {k : Fin W.parseJobs} {pc pc' : ParsePc W.Index B R ρ}

theorem stage_parsers (hk : s.parsers k = pc)
    (hp : s'.parsers = Function.update s.parsers k pc') (hd : s'.downloaders = s.downloaders)
    (hqueue : s'.queue = s.queue) (hcancel : s'.cancel = s.cancel) :
    s'.stage + (pc.stage + 4 * s.channel.length) =
      s.stage + (pc'.stage + 4 * s'.channel.length) := by
  have hsum := sum_update s.parsers k pc' ParsePc.stage
  rw [hk] at hsum
  unfold stage
  rw [hd, hp, hcancel, hqueue]
  omega

theorem rank_lt_of_parsers (hk : s.parsers k = pc)
    (hp : s'.parsers = Function.update s.parsers k pc') (hd : s'.downloaders = s.downloaders)
    (hqueue : s'.queue = s.queue) (hcancel : s'.cancel = s.cancel)
    (hlt : pc'.stage + 4 * s'.channel.length < pc.stage + 4 * s.channel.length) :
    s'.rank < s.rank := by
  have hstage := stage_parsers hk hp hd hqueue hcancel
  exact rank_lt_of_stage (by omega)

theorem rank_lt_of_parse {i : W.Index} {b : B} {p p' : ρ} (hk : s.parsers k = .parsing i b p)
    (hp : s'.parsers = Function.update s.parsers k (.parsing i b p'))
    (hd : s'.downloaders = s.downloaders) (hqueue : s'.queue = s.queue)
    (hchannel : s'.channel = s.channel) (hcancel : s'.cancel = s.cancel)
    (hlt : W.parse.cost p' < W.parse.cost p) : s'.rank < s.rank := by
  have hstage := stage_parsers hk hp hd hqueue hcancel
  have hsum := sum_update s.parsers k (.parsing i b p') (parseCost W)
  rw [hk] at hsum
  change _ + W.parse.cost p = _ + W.parse.cost p' at hsum
  rw [hchannel] at hstage
  refine rank_lt_of_cost (Nat.add_right_cancel hstage) ?_
  unfold cost
  rw [hd, hp]
  omega

end Parser

end PipelineState

open PipelineState in
/-- Each step changes nothing or lowers the rank. -/
theorem PipelineMove.rank_lt {s s' : PipelineState W} (m : PipelineMove s s') :
    s' = s ∨ s'.rank < s.rank := by
  cases m with
  | wait => exact .inl rfl
  | cancel =>
    cases hcancel : s.cancel with
    | true =>
      left
      rw [← hcancel]
    | false =>
      refine .inr (rank_lt_of_stage ?_)
      simp [stage, hcancel]
  | noMore hk _ | begin hk | giveUp hk _ _ | fetched hk _ | failed hk _ | acquire hk | record hk =>
    refine .inr (rank_lt_of_downloaders hk rfl rfl rfl ?_)
    simp [setDownloader, setSlot, DownloadPc.stage]
  | pop hk hq =>
    refine .inr (rank_lt_of_downloaders hk rfl rfl rfl ?_)
    simp only [setDownloader, hq, List.length_cons, DownloadPc.stage]
    omega
  | send hk _ =>
    refine .inr (rank_lt_of_downloaders hk rfl rfl rfl ?_)
    simp only [setDownloader, List.length_append, List.length_singleton, DownloadPc.stage]
    omega
  | fetch hk hstep =>
    exact .inr (rank_lt_of_fetch hk rfl rfl rfl rfl rfl (W.download.cost_lt hstep))
  | lock hk _ | closed hk _ _ | parsed hk _ | fill hk =>
    refine .inr (rank_lt_of_parsers hk rfl rfl rfl rfl ?_)
    simp [setParser, setSlot, ParsePc.stage]
  | receive hk hc =>
    refine .inr (rank_lt_of_parsers hk rfl rfl rfl rfl ?_)
    simp only [hc, List.length_cons, ParsePc.stage]
    omega
  | parse hk hstep =>
    exact .inr (rank_lt_of_parse hk rfl rfl rfl rfl rfl (W.parse.cost_lt hstep))

/-! ## Whose turn lowers it -/

variable (W) in
abbrev PipelineWorker := Fin W.downloadJobs ⊕ Fin W.parseJobs

def PipelineAction.worker : PipelineAction W → Option (PipelineWorker W)
  | .download k _ => some (.inl k)
  | .parse k => some (.inr k)
  | .cancel => none

namespace PipelineState

variable {s : PipelineState W}

/-- A download worker waits for room in the channel only. -/
theorem downloadStep_ne {k : Fin W.downloadJobs} (seen : Bool)
    (hrun : (s.downloaders k).isEnded = false)
    (hroom : ∀ i b, s.downloaders k = .sending i b → s.channel.length < W.parseJobs) :
    s.downloadStep k seen ≠ s := by
  intro heq
  have hpc : (s.downloadStep k seen).downloaders k = s.downloaders k := by rw [heq]
  unfold downloadStep at hpc
  cases hk : s.downloaders k with
  | ready =>
    rw [hk] at hpc
    dsimp only at hpc
    split at hpc <;> simp [setDownloader] at hpc
  | popped i =>
    rw [hk] at hpc
    dsimp only at hpc
    split at hpc <;> simp [setDownloader] at hpc
  | fetching i p =>
    rw [hk] at hpc
    dsimp only at hpc
    split at hpc
    · next p' hstep =>
      have hlt := W.download.cost_lt hstep
      simp only [setDownloader, Function.update_self, DownloadPc.fetching.injEq, true_and] at hpc
      rw [hpc] at hlt
      exact lt_irrefl _ hlt
    · simp [setDownloader] at hpc
    · simp [setDownloader] at hpc
  | fetched i b =>
    rw [hk] at hpc
    simp [setDownloader] at hpc
  | sending i b =>
    rw [hk] at hpc
    simp [setDownloader, hroom i b hk] at hpc
  | failed i e =>
    rw [hk] at hpc
    simp [setDownloader, setSlot] at hpc
  | ended =>
    rw [hk] at hrun
    cases hrun

/-- A parse worker does not wait with a call that runs or has returned, nor, if it has the lock, as
long as there is an item or no sender left. -/
theorem parseStep_ne {k : Fin W.parseJobs} (hrun : (s.parsers k).isEnded = false)
    (hlock : s.parsers k = .ready → s.receiver = none)
    (hitem : s.parsers k = .receiving → s.channel ≠ [] ∨ s.sendersGone = true) :
    s.parseStep k ≠ s := by
  intro heq
  have hpc : (s.parseStep k).parsers k = s.parsers k := by rw [heq]
  unfold parseStep at hpc
  cases hk : s.parsers k with
  | ready =>
    rw [hk] at hpc
    simp [setParser, hlock hk] at hpc
  | receiving =>
    rw [hk] at hpc
    dsimp only at hpc
    split at hpc
    · simp [setParser] at hpc
    · next hnil =>
      rcases hitem hk with hne | hgone
      · exact hne hnil
      · simp [setParser, hgone] at hpc
  | parsing i b p =>
    rw [hk] at hpc
    dsimp only at hpc
    split at hpc
    · next p' hstep =>
      have hlt := W.parse.cost_lt hstep
      simp only [setParser, Function.update_self, ParsePc.parsing.injEq, true_and] at hpc
      rw [hpc] at hlt
      exact lt_irrefl _ hlt
    · simp [setParser] at hpc
  | parsed i r =>
    rw [hk] at hpc
    simp [setParser, setSlot] at hpc
  | ended =>
    rw [hk] at hrun
    cases hrun

/-- With an item or no sender left, a pool of parse workers of which one has not ended does not stand
still. -/
theorem exists_parsers (h : s.Control) {k : Fin W.parseJobs} (hrun : (s.parsers k).isEnded = false)
    (hitem : s.channel ≠ [] ∨ s.sendersGone = true) : ∃ j, s.parseStep j ≠ s := by
  cases hreceiver : s.receiver with
  | some j =>
    -- who has the lock can go on
    have hj : s.parsers j = .receiving := (h.receiver j).1 hreceiver
    exact ⟨j, parseStep_ne (by rw [hj]; rfl) (fun hready => by simp [hj] at hready)
      (fun _ => hitem)⟩
  | none => exact ⟨k, parseStep_ne hrun (fun _ => hreceiver) fun _ => hitem⟩

/-- As long as a worker has not ended, some worker's turn changes the state. -/
theorem exists_turn (h : s.Control) (hrun : ¬ s.finished) :
    ∃ k : PipelineWorker W, ∀ a : PipelineAction W, a.worker = some k → pipelineStep s a ≠ s := by
  have hparser : (∃ j, s.parseStep j ≠ s) →
      ∃ k : PipelineWorker W, ∀ a : PipelineAction W, a.worker = some k → pipelineStep s a ≠ s := by
    rintro ⟨j, hj⟩
    refine ⟨.inr j, fun a ha => ?_⟩
    cases a with
    | parse j' =>
      obtain rfl : j' = j := by simpa [PipelineAction.worker] using ha
      exact hj
    | download _ _ | cancel => simp [PipelineAction.worker] at ha
  by_cases hdown : ∀ k, (s.downloaders k).isEnded = true
  · -- only parse workers are left, and no sender
    obtain ⟨j, hj⟩ : ∃ j, (s.parsers j).isEnded = false := by
      by_contra hnone
      exact hrun ⟨hdown, fun j => by simpa using not_exists.1 hnone j⟩
    exact hparser (exists_parsers h hj (.inr (decide_eq_true hdown)))
  · obtain ⟨k, hk⟩ := not_forall.1 hdown
    have hk : (s.downloaders k).isEnded = false := by simpa using hk
    by_cases hfull : s.channel.length < W.parseJobs
    · refine ⟨.inl k, fun a ha => ?_⟩
      cases a with
      | download k' seen =>
        obtain rfl : k' = k := by simpa [PipelineAction.worker] using ha
        exact downloadStep_ne seen hk fun _ _ _ => hfull
      | parse _ | cancel => simp [PipelineAction.worker] at ha
    · -- the channel is full: a parse worker takes an item
      have hne : s.channel ≠ [] := by
        intro hnil
        rw [hnil] at hfull
        exact hfull W.parseJobs_pos
      exact hparser (exists_parsers h (h.parser_runs hk ⟨0, W.parseJobs_pos⟩) (.inl hne))

end PipelineState

/-- **Every fair schedule ends**: all workers end, whatever their numbers and their order. -/
theorem finished_of_fair (w : σ) (f : ℕ → PipelineAction W) (hfair : Fair PipelineAction.worker f) :
    ∃ n, (stateAfter pipelineStep (PipelineState.init W w) f n).finished := by
  have hstep : ∀ (s : PipelineState W) a,
      pipelineStep s a = s ∨ (pipelineStep s a).rank < s.rank := fun s a =>
    (pipelineStep_move s a).rank_lt
  refine exists_goal_of_fair (PipelineState.control_init w)
    (fun s a h => h.move (pipelineStep_move s a)) (fun s a _ => hstep s a) (fun s h hrun => ?_) hfair
  obtain ⟨k, hk⟩ := PipelineState.exists_turn h hrun
  exact ⟨k, fun a ha => (hstep s a).resolve_left (hk a ha)⟩

end Rank

end Inim
