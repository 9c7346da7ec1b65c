import Inim.Pipeline.Places

/-!
# What an ended worker tells

In every state of a run the end of a worker says where the work is: a download worker ends on an empty
queue or on a cancellation, a parse worker on an empty channel whose senders have all ended, and nothing
is dropped before a cancellation is seen (`control_run`).
-/

namespace Inim

open Lib

section Control
variable {σ A B R π ρ : Type} {W : Workload σ A B R π ρ}

namespace PipelineState

structure Control (s : PipelineState W) : Prop where
  receiver : ∀ k, s.receiver = some k ↔ s.parsers k = .receiving
  queue : ∀ k, (s.downloaders k).isEnded = true → s.queue = [] ∨ s.cancelSeen = true
  channel : ∀ k, (s.parsers k).isEnded = true →
    s.channel = [] ∧ ∀ j, (s.downloaders j).isEnded = true
  dropped : s.cancelSeen = false → s.dropped = []
  seen : s.cancelSeen = true → s.cancel = true ∧ W.checksCancel = true

theorem control_init (w : σ) : (init W w).Control where
  receiver k := iff_of_false (fun h => by cases h) (fun h => by cases h)
  queue k h := by cases h
  channel k h := by cases h
  dropped _ := rfl
  seen h := by cases h

/-- A download worker that has not ended keeps every parse worker from ending. -/
theorem Control.parser_runs {s : PipelineState W} (h : s.Control) {k : Fin W.downloadJobs}
    (hk : (s.downloaders k).isEnded = false) (j : Fin W.parseJobs) :
    (s.parsers j).isEnded = false := by
  rw [← Bool.not_eq_true]
  intro hj
  rw [(h.channel j hj).2 k] at hk
  cases hk

theorem Control.downloader {s s' : PipelineState W} (h : s.Control) {k : Fin W.downloadJobs}
    {pc pc' : DownloadPc W.Index B π} (hk : s.downloaders k = pc) (hrun : pc.isEnded = false)
    (hd : s'.downloaders = Function.update s.downloaders k pc') (hp : s'.parsers = s.parsers)
    (hrec : s'.receiver = s.receiver) (hqueue : s.queue = [] → s'.queue = [])
    (hmono : s.cancelSeen = true → s'.cancelSeen = true)
    (hend : pc'.isEnded = true → s'.queue = [] ∨ s'.cancelSeen = true)
    (hdropped : s'.cancelSeen = false → s'.dropped = [])
    (hseen : s'.cancelSeen = true → s'.cancel = true ∧ W.checksCancel = true) : s'.Control where
  receiver j := by rw [hrec, hp]; exact h.receiver j
  queue j hj := by
    rw [hd, Function.update_apply] at hj
    split at hj
    · exact hend hj
    · exact (h.queue j hj).imp hqueue hmono
  channel j hj := by
    rw [hp, h.parser_runs (by rw [hk]; exact hrun) j] at hj
    cases hj
  dropped := hdropped
  seen := hseen

theorem Control.parser {s s' : PipelineState W} (h : s.Control) {k : Fin W.parseJobs}
    {pc' : ParsePc W.Index B R ρ} (hp : s'.parsers = Function.update s.parsers k pc')
    (hd : s'.downloaders = s.downloaders) (hqueue : s'.queue = s.queue)
    (hcancel : s'.cancel = s.cancel) (hflag : s'.cancelSeen = s.cancelSeen)
    (hdropped : s'.dropped = s.dropped)
    (hrec : ∀ j, s'.receiver = some j ↔ s'.parsers j = .receiving)
    (hchannel : s.channel = [] → s'.channel = [])
    (hend : pc'.isEnded = true → s'.channel = [] ∧ ∀ j, (s.downloaders j).isEnded = true) :
    s'.Control where
  receiver := hrec
  queue j hj := by rw [hd] at hj; rw [hqueue, hflag]; exact h.queue j hj
  channel j hj := by
    rw [hd]
    rw [hp, Function.update_apply] at hj
    split at hj
    · exact hend hj
    · exact (h.channel j hj).imp hchannel id
  dropped := by rw [hflag, hdropped]; exact h.dropped
  seen := by rw [hflag, hcancel]; exact h.seen

/-- A worker that neither takes nor gives back the lock. -/
theorem Control.keeps_lock {s s' : PipelineState W} (h : s.Control) {k : Fin W.parseJobs}
    {pc pc' : ParsePc W.Index B R ρ} (hk : s.parsers k = pc) (hpc : pc ≠ .receiving)
    (hpc' : pc' ≠ .receiving) (hp : s'.parsers = Function.update s.parsers k pc')
    (hrec : s'.receiver = s.receiver) (j : Fin W.parseJobs) :
    s'.receiver = some j ↔ s'.parsers j = .receiving := by
  rw [hrec, hp, Function.update_apply, h.receiver j]
  split
  · next hj =>
    subst hj
    rw [hk]
    exact iff_of_false hpc hpc'
  · exact Iff.rfl

/-- A worker that gives it back. -/
theorem Control.releases {s s' : PipelineState W} (h : s.Control) {k : Fin W.parseJobs}
    {pc' : ParsePc W.Index B R ρ} (hk : s.parsers k = .receiving) (hpc' : pc' ≠ .receiving)
    (hp : s'.parsers = Function.update s.parsers k pc') (hrec : s'.receiver = none)
    (j : Fin W.parseJobs) : s'.receiver = some j ↔ s'.parsers j = .receiving := by
  rw [hrec, hp, Function.update_apply]
  split
  · exact iff_of_false (by simp) hpc'
  · next hj =>
    refine iff_of_false (by simp) fun hreceiving => ?_
    have hboth := ((h.receiver k).2 hk).symm.trans ((h.receiver j).2 hreceiving)
    exact hj (Option.some.inj hboth).symm

theorem Control.move {s s' : PipelineState W} (h : s.Control) (m : PipelineMove s s') :
    s'.Control := by
  cases m with
  | wait => exact h
  | cancel => exact ⟨h.receiver, h.queue, h.channel, h.dropped, fun hs => ⟨rfl, (h.seen hs).2⟩⟩
  | noMore hk hq =>
    exact h.downloader hk rfl rfl rfl rfl id id (fun _ => .inl hq) h.dropped h.seen
  | pop hk hq =>
    refine h.downloader hk rfl rfl rfl rfl (fun hnil => ?_) id (fun hend => by cases hend)
      h.dropped h.seen
    rw [hq] at hnil
    cases hnil
  | giveUp hk hcheck hcancel =>
    exact h.downloader hk rfl rfl rfl rfl id (fun _ => rfl) (fun _ => .inr rfl)
      (fun hno => by cases hno) (fun _ => ⟨hcancel, hcheck⟩)
  | begin hk | fetch hk _ | fetched hk _ | failed hk _ | acquire hk | send hk _ | record hk =>
    exact h.downloader hk rfl rfl rfl rfl id id (fun hend => by cases hend) h.dropped h.seen
  | @lock k hk hfree =>
    refine h.parser rfl rfl rfl rfl rfl rfl (fun j => ?_) id (fun hend => by cases hend)
    change some k = some j ↔ Function.update s.parsers k .receiving j = .receiving
    rw [Function.update_apply, Option.some.injEq]
    split
    · next hj => exact iff_of_true hj.symm rfl
    · next hj =>
      refine iff_of_false (Ne.symm hj) fun hreceiving => ?_
      have hheld := (h.receiver j).2 hreceiving
      rw [hfree] at hheld
      cases hheld
  | receive hk hc =>
    refine h.parser rfl rfl rfl rfl rfl rfl (h.releases hk (by simp) rfl rfl) (fun hnil => ?_)
      (fun hend => by cases hend)
    rw [hc] at hnil
    cases hnil
  | closed hk hc hgone =>
    exact h.parser rfl rfl rfl rfl rfl rfl (h.releases hk (by simp) rfl rfl) id
      (fun _ => ⟨hc, of_decide_eq_true hgone⟩)
  | parse hk _ | parsed hk _ | fill hk =>
    exact h.parser rfl rfl rfl rfl rfl rfl (h.keeps_lock hk (by simp) (by simp) rfl rfl) id
      (fun hend => by cases hend)

end PipelineState

theorem control_run (w : σ) (as : List (PipelineAction W)) :
    (run pipelineStep (PipelineState.init W w) as).Control :=
  run_invariant (PipelineState.control_init w) (fun s a h => h.move (pipelineStep_move s a)) as

end Control

end Inim
