import Inim.Lib.Runs
import Inim.Lib.Tasks

/-!
# The bounded download and parse pipeline (`pipeline.rs:25-108`)

| here | there |
| --- | --- |
| `Workload`                 | the arguments of `run_bounded_pipeline`, and its two numbers of workers |
| `DownloadPc`, `ParsePc`    | where a worker of either stage stands |
| `PipelineState`            | `queue`, `slots`, `acquired`, the channel, the lock of its receiver |
| `downloadStep`             | one step of a download worker (`:53-75`) |
| `parseStep`                | one step of a parse worker (`:78-91`) |
| `mergeSlots`               | the merge (`:94-108`) |

`process_updates_pipeline` (`orchestrate.rs:1344-1508`) is the same machine with a cancellation
flag that a download worker reads after it has taken an index. A run is a list of actions, in any
order: an action of a worker that has to wait changes nothing. A flag is read relaxed, so a worker
may see the old value; the action says what it sees. The closures are tasks over a shared state.

The main thread has dropped its sender before the first parse worker starts, and holds the
receiver until all workers have ended: a `send` does not fail. No closure panics.
-/

namespace Inim

open Lib

/-- Every worker pool has a worker. -/
structure Workload (σ A B R π ρ : Type) where
  download : Task σ A π (Except String B)
  parse : Task σ (B × A) ρ R
  items : List A
  downloadJobs : Nat
  parseJobs : Nat
  downloadJobs_pos : 0 < downloadJobs
  parseJobs_pos : 0 < parseJobs
  /-- Download workers look at the cancellation flag. -/
  checksCancel : Bool

inductive DownloadPc (ι B π : Type) where
  | ready
  | popped (i : ι)
  | fetching (i : ι) (p : π)
  | fetched (i : ι) (b : B)
  | sending (i : ι) (b : B)
  | failed (i : ι) (e : String)
  | ended

inductive ParsePc (ι B R ρ : Type) where
  | ready
  /-- In `recv`, with the lock of the receiver. -/
  | receiving
  | parsing (i : ι) (b : B) (p : ρ)
  | parsed (i : ι) (r : R)
  | ended

def DownloadPc.isEnded {ι B π : Type} : DownloadPc ι B π → Bool
  | .ended => true
  | _ => false

def ParsePc.isEnded {ι B R ρ : Type} : ParsePc ι B R ρ → Bool
  | .ended => true
  | _ => false

section Machine
variable {σ A B R π ρ : Type}

abbrev Workload.Index (W : Workload σ A B R π ρ) := Fin W.items.length

structure PipelineState (W : Workload σ A B R π ρ) where
  queue : List W.Index
  channel : List (W.Index × B)
  slots : W.Index → Option (Except String R)
  acquired : W.Index → Option B
  downloaders : Fin W.downloadJobs → DownloadPc W.Index B π
  parsers : Fin W.parseJobs → ParsePc W.Index B R ρ
  /-- Who holds the lock of the receiver. -/
  receiver : Option (Fin W.parseJobs)
  cancel : Bool
  world : σ
  /-- A download worker has seen the flag set. -/
  cancelSeen : Bool
  /-- The indices taken from the queue and given up for that. -/
  dropped : List W.Index
  /-- The calls that have returned. -/
  downloadLog : List (W.Index × Except String B)
  parseLog : List (W.Index × B × R)

variable (W : Workload σ A B R π ρ)

def PipelineState.init (w : σ) : PipelineState W where
  queue := List.finRange W.items.length
  channel := []
  slots := fun _ => none
  acquired := fun _ => none
  downloaders := fun _ => .ready
  parsers := fun _ => .ready
  receiver := none
  cancel := false
  world := w
  cancelSeen := false
  dropped := []
  downloadLog := []
  parseLog := []

variable {W}

namespace PipelineState

def setDownloader (s : PipelineState W) (k : Fin W.downloadJobs) (pc : DownloadPc W.Index B π) :
    PipelineState W := { s with downloaders := Function.update s.downloaders k pc }

def setParser (s : PipelineState W) (k : Fin W.parseJobs) (pc : ParsePc W.Index B R ρ) :
    PipelineState W := { s with parsers := Function.update s.parsers k pc }

def setSlot (s : PipelineState W) (i : W.Index) (r : Except String R) : PipelineState W :=
  { s with slots := Function.update s.slots i (some r) }

/-- No download worker is left that could send. -/
def sendersGone (s : PipelineState W) : Bool := decide (∀ j, (s.downloaders j).isEnded = true)

/-- `seen` is what a load of the flag answers here, if it has been set. -/
def downloadStep (s : PipelineState W) (k : Fin W.downloadJobs) (seen : Bool) : PipelineState W :=
  match s.downloaders k with
  | .ready =>
    match s.queue with
    | [] => s.setDownloader k .ended
    | i :: rest => { s.setDownloader k (.popped i) with queue := rest }
  | .popped i =>
    if W.checksCancel && (seen && s.cancel) then
      -- cooperative stop between downloads: the index is given up
      { s.setDownloader k .ended with cancelSeen := true, dropped := s.dropped ++ [i] }
    else s.setDownloader k (.fetching i (W.download.start (W.items.get i)))
  | .fetching i p =>
    match W.download.step s.world p with
    | (w, .next p) => { s.setDownloader k (.fetching i p) with world := w }
    | (w, .done (.ok b)) =>
      { s.setDownloader k (.fetched i b) with
        world := w, downloadLog := s.downloadLog ++ [(i, .ok b)] }
    | (w, .done (.error e)) =>
      { s.setDownloader k (.failed i e) with
        world := w, downloadLog := s.downloadLog ++ [(i, .error e)] }
  | .fetched i b =>
    { s.setDownloader k (.sending i b) with acquired := Function.update s.acquired i (some b) }
  | .sending i b =>
    -- the channel holds `parseJobs` items
    if s.channel.length < W.parseJobs then
      { s.setDownloader k .ready with channel := s.channel ++ [(i, b)] }
    else s
  | .failed i e => (s.setDownloader k .ready).setSlot i (.error e)
  | .ended => s

def parseStep (s : PipelineState W) (k : Fin W.parseJobs) : PipelineState W :=
  match s.parsers k with
  | .ready =>
    match s.receiver with
    | none => { s.setParser k .receiving with receiver := some k }
    | some _ => s
  | .receiving =>
    match s.channel with
    | (i, b) :: rest =>
      { s.setParser k (.parsing i b (W.parse.start (b, W.items.get i))) with
        channel := rest, receiver := none }
    | [] =>
      if s.sendersGone then { s.setParser k .ended with receiver := none } else s
  | .parsing i b p =>
    match W.parse.step s.world p with
    | (w, .next p) => { s.setParser k (.parsing i b p) with world := w }
    | (w, .done r) =>
      { s.setParser k (.parsed i r) with world := w, parseLog := s.parseLog ++ [(i, b, r)] }
  | .parsed i r => (s.setParser k .ready).setSlot i (.ok r)
  | .ended => s

/-- All workers have ended: the scope returns. -/
def finished (s : PipelineState W) : Prop :=
  (∀ k, (s.downloaders k).isEnded = true) ∧ ∀ k, (s.parsers k).isEnded = true

instance (s : PipelineState W) : Decidable s.finished := inferInstanceAs (Decidable (_ ∧ _))

end PipelineState

variable (W) in
inductive PipelineAction where
  | download (k : Fin W.downloadJobs) (seen : Bool)
  | parse (k : Fin W.parseJobs)
  | cancel

def pipelineStep (s : PipelineState W) : PipelineAction W → PipelineState W
  | .download k seen => s.downloadStep k seen
  | .parse k => s.parseStep k
  | .cancel => { s with cancel := true }

/-! ## The merge -/

/-- One slot of the merge; `missing` is what an unfilled or failed slot adds to the output. -/
def mergeSlot (s : PipelineState W) (missing : W.Index → List (Option B × R))
    (acc : List (Option B × R) × Option String) (i : W.Index) :
    List (Option B × R) × Option String :=
  match s.slots i with
  | some (.ok r) => (acc.1 ++ [(s.acquired i, r)], acc.2)
  | some (.error e) => (acc.1 ++ missing i, acc.2.or (some e))
  | none => (acc.1 ++ missing i, acc.2)

/-- The merge in input order; the first error is the answer. -/
def mergeSlots (s : PipelineState W) (missing : W.Index → List (Option B × R)) :
    Except String (List (Option B × R)) :=
  let (out, firstError) := (List.finRange W.items.length).foldl (mergeSlot s missing) ([], none)
  match firstError with
  | some e => .error e
  | none => .ok out

/-- What `run_bounded_pipeline` answers once all workers have ended. -/
def boundedResult (s : PipelineState W) : Except String (List (Option B × R)) :=
  mergeSlots s fun _ => []

end Machine

end Inim
