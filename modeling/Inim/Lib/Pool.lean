import Inim.Lib.Runs
import Inim.Lib.SortBy
import Inim.Lib.Tasks

/-!
# A pool of workers over one queue

Each worker takes the front of a shared queue, goes through its task step by step over a state that all
share, and appends its answer to a shared list, until the queue is empty. The answers come in any order,
but they are those of the items, one each (`Inv.results_perm`), and under every fair schedule all workers
end (`exists_ended`). `Rules` is what the steps of the tasks have to keep for the answers to be right.
-/

namespace Inim.Lib.Pool

/-- Where a worker stands. -/
inductive Slot (ι π : Type*) where
  | idle
  | busy (i : ι) (p : π)
  | ended

structure State (σ κ ι π ρ : Type*) where
  world : σ
  queue : List ι
  slots : κ → Slot ι π
  results : List (ι × ρ)

variable {σ κ ι π ρ : Type*}

def start (w : σ) (items : List ι) : State σ κ ι π ρ := ⟨w, items, fun _ => .idle, []⟩

def Slot.isEnded : Slot ι π → Bool
  | .ended => true
  | .idle | .busy _ _ => false

/-- All workers have ended. -/
def Ended (s : State σ κ ι π ρ) : Prop := ∀ k, s.slots k = .ended

/-! ## Turns -/

section Turns
variable [DecidableEq κ] (t : Task σ ι π ρ)

def setSlot (s : State σ κ ι π ρ) (k : κ) (x : Slot ι π) : State σ κ ι π ρ :=
  { s with slots := Function.update s.slots k x }

/-- What a step of a task leaves. -/
def advance (s : State σ κ ι π ρ) (k : κ) (i : ι) : σ × Move π ρ → State σ κ ι π ρ
  | (w, .next q) => setSlot { s with world := w } k (.busy i q)
  | (w, .done r) => setSlot { s with world := w, results := s.results ++ [(i, r)] } k .idle

/-- Worker `k` takes an item, goes one step on, or finds the queue empty and ends. -/
def turn (s : State σ κ ι π ρ) (k : κ) : State σ κ ι π ρ :=
  match s.slots k with
  | .ended => s
  | .busy i p => advance s k i (t.step s.world p)
  | .idle =>
    match s.queue with
    | [] => setSlot s k .ended
    | i :: rest => setSlot { s with queue := rest } k (.busy i (t.start i))

variable {t} {s : State σ κ ι π ρ} {k : κ}

theorem turn_ended (hk : s.slots k = .ended) : turn t s k = s := by simp only [turn, hk]

theorem turn_next {i : ι} {p q : π} {w : σ} (hk : s.slots k = .busy i p)
    (hstep : t.step s.world p = (w, .next q)) :
    turn t s k = setSlot { s with world := w } k (.busy i q) := by
  simp only [turn, hk, hstep, advance]

theorem turn_done {i : ι} {p : π} {r : ρ} {w : σ} (hk : s.slots k = .busy i p)
    (hstep : t.step s.world p = (w, .done r)) :
    turn t s k = setSlot { s with world := w, results := s.results ++ [(i, r)] } k .idle := by
  simp only [turn, hk, hstep, advance]

theorem turn_stop (hk : s.slots k = .idle) (hq : s.queue = []) : turn t s k = setSlot s k .ended := by
  simp only [turn, hk, hq]

theorem turn_take {i : ι} {rest : List ι} (hk : s.slots k = .idle) (hq : s.queue = i :: rest) :
    turn t s k = setSlot { s with queue := rest } k (.busy i (t.start i)) := by simp only [turn, hk, hq]

/-- All that a turn can be. -/
theorem turn_cases (t : Task σ ι π ρ) (s : State σ κ ι π ρ) (k : κ) :
    (s.slots k = .ended ∧ turn t s k = s) ∨
    (∃ i p w q, s.slots k = .busy i p ∧ t.step s.world p = (w, .next q) ∧
      turn t s k = setSlot { s with world := w } k (.busy i q)) ∨
    (∃ i p w r, s.slots k = .busy i p ∧ t.step s.world p = (w, .done r) ∧
      turn t s k = setSlot { s with world := w, results := s.results ++ [(i, r)] } k .idle) ∨
    (s.slots k = .idle ∧ s.queue = [] ∧ turn t s k = setSlot s k .ended) ∨
    ∃ i rest, s.slots k = .idle ∧ s.queue = i :: rest ∧
      turn t s k = setSlot { s with queue := rest } k (.busy i (t.start i)) := by
  cases hk : s.slots k with
  | ended => exact .inl ⟨rfl, turn_ended hk⟩
  | busy i p =>
    obtain ⟨⟨w, m⟩, hstep⟩ : ∃ x, t.step s.world p = x := ⟨_, rfl⟩
    cases m with
    | next q => exact .inr (.inl ⟨i, p, w, q, rfl, hstep, turn_next hk hstep⟩)
    | done r => exact .inr (.inr (.inl ⟨i, p, w, r, rfl, hstep, turn_done hk hstep⟩))
  | idle =>
    cases hq : s.queue with
    | nil => exact .inr (.inr (.inr (.inl ⟨rfl, rfl, turn_stop hk hq⟩)))
    | cons i rest => exact .inr (.inr (.inr (.inr ⟨i, rest, rfl, rfl, turn_take hk hq⟩)))

end Turns

/-! ## What is where -/

/-- What a worker holds of `i`. -/
def holds [DecidableEq ι] (i : ι) : Slot ι π → Nat
  | .busy j _ => [j].count i
  | .idle | .ended => 0

section Invariant
variable {t : Task σ ι π ρ} {Kept : σ → Prop} {At : ι → π → Prop} {Ans : ι → ρ → Prop} {items : List ι}

variable (t Kept At Ans items) in
/-- The steps keep `Kept` of the shared state, a worker with item `i` stands where `At i` holds, and it
answers what `Ans i` allows. -/
structure Rules : Prop where
  start : ∀ i ∈ items, At i (t.start i)
  next : ∀ {w i p w' q}, i ∈ items → Kept w → At i p → t.step w p = (w', .next q) → Kept w' ∧ At i q
  done : ∀ {w i p w' r}, i ∈ items → Kept w → At i p → t.step w p = (w', .done r) → Kept w' ∧ Ans i r

variable [DecidableEq ι]

@[simp] theorem holds_idle (i : ι) : holds i (.idle : Slot ι π) = 0 := rfl
@[simp] theorem holds_busy (i j : ι) (p : π) : holds i (.busy j p) = [j].count i := rfl
@[simp] theorem holds_ended (i : ι) : holds i (.ended : Slot ι π) = 0 := rfl

variable [Fintype κ] {s : State σ κ ι π ρ}

variable (Kept At Ans items s) in
/-- Every item is waiting, in somebody's hands or answered. -/
structure Inv : Prop where
  count : ∀ i, s.queue.count i + ∑ k, holds i (s.slots k) + (s.results.map Prod.fst).count i =
    items.count i
  world : Kept s.world
  held : ∀ k i p, s.slots k = .busy i p → At i p
  right : ∀ x ∈ s.results, Ans x.1 x.2
  ended : ∀ k, s.slots k = .ended → s.queue = []

theorem Inv.mem_of_queue (h : Inv Kept At Ans items s) {i : ι} (hi : i ∈ s.queue) : i ∈ items := by
  have hcount := h.count i
  have hpos := List.count_pos_iff.2 hi
  exact List.count_pos_iff.1 (by omega)

theorem Inv.mem_of_held (h : Inv Kept At Ans items s) {k : κ} {i : ι} {p : π}
    (hk : s.slots k = .busy i p) : i ∈ items := by
  have hcount := h.count i
  have hle := le_sum_of s.slots k (holds i)
  rw [hk, holds_busy, List.count_singleton_self] at hle
  exact List.count_pos_iff.1 (by omega)

theorem inv_start {w : σ} (hw : Kept w) :
    Inv Kept At Ans items (start w items : State σ κ ι π ρ) := by
  refine ⟨fun i => ?_, hw, fun k i p hk => (by cases hk), fun x hx => (by cases hx),
    fun k hk => (by cases hk)⟩
  simp [start]

/-- When all have ended each item has its answer, once. -/
theorem Inv.items_perm [Nonempty κ] (h : Inv Kept At Ans items s) (hended : Ended s) :
    (s.results.map Prod.fst).Perm items := by
  have hq : s.queue = [] := h.ended (Classical.arbitrary κ) (hended _)
  rw [List.perm_iff_count]
  intro i
  have hcount := h.count i
  have hslots : ∑ k, holds i (s.slots k) = 0 :=
    Finset.sum_eq_zero fun k _ => by rw [hended k, holds_ended]
  rw [hq, hslots] at hcount
  simpa using hcount

/-- Where an item has one right answer, the results are those answers. -/
theorem Inv.results_perm [Nonempty κ] {work : ι → ρ} (h : Inv Kept At (fun i r => r = work i) items s)
    (hended : Ended s) : s.results.Perm (items.map fun i => (i, work i)) := by
  have hres : s.results = (s.results.map Prod.fst).map fun i => (i, work i) := by
    rw [List.map_map]
    refine (List.map_id _).symm.trans (List.map_congr_left fun x hx => ?_)
    exact Prod.ext rfl (h.right x hx)
  rw [hres]
  exact (h.items_perm hended).map _

variable [DecidableEq κ]

omit [DecidableEq ι] [Fintype κ] in
theorem slots_setSlot {k k' : κ} {x : Slot ι π} (s : State σ κ ι π ρ) :
    (setSlot s k x).slots k' = if k' = k then x else s.slots k' := by
  by_cases hkk : k' = k
  · rw [if_pos hkk, hkk]
    exact Function.update_self ..
  · rw [if_neg hkk]
    exact Function.update_of_ne hkk ..

/-- A worker's new slot, with what it has taken from the queue and answered. -/
theorem Inv.setSlot (h : Inv Kept At Ans items s) {s' : State σ κ ι π ρ} {k : κ} {x : Slot ι π}
    (hslots : s'.slots = s.slots) (hworld : Kept s'.world)
    (hcount : ∀ i, s'.queue.count i + holds i x + (s'.results.map Prod.fst).count i =
      s.queue.count i + holds i (s.slots k) + (s.results.map Prod.fst).count i)
    (hheld : ∀ i p, x = .busy i p → At i p) (hright : ∀ x ∈ s'.results, Ans x.1 x.2)
    (hended : x = .ended ∨ (∃ k', s.slots k' = .ended) → s'.queue = []) :
    Inv Kept At Ans items (Pool.setSlot s' k x) := by
  refine ⟨fun i => ?_, hworld, fun k' i p hk' => ?_, hright, fun k' hk' => ?_⟩
  · have hsum := sum_update s.slots k x (holds i)
    have hcount := hcount i
    have hinv := h.count i
    simp only [Pool.setSlot, hslots]
    omega
  · rw [slots_setSlot] at hk'
    split at hk'
    · exact hheld i p hk'
    · exact h.held k' i p (hslots ▸ hk')
  · rw [slots_setSlot] at hk'
    split at hk'
    · exact hended (.inl hk')
    · exact hended (.inr ⟨k', hslots ▸ hk'⟩)

theorem inv_turn (hr : Rules t Kept At Ans items) (h : Inv Kept At Ans items s) (k : κ) :
    Inv Kept At Ans items (turn t s k) := by
  have hqueue : (∃ k', s.slots k' = .ended) → s.queue = [] := fun ⟨k', hk'⟩ => h.ended k' hk'
  obtain ⟨-, heq⟩ | ⟨i, p, w, q, hk, hstep, heq⟩ | ⟨i, p, w, r, hk, hstep, heq⟩ | ⟨hk, hq, heq⟩ |
    ⟨i, rest, hk, hq, heq⟩ := turn_cases t s k <;> rw [heq]
  · exact h
  · -- a step on
    obtain ⟨hw, hat⟩ := hr.next (h.mem_of_held hk) h.world (h.held k i p hk) hstep
    refine h.setSlot rfl hw (fun j => by rw [hk, holds_busy, holds_busy]) ?_ h.right ?_
    · rintro _ _ ⟨⟩
      exact hat
    · exact fun hend => hqueue (hend.resolve_left (by simp))
  · -- the last step
    obtain ⟨hw, hans⟩ := hr.done (h.mem_of_held hk) h.world (h.held k i p hk) hstep
    refine h.setSlot rfl hw (fun j => ?_) (fun _ _ hx => by cases hx) (fun x hx => ?_) ?_
    · simp only [hk, holds_busy, holds_idle, List.map_append, List.count_append, List.map_singleton]
      omega
    · rcases List.mem_append.1 hx with hx | hx
      · exact h.right x hx
      · rw [List.mem_singleton.1 hx]
        exact hans
    · exact fun hend => hqueue (hend.resolve_left (by simp))
  · -- nothing left
    exact h.setSlot rfl h.world (fun j => by rw [hk, holds_idle, holds_ended])
      (fun _ _ hx => by cases hx) h.right fun _ => hq
  · -- the next item
    refine h.setSlot rfl h.world (fun j => ?_) ?_ h.right fun hend => ?_
    · simp only [hk, hq, holds_idle, holds_busy, ← List.singleton_append (l := rest), List.count_append]
      omega
    · rintro _ _ ⟨⟩
      exact hr.start _ (h.mem_of_queue (hq ▸ List.mem_cons_self))
    · have hempty := hqueue (hend.resolve_left (by simp))
      rw [hq] at hempty
      cases hempty

theorem inv_run (hr : Rules t Kept At Ans items) {w : σ} (hw : Kept w) (ks : List κ) :
    Inv Kept At Ans items (run (turn t) (start w items) ks) :=
  run_invariant (inv_start hw) (fun _ k h => inv_turn hr h k) ks

end Invariant

/-! ## Every fair schedule ends -/

section Fairness
variable [DecidableEq κ] [Fintype κ] (t : Task σ ι π ρ)

def weight : Slot ι π → Nat
  | .idle => 1
  | .busy _ p => t.cost p + 2
  | .ended => 0

@[simp] theorem weight_idle : weight t .idle = 1 := rfl
@[simp] theorem weight_busy (i : ι) (p : π) : weight t (.busy i p) = t.cost p + 2 := rfl
@[simp] theorem weight_ended : weight t .ended = 0 := rfl

omit [DecidableEq κ] in
def rank (s : State σ κ ι π ρ) : Nat :=
  (s.queue.map fun i => t.cost (t.start i) + 2).sum + ∑ k, weight t (s.slots k)

theorem rank_turn (s : State σ κ ι π ρ) (k : κ) :
    (s.slots k = .ended ∧ turn t s k = s) ∨ rank t (turn t s k) < rank t s := by
  have hsum : ∀ x, ∑ j, weight t (Function.update s.slots k x j) + weight t (s.slots k) =
      ∑ j, weight t (s.slots j) + weight t x := fun x => sum_update s.slots k x (weight t)
  obtain h | ⟨i, p, w, q, hk, hstep, heq⟩ | ⟨i, p, w, r, hk, hstep, heq⟩ | ⟨hk, hq, heq⟩ |
    ⟨i, rest, hk, hq, heq⟩ := turn_cases t s k
  · exact .inl h
  · have hcost := t.cost_lt hstep
    have hsum := hsum (.busy i q)
    rw [hk, weight_busy, weight_busy] at hsum
    rw [heq]
    simp only [rank, setSlot]
    omega
  · have hsum := hsum .idle
    rw [hk, weight_idle, weight_busy] at hsum
    rw [heq]
    simp only [rank, setSlot]
    omega
  · have hsum := hsum .ended
    rw [hk, weight_idle, weight_ended] at hsum
    rw [heq]
    simp only [rank, setSlot]
    omega
  · have hsum := hsum (.busy i (t.start i))
    rw [hk, weight_idle, weight_busy] at hsum
    rw [heq]
    simp only [rank, setSlot, hq, List.map_cons, List.sum_cons]
    omega

theorem exists_ended {f : ℕ → κ} (s : State σ κ ι π ρ) (hfair : Fair some f) :
    ∃ n, Ended (stateAfter (turn t) s f n) := by
  have hstep : ∀ (s : State σ κ ι π ρ) k, True → turn t s k = s ∨ rank t (turn t s k) < rank t s :=
    fun s k _ => (rank_turn t s k).imp (fun h => h.2) id
  refine exists_goal_of_fair (P := fun _ => True) trivial (fun _ _ _ => trivial) hstep
    (fun s _ hnot => ?_) hfair
  obtain ⟨k, hk⟩ := not_forall.1 hnot
  refine ⟨k, fun k' hk' => ?_⟩
  cases hk'
  exact (rank_turn t s k).resolve_left fun h => hk h.1

end Fairness

/-! ## Results by number -/

/-- The items are numbers: by them the results are in order again. -/
theorem Inv.sortBy_results [Fintype κ] [Nonempty κ] {Kept : σ → Prop} {n : ℕ} {At : Fin n → π → Prop}
    {work : Fin n → ρ} {s : State σ κ (Fin n) π ρ}
    (h : Inv Kept At (fun i r => r = work i) (List.finRange n) s) (hended : Ended s) :
    (sortBy (compareOn Prod.fst) s.results).map Prod.snd = (List.finRange n).map work := by
  have hsorted : ((List.finRange n).map fun i => (i, work i)).Pairwise (CmpLE (compareOn Prod.fst)) :=
    List.pairwise_map.2 ((List.pairwise_lt_finRange n).imp fun hlt => by
      rw [CmpLE, compareOn, compare_lt_iff_lt.2 hlt]
      rfl)
  have hmem (x) : x ∈ s.results ↔ x ∈ (List.finRange n).map fun i => (i, work i) :=
    (h.results_perm hended).mem_iff
  have hsort : sortBy (compareOn Prod.fst) s.results = (List.finRange n).map fun i => (i, work i) := by
    rw [← sortBy_eq_self hsorted]
    refine sortBy_eq_of_perm (h.results_perm hended) fun a ha b hb htie => ?_
    obtain ⟨i, -, rfl⟩ := List.mem_map.1 ((hmem _).1 ha)
    obtain ⟨j, -, rfl⟩ := List.mem_map.1 ((hmem _).1 hb)
    have hij : i = j := compare_eq_iff_eq.1 htie
    rw [hij]
  rw [hsort, List.map_map]
  rfl

/-! ## The pool as a whole -/

section Whole
variable [DecidableEq κ] [Fintype κ]

/-- What these turns lead to, if all workers have ended. -/
def runPool (t : Task σ ι π ρ) (w : σ) (items : List ι) (ks : List κ) : Option (σ × List (ι × ρ)) :=
  let s := run (turn t) (start w items) ks
  if ∀ k, (s.slots k).isEnded = true then some (s.world, s.results) else none

omit [DecidableEq κ] [Fintype κ] in
theorem ended_iff {s : State σ κ ι π ρ} : Ended s ↔ ∀ k, (s.slots k).isEnded = true := by
  refine forall_congr' fun k => ?_
  cases s.slots k <;> simp [Slot.isEnded]

/-- Given time, a pool comes to an end. -/
theorem exists_runPool (t : Task σ ι π ρ) (w : σ) (items : List ι) {f : ℕ → κ} (hfair : Fair some f) :
    ∃ n, (runPool t w items ((List.range n).map f)).isSome = true := by
  obtain ⟨n, hn⟩ := exists_ended t (start w items) hfair
  rw [stateAfter] at hn
  refine ⟨n, ?_⟩
  rw [runPool, if_pos (ended_iff.1 hn)]
  rfl

/-- Whatever the order of the turns, the shared state is kept and the answers by number are right. -/
theorem runPool_right [Nonempty κ] {Kept : σ → Prop} {n : ℕ} {At : Fin n → π → Prop} {work : Fin n → ρ}
    {t : Task σ (Fin n) π ρ} (hr : Rules t Kept At (fun i r => r = work i) (List.finRange n)) {w w' : σ}
    (hw : Kept w) {ks : List κ} {results : List (Fin n × ρ)}
    (h : runPool t w (List.finRange n) ks = some (w', results)) :
    Kept w' ∧ (sortBy (compareOn Prod.fst) results).map Prod.snd = (List.finRange n).map work := by
  have hinv := inv_run hr hw ks
  unfold runPool at h
  dsimp only at h
  split at h
  · next hended =>
    cases h
    exact ⟨hinv.world, hinv.sortBy_results (ended_iff.2 hended)⟩
  · cases h

end Whole

/-! ## Work on nothing shared -/

/-- One step that looks at nothing the others change. -/
def ofFun (work : ι → ρ) : Task Unit ι ι ρ where
  start := id
  step w i := (w, .done (work i))
  cost _ := 0
  cost_lt h := by cases h

theorem rules_ofFun (work : ι → ρ) (items : List ι) :
    Rules (ofFun work) (fun _ => True) (fun i p => p = i) (fun i r => r = work i) items where
  start _ _ := rfl
  next _ _ _ h := by cases h
  done := by
    rintro _ i _ _ _ - - rfl ⟨⟩
    exact ⟨trivial, rfl⟩

end Inim.Lib.Pool
