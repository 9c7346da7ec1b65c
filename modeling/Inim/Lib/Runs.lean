import Inim.Lib.Splits

/-!
# Runs of a machine

A machine is a step function on states and actions; a run is a list of actions. The rules the
developments over it use: an invariant of the steps holds after every run, a preorder that
every step respects relates the ends of a run, and an invariant that needs a side condition at
every step holds after every run whose steps all meet it. `countAlong` counts the steps of a run
that are taken where a condition holds; `trace` is the run with the state each step is taken in.
-/

namespace Inim.Lib

variable {σ α : Type*} (step : σ → α → σ)

def run (s : σ) (as : List α) : σ := as.foldl step s

@[simp] theorem run_nil (s : σ) : run step s [] = s := rfl

@[simp] theorem run_cons (s : σ) (a : α) (as : List α) :
    run step s (a :: as) = run step (step s a) as := rfl

@[simp] theorem run_append (s : σ) (as bs : List α) :
    run step s (as ++ bs) = run step (run step s as) bs := List.foldl_append

theorem run_concat (s : σ) (as : List α) (a : α) :
    run step s (as ++ [a]) = step (run step s as) a := by simp

variable {step}

theorem run_invariant {P : σ → Prop} {s : σ} (h0 : P s) (hstep : ∀ s a, P s → P (step s a))
    (as : List α) : P (run step s as) := by
  induction as generalizing s with
  | nil => exact h0
  | cons a as ih => exact ih (hstep s a h0)

/-- What every step from a good state respects holds from end to end. -/
theorem run_rel {P : σ → Prop} {R : σ → σ → Prop} {s : σ} (h0 : P s)
    (hP : ∀ s a, P s → P (step s a)) (hrefl : ∀ s, R s s)
    (htrans : ∀ {s t u}, R s t → R t u → R s u) (hR : ∀ s a, P s → R s (step s a))
    (as : List α) : R s (run step s as) := by
  induction as generalizing s with
  | nil => exact hrefl s
  | cons a as ih => exact htrans (hR s a h0) (ih (hP s a h0))

variable (step) in
/-- Every step of the run meets `Q` where it is taken. -/
def Along (Q : σ → α → Prop) : σ → List α → Prop
  | _, [] => True
  | s, a :: as => Q s a ∧ Along Q (step s a) as

instance decidableAlong (Q : σ → α → Prop) [∀ s a, Decidable (Q s a)] :
    ∀ (s : σ) (as : List α), Decidable (Along step Q s as)
  | _, [] => inferInstanceAs (Decidable True)
  | s, a :: as =>
    have := decidableAlong Q (step s a) as
    inferInstanceAs (Decidable (Q s a ∧ Along step Q (step s a) as))

theorem run_along {P : σ → Prop} {Q : σ → α → Prop} {s : σ} {as : List α} (h0 : P s)
    (hstep : ∀ s a, P s → Q s a → P (step s a)) (h : Along step Q s as) : P (run step s as) := by
  induction as generalizing s with
  | nil => exact h0
  | cons a as ih => exact ih (hstep s a h0 h.1) h.2

/-- Conditions that agree wherever the invariant holds are met by the same runs. -/
theorem along_iff {P : σ → Prop} {Q R : σ → α → Prop} {s : σ} {as : List α} (h0 : P s)
    (hstep : ∀ s a, P s → Q s a → P (step s a)) (h : ∀ s a, P s → (Q s a ↔ R s a)) :
    Along step Q s as ↔ Along step R s as := by
  induction as generalizing s with
  | nil => exact Iff.rfl
  | cons a as ih =>
    constructor
    · rintro ⟨hQ, hrest⟩
      exact ⟨(h s a h0).1 hQ, (ih (hstep s a h0 hQ)).1 hrest⟩
    · rintro ⟨hR, hrest⟩
      have hQ := (h s a h0).2 hR
      exact ⟨hQ, (ih (hstep s a h0 hQ)).2 hrest⟩

theorem along_append {Q : σ → α → Prop} {s : σ} (as bs : List α) :
    Along step Q s (as ++ bs) ↔ Along step Q s as ∧ Along step Q (run step s as) bs := by
  induction as generalizing s with
  | nil => simp [Along]
  | cons a as ih => simp [Along, ih, and_assoc]

theorem along_mem {Q : σ → α → Prop} {s : σ} {as : List α} (h : Along step Q s as) :
    Along step (fun s a => a ∈ as ∧ Q s a) s as := by
  suffices ∀ bs, (∀ b ∈ bs, b ∈ as) → ∀ s, Along step Q s bs →
      Along step (fun s a => a ∈ as ∧ Q s a) s bs from this as (fun _ => id) s h
  intro bs
  induction bs with
  | nil => exact fun _ _ _ => trivial
  | cons b bs ih =>
    intro hbs s h
    exact ⟨⟨hbs b (by simp), h.1⟩, ih (fun c hc => hbs c (by simp [hc])) _ h.2⟩

/-- What holds before and at each step of such a run. -/
theorem along_split {P : σ → Prop} {Q : σ → α → Prop} {s : σ} {as pre post : List α} {a : α}
    (h0 : P s) (hstep : ∀ s a, P s → Q s a → P (step s a)) (h : Along step Q s as)
    (heq : as = pre ++ a :: post) : P (run step s pre) ∧ Q (run step s pre) a := by
  subst heq
  obtain ⟨hpre, hpost⟩ := (along_append pre (a :: post)).1 h
  exact ⟨run_along h0 hstep hpre, hpost.1⟩

variable (step) in
/-- How many steps of the run `p` holds of, each with the state it is taken in. -/
def countAlong (p : σ → α → Bool) : σ → List α → Nat
  | _, [] => 0
  | s, a :: as => (if p s a then 1 else 0) + countAlong p (step s a) as

section Count
variable (p q : σ → α → Bool) (s : σ) (as : List α)

theorem countAlong_concat (a : α) : countAlong step p s (as ++ [a]) =
    countAlong step p s as + if p (run step s as) a then 1 else 0 := by
  induction as generalizing s with
  | nil => exact Nat.add_comm _ _
  | cons b as ih => rw [List.cons_append, countAlong, ih, countAlong, run_cons, Nat.add_assoc]

theorem countAlong_pos_iff : 0 < countAlong step p s as ↔
    ∃ pre a post, as = pre ++ a :: post ∧ p (run step s pre) a = true := by
  induction as using List.reverseRecOn with
  | nil => simp [countAlong]
  | append_singleton as a ih =>
    rw [countAlong_concat, exists_split_concat, ← ih]
    split
    · next h => simp [h]
    · next h => simp [h]

variable {p q}

theorem countAlong_le (h : ∀ s a, p s a = true → q s a = true) :
    countAlong step p s as ≤ countAlong step q s as := by
  induction as using List.reverseRecOn with
  | nil => exact le_rfl
  | append_singleton as a ih =>
    rw [countAlong_concat, countAlong_concat]
    refine Nat.add_le_add ih ?_
    by_cases hp : p (run step s as) a = true
    · simp [hp, h _ _ hp]
    · simp [hp]

/-- The stronger condition is met as often as the weaker one iff it is met wherever that is. -/
theorem countAlong_eq_iff (h : ∀ s a, p s a = true → q s a = true) :
    countAlong step p s as = countAlong step q s as ↔ ∀ pre a post, as = pre ++ a :: post →
      q (run step s pre) a = true → p (run step s pre) a = true := by
  induction as using List.reverseRecOn with
  | nil => simp [countAlong]
  | append_singleton as a ih =>
    have hle : countAlong step p s as ≤ countAlong step q s as := countAlong_le s as h
    rw [countAlong_concat, countAlong_concat, forall_split_concat, ← ih]
    by_cases hp : p (run step s as) a = true
    · simp [hp, h _ _ hp]
    · by_cases hq : q (run step s as) a = true
      · simp only [hp, hq, if_true, Bool.false_eq_true, if_false, imp_false, not_true, and_false,
          iff_false]
        omega
      · simp [hp, hq]

end Count

/-! ## Traces -/

section Trace

variable (step) in
/-- The steps of a run, each with the state it is taken in. -/
def trace : σ → List α → List (σ × α)
  | _, [] => []
  | s, a :: as => (s, a) :: trace (step s a) as

@[simp] theorem trace_nil (s : σ) : trace step s [] = [] := rfl

theorem trace_append (s : σ) (as bs : List α) :
    trace step s (as ++ bs) = trace step s as ++ trace step (run step s as) bs := by
  induction as generalizing s with
  | nil => rfl
  | cons a as ih => simp [trace, ih]

theorem trace_concat (s : σ) (as : List α) (a : α) :
    trace step s (as ++ [a]) = trace step s as ++ [(run step s as, a)] := by
  rw [trace_append, trace, trace_nil]

@[simp] theorem map_snd_trace (s : σ) (as : List α) : (trace step s as).map Prod.snd = as := by
  induction as generalizing s with
  | nil => rfl
  | cons a as ih => simp [trace, ih]

theorem mem_of_mem_trace {s : σ} {as : List α} {x : σ × α} (h : x ∈ trace step s as) : x.2 ∈ as := by
  rw [← @map_snd_trace _ _ step s as]
  exact List.mem_map_of_mem h

/-- Cutting a trace cuts the run. -/
theorem trace_eq_append_iff {s : σ} {as : List α} {l r : List (σ × α)} :
    trace step s as = l ++ r ↔ ∃ bs cs, as = bs ++ cs ∧ l = trace step s bs ∧
      r = trace step (run step s bs) cs := by
  constructor
  · intro h
    refine ⟨l.map Prod.snd, r.map Prod.snd, ?_, ?_⟩
    · rw [← List.map_append, ← h, map_snd_trace]
    · induction l generalizing s as with
      | nil =>
        refine ⟨rfl, ?_⟩
        rw [List.nil_append] at h
        rw [← h, map_snd_trace, List.map_nil, run_nil]
      | cons x l ih =>
        cases as with
        | nil => simp at h
        | cons a as =>
          rw [trace, List.cons_append, List.cons.injEq] at h
          obtain ⟨rfl, h⟩ := h
          obtain ⟨hl, hr⟩ := ih h
          refine ⟨?_, hr⟩
          rw [List.map_cons, trace, ← hl]
  · rintro ⟨bs, cs, rfl, rfl, rfl⟩
    exact trace_append s bs cs

/-- Something happens along a trace iff it happens at a position of the run. -/
theorem exists_mem_trace_iff {s : σ} {as : List α} {P : σ → α → Prop} :
    (∃ x ∈ trace step s as, P x.1 x.2) ↔
      ∃ pre a post, as = pre ++ a :: post ∧ P (run step s pre) a := by
  induction as using List.reverseRecOn with
  | nil => simp
  | append_singleton as a ih =>
    rw [exists_split_concat, ← ih, trace_concat]
    simp [or_and_right, exists_or]

end Trace

/-! ## Fair schedules

A schedule is an endless list of actions. Every action belongs to a worker, or to nobody, and a schedule
is fair if every worker has its turn again and again. Where an action either leaves a state as it is or
lowers its rank, and where short of the goal some worker's turn always lowers it, a fair schedule
reaches the goal (`exists_goal_of_fair`): no worker has to be trusted to come at the right moment.
-/

section Schedules
variable {κ β : Type*}

variable (step) in
/-- The state after the first `n` actions. -/
def stateAfter (s : σ) (f : ℕ → α) (n : ℕ) : σ := run step s ((List.range n).map f)

theorem stateAfter_succ (s : σ) (f : ℕ → α) (n : ℕ) :
    stateAfter step s f (n + 1) = step (stateAfter step s f n) (f n) := by
  rw [stateAfter, stateAfter, List.range_succ, List.map_append, List.map_singleton, run_concat]

/-- Every worker has its turn again and again. -/
def Fair (worker : α → Option κ) (f : ℕ → α) : Prop :=
  ∀ k n, ∃ m, n ≤ m ∧ worker (f m) = some k

section Rank
variable [Preorder β] {rank : σ → β} {P : σ → Prop}

/-- From one moment to a later one the state is the same or its rank is lower. -/
theorem rank_stateAfter {s : σ} {f : ℕ → α} (hP : ∀ n, P (stateAfter step s f n))
    (hstep : ∀ s a, P s → step s a = s ∨ rank (step s a) < rank s) {n m : ℕ} (hle : n ≤ m) :
    stateAfter step s f m = stateAfter step s f n ∨
      rank (stateAfter step s f m) < rank (stateAfter step s f n) := by
  induction m, hle using Nat.le_induction with
  | base => exact .inl rfl
  | succ m _ ih =>
    rw [stateAfter_succ]
    rcases hstep (stateAfter step s f m) (f m) (hP m) with hsame | hlower
    · rw [hsame]
      exact ih
    · rcases ih with hm | hm
      · rw [← hm]
        exact .inr hlower
      · exact .inr (hlower.trans hm)

variable [WellFoundedLT β] {goal : σ → Prop} {worker : α → Option κ} {s : σ} {f : ℕ → α}

theorem exists_goal_of_fair (h0 : P s) (hP : ∀ s a, P s → P (step s a))
    (hstep : ∀ s a, P s → step s a = s ∨ rank (step s a) < rank s)
    (hturn : ∀ s, P s → ¬ goal s → ∃ k, ∀ a, worker a = some k → rank (step s a) < rank s)
    (hfair : Fair worker f) : ∃ n, goal (stateAfter step s f n) := by
  have hall : ∀ n, P (stateAfter step s f n) := fun n => run_invariant h0 hP _
  -- by induction on the rank of the state at some moment
  suffices ∀ b n, rank (stateAfter step s f n) = b → ∃ m, goal (stateAfter step s f m) from
    this _ 0 rfl
  intro b
  induction b using WellFoundedLT.induction with
  | ind b ih =>
    intro n hb
    by_cases hgoal : goal (stateAfter step s f n)
    · exact ⟨n, hgoal⟩
    obtain ⟨k, hk⟩ := hturn _ (hall n) hgoal
    obtain ⟨m, hle, hm⟩ := hfair k n
    rcases rank_stateAfter hall hstep hle with hsame | hlower
    · -- nothing has happened yet when the worker's turn comes
      refine ih _ ?_ (m + 1) rfl
      rw [stateAfter_succ, hsame, ← hb]
      exact hk _ hm
    · exact ih _ (hb ▸ hlower) m rfl

end Rank

end Schedules

end Inim.Lib
