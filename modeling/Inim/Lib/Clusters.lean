import Mathlib
/-!
# Clusters of a sequence

A loop over the neighbouring pairs of a list collects the elements that are `near` their
predecessor and starts a new cluster at every other one. `clusters` is that loop; it computes
`List.splitBy` (`clusters_eq_splitBy`), whose lemmas say that the clusters spell the list, that
neighbours in a cluster are near, and that the clusters part where they are not.

`Densest` is for clusters in time: a loop that tries the windows starting at an element finds one
that no window anywhere beats (`countP_window_le_densest`).
-/

namespace Inim.Lib

section Clusters
variable {α : Type*} (near : α → α → Bool)

/-- `slice::windows(2)`. -/
def windows2 (l : List α) : List (α × α) := l.zip l.tail

theorem isChain_iff_windows2 {R : α → α → Prop} {l : List α} :
    l.IsChain R ↔ ∀ w ∈ windows2 l, R w.1 w.2 := by
  induction l with
  | nil => simp [windows2]
  | cons a l ih =>
    cases l with
    | nil => simp [windows2]
    | cons b l =>
      have hwin : windows2 (a :: b :: l) = (a, b) :: windows2 (b :: l) := rfl
      rw [List.isChain_cons_cons, hwin, List.forall_mem_cons, ih]

/-- One turn of the loop: the finished clusters, and the current one. -/
def clusterStep (acc : List (List α) × List α) (w : α × α) : List (List α) × List α :=
  if near w.1 w.2 then (acc.1, acc.2 ++ [w.2]) else (acc.1 ++ [acc.2], [w.2])

def clusters : List α → List (List α)
  | [] => []
  | a :: l =>
    let acc := (windows2 (a :: l)).foldl (clusterStep near) ([], [a])
    acc.1 ++ [acc.2]

theorem foldl_clusterStep (a : α) (l cur : List α) (done : List (List α)) :
    let acc := (windows2 (a :: l)).foldl (clusterStep near) (done.reverse, (a :: cur).reverse)
    acc.1 ++ [acc.2] = List.splitBy.loop near l a cur done := by
  induction l generalizing a cur done with
  | nil => simp [windows2, List.splitBy.loop]
  | cons b l ih =>
    have hwin : windows2 (a :: b :: l) = (a, b) :: windows2 (b :: l) := rfl
    rw [hwin, List.foldl_cons, List.splitBy.loop]
    cases hn : near a b with
    | true => simpa [clusterStep, hn] using ih b (a :: cur) done
    | false => simpa [clusterStep, hn] using ih b [] ((a :: cur).reverse :: done)

theorem clusters_eq_splitBy (l : List α) : clusters near l = l.splitBy near := by
  cases l with
  | nil => rfl
  | cons a l => exact foldl_clusterStep near a l [] []

variable {near}

theorem flatten_clusters (l : List α) : (clusters near l).flatten = l := by
  rw [clusters_eq_splitBy, List.flatten_splitBy]

theorem ne_nil_of_mem_clusters {l g : List α} (h : g ∈ clusters near l) : g ≠ [] :=
  List.ne_nil_of_mem_splitBy (clusters_eq_splitBy near l ▸ h)

theorem isChain_of_mem_clusters {l g : List α} (h : g ∈ clusters near l) :
    g.IsChain fun a b => near a b = true :=
  List.isChain_of_mem_splitBy (clusters_eq_splitBy near l ▸ h)

/-- Between the last of a cluster and the first of the next the list is not near. -/
theorem isChain_clusters (l : List α) : (clusters near l).IsChain
    fun g h => ∀ a ∈ g.getLast?, ∀ b ∈ h.head?, near a b = false := by
  rw [clusters_eq_splitBy]
  refine (List.isChain_getLast_head_splitBy near l).imp ?_
  rintro g h ⟨hg, hh, hnear⟩ a ha b hb
  rw [List.getLast?_eq_getLast_of_ne_nil hg, Option.mem_some_iff] at ha
  rw [List.head?_eq_some_head hh, Option.mem_some_iff] at hb
  exact ha ▸ hb ▸ hnear

/-- What is counted cluster by cluster is counted once over the list. -/
theorem sum_countP_clusters (p : α → Bool) (l : List α) :
    ((clusters near l).map (List.countP p)).sum = l.countP p := by
  rw [← List.countP_flatten, flatten_clusters]

end Clusters

/-! ## The densest window -/

section Densest

/-- The instants of `ts` in the closed window of `width` from `a`. -/
def inWindow (width : Int) (ts : List Int) (a : Int) : List Int :=
  ts.filter fun t => decide (a ≤ t ∧ t ≤ a + width)

/-- The best window so far: its start, the last instant in it and its count. -/
structure Densest where
  start : Int
  stop : Int
  best : Nat
deriving DecidableEq, Repr

variable (width : Int) (ts : List Int)

def densestStep (d : Densest) (t : Int) : Densest :=
  let inside := inWindow width ts t
  if d.best < inside.length then ⟨t, (inside.max?).getD t, inside.length⟩ else d

/-- The loop over the windows that start at one of `ts`. -/
def densest (start stop : Int) : Densest := ts.foldl (densestStep width ts) ⟨start, stop, 0⟩

/-- After the windows from `seen`: the best count is that of the window kept, and no less than
any of theirs. -/
theorem densest_spec (seen : List Int) (d0 : Densest) (h0 : d0.best = 0) :
    let d := seen.foldl (densestStep width ts) d0
    (∀ t ∈ seen, (inWindow width ts t).length ≤ d.best) ∧
      d.best ≤ (inWindow width ts d.start).length := by
  induction seen using List.reverseRecOn with
  | nil => simp [h0]
  | append_singleton seen t ih =>
    obtain ⟨hle, hbest⟩ := ih
    rw [List.foldl_append]
    simp only [List.foldl_cons, List.foldl_nil, densestStep, List.mem_append, List.mem_singleton]
    split
    · next hlt =>
      refine ⟨?_, le_rfl⟩
      rintro u (hu | rfl)
      · exact (hle u hu).trans hlt.le
      · exact le_rfl
    · next hge =>
      refine ⟨?_, hbest⟩
      rintro u (hu | rfl)
      · exact hle u hu
      · exact Nat.not_lt.1 hge

/-- **No window beats the densest one**, wherever on the line it starts: moved up to the first
instant it contains, it keeps all of them. -/
theorem countP_window_le_densest (start stop : Int) (a : ℝ) :
    ts.countP (fun t : Int => decide (a ≤ t ∧ (t : ℝ) ≤ a + width)) ≤
      (inWindow width ts (densest width ts start stop).start).length := by
  obtain ⟨hle, hbest⟩ := densest_spec width ts ts ⟨start, stop, 0⟩ rfl
  set inside := ts.filter fun t : Int => decide (a ≤ t ∧ (t : ℝ) ≤ a + width) with hinside
  rw [List.countP_eq_length_filter, ← hinside]
  cases hmin : inside.min? with
  | none =>
    rw [List.min?_eq_none_iff.1 hmin]
    exact Nat.zero_le _
  | some m =>
    obtain ⟨hmem, hfirst⟩ := List.min?_eq_some_iff.1 hmin
    obtain ⟨hm, hma⟩ : m ∈ ts ∧ a ≤ m ∧ (m : ℝ) ≤ a + width := by simpa [hinside] using hmem
    have hkept : inside.Sublist (inWindow width ts m) := by
      have hsame : inside = (inWindow width ts m).filter
          fun t : Int => decide (a ≤ t ∧ (t : ℝ) ≤ a + width) := by
        rw [inWindow, List.filter_filter, hinside]
        refine List.filter_congr fun t ht => ?_
        by_cases hin : a ≤ t ∧ (t : ℝ) ≤ a + width
        · have hmt : m ≤ t := hfirst t (by simpa [hinside] using ⟨ht, hin⟩)
          have htm : t ≤ m + width := by
            have : (t : ℝ) ≤ m + width := hin.2.trans (by linarith [hma.1])
            exact_mod_cast this
          simp [hin, hmt, htm]
        · simp [hin]
      rw [hsame]
      exact List.filter_sublist
    exact hkept.length_le.trans ((hle m hm).trans hbest)

end Densest

end Inim.Lib
