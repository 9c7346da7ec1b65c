import Mathlib.Combinatorics.SimpleGraph.Metric
import Mathlib.Data.List.Lex

/-!
# A search with a stack, a visited set and a depth limit

`search` takes a vertex from the top of its stack and pushes the neighbours that it has not seen. The
limit is on the length of the path on which a vertex is seen first, and with a stack this is not the
shortest one. The paths on which vertices are first seen are a property of the graph alone
(`IsArrivals`, `search_sees`), and from them one reads what the search misses (`Sees.dist_iff`).
-/

namespace Inim.Lib

variable {V : Type} [LinearOrder V]

/-! ## The search -/

/-- The state: what was seen, and the stack of vertices with their depths, its top first. -/
structure SearchState (V : Type) where
  visited : Finset V
  stack : List (V × Nat)

/-- A neighbour of a vertex at `depth`: new ones are seen and pushed. -/
def discover (depth : Nat) (s : SearchState V) (w : V) : SearchState V :=
  if w ∈ s.visited then s else ⟨insert w s.visited, (w, depth + 1) :: s.stack⟩

section Search
variable (nbrs : V → List V) (limit : Nat)

/-- The search, with fuel. -/
def search : Nat → SearchState V → Option (Finset V)
  | _, ⟨visited, []⟩ => some visited
  | 0, _ => none
  | fuel + 1, ⟨visited, (v, depth) :: rest⟩ =>
    if limit ≤ depth then search fuel ⟨visited, rest⟩
    else search fuel ((nbrs v).foldl (discover depth) ⟨visited, rest⟩)

/-- The neighbours that are pushed when `v` is taken at `depth`. -/
def unseen (visited : Finset V) (v : V) (depth : Nat) : List V :=
  if limit ≤ depth then [] else (nbrs v).filter (· ∉ visited)

variable {nbrs limit}

theorem foldl_discover (depth : Nat) {l : List V} (hl : l.Nodup) (s : SearchState V) :
    l.foldl (discover depth) s =
      ⟨s.visited ∪ (l.filter (· ∉ s.visited)).toFinset,
        ((l.filter (· ∉ s.visited)).map (·, depth + 1)).reverse ++ s.stack⟩ := by
  induction l generalizing s with
  | nil => simp
  | cons w l ih =>
    obtain ⟨hw, hl⟩ := List.nodup_cons.mp hl
    rw [List.foldl_cons, ih hl, discover]
    by_cases hv : w ∈ s.visited
    · simp [hv]
    · have hrest : l.filter (· ∉ insert w s.visited) = l.filter (· ∉ s.visited) := by
        refine List.filter_congr fun x hx => ?_
        have hne : x ≠ w := fun h => hw (h ▸ hx)
        simp [hne]
      simp only [hv, if_false, not_false_eq_true, decide_true, List.filter_cons_of_pos, hrest,
        List.toFinset_cons, List.map_cons, List.reverse_cons, List.append_assoc, List.singleton_append,
        SearchState.mk.injEq, and_true]
      ext x
      simp only [Finset.mem_union, Finset.mem_insert]
      tauto

/-- One turn of the loop. -/
theorem search_step (hn : ∀ v, (nbrs v).Nodup) (fuel : Nat) (visited : Finset V) (v : V)
    (depth : Nat) (rest : List (V × Nat)) :
    search nbrs limit (fuel + 1) ⟨visited, (v, depth) :: rest⟩ =
      search nbrs limit fuel ⟨visited ∪ (unseen nbrs limit visited v depth).toFinset,
        ((unseen nbrs limit visited v depth).map (·, depth + 1)).reverse ++ rest⟩ := by
  rw [search, unseen]
  by_cases h : limit ≤ depth
  · simp [h]
  · simp only [h, if_false]
    rw [foldl_discover depth (hn v)]

theorem mem_unseen {visited : Finset V} {v w : V} {depth : Nat} :
    w ∈ unseen nbrs limit visited v depth ↔ depth < limit ∧ w ∈ nbrs v ∧ w ∉ visited := by
  unfold unseen
  split <;> simp <;> omega

/-- The search ends: each turn takes one vertex from the stack, and pushes only new ones. -/
theorem search_isSome (hn : ∀ v, (nbrs v).Nodup) {univ : Finset V}
    (hu : ∀ v, ∀ w ∈ nbrs v, w ∈ univ) (fuel : Nat) (s : SearchState V)
    (hf : s.stack.length + (univ \ s.visited).card ≤ fuel) :
    (search nbrs limit fuel s).isSome := by
  induction fuel generalizing s with
  | zero =>
    obtain ⟨visited, stack⟩ := s
    cases stack with
    | nil => simp [search]
    | cons e rest => simp at hf
  | succ fuel ih =>
    obtain ⟨visited, stack⟩ := s
    cases stack with
    | nil => simp [search]
    | cons e rest =>
      obtain ⟨v, depth⟩ := e
      rw [search_step hn]
      apply ih
      have hnew : (unseen nbrs limit visited v depth).Nodup := by
        unfold unseen
        split
        · exact List.nodup_nil
        · exact (hn v).filter _
      have hsub : (unseen nbrs limit visited v depth).toFinset ⊆ univ \ visited := by
        intro w hw
        obtain ⟨-, hw, hv⟩ := mem_unseen.mp (List.mem_toFinset.mp hw)
        exact Finset.mem_sdiff.mpr ⟨hu v w hw, hv⟩
      have hcard := Finset.card_sdiff_add_card_eq_card hsub
      rw [List.toFinset_card_of_nodup hnew] at hcard
      rw [← Finset.sup_eq_union, ← sdiff_sdiff_left]
      simp only [List.length_append, List.length_reverse, List.length_map, List.length_cons] at hf ⊢
      omega

end Search

/-! ## Paths in the order in which they are taken -/

/-- `p` is taken before `q`: `q` goes on from it, or `p` turns to the greater vertex where they part. -/
abbrev Before (p q : List V) : Prop := List.Lex (· > ·) p q

/-- `p` and `q` part, and `p` turns to the greater vertex. -/
def Parts (p q : List V) : Prop := ∃ c a b s t, p = c ++ a :: s ∧ q = c ++ b :: t ∧ a > b

namespace Parts

theorem before {p q : List V} (h : Parts p q) : Before p q := by
  obtain ⟨c, a, b, s, t, rfl, rfl, hab⟩ := h
  exact List.Lex.append_left _ (List.Lex.rel hab) c

theorem append_left {p q : List V} (h : Parts p q) (r : List V) : Parts (p ++ r) q := by
  obtain ⟨c, a, b, s, t, rfl, rfl, hab⟩ := h
  exact ⟨c, a, b, s ++ r, t, by simp, rfl, hab⟩

theorem append_right {p q : List V} (h : Parts p q) (r : List V) : Parts p (q ++ r) := by
  obtain ⟨c, a, b, s, t, rfl, rfl, hab⟩ := h
  exact ⟨c, a, b, s, t ++ r, rfl, by simp, hab⟩

theorem children (p : List V) {a b : V} (h : a > b) : Parts (p ++ [a]) (p ++ [b]) :=
  ⟨p, a, b, [], [], rfl, rfl, h⟩

end Parts

theorem before_child (p : List V) (w : V) : Before p (p ++ [w]) := by
  have h := List.Lex.append_left (· > ·) (List.Lex.nil (a := w) (l := [])) p
  rwa [List.append_nil] at h

theorem not_before_of_before {p q : List V} (h : Before p q) : ¬ Before q p :=
  Std.Asymm.asymm _ _ h

theorem eq_of_not_before {p q : List V} (h : ¬ Before p q) (h' : ¬ Before q p) : p = q :=
  Std.Trichotomous.trichotomous p q h h'

theorem not_before_append (p s : List V) : ¬ Before (p ++ s) p := by
  intro h
  exact not_before_of_before (List.Lex.append_right _ s h) (List.Lex.append_right _ s h)

/-- The vertex in which a path from `start` ends. -/
def endOf {V : Type} (start : V) (p : List V) : V := p.getLastD start

@[simp] theorem endOf_nil {V : Type} (start : V) : endOf start [] = start := rfl

@[simp] theorem endOf_child {V : Type} (start : V) (p : List V) (w : V) :
    endOf start (p ++ [w]) = w := by
  simp [endOf]

/-! ## The paths on which vertices are first seen -/

section Arrivals
variable (nbrs : V → List V) (limit : Nat) (start : V)

/-- The limit does not stop the path `p`, and `w` is next to its end. -/
def Offers (p : List V) (w : V) : Prop := p.length < limit ∧ w ∈ nbrs (endOf start p)

/-- `R` holds, with the empty path, each path that goes on to a vertex which no path before it offers. -/
structure IsArrivals (R : Set (List V)) : Prop where
  root : [] ∈ R
  child : ∀ p w, p ++ [w] ∈ R ↔
    p ∈ R ∧ Offers nbrs limit start p w ∧ w ≠ start ∧ ∀ q ∈ R, Before q p → ¬ Offers nbrs limit start q w

/-- A vertex is first seen on the path `p`. -/
def Arrives (p : List V) : Prop := ∃ R, IsArrivals nbrs limit start R ∧ p ∈ R

/-- What holds between two turns of the loop, for the paths that were taken and those on the stack. -/
structure SearchInv (taken : Set (List V)) (pending : List (List V)) (visited : Finset V) : Prop where
  root : [] ∈ taken ∨ [] ∈ pending
  ends : ∀ v, v ∈ visited ↔ ∃ p, (p ∈ taken ∨ p ∈ pending) ∧ endOf start p = v
  child : ∀ p w, p ++ [w] ∈ taken ∨ p ++ [w] ∈ pending →
    p ∈ taken ∧ Offers nbrs limit start p w ∧ w ≠ start ∧
      ∀ q ∈ taken, Before q p → ¬ Offers nbrs limit start q w
  closed : ∀ p ∈ taken, ∀ w, Offers nbrs limit start p w → w ∈ visited
  order : ∀ p ∈ taken, ∀ q ∈ pending, Before p q
  parts : pending.Pairwise Parts
  least : ∀ R, IsArrivals nbrs limit start R → ∀ p, p ∈ taken ∨ p ∈ pending → p ∈ R

variable {nbrs limit start}

theorem searchInv_start : SearchInv nbrs limit start ∅ [[]] {start} where
  root := .inr (List.mem_singleton_self _)
  ends v := by simp [eq_comm]
  child p w h := by simp at h
  closed p hp := absurd hp (Set.notMem_empty p)
  order p hp := absurd hp (Set.notMem_empty p)
  parts := List.pairwise_singleton _ _
  least R hR p hp := by
    obtain rfl : p = [] := by simpa using hp
    exact hR.root

namespace SearchInv
variable {taken : Set (List V)} {pending : List (List V)} {visited : Finset V}

/-- A vertex that a taken path offers, and none before it, was seen on this path. -/
theorem known_of (h : SearchInv nbrs limit start taken pending visited) {p : List V} {w : V}
    (hp : p ∈ taken) (ho : Offers nbrs limit start p w) (hw : w ≠ start)
    (hfirst : ∀ q ∈ taken, Before q p → ¬ Offers nbrs limit start q w) :
    p ++ [w] ∈ taken ∨ p ++ [w] ∈ pending := by
  obtain ⟨r, hr, hend⟩ := (h.ends w).mp (h.closed p hp w ho)
  induction r using List.reverseRecOn with
  | nil => exact absurd hend.symm hw
  | append_singleton r₀ v _ =>
    obtain rfl : v = w := by simpa using hend
    obtain ⟨hr₀, hro, -, hrfirst⟩ := h.child r₀ v hr
    have heq : r₀ = p :=
      eq_of_not_before (fun hb => hfirst r₀ hr₀ hb hro) (fun hb => hrfirst p hp hb ho)
    exact heq ▸ hr

/-- Each path of arrivals was taken, or goes on from one on the stack. -/
theorem taken_or_extends (h : SearchInv nbrs limit start taken pending visited)
    {R : Set (List V)} (hR : IsArrivals nbrs limit start R) {q : List V} (hq : q ∈ R) :
    q ∈ taken ∨ ∃ f ∈ pending, f <+: q := by
  induction q using List.reverseRecOn with
  | nil => exact h.root.imp_right fun hp => ⟨[], hp, List.prefix_rfl⟩
  | append_singleton q₀ w ih =>
    obtain ⟨hq₀, ho, hw, hfirst⟩ := (hR.child q₀ w).mp hq
    rcases ih hq₀ with ht | ⟨f, hf, hpre⟩
    · have hknown := h.known_of ht ho hw fun r hr => hfirst r (h.least R hR r (.inl hr))
      exact hknown.imp_right fun hp => ⟨_, hp, List.prefix_rfl⟩
    · exact .inr ⟨f, hf, hpre.trans (List.prefix_append q₀ [w])⟩

/-- A vertex that is now seen for the first time: the path to it starts no other way, and none before
it offers it. -/
theorem child_of_new {p : List V} {w : V}
    (h : SearchInv nbrs limit start taken (p :: pending) visited) (hw : w ∉ visited) :
    w ≠ start ∧ ∀ q ∈ insert p taken, Before q p → ¬ Offers nbrs limit start q w := by
  refine ⟨?_, ?_⟩
  · rintro rfl
    exact hw ((h.ends w).mpr ⟨[], h.root, rfl⟩)
  · rintro q (rfl | hq) hb ho
    · exact not_before_of_before hb hb
    · exact hw (h.closed q hq w ho)

/-- A path that was known stays so: `p`, which is taken now, does not stand before it. -/
theorem child_of_known {p p₀ : List V} {w : V}
    (h : SearchInv nbrs limit start taken (p :: pending) visited)
    (hk : p₀ ++ [w] ∈ taken ∨ p₀ ++ [w] ∈ p :: pending) :
    p₀ ∈ insert p taken ∧ Offers nbrs limit start p₀ w ∧ w ≠ start ∧
      ∀ q ∈ insert p taken, Before q p₀ → ¬ Offers nbrs limit start q w := by
  obtain ⟨ht, ho, hw, hfirst⟩ := h.child p₀ w hk
  refine ⟨.inr ht, ho, hw, ?_⟩
  rintro q (rfl | hq) hb
  · exact absurd hb (not_before_of_before (h.order p₀ ht q (List.mem_cons_self ..)))
  · exact hfirst q hq hb

/-- What `p` offers and was not seen is an arrival, where `p` is. -/
theorem child_mem_arrivals {p : List V} {w : V} {R : Set (List V)}
    (h : SearchInv nbrs limit start taken (p :: pending) visited)
    (hR : IsArrivals nbrs limit start R) (ho : Offers nbrs limit start p w) (hw : w ∉ visited) :
    p ++ [w] ∈ R := by
  have hpR : p ∈ R := h.least R hR p (.inr (List.mem_cons_self ..))
  refine (hR.child p w).mpr ⟨hpR, ho, (h.child_of_new hw).1, fun q hq hb hoq => ?_⟩
  -- A path before `p` was taken, so what it offers was seen.
  rcases h.taken_or_extends hR hq with ht | ⟨f, hf, s, rfl⟩
  · exact hw (h.closed q ht w hoq)
  · rcases List.mem_cons.mp hf with rfl | hf
    · exact not_before_append f s hb
    · have hparts := (List.pairwise_cons.mp h.parts).1 f hf
      exact not_before_of_before (hparts.append_right s).before hb

/-- One turn of the loop, for the path on top of the stack. -/
theorem step {p : List V} (h : SearchInv nbrs limit start taken (p :: pending) visited)
    (hn : ∀ v, (nbrs v).Pairwise (· < ·)) {new : List V}
    (hnew : new = unseen nbrs limit visited (endOf start p) p.length) :
    SearchInv nbrs limit start (insert p taken) ((new.map (p ++ [·])).reverse ++ pending)
      (visited ∪ new.toFinset) := by
  have hmem : ∀ w, w ∈ new ↔ Offers nbrs limit start p w ∧ w ∉ visited := by
    intro w
    rw [hnew, mem_unseen, Offers, and_assoc]
  have hstack : ∀ q, q ∈ (new.map (p ++ [·])).reverse ++ pending ↔
      (∃ w ∈ new, p ++ [w] = q) ∨ q ∈ pending := by
    simp
  have hparts := List.pairwise_cons.mp h.parts
  refine ⟨?_, ?_, ?_, ?_, ?_, ?_, ?_⟩
  · rcases h.root with hr | hr
    · exact .inl (.inr hr)
    · rcases List.mem_cons.mp hr with hr | hr
      · exact .inl (.inl hr)
      · exact .inr ((hstack []).mpr (.inr hr))
  · intro v
    rw [Finset.mem_union, List.mem_toFinset, h.ends]
    constructor
    · rintro (⟨q, hq, rfl⟩ | hv)
      · refine ⟨q, ?_, rfl⟩
        rw [hstack, Set.mem_insert_iff]
        rw [List.mem_cons] at hq
        tauto
      · exact ⟨p ++ [v], .inr ((hstack _).mpr (.inl ⟨v, hv, rfl⟩)), endOf_child ..⟩
    · rintro ⟨q, hq, rfl⟩
      rw [hstack, Set.mem_insert_iff] at hq
      rcases hq with (rfl | hq) | ⟨w, hw, rfl⟩ | hq
      · exact .inl ⟨q, .inr (List.mem_cons_self ..), rfl⟩
      · exact .inl ⟨q, .inl hq, rfl⟩
      · exact .inr (by rwa [endOf_child])
      · exact .inl ⟨q, .inr (List.mem_cons_of_mem _ hq), rfl⟩
  · intro p₀ w hp₀
    rw [hstack, Set.mem_insert_iff] at hp₀
    rcases hp₀ with (hp₀ | hp₀) | ⟨v, hv, heq⟩ | hp₀
    · exact h.child_of_known (.inr (hp₀ ▸ List.mem_cons_self ..))
    · exact h.child_of_known (.inl hp₀)
    · obtain ⟨rfl, hvw⟩ := List.append_inj' heq rfl
      obtain rfl : v = w := by simpa using hvw
      obtain ⟨ho, hvis⟩ := (hmem v).mp hv
      exact ⟨.inl rfl, ho, h.child_of_new hvis⟩
    · exact h.child_of_known (.inr (List.mem_cons_of_mem _ hp₀))
  · rintro q (rfl | hq) w ho
    · rw [Finset.mem_union, List.mem_toFinset, hmem]
      tauto
    · exact Finset.mem_union_left _ (h.closed q hq w ho)
  · intro t ht q hq
    rcases (hstack q).mp hq with ⟨w, -, rfl⟩ | hqp
    · rcases ht with rfl | ht
      · exact before_child t w
      · exact List.Lex.append_right _ [w] (h.order t ht p (List.mem_cons_self ..))
    · rcases ht with rfl | ht
      · exact (hparts.1 q hqp).before
      · exact h.order t ht q (List.mem_cons_of_mem _ hqp)
  · rw [List.pairwise_append, List.pairwise_reverse, List.pairwise_map]
    refine ⟨?_, hparts.2, ?_⟩
    · have hasc : new.Pairwise (· < ·) := by
        rw [hnew, unseen]
        split
        · exact List.Pairwise.nil
        · exact (hn _).filter _
      exact hasc.imp fun hlt => Parts.children p hlt
    · intro q hq f hf
      obtain ⟨w, -, rfl⟩ : ∃ w ∈ new, p ++ [w] = q := by simpa using hq
      exact (hparts.1 f hf).append_left [w]
  · intro R hR q hq
    rw [hstack, Set.mem_insert_iff] at hq
    rcases hq with (rfl | hq) | ⟨w, hw, rfl⟩ | hq
    · exact h.least R hR q (.inr (List.mem_cons_self ..))
    · exact h.least R hR q (.inl hq)
    · obtain ⟨ho, hvis⟩ := (hmem w).mp hw
      exact h.child_mem_arrivals hR ho hvis
    · exact h.least R hR q (.inr (List.mem_cons_of_mem _ hq))

/-- With the stack empty, the taken paths are the arrivals, and there are no others. -/
theorem isArrivals (h : SearchInv nbrs limit start taken [] visited) :
    IsArrivals nbrs limit start taken where
  root := by simpa using h.root
  child p w := by
    constructor
    · exact fun hp => h.child p w (.inl hp)
    · rintro ⟨hp, ho, hw, hfirst⟩
      simpa using h.known_of hp ho hw hfirst

theorem arrives_iff (h : SearchInv nbrs limit start taken [] visited) (p : List V) :
    Arrives nbrs limit start p ↔ p ∈ taken := by
  constructor
  · rintro ⟨R, hR, hp⟩
    simpa using h.taken_or_extends hR hp
  · exact fun hp => ⟨taken, h.isArrivals, hp⟩

end SearchInv

theorem search_inv (hn : ∀ v, (nbrs v).Pairwise (· < ·)) {fuel : Nat} {taken : Set (List V)}
    {pending : List (List V)} {visited found : Finset V}
    (h : SearchInv nbrs limit start taken pending visited)
    (hs : search nbrs limit fuel ⟨visited, pending.map fun p => (endOf start p, p.length)⟩ = some found) :
    ∃ taken, SearchInv nbrs limit start taken [] found := by
  have hnodup : ∀ v, (nbrs v).Nodup := fun v => (hn v).imp fun hlt => hlt.ne
  induction fuel generalizing taken pending visited with
  | zero =>
    cases pending with
    | nil =>
      obtain rfl : visited = found := by simpa [search] using hs
      exact ⟨taken, h⟩
    | cons p rest => simp [search] at hs
  | succ fuel ih =>
    cases pending with
    | nil =>
      obtain rfl : visited = found := by simpa [search] using hs
      exact ⟨taken, h⟩
    | cons p rest =>
      rw [List.map_cons, search_step hnodup] at hs
      refine ih (h.step hn rfl) ?_
      rw [← hs]
      congr 2
      simp [Function.comp_def]

variable (nbrs limit start) in
/-- What a search has seen: the ends of the paths of arrivals, and all that these paths offer. -/
structure Sees (found : Finset V) : Prop where
  arrivals : IsArrivals nbrs limit start {p | Arrives nbrs limit start p}
  ends : ∀ v, v ∈ found ↔ ∃ p, Arrives nbrs limit start p ∧ endOf start p = v
  offers : ∀ v, v ∈ found ↔ v = start ∨ ∃ p, Arrives nbrs limit start p ∧ Offers nbrs limit start p v

theorem search_sees (hn : ∀ v, (nbrs v).Pairwise (· < ·)) {fuel : Nat} {found : Finset V}
    (hs : search nbrs limit fuel ⟨{start}, [(start, 0)]⟩ = some found) :
    Sees nbrs limit start found := by
  obtain ⟨taken, h⟩ := search_inv hn searchInv_start hs
  have htaken : {p | Arrives nbrs limit start p} = taken := Set.ext h.arrives_iff
  have hends : ∀ v, v ∈ found ↔ ∃ p ∈ taken, endOf start p = v := by
    intro v
    simp [h.ends]
  refine ⟨htaken ▸ h.isArrivals, fun v => ?_, fun v => ?_⟩
  · simp only [hends, h.arrives_iff]
  · simp only [h.arrives_iff]
    constructor
    · intro hv
      obtain ⟨p, hp, rfl⟩ := (hends v).mp hv
      induction p using List.reverseRecOn with
      | nil => exact .inl rfl
      | append_singleton p w _ =>
        obtain ⟨hp, ho, -, -⟩ := h.child p w (.inl hp)
        exact .inr ⟨p, hp, by rwa [endOf_child]⟩
    · rintro (rfl | ⟨p, hp, ho⟩)
      · exact (hends v).mpr ⟨[], h.isArrivals.root, rfl⟩
      · exact h.closed p hp v ho

/-! ## What the search misses -/

/-- The vertices next to one whose first path is stopped by the limit, though the vertex is nearer, are
next to another one whose first path the limit does not stop. -/
def NothingCutOff (G : SimpleGraph V) (nbrs : V → List V) (limit : Nat) (start : V) : Prop :=
  ∀ p, Arrives nbrs limit start p → p.length = limit → G.dist start (endOf start p) < limit →
    ∀ w ∈ nbrs (endOf start p), w = start ∨
      ∃ q, Arrives nbrs limit start q ∧ Offers nbrs limit start q w

namespace IsArrivals
variable {G : SimpleGraph V} {R : Set (List V)}

/-- The end of a path of arrivals is no farther than the path is long. -/
theorem reachable_dist_le (h : IsArrivals nbrs limit start R)
    (hadj : ∀ v w, G.Adj v w ↔ v ≠ w ∧ w ∈ nbrs v) {p : List V} (hp : p ∈ R) :
    p.length ≤ limit ∧ G.Reachable start (endOf start p) ∧
      G.dist start (endOf start p) ≤ p.length := by
  induction p using List.reverseRecOn with
  | nil => exact ⟨Nat.zero_le _, SimpleGraph.Reachable.refl start, by simp⟩
  | append_singleton p w ih =>
    obtain ⟨hp, ⟨hlen, hw⟩, -, -⟩ := (h.child p w).mp hp
    obtain ⟨-, hreach, hdist⟩ := ih hp
    rw [endOf_child, List.length_append, List.length_singleton]
    by_cases heq : endOf start p = w
    · subst heq
      exact ⟨hlen, hreach, by omega⟩
    · have hvw : G.Adj (endOf start p) w := (hadj _ _).mpr ⟨heq, hw⟩
      have htri := hreach.dist_triangle_left w
      rw [SimpleGraph.dist_eq_one_iff_adj.mpr hvw] at htri
      exact ⟨hlen, hreach.trans hvw.reachable, by omega⟩

end IsArrivals

/-- A search finds the vertices within the limit, unless the limit cuts one off. -/
theorem Sees.dist_iff {G : SimpleGraph V} {found : Finset V} (h : Sees nbrs limit start found)
    (hadj : ∀ v w, G.Adj v w ↔ v ≠ w ∧ w ∈ nbrs v) :
    (∀ v, v ∈ found.erase start ↔ 1 ≤ G.dist start v ∧ G.dist start v ≤ limit) ↔
      NothingCutOff G nbrs limit start := by
  have hreach := fun p (hp : Arrives nbrs limit start p) => h.arrivals.reachable_dist_le hadj hp
  constructor
  · intro hdist p hp _ hnear w hw
    by_cases hws : w = start
    · exact .inl hws
    refine ((h.offers w).mp ?_)
    by_cases hpw : endOf start p = w
    · exact (h.ends w).mpr ⟨p, hp, hpw⟩
    · obtain ⟨-, hr, -⟩ := hreach p hp
      have hvw : G.Adj (endOf start p) w := (hadj _ _).mpr ⟨hpw, hw⟩
      have htri := hr.dist_triangle_left w
      rw [SimpleGraph.dist_eq_one_iff_adj.mpr hvw] at htri
      have hpos := (hr.trans hvw.reachable).pos_dist_of_ne (Ne.symm hws)
      exact Finset.mem_of_mem_erase ((hdist w).mpr ⟨hpos, by omega⟩)
  · intro hcut
    -- Along a shortest path: each vertex within the limit is seen.
    have hseen : ∀ n, n ≤ limit → ∀ v (walk : G.Walk v start), walk.length = n → v ∈ found := by
      intro n
      induction n with
      | zero =>
        intro _ v walk hlen
        obtain rfl := walk.eq_of_length_eq_zero hlen
        exact (h.offers v).mpr (.inl rfl)
      | succ n ih =>
        intro hn v walk hlen
        cases walk with
        | nil => simp at hlen
        | cons hvu walk =>
          rename_i u
          have hwalk : walk.length = n := by simpa using hlen
          obtain ⟨p, hp, rfl⟩ := (h.ends u).mp (ih (by omega) u walk hwalk)
          have hnbr : v ∈ nbrs (endOf start p) := ((hadj _ _).mp hvu.symm).2
          have hle := SimpleGraph.dist_le walk
          rw [SimpleGraph.dist_comm] at hle
          rw [h.offers]
          rcases (hreach p hp).1.lt_or_eq with hlt | heq
          · exact .inr ⟨p, hp, hlt, hnbr⟩
          · exact hcut p hp heq (by omega) v hnbr
    intro v
    rw [Finset.mem_erase]
    constructor
    · rintro ⟨hne, hv⟩
      obtain ⟨p, hp, rfl⟩ := (h.ends v).mp hv
      obtain ⟨hlen, hr, hle⟩ := hreach p hp
      exact ⟨hr.pos_dist_of_ne (Ne.symm hne), hle.trans hlen⟩
    · rintro ⟨hpos, hle⟩
      obtain ⟨hne, hr⟩ := SimpleGraph.dist_ne_zero_iff_ne_and_reachable.mp (by omega : G.dist start v ≠ 0)
      obtain ⟨walk, hwalk⟩ := hr.symm.exists_walk_length_eq_dist
      refine ⟨hne.symm, hseen _ ?_ v walk rfl⟩
      rw [hwalk, SimpleGraph.dist_comm]
      exact hle

/-- Up to two steps nothing is cut off: a vertex next to the start is seen from the start. -/
theorem nothingCutOff_of_le_two {G : SimpleGraph V} {found : Finset V}
    (h : Sees nbrs limit start found) (hadj : ∀ v w, G.Adj v w ↔ v ≠ w ∧ w ∈ nbrs v)
    (hlimit : limit ≤ 2) : NothingCutOff G nbrs limit start := by
  intro p hp hlen hnear w hw
  obtain ⟨-, hr, -⟩ := h.arrivals.reachable_dist_le hadj hp
  by_cases hps : endOf start p = start
  · rw [hps] at hw
    refine .inr ⟨[], ⟨_, h.arrivals, h.arrivals.root⟩, ?_, hw⟩
    simp only [List.length_nil]
    omega
  · have hpos := hr.pos_dist_of_ne (Ne.symm hps)
    have hone : G.dist start (endOf start p) = 1 := by omega
    have hfirst := ((hadj _ _).mp (SimpleGraph.dist_eq_one_iff_adj.mp hone)).2
    induction p using List.reverseRecOn with
    | nil => exact absurd rfl hps
    | append_singleton q v _ =>
      -- The path has two steps, and its end was offered by the empty path.
      obtain ⟨-, -, -, hno⟩ := (h.arrivals.child q v).mp hp
      rw [endOf_child] at hfirst
      have hq : q ≠ [] := by
        rintro rfl
        simp at hlen
        omega
      have hb : Before [] q := by
        cases q with
        | nil => exact absurd rfl hq
        | cons a q => exact List.Lex.nil
      exact absurd ⟨by simp; omega, hfirst⟩ (hno [] ⟨_, h.arrivals, h.arrivals.root⟩ hb)

end Arrivals

end Inim.Lib
