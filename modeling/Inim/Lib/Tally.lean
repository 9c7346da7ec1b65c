import Mathlib
/-!
# Groups and tallies

`groupOn key l` is a map from the keys of `l` to the elements that have them, filled by one pass
over `l`: an association list in the order the keys were first seen. A tally is such a map with
counts for the elements.

`maxBy` is `Iterator::max_by`, which keeps the last of several maxima; where the order is strict on
the list the list's own order does not matter (`maxBy_eq_of_perm`).
-/

namespace Inim.Lib

section Groups
variable {α κ : Type*} [DecidableEq κ]

/-- `map.entry(k).or_default().push(a)`. -/
def addTo (k : κ) (a : α) : List (κ × List α) → List (κ × List α)
  | [] => [(k, [a])]
  | (k', as) :: rest => if k' = k then (k', as ++ [a]) :: rest else (k', as) :: addTo k a rest

variable (key : α → κ)

def groupOn (l : List α) : List (κ × List α) := l.foldl (fun m a => addTo (key a) a m) []

theorem groupOn_concat (l : List α) (a : α) :
    groupOn key (l ++ [a]) = addTo (key a) a (groupOn key l) := by
  simp [groupOn]

theorem map_fst_addTo (k : κ) (a : α) (m : List (κ × List α)) : (addTo k a m).map Prod.fst =
    if k ∈ m.map Prod.fst then m.map Prod.fst else m.map Prod.fst ++ [k] := by
  induction m with
  | nil => rfl
  | cons e m ih =>
    obtain ⟨k', as⟩ := e
    by_cases hk : k' = k
    · simp [addTo, hk]
    · simp only [addTo, hk, if_false, List.map_cons, ih, List.mem_cons, Ne.symm hk, false_or]
      split <;> rfl

theorem mem_map_fst_groupOn {l : List α} {k : κ} :
    k ∈ (groupOn key l).map Prod.fst ↔ ∃ a ∈ l, key a = k := by
  induction l using List.reverseRecOn with
  | nil => simp [groupOn]
  | append_singleton l a ih =>
    rw [groupOn_concat, map_fst_addTo]
    split
    · next hmem =>
      rw [ih]
      constructor
      · rintro ⟨b, hb, hk⟩
        exact ⟨b, List.mem_append_left _ hb, hk⟩
      · rintro ⟨b, hb, rfl⟩
        rcases List.mem_append.1 hb with hb | hb
        · exact ⟨b, hb, rfl⟩
        · obtain rfl := List.mem_singleton.1 hb
          obtain ⟨e, he, hk⟩ := List.mem_map.1 hmem
          exact ih.1 (List.mem_map.2 ⟨e, he, hk⟩)
    · simp [ih, or_and_right, exists_or, eq_comm]

theorem map_fst_groupOn_nodup (l : List α) : ((groupOn key l).map Prod.fst).Nodup := by
  induction l using List.reverseRecOn with
  | nil => simp [groupOn]
  | append_singleton l a ih =>
    rw [groupOn_concat, map_fst_addTo]
    split
    · exact ih
    · next hnew =>
      refine List.nodup_append.2 ⟨ih, by simp, fun b hb c hc hbc => hnew ?_⟩
      rw [← List.mem_singleton.1 hc, ← hbc]
      exact hb

/-- The entries of `addTo`: the one of `k` has `a` at its end, the others are as they were. -/
theorem mem_addTo {k k' : κ} {a : α} {as : List α} {m : List (κ × List α)}
    (hnd : (m.map Prod.fst).Nodup) : (k', as) ∈ addTo k a m ↔
      (k' ≠ k ∧ (k', as) ∈ m) ∨ (k' = k ∧ ((∃ as', (k, as') ∈ m ∧ as = as' ++ [a]) ∨
        (k ∉ m.map Prod.fst ∧ as = [a]))) := by
  induction m with
  | nil => simp [addTo]
  | cons e m ih =>
    obtain ⟨c, cs⟩ := e
    obtain ⟨hc, hnd⟩ := List.nodup_cons.1 hnd
    have hnone : ∀ bs, (c, bs) ∉ m := fun bs h => hc (List.mem_map.2 ⟨_, h, rfl⟩)
    by_cases hck : c = k
    · subst hck
      by_cases hkc : k' = c
      · subst hkc
        simp [addTo, hnone]
      · simp [addTo, hkc]
    · have ih := ih hnd
      by_cases hkk : k' = k
      · subst hkk
        simp [addTo, hck, Ne.symm hck, ih]
      · simp [addTo, hck, hkk, ih]

/-- **The entry of a key is what has it, in the order of the list.** -/
theorem mem_groupOn {l : List α} {k : κ} {as : List α} : (k, as) ∈ groupOn key l ↔
    (∃ a ∈ l, key a = k) ∧ as = l.filter fun a => decide (key a = k) := by
  induction l using List.reverseRecOn generalizing as with
  | nil => simp [groupOn]
  | append_singleton l a ih =>
    rw [groupOn_concat, mem_addTo (map_fst_groupOn_nodup key l), mem_map_fst_groupOn]
    by_cases hk : k = key a
    · subst hk
      by_cases hseen : ∃ b ∈ l, key b = key a
      · simp [ih, hseen]
      · have hnone : l.filter (fun b => decide (key b = key a)) = [] := by
          rw [List.filter_eq_nil_iff]
          exact fun b hb => by simpa using fun h => hseen ⟨b, hb, h⟩
        simp [ih, hseen, hnone]
    · simp [ih, hk, Ne.symm hk, or_and_right, exists_or]

theorem flatten_addTo_perm (k : κ) (a : α) (m : List (κ × List α)) :
    ((addTo k a m).map Prod.snd).flatten.Perm (a :: (m.map Prod.snd).flatten) := by
  induction m with
  | nil => rfl
  | cons e m ih =>
    obtain ⟨k', as⟩ := e
    by_cases hk : k' = k
    · simp only [addTo, hk, if_true, List.map_cons, List.flatten_cons, List.append_assoc]
      exact List.perm_middle
    · simp only [addTo, hk, if_false, List.map_cons, List.flatten_cons]
      exact (ih.append_left as).trans List.perm_middle

/-- No element is lost or counted twice. -/
theorem flatten_groupOn_perm (l : List α) : ((groupOn key l).map Prod.snd).flatten.Perm l := by
  induction l using List.reverseRecOn with
  | nil => rfl
  | append_singleton l a ih =>
    rw [groupOn_concat]
    exact ((flatten_addTo_perm (key a) a _).trans (ih.cons a)).trans (List.perm_append_singleton a l).symm

theorem groupOn_ne_nil {l : List α} {k : κ} {as : List α} (h : (k, as) ∈ groupOn key l) : as ≠ [] := by
  obtain ⟨⟨a, ha, hk⟩, rfl⟩ := (mem_groupOn key).1 h
  exact List.ne_nil_of_mem (List.mem_filter.2 ⟨ha, decide_eq_true hk⟩)

end Groups

section Tally
variable {α : Type*} [DecidableEq α]

/-- One more `a`: its first entry is raised, or a new one is pushed. -/
def bump (a : α) : List (α × Nat) → List (α × Nat)
  | [] => [(a, 1)]
  | (b, n) :: rest => if b = a then (b, n + 1) :: rest else (b, n) :: bump a rest

def tally (l : List α) : List (α × Nat) := l.foldl (fun counts a => bump a counts) []

theorem tally_eq_groupOn (l : List α) :
    tally l = (groupOn id l).map fun e => (e.1, e.2.length) := by
  have hbump : ∀ (a : α) (m : List (α × List α)), bump a (m.map fun e => (e.1, e.2.length)) =
      (addTo a a m).map fun e => (e.1, e.2.length) := by
    intro a m
    induction m with
    | nil => rfl
    | cons e m ih => by_cases he : e.1 = a <;> simp [bump, addTo, he, ih]
  induction l using List.reverseRecOn with
  | nil => rfl
  | append_singleton l a ih =>
    rw [groupOn_concat, id, ← hbump, ← ih, tally, tally, List.foldl_append]
    rfl

theorem map_fst_tally_nodup (l : List α) : ((tally l).map Prod.fst).Nodup := by
  rw [tally_eq_groupOn, List.map_map]
  exact map_fst_groupOn_nodup id l

/-- The entries are the things seen, each with how often. -/
theorem mem_tally {l : List α} {a : α} {n : Nat} : (a, n) ∈ tally l ↔ a ∈ l ∧ n = l.count a := by
  rw [tally_eq_groupOn, List.mem_map]
  constructor
  · rintro ⟨⟨b, as⟩, hmem, heq⟩
    obtain ⟨rfl, rfl⟩ := Prod.mk.inj heq
    obtain ⟨⟨c, hc, rfl⟩, rfl⟩ := (mem_groupOn id).1 hmem
    exact ⟨hc, by simp [List.count_eq_length_filter, beq_eq_decide]⟩
  · rintro ⟨ha, rfl⟩
    exact ⟨(a, l.filter fun b => decide (id b = a)), (mem_groupOn id).2 ⟨⟨a, ha, rfl⟩, rfl⟩,
      by simp [List.count_eq_length_filter, beq_eq_decide]⟩

end Tally

/-- Two counts agree when nothing is in the one and not in the other. -/
theorem countP_eq_countP_and_iff {α : Type*} {p q : α → Bool} {l : List α} :
    l.countP p = l.countP (fun a => p a && q a) ↔ ∀ a ∈ l, p a = true → q a = true := by
  constructor
  · intro h a ha hp
    have hsub : ((l.filter p).filter q) = l.filter p := by
      refine List.filter_sublist.eq_of_length ?_
      rw [List.filter_filter, ← List.countP_eq_length_filter, ← List.countP_eq_length_filter, h]
      exact List.countP_congr fun b _ => by rw [Bool.and_comm]
    exact List.filter_eq_self.1 hsub a (List.mem_filter.2 ⟨ha, hp⟩)
  · intro h
    refine List.countP_congr fun a ha => ?_
    rw [Bool.and_eq_true]
    exact ⟨fun hp => ⟨hp, h a ha hp⟩, And.left⟩

/-! ## The last maximum -/

section MaxBy
variable {α : Type*} (cmp : α → α → Ordering)

/-- The later one unless it is smaller. -/
def pickMax (x y : α) : α := if cmp x y = .gt then x else y

def maxBy : List α → Option α
  | [] => none
  | a :: l => some (l.foldl (pickMax cmp) a)

theorem maxBy_map {β : Type*} (f : β → α) (l : List β) :
    maxBy cmp (l.map f) = (maxBy (fun a b => cmp (f a) (f b)) l).map f := by
  have hfold : ∀ (l : List β) (b : β), (l.map f).foldl (pickMax cmp) (f b) =
      f (l.foldl (pickMax fun a b => cmp (f a) (f b)) b) := by
    intro l
    induction l with
    | nil => exact fun _ => rfl
    | cons c l ih =>
      intro b
      have hpick : pickMax cmp (f b) (f c) = f (pickMax (fun a b => cmp (f a) (f b)) b c) := by
        unfold pickMax
        split <;> rfl
      rw [List.map_cons, List.foldl_cons, List.foldl_cons, hpick, ih]
  cases l with
  | nil => rfl
  | cons b l => exact congrArg some (hfold l b)

variable {cmp}

theorem maxBy_mem {l : List α} {m : α} (h : maxBy cmp l = some m) : m ∈ l := by
  cases l with
  | nil => cases h
  | cons a l =>
    obtain rfl := Option.some.inj h
    have hmem : ∀ (l : List α) (a : α), l.foldl (pickMax cmp) a ∈ a :: l := by
      intro l
      induction l with
      | nil => simp
      | cons b l ih =>
        intro a
        rw [List.foldl_cons]
        rcases List.mem_cons.1 (ih (pickMax cmp a b)) with hm | hm
        · rw [hm, pickMax]
          split <;> simp
        · exact List.mem_cons_of_mem _ (List.mem_cons_of_mem _ hm)
    exact hmem l a

variable [Std.TransCmp cmp]

theorem le_maxBy {l : List α} {m : α} (h : maxBy cmp l = some m) : ∀ a ∈ l, (cmp a m).isLE = true := by
  cases l with
  | nil => cases h
  | cons a l =>
    obtain rfl := Option.some.inj h
    have hle : ∀ (l : List α) (a : α), ∀ b ∈ a :: l, (cmp b (l.foldl (pickMax cmp) a)).isLE = true := by
      intro l
      induction l with
      | nil => simp [Std.ReflCmp.isLE_rfl]
      | cons c l ih =>
        intro a b hb
        rw [List.foldl_cons]
        have htop := ih (pickMax cmp a c) _ List.mem_cons_self
        have hpick : (cmp a (pickMax cmp a c)).isLE = true ∧ (cmp c (pickMax cmp a c)).isLE = true := by
          unfold pickMax
          split
          · next hgt => exact ⟨Std.ReflCmp.isLE_rfl, by simp [Std.OrientedCmp.lt_of_gt hgt]⟩
          · next hle => exact ⟨by cases hc : cmp a c <;> simp_all, Std.ReflCmp.isLE_rfl⟩
        rcases List.mem_cons.1 hb with rfl | hb
        · exact Std.TransCmp.isLE_trans hpick.1 htop
        · rcases List.mem_cons.1 hb with rfl | hb
          · exact Std.TransCmp.isLE_trans hpick.2 htop
          · exact ih _ b (List.mem_cons_of_mem _ hb)
    exact hle l a

/-- Where no two elements compare equal the maximum is one whatever order they come in. -/
theorem maxBy_eq_of_perm {l l' : List α} (h : l.Perm l')
    (hstrict : ∀ a ∈ l, ∀ b ∈ l, cmp a b = .eq → a = b) : maxBy cmp l = maxBy cmp l' := by
  rcases hl : l with _ | ⟨a, rest⟩
  · rw [hl] at h
    rw [h.nil_eq]
  · rcases hl' : l' with _ | ⟨a', rest'⟩
    · rw [hl, hl'] at h
      exact absurd h.symm (List.not_perm_nil_cons _ _)
    · rw [← hl, ← hl']
      obtain ⟨m, hm⟩ : ∃ m, maxBy cmp l = some m := ⟨_, by rw [hl]; rfl⟩
      obtain ⟨m', hm'⟩ : ∃ m', maxBy cmp l' = some m' := ⟨_, by rw [hl']; rfl⟩
      have hmem := maxBy_mem hm
      have hmem' := h.mem_iff.2 (maxBy_mem hm')
      have hle := le_maxBy hm m' hmem'
      have hle' := le_maxBy hm' m (h.mem_iff.1 hmem)
      rw [hm, hm', hstrict m hmem m' hmem' (Std.OrientedCmp.isLE_antisymm hle' hle)]

end MaxBy

end Inim.Lib
