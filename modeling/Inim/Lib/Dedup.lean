import Inim.Lib.SortBy

/-!
# Sorting and removing adjacent repeats

`sort` followed by `dedup` gives one list for all listings of a set (`sortDedup_congr`): what a
cache key or a plan identity is made from when the order of a list must not matter.
-/

namespace Inim.Lib

open Std

section ByKey

variable {α κ : Type*} [DecidableEq κ] (key : α → κ)

/-- The rest of a run that starts with `a`. -/
def dedupFrom (a : α) : List α → List α
  | [] => [a]
  | b :: l => if key a = key b then dedupFrom a l else a :: dedupFrom b l

/-- `Vec::dedup_by_key`: of a run of elements with equal keys the first stays. -/
def dedupByKey : List α → List α
  | [] => []
  | a :: l => dedupFrom key a l

theorem dedupFrom_sublist (a : α) (l : List α) : (dedupFrom key a l).Sublist (a :: l) := by
  induction l generalizing a with
  | nil => exact List.Sublist.refl _
  | cons b l ih =>
    rw [dedupFrom]
    split
    · exact (ih a).trans ((List.sublist_cons_self b l).cons_cons a)
    · exact (ih b).cons_cons a

theorem dedupByKey_sublist (l : List α) : (dedupByKey key l).Sublist l := by
  cases l with
  | nil => exact List.Sublist.refl _
  | cons a l => exact dedupFrom_sublist key a l

/-- No key is lost. -/
theorem exists_mem_dedupFrom {a x : α} {l : List α} (h : x ∈ a :: l) :
    ∃ y ∈ dedupFrom key a l, key y = key x := by
  induction l generalizing a x with
  | nil => exact ⟨a, List.mem_cons_self, by rw [List.mem_singleton.mp h]⟩
  | cons b l ih =>
    rw [dedupFrom]
    split
    · rename_i hab
      obtain ⟨y, hy, hk⟩ := ih (a := a) (x := a) List.mem_cons_self
      rcases List.mem_cons.mp h with rfl | h
      · exact ⟨y, hy, hk⟩
      rcases List.mem_cons.mp h with rfl | h
      · exact ⟨y, hy, hk.trans hab⟩
      · exact ih (List.mem_cons_of_mem a h)
    · rcases List.mem_cons.mp h with rfl | h
      · exact ⟨x, List.mem_cons_self, rfl⟩
      · obtain ⟨y, hy, hk⟩ := ih h
        exact ⟨y, List.mem_cons_of_mem a hy, hk⟩

theorem exists_mem_dedupByKey {x : α} {l : List α} (h : x ∈ l) :
    ∃ y ∈ dedupByKey key l, key y = key x := by
  cases l with
  | nil => cases h
  | cons a l => exact exists_mem_dedupFrom key h

/-- The first element of a key is the first of its run. -/
theorem find?_dedupFrom (k : κ) (a : α) (l : List α) :
    (dedupFrom key a l).find? (key · = k) = (a :: l).find? (key · = k) := by
  induction l generalizing a with
  | nil => rfl
  | cons b l ih =>
    rw [dedupFrom]
    by_cases hk : key a = k
    · rw [List.find?_cons_of_pos (by simpa using hk)]
      split
      · rw [ih, List.find?_cons_of_pos (by simpa using hk)]
      · rw [List.find?_cons_of_pos (by simpa using hk)]
    · rw [List.find?_cons_of_neg (by simpa using hk)]
      split
      · next hab =>
        rw [ih, List.find?_cons_of_neg (by simpa using hk),
          List.find?_cons_of_neg (by simpa [← hab] using hk)]
      · rw [List.find?_cons_of_neg (by simpa using hk), ih]

theorem find?_dedupByKey (k : κ) (l : List α) :
    (dedupByKey key l).find? (key · = k) = l.find? (key · = k) := by
  cases l with
  | nil => rfl
  | cons a l => exact find?_dedupFrom key k a l

end ByKey

/-- Sorting by a key leaves the first element of a key the first. -/
theorem find?_sortBy_key {α κ : Type*} [Ord κ] [TransOrd κ] [LawfulEqOrd κ] [DecidableEq κ]
    (key : α → κ) (k : κ) (l : List α) :
    (sortBy (compareOn key) l).find? (key · = k) = l.find? (key · = k) := by
  have hties : (l.filter (key · = k)).Pairwise (CmpLE (compareOn key)) := by
    refine List.pairwise_of_forall_mem_list fun a ha b hb => ?_
    have hab : key a = key b := by
      rw [of_decide_eq_true (List.mem_filter.1 ha).2, of_decide_eq_true (List.mem_filter.1 hb).2]
    rw [CmpLE, compareOn, hab, ReflOrd.compare_self]
    rfl
  rw [← List.head?_filter, ← List.head?_filter, sortBy_filter, sortBy_eq_self hties]

variable {α : Type*} [DecidableEq α]

/-- `Vec::dedup`. -/
def dedupAdjacent (l : List α) : List α := dedupByKey id l

theorem mem_dedupAdjacent {a : α} {l : List α} : a ∈ dedupAdjacent l ↔ a ∈ l := by
  constructor
  · exact fun h => (dedupByKey_sublist id l).subset h
  · intro h
    obtain ⟨y, hy, rfl⟩ := exists_mem_dedupByKey id h
    exact hy

theorem dedupAdjacent_sublist (l : List α) : (dedupAdjacent l).Sublist l := dedupByKey_sublist id l

/-- Nothing comes back after something else. -/
def NoReturn (l : List α) : Prop := ∀ a b, a ≠ b → ¬ [a, b, a].Sublist l

theorem noReturn_cons_self {a : α} {l : List α} : NoReturn (a :: a :: l) ↔ NoReturn (a :: l) := by
  refine forall_congr' fun x => forall_congr' fun y => forall_congr' fun hxy => not_congr ?_
  constructor
  · intro h
    by_cases hx : x = a
    · subst hx
      have h' : [y, x].Sublist (x :: l) := List.cons_sublist_cons.1 h
      rcases List.sublist_cons_iff.1 h' with h' | ⟨r, hr, -⟩
      · exact h'.cons_cons x
      · exact absurd (List.cons.inj hr).1.symm hxy
    · rcases List.sublist_cons_iff.1 h with h' | ⟨r, hr, -⟩
      · exact h'
      · exact absurd (List.cons.inj hr).1 hx
  · intro h
    exact h.cons a

omit [DecidableEq α] in
theorem noReturn_cons_ne {a b : α} {l : List α} (hab : a ≠ b) :
    NoReturn (a :: b :: l) ↔ a ∉ b :: l ∧ NoReturn (b :: l) := by
  constructor
  · intro h
    refine ⟨fun hmem => ?_, fun x y hxy hs => h x y hxy (hs.cons a)⟩
    have hl : a ∈ l := (List.mem_cons.1 hmem).resolve_left hab
    exact h a b hab (((List.singleton_sublist.2 hl).cons_cons b).cons_cons a)
  · rintro ⟨hmem, h⟩ x y hxy hs
    rcases List.sublist_cons_iff.1 hs with hs | ⟨r, hr, hs⟩
    · exact h x y hxy hs
    · obtain ⟨rfl, rfl⟩ := List.cons.inj hr
      exact hmem (hs.subset (by simp))

/-- Removing adjacent repeats removes all repeats if nothing comes back. -/
theorem dedupAdjacent_nodup_iff (l : List α) : (dedupAdjacent l).Nodup ↔ NoReturn l := by
  cases l with
  | nil => simp [dedupAdjacent, dedupByKey, NoReturn]
  | cons a l =>
    rw [dedupAdjacent, dedupByKey]
    induction l generalizing a with
    | nil =>
      refine iff_of_true (List.nodup_singleton a) fun x y _ h => ?_
      exact absurd h.length_le (by simp)
    | cons b l ih =>
      rw [dedupFrom]
      split
      · next hab =>
        obtain rfl : a = b := hab
        rw [ih, noReturn_cons_self]
      · next hab =>
        have hmem : a ∈ dedupFrom id b l ↔ a ∈ b :: l := mem_dedupAdjacent (l := b :: l)
        rw [List.nodup_cons, hmem, ih, noReturn_cons_ne (a := a) (b := b) hab]
/-- `sort` and `dedup`. -/
def sortDedup (cmp : α → α → Ordering) (l : List α) : List α := dedupAdjacent (sortBy cmp l)

theorem mem_sortDedup {cmp : α → α → Ordering} {a : α} {l : List α} :
    a ∈ sortDedup cmp l ↔ a ∈ l := by
  rw [sortDedup, mem_dedupAdjacent, mem_sortBy]

section Sorted
variable {cmp : α → α → Ordering} [TransCmp cmp]

omit [DecidableEq α]

/-- Of sorted elements, one for each key stays. -/
theorem dedupFrom_nodup {κ : Type*} [DecidableEq κ] {key : α → κ}
    (hkey : ∀ a b, cmp a b = .eq ↔ key a = key b) {a : α} {l : List α}
    (h : (a :: l).Pairwise (CmpLE cmp)) : ((dedupFrom key a l).map key).Nodup := by
  induction l generalizing a with
  | nil => exact List.nodup_singleton _
  | cons b l ih =>
    obtain ⟨ha, hbl⟩ := List.pairwise_cons.mp h
    rw [dedupFrom]
    split
    · exact ih (List.pairwise_cons.mpr
        ⟨fun x hx => ha x (List.mem_cons_of_mem b hx), (List.pairwise_cons.mp hbl).2⟩)
    · rename_i hne
      refine List.nodup_cons.mpr ⟨fun hmem => ?_, ih hbl⟩
      obtain ⟨x, hx, hxa⟩ := List.mem_map.1 hmem
      -- an equal key further down would put `b` beside `a`
      have hbx : CmpLE cmp b x := by
        rcases List.mem_cons.mp ((dedupFrom_sublist key b l).subset hx) with hxb | hx
        · rw [hxb]
          exact (cmpLE_total b b).elim id id
        · exact (List.pairwise_cons.mp hbl).1 x hx
      have hxa' : CmpLE cmp x a := by
        rw [CmpLE, (hkey x a).2 hxa]
        rfl
      exact hne ((hkey a b).1 (OrientedCmp.isLE_antisymm (ha b List.mem_cons_self)
        (cmpLE_trans hbx hxa')))

theorem dedupByKey_nodup {κ : Type*} [DecidableEq κ] {key : α → κ}
    (hkey : ∀ a b, cmp a b = .eq ↔ key a = key b) {l : List α} (h : l.Pairwise (CmpLE cmp)) :
    ((dedupByKey key l).map key).Nodup := by
  cases l with
  | nil => exact List.nodup_nil
  | cons a l => exact dedupFrom_nodup hkey h

end Sorted

variable {cmp : α → α → Ordering} [TransCmp cmp] [LawfulEqCmp cmp]

omit [DecidableEq α] in
theorem cmpLE_antisymm {a b : α} (hab : CmpLE cmp a b) (hba : CmpLE cmp b a) : a = b :=
  LawfulEqCmp.eq_of_compare (OrientedCmp.isLE_antisymm hab hba)

theorem dedupAdjacent_nodup {l : List α} (h : l.Pairwise (CmpLE cmp)) :
    (dedupAdjacent l).Nodup := by
  have hkey : ∀ a b : α, cmp a b = .eq ↔ id a = id b := fun _ _ => LawfulEqCmp.compare_eq_iff_eq
  have hid : ((dedupByKey id l).map id).Nodup := dedupByKey_nodup hkey h
  rwa [List.map_id] at hid

theorem sortDedup_nodup (l : List α) : (sortDedup cmp l).Nodup :=
  dedupAdjacent_nodup (sortBy_pairwise l)

omit [LawfulEqCmp cmp] in
theorem sortDedup_pairwise (l : List α) : (sortDedup cmp l).Pairwise (CmpLE cmp) :=
  (sortBy_pairwise l).sublist (dedupAdjacent_sublist _)

theorem sortDedup_congr {l l' : List α} (h : ∀ a, a ∈ l ↔ a ∈ l') :
    sortDedup cmp l = sortDedup cmp l' := by
  have hperm : (sortDedup cmp l).Perm (sortDedup cmp l') := by
    refine (List.perm_ext_iff_of_nodup (sortDedup_nodup l) (sortDedup_nodup l')).mpr fun a => ?_
    rw [mem_sortDedup, mem_sortDedup, h]
  exact hperm.eq_of_pairwise (fun _ _ _ _ => cmpLE_antisymm) (sortDedup_pairwise l)
    (sortDedup_pairwise l')

/-- In a linear order the sorted list without repetitions ascends. -/
theorem sortDedup_ascending {α : Type*} [LinearOrder α] (l : List α) :
    (sortDedup compare l).Pairwise (· < ·) := by
  have hle : (sortDedup compare l).Pairwise fun a b : α => CmpLE compare a b := sortDedup_pairwise l
  refine (hle.and (sortDedup_nodup l)).imp fun {a b} h => ?_
  have hab : a ≤ b := compare_le_iff_le.mp (by simpa [CmpLE, Ordering.isLE_iff_ne_gt] using h.1)
  exact hab.lt_of_ne h.2

theorem sortDedup_eq_iff {l l' : List α} :
    sortDedup cmp l = sortDedup cmp l' ↔ ∀ a, a ∈ l ↔ a ∈ l' := by
  constructor
  · intro h a
    have hl : a ∈ sortDedup cmp l ↔ a ∈ l := mem_sortDedup
    rw [← hl, h, mem_sortDedup]
  · exact sortDedup_congr

end Inim.Lib
