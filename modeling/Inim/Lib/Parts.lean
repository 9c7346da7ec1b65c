import Inim.Lib.FirstSeen

/-!
# Counting by parts

A table filled by updates of its entries (`foldl_updateAt`), and three ways in which what it counts is
not what there is: a total over parts counts what is in two parts twice (`sum_card_parts_iff`), a length
counts repeats (`length_eq_card_iff`), and a number taken from the first element of a key depends on
which is first (`sum_keepFirst_perm_iff`).
-/

namespace Inim.Lib

/-! ## A table of entries -/

section Table
variable {α κ : Type*} [DecidableEq κ]

/-- `f(map.entry(k).or_insert_with(|| init))`. -/
def updateAt (k : κ) (init : α) (f : α → α) : List (κ × α) → List (κ × α)
  | [] => [(k, f init)]
  | (k', a) :: m => if k' = k then (k', f a) :: m else (k', a) :: updateAt k init f m

/-- The table after updates, each of one entry. -/
def updateAll (init : κ → α) (us : List (κ × (α → α))) (m : List (κ × α)) : List (κ × α) :=
  us.foldl (fun m u => updateAt u.1 (init u.1) u.2 m) m

/-- What the updates make of a first value. -/
def applyAll (us : List (κ × (α → α))) (a : α) : α := us.foldl (fun a u => u.2 a) a

theorem updateAt_map (init : κ → α) (u : κ × (α → α)) (m : List (κ × List (κ × (α → α)))) :
    updateAt u.1 (init u.1) u.2 (m.map fun g => (g.1, applyAll g.2 (init g.1))) =
      (addTo u.1 u m).map fun g => (g.1, applyAll g.2 (init g.1)) := by
  induction m with
  | nil => rfl
  | cons g m ih =>
    obtain ⟨k, us⟩ := g
    rw [List.map_cons, updateAt, addTo]
    split
    · next hk =>
      rw [List.map_cons, applyAll, applyAll, List.foldl_concat]
    · rw [List.map_cons, ih]

/-- **Each entry of the table is what the updates of its key make of its first value.** -/
theorem updateAll_nil (init : κ → α) (us : List (κ × (α → α))) :
    updateAll init us [] = (firstSeen (us.map Prod.fst)).map fun k =>
      (k, applyAll (us.filter fun u => u.1 = k) (init k)) := by
  have hgroups : updateAll init us [] =
      (groupOn Prod.fst us).map fun g => (g.1, applyAll g.2 (init g.1)) := by
    induction us using List.reverseRecOn with
    | nil => rfl
    | append_singleton us u ih =>
      rw [groupOn_concat, ← updateAt_map, ← ih, updateAll, List.foldl_concat]
      rfl
  rw [hgroups, groupOn_eq_map, List.map_map]
  rfl

end Table

/-! ## Totals over parts -/

section Parts
variable {α β ρ : Type*} [DecidableEq β] [DecidableEq ρ]

/-- A total of the sizes of parts is the size of the whole exactly when nothing is in two parts. -/
theorem sum_card_parts_iff (key : α → ρ) (f : α → List β) (l : List α) {rs : List ρ} (hrs : rs.Nodup)
    (hkey : ∀ a ∈ l, key a ∈ rs) :
    (rs.map fun r => ((l.filter (key · = r)).flatMap f).toFinset.card).sum = (l.flatMap f).toFinset.card ↔
      ∀ a ∈ l, ∀ b ∈ l, ∀ x ∈ f a, x ∈ f b → key a = key b := by
  -- the pairs of a part and what is in it
  let pairs : Finset (ρ × β) := (l.flatMap fun a => (f a).map fun x => (key a, x)).toFinset
  have hmem : ∀ {r x}, (r, x) ∈ pairs ↔ ∃ a ∈ l, key a = r ∧ x ∈ f a := by
    intro r x
    simp only [pairs, List.mem_toFinset, List.mem_flatMap, List.mem_map, Prod.mk.injEq]
    constructor
    · rintro ⟨a, ha, y, hy, rfl, rfl⟩
      exact ⟨a, ha, rfl, hy⟩
    · rintro ⟨a, ha, rfl, hx⟩
      exact ⟨a, ha, x, hx, rfl, rfl⟩
  have hparts : pairs.card = (rs.map fun r => ((l.filter (key · = r)).flatMap f).toFinset.card).sum := by
    rw [← List.sum_toFinset _ hrs]
    rw [Finset.card_eq_sum_card_fiberwise (f := Prod.fst) (t := rs.toFinset)]
    · refine Finset.sum_congr rfl fun r _ => ?_
      refine Finset.card_bij (fun p _ => p.2) ?_ ?_ ?_
      · rintro ⟨r', x⟩ hp
        obtain ⟨hpairs, rfl⟩ := Finset.mem_filter.1 hp
        obtain ⟨a, ha, hr, hx⟩ := hmem.1 hpairs
        exact List.mem_toFinset.2 (List.mem_flatMap.2 ⟨a, List.mem_filter.2 ⟨ha, decide_eq_true hr⟩, hx⟩)
      · rintro ⟨r₁, x₁⟩ h₁ ⟨r₂, x₂⟩ h₂ hx
        obtain rfl := (Finset.mem_filter.1 h₁).2
        have hr := (Finset.mem_filter.1 h₂).2
        exact Prod.ext hr.symm hx
      · intro x hx
        obtain ⟨a, ha, hxa⟩ := List.mem_flatMap.1 (List.mem_toFinset.1 hx)
        obtain ⟨ha, hr⟩ := List.mem_filter.1 ha
        exact ⟨(r, x), Finset.mem_filter.2 ⟨hmem.2 ⟨a, ha, of_decide_eq_true hr, hxa⟩, rfl⟩, rfl⟩
    · rintro ⟨r, x⟩ hp
      obtain ⟨a, ha, rfl, -⟩ := hmem.1 hp
      exact Finset.mem_coe.2 (List.mem_toFinset.2 (hkey a ha))
  have himage : (l.flatMap f).toFinset = pairs.image Prod.snd := by
    ext x
    simp only [List.mem_toFinset, List.mem_flatMap, Finset.mem_image, Prod.exists, exists_eq_right]
    constructor
    · rintro ⟨a, ha, hx⟩
      exact ⟨key a, hmem.2 ⟨a, ha, rfl, hx⟩⟩
    · rintro ⟨r, hp⟩
      obtain ⟨a, ha, -, hx⟩ := hmem.1 hp
      exact ⟨a, ha, hx⟩
  rw [← hparts, himage, eq_comm, Finset.card_image_iff]
  constructor
  · intro hinj a ha b hb x hxa hxb
    have heq := hinj (Finset.mem_coe.2 (hmem.2 ⟨a, ha, rfl, hxa⟩))
      (Finset.mem_coe.2 (hmem.2 ⟨b, hb, rfl, hxb⟩)) rfl
    exact congrArg Prod.fst heq
  · rintro hone ⟨r₁, x₁⟩ h₁ ⟨r₂, x₂⟩ h₂ hx
    obtain rfl : x₁ = x₂ := hx
    obtain ⟨a, ha, rfl, hxa⟩ := hmem.1 (Finset.mem_coe.1 h₁)
    obtain ⟨b, hb, rfl, hxb⟩ := hmem.1 (Finset.mem_coe.1 h₂)
    rw [hone a ha b hb x₁ hxa hxb]

end Parts

section Lengths
variable {α : Type*} [DecidableEq α]

/-- The length of a list is the number of its elements exactly when it repeats none. -/
theorem length_eq_card_iff {l : List α} : l.length = l.toFinset.card ↔ l.Nodup := by
  rw [List.card_toFinset, eq_comm, ← List.dedup_eq_self]
  constructor
  · exact fun h => (List.dedup_sublist l).eq_of_length h
  · exact fun h => congrArg List.length h

theorem length_firstSeen (l : List α) : (firstSeen l).length = l.toFinset.card := by
  rw [length_eq_card_iff.2 (firstSeen_nodup l)]
  congr 1
  ext a
  rw [List.mem_toFinset, List.mem_toFinset, mem_firstSeen]

theorem toFinset_map {β : Type*} [DecidableEq β] (f : α → β) (l : List α) :
    (l.map f).toFinset = l.toFinset.image f := by
  ext b
  rw [List.mem_toFinset, Finset.mem_image, List.mem_map]
  simp only [List.mem_toFinset]

end Lengths

/-! ## Numbers of first elements -/

section FirstElements
variable {α κ : Type*} [DecidableEq κ] (key : α → κ) (n : α → Nat)

theorem keepFirst_cons (a : α) (l : List α) :
    keepFirst key (a :: l) = a :: keepFirst key (l.filter fun b => key b ≠ key a) := by
  induction l using List.reverseRecOn with
  | nil => rfl
  | append_singleton l x ih =>
    rw [← List.cons_append, keepFirst_concat, insertUnique_fst, ih, List.filter_append]
    by_cases hx : key x = key a
    · simp [hx]
    · have hsingle : [x].filter (fun b => decide (key b ≠ key a)) = [x] := by simp [hx]
      rw [hsingle, keepFirst_concat, insertUnique_fst]
      simp only [List.map_cons, List.mem_cons, or_iff_right hx]
      split <;> rfl

/-- A total over the first elements does not depend on which are first exactly when the elements of a
key agree. -/
theorem sum_keepFirst_perm_iff {l : List α} :
    (∀ l', l.Perm l' → ((keepFirst key l').map n).sum = ((keepFirst key l).map n).sum) ↔
      ∀ a ∈ l, ∀ b ∈ l, key a = key b → n a = n b := by
  constructor
  · intro hsame a ha b hb hkey
    by_cases hab : a = b
    · rw [hab]
    obtain ⟨l₁, h₁⟩ := exists_perm_cons ha
    have hb₁ : b ∈ l₁ := (List.mem_cons.1 (h₁.subset hb)).resolve_left (Ne.symm hab)
    obtain ⟨l₂, h₂⟩ := exists_perm_cons hb₁
    have h : l.Perm (a :: b :: l₂) := h₁.trans (h₂.cons a)
    have hswap := hsame _ (h.trans (List.Perm.swap b a l₂))
    rw [← hsame _ h, keepFirst_cons, keepFirst_cons, List.filter_cons_of_neg (by simp [hkey]),
      List.filter_cons_of_neg (by simp [hkey]), hkey] at hswap
    simp only [List.map_cons, List.sum_cons] at hswap
    omega
  · intro hagree l' h
    have hsum : ∀ l' : List α, l'.Perm l → ((keepFirst key l').map n).sum =
        ((firstSeen (l'.map key)).map fun k => ((l.find? (key · = k)).map n).getD 0).sum := by
      intro l' h
      rw [firstSeen_eq_keepFirst, keepFirst_map, List.map_map]
      refine congrArg List.sum (List.map_congr_left fun a ha => ?_)
      have hal : a ∈ l := h.subset ((keepFirst_sublist key l').subset ha)
      obtain ⟨b, hb⟩ : ∃ b, l.find? (key · = key a) = some b :=
        Option.isSome_iff_exists.1 (List.find?_isSome.2 ⟨a, hal, by simp⟩)
      have hkey : key b = key a := by simpa using List.find?_some hb
      rw [Function.comp_apply, hb, hagree a hal b (List.mem_of_find?_eq_some hb) hkey.symm]
      rfl
    rw [hsum l' h.symm, hsum l (List.Perm.refl l)]
    exact ((firstSeen_perm (h.symm.map key)).map _).sum_eq

end FirstElements

end Inim.Lib
