import Inim.Lib.SortBy
import Inim.Lib.Tables
import Inim.Lib.Tally

/-!
# What is seen first

Things listed in the order they are first seen (`firstSeen`, which is `keepFirst` with the thing as its
own key). The keys of a group table or a tally are in that order.

Where every element `a` of a list shows some of `ps`, in their order, what the list shows is the same
for all its arrangements exactly when an earlier one of `ps` that is shown at all is shown by each
element that shows a later one (`firstSeen_shown_perm_iff`).
-/

namespace Inim.Lib

section FirstSeen
variable {κ : Type*} [DecidableEq κ]

/-- `if !seen.contains(&k) { seen.push(k) }`. -/
def keepNew (seen : List κ) (k : κ) : List κ := if k ∈ seen then seen else seen ++ [k]

def firstSeen (l : List κ) : List κ := l.foldl keepNew []

theorem firstSeen_concat (l : List κ) (k : κ) :
    firstSeen (l ++ [k]) = keepNew (firstSeen l) k := by
  rw [firstSeen, List.foldl_concat, ← firstSeen]

/-- Inserting by a key is pushing what has a new key. -/
theorem insertUnique_fst {α : Type*} (key : α → κ) (a : α) (l : List α) :
    (insertUnique key a l).1 = if key a ∈ l.map key then l else l ++ [a] := by
  rw [insertUnique]
  cases h : l.findIdx? fun b => decide (key b = key a) with
  | none =>
    have hk : key a ∉ l.map key := by
      intro hk
      obtain ⟨b, hb, hba⟩ := List.mem_map.1 hk
      simpa [hba] using List.findIdx?_eq_none_iff.1 h b hb
    rw [if_neg hk]
  | some i =>
    obtain ⟨hlt, hp, -⟩ := List.findIdx?_eq_some_iff_getElem.1 h
    have hk : key l[i] = key a := by simpa using hp
    rw [if_pos (List.mem_map.2 ⟨l[i], List.getElem_mem hlt, hk⟩)]

theorem firstSeen_eq_keepFirst (l : List κ) : firstSeen l = keepFirst id l := by
  induction l using List.reverseRecOn with
  | nil => rfl
  | append_singleton l a ih =>
    rw [firstSeen_concat, keepFirst_concat, insertUnique_fst, List.map_id, ih, keepNew, id]

theorem mem_firstSeen {l : List κ} {k : κ} : k ∈ firstSeen l ↔ k ∈ l := by
  rw [firstSeen_eq_keepFirst, mem_keepFirst]
  constructor
  · rintro ⟨x, hx, rfl⟩
    rwa [show firstLike id l x = x from firstLike_key id l x]
  · exact fun hk => ⟨k, hk, firstLike_key id l k⟩

theorem firstSeen_nodup (l : List κ) : (firstSeen l).Nodup := by
  have hnodup := keepFirst_nodup id l
  rwa [List.map_id, ← firstSeen_eq_keepFirst] at hnodup

/-- More of a block without repeats: what of it is new is appended. -/
theorem foldl_keepNew (seen : List κ) {l : List κ} (hl : l.Nodup) :
    l.foldl keepNew seen = seen ++ l.filter (· ∉ seen) := by
  induction l generalizing seen with
  | nil => simp
  | cons a l ih =>
    obtain ⟨ha, hl⟩ := List.nodup_cons.1 hl
    rw [List.foldl_cons, ih _ hl, keepNew]
    by_cases hmem : a ∈ seen
    · simp [hmem]
    · have hfilter : l.filter (· ∉ seen ++ [a]) = l.filter (· ∉ seen) := by
        refine List.filter_congr fun b hb => ?_
        have hba : b ≠ a := fun h => ha (h ▸ hb)
        simp [hba]
      rw [if_neg hmem, hfilter, List.filter_cons_of_pos (by simpa using hmem), List.append_assoc]
      rfl

theorem firstSeen_perm {l l' : List κ} (h : l.Perm l') : (firstSeen l).Perm (firstSeen l') :=
  (List.perm_ext_iff_of_nodup (firstSeen_nodup l) (firstSeen_nodup l')).2 fun k => by
    rw [mem_firstSeen, mem_firstSeen, h.mem_iff]

/-- What a block without repeats shows comes first, in its order. -/
theorem exists_firstSeen_append {block : List κ} (hblock : block.Nodup) (l : List κ) :
    ∃ rest, firstSeen (block ++ l) = block ++ rest := by
  induction l using List.reverseRecOn with
  | nil =>
    refine ⟨[], ?_⟩
    rw [List.append_nil, firstSeen, foldl_keepNew [] hblock]
    simp
  | append_singleton l a ih =>
    obtain ⟨rest, hrest⟩ := ih
    rw [← List.append_assoc, firstSeen_concat, hrest, keepNew]
    split
    · exact ⟨rest, rfl⟩
    · exact ⟨rest ++ [a], List.append_assoc _ _ _⟩

omit [DecidableEq κ] in
theorem not_before_both {l : List κ} (hl : l.Nodup) {p q : κ} (h : [p, q].Sublist l)
    (h' : [q, p].Sublist l) : False := by
  induction l with
  | nil => cases h
  | cons a l ih =>
    obtain ⟨ha, hl⟩ := List.nodup_cons.1 hl
    rcases List.sublist_cons_iff.1 h with h | ⟨r, hr, hq⟩
    · rcases List.sublist_cons_iff.1 h' with h' | ⟨r, hr, -⟩
      · exact ih hl h h'
      · exact ha ((List.cons.inj hr).1 ▸ h.subset (by simp))
    · obtain ⟨rfl, rfl⟩ := List.cons.inj hr
      rcases List.sublist_cons_iff.1 h' with h' | ⟨r, hr, hp⟩
      · exact ha (h'.subset (by simp))
      · obtain ⟨rfl, rfl⟩ := List.cons.inj hr
        exact ha (hp.subset (by simp))

end FirstSeen

section Tables
variable {α κ : Type*} [DecidableEq κ]

theorem map_fst_groupOn (key : α → κ) (l : List α) :
    (groupOn key l).map Prod.fst = firstSeen (l.map key) := by
  induction l using List.reverseRecOn with
  | nil => rfl
  | append_singleton l a ih =>
    rw [groupOn_concat, map_fst_addTo, ih, List.map_append, List.map_singleton, firstSeen_concat, keepNew]

/-- A group table is its keys and what has them. -/
theorem groupOn_eq_map (key : α → κ) (l : List α) :
    groupOn key l = (firstSeen (l.map key)).map fun k => (k, l.filter fun a => key a = k) := by
  rw [← map_fst_groupOn, List.map_map]
  refine (List.map_id _).symm.trans (List.map_congr_left fun e he => ?_)
  obtain ⟨k, as⟩ := e
  obtain ⟨-, rfl⟩ := (mem_groupOn key).1 he
  rfl

theorem map_fst_tally (l : List κ) : (tally l).map Prod.fst = firstSeen l := by
  have hkeys := map_fst_groupOn id l
  rw [List.map_id] at hkeys
  rw [tally_eq_groupOn, List.map_map, ← hkeys]
  rfl

theorem tally_eq_map (l : List κ) : tally l = (firstSeen l).map fun k => (k, l.count k) := by
  rw [← map_fst_tally, List.map_map]
  refine (List.map_id _).symm.trans (List.map_congr_left fun e he => ?_)
  obtain ⟨k, n⟩ := e
  obtain ⟨-, rfl⟩ := mem_tally.1 he
  rfl

end Tables

/-! ## What the elements of a list show -/

section Shown
variable {α κ : Type*} (ps : List κ) (h : α → κ → Bool)

/-- Each element shows some of `ps`, in their order. -/
def shown (l : List α) : List κ := l.flatMap fun a => ps.filter (h a)

/-- Of two of `ps` that are shown, the earlier is shown wherever the later is. -/
def Nested (l : List α) : Prop :=
  ∀ p q, [p, q].Sublist ps → (∃ a ∈ l, h a p = true) → ∀ a ∈ l, h a q = true → h a p = true

variable {ps h}

theorem mem_shown {l : List α} {p : κ} : p ∈ shown ps h l ↔ p ∈ ps ∧ ∃ a ∈ l, h a p = true := by
  simp only [shown, List.mem_flatMap, List.mem_filter]
  constructor
  · rintro ⟨a, ha, hp, hap⟩
    exact ⟨hp, a, ha, hap⟩
  · rintro ⟨hp, a, ha, hap⟩
    exact ⟨a, ha, hp, hap⟩

/-- Where what the second filter adds comes after what the first keeps, the two are appended. -/
theorem filter_append_filter {p q : κ → Bool} {l : List κ}
    (hafter : ∀ x y, [x, y].Sublist l → p y = true → q x = true → p x = true) :
    l.filter p ++ l.filter (fun x => q x && !p x) = l.filter fun x => p x || q x := by
  induction l with
  | nil => rfl
  | cons x l ih =>
    have hrest := ih fun a b hab => hafter a b (hab.cons x)
    by_cases hp : p x = true
    · simp [hp, hrest]
    · by_cases hq : q x = true
      · have hnil : l.filter p = [] := by
          refine List.filter_eq_nil_iff.2 fun y hy hpy => hp ?_
          exact hafter x y ((List.singleton_sublist.2 hy).cons_cons x) hpy hq
        rw [hnil, List.nil_append] at hrest
        simp [hp, hq, hnil, hrest]
      · simp [hp, hq, hrest]

/-- The list with one of its elements first. -/
theorem exists_perm_cons {l : List α} {a : α} (ha : a ∈ l) : ∃ l', l.Perm (a :: l') := by
  obtain ⟨l₁, l₂, rfl⟩ := List.append_of_mem ha
  exact ⟨l₁ ++ l₂, List.perm_middle⟩

variable [DecidableEq κ]

/-- What is shown under `Nested`: those of `ps` that are shown at all, in their order. -/
theorem firstSeen_shown {l : List α} (hps : ps.Nodup) (hn : Nested ps h l) :
    firstSeen (shown ps h l) = ps.filter fun p => l.any (h · p) := by
  induction l using List.reverseRecOn with
  | nil => simp [shown, firstSeen]
  | append_singleton l a ih =>
    have hl : Nested ps h l := by
      rintro p q hpq ⟨b, hb, hbp⟩ c hc hcq
      exact hn p q hpq ⟨b, List.mem_append_left _ hb, hbp⟩ c (List.mem_append_left _ hc) hcq
    have hshown : shown ps h (l ++ [a]) = shown ps h l ++ ps.filter (h a) := by
      simp [shown]
    have hnew : (ps.filter (h a)).filter (· ∉ ps.filter fun p => l.any (h · p)) =
        ps.filter fun p => h a p && !l.any (h · p) := by
      rw [List.filter_filter]
      refine List.filter_congr fun p hp => ?_
      by_cases hany : l.any (h · p) = true
      · have hmem : p ∈ ps.filter fun p => l.any (h · p) := List.mem_filter.2 ⟨hp, hany⟩
        simp only [hmem, hany, not_true, decide_false, Bool.false_and, Bool.not_true, Bool.and_false]
      · have hmem : p ∉ ps.filter fun p => l.any (h · p) := fun h' => hany (List.mem_filter.1 h').2
        simp only [hmem, Bool.of_not_eq_true hany, not_false_eq_true, decide_true, Bool.true_and,
          Bool.not_false, Bool.and_true]
    rw [hshown, firstSeen, List.foldl_append, ← firstSeen, ih hl, foldl_keepNew _ (hps.filter _), hnew,
      filter_append_filter]
    · refine List.filter_congr fun p _ => ?_
      rw [List.any_append, List.any_cons, List.any_nil, Bool.or_false]
    · intro p q hpq hq hp
      obtain ⟨b, hb, hbq⟩ := List.any_eq_true.1 hq
      refine List.any_eq_true.2 ⟨b, hb, ?_⟩
      exact hn p q hpq ⟨a, by simp, hp⟩ b (List.mem_append_left _ hb) hbq

/-- The element at the head shows `p`, and `q` if at all then after it. -/
theorem before_of_head (hps : ps.Nodup) {l : List α} {a : α} {p q : κ} (hp : p ∈ ps)
    (hap : h a p = true) (hq : q ∈ shown ps h (a :: l))
    (hafter : h a q = true → [p, q].Sublist ps) :
    [p, q].Sublist (firstSeen (shown ps h (a :: l))) := by
  have hcons : shown ps h (a :: l) = ps.filter (h a) ++ shown ps h l := rfl
  obtain ⟨rest, hrest⟩ := exists_firstSeen_append (hps.filter (h a)) (shown ps h l)
  have hqmem := mem_firstSeen.2 hq
  rw [hcons, hrest] at hqmem ⊢
  rcases List.mem_append.1 hqmem with hqa | hqr
  · have hsub := (hafter (List.mem_filter.1 hqa).2).filter (h a)
    rw [List.filter_cons_of_pos hap, List.filter_cons_of_pos (List.mem_filter.1 hqa).2] at hsub
    exact hsub.trans (List.sublist_append_left _ _)
  · have hpa : [p].Sublist (ps.filter (h a)) := List.singleton_sublist.2 (List.mem_filter.2 ⟨hp, hap⟩)
    exact hpa.append (List.singleton_sublist.2 hqr)

/-- **What a list shows is the same for all its arrangements exactly when it is nested.** -/
theorem firstSeen_shown_perm_iff {l : List α} (hps : ps.Nodup) :
    (∀ l', l.Perm l' → firstSeen (shown ps h l') = firstSeen (shown ps h l)) ↔ Nested ps h l := by
  constructor
  · rintro hsame p q hpq ⟨t, ht, htp⟩ s hs hsq
    by_contra hsp
    have hp : p ∈ ps := hpq.subset (by simp)
    have hq : q ∈ ps := hpq.subset (by simp)
    obtain ⟨lt, hlt⟩ := exists_perm_cons ht
    obtain ⟨ls, hls⟩ := exists_perm_cons hs
    have hbefore : [p, q].Sublist (firstSeen (shown ps h l)) := by
      rw [← hsame _ hlt]
      exact before_of_head hps hp htp (mem_shown.2 ⟨hq, s, hlt.subset hs, hsq⟩) (fun _ => hpq)
    have hafter : [q, p].Sublist (firstSeen (shown ps h l)) := by
      rw [← hsame _ hls]
      exact before_of_head hps hq hsq (mem_shown.2 ⟨hp, t, hls.subset ht, htp⟩)
        (fun hap => absurd hap hsp)
    exact not_before_both (firstSeen_nodup _) hbefore hafter
  · intro hn l' hl
    have hn' : Nested ps h l' := by
      rintro p q hpq ⟨a, ha, hap⟩ b hb hbq
      exact hn p q hpq ⟨a, hl.mem_iff.2 ha, hap⟩ b (hl.mem_iff.2 hb) hbq
    rw [firstSeen_shown hps hn, firstSeen_shown hps hn']
    refine List.filter_congr fun p _ => ?_
    rw [Bool.eq_iff_iff, List.any_eq_true, List.any_eq_true]
    simp only [hl.mem_iff]

end Shown

/-! ## The first element of each key -/

theorem mem_keepFirst_iff_find? {α κ : Type*} [DecidableEq κ] {key : α → κ} {l : List α} {a : α} :
    a ∈ keepFirst key l ↔ l.find? (key · = key a) = some a := by
  rw [mem_keepFirst]
  constructor
  · rintro ⟨x, hx, rfl⟩
    obtain ⟨b, hb⟩ : ∃ b, l.find? (key · = key x) = some b :=
      Option.isSome_iff_exists.1 (List.find?_isSome.2 ⟨x, hx, by simp⟩)
    rw [firstLike_key key, firstLike, hb]
    rfl
  · intro h
    refine ⟨a, List.mem_of_find?_eq_some h, ?_⟩
    rw [firstLike, h]
    rfl

/-! ## Sublists and arrangements -/

/-- A sublist has the whole sum exactly when what it leaves out adds nothing. -/
theorem sum_map_sublist_iff {α : Type*} (n : α → Nat) {l l' : List α} (hsub : l'.Sublist l)
    (hl : l.Nodup) : (l'.map n).sum = (l.map n).sum ↔ ∀ a ∈ l, a ∉ l' → n a = 0 := by
  induction hsub with
  | slnil => simp
  | @cons l' l a hsub ih =>
    obtain ⟨ha, hl⟩ := List.nodup_cons.1 hl
    have hle : (l'.map n).sum ≤ (l.map n).sum := (hsub.map n).sum_le_sum fun _ _ => Nat.zero_le _
    have ha' : a ∉ l' := fun h => ha (hsub.subset h)
    rw [List.map_cons, List.sum_cons, List.forall_mem_cons, ← ih hl]
    constructor
    · intro h
      refine ⟨fun _ => ?_, ?_⟩ <;> omega
    · rintro ⟨h, h'⟩
      rw [h', h ha', Nat.zero_add]
  | @cons_cons l' l a hsub ih =>
    obtain ⟨ha, hl⟩ := List.nodup_cons.1 hl
    rw [List.map_cons, List.map_cons, List.sum_cons, List.sum_cons, Nat.add_left_cancel_iff, ih hl,
      List.forall_mem_cons]
    constructor
    · intro h
      refine ⟨fun hn => absurd List.mem_cons_self hn, fun b hb hn => ?_⟩
      exact h b hb fun hb' => hn (List.mem_cons_of_mem a hb')
    · rintro ⟨-, h⟩ b hb hn
      refine h b hb fun hb' => ?_
      rcases List.mem_cons.1 hb' with rfl | hb'
      · exact ha hb
      · exact hn hb'

/-- What a filter keeps can be arranged in any way by arranging the list. -/
theorem exists_perm_filter {α : Type*} (p : α → Bool) {l m : List α} (h : (l.filter p).Perm m) :
    ∃ l', l.Perm l' ∧ l'.filter p = m := by
  refine ⟨m ++ l.filter (fun a => !p a), ?_, ?_⟩
  · exact (List.filter_append_perm p l).symm.trans (h.append_right _)
  · have hm : m.filter p = m :=
      List.filter_eq_self.2 fun a ha => (List.mem_filter.1 (h.mem_iff.2 ha)).2
    rw [List.filter_append, hm, List.filter_filter]
    simp

open Std in
/-- The first of the sorted list that passes is the least that passes. -/
theorem find?_sortBy_iff {α : Type*} {cmp : α → α → Ordering} [TransCmp cmp] {p : α → Bool}
    {l : List α} {a : α} (hanti : ∀ a ∈ l, ∀ b ∈ l, cmp a b = .eq → a = b) :
    (sortBy cmp l).find? p = some a ↔ a ∈ l ∧ p a = true ∧ ∀ b ∈ l, p b = true → CmpLE cmp a b := by
  have hleast : ∀ {a}, (sortBy cmp l).find? p = some a →
      a ∈ l ∧ p a = true ∧ ∀ b ∈ l, p b = true → CmpLE cmp a b := by
    intro a h
    have hhead : ((sortBy cmp l).filter p).head? = some a := by rw [List.head?_filter, h]
    rw [sortBy_filter] at hhead
    obtain ⟨rest, hrest⟩ := List.head?_eq_some_iff.1 hhead
    obtain ⟨hmem, hle⟩ := sortBy_head hrest
    obtain ⟨ha, hp⟩ := List.mem_filter.1 hmem
    exact ⟨ha, hp, fun b hb hpb => hle b (List.mem_filter.2 ⟨hb, hpb⟩)⟩
  constructor
  · exact hleast
  · rintro ⟨ha, hp, hle⟩
    obtain ⟨b, hb⟩ : ∃ b, (sortBy cmp l).find? p = some b :=
      Option.isSome_iff_exists.1 (List.find?_isSome.2 ⟨a, mem_sortBy.2 ha, hp⟩)
    obtain ⟨hbl, hpb, hble⟩ := hleast hb
    rw [hb, hanti b hbl a ha (OrientedCmp.isLE_antisymm (hble a ha hp) (hle b hbl hpb))]

end Inim.Lib
