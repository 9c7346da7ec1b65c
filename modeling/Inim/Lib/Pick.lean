import Mathlib.Data.List.Induction
import Mathlib.Data.List.Nodup
import Mathlib.Data.List.Perm.Basic

/-!
# Picking a few of a ranked list, one of a key first

A first pass over the list picks the first element of each key until `max` are picked; a second pass
fills what is left of `max` from the elements the first pass left behind, in their order. Nothing is
lost, no key is picked twice while another is not picked at all, and of two elements with one key the
earlier is picked before the later (`pick_perm`, `length_pick`, `pick_diverse`, `pick_ranked`).
-/

namespace Inim.Lib

section Pick

variable {α κ : Type*} (key : α → κ) (max : Nat)

structure Picked (α κ : Type*) where
  picked : List α
  left : List α
  used : List κ

/-! ## The first pass -/

/-- What the first pass has done with the elements read so far. -/
structure FirstPass (l : List α) (s : Picked α κ) : Prop where
  perm : (s.picked ++ s.left).Perm l
  left_sublist : s.left.Sublist l
  mem_used : ∀ k, k ∈ s.used ↔ k ∈ s.picked.map key
  nodup : (s.picked.map key).Nodup
  length_le : s.picked.length ≤ max
  /-- While there is room, every key is picked. -/
  picked_of_room : s.picked.length < max → ∀ a ∈ l, key a ∈ s.picked.map key
  ranked : ∀ a ∈ s.picked, ∀ b ∈ s.left, key a = key b → [a, b].Sublist l

namespace FirstPass
variable {key max} {l : List α} {s : Picked α κ}

theorem nil : FirstPass key max [] (⟨[], [], []⟩ : Picked α κ) where
  perm := List.Perm.refl _
  left_sublist := List.Sublist.refl _
  mem_used := fun k => by simp
  nodup := List.nodup_nil
  length_le := Nat.zero_le _
  picked_of_room := fun _ a ha => by cases ha
  ranked := fun a ha => by cases ha

theorem mem_of_picked (h : FirstPass key max l s) {a : α} (ha : a ∈ s.picked) : a ∈ l :=
  h.perm.subset (List.mem_append_left _ ha)

/-- An element is left behind: there is no room, or its key is picked. -/
theorem leave (h : FirstPass key max l s) {a : α}
    (ha : max ≤ s.picked.length ∨ key a ∈ s.used) :
    FirstPass key max (l ++ [a]) { s with left := s.left ++ [a] } where
  perm := by
    rw [← List.append_assoc]
    exact h.perm.append_right [a]
  left_sublist := h.left_sublist.append_right [a]
  mem_used := h.mem_used
  nodup := h.nodup
  length_le := h.length_le
  picked_of_room := by
    intro hroom b hb
    rcases List.mem_append.1 hb with hb | hb
    · exact h.picked_of_room hroom b hb
    · rw [List.mem_singleton.1 hb]
      exact (h.mem_used _).1 (ha.resolve_left (Nat.not_le.2 hroom))
  ranked := by
    intro x hx b hb hkey
    rcases List.mem_append.1 hb with hb | hb
    · exact (h.ranked x hx b hb hkey).trans (List.sublist_append_left l [a])
    · rw [List.mem_singleton.1 hb]
      exact (List.singleton_sublist.2 (h.mem_of_picked hx)).append (List.Sublist.refl [a])

/-- An element is picked: nothing with its key was left behind, since there was room all the time. -/
theorem take (h : FirstPass key max l s) {a : α} (hroom : s.picked.length < max)
    (ha : key a ∉ s.used) :
    FirstPass key max (l ++ [a])
      { s with picked := s.picked ++ [a], used := key a :: s.used } where
  perm := by
    have hmiddle : (s.picked ++ [a] ++ s.left).Perm (s.picked ++ s.left ++ [a]) := by
      rw [List.append_assoc, List.append_assoc]
      exact (List.perm_append_comm).append_left s.picked
    exact hmiddle.trans (h.perm.append_right [a])
  left_sublist := h.left_sublist.trans (List.sublist_append_left l [a])
  mem_used := by
    intro k
    rw [List.mem_cons, h.mem_used, List.map_append, List.mem_append, List.map_singleton,
      List.mem_singleton, or_comm]
  nodup := by
    rw [List.map_append, List.map_singleton]
    exact h.nodup.append (List.nodup_singleton _)
      (List.disjoint_singleton.2 fun hmem => ha ((h.mem_used _).2 hmem))
  length_le := by
    rw [List.length_append, List.length_singleton]
    omega
  picked_of_room := by
    intro _ b hb
    rw [List.map_append, List.mem_append]
    rcases List.mem_append.1 hb with hb | hb
    · exact Or.inl (h.picked_of_room hroom b hb)
    · rw [List.mem_singleton.1 hb]
      exact Or.inr (List.mem_singleton.2 rfl)
  ranked := by
    intro x hx b hb hkey
    rcases List.mem_append.1 hx with hx | hx
    · exact (h.ranked x hx b hb hkey).trans (List.sublist_append_left l [a])
    · rw [List.mem_singleton.1 hx] at hkey
      have hpicked := h.picked_of_room hroom b (h.left_sublist.subset hb)
      exact absurd ((h.mem_used _).2 (hkey ▸ hpicked)) ha

end FirstPass

/-! ## The two passes -/

variable [DecidableEq κ]

/-- One element of the first pass. -/
def pickStep (s : Picked α κ) (a : α) : Picked α κ :=
  if max ≤ s.picked.length then { s with left := s.left ++ [a] }
  else if key a ∈ s.used then { s with left := s.left ++ [a] }
  else { s with picked := s.picked ++ [a], used := key a :: s.used }

def firstPass (l : List α) : Picked α κ := l.foldl (pickStep key max) ⟨[], [], []⟩

/-- One element of the second pass. -/
def fillStep (s : List α × List α) (a : α) : List α × List α :=
  if s.1.length < max then (s.1 ++ [a], s.2) else (s.1, s.2 ++ [a])

def pick (l : List α) : List α × List α :=
  (firstPass key max l).left.foldl (fillStep max) ((firstPass key max l).picked, [])

theorem pickStep_spec {l : List α} {s : Picked α κ} (h : FirstPass key max l s) (a : α) :
    FirstPass key max (l ++ [a]) (pickStep key max s a) := by
  rw [pickStep]
  split
  · next hfull => exact h.leave (Or.inl hfull)
  · next hroom =>
    split
    · next hused => exact h.leave (Or.inr hused)
    · next hnew => exact h.take (Nat.not_le.1 hroom) hnew

theorem firstPass_spec (l : List α) : FirstPass key max l (firstPass key max l) := by
  induction l using List.reverseRecOn with
  | nil => exact FirstPass.nil
  | append_singleton l a ih =>
    rw [firstPass, List.foldl_concat]
    exact pickStep_spec key max ih a

theorem foldl_fillStep (picked rest l : List α) (hrest : rest = [] ∨ max ≤ picked.length) :
    l.foldl (fillStep max) (picked, rest) =
      (picked ++ l.take (max - picked.length), rest ++ l.drop (max - picked.length)) := by
  induction l generalizing picked rest with
  | nil => simp
  | cons a l ih =>
    rw [List.foldl_cons, fillStep]
    by_cases hroom : picked.length < max
    · obtain rfl : rest = [] := hrest.resolve_right (Nat.not_le.2 hroom)
      rw [if_pos hroom, ih _ _ (Or.inl rfl)]
      obtain ⟨n, hn⟩ : ∃ n, max - picked.length = n + 1 := ⟨max - picked.length - 1, by omega⟩
      have hn' : max - (picked ++ [a]).length = n := by
        rw [List.length_append, List.length_singleton]
        omega
      rw [hn, hn', List.take_succ_cons, List.drop_succ_cons, List.append_assoc]
      rfl
    · rw [if_neg hroom, ih _ _ (Or.inr (Nat.not_lt.1 hroom)), Nat.sub_eq_zero_of_le (Nat.not_lt.1 hroom)]
      simp

theorem pick_eq (l : List α) : pick key max l =
    ((firstPass key max l).picked ++
        (firstPass key max l).left.take (max - (firstPass key max l).picked.length),
      (firstPass key max l).left.drop (max - (firstPass key max l).picked.length)) := by
  rw [pick, foldl_fillStep max _ _ _ (Or.inl rfl), List.nil_append]

/-! ## What is picked -/

theorem pick_perm (l : List α) : ((pick key max l).1 ++ (pick key max l).2).Perm l := by
  rw [pick_eq, List.append_assoc, List.take_append_drop]
  exact (firstPass_spec key max l).perm

theorem length_pick (l : List α) : (pick key max l).1.length = min max l.length := by
  have h := firstPass_spec key max l
  have hlength := h.perm.length_eq
  have hle := h.length_le
  rw [List.length_append] at hlength
  rw [pick_eq, List.length_append, List.length_take]
  omega

/-- **No key is picked twice while another is not picked.** -/
theorem pick_diverse {l : List α} {a : α} (ha : a ∈ l)
    (hnot : ∀ b ∈ (pick key max l).1, key b ≠ key a) : ((pick key max l).1.map key).Nodup := by
  have h := firstPass_spec key max l
  rw [pick_eq] at hnot ⊢
  have hfull : max ≤ (firstPass key max l).picked.length := by
    by_contra hroom
    obtain ⟨b, hb, hkey⟩ := List.mem_map.1 (h.picked_of_room (Nat.not_le.1 hroom) a ha)
    exact hnot b (List.mem_append_left _ hb) hkey
  rw [Nat.sub_eq_zero_of_le hfull, List.take_zero, List.append_nil]
  exact h.nodup

/-- **What is picked stood before what is left of its key.** -/
theorem pick_ranked {l : List α} {a b : α} (ha : a ∈ (pick key max l).1) (hb : b ∈ (pick key max l).2)
    (hkey : key a = key b) : [a, b].Sublist l := by
  have h := firstPass_spec key max l
  rw [pick_eq] at ha hb
  rcases List.mem_append.1 ha with ha | ha
  · exact h.ranked a ha b (List.mem_of_mem_drop hb) hkey
  · have hpair := (List.singleton_sublist.2 ha).append (List.singleton_sublist.2 hb)
    rw [List.take_append_drop] at hpair
    exact hpair.trans h.left_sublist

end Pick

end Inim.Lib
