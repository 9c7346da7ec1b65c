import Inim.Lib.Bytes
/-!
# Windows of a text

A loop slides a window of `w` bytes over a text, one byte at a time, and stops at the first window
that is looked for (`firstWindow`). It slices the text at every byte on its way, so it comes to an end
only if no character is in its way: what is looked for is ASCII, hence a window that is found has
nothing but ASCII before it (`firstWindow_eq_some`), and a loop that finds nothing leaves room only for
characters that neither end of the window passes (`firstWindow_eq_none`).
-/

namespace Inim.Lib

open String (utf8Len)

/-! ## A loop that may fail -/

section Loop
variable {β : Type*} {f : Nat → Option (Option β)} {n : Nat}

theorem findSomeM?_range'_eq_none {s : Nat} :
    (List.range' s n).findSomeM? f = some none ↔ ∀ i < n, f (s + i) = some none := by
  induction n generalizing s with
  | zero => simp
  | succ n ih =>
    rw [List.range'_succ, List.findSomeM?_cons]
    constructor
    · intro h i hi
      obtain ⟨r, hr, hrest⟩ := Option.bind_eq_some_iff.1 h
      cases r with
      | some b => exact absurd hrest (by simp)
      | none =>
        cases i with
        | zero => exact hr
        | succ i =>
          have := ih.1 hrest i (by omega)
          rwa [Nat.add_assoc, Nat.add_comm 1] at this
    · intro h
      have h0 : f s = some none := h 0 (by omega)
      refine Option.bind_eq_some_iff.2 ⟨none, h0, ih.2 fun i hi => ?_⟩
      rw [Nat.add_assoc, Nat.add_comm 1]
      exact h (i + 1) (by omega)

theorem findSomeM?_range'_eq_some {s : Nat} {b : β} :
    (List.range' s n).findSomeM? f = some (some b) ↔
      ∃ i < n, f (s + i) = some (some b) ∧ ∀ j < i, f (s + j) = some none := by
  induction n generalizing s with
  | zero => simp
  | succ n ih =>
    rw [List.range'_succ, List.findSomeM?_cons]
    constructor
    · intro h
      obtain ⟨r, hr, hrest⟩ := Option.bind_eq_some_iff.1 h
      cases r with
      | some b' =>
        obtain rfl : b' = b := by simpa using hrest
        exact ⟨0, by omega, hr, by omega⟩
      | none =>
        obtain ⟨i, hi, hb, hbefore⟩ := ih.1 hrest
        refine ⟨i + 1, by omega, by rwa [Nat.add_assoc, Nat.add_comm 1] at hb, fun j hj => ?_⟩
        cases j with
        | zero => exact hr
        | succ j =>
          have := hbefore j (by omega)
          rwa [Nat.add_assoc, Nat.add_comm 1] at this
    · rintro ⟨i, hi, hb, hbefore⟩
      cases i with
      | zero => exact Option.bind_eq_some_iff.2 ⟨some b, hb, rfl⟩
      | succ i =>
        have h0 : f s = some none := hbefore 0 (by omega)
        refine Option.bind_eq_some_iff.2 ⟨none, h0, ih.2 ⟨i, by omega, ?_, fun j hj => ?_⟩⟩
        · rw [Nat.add_assoc, Nat.add_comm 1]
          exact hb
        · rw [Nat.add_assoc, Nat.add_comm 1]
          exact hbefore (j + 1) (by omega)

end Loop

/-! ## Windows -/

/-- The text has `m` after `p`: `w` bytes that are looked for. -/
def HasWindow (w : Nat) (P : List Char → Bool) (text p m : List Char) : Prop :=
  p ++ m <+: text ∧ utf8Len m = w ∧ P m = true

/-- No window begins before this one. -/
def FirstWindow (w : Nat) (P : List Char → Bool) (text p m : List Char) : Prop :=
  HasWindow w P text p m ∧ ∀ p' m', HasWindow w P text p' m' → utf8Len p ≤ utf8Len p'

/-- What the window at byte `i` holds, if that is looked for: `none` where the slice panics. -/
def windowAt (w : Nat) (P : List Char → Bool) (text : List Char) (i : Nat) :
    Option (Option (List Char)) :=
  (slice text i (i + w)).map fun m => if P m then some m else none

/-- `while i + w <= text.len()`, up to the first window that is looked for. -/
def firstWindow (w : Nat) (P : List Char → Bool) (text : List Char) : Option (Option (List Char)) :=
  (List.range' 0 (utf8Len text + 1 - w)).findSomeM? (windowAt w P text)

section Windows
variable {w : Nat} {P : List Char → Bool} {text p m : List Char} {i : Nat}

theorem windowAt_eq_some :
    windowAt w P text i = some (some m) ↔ ∃ p, HasWindow w P text p m ∧ utf8Len p = i := by
  unfold windowAt HasWindow
  constructor
  · intro h
    obtain ⟨m', hm, hP⟩ := Option.map_eq_some_iff.1 h
    obtain ⟨p, t, rfl, hp, hpm⟩ := slice_eq_some.1 hm
    split at hP
    · obtain rfl := Option.some.inj hP
      rw [String.utf8Len_append] at hpm
      exact ⟨p, ⟨⟨t, rfl⟩, by omega, by assumption⟩, hp⟩
    · cases hP
  · rintro ⟨p, ⟨⟨t, rfl⟩, rfl, hP⟩, rfl⟩
    rw [slice_eq_some.2 ⟨p, t, rfl, rfl, String.utf8Len_append _ _⟩, Option.map_some, if_pos hP]

theorem windowAt_eq_none : windowAt w P text i = some none ↔
    (IsCharBoundary text i ∧ IsCharBoundary text (i + w)) ∧
      ∀ p m, HasWindow w P text p m → utf8Len p ≠ i := by
  have hslice := @slice_isSome_iff_boundaries text i (i + w)
  constructor
  · intro h
    have hnot : ∀ p m, HasWindow w P text p m → utf8Len p ≠ i := by
      intro p m hwin hp
      have := windowAt_eq_some.2 ⟨p, hwin, hp⟩
      rw [h] at this
      cases this
    obtain ⟨m, hm, -⟩ := Option.map_eq_some_iff.1 h
    exact ⟨(hslice.1 (by rw [hm]; rfl)).2, hnot⟩
  · rintro ⟨hb, hnot⟩
    obtain ⟨m, hm⟩ := Option.isSome_iff_exists.1 (hslice.2 ⟨by omega, hb⟩)
    have hP : P m ≠ true := by
      intro hP
      obtain ⟨p, t, rfl, hp, hpm⟩ := slice_eq_some.1 hm
      rw [String.utf8Len_append] at hpm
      exact hnot p m ⟨⟨t, rfl⟩, by omega, hP⟩ hp
    rw [windowAt, hm, Option.map_some, if_neg hP]

/-! ## The first window -/

theorem exists_firstWindow (h : HasWindow w P text p m) : ∃ p m, FirstWindow w P text p m := by
  classical
  have hex : ∃ n p m, HasWindow w P text p m ∧ utf8Len p = n := ⟨_, p, m, h, rfl⟩
  obtain ⟨p, m, hwin, hn⟩ := Nat.find_spec hex
  refine ⟨p, m, hwin, fun p' m' hwin' => ?_⟩
  rw [hn]
  exact Nat.find_min' hex ⟨p', m', hwin', rfl⟩

theorem FirstWindow.unique {p' m' : List Char} (h : FirstWindow w P text p m)
    (h' : FirstWindow w P text p' m') : p = p' ∧ m = m' := by
  have hlen : utf8Len p = utf8Len p' := Nat.le_antisymm (h.2 p' m' h'.1) (h'.2 p m h.1)
  obtain ⟨⟨⟨t, rfl⟩, hm, -⟩, -⟩ := h
  obtain ⟨⟨⟨t', ht⟩, hm', -⟩, -⟩ := h'
  rw [List.append_assoc, List.append_assoc] at ht
  obtain ⟨rfl, hrest⟩ := append_inj_of_utf8Len ht hlen.symm
  exact ⟨rfl, (append_inj_of_utf8Len hrest (hm'.trans hm.symm)).1.symm⟩

/-- Up to the end of a part that is ASCII, every offset is a boundary. -/
theorem isCharBoundary_of_ascii {t : List Char} (h : ∀ c ∈ p, c.utf8Size = 1) (hi : i ≤ utf8Len p) :
    IsCharBoundary (p ++ t) i := by
  refine isCharBoundary_iff.2 ⟨by rw [String.utf8Len_append]; omega, fun a c b hsplit => ?_⟩
  rcases List.append_eq_append_iff.1 hsplit with ⟨u, rfl, hu⟩ | ⟨u, rfl, -⟩
  · cases u with
    | nil => exact .inl (by simpa using hi)
    | cons d u =>
      obtain ⟨rfl, -⟩ := List.cons_eq_cons.1 hu
      have hc := h c (by simp)
      omega
  · exact .inl (hi.trans (by simp))

/-- Where every offset is a boundary, the text is ASCII. -/
theorem ascii_of_isCharBoundary {t : List Char} (h : ∀ i ≤ utf8Len p, IsCharBoundary (p ++ t) i) :
    ∀ c ∈ p, c.utf8Size = 1 := by
  intro c hc
  obtain ⟨a, b, rfl⟩ := List.append_of_mem hc
  have hpos := c.utf8Size_pos
  have hnext := (isCharBoundary_iff.1 (h (utf8Len a + 1) (by simp; omega))).2 a c (b ++ t) (by simp)
  omega

/-- A window is found exactly if only ASCII stands before the first one. -/
theorem firstWindow_eq_some (hP : ∀ m, P m = true → ∀ c ∈ m, c.utf8Size = 1) :
    firstWindow w P text = some (some m) ↔
      ∃ p, FirstWindow w P text p m ∧ ∀ c ∈ p, c.utf8Size = 1 := by
  unfold firstWindow FirstWindow
  rw [findSomeM?_range'_eq_some]
  simp only [Nat.zero_add]
  constructor
  · rintro ⟨i, -, hm, hbefore⟩
    obtain ⟨p, hwin, rfl⟩ := windowAt_eq_some.1 hm
    refine ⟨p, ⟨hwin, fun p' m' hwin' => ?_⟩, ?_⟩
    · by_contra hlt
      exact (windowAt_eq_none.1 (hbefore _ (by omega))).2 p' m' hwin' rfl
    · obtain ⟨⟨t, rfl⟩, -, -⟩ := hwin
      rw [List.append_assoc] at hbefore
      refine ascii_of_isCharBoundary (t := m ++ t) fun j hj => ?_
      rcases Nat.lt_or_eq_of_le hj with hj | rfl
      · exact (windowAt_eq_none.1 (hbefore j hj)).1.1
      · exact ⟨p, m ++ t, rfl, rfl⟩
  · rintro ⟨p, ⟨hwin, hfirst⟩, hascii⟩
    refine ⟨utf8Len p, ?_, windowAt_eq_some.2 ⟨p, hwin, rfl⟩, fun j hj => ?_⟩
    · obtain ⟨⟨t, rfl⟩, rfl, -⟩ := hwin
      simp only [String.utf8Len_append]
      omega
    · refine windowAt_eq_none.2 ⟨?_, fun p' m' hwin' hp' => absurd (hfirst p' m' hwin') (by omega)⟩
      obtain ⟨⟨t, rfl⟩, rfl, hm⟩ := hwin
      have hpm : ∀ c ∈ p ++ m, c.utf8Size = 1 := by
        intro c hc
        rcases List.mem_append.1 hc with hc | hc
        · exact hascii c hc
        · exact hP m hm c hc
      exact ⟨isCharBoundary_of_ascii hpm (by rw [String.utf8Len_append]; omega),
        isCharBoundary_of_ascii hpm (by rw [String.utf8Len_append]; omega)⟩

/-- The character is in the way of neither end of the window: the begin stops before it, the end
starts behind it. -/
def ClearOf (w : Nat) (a : List Char) (c : Char) (b : List Char) : Prop :=
  utf8Len (c :: b) ≤ w ∧ utf8Len (a ++ [c]) ≤ w

/-- The loop ends without a window exactly if there is none and it passes only ASCII. -/
theorem firstWindow_eq_none :
    firstWindow w P text = some none ↔ (∀ p m, ¬ HasWindow w P text p m) ∧
      ∀ a c b, a ++ c :: b = text → c.utf8Size = 1 ∨ ClearOf w a c b := by
  unfold firstWindow ClearOf
  rw [findSomeM?_range'_eq_none]
  simp only [Nat.zero_add]
  constructor
  · intro h
    refine ⟨fun p m hwin => ?_, ?_⟩
    · refine (windowAt_eq_none.1 (h (utf8Len p) ?_)).2 p m hwin rfl
      obtain ⟨⟨t, rfl⟩, rfl, -⟩ := hwin
      simp only [String.utf8Len_append]
      omega
    · rintro a c b rfl
      have hpos := c.utf8Size_pos
      simp only [String.utf8Len_append, String.utf8Len_cons, String.utf8Len_nil] at h ⊢
      by_contra hnot
      by_cases hb : c.utf8Size + utf8Len b ≤ w
      · -- the end of the window falls on the last byte of the character
        have hend := (windowAt_eq_none.1 (h (utf8Len a + c.utf8Size - 1 - w) (by omega))).1.2
        have := (isCharBoundary_iff.1 hend).2 a c b rfl
        omega
      · -- its begin falls on the second
        have hbegin := (windowAt_eq_none.1 (h (utf8Len a + 1) (by omega))).1.1
        have := (isCharBoundary_iff.1 hbegin).2 a c b rfl
        omega
  · rintro ⟨hnone, hclear⟩ i hi
    refine windowAt_eq_none.2 ⟨⟨?_, ?_⟩, fun p m hwin => absurd hwin (hnone p m)⟩
    · refine isCharBoundary_iff.2 ⟨by omega, ?_⟩
      rintro a c b rfl
      have h := hclear a c b rfl
      simp only [String.utf8Len_append, String.utf8Len_cons] at h hi
      omega
    · refine isCharBoundary_iff.2 ⟨by omega, ?_⟩
      rintro a c b rfl
      have h := hclear a c b rfl
      simp only [String.utf8Len_append, String.utf8Len_cons, String.utf8Len_nil] at h hi
      omega

end Windows

end Inim.Lib
