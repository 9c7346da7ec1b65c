import Mathlib

/-!
# Byte offsets into a text

A text is a list of characters, and an offset counts the bytes of their UTF-8 encoding. A slice between
two offsets is defined only if both stand between characters (`slice_eq_some`).
-/

namespace Inim.Lib

open String (utf8Len)

/-- The text from byte `n` on: `none` if the byte is within a character, or behind the end. -/
def dropBytes : Nat → List Char → Option (List Char)
  | 0, cs => some cs
  | _ + 1, [] => none
  | n + 1, c :: cs => if c.utf8Size ≤ n + 1 then dropBytes (n + 1 - c.utf8Size) cs else none

/-- The text up to byte `n`. -/
def takeBytes : Nat → List Char → Option (List Char)
  | 0, _ => some []
  | _ + 1, [] => none
  | n + 1, c :: cs =>
    if c.utf8Size ≤ n + 1 then (takeBytes (n + 1 - c.utf8Size) cs).map (c :: ·) else none

/-- `&text[i..j]`: `none` where it panics. -/
def slice (text : List Char) (i j : Nat) : Option (List Char) :=
  if i ≤ j then (dropBytes i text).bind (takeBytes (j - i)) else none

/-- Byte `n` of the text stands between characters. -/
def IsCharBoundary (text : List Char) (n : Nat) : Prop := ∃ p t, p ++ t = text ∧ utf8Len p = n

theorem length_le_utf8Len (cs : List Char) : cs.length ≤ utf8Len cs := by
  induction cs with
  | nil => exact Nat.le_refl 0
  | cons c cs ih =>
    have hc := c.utf8Size_pos
    simp only [List.length_cons, String.utf8Len_cons]
    omega

/-- A text has as many bytes as characters if each takes one byte. -/
theorem utf8Len_ascii_iff {cs : List Char} : utf8Len cs = cs.length ↔ ∀ c ∈ cs, c.utf8Size = 1 := by
  induction cs with
  | nil => simp
  | cons c cs ih =>
    have hc := c.utf8Size_pos
    have hcs := length_le_utf8Len cs
    rw [List.forall_mem_cons, ← ih, String.utf8Len_cons, List.length_cons]
    omega

theorem dropBytes_eq_some {n : Nat} {cs t : List Char} :
    dropBytes n cs = some t ↔ ∃ p, p ++ t = cs ∧ utf8Len p = n := by
  induction cs generalizing n with
  | nil =>
    cases n with
    | zero =>
      constructor
      · intro h
        obtain rfl : [] = t := by simpa [dropBytes] using h
        exact ⟨[], rfl, rfl⟩
      · rintro ⟨p, hp, -⟩
        obtain ⟨-, rfl⟩ := List.append_eq_nil_iff.mp hp
        rfl
    | succ n =>
      simp only [dropBytes, reduceCtorEq, List.append_eq_nil_iff, false_iff]
      rintro ⟨p, ⟨rfl, -⟩, hn⟩
      exact absurd hn (by simp)
  | cons c cs ih =>
    have hc := c.utf8Size_pos
    cases n with
    | zero =>
      constructor
      · intro h
        obtain rfl : c :: cs = t := by simpa [dropBytes] using h
        exact ⟨[], rfl, rfl⟩
      · rintro ⟨p, hp, hn⟩
        obtain rfl := String.utf8Len_eq_zero.mp hn
        exact congrArg some hp.symm
    | succ n =>
      rw [dropBytes]
      split
      · rename_i hle
        rw [ih]
        constructor
        · rintro ⟨p, rfl, hn⟩
          exact ⟨c :: p, rfl, by simp only [String.utf8Len_cons]; omega⟩
        · rintro ⟨p, hp, hn⟩
          cases p with
          | nil => simp at hn
          | cons a p =>
            obtain ⟨rfl, hcs⟩ := List.cons_eq_cons.mp hp
            simp only [String.utf8Len_cons] at hn
            exact ⟨p, hcs, by omega⟩
      · rename_i hlt
        simp only [reduceCtorEq, false_iff]
        rintro ⟨p, hp, hn⟩
        cases p with
        | nil => simp at hn
        | cons a p =>
          obtain ⟨rfl, -⟩ := List.cons_eq_cons.mp hp
          simp only [String.utf8Len_cons] at hn
          omega

theorem takeBytes_append (p t : List Char) : takeBytes (utf8Len p) (p ++ t) = some p := by
  induction p with
  | nil => cases t <;> rfl
  | cons c p ih =>
    have hc := c.utf8Size_pos
    obtain ⟨n, hn⟩ : ∃ n, utf8Len (c :: p) = n + 1 := ⟨utf8Len (c :: p) - 1, by simp; omega⟩
    have hrest : n + 1 - c.utf8Size = utf8Len p := by
      simp only [String.utf8Len_cons] at hn
      omega
    rw [hn, List.cons_append, takeBytes, if_pos (by simp only [String.utf8Len_cons] at hn; omega), hrest,
      ih]
    rfl

theorem takeBytes_eq_some {n : Nat} {cs p : List Char} :
    takeBytes n cs = some p ↔ ∃ t, p ++ t = cs ∧ utf8Len p = n := by
  constructor
  · intro h
    induction cs generalizing n p with
    | nil =>
      cases n with
      | zero => exact ⟨[], by simpa [takeBytes] using h.symm, by simp [takeBytes] at h; simp [← h]⟩
      | succ n => simp [takeBytes] at h
    | cons c cs ih =>
      cases n with
      | zero =>
        obtain rfl : [] = p := by simpa [takeBytes] using h
        exact ⟨c :: cs, rfl, rfl⟩
      | succ n =>
        rw [takeBytes] at h
        split at h
        · obtain ⟨q, hq, rfl⟩ := Option.map_eq_some_iff.mp h
          obtain ⟨t, rfl, hlen⟩ := ih hq
          exact ⟨t, rfl, by simp only [String.utf8Len_cons]; omega⟩
        · exact absurd h (by simp)
  · rintro ⟨t, rfl, rfl⟩
    exact takeBytes_append p t

theorem slice_eq_some {text m : List Char} {i j : Nat} :
    slice text i j = some m ↔ ∃ p t, p ++ m ++ t = text ∧ utf8Len p = i ∧ utf8Len (p ++ m) = j := by
  rw [slice]
  constructor
  · intro h
    split at h
    · rename_i hij
      obtain ⟨s, hs, hm⟩ := Option.bind_eq_some_iff.mp h
      obtain ⟨p, rfl, rfl⟩ := dropBytes_eq_some.mp hs
      obtain ⟨t, rfl, hlen⟩ := takeBytes_eq_some.mp hm
      refine ⟨p, t, by simp, rfl, ?_⟩
      rw [String.utf8Len_append]
      omega
    · exact absurd h (by simp)
  · rintro ⟨p, t, rfl, rfl, rfl⟩
    have hdrop : dropBytes (utf8Len p) (p ++ m ++ t) = some (m ++ t) :=
      dropBytes_eq_some.mpr ⟨p, by simp, rfl⟩
    rw [if_pos (by simp), hdrop, Option.bind_some, String.utf8Len_append, Nat.add_sub_cancel_left]
    exact takeBytes_append m t

/-- A text is cut at an offset in one way only. -/
theorem append_inj_of_utf8Len {p p' t t' : List Char} (h : p ++ t = p' ++ t')
    (hlen : utf8Len p = utf8Len p') : p = p' ∧ t = t' := by
  have hp : takeBytes (utf8Len p) (p ++ t) = some p := takeBytes_append p t
  have hp' : takeBytes (utf8Len p) (p ++ t) = some p' := by
    rw [h, hlen]
    exact takeBytes_append p' t'
  obtain rfl : p = p' := Option.some.inj (hp.symm.trans hp')
  exact ⟨rfl, List.append_cancel_left h⟩

/-- What stands before an identifier can be sliced from a boundary on. -/
theorem slice_isSome_iff {p t : List Char} {i : Nat} (hi : i ≤ utf8Len p) :
    (slice (p ++ t) i (utf8Len p)).isSome ↔ IsCharBoundary (p ++ t) i := by
  constructor
  · intro h
    obtain ⟨m, hm⟩ := Option.isSome_iff_exists.mp h
    obtain ⟨q, s, hq, hlen, -⟩ := slice_eq_some.mp hm
    exact ⟨q, m ++ s, by simpa using hq, hlen⟩
  · rintro ⟨q, s, hq, rfl⟩
    have hpre : q <+: p := by
      have hsub := List.prefix_or_prefix_of_prefix (⟨s, hq⟩ : q <+: p ++ t) (List.prefix_append p t)
      rcases hsub with h | ⟨r, rfl⟩
      · exact h
      · rw [String.utf8Len_append] at hi
        obtain rfl : r = [] := String.utf8Len_eq_zero.mp (by omega)
        simp
    obtain ⟨m, rfl⟩ := hpre
    rw [slice_eq_some.mpr ⟨q, t, rfl, rfl, rfl⟩]
    rfl

/-- A boundary is an offset that is inside no character. -/
theorem isCharBoundary_iff {text : List Char} {n : Nat} :
    IsCharBoundary text n ↔ n ≤ utf8Len text ∧
      ∀ a c b, a ++ c :: b = text → n ≤ utf8Len a ∨ utf8Len a + c.utf8Size ≤ n := by
  constructor
  · rintro ⟨p, t, rfl, rfl⟩
    refine ⟨by simp, fun a c b h => ?_⟩
    rcases List.append_eq_append_iff.1 h with ⟨u, rfl, hu⟩ | ⟨u, rfl, -⟩
    · cases u with
      | nil => exact .inl (by simp)
      | cons d u =>
        obtain ⟨rfl, -⟩ := List.cons_eq_cons.1 hu
        exact .inr (by simp)
    · exact .inl (by simp)
  · rintro ⟨hn, h⟩
    induction text generalizing n with
    | nil => exact ⟨[], [], rfl, (Nat.le_zero.1 hn).symm⟩
    | cons c text ih =>
      rw [String.utf8Len_cons] at hn
      rcases h [] c text rfl with h0 | hc
      · exact ⟨[], c :: text, rfl, (Nat.le_zero.1 h0).symm⟩
      · simp only [String.utf8Len_nil, Nat.zero_add] at hc
        obtain ⟨p, t, rfl, hp⟩ := ih (n := n - c.utf8Size) (by omega) fun a d b hd => by
          have hcons := h (c :: a) d b (by rw [List.cons_append, hd])
          rw [String.utf8Len_cons] at hcons
          omega
        exact ⟨c :: p, t, rfl, by rw [String.utf8Len_cons]; omega⟩

/-- A slice is cut at two boundaries. -/
theorem slice_isSome_iff_boundaries {text : List Char} {i j : Nat} :
    (slice text i j).isSome ↔ i ≤ j ∧ IsCharBoundary text i ∧ IsCharBoundary text j := by
  constructor
  · intro h
    obtain ⟨m, hm⟩ := Option.isSome_iff_exists.1 h
    obtain ⟨p, t, rfl, rfl, rfl⟩ := slice_eq_some.1 hm
    exact ⟨by simp, ⟨p, m ++ t, by simp, rfl⟩, ⟨p ++ m, t, rfl, rfl⟩⟩
  · rintro ⟨hij, hi, p, t, rfl, rfl⟩
    exact (slice_isSome_iff hij).2 hi

end Inim.Lib
