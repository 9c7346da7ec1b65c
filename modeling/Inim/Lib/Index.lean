import Inim.Lib.Guards

/-!
# Indexes from keys to rows

A map is filled row by row with the position of the row under each of its keys, and a key that is
there already is an error. In a map that was filled, a lookup finds the one row with the key
(`Indexes`).
-/

namespace Inim.Lib

variable {α β κ ν ε : Type} [BEq κ] [LawfulBEq κ]

/-- `HashMap::insert`, with an error for a key that has a value already. -/
def insertNew (conflict : ν → ε) (key : κ) (v : ν) (index : List (κ × ν)) :
    Except ε (List (κ × ν)) :=
  match index.lookup key with
  | some prev => .error (conflict prev)
  | none => .ok ((key, v) :: index)

omit [LawfulBEq κ] in
theorem insertNew_ok {conflict : ν → ε} {key : κ} {v : ν} {index index' : List (κ × ν)}
    (h : insertNew conflict key v index = .ok index') :
    index.lookup key = none ∧ index' = (key, v) :: index := by
  unfold insertNew at h
  split at h
  · cases h
  · next hnone =>
    cases h
    exact ⟨hnone, rfl⟩

theorem lookup_cons_new {key : κ} {v w : ν} {index : List (κ × ν)} (hnew : index.lookup key = none)
    (k : κ) :
    ((key, v) :: index).lookup k = some w ↔ index.lookup k = some w ∨ k = key ∧ w = v := by
  rw [List.lookup_cons]
  by_cases hk : k = key
  · subst hk
    simp [hnew, eq_comm]
  · have hb : (k == key) = false := by simpa using hk
    simp [hb, hk]

/-- A loop that inserts the keys of its elements, all with the value `v`. -/
theorem lookup_of_foldlM {f : List (κ × ν) → β → Except ε (List (κ × ν))} (key : β → κ) {v : ν}
    (hf : ∀ index b index', f index b = .ok index' →
      index.lookup (key b) = none ∧ index' = (key b, v) :: index)
    {l : List β} {index index' : List (κ × ν)} (h : l.foldlM f index = .ok index') (k : κ) (w : ν) :
    index'.lookup k = some w ↔ index.lookup k = some w ∨ k ∈ l.map key ∧ w = v := by
  induction l generalizing index with
  | nil =>
    cases h
    simp
  | cons b l ih =>
    rw [List.foldlM_cons] at h
    obtain ⟨next, hnext, h⟩ := bind_ok h
    obtain ⟨hnew, rfl⟩ := hf _ _ _ hnext
    rw [ih h, lookup_cons_new hnew, List.map_cons, List.mem_cons]
    tauto

/-- Under each key of a row, and under no other, its position. -/
def Indexes (keys : α → List κ) (rows : List α) (index : List (κ × Nat)) : Prop :=
  ∀ k i, index.lookup k = some i ↔ ∃ a, rows[i]? = some a ∧ k ∈ keys a

namespace Indexes

variable {keys : α → List κ} {rows : List α} {index index' : List (κ × Nat)}

omit [LawfulBEq κ] in
theorem nil : Indexes keys [] ([] : List (κ × Nat)) := by
  intro k i
  simp

omit [LawfulBEq κ] in
/-- The next row, whose keys were all new. -/
theorem concat (h : Indexes keys rows index) {a : α}
    (hnew : ∀ k i, index'.lookup k = some i ↔
      index.lookup k = some i ∨ k ∈ keys a ∧ i = rows.length) :
    Indexes keys (rows ++ [a]) index' := by
  intro k i
  rw [hnew, h k i]
  constructor
  · rintro (⟨b, hb, hk⟩ | ⟨hk, rfl⟩)
    · exact ⟨b, List.getElem?_append_left (List.getElem?_eq_some_iff.1 hb).1 ▸ hb, hk⟩
    · exact ⟨a, by simp, hk⟩
  · rintro ⟨b, hb, hk⟩
    rcases Nat.lt_trichotomy i rows.length with hi | hi | hi
    · exact .inl ⟨b, by rwa [List.getElem?_append_left hi] at hb, hk⟩
    · subst hi
      obtain rfl : a = b := by simpa using hb
      exact .inr ⟨hk, rfl⟩
    · rw [List.getElem?_eq_none (by simp; omega)] at hb
      cases hb

omit [LawfulBEq κ] in
theorem isSome_lookup (h : Indexes keys rows index) (k : κ) :
    (index.lookup k).isSome = true ↔ ∃ a ∈ rows, k ∈ keys a := by
  constructor
  · intro hk
    obtain ⟨i, hi⟩ := Option.isSome_iff_exists.1 hk
    obtain ⟨a, ha, hk⟩ := (h k i).1 hi
    exact ⟨a, List.mem_of_getElem? ha, hk⟩
  · rintro ⟨a, ha, hk⟩
    obtain ⟨i, hi⟩ := List.getElem?_of_mem ha
    rw [(h k i).2 ⟨a, hi, hk⟩]
    rfl

omit [LawfulBEq κ] in
/-- Every position in the index is the position of a row. -/
theorem isSome_row (h : Indexes keys rows index) (k : κ) :
    ((index.lookup k).bind fun i => rows[i]?).isSome = (index.lookup k).isSome := by
  cases hk : index.lookup k with
  | none => rfl
  | some i =>
    obtain ⟨a, ha, -⟩ := (h k i).1 hk
    rw [Option.bind_some, ha]
    rfl

end Indexes

end Inim.Lib
