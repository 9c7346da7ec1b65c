import Inim.Lib.Listing
import Inim.Lib.Tables

/-!
# The latest row of a table

`latest time rows` is the row with the greatest `time`, of several the last one inserted. A query
that lists the rows by another key (a time as text) shows it first when no other row reaches it there
(`LeadsListing`), and that stays so as long as every row inserted `Fits`: it is listed before or
after the latest row as it is in time.
-/

namespace Inim.Lib

variable {α β τ : Type*} [LinearOrder β] [LinearOrder τ]

def laterOf (time : α → τ) (best : Option α) (r : α) : Option α :=
  match best with
  | none => some r
  | some b => if time b ≤ time r then some r else some b

def latest (time : α → τ) (rows : List α) : Option α := rows.foldl (laterOf time) none

variable {time : α → τ} {at_ : α → β} {rows : List α} {l r : α}

theorem latest_concat (time : α → τ) (rows : List α) (r : α) :
    latest time (rows ++ [r]) = laterOf time (latest time rows) r := by
  simp [latest]

/-- What the latest row is after another one. -/
theorem latest_concat_cases (time : α → τ) (rows : List α) (r : α) :
    (latest time (rows ++ [r]) = some r ∧ ∀ l, latest time rows = some l → time l ≤ time r) ∨
      ∃ l, latest time rows = some l ∧ time r < time l ∧ latest time (rows ++ [r]) = some l := by
  rw [latest_concat]
  cases hl : latest time rows with
  | none => exact .inl ⟨rfl, fun l h => by cases h⟩
  | some l =>
    unfold laterOf
    by_cases hle : time l ≤ time r
    · refine .inl ⟨if_pos hle, fun l' h' => ?_⟩
      cases h'
      exact hle
    · exact .inr ⟨l, rfl, not_le.1 hle, if_neg hle⟩

theorem latest_spec (h : latest time rows = some l) : l ∈ rows ∧ ∀ r ∈ rows, time r ≤ time l := by
  induction rows using List.reverseRecOn generalizing l with
  | nil => cases h
  | append_singleton rows r ih =>
    simp only [List.mem_append, List.mem_singleton]
    rcases latest_concat_cases time rows r with ⟨hr, hle⟩ | ⟨b, hb, hlt, hlatest⟩
    · rw [hr] at h
      obtain rfl := Option.some.inj h
      refine ⟨.inr rfl, ?_⟩
      rintro x (hx | rfl)
      · cases hb : latest time rows with
        | none =>
          have hnil : rows = [] := by
            cases rows using List.reverseRecOn with
            | nil => rfl
            | append_singleton rows y =>
              rcases latest_concat_cases time rows y with ⟨h', -⟩ | ⟨z, -, -, h'⟩ <;>
                rw [h'] at hb <;> cases hb
          rw [hnil] at hx
          cases hx
        | some b => exact ((ih hb).2 x hx).trans (hle b hb)
      · exact le_rfl
    · rw [hlatest] at h
      obtain rfl := Option.some.inj h
      refine ⟨.inl (ih hb).1, ?_⟩
      rintro x (hx | rfl)
      · exact (ih hb).2 x hx
      · exact hlt.le

theorem latest_eq_none : latest time rows = none ↔ rows = [] := by
  constructor
  · intro h
    cases rows using List.reverseRecOn with
    | nil => rfl
    | append_singleton rows r =>
      rcases latest_concat_cases time rows r with ⟨h', -⟩ | ⟨l, -, -, h'⟩ <;> rw [h'] at h <;> cases h
  · rintro rfl
    rfl

/-- If the latest row has a property, it is the latest of those that have it. -/
theorem latest_filter {p : α → Bool} (h : latest time rows = some l) (hp : p l = true) :
    latest time (rows.filter p) = some l := by
  induction rows using List.reverseRecOn generalizing l with
  | nil => cases h
  | append_singleton rows r ih =>
    rw [List.filter_append]
    rcases latest_concat_cases time rows r with ⟨hr, hle⟩ | ⟨b, hb, hlt, hlatest⟩
    · rw [hr] at h
      obtain rfl := Option.some.inj h
      rw [List.filter_cons_of_pos hp, List.filter_nil, latest_concat]
      cases hf : latest time (rows.filter p) with
      | none => rfl
      | some c =>
        have hc := List.mem_of_mem_filter (latest_spec hf).1
        obtain ⟨b, hb⟩ : ∃ b, latest time rows = some b := by
          rw [← Option.ne_none_iff_exists', Ne, latest_eq_none]
          exact List.ne_nil_of_mem hc
        exact if_pos (((latest_spec hb).2 c hc).trans (hle b hb))
    · rw [hlatest] at h
      obtain rfl := Option.some.inj h
      by_cases hpr : p r = true
      · rw [List.filter_cons_of_pos hpr, List.filter_nil, latest_concat, ih hb hp]
        exact if_neg (not_le.2 hlt)
      · rw [List.filter_cons_of_neg hpr, List.filter_nil, List.append_nil, ih hb hp]

variable (time at_) in
/-- The row is listed before the latest one if it is later, or as late; else after it. -/
def Fits (rows : List α) (r : α) : Prop :=
  ∀ l, latest time rows = some l → if time l ≤ time r then at_ l < at_ r else at_ r < at_ l

variable (time at_) in
/-- No other row reaches the latest one in the listing. -/
def LeadsListing (rows : List α) : Prop :=
  ∀ l, latest time rows = some l → ∀ r ∈ rows, r ≠ l → at_ r < at_ l

theorem LeadsListing.nil : LeadsListing time at_ ([] : List α) := fun _ h => by cases h

theorem LeadsListing.concat (h : LeadsListing time at_ rows) (hfit : Fits time at_ rows r) :
    LeadsListing time at_ (rows ++ [r]) := by
  intro l hl x hx hne
  rcases latest_concat_cases time rows r with ⟨hr, hle⟩ | ⟨b, hb, hlt, hlatest⟩
  · rw [hr] at hl
    obtain rfl := Option.some.inj hl
    have hx : x ∈ rows := by
      rcases List.mem_append.1 hx with hx | hx
      · exact hx
      · exact absurd (List.mem_singleton.1 hx) hne
    obtain ⟨b, hb⟩ : ∃ b, latest time rows = some b := by
      rw [← Option.ne_none_iff_exists', Ne, latest_eq_none]
      exact List.ne_nil_of_mem hx
    have hbr := hfit b hb
    rw [if_pos (hle b hb)] at hbr
    by_cases hxb : x = b
    · exact hxb ▸ hbr
    · exact (h b hb x hx hxb).trans hbr
  · rw [hlatest] at hl
    obtain rfl := Option.some.inj hl
    rcases List.mem_append.1 hx with hx | hx
    · exact h b hb x hx hne
    · rw [List.mem_singleton.1 hx]
      have hrb := hfit b hb
      rwa [if_neg (not_le.2 hlt)] at hrb

/-- Every listing starts with the latest row. -/
theorem head_eq_latest (h : LeadsListing time at_ rows) {listed : List α}
    (hl : Listing at_ rows listed) : listed.head? = latest time rows := by
  cases hb : latest time rows with
  | none =>
    rw [latest_eq_none] at hb
    subst hb
    rw [List.perm_nil.1 hl.perm]
    rfl
  | some b =>
    cases hhead : listed.head? with
    | none =>
      rw [List.head?_eq_none_iff] at hhead
      subst hhead
      have hmem := (latest_spec hb).1
      rw [List.nil_perm.1 hl.perm] at hmem
      cases hmem
    | some a =>
      obtain ⟨ha, hmax⟩ := head_listing_iff.1 ⟨listed, hl, hhead⟩
      by_cases hab : a = b
      · rw [hab]
      · exact absurd (h b hb a ha hab) (not_lt.2 (hmax b (latest_spec hb).1))

/-! ## Rows with their ids -/

section Rows
variable {ι : Type*} [DecidableEq ι] {owner : α → ι}

theorem rowsOf_concat (owner : α → ι) (i : ι) (t : List α) (x : α) :
    rowsOf owner i (t ++ [x]) = rowsOf owner i t ++ if owner x = i then [(x, t.length)] else [] := by
  rw [rowsOf, List.zipIdx_append, List.filter_append, Nat.zero_add]
  congr 1
  by_cases hx : owner x = i <;> simp [hx]

theorem mem_rowsOf {i : ι} {t : List α} {x : α} {id : Nat} :
    (x, id) ∈ rowsOf owner i t ↔ t[id]? = some x ∧ owner x = i := by
  rw [rowsOf, List.mem_filter, List.mem_zipIdx_iff_getElem?, decide_eq_true_eq]

/-- In a table where each row belongs to its own id, an id has one row. -/
theorem rowsOf_eq_getElem? {owner : α → Nat} {t : List α}
    (h : ∀ id x, t[id]? = some x → owner x = id) (i : Nat) :
    rowsOf owner i t = (t[i]?.map fun x => (x, i)).toList := by
  induction t using List.reverseRecOn with
  | nil => rfl
  | append_singleton t x ih =>
    have ht : ∀ id y, t[id]? = some y → owner y = id := fun id y hy =>
      h id y (by rw [List.getElem?_append_left (List.getElem?_eq_some_iff.1 hy).1, hy])
    have hx : owner x = t.length := h t.length x (by simp)
    rw [rowsOf_concat, ih ht, hx]
    rcases Nat.lt_trichotomy i t.length with hi | hi | hi
    · rw [if_neg (by omega), List.append_nil, List.getElem?_append_left hi]
    · subst hi
      simp
    · rw [if_neg (by omega), List.getElem?_eq_none (by omega),
        List.getElem?_eq_none (by simp; omega)]
      rfl

end Rows

end Inim.Lib
