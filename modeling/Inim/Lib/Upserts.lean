import Mathlib.Data.List.Induction
import Mathlib.Data.List.Nodup

/-!
# Writing a list of rows, one after the other

`INSERT … ON CONFLICT (key) DO UPDATE` puts a row in the place of the one with its key, or else at the
end. What a list of such writes leaves is known key by key (`find?_foldl_upsert`): the last row
written, or what was there. So writing a list again changes nothing (`foldl_upsert_again`), and
`foldl_upsert_eq_self_iff` says when writing it changes nothing in the first place.

`untilError` is a loop of writes outside of a transaction: it ends with the first error, and what was
written before stays.
-/

namespace Inim.Lib

variable {α β κ σ ε : Type*}

/-! ## Upserts -/

section Upsert
variable [DecidableEq κ] {key : α → κ} {x : α} {l t t' : List α} {k : κ}

def upsert (key : α → κ) (x : α) : List α → List α
  | [] => [x]
  | a :: t => if key a = key x then x :: t else a :: upsert key x t

theorem find?_upsert : (upsert key x t).find? (fun a => decide (key a = k)) =
    if key x = k then some x else t.find? fun a => decide (key a = k) := by
  induction t with
  | nil => by_cases hx : key x = k <;> simp [upsert, hx]
  | cons a t ih =>
    rw [upsert]
    by_cases hax : key a = key x
    · by_cases hx : key x = k <;> simp [hax, hx]
    · by_cases hx : key x = k
      · have ha : key a ≠ k := fun h => hax (h.trans hx.symm)
        simp [ha, hx, ih]
      · simp [hax, hx, ih, List.find?_cons]

theorem map_upsert_of_mem (h : key x ∈ t.map key) : (upsert key x t).map key = t.map key := by
  induction t with
  | nil => cases h
  | cons a t ih =>
    rw [upsert]
    by_cases hax : key a = key x
    · rw [if_pos hax, List.map_cons, List.map_cons, hax]
    · have ht : key x ∈ t.map key := by
        rw [List.map_cons, List.mem_cons] at h
        exact h.resolve_left (Ne.symm hax)
      rw [if_neg hax, List.map_cons, List.map_cons, ih ht]

theorem map_upsert_of_notMem (h : key x ∉ t.map key) :
    (upsert key x t).map key = t.map key ++ [key x] := by
  induction t with
  | nil => rfl
  | cons a t ih =>
    rw [List.map_cons, List.mem_cons, not_or] at h
    rw [upsert, if_neg (Ne.symm h.1), List.map_cons, List.map_cons, ih h.2, List.cons_append]

theorem upsert_nodup (h : (t.map key).Nodup) : ((upsert key x t).map key).Nodup := by
  by_cases hx : key x ∈ t.map key
  · rwa [map_upsert_of_mem hx]
  · rw [map_upsert_of_notMem hx, List.nodup_append]
    refine ⟨h, List.nodup_singleton _, ?_⟩
    rintro _ hk _ hmem rfl
    rw [List.mem_singleton.1 hmem] at hk
    exact hx hk

theorem mem_of_mem_upsert {a : α} (h : a ∈ upsert key x t) : a = x ∨ a ∈ t := by
  induction t with
  | nil => exact Or.inl (List.mem_singleton.1 h)
  | cons b t ih =>
    rw [upsert] at h
    split at h
    · exact (List.mem_cons.1 h).imp_right (List.mem_cons_of_mem b)
    · rcases List.mem_cons.1 h with rfl | h
      · exact Or.inr List.mem_cons_self
      · exact (ih h).imp_right (List.mem_cons_of_mem b)

/-! ## A list of upserts -/

theorem find?_foldl_upsert (key : α → κ) (l t : List α) (k : κ) :
    (l.foldl (fun t x => upsert key x t) t).find? (fun a => decide (key a = k)) =
      (l.reverse.find? fun a => decide (key a = k)).or (t.find? fun a => decide (key a = k)) := by
  induction l using List.reverseRecOn with
  | nil => rfl
  | append_singleton l x ih =>
    rw [List.foldl_append, List.foldl_cons, List.foldl_nil, find?_upsert, ih, List.reverse_append,
      List.reverse_singleton, List.singleton_append, List.find?_cons]
    by_cases hx : key x = k <;> simp [hx]

theorem foldl_upsert_nodup (h : (t.map key).Nodup) :
    ((l.foldl (fun t x => upsert key x t) t).map key).Nodup := by
  induction l generalizing t with
  | nil => exact h
  | cons x l ih => exact ih (upsert_nodup h)

theorem mem_of_mem_foldl_upsert {a : α} (h : a ∈ l.foldl (fun t x => upsert key x t) t) :
    a ∈ l ∨ a ∈ t := by
  induction l generalizing t with
  | nil => exact Or.inr h
  | cons x l ih =>
    rcases ih h with hl | ht
    · exact Or.inl (List.mem_cons_of_mem x hl)
    · rcases mem_of_mem_upsert ht with rfl | ht
      · exact Or.inl List.mem_cons_self
      · exact Or.inr ht

/-- No key is lost. -/
theorem map_subset_foldl_upsert (key : α → κ) (l t : List α) :
    t.map key ⊆ (l.foldl (fun t x => upsert key x t) t).map key := by
  induction l generalizing t with
  | nil => exact List.Subset.refl _
  | cons x l ih =>
    refine List.Subset.trans ?_ (ih (upsert key x t))
    by_cases hx : key x ∈ t.map key
    · rw [map_upsert_of_mem hx]
      exact List.Subset.refl _
    · rw [map_upsert_of_notMem hx]
      exact List.subset_append_left ..

theorem map_foldl_upsert_of_mem (h : ∀ x ∈ l, key x ∈ t.map key) :
    (l.foldl (fun t x => upsert key x t) t).map key = t.map key := by
  induction l generalizing t with
  | nil => rfl
  | cons x l ih =>
    obtain ⟨hx, hl⟩ := List.forall_mem_cons.1 h
    have hkeys := map_upsert_of_mem hx
    rw [List.foldl_cons, ih (by rwa [hkeys]), hkeys]

/-- With unique keys a row is the one that is found under its key. -/
theorem find?_of_mem {a : α} (h : (t.map key).Nodup) (ha : a ∈ t) :
    (t.find? fun b => decide (key b = key a)) = some a := by
  induction t with
  | nil => cases ha
  | cons b t ih =>
    rw [List.map_cons] at h
    obtain ⟨hb, ht⟩ := List.nodup_cons.1 h
    rcases List.mem_cons.1 ha with rfl | ha
    · simp
    · have hne : key b ≠ key a := fun hk => hb (List.mem_map.2 ⟨a, ha, hk.symm⟩)
      rw [List.find?_cons, decide_eq_false hne, ih ht ha]

/-- Tables with the same keys that find the same rows are the same. -/
theorem eq_of_find? (h : (t.map key).Nodup) (hkeys : t'.map key = t.map key)
    (hfind : ∀ k, (t'.find? fun a => decide (key a = k)) = t.find? fun a => decide (key a = k)) :
    t' = t := by
  have hlength : t'.length = t.length := by simpa using congrArg List.length hkeys
  refine List.ext_getElem hlength fun i hi' hi => ?_
  have hkey : key t'[i] = key t[i] := by
    have := congrArg (·[i]?) hkeys
    simpa [hi, hi'] using this
  have hrow := find?_of_mem h (List.getElem_mem hi)
  have hrow' := find?_of_mem (hkeys ▸ h) (List.getElem_mem hi')
  rw [hfind, hkey, hrow] at hrow'
  exact (Option.some.inj hrow').symm

/-- Nothing changes iff the last row written under each key is there already. -/
theorem foldl_upsert_eq_self_iff (h : (t.map key).Nodup) :
    l.foldl (fun t x => upsert key x t) t = t ↔
      ∀ x ∈ l, (t.find? fun a => decide (key a = key x)) =
        l.reverse.find? fun a => decide (key a = key x) := by
  have hsome : ∀ x ∈ l, ∃ a, (l.reverse.find? fun a => decide (key a = key x)) = some a := by
    intro x hx
    exact Option.isSome_iff_exists.1 (List.find?_isSome.2 ⟨x, List.mem_reverse.2 hx, by simp⟩)
  constructor
  · intro heq x hx
    obtain ⟨a, ha⟩ := hsome x hx
    have hfind := find?_foldl_upsert key l t (key x)
    rwa [heq, ha, Option.some_or, ← ha] at hfind
  · intro hlast
    refine eq_of_find? h (map_foldl_upsert_of_mem fun x hx => ?_) fun k => ?_
    · obtain ⟨a, ha⟩ := hsome x hx
      rw [← hlast x hx] at ha
      have hkey := List.find?_some ha
      exact List.mem_map.2 ⟨a, List.mem_of_find?_eq_some ha, of_decide_eq_true hkey⟩
    · rw [find?_foldl_upsert]
      cases hk : l.reverse.find? fun a => decide (key a = k) with
      | none => rfl
      | some a =>
        have hkey := List.find?_some hk
        obtain rfl : key a = k := of_decide_eq_true hkey
        rw [Option.some_or, hlast a (List.mem_reverse.1 (List.mem_of_find?_eq_some hk)), hk]

theorem foldl_upsert_again (h : (t.map key).Nodup) :
    l.foldl (fun t x => upsert key x t) (l.foldl (fun t x => upsert key x t) t) =
      l.foldl (fun t x => upsert key x t) t := by
  refine (foldl_upsert_eq_self_iff (foldl_upsert_nodup h)).2 fun x hx => ?_
  rw [find?_foldl_upsert]
  have hsome : (l.reverse.find? fun a => decide (key a = key x)).isSome :=
    List.find?_isSome.2 ⟨x, List.mem_reverse.2 hx, by simp⟩
  obtain ⟨a, ha⟩ := Option.isSome_iff_exists.1 hsome
  rw [ha, Option.some_or]

end Upsert

/-! ## Loops that end with an error -/

def untilError (f : σ → α → Except ε σ) (s : σ) : List α → σ × Option ε
  | [] => (s, none)
  | a :: l =>
    match f s a with
    | .error e => (s, some e)
    | .ok s' => untilError f s' l

/-- What is computed up to the first error. -/
def okPrefix (row : α → Except ε β) : List α → List β × Option ε
  | [] => ([], none)
  | a :: l =>
    match row a with
    | .error e => ([], some e)
    | .ok b => (b :: (okPrefix row l).1, (okPrefix row l).2)

theorem mem_okPrefix {row : α → Except ε β} {l : List α} {b : β} (h : b ∈ (okPrefix row l).1) :
    ∃ a ∈ l, row a = .ok b := by
  induction l with
  | nil => cases h
  | cons a l ih =>
    rw [okPrefix] at h
    split at h
    · cases h
    · next b' hb' =>
      rcases List.mem_cons.1 h with rfl | h
      · exact ⟨a, List.mem_cons_self, hb'⟩
      · obtain ⟨a', ha', hrow⟩ := ih h
        exact ⟨a', List.mem_cons_of_mem a ha', hrow⟩

/-- Where the rows do not depend on what is written, they are written in order. -/
theorem untilError_map (row : α → Except ε β) (write : σ → β → σ) (s : σ) (l : List α) :
    untilError (fun s a => (row a).map (write s)) s l =
      ((okPrefix row l).1.foldl write s, (okPrefix row l).2) := by
  induction l generalizing s with
  | nil => rfl
  | cons a l ih =>
    rw [untilError, okPrefix]
    cases row a with
    | error e => rfl
    | ok b => exact ih (write s b)

/-- What each round keeps, the loop keeps. -/
theorem untilError_invariant {P : σ → Prop} {f : σ → α → Except ε σ} {s : σ} {l : List α} (h0 : P s)
    (hstep : ∀ s a s', P s → f s a = .ok s' → P s') : P (untilError f s l).1 := by
  induction l generalizing s with
  | nil => exact h0
  | cons a l ih =>
    rw [untilError]
    split
    · exact h0
    · next s' hs' => exact ih (hstep s a s' h0 hs')

end Inim.Lib
