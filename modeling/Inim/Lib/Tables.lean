import Mathlib.Data.List.Induction
import Mathlib.Data.Option.Basic
import Mathlib.Data.List.Nodup

/-!
# Insert-only tables that deduplicate by a key

`SELECT id WHERE key = …`, and an `INSERT` when there is none. Ids are positions, so they never
change. `Tracks` says what such a table holds after a history of insertions: under each key the
row of the *first* insertion with that key, whatever the later ones brought. Rows refer to rows
of other tables, so what a row says about its insertion is a relation `R` and not an equation.
-/

namespace Inim.Lib

variable {α β κ : Type*} [DecidableEq κ]

/-- The first element of `l` with the key of `x`, or else `x`. -/
def firstLike (key : α → κ) (l : List α) (x : α) : α :=
  (l.find? fun a => decide (key a = key x)).getD x

theorem firstLike_key (key : α → κ) (l : List α) (x : α) : key (firstLike key l x) = key x := by
  unfold firstLike
  cases h : l.find? fun a => decide (key a = key x) with
  | none => rfl
  | some a => simpa using List.find?_some h

def insertUnique (key : α → κ) (row : α) (t : List α) : List α × Nat :=
  match t.findIdx? fun a => decide (key a = key row) with
  | some i => (t, i)
  | none => (t ++ [row], t.length)

theorem insertUnique_initial (key : α → κ) (row : α) (t : List α) :
    t <+: (insertUnique key row t).1 := by
  unfold insertUnique
  split
  · exact List.prefix_rfl
  · exact List.prefix_append ..

theorem mem_of_mem_insertUnique {key : α → κ} {row a : α} {t : List α}
    (h : a ∈ (insertUnique key row t).1) : a ∈ t ∨ a = row := by
  unfold insertUnique at h
  split at h
  · exact Or.inl h
  · simpa using h

/-- What stays at a position of a table that only grows. -/
theorem getElem?_of_initial {t t' : List α} {i : Nat} {a : α} (h : t <+: t') (hi : t[i]? = some a) :
    t'[i]? = some a := by
  obtain ⟨s, rfl⟩ := h
  rw [List.getElem?_append_left (List.getElem?_eq_some_iff.mp hi).1]
  exact hi

/-- The id it returns is the id of the row with the key. -/
theorem insertUnique_row (key : α → κ) (row : α) (t : List α) :
    (insertUnique key row t).1[(insertUnique key row t).2]? = some (firstLike key t row) := by
  unfold insertUnique firstLike
  split
  · rename_i i hi
    obtain ⟨hlt, hp, hbefore⟩ := List.findIdx?_eq_some_iff_getElem.mp hi
    have hfind : t.find? (fun a => decide (key a = key row)) = some (t.get ⟨i, hlt⟩) :=
      List.find?_eq_some_iff_getElem.mpr ⟨hp, i, hlt, rfl, fun j hj => by simpa using hbefore j hj⟩
    rw [hfind]
    simp
  · rename_i hnone
    rw [List.findIdx?_eq_none_iff] at hnone
    have hfind : t.find? (fun a => decide (key a = key row)) = none :=
      List.find?_eq_none.mpr fun a ha => by simpa using hnone a ha
    rw [hfind]
    simp

theorem insertUnique_key (key : α → κ) (row : α) (t : List α) :
    ((insertUnique key row t).1[(insertUnique key row t).2]?).map key = some (key row) := by
  rw [insertUnique_row, Option.map_some, firstLike_key key t row]

/-- A row that is there is found, and nothing is inserted. -/
theorem insertUnique_present {key : α → κ} {row : α} {t : List α} {i : Nat}
    (h : t.findIdx? (fun a => decide (key a = key row)) = some i) : insertUnique key row t = (t, i) := by
  rw [insertUnique, h]

/-- After the insertion the key is found, under the id it returned. -/
theorem findIdx?_insertUnique (key : α → κ) (row : α) (t : List α) :
    (insertUnique key row t).1.findIdx? (fun a => decide (key a = key row)) =
      some (insertUnique key row t).2 := by
  unfold insertUnique
  cases h : t.findIdx? fun a => decide (key a = key row) with
  | some i => exact h
  | none => simp [List.findIdx?_append, h]

omit [DecidableEq κ] in
/-- What was found at a position is found there after the table grew. -/
theorem findIdx?_of_initial {t t' : List α} {p : α → Bool} {i : Nat} (h : t <+: t')
    (hi : t.findIdx? p = some i) : t'.findIdx? p = some i := by
  obtain ⟨s, rfl⟩ := h
  rw [List.findIdx?_append, hi]
  rfl

theorem insertUnique_nodup {key : α → κ} {row : α} {t : List α} (h : (t.map key).Nodup) :
    ((insertUnique key row t).1.map key).Nodup := by
  unfold insertUnique
  split
  · exact h
  · rename_i hnone
    rw [List.findIdx?_eq_none_iff] at hnone
    rw [List.map_append, List.map_singleton, List.nodup_append]
    refine ⟨h, List.nodup_singleton _, ?_⟩
    rintro _ hmem _ hrow rfl
    obtain ⟨r, hr, hrk⟩ := List.mem_map.mp hmem
    rw [List.mem_singleton] at hrow
    have := hnone r hr
    simp_all

omit [DecidableEq κ] in
/-- With unique keys, equal keys are equal ids. -/
theorem id_eq_of_key {key : α → κ} {t : List α} (h : (t.map key).Nodup) {i j : Nat} {a b : α}
    (hi : t[i]? = some a) (hj : t[j]? = some b) (hk : key a = key b) : i = j := by
  obtain ⟨hlt, rfl⟩ := List.getElem?_eq_some_iff.mp hi
  obtain ⟨hlt', rfl⟩ := List.getElem?_eq_some_iff.mp hj
  have hi' : i < (t.map key).length := by simpa
  have hj' : j < (t.map key).length := by simpa
  have hkeys : (t.map key)[i] = (t.map key)[j] := by simpa using hk
  exact (List.Nodup.getElem_inj_iff h).mp hkeys

/-- After the insertions `hist`, the table `t` holds under each key a row that `R` relates to
the first insertion with that key. -/
structure Tracks (key : β → κ) (hkey : α → κ) (R : α → β → Prop) (hist : List α) (t : List β) :
    Prop where
  unique : (t.map key).Nodup
  first : ∀ k, Option.Rel R (hist.find? fun x => decide (hkey x = k))
    (t.find? fun r => decide (key r = k))

namespace Tracks

variable {key : β → κ} {hkey : α → κ} {R R' : α → β → Prop} {hist : List α} {t : List β}

theorem nil : Tracks key hkey R [] [] := ⟨List.nodup_nil, fun _ => .none⟩

theorem mono (h : Tracks key hkey R hist t) (hR : ∀ x r, R x r → R' x r) :
    Tracks key hkey R' hist t := by
  refine ⟨h.unique, fun k => ?_⟩
  have hk := h.first k
  generalize hist.find? _ = a at hk ⊢
  generalize t.find? _ = b at hk ⊢
  cases hk with
  | none => exact .none
  | some hab => exact .some (hR _ _ hab)

/-- The row found under a key is the row of the first insertion with it. -/
theorem firstLike_rel (h : Tracks key hkey R hist t) {x : α} {row : β} (hx : R x row)
    (hk : key row = hkey x) : R (firstLike hkey hist x) (firstLike key t row) := by
  have hfirst := h.first (hkey x)
  unfold firstLike
  rw [hk]
  generalize hist.find? _ = a at hfirst ⊢
  generalize t.find? _ = b at hfirst ⊢
  cases hfirst with
  | none => exact hx
  | some hab => exact hab

theorem insert (h : Tracks key hkey R hist t) {x : α} {row : β} (hx : R x row)
    (hk : key row = hkey x) : Tracks key hkey R (hist ++ [x]) (insertUnique key row t).1 := by
  refine ⟨insertUnique_nodup h.unique, fun k => ?_⟩
  have hfirst := h.first k
  unfold insertUnique
  split
  · rename_i i hi
    -- the key is taken: the history has it too, and neither first row changes
    obtain ⟨hlt, hp, -⟩ := List.findIdx?_eq_some_iff_getElem.mp hi
    rw [List.find?_append]
    cases hhist : hist.find? fun x => decide (hkey x = k) with
    | some a => simpa [hhist] using hfirst
    | none =>
      rw [hhist] at hfirst
      have hnone : t.find? (fun r => decide (key r = k)) = none := by
        cases ht : t.find? fun r => decide (key r = k) with
        | none => rfl
        | some b => rw [ht] at hfirst; cases hfirst
      have hne : hkey x ≠ k := by
        intro e
        have := List.find?_eq_none.mp hnone _ (List.getElem_mem hlt)
        simp_all
      rw [hnone]
      simp [hne]
  · rw [List.find?_append, List.find?_append]
    generalize hist.find? _ = a at hfirst ⊢
    generalize t.find? _ = b at hfirst ⊢
    cases hfirst with
    | some hab => exact .some hab
    | none =>
      by_cases e : hkey x = k
      · simpa [e, hk] using hx
      · simp [e, hk]

end Tracks

/-! ## Rows that belong to a row of another table -/

section Owned
variable {ι : Type*} [DecidableEq ι] (owner : α → ι) {i j : ι} {t t' : List α}

/-- The rows of `t` that belong to `i`, with their ids. -/
def rowsOf (i : ι) (t : List α) : List (α × Nat) :=
  t.zipIdx.filter fun r => decide (owner r.1 = i)

/-- `t'` is `t` with rows of `i` at its end. -/
def GrowsFor (i : ι) (t t' : List α) : Prop := ∃ new, t' = t ++ new ∧ ∀ x ∈ new, owner x = i

variable {owner}

omit [DecidableEq ι] in
theorem GrowsFor.refl (t : List α) : GrowsFor owner i t t := ⟨[], by simp, by simp⟩

omit [DecidableEq ι] in
theorem GrowsFor.trans {t'' : List α} (h : GrowsFor owner i t t') (h' : GrowsFor owner i t' t'') :
    GrowsFor owner i t t'' := by
  obtain ⟨new, rfl, hnew⟩ := h
  obtain ⟨more, rfl, hmore⟩ := h'
  refine ⟨new ++ more, List.append_assoc .., fun x hx => ?_⟩
  rcases List.mem_append.1 hx with hx | hx
  · exact hnew x hx
  · exact hmore x hx

omit [DecidableEq ι] in
theorem GrowsFor.insertUnique {key : α → κ} {x : α} (hx : owner x = i) (t : List α) :
    GrowsFor owner i t (insertUnique key x t).1 := by
  unfold Lib.insertUnique
  split
  · exact .refl t
  · exact ⟨[x], rfl, by simpa using hx⟩

/-- Growing for `i` leaves the rows of every other owner, ids included. -/
theorem GrowsFor.rowsOf_eq (h : GrowsFor owner i t t') (hij : j ≠ i) :
    rowsOf owner j t' = rowsOf owner j t := by
  obtain ⟨new, rfl, hnew⟩ := h
  have hnone : (new.zipIdx t.length).filter (fun r => decide (owner r.1 = j)) = [] := by
    refine List.filter_eq_nil_iff.2 fun r hr => ?_
    have := hnew r.1 (List.fst_mem_of_mem_zipIdx hr)
    simpa [this] using Ne.symm hij
  rw [rowsOf, List.zipIdx_append, List.filter_append, Nat.zero_add, hnone, List.append_nil]
  rfl

end Owned

/-! ## Inserting a whole list -/

/-- The elements of `l` that are the first with their key, in order. -/
def keepFirst (key : α → κ) (l : List α) : List α :=
  l.foldl (fun t x => (insertUnique key x t).1) []

theorem keepFirst_concat (key : α → κ) (l : List α) (x : α) :
    keepFirst key (l ++ [x]) = (insertUnique key x (keepFirst key l)).1 := by
  simp [keepFirst]

theorem keepFirst_tracks (key : α → κ) (l : List α) : Tracks key key Eq l (keepFirst key l) := by
  induction l using List.reverseRecOn with
  | nil => exact .nil
  | append_singleton l x ih =>
    rw [keepFirst_concat]
    exact ih.insert rfl rfl

theorem mem_keepFirst {key : α → κ} {l : List α} {a : α} :
    a ∈ keepFirst key l ↔ ∃ x ∈ l, firstLike key l x = a := by
  have h := keepFirst_tracks key l
  have hfind (k : κ) : (l.find? fun x => decide (key x = k)) =
      (keepFirst key l).find? fun x => decide (key x = k) := by
    have hk := h.first k
    generalize l.find? _ = x at hk ⊢
    generalize (keepFirst key l).find? _ = y at hk ⊢
    cases hk with
    | none => rfl
    | some hxy => rw [hxy]
  constructor
  · intro ha
    obtain ⟨i, hi⟩ := List.getElem?_of_mem ha
    cases hl : l.find? fun x => decide (key x = key a) with
    | none =>
      have hnone := hl
      rw [hfind, List.find?_eq_none] at hnone
      exact absurd (decide_eq_true rfl) (hnone a ha)
    | some b =>
      have hb := hl
      rw [hfind] at hb
      -- keys are unique, so what the search finds is `a`
      obtain ⟨j, hj⟩ := List.getElem?_of_mem (List.mem_of_find?_eq_some hb)
      have hkey : key b = key a := by simpa using List.find?_some hb
      have hij : j = i := id_eq_of_key h.unique hj hi hkey
      rw [hij, hi] at hj
      obtain rfl := Option.some.inj hj
      exact ⟨a, List.mem_of_find?_eq_some hl, by rw [firstLike, hl]; rfl⟩
  · rintro ⟨x, hx, rfl⟩
    unfold firstLike
    cases hl : l.find? fun a => decide (key a = key x) with
    | none => exact absurd (decide_eq_true rfl) (List.find?_eq_none.1 hl x hx)
    | some b =>
      rw [hfind] at hl
      exact List.mem_of_find?_eq_some hl

/-- Insertion commutes with a map that tells rows apart as the keys do. -/
theorem insertUnique_map {κ' : Type*} [DecidableEq κ'] (key : α → κ) (key' : β → κ') (g : α → β)
    (x : α) (t : List α) (h : ∀ a ∈ t, key' (g a) = key' (g x) ↔ key a = key x) :
    (insertUnique key' (g x) (t.map g)).1 = (insertUnique key x t).1.map g := by
  have hfind : (t.map g).findIdx? (fun b => decide (key' b = key' (g x))) =
      t.findIdx? fun a => decide (key a = key x) := by
    rw [List.findIdx?_map]
    induction t with
    | nil => rfl
    | cons a t ih =>
      have ha := h a (by simp)
      have ht := ih fun b hb => h b (by simp [hb])
      simp only [List.findIdx?_cons, Function.comp_apply, ht, ha]
  unfold insertUnique
  rw [hfind]
  cases t.findIdx? fun a => decide (key a = key x) with
  | none => simp
  | some i => rfl

/-- Inserting a list into a table adds the elements that are not there. -/
theorem foldl_insertUnique_id (l t : List κ) :
    ∃ new, l.foldl (fun t x => (insertUnique id x t).1) t = t ++ new ∧
      ∀ x, x ∈ new ↔ x ∈ l ∧ x ∉ t := by
  induction l using List.reverseRecOn with
  | nil => exact ⟨[], by simp, by simp⟩
  | append_singleton l x ih =>
    obtain ⟨new, hfold, hnew⟩ := ih
    rw [List.foldl_append, hfold]
    simp only [List.foldl_cons, List.foldl_nil, insertUnique, id]
    split
    · next i hi =>
      obtain ⟨hlt, hx, -⟩ := List.findIdx?_eq_some_iff_getElem.1 hi
      have hmem : x ∈ t ++ new := by
        rw [← of_decide_eq_true hx]
        exact List.getElem_mem hlt
      refine ⟨new, rfl, fun y => ?_⟩
      rw [hnew, List.mem_append, List.mem_singleton]
      refine ⟨fun h => ⟨Or.inl h.1, h.2⟩, ?_⟩
      rintro ⟨hy | rfl, hyt⟩
      · exact ⟨hy, hyt⟩
      · exact (hnew y).1 ((List.mem_append.1 hmem).resolve_left hyt)
    · next hnone =>
      have hmem : x ∉ t ++ new := fun h => by
        have := List.findIdx?_eq_none_iff.1 hnone x h
        simp at this
      refine ⟨new ++ [x], by rw [List.append_assoc], fun y => ?_⟩
      rw [List.mem_append, hnew, List.mem_append, List.mem_singleton]
      constructor
      · rintro (⟨hy, hyt⟩ | rfl)
        · exact ⟨Or.inl hy, hyt⟩
        · exact ⟨Or.inr rfl, fun h => hmem (List.mem_append_left _ h)⟩
      · rintro ⟨hy | rfl, hyt⟩
        · exact Or.inl ⟨hy, hyt⟩
        · exact Or.inr rfl

theorem keepFirst_nodup (key : α → κ) (l : List α) : ((keepFirst key l).map key).Nodup :=
  (keepFirst_tracks key l).unique

theorem keepFirst_sublist (key : α → κ) (l : List α) : (keepFirst key l).Sublist l := by
  induction l using List.reverseRecOn with
  | nil => exact .refl _
  | append_singleton l x ih =>
    rw [keepFirst_concat]
    unfold insertUnique
    split
    · exact ih.trans (List.sublist_append_left l [x])
    · exact ih.append_right [x]

theorem keepFirst_eq_self_iff {key : α → κ} {l : List α} :
    keepFirst key l = l ↔ (l.map key).Nodup := by
  constructor
  · intro h
    rw [← h]
    exact keepFirst_nodup key l
  · intro h
    induction l using List.reverseRecOn with
    | nil => rfl
    | append_singleton l x ih =>
      rw [List.map_append, List.nodup_append] at h
      rw [keepFirst_concat, ih h.1, insertUnique]
      have hnone : l.findIdx? (fun a => decide (key a = key x)) = none :=
        List.findIdx?_eq_none_iff.2 fun a ha => decide_eq_false fun hax =>
          h.2.2 _ (List.mem_map_of_mem ha) _ (by simp) hax
      rw [hnone]

theorem keepFirst_injective {κ' : Type*} [DecidableEq κ'] {f : κ → κ'} (hf : Function.Injective f)
    (key : α → κ) (l : List α) : keepFirst (fun a => f (key a)) l = keepFirst key l := by
  induction l using List.reverseRecOn with
  | nil => rfl
  | append_singleton l x ih =>
    rw [keepFirst_concat, keepFirst_concat, ih]
    simp only [insertUnique, hf.eq_iff]

/-- Rows under keys that a table does not have. -/
theorem foldl_insertUnique_fresh {key : α → κ} {l t : List α}
    (h : ∀ x ∈ l, ∀ a ∈ t, key a ≠ key x) :
    l.foldl (fun t x => (insertUnique key x t).1) t = t ++ keepFirst key l := by
  induction l using List.reverseRecOn with
  | nil => simp [keepFirst]
  | append_singleton l x ih =>
    have hx := h x (by simp)
    rw [List.foldl_append, ih fun y hy => h y (List.mem_append_left _ hy), keepFirst_concat]
    simp only [List.foldl_cons, List.foldl_nil, insertUnique, List.findIdx?_append]
    have hnone : t.findIdx? (fun a => decide (key a = key x)) = none :=
      List.findIdx?_eq_none_iff.2 fun a ha => decide_eq_false (hx a ha)
    rw [hnone, Option.none_or]
    cases (keepFirst key l).findIdx? fun a => decide (key a = key x) with
    | none => simp
    | some i => simp

/-- Rows under keys that a table has. -/
theorem foldl_insertUnique_present {key : α → κ} {l t : List α}
    (h : ∀ x ∈ l, ∃ a ∈ t, key a = key x) :
    l.foldl (fun t x => (insertUnique key x t).1) t = t := by
  induction l with
  | nil => rfl
  | cons x l ih =>
    obtain ⟨a, ha, hkey⟩ := h x List.mem_cons_self
    have hx : (insertUnique key x t).1 = t := by
      unfold insertUnique
      split
      · rfl
      · next hnone =>
        have := List.findIdx?_eq_none_iff.1 hnone a ha
        rw [hkey] at this
        simp at this
    rw [List.foldl_cons, hx]
    exact ih fun y hy => h y (List.mem_cons_of_mem _ hy)

omit [DecidableEq κ] in
/-- Numbered rows have keys of their own. -/
theorem nodup_map_zipIdx (i : κ) (l : List α) : (l.zipIdx.map fun x => (i, x.2)).Nodup := by
  have hmap : (l.zipIdx.map fun x => (i, x.2)) = (l.zipIdx.map Prod.snd).map (Prod.mk i) :=
    List.map_map.symm
  rw [hmap, List.zipIdx_map_snd]
  exact List.Nodup.map (fun _ _ h => (Prod.mk.inj h).2) List.nodup_range'

/-- Keeping the first of each key is a matter of the keys alone. -/
theorem keepFirst_map (key : β → κ) (g : α → β) (l : List α) :
    keepFirst key (l.map g) = (keepFirst (fun a => key (g a)) l).map g := by
  induction l using List.reverseRecOn with
  | nil => rfl
  | append_singleton l x ih =>
    rw [List.map_append, List.map_singleton, keepFirst_concat, keepFirst_concat, ih]
    exact insertUnique_map _ key g x _ fun _ _ => Iff.rfl

end Inim.Lib
