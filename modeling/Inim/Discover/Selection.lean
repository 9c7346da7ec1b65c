import Inim.Discover.Select
import Inim.Lib.Guards

/-!
# What is selected, and where the selection panics (`discover.rs:179-266`)

The lengths of the date and time fields are counted in bytes and both are cut at fixed bytes. A date
such as `日日20` has eight bytes and no character ends after the fourth, so the program stops there.
Apart from that the selection is what it should be.

| here | there |
| --- | --- |
| `stampFields`   | the parts before the extension, if they have the lengths of a stamp |
| `StampCuts`     | the cuts of `discover.rs:260-264` that are reached fall between characters |
| `SelectionLaw`  | the selected URLs: in order, once each, exactly the ones in the window |
-/

namespace Inim

open Std Inim.Lib

/-! ## Cutting at bytes -/

theorem byteLength_cons (c : Char) (cs : List Char) :
    byteLength (c :: cs) = c.utf8Size + byteLength cs := by
  simp [byteLength]

theorem byteLength_append (cs ds : List Char) :
    byteLength (cs ++ ds) = byteLength cs + byteLength ds := by
  simp [byteLength]

theorem byteLength_eq_zero {cs : List Char} : byteLength cs = 0 ↔ cs = [] := by
  cases cs with
  | nil => exact iff_of_true rfl rfl
  | cons c cs =>
    have hpos := c.utf8Size_pos
    rw [byteLength_cons]
    exact iff_of_false (by omega) (by simp)

/-- A text is cut at byte `n` where a character ends there. -/
theorem splitBytes_eq_some {n : Nat} {cs a b : List Char} :
    splitBytes n cs = some (a, b) ↔ cs = a ++ b ∧ byteLength a = n := by
  induction cs generalizing n a with
  | nil =>
    cases n with
    | zero =>
      rw [splitBytes, Option.some.injEq, Prod.mk.injEq, byteLength_eq_zero]
      constructor
      · rintro ⟨rfl, rfl⟩
        exact ⟨rfl, rfl⟩
      · rintro ⟨h, rfl⟩
        exact ⟨rfl, h⟩
    | succ n =>
      refine iff_of_false (by simp [splitBytes]) ?_
      rintro ⟨h, hlen⟩
      obtain ⟨rfl, -⟩ := List.append_eq_nil_iff.1 h.symm
      cases hlen
  | cons c cs ih =>
    cases n with
    | zero =>
      rw [splitBytes, Option.some.injEq, Prod.mk.injEq, byteLength_eq_zero]
      constructor
      · rintro ⟨rfl, rfl⟩
        exact ⟨rfl, rfl⟩
      · rintro ⟨h, rfl⟩
        exact ⟨rfl, h⟩
    | succ n =>
      have hpos := c.utf8Size_pos
      rw [splitBytes]
      split
      · rename_i hle
        rw [Option.map_eq_some_iff]
        constructor
        · rintro ⟨⟨a', b'⟩, hsplit, heq⟩
          obtain ⟨rfl, rfl⟩ : c :: a' = a ∧ b' = b := Prod.mk.inj heq
          obtain ⟨rfl, hlen⟩ := ih.1 hsplit
          exact ⟨rfl, by rw [byteLength_cons]; omega⟩
        · rintro ⟨h, hlen⟩
          cases a with
          | nil => cases hlen
          | cons c' a =>
            obtain ⟨rfl, rfl⟩ := List.cons.inj h
            rw [byteLength_cons] at hlen
            exact ⟨(a, b), ih.2 ⟨rfl, by omega⟩, rfl⟩
      · rename_i hgt
        refine iff_of_false (by simp) ?_
        rintro ⟨h, hlen⟩
        cases a with
        | nil => cases hlen
        | cons c' a =>
          obtain ⟨rfl, rfl⟩ := List.cons.inj h
          rw [byteLength_cons] at hlen
          omega

theorem splitBytes_append {n : Nat} {a : List Char} (b : List Char) (h : byteLength a = n) :
    splitBytes n (a ++ b) = some (a, b) :=
  splitBytes_eq_some.2 ⟨rfl, h⟩

theorem sliceBytes_append {i j : Nat} {a : List Char} (b : List Char) (h : byteLength a = i) :
    sliceBytes i j (a ++ b) = (splitBytes (j - i) b).map (·.1) := by
  rw [sliceBytes, splitBytes_append b h]
  cases h : splitBytes (j - i) b <;> simp [h]

theorem sliceBytes_zero (n : Nat) (cs : List Char) :
    sliceBytes 0 n cs = (splitBytes n cs).map (·.1) :=
  sliceBytes_append (a := []) cs rfl

/-! ## The timestamp of a file name -/

/-- Date and time of `….YYYYMMDD.HHMM.ext`, by their lengths. -/
def stampFields (url : String) : Option (List Char × List Char) :=
  match fileName url.toList with
  | none => none
  | some name =>
    let parts := name.splitOn '.'
    let date := parts.getD (parts.length - 3) []
    let time := parts.getD (parts.length - 2) []
    if 3 ≤ parts.length ∧ byteLength date = 8 ∧ byteLength time = 4 then some (date, time) else none

/-- The year is cut off the date, then month and day, then the hour off the time; each cut is only
made when what was cut before it is a number. -/
def StampCuts (date time : List Char) : Prop :=
  ∃ year rest, date = year ++ rest ∧ byteLength year = 4 ∧
    ((parseI32 year).isSome → ∃ month day, rest = month ++ day ∧ byteLength month = 2 ∧
      ((parseU32 month).isSome → (parseU32 day).isSome →
        ∃ hour min, time = hour ++ min ∧ byteLength hour = 2))

/-- A timestamp can be looked for in the name. -/
def StampReadable (url : String) : Prop :=
  ∀ date time, stampFields url = some (date, time) → StampCuts date time

/-- What `filenameTimestamp` does with the fields. -/
def fieldsTimestamp (date time : List Char) : Option (Option DateTime) :=
  withField parseI32 date 0 4 fun year =>
  withField parseU32 date 4 6 fun month =>
  withField parseU32 date 6 8 fun day =>
  withField parseU32 time 0 2 fun hour =>
  withField parseU32 time 2 4 fun min =>
  some (utcTimestamp year month day hour min)

theorem filenameTimestamp_eq (url : String) : filenameTimestamp url =
    (stampFields url).elim (some none) fun f => fieldsTimestamp f.1 f.2 := by
  unfold filenameTimestamp stampFields
  cases fileName url.toList with
  | none => rfl
  | some name =>
    dsimp only
    generalize name.splitOn '.' = parts
    by_cases hparts : parts.length < 3
    · rw [if_pos hparts, if_neg fun h => absurd h.1 (Nat.not_le.2 hparts)]
      rfl
    · rw [if_neg hparts]
      by_cases hlen : byteLength (parts.getD (parts.length - 3) []) = 8 ∧
          byteLength (parts.getD (parts.length - 2) []) = 4
      · rw [if_neg (by rwa [← not_and_or, not_not]), if_pos ⟨Nat.not_lt.1 hparts, hlen⟩]
        rfl
      · rw [if_pos (by rwa [← not_and_or]), if_neg fun h => hlen h.2]
        rfl

/-- A field that does not parse ends the function, a cut inside a character does too. -/
theorem withField_isSome_iff {parse : List Char → Option α} {cs : List Char} {a b : Nat}
    {rest : α → Option (Option β)} {field : List Char} (h : sliceBytes a b cs = some field) :
    (withField parse cs a b rest).isSome ↔ ∀ v, parse field = some v → (rest v).isSome := by
  rw [withField, h]
  dsimp only
  cases parse field with
  | none => simp
  | some v => simp

theorem withField_of_none {parse : List Char → Option α} {cs : List Char} {a b : Nat}
    {rest : α → Option (Option β)} (h : sliceBytes a b cs = none) :
    withField parse cs a b rest = none := by
  rw [withField, h]

section
variable {date time : List Char}

/-- The hour is followed by two more bytes. -/
theorem hourCut_iff (htime : byteLength time = 4) (rest : Nat → Nat → Option DateTime) :
    (withField parseU32 time 0 2 fun hour =>
      withField parseU32 time 2 4 fun min => some (rest hour min)).isSome ↔
        ∃ hour min, time = hour ++ min ∧ byteLength hour = 2 := by
  cases hsplit : splitBytes 2 time with
  | none =>
    refine iff_of_false ?_ ?_
    · rw [withField_of_none (by rw [sliceBytes_zero, hsplit]; rfl)]
      exact Bool.false_ne_true
    · rintro ⟨hour, min, rfl, hlen⟩
      rw [splitBytes_append min hlen] at hsplit
      cases hsplit
  | some p =>
    obtain ⟨rfl, hlen⟩ := splitBytes_eq_some.1 hsplit
    refine iff_of_true ?_ ⟨p.1, p.2, rfl, hlen⟩
    rw [byteLength_append, hlen] at htime
    have hmin : splitBytes 2 (p.2 ++ []) = some (p.2, []) := splitBytes_append [] (by omega)
    rw [List.append_nil] at hmin
    rw [withField_isSome_iff (by rw [sliceBytes_zero, hsplit]; rfl)]
    intro hour _
    rw [withField_isSome_iff (by rw [sliceBytes_append p.2 hlen, hmin]; rfl)]
    exact fun _ _ => rfl

theorem monthCut_iff {year rest : List Char} (hyear : byteLength year = 4)
    (hrest : byteLength rest = 4) (next : Nat → Nat → Option (Option DateTime)) :
    (withField parseU32 (year ++ rest) 4 6 fun month =>
      withField parseU32 (year ++ rest) 6 8 fun day => next month day).isSome ↔
        ∃ month day, rest = month ++ day ∧ byteLength month = 2 ∧
          ∀ m d, parseU32 month = some m → parseU32 day = some d → (next m d).isSome := by
  cases hsplit : splitBytes 2 rest with
  | none =>
    refine iff_of_false ?_ ?_
    · rw [withField_of_none (by rw [sliceBytes_append rest hyear, hsplit]; rfl)]
      exact Bool.false_ne_true
    · rintro ⟨month, day, rfl, hlen, -⟩
      rw [splitBytes_append day hlen] at hsplit
      cases hsplit
  | some p =>
    obtain ⟨month, day⟩ := p
    obtain ⟨rfl, hlen⟩ := splitBytes_eq_some.1 hsplit
    rw [byteLength_append, hlen] at hrest
    have hday : sliceBytes 6 8 (year ++ (month ++ day)) = some day := by
      have hlast : splitBytes 2 (day ++ []) = some (day, []) := splitBytes_append [] (by omega)
      rw [List.append_nil] at hlast
      rw [← List.append_assoc, sliceBytes_append day (by rw [byteLength_append, hyear, hlen]), hlast]
      rfl
    rw [withField_isSome_iff (by rw [sliceBytes_append _ hyear, hsplit]; rfl)]
    constructor
    · intro h
      exact ⟨month, day, rfl, hlen, fun m d hm hd => (withField_isSome_iff hday).1 (h m hm) d hd⟩
    · rintro ⟨month', day', heq, hlen', h⟩ m hm
      have hsame := hsplit.symm.trans (splitBytes_eq_some.2 ⟨heq, hlen'⟩)
      obtain ⟨rfl, rfl⟩ := Prod.mk.inj (Option.some.inj hsame)
      exact (withField_isSome_iff hday).2 fun d hd => h m d hm hd

/-- The fields are cut one after the other. -/
theorem fieldsTimestamp_isSome_iff (hdate : byteLength date = 8) (htime : byteLength time = 4) :
    (fieldsTimestamp date time).isSome ↔ StampCuts date time := by
  rw [fieldsTimestamp]
  cases hyear : splitBytes 4 date with
  | none =>
    refine iff_of_false ?_ ?_
    · rw [withField_of_none (by rw [sliceBytes_zero, hyear]; rfl)]
      exact Bool.false_ne_true
    · rintro ⟨year, rest, rfl, hlen, -⟩
      rw [splitBytes_append rest hlen] at hyear
      cases hyear
  | some p =>
    obtain ⟨year, rest⟩ := p
    obtain ⟨rfl, hlen⟩ := splitBytes_eq_some.1 hyear
    rw [byteLength_append, hlen] at hdate
    have hrest : byteLength rest = 4 := by omega
    rw [withField_isSome_iff (by rw [sliceBytes_zero, hyear]; rfl)]
    have hinner (y : Int) := monthCut_iff hlen hrest fun month day =>
      withField parseU32 time 0 2 fun hour =>
      withField parseU32 time 2 4 fun min => some (utcTimestamp y month day hour min)
    constructor
    · intro h
      refine ⟨year, rest, rfl, hlen, fun hy => ?_⟩
      obtain ⟨y, hy⟩ := Option.isSome_iff_exists.1 hy
      obtain ⟨month, day, hcat, hmonth, hnext⟩ := (hinner y).1 (h y hy)
      refine ⟨month, day, hcat, hmonth, fun hm hd => ?_⟩
      obtain ⟨m, hm⟩ := Option.isSome_iff_exists.1 hm
      obtain ⟨d, hd⟩ := Option.isSome_iff_exists.1 hd
      exact (hourCut_iff htime _).1 (hnext m d hm hd)
    · rintro ⟨year', rest', heq, hlen', h⟩ y hy
      have hsame := hyear.symm.trans (splitBytes_eq_some.2 ⟨heq, hlen'⟩)
      obtain ⟨rfl, rfl⟩ := Prod.mk.inj (Option.some.inj hsame)
      obtain ⟨month, day, hcat, hmonth, hcut⟩ := h (Option.isSome_iff_exists.2 ⟨y, hy⟩)
      refine (hinner y).2 ⟨month, day, hcat, hmonth, fun m d hm hd => ?_⟩
      exact (hourCut_iff htime _).2
        (hcut (Option.isSome_iff_exists.2 ⟨m, hm⟩) (Option.isSome_iff_exists.2 ⟨d, hd⟩))

end

theorem stampFields_length {url : String} {date time : List Char}
    (h : stampFields url = some (date, time)) : byteLength date = 8 ∧ byteLength time = 4 := by
  unfold stampFields at h
  cases hname : fileName url.toList with
  | none =>
    rw [hname] at h
    cases h
  | some name =>
    rw [hname] at h
    obtain ⟨hlen, heq⟩ := Option.ite_none_right_eq_some.1 h
    obtain ⟨rfl, rfl⟩ := Prod.mk.inj (Option.some.inj heq)
    exact hlen.2

theorem filenameTimestamp_isSome_iff (url : String) :
    (filenameTimestamp url).isSome ↔ StampReadable url := by
  rw [filenameTimestamp_eq, StampReadable]
  cases hf : stampFields url with
  | none => exact iff_of_true rfl (by simp)
  | some f =>
    obtain ⟨hdate, htime⟩ := stampFields_length (hf.trans (congrArg some (Prod.eta f).symm))
    refine (fieldsTimestamp_isSome_iff hdate htime).trans ⟨?_, fun h => h f.1 f.2 rfl⟩
    intro h date time heq
    obtain rfl := Option.some.inj heq
    exact h

/-! ## The selection -/

/-- `a` starts before `b`, or with it and has the smaller URL. -/
def ArchiveItem.Earlier (a b : ArchiveItem) : Prop :=
  ∃ s t, canonicalTsStart a = some s ∧ canonicalTsStart b = some t ∧ (s < t ∨ s = t ∧ a.url < b.url)

/-- `item` is an UPDATE archive with its start in the window. -/
def ArchiveItem.InWindow (ribTimestamp cooldownEnd : DateTime) (item : ArchiveItem) : Prop :=
  item.dataType = "updates" ∧ ∃ t, canonicalTsStart item = some t ∧
    ribTimestamp - minutes updateCadenceToleranceMinutes ≤ t ∧ t ≤ cooldownEnd

/-- The selection returns, in order and without duplicates, the URLs of the window, and the same ones
for every arrangement of the items. -/
def SelectionLaw (items : List ArchiveItem) (ribTimestamp cooldownEnd : DateTime) : Prop :=
  ∃ selected, selectUpdates items ribTimestamp cooldownEnd = some selected ∧
    selected.Pairwise ArchiveItem.Earlier ∧ (selected.map (·.url)).Nodup ∧
    (∀ url, url ∈ selected.map (·.url) ↔
      ∃ item ∈ items, item.InWindow ribTimestamp cooldownEnd ∧ item.url = url) ∧
    ∀ items', items'.Perm items → ∃ selected',
      selectUpdates items' ribTimestamp cooldownEnd = some selected' ∧
        selected'.map (·.url) = selected.map (·.url)

theorem canonicalTsStart_isSome_iff (item : ArchiveItem) :
    (canonicalTsStart item).isSome ↔ StampReadable item.url := by
  rw [← filenameTimestamp_isSome_iff, canonicalTsStart]
  cases filenameTimestamp item.url with
  | none => rfl
  | some ft =>
    refine iff_of_true ?_ rfl
    cases ft with
    | none => rfl
    | some t =>
      dsimp only
      split <;> rfl

/-- Start and URL, what the selection orders by. -/
def stampKey (p : DateTime × ArchiveItem) : DateTime × String := (p.1, p.2.url)

def stampOrder : DateTime × String → DateTime × String → Ordering :=
  compareLex (compareOn (·.1)) (compareOn (·.2))

instance : TransCmp stampOrder := inferInstanceAs (TransCmp (compareLex (compareOn _) (compareOn _)))

instance : LawfulEqCmp stampOrder where
  eq_of_compare {a b} h := by
    simp only [stampOrder, compareLex_eq_eq, compareOn, LawfulEqCmp.compare_eq_iff_eq] at h
    exact Prod.ext h.1 h.2

/-- The comparison of `discover.rs:201-205`. -/
def stampedOrder : DateTime × ArchiveItem → DateTime × ArchiveItem → Ordering :=
  compareLex (compareOn (·.1)) (compareOn (·.2.url))

instance : TransCmp stampedOrder :=
  inferInstanceAs (TransCmp (compareLex (compareOn _) (compareOn _)))

/-- The items with their starts, in the window. -/
def stampedInside (items : List ArchiveItem) (ribTimestamp cooldownEnd : DateTime) :
    List (DateTime × ArchiveItem) :=
  ((items.filter (·.dataType = "updates")).filterMap fun item =>
    (canonicalTsStart item).map (·, item)).filter fun p =>
      ribTimestamp - minutes updateCadenceToleranceMinutes ≤ p.1 ∧ p.1 ≤ cooldownEnd

section
variable {items : List ArchiveItem} {ribTimestamp cooldownEnd : DateTime}

theorem selectStamped_eq
    (h : ∀ item ∈ items, item.dataType = "updates" → StampReadable item.url) :
    selectStamped items ribTimestamp cooldownEnd =
      some (keepFirst (·.2.url) (sortBy stampedOrder
        (stampedInside items ribTimestamp cooldownEnd))) := by
  have hall : ∀ item ∈ items.filter (·.dataType = "updates"),
      (canonicalTsStart item).map (·, item) ≠ none := by
    intro item hitem
    obtain ⟨hmem, htype⟩ := List.mem_filter.1 hitem
    have hread := h item hmem (of_decide_eq_true htype)
    obtain ⟨t, ht⟩ := Option.isSome_iff_exists.1 ((canonicalTsStart_isSome_iff item).2 hread)
    rw [ht]
    exact Option.some_ne_none _
  rw [selectStamped, mapM_eq_filterMap hall]
  rfl

theorem mem_stampedInside {p : DateTime × ArchiveItem} :
    p ∈ stampedInside items ribTimestamp cooldownEnd ↔
      p.2 ∈ items ∧ p.2.dataType = "updates" ∧ canonicalTsStart p.2 = some p.1 ∧
        ribTimestamp - minutes updateCadenceToleranceMinutes ≤ p.1 ∧ p.1 ≤ cooldownEnd := by
  rw [stampedInside, List.mem_filter, List.mem_filterMap]
  constructor
  · rintro ⟨⟨item, hitem, hmap⟩, hin⟩
    obtain ⟨t, ht, rfl⟩ := Option.map_eq_some_iff.1 hmap
    obtain ⟨hmem, htype⟩ := List.mem_filter.1 hitem
    exact ⟨hmem, of_decide_eq_true htype, ht, of_decide_eq_true hin⟩
  · rintro ⟨hmem, htype, ht, hin⟩
    refine ⟨⟨p.2, List.mem_filter.2 ⟨hmem, decide_eq_true htype⟩, ?_⟩, decide_eq_true hin⟩
    rw [ht]
    rfl

/-- Start and URL of what is selected depend on the items and not on their arrangement. -/
theorem selected_keys_perm {items' : List ArchiveItem} (hp : items'.Perm items) :
    (keepFirst (·.2.url) (sortBy stampedOrder
        (stampedInside items' ribTimestamp cooldownEnd))).map stampKey =
      (keepFirst (·.2.url) (sortBy stampedOrder
        (stampedInside items ribTimestamp cooldownEnd))).map stampKey := by
  have hkeep := fun l : List (DateTime × ArchiveItem) =>
    keepFirst_map (fun k : DateTime × String => k.2) stampKey l
  have hinside : (stampedInside items' ribTimestamp cooldownEnd).Perm
      (stampedInside items ribTimestamp cooldownEnd) :=
    ((hp.filter _).filterMap _).filter _
  have hsort : sortBy stampOrder ((stampedInside items' ribTimestamp cooldownEnd).map stampKey) =
      sortBy stampOrder ((stampedInside items ribTimestamp cooldownEnd).map stampKey) :=
    sortBy_eq_of_perm (hinside.map stampKey) fun _ _ _ _ heq => LawfulEqCmp.eq_of_compare heq
  rw [sortBy_map, sortBy_map] at hsort
  -- comparing the keys is `stampedOrder`
  exact (hkeep _).symm.trans ((congrArg _ hsort).trans (hkeep _))

theorem before_of_stampedOrder {p q : DateTime × ArchiveItem} (hle : CmpLE stampedOrder p q)
    (hne : p.2.url ≠ q.2.url) : p.1 < q.1 ∨ p.1 = q.1 ∧ p.2.url < q.2.url := by
  rw [CmpLE, stampedOrder, compareLex, compareOn, compareOn] at hle
  rcases hts : compare p.1 q.1 with _ | _ | _
  · exact Or.inl (compare_lt_iff_lt.1 hts)
  · refine Or.inr ⟨LawfulEqCmp.eq_of_compare hts, ?_⟩
    rw [hts, Ordering.eq_then] at hle
    rcases hurl : compare p.2.url q.2.url with _ | _ | _
    · exact compare_lt_iff_lt.1 hurl
    · exact absurd (LawfulEqCmp.eq_of_compare hurl) hne
    · rw [hurl] at hle
      cases hle
  · rw [hts] at hle
    cases hle

theorem selectionLaw_of_readable
    (h : ∀ item ∈ items, item.dataType = "updates" → StampReadable item.url) :
    SelectionLaw items ribTimestamp cooldownEnd := by
  set sorted := sortBy stampedOrder
    (stampedInside items ribTimestamp cooldownEnd) with hsorted
  have hmem {p : DateTime × ArchiveItem} : p ∈ sorted ↔
      p ∈ stampedInside items ribTimestamp cooldownEnd := mem_sortBy
  have hsub := keepFirst_sublist (fun p : DateTime × ArchiveItem => p.2.url) sorted
  have hnodup := keepFirst_nodup (fun p : DateTime × ArchiveItem => p.2.url) sorted
  have hurls (l : List (DateTime × ArchiveItem)) :
      (l.map (·.2)).map (·.url) = (l.map stampKey).map (·.2) := by
    rw [List.map_map, List.map_map]
    rfl
  refine ⟨_, by rw [selectUpdates, selectStamped_eq h]; rfl, ?_, ?_, ?_, ?_⟩
  · -- the order is by start and URL, and no URL comes twice
    have hle : sorted.Pairwise (CmpLE stampedOrder) := sortBy_pairwise _
    rw [List.pairwise_map]
    refine ((hle.sublist hsub).and (List.pairwise_map.1 hnodup)).imp_of_mem ?_
    rintro p q hp hq ⟨hpq, hne⟩
    obtain ⟨-, -, hs, -⟩ := mem_stampedInside.1 (hmem.1 (hsub.subset hp))
    obtain ⟨-, -, ht, -⟩ := mem_stampedInside.1 (hmem.1 (hsub.subset hq))
    exact ⟨p.1, q.1, hs, ht, before_of_stampedOrder hpq hne⟩
  · rwa [List.map_map]
  · intro url
    rw [List.map_map, List.mem_map]
    constructor
    · rintro ⟨p, hp, rfl⟩
      obtain ⟨hitem, htype, hts, hin⟩ := mem_stampedInside.1 (hmem.1 (hsub.subset hp))
      exact ⟨p.2, hitem, ⟨htype, p.1, hts, hin⟩, rfl⟩
    · rintro ⟨item, hitem, ⟨htype, t, hts, hin⟩, rfl⟩
      have hp : (t, item) ∈ sorted := hmem.2 (mem_stampedInside.2 ⟨hitem, htype, hts, hin⟩)
      exact ⟨_, mem_keepFirst.2 ⟨_, hp, rfl⟩, firstLike_key _ _ _⟩
  · intro items' hp
    refine ⟨_, by
      rw [selectUpdates, selectStamped_eq fun item hitem => h item (hp.mem_iff.1 hitem)]; rfl, ?_⟩
    rw [hurls, hurls, selected_keys_perm hp]

/-- The selection is right unless it panics, and where it and the timestamp of a name panic. -/
theorem selection_iff (items : List ArchiveItem) (ribTimestamp cooldownEnd : DateTime) (url : String) :
    (SelectionLaw items ribTimestamp cooldownEnd ↔
        ∀ item ∈ items, item.dataType = "updates" → StampReadable item.url) ∧
      ((filenameTimestamp url).isSome ↔ StampReadable url) := by
  refine ⟨⟨?_, selectionLaw_of_readable⟩, filenameTimestamp_isSome_iff url⟩
  rintro ⟨selected, hsel, -⟩ item hitem htype
  have hmap : ((items.filter (·.dataType = "updates")).mapM fun item =>
      (canonicalTsStart item).map (·, item)).isSome := by
    rw [selectUpdates, selectStamped] at hsel
    by_contra hnone
    rw [Option.not_isSome_iff_eq_none.1 hnone] at hsel
    cases hsel
  have hsome := mapM_isSome.1 hmap item (List.mem_filter.2 ⟨hitem, decide_eq_true htype⟩)
  refine (canonicalTsStart_isSome_iff item).1 (Option.isSome_iff_ne_none.2 fun hnone => hsome ?_)
  rw [hnone]
  rfl

end

/-! ## A run -/

/-- The second character of the date covers the bytes 3 to 5. -/
def wideDateItem : ArchiveItem where
  project := "riperis"
  collectorId := "rrc00"
  dataType := "updates"
  tsStart := 0
  tsEnd := 0
  url := "https://h/updates.日日20.0000.gz"
  size := 1

example : filenameTimestamp "https://h/rrc00/updates.19700101.0005.gz" = some (some (minutes 5)) := by
  decide +kernel

/-- **Bug**: the selection and the timestamp of the name panic. -/
theorem wide_date_panics :
    filenameTimestamp wideDateItem.url = none ∧
      ¬ ∀ (items : List ArchiveItem) (ribTimestamp cooldownEnd : DateTime),
        SelectionLaw items ribTimestamp cooldownEnd := by
  refine ⟨by decide +kernel, fun h => ?_⟩
  obtain ⟨selected, hsel, -⟩ := h [wideDateItem] 0 0
  have hnone : selectUpdates [wideDateItem] 0 0 = none := by decide +kernel
  rw [hnone] at hsel
  cases hsel

end Inim
