import Inim.Catalog.ArchivePlan
import Inim.Discover.Selection
import Inim.Lib.Joined
/-!
# Names of archive files (`catalog/archive_plan.rs:197-278`, `discover.rs:249-266`)

The planner writes the slot of a file into its name and the executor reads it back. The two agree
(`filenameTimestamp_archiveUrlFor`): the directories do not matter, and a year of four digits is what
makes the date eight bytes long. So the names of a collector tell the slots apart and are in the order
of time, and no plan lists a file twice.

| here | there |
| --- | --- |
| `OnGrid`, `FourDigitYear` | the slots the names are made for |
| `urlDir`, `urlName`       | a URL before and after its last slash |
-/

namespace Inim

open Lib

/-! ## Reading digits -/

theorem parseDigits_of_digits {cs : List Char} (hne : cs ≠ []) (h : ∀ c ∈ cs, c.isDigit = true) :
    parseDigits cs = some (Nat.ofDigitChars 10 cs 0) := by
  have hany : cs.any (fun c => !c.isDigit) = false := by
    simpa using h
  rw [parseDigits, hany, Nat.ofDigitChars_eq_foldl]
  simp [hne]

theorem padZero_ne_nil (w n : Nat) : padZero w n ≠ [] := by
  have hpos := @Nat.length_toDigits_pos 10 n
  intro h
  rw [padZero, List.append_eq_nil_iff] at h
  rw [h.2] at hpos
  exact absurd hpos (by decide)

theorem parseU32_padZero (w n : Nat) : parseU32 (padZero w n) = some n := by
  have hdigits := padZero_digits w n
  have hparse := parseDigits_of_digits (padZero_ne_nil w n) hdigits
  rw [padZero_value] at hparse
  unfold parseU32
  split
  · next cs heq =>
    rw [heq] at hdigits
    exact absurd (hdigits '+' List.mem_cons_self) (by decide)
  · exact hparse

theorem parseI32_padZero (w n : Nat) : parseI32 (padZero w n) = some (n : Int) := by
  unfold parseI32
  split
  · next cs heq =>
    have hdigits := padZero_digits w n
    rw [heq] at hdigits
    exact absurd (hdigits '-' List.mem_cons_self) (by decide)
  · rw [parseU32_padZero]
    rfl

theorem byteLength_digits {cs : List Char} (h : ∀ c ∈ cs, c.isDigit = true) :
    byteLength cs = cs.length := by
  induction cs with
  | nil => rfl
  | cons c cs ih =>
    have hc := utf8Size_digit (h c List.mem_cons_self)
    rw [byteLength_cons, hc, ih fun d hd => h d (List.mem_cons_of_mem _ hd), List.length_cons]
    omega

theorem byteLength_padZero {w n : Nat} (hw : 0 < w) (h : n < 10 ^ w) : byteLength (padZero w n) = w := by
  rw [byteLength_digits (padZero_digits w n), padZero_length hw h]

theorem sliceBytes_middle {i j : Nat} {a b : List Char} (c : List Char) (ha : byteLength a = i)
    (hb : byteLength b = j - i) : sliceBytes i j (a ++ (b ++ c)) = some b := by
  rw [sliceBytes_append _ ha, splitBytes_append c hb]
  rfl

/-! ## Times -/

theorem hourOf_lt (t : DateTime) : hourOf t < 24 := by
  unfold hourOf
  omega

theorem minuteOf_lt (t : DateTime) : minuteOf t < 60 := by
  unfold minuteOf
  omega

/-- A slot on the minute, from its parts. -/
theorem time_of_parts {t : DateTime} (h : t % minuteNanos = 0) :
    ((dateOf t).days * 86400 + hourOf t * 3600 + minuteOf t * 60) * 1000000000 = t := by
  rw [dateOf, CivilDate.days_ofDays]
  simp only [hourOf, minuteOf, hourNanos, minuteNanos, DateTime] at *
  omega

theorem minuteOf_hour {t : DateTime} (h : t % hourNanos = 0) : minuteOf t = 0 := by
  simp only [minuteOf, hourNanos, minuteNanos, DateTime] at *
  omega

theorem utcTimestamp_parts {t : DateTime} (h : t % minuteNanos = 0) :
    utcTimestamp (dateOf t).year (dateOf t).month (dateOf t).day (hourOf t) (minuteOf t) = some t := by
  have hm := (dateOf t).month_mem
  have hd := (dateOf t).day_mem
  have hparts := time_of_parts h
  unfold utcTimestamp
  rw [if_pos ⟨hm.1, hm.2, hd.1, hd.2, hourOf_lt t, minuteOf_lt t⟩]
  exact congrArg some hparts

/-- Four, two and two digits, and two and two. -/
theorem fieldsTimestamp_padZero {y m d hour min : Nat} (hy : y < 10 ^ 4) (hm : m < 10 ^ 2)
    (hd : d < 10 ^ 2) (hh : hour < 10 ^ 2) (hmin : min < 10 ^ 2) :
    fieldsTimestamp (padZero 4 y ++ (padZero 2 m ++ padZero 2 d)) (padZero 2 hour ++ padZero 2 min) =
      some (utcTimestamp y m d hour min) := by
  have hy4 := byteLength_padZero (by decide) hy
  have hm2 := byteLength_padZero (by decide) hm
  have hd2 := byteLength_padZero (by decide) hd
  have hh2 := byteLength_padZero (by decide) hh
  have hmin2 := byteLength_padZero (by decide) hmin
  have hmonth : sliceBytes 4 6 (padZero 4 y ++ (padZero 2 m ++ padZero 2 d)) = some (padZero 2 m) :=
    sliceBytes_middle _ hy4 hm2
  have hday : sliceBytes 6 8 (padZero 4 y ++ (padZero 2 m ++ padZero 2 d)) = some (padZero 2 d) := by
    have h := @sliceBytes_middle 6 8 (padZero 4 y ++ padZero 2 m) (padZero 2 d) []
      (by rw [byteLength_append, hy4, hm2]) hd2
    rwa [List.append_nil, List.append_assoc] at h
  have hmin' : sliceBytes 2 4 (padZero 2 hour ++ padZero 2 min) = some (padZero 2 min) := by
    have h := @sliceBytes_middle 2 4 (padZero 2 hour) (padZero 2 min) [] hh2 hmin2
    rwa [List.append_nil] at h
  have hyear : sliceBytes 0 4 (padZero 4 y ++ (padZero 2 m ++ padZero 2 d)) = some (padZero 4 y) :=
    @sliceBytes_middle 0 4 [] _ _ rfl hy4
  have hhour : sliceBytes 0 2 (padZero 2 hour ++ padZero 2 min) = some (padZero 2 hour) :=
    @sliceBytes_middle 0 2 [] _ _ rfl hh2
  simp only [fieldsTimestamp, withField, hyear, hmonth, hday, hhour, hmin', parseI32_padZero,
    parseU32_padZero]

/-! ## Names -/

/-- The slots a kind of file is named by. -/
def OnGrid (kind : String) (t : DateTime) : Prop :=
  kind = "RIBS" ∧ t % hourNanos = 0 ∨ kind = "UPDATES" ∧ t % minuteNanos = 0

def FourDigitYear (t : DateTime) : Prop := 0 ≤ (dateOf t).year ∧ (dateOf t).year ≤ 9999

instance (t : DateTime) : Decidable (FourDigitYear t) := inferInstanceAs (Decidable (_ ∧ _))

theorem OnGrid.minute {kind : String} {t : DateTime} (h : OnGrid kind t) : t % minuteNanos = 0 := by
  simp only [OnGrid, hourNanos, minuteNanos, DateTime] at *
  omega

/-- On the grid, `%H00` is `%H%M`. -/
theorem OnGrid.stamp {kind : String} {t : DateTime} (h : OnGrid kind t) :
    ribOrUpdateStamp t kind = String.ofList (dateText t ++ '.' :: updateTime t) := by
  rcases h with ⟨rfl, ht⟩ | ⟨rfl, -⟩
  · have hzero : padZero 2 0 = ['0', '0'] := by decide
    rw [ribOrUpdateStamp, if_pos rfl, updateTime, ribTime, minuteOf_hour ht, hzero]
  · rw [ribOrUpdateStamp, if_neg (by decide)]

def urlBase (family : SourceFamily) (collector : String) : List Char :=
  match family with
  | .routeViews =>
    (if collector = "route-views2" then "http://archive.routeviews.org/bgpdata"
      else "http://archive.routeviews.org/" ++ collector ++ "/bgpdata").toList
  | .ripeRis => ("https://data.ris.ripe.net/" ++ collector).toList

def kindDir (family : SourceFamily) (kind : String) : List Char :=
  match family with
  | .routeViews => '/' :: kind.toList
  | .ripeRis => []

/-- What comes before the last slash of a URL, -/
def urlDir (family : SourceFamily) (collector : String) (t : DateTime) (kind : String) : List Char :=
  urlBase family collector ++ '/' :: ((monthDir t).toList ++ kindDir family kind)

def filePrefix (family : SourceFamily) (kind : String) : List Char :=
  if kind = "RIBS" then
    match family with
    | .routeViews => "rib".toList
    | .ripeRis => "bview".toList
  else "updates".toList

def fileExtension : SourceFamily → List Char
  | .routeViews => "bz2".toList
  | .ripeRis => "gz".toList

/-- and what comes after it. -/
def urlName (family : SourceFamily) (t : DateTime) (kind : String) : List Char :=
  filePrefix family kind ++ '.' :: (dateText t ++ '.' :: (updateTime t ++ '.' :: fileExtension family))

theorem archiveUrlFor_toList {kind : String} {t : DateTime} (h : OnGrid kind t)
    (family : SourceFamily) (collector : String) :
    (archiveUrlFor family collector t kind).toList =
      urlDir family collector t kind ++ '/' :: urlName family t kind := by
  have hkind : kind = "RIBS" ∨ kind = "UPDATES" := h.imp And.left And.left
  have hslash : "/".toList = ['/'] := rfl
  have hdot : ".".toList = ['.'] := rfl
  cases family with
  | routeViews =>
    have hname : (if kind = "RIBS" then "rib" else if kind = "UPDATES" then "updates" else kind).toList
        = filePrefix .routeViews kind := by
      rcases hkind with rfl | rfl
      · rw [if_pos rfl, filePrefix, if_pos rfl]
      · rw [if_neg (by decide), if_pos rfl, filePrefix, if_neg (by decide)]
    have hext : ".bz2".toList = '.' :: fileExtension .routeViews := rfl
    change (routeviewsUrlFor collector t kind).toList = _
    unfold routeviewsUrlFor urlDir urlName urlBase kindDir
    dsimp only
    rw [h.stamp]
    simp only [String.toList_append, String.toList_ofList, hname, hslash, hdot, hext,
      List.append_assoc, List.cons_append, List.nil_append]
  | ripeRis =>
    have hname : (if kind = "RIBS" then "bview." else "updates.").toList
        = filePrefix .ripeRis kind ++ ['.'] := by
      rcases hkind with rfl | rfl
      · rw [if_pos rfl, filePrefix, if_pos rfl]
        rfl
      · rw [if_neg (by decide), filePrefix, if_neg (by decide)]
        rfl
    have hext : ".gz".toList = '.' :: fileExtension .ripeRis := rfl
    change (risUrlFor collector t kind).toList = _
    unfold risUrlFor urlDir urlName urlBase kindDir
    dsimp only
    rw [h.stamp]
    simp only [String.toList_append, String.toList_ofList, hname, hslash, hext,
      List.append_assoc, List.cons_append, List.nil_append, List.append_nil]

/-- The last component of a path that ends with a name. -/
theorem fileName_append {dir name : List Char} (hslash : '/' ∉ name) (hne : name ≠ [])
    (hdot : name ≠ ['.']) (hdots : name ≠ ['.', '.']) :
    fileName (dir ++ '/' :: name) = some name := by
  have hkeep : (!name.isEmpty && name != ['.']) = true := by
    simp [hne, hdot]
  have hlast : [name].filter (fun c => !c.isEmpty && c != ['.']) = [name] :=
    List.filter_cons_of_pos hkeep
  rw [fileName, List.splitOn_append_cons_self, List.splitOn_eq_singleton hslash, List.filter_append,
    hlast, List.getLast?_concat]
  exact if_neg hdots

/-! ### The round trip -/

theorem formatYear_chars (y : Int) : ∀ c ∈ formatYear y, c.isDigit = true ∨ c = '+' ∨ c = '-' := by
  intro c hc
  unfold formatYear at hc
  split at hc
  · exact Or.inl (padZero_digits _ _ c hc)
  · rcases List.mem_cons.1 hc with rfl | hc
    · split <;> simp
    · exact Or.inl (padZero_digits _ _ c hc)

/-- Neither of the separators is in a date, -/
theorem not_mem_dateText {c : Char} (hdigit : c.isDigit = false) (hplus : c ≠ '+') (hminus : c ≠ '-')
    (t : DateTime) : c ∉ dateText t := by
  have hpad (w n : Nat) : c ∉ padZero w n := fun h => by
    rw [padZero_digits w n c h] at hdigit
    cases hdigit
  intro h
  rcases List.mem_append.1 h with h | h
  · rcases formatYear_chars _ c h with h | h | h
    · rw [hdigit] at h
      cases h
    · exact hplus h
    · exact hminus h
  · rcases List.mem_append.1 h with h | h
    · exact hpad _ _ h
    · exact hpad _ _ h

/-- nor in a time. -/
theorem not_mem_updateTime {c : Char} (hdigit : c.isDigit = false) (t : DateTime) :
    c ∉ updateTime t := by
  intro h
  rcases List.mem_append.1 h with h | h <;> rw [padZero_digits _ _ c h] at hdigit <;> cases hdigit

theorem filePrefix_cases (family : SourceFamily) (kind : String) :
    filePrefix family kind ∈ ["rib".toList, "bview".toList, "updates".toList] := by
  unfold filePrefix
  split
  · cases family
    · exact List.mem_cons_self
    · exact List.mem_cons_of_mem _ List.mem_cons_self
  · exact List.mem_cons_of_mem _ (List.mem_cons_of_mem _ List.mem_cons_self)

theorem filePrefix_free (family : SourceFamily) (kind : String) :
    '/' ∉ filePrefix family kind ∧ '.' ∉ filePrefix family kind := by
  have hall : ∀ p ∈ ["rib".toList, "bview".toList, "updates".toList], '/' ∉ p ∧ '.' ∉ p := by decide
  exact hall _ (filePrefix_cases family kind)

theorem fileExtension_free (family : SourceFamily) :
    '/' ∉ fileExtension family ∧ '.' ∉ fileExtension family := by
  cases family <;> decide

theorem slash_not_mem_urlName (family : SourceFamily) (t : DateTime) (kind : String) :
    '/' ∉ urlName family t kind := by
  have hp := (filePrefix_free family kind).1
  have hd := @not_mem_dateText '/' (by decide) (by decide) (by decide) t
  have ht := @not_mem_updateTime '/' (by decide) t
  have he := (fileExtension_free family).1
  simp [urlName, hp, hd, ht, he]

theorem fileName_archiveUrlFor {kind : String} {t : DateTime} (h : OnGrid kind t)
    (family : SourceFamily) (collector : String) :
    fileName (archiveUrlFor family collector t kind).toList = some (urlName family t kind) := by
  have hlen : 2 < (urlName family t kind).length := by
    simp only [urlName, List.length_append, List.length_cons]
    cases family <;> simp only [fileExtension] <;> simp <;> omega
  have hne (name : List Char) (hname : name.length ≤ 2) : urlName family t kind ≠ name := by
    rintro rfl
    omega
  rw [archiveUrlFor_toList h]
  exact fileName_append (slash_not_mem_urlName family t kind) (hne _ (by decide)) (hne _ (by decide))
    (hne _ (by decide))

theorem splitOn_urlName (family : SourceFamily) (t : DateTime) (kind : String) :
    (urlName family t kind).splitOn '.' =
      [filePrefix family kind, dateText t, updateTime t, fileExtension family] := by
  rw [urlName, List.splitOn_append_cons_self_of_not_mem (filePrefix_free family kind).2,
    List.splitOn_append_cons_self_of_not_mem (not_mem_dateText (by decide) (by decide) (by decide) t),
    List.splitOn_append_cons_self_of_not_mem (not_mem_updateTime (by decide) t),
    List.splitOn_eq_singleton (fileExtension_free family).2]

/-- With a year of four digits a date has eight. -/
theorem dateText_fourDigit {t : DateTime} (h : FourDigitYear t) : dateText t =
    padZero 4 (dateOf t).year.toNat ++ (padZero 2 (dateOf t).month ++ padZero 2 (dateOf t).day) := by
  rw [dateText, formatYear, if_pos (And.intro h.1 h.2)]

theorem date_lt (t : DateTime) : (dateOf t).month < 10 ^ 2 ∧ (dateOf t).day < 10 ^ 2 := by
  have hm := (dateOf t).month_mem
  have hd := (dateOf t).day_mem
  have h31 : daysInMonth (dateOf t).year (dateOf t).month ≤ 31 := by
    unfold daysInMonth
    split
    · split <;> omega
    · split <;> omega
  omega

/-- **What the planner writes into a name the executor reads.** -/
theorem filenameTimestamp_archiveUrlFor_of_onGrid {kind : String} {t : DateTime}
    (h : OnGrid kind t) (hyear : FourDigitYear t) (family : SourceFamily) (collector : String) :
    filenameTimestamp (archiveUrlFor family collector t kind) = some (some t) := by
  have hy : (dateOf t).year.toNat < 10 ^ 4 := by
    have := hyear.2
    omega
  have hcast : ((dateOf t).year.toNat : Int) = (dateOf t).year := Int.toNat_of_nonneg hyear.1
  obtain ⟨hm, hd⟩ := date_lt t
  have hh : hourOf t < 10 ^ 2 := Nat.lt_trans (hourOf_lt t) (by decide)
  have hmin : minuteOf t < 10 ^ 2 := Nat.lt_trans (minuteOf_lt t) (by decide)
  have hdate : byteLength (dateText t) = 8 := by
    rw [dateText_fourDigit hyear, byteLength_append, byteLength_append, byteLength_padZero _ hy,
      byteLength_padZero _ hm, byteLength_padZero _ hd] <;> decide
  have htime : byteLength (updateTime t) = 4 := by
    rw [updateTime, byteLength_append, byteLength_padZero _ hh, byteLength_padZero _ hmin] <;> decide
  have hfields : stampFields (archiveUrlFor family collector t kind) =
      some (dateText t, updateTime t) := by
    rw [stampFields, fileName_archiveUrlFor h]
    simp only [splitOn_urlName]
    simp [hdate, htime]
  rw [filenameTimestamp_eq, hfields]
  change fieldsTimestamp (dateText t) (updateTime t) = _
  rw [dateText_fourDigit hyear, updateTime, fieldsTimestamp_padZero hy hm hd hh hmin, hcast,
    utcTimestamp_parts h.minute]

/-! ### Different slots, different names -/

theorem formatYear_injective : Function.Injective formatYear := by
  have hsign (y : Int) (c : Char) (n : Nat) (hc : c = '+' ∨ c = '-') :
      padZero 4 y.toNat ≠ c :: padZero 4 n := by
    intro h
    have hdigit := padZero_digits 4 y.toNat c (by rw [h]; exact List.mem_cons_self)
    rcases hc with rfl | rfl <;> exact absurd hdigit (by decide)
  have hchar (y : Int) : (if 0 ≤ y then '+' else '-') = '+' ∨ (if 0 ≤ y then '+' else '-') = '-' := by
    split <;> simp
  intro y y' h
  by_cases hy : 0 ≤ y ∧ y ≤ 9999 <;> by_cases hy' : 0 ≤ y' ∧ y' ≤ 9999 <;>
    simp only [formatYear, hy, hy', and_self, if_true, if_false] at h
  · have := padZero_injective _ h
    omega
  · exact absurd h (hsign _ _ _ (hchar _))
  · exact absurd h.symm (hsign _ _ _ (hchar _))
  · obtain ⟨hc, habs⟩ := List.cons.inj h
    have habs := padZero_injective _ habs
    split at hc <;> split at hc
    · omega
    · exact absurd hc (by decide)
    · exact absurd hc (by decide)
    · omega

theorem dateText_inj {t u : DateTime} (h : dateText t = dateText u) : dateOf t = dateOf u := by
  obtain ⟨hm, hd⟩ := date_lt t
  obtain ⟨hm', hd'⟩ := date_lt u
  obtain ⟨hyear, hrest⟩ := List.append_inj' h (by
    rw [List.length_append, List.length_append, padZero_length (by decide) hm,
      padZero_length (by decide) hd, padZero_length (by decide) hm', padZero_length (by decide) hd'])
  obtain ⟨hmonth, hday⟩ := List.append_inj hrest (by
    rw [padZero_length (by decide) hm, padZero_length (by decide) hm'])
  exact CivilDate.ext (formatYear_injective hyear) (padZero_injective _ hmonth)
    (padZero_injective _ hday)

theorem updateTime_inj {t u : DateTime} (h : updateTime t = updateTime u) :
    hourOf t = hourOf u ∧ minuteOf t = minuteOf u := by
  obtain ⟨hhour, hmin⟩ := List.append_inj h (by
    rw [padZero_length (by decide) (Nat.lt_trans (hourOf_lt t) (by decide)),
      padZero_length (by decide) (Nat.lt_trans (hourOf_lt u) (by decide))])
  exact ⟨padZero_injective _ hhour, padZero_injective _ hmin⟩

/-- For all years, the ones that cannot be read back included. -/
theorem archiveUrlFor_inj {kind : String} {t u : DateTime} (ht : OnGrid kind t) (hu : OnGrid kind u)
    {family : SourceFamily} {collector : String}
    (h : archiveUrlFor family collector t kind = archiveUrlFor family collector u kind) : t = u := by
  have hname : urlName family t kind = urlName family u kind := by
    have htext := fileName_archiveUrlFor ht family collector
    rw [h, fileName_archiveUrlFor hu] at htext
    exact (Option.some.inj htext).symm
  have hparts := congrArg (List.splitOn '.') hname
  rw [splitOn_urlName, splitOn_urlName] at hparts
  simp only [List.cons.injEq, true_and, and_true] at hparts
  obtain ⟨hhour, hmin⟩ := updateTime_inj hparts.2
  have htparts := time_of_parts ht.minute
  rwa [dateText_inj hparts.1, hhour, hmin, time_of_parts hu.minute, eq_comm] at htparts

/-! ### The order of the names -/

theorem padZero_append_lt_iff {w a b : Nat} (hw : 0 < w) (ha : a < 10 ^ w) (hb : b < 10 ^ w)
    {l m : List Char} : padZero w a ++ l < padZero w b ++ m ↔ a < b ∨ a = b ∧ l < m := by
  rw [append_lt_append_iff (by rw [padZero_length hw ha, padZero_length hw hb]),
    padZero_lt_iff hw ha hb, (padZero_injective w).eq_iff]

/-- The time is the date, the hour and the minute, in this order. -/
theorem time_lt_iff {t u : DateTime} (ht : t % minuteNanos = 0) (hu : u % minuteNanos = 0) :
    t < u ↔ (dateOf t).days < (dateOf u).days ∨ (dateOf t).days = (dateOf u).days ∧
      (hourOf t < hourOf u ∨ hourOf t = hourOf u ∧ minuteOf t < minuteOf u) := by
  have h := hourOf_lt t
  have h' := hourOf_lt u
  have hmin := minuteOf_lt t
  have hmin' := minuteOf_lt u
  have htparts := time_of_parts ht
  have huparts := time_of_parts hu
  simp only [DateTime] at *
  omega

section Order
variable {t u : DateTime}

theorem year_lt (h : FourDigitYear t) : (dateOf t).year.toNat < 10 ^ 4 := by
  have := h.2
  omega

theorem monthDir_fourDigit (h : FourDigitYear t) :
    (monthDir t).toList = padZero 4 (dateOf t).year.toNat ++ '.' :: padZero 2 (dateOf t).month := by
  rw [monthDir, String.toList_ofList, padYear, if_pos h.1]

theorem monthDir_lt_iff (ht : FourDigitYear t) (hu : FourDigitYear u) :
    (monthDir t).toList < (monthDir u).toList ↔ (dateOf t).year < (dateOf u).year ∨
      (dateOf t).year = (dateOf u).year ∧ (dateOf t).month < (dateOf u).month := by
  have hyear := ht.1
  have hyear' := hu.1
  rw [monthDir_fourDigit ht, monthDir_fourDigit hu, padZero_append_lt_iff (by decide) (year_lt ht)
    (year_lt hu), List.cons_lt_cons_self, padZero_lt_iff (by decide) (date_lt t).1 (date_lt u).1]
  omega

theorem monthDir_eq_iff (ht : FourDigitYear t) (hu : FourDigitYear u) :
    (monthDir t).toList = (monthDir u).toList ↔
      (dateOf t).year = (dateOf u).year ∧ (dateOf t).month = (dateOf u).month := by
  have hyear := ht.1
  have hyear' := hu.1
  rw [monthDir_fourDigit ht, monthDir_fourDigit hu]
  constructor
  · intro h
    obtain ⟨hy, hm⟩ := List.append_inj h (by
      rw [padZero_length (by decide) (year_lt ht), padZero_length (by decide) (year_lt hu)])
    have := padZero_injective _ hy
    exact ⟨by omega, padZero_injective _ (List.cons.inj hm).2⟩
  · rintro ⟨hy, hm⟩
    rw [hy, hm]

/-- The name after the directory, by day, hour and minute. -/
theorem urlName_lt_iff (ht : FourDigitYear t) (hu : FourDigitYear u)
    (hyear : (dateOf t).year = (dateOf u).year) (hmonth : (dateOf t).month = (dateOf u).month)
    (family : SourceFamily) (kind : String) :
    urlName family t kind < urlName family u kind ↔ (dateOf t).day < (dateOf u).day ∨
      (dateOf t).day = (dateOf u).day ∧
        (hourOf t < hourOf u ∨ hourOf t = hourOf u ∧ minuteOf t < minuteOf u) := by
  have hh : hourOf t < 10 ^ 2 := Nat.lt_trans (hourOf_lt t) (by decide)
  have hh' : hourOf u < 10 ^ 2 := Nat.lt_trans (hourOf_lt u) (by decide)
  have hmin : minuteOf t < 10 ^ 2 := Nat.lt_trans (minuteOf_lt t) (by decide)
  have hmin' : minuteOf u < 10 ^ 2 := Nat.lt_trans (minuteOf_lt u) (by decide)
  unfold urlName updateTime
  rw [dateText_fourDigit ht, dateText_fourDigit hu, hyear, hmonth]
  simp only [List.append_assoc]
  rw [append_left_lt_iff, List.cons_lt_cons_self, append_left_lt_iff, append_left_lt_iff,
    padZero_append_lt_iff (by decide) (date_lt t).2 (date_lt u).2, List.cons_lt_cons_self,
    padZero_append_lt_iff (by decide) hh hh', padZero_append_lt_iff (by decide) hmin hmin']
  simp

/-- **The order of the names is the order of time.** -/
theorem archiveUrlFor_lt_iff {kind : String} (ht : OnGrid kind t) (hu : OnGrid kind u)
    (hyt : FourDigitYear t) (hyu : FourDigitYear u) (family : SourceFamily) (collector : String) :
    archiveUrlFor family collector t kind < archiveUrlFor family collector u kind ↔ t < u := by
  have hlen : (monthDir t).toList.length = (monthDir u).toList.length := by
    rw [monthDir_fourDigit hyt, monthDir_fourDigit hyu]
    simp only [List.length_append, List.length_cons, padZero_length (w := 4) (by decide) (year_lt hyt),
      padZero_length (w := 4) (by decide) (year_lt hyu), padZero_length (w := 2) (by decide) (date_lt t).1,
      padZero_length (w := 2) (by decide) (date_lt u).1]
  have htext (v : DateTime) : urlDir family collector v kind ++ '/' :: urlName family v kind =
      urlBase family collector ++ '/' :: ((monthDir v).toList ++ (kindDir family kind ++
        '/' :: urlName family v kind)) := by
    rw [urlDir, List.append_assoc, List.cons_append, List.append_assoc]
  rw [String.lt_iff, archiveUrlFor_toList ht, archiveUrlFor_toList hu, htext, htext,
    append_left_lt_iff, List.cons_lt_cons_self, append_lt_append_iff hlen, append_left_lt_iff,
    List.cons_lt_cons_self, monthDir_lt_iff hyt hyu, monthDir_eq_iff hyt hyu,
    time_lt_iff ht.minute hu.minute, CivilDate.days_lt_iff]
  by_cases hmonth : (dateOf t).year = (dateOf u).year ∧ (dateOf t).month = (dateOf u).month
  · rw [urlName_lt_iff hyt hyu hmonth.1 hmonth.2]
    have hdays : (dateOf t).days = (dateOf u).days ↔ (dateOf t).day = (dateOf u).day :=
      ⟨fun h => congrArg CivilDate.day (CivilDate.days_injective h),
        fun h => congrArg CivilDate.days (CivilDate.ext hmonth.1 hmonth.2 h)⟩
    rw [hdays]
    omega
  · have hdays : (dateOf t).days ≠ (dateOf u).days := fun h =>
      hmonth ⟨congrArg CivilDate.year (CivilDate.days_injective h),
        congrArg CivilDate.month (CivilDate.days_injective h)⟩
    simp only [hmonth, hdays, false_and, or_false]
    omega

end Order

/-! ## A plan -/

theorem mem_gridSlots {first last u : DateTime} : u ∈ gridSlots first last ↔
    first ≤ u ∧ u ≤ last ∧ (u - first) % (updateIntervalSecs * 1000000000) = 0 := by
  simp only [gridSlots, List.mem_map, List.mem_range, updateIntervalSecs, DateTime]
  constructor
  · rintro ⟨k, hk, rfl⟩
    omega
  · rintro ⟨hfirst, hlast, hmod⟩
    exact ⟨((u - first) / 300000000000).toNat, by omega, by omega⟩

theorem gridSlots_nodup (first last : DateTime) : (gridSlots first last).Nodup := by
  refine (List.nodup_range).map fun a b h => ?_
  simp only [updateIntervalSecs, DateTime] at h
  omega

theorem floorTo_eq {t r : DateTime} {interval : Int} (h : floorTo t interval = some r) :
    r = (t / 1000000000 - t / 1000000000 % interval) * 1000000000 := by
  unfold floorTo checkedTime at h
  dsimp only at h
  split at h
  · exact (Option.some.inj h).symm
  · cases h

/-- The loop over slots whose names are new. -/
theorem foldl_scanSlot (family : SourceFamily) (collector : String) (slots : List DateTime)
    (s : SlotScan) (hnodup : (slots.map fun u => (updateFile family collector u).url).Nodup)
    (hnew : ∀ u ∈ slots, (updateFile family collector u).url ∉ s.seen) :
    let r := slots.foldl (scanSlot family collector) s
    r.updates = s.updates ++ slots.map (updateFile family collector) ∧
      r.duplicates = s.duplicates ∧
      r.totalBytes = s.totalBytes + slots.length * updateEstimatedBytes ∧
      r.totalUncompressedBytes =
        s.totalUncompressedBytes + slots.length * updateEstimatedUncompressedBytes := by
  induction slots generalizing s with
  | nil => simp
  | cons u slots ih =>
    obtain ⟨hu, hnodup⟩ := List.nodup_cons.1 hnodup
    have hstep : scanSlot family collector s u = { s with
        updates := s.updates ++ [updateFile family collector u]
        seen := (updateFile family collector u).url :: s.seen
        totalBytes := s.totalBytes + updateEstimatedBytes
        totalUncompressedBytes := s.totalUncompressedBytes + updateEstimatedUncompressedBytes } :=
      if_neg (hnew u List.mem_cons_self)
    obtain ⟨hupdates, hdup, hbytes, hunc⟩ := ih (scanSlot family collector s u) hnodup (by
      intro v hv
      rw [hstep]
      intro hmem
      rcases List.mem_cons.1 hmem with heq | hmem
      · exact hu (List.mem_map.2 ⟨v, hv, heq⟩)
      · exact hnew v (List.mem_cons_of_mem _ hv) hmem)
    rw [hstep] at hupdates hdup hbytes hunc
    rw [List.foldl_cons, hstep]
    refine ⟨by rw [hupdates]; simp, hdup, ?_, ?_⟩
    · rw [hbytes, List.length_cons]
      push_cast
      ring
    · rw [hunc, List.length_cons]
      push_cast
      ring

/-- The plan of one collector: a RIB and all slots from the warm-up to the cooldown. -/
structure PlannedFor (warmupStart cooldownEnd : DateTime) (source : SourceFamily × String)
    (c : CollectorPlan) (rib first last : DateTime) : Prop where
  collector : c.collector = source.2
  family : c.sourceFamily = source.1.asStr
  rib_eq : floorTo warmupStart source.1.ribIntervalSecs = some rib
  first_eq : floorTo warmupStart updateIntervalSecs = some first
  last_eq : floorTo cooldownEnd updateIntervalSecs = some last
  baseline : c.baselineRib = ribFile source.1 source.2 rib
  updates : c.updates = (gridSlots first last).map (updateFile source.1 source.2)
  duplicates : c.duplicateUrls = 0

/-- One collector adds its estimates to the totals. -/
theorem planCollector_spec {warmupStart cooldownEnd : DateTime} {s s' : PlanTotals}
    {source : SourceFamily × String}
    (h : planCollector warmupStart cooldownEnd s source = some s') : ∃ c rib first last,
      PlannedFor warmupStart cooldownEnd source c rib first last ∧
      s' = ⟨s.collectors ++ [c], s.estimatedTotalBytes + c.estimatedCompressedBytes,
        s.estimatedTotalUncompressedBytes + c.estimatedUncompressedBytes⟩ := by
  obtain ⟨family, collector⟩ := source
  obtain ⟨rib, hrib, h⟩ := Option.bind_eq_some_iff.1 h
  obtain ⟨validation, -, h⟩ := Option.bind_eq_some_iff.1 h
  obtain ⟨first, hfirst, h⟩ := Option.bind_eq_some_iff.1 h
  obtain ⟨last, hlast, h⟩ := Option.bind_eq_some_iff.1 h
  obtain ⟨-, -, h⟩ := Option.bind_eq_some_iff.1 h
  have hgrid (u : DateTime) (hu : u ∈ gridSlots first last) : OnGrid "UPDATES" u := by
    have hmod := (mem_gridSlots.1 hu).2.2
    have hfloor := floorTo_eq hfirst
    refine Or.inr ⟨rfl, ?_⟩
    simp only [updateIntervalSecs, minuteNanos, DateTime] at *
    omega
  have hnodup : ((gridSlots first last).map fun u => (updateFile family collector u).url).Nodup :=
    (gridSlots_nodup first last).map_on fun u hu v hv heq =>
      archiveUrlFor_inj (hgrid u hu) (hgrid v hv) heq
  have hscan (bytes unc : Int) := foldl_scanSlot family collector (gridSlots first last)
    ⟨[], [], 0, bytes, unc⟩ hnodup fun u _ => List.not_mem_nil
  cases h
  refine ⟨_, rib, first, last, ?_, PlanTotals.mk.injEq .. |>.mpr ⟨rfl, ?_, ?_⟩⟩
  · exact ⟨rfl, rfl, hrib, hfirst, hlast, rfl, (hscan _ _).1, (hscan _ _).2.1⟩
  · rw [(hscan _ _).2.2.1, (hscan _ _).1]
    simp only [List.nil_append, List.length_map]
    split <;> simp <;> ring
  · rw [(hscan _ _).2.2.2, (hscan _ _).1]
    simp only [List.nil_append, List.length_map]
    split <;> simp <;> ring

/-- The loop over the collectors. -/
theorem foldlM_planCollector {warmupStart cooldownEnd : DateTime}
    {sources : List (SourceFamily × String)} {s s' : PlanTotals}
    (h : sources.foldlM (planCollector warmupStart cooldownEnd) s = some s') : ∃ cs : List CollectorPlan,
      List.Forall₂ (fun source c => ∃ rib first last,
        PlannedFor warmupStart cooldownEnd source c rib first last) sources cs ∧
      s' = ⟨s.collectors ++ cs, s.estimatedTotalBytes + (cs.map (·.estimatedCompressedBytes)).sum,
        s.estimatedTotalUncompressedBytes + (cs.map (·.estimatedUncompressedBytes)).sum⟩ := by
  induction sources generalizing s with
  | nil =>
    cases h
    exact ⟨[], .nil, by simp⟩
  | cons source sources ih =>
    rw [List.foldlM_cons] at h
    obtain ⟨mid, hmid, h⟩ := Option.bind_eq_some_iff.1 h
    obtain ⟨c, rib, first, last, hplanned, rfl⟩ := planCollector_spec hmid
    obtain ⟨cs, hcs, rfl⟩ := ih h
    refine ⟨c :: cs, .cons ⟨rib, first, last, hplanned⟩ hcs, ?_⟩
    simp [Int.add_assoc]

/-- A plan that is made has a collector plan for every source, and their sums. -/
theorem buildPlanForFamilies_ok {parse : String → Option DateTime} {cs : StudyWindow}
    {targets : List StudyTarget} {warmupHours cooldownHours : Int} {families : List SourceFamily}
    {horizon : AnalysisHorizon} {plan : ArchivePlan}
    (h : buildPlanForFamilies parse cs targets warmupHours cooldownHours families =
      some (.ok (horizon, plan))) :
    List.Forall₂ (fun source c => ∃ rib first last,
        PlannedFor horizon.warmupStartUtc horizon.cooldownEndUtc source c rib first last)
      (planSources families) plan.collectors ∧
    plan.estimatedTotalBytes = (plan.collectors.map (·.estimatedCompressedBytes)).sum ∧
    plan.estimatedTotalUncompressedBytes =
      (plan.collectors.map (·.estimatedUncompressedBytes)).sum := by
  unfold buildPlanForFamilies at h
  split at h
  · cases h
  · obtain ⟨incidentStart, -, h⟩ := Option.bind_eq_some_iff.1 h
    split at h
    · cases h
    · obtain ⟨incidentEnd, -, h⟩ := Option.bind_eq_some_iff.1 h
      split at h
      · cases h
      · obtain ⟨warmupStart, -, h⟩ := Option.bind_eq_some_iff.1 h
        obtain ⟨cooldownEnd, -, h⟩ := Option.bind_eq_some_iff.1 h
        obtain ⟨totals, htotals, h⟩ := Option.bind_eq_some_iff.1 h
        obtain ⟨collectors, hall, rfl⟩ := foldlM_planCollector htotals
        cases h
        exact ⟨by simpa using hall, by simp, by simp⟩

/-- A file listed under its slot starts there for the selection. -/
theorem canonicalTsStart_archiveUrlFor {kind : String} {t : DateTime} (h : OnGrid kind t)
    (hyear : FourDigitYear t) {family : SourceFamily} {collector : String} {item : ArchiveItem}
    (hurl : item.url = archiveUrlFor family collector t kind) (hstart : item.tsStart = t) :
    canonicalTsStart item = some t := by
  unfold canonicalTsStart
  rw [hurl, filenameTimestamp_archiveUrlFor_of_onGrid h hyear]
  dsimp only
  rw [hstart]
  split <;> rfl

theorem earlier_archiveUrlFor_iff {kind : String} {t u : DateTime} (ht : OnGrid kind t)
    (hu : OnGrid kind u) (hyt : FourDigitYear t) (hyu : FourDigitYear u) {family : SourceFamily}
    {collector : String} {a b : ArchiveItem} (ha : a.url = archiveUrlFor family collector t kind)
    (hb : b.url = archiveUrlFor family collector u kind) (ha' : a.tsStart = t) (hb' : b.tsStart = u) :
    a.Earlier b ↔ t < u := by
  unfold ArchiveItem.Earlier
  rw [canonicalTsStart_archiveUrlFor ht hyt ha ha', canonicalTsStart_archiveUrlFor hu hyu hb hb', ha,
    hb, archiveUrlFor_lt_iff ht hu hyt hyu]
  constructor
  · rintro ⟨s, r, hs, hr, h⟩
    obtain rfl := Option.some.inj hs
    obtain rfl := Option.some.inj hr
    exact h.elim id And.right
  · intro h
    exact ⟨t, u, rfl, rfl, Or.inl h⟩

/-- **The names of the planner.** The executor reads the slot back from a name, names are different and
ordered as the slots are, as texts and for the selection, and a plan lists no file twice and adds up. -/
theorem filenameTimestamp_archiveUrlFor :
    (∀ family collector kind t, OnGrid kind t → FourDigitYear t →
      filenameTimestamp (archiveUrlFor family collector t kind) = some (some t)) ∧
    (∀ family collector kind t u, OnGrid kind t → OnGrid kind u →
      (archiveUrlFor family collector t kind = archiveUrlFor family collector u kind → t = u) ∧
      (FourDigitYear t → FourDigitYear u →
        (archiveUrlFor family collector t kind < archiveUrlFor family collector u kind ↔ t < u) ∧
        ∀ a b : ArchiveItem, a.url = archiveUrlFor family collector t kind →
          b.url = archiveUrlFor family collector u kind → a.tsStart = t → b.tsStart = u →
          (a.Earlier b ↔ t < u))) ∧
    ∀ parse cs targets warmupHours cooldownHours families horizon plan,
      buildPlanForFamilies parse cs targets warmupHours cooldownHours families =
        some (.ok (horizon, plan)) →
      (∀ c ∈ plan.collectors, c.duplicateUrls = 0) ∧
      plan.estimatedTotalBytes = (plan.collectors.map (·.estimatedCompressedBytes)).sum ∧
      plan.estimatedTotalUncompressedBytes =
        (plan.collectors.map (·.estimatedUncompressedBytes)).sum := by
  refine ⟨fun family collector kind t ht hyt =>
    filenameTimestamp_archiveUrlFor_of_onGrid ht hyt family collector,
    fun family collector kind t u ht hu => ⟨archiveUrlFor_inj ht hu, fun hyt hyu => ?_⟩, ?_⟩
  · exact ⟨archiveUrlFor_lt_iff ht hu hyt hyu family collector, fun a b ha hb ha' hb' =>
      earlier_archiveUrlFor_iff ht hu hyt hyu ha hb ha' hb'⟩
  · intro parse cs targets warmupHours cooldownHours families horizon plan h
    obtain ⟨hall, hbytes, hunc⟩ := buildPlanForFamilies_ok h
    refine ⟨fun c hc => ?_, hbytes, hunc⟩
    obtain ⟨i, hi, rfl⟩ := List.getElem_of_mem hc
    obtain ⟨rib, first, last, hplanned⟩ := hall.get (hall.length_eq ▸ hi) hi
    exact hplanned.duplicates

/-! ### Ten minutes of 2019-08-21 -/

namespace StudySample

/-- Four o'clock. -/
def four : DateTime := 1566360000000000000

def parse (s : String) : Option DateTime :=
  if s = "2019-08-21T04:00:00Z" then some four
  else if s = "2019-08-21T04:10:00Z" then some (four + 10 * minuteNanos)
  else none

def study : StudyWindow := ⟨some "2019-08-21T04:00:00Z", some "2019-08-21T04:10:00Z"⟩

def planned (warmupHours : Int) (family : SourceFamily) :
    Option (Except String (AnalysisHorizon × ArchivePlan)) :=
  buildPlanForFamilies parse study [] warmupHours 0 [family]

theorem onGrid (kind : String) (h : kind = "RIBS" ∨ kind = "UPDATES") : OnGrid kind four := by
  rcases h with rfl | rfl
  · exact Or.inl ⟨rfl, by decide⟩
  · exact Or.inr ⟨rfl, by decide⟩

/-- Read back, ordered and added up. -/
theorem filenameTimestamp_four :
    filenameTimestamp (archiveUrlFor .ripeRis "rrc00" four "RIBS") = some (some four) ∧
    archiveUrlFor .ripeRis "rrc00" four "UPDATES" <
      archiveUrlFor .ripeRis "rrc00" (four + minuteNanos) "UPDATES" ∧
    ∃ horizon plan, planned 0 .routeViews = some (.ok (horizon, plan)) ∧
      plan.collectors.length = 2 ∧ ∀ c ∈ plan.collectors, c.duplicateUrls = 0 := by
  obtain ⟨hread, hnames, hplan⟩ := filenameTimestamp_archiveUrlFor
  refine ⟨hread _ _ _ _ (onGrid _ (Or.inl rfl)) (by decide +kernel), ?_, ?_⟩
  · have horder := (hnames .ripeRis "rrc00" "UPDATES" four (four + minuteNanos) (onGrid _ (Or.inr rfl))
      (Or.inr ⟨rfl, by decide⟩)).2 (by decide +kernel) (by decide +kernel)
    exact horder.1.2 (by decide)
  · have hlen : ((planned 0 .routeViews).bind Except.toOption).map
        (fun r => r.2.collectors.length) = some 2 := by
      decide +kernel
    obtain ⟨⟨horizon, plan⟩, hr, hlen⟩ := Option.map_eq_some_iff.1 hlen
    obtain ⟨r, hbuild, hr⟩ := Option.bind_eq_some_iff.1 hr
    cases r with
    | error => cases hr
    | ok r =>
      cases hr
      exact ⟨horizon, plan, hbuild, hlen, (hplan _ _ _ _ _ _ _ _ hbuild).1⟩

end StudySample

end Inim
