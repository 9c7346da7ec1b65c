import Inim.Workbench.ChronologyOrder
/-!
# A chronology within a day (`catalog/workbench.rs:3299-3331`, `:3496-3509`)

The clock that a step is sorted by is the second of the day of the first time in it (`clock_eq`). So the
steps of a finding whose times are of one day are in the order of their instants
(`ordered_of_oneDay`).
-/

namespace Inim

open Std Inim.Lib

/-! ## The first clock in a text -/

/-- What comes first is added to the first part. -/
theorem splitOnP_append {p : Char → Bool} {d : List Char} (h : ∀ c ∈ d, p c = false) (l : List Char) :
    ∃ r tail, (d ++ l).splitOnP p = (d ++ r) :: tail ∧ ∀ c ∈ r.head?, c ∈ l.head? := by
  induction d with
  | nil =>
    cases l with
    | nil => exact ⟨[], [], rfl, by simp⟩
    | cons x l =>
      rw [List.nil_append, List.splitOnP_cons_eq_if_modifyHead]
      split
      · exact ⟨[], _, rfl, by simp⟩
      · obtain ⟨r, tail, hr⟩ := List.exists_cons_of_ne_nil (List.splitOnP_ne_nil p l)
        exact ⟨x :: r, tail, by rw [hr]; rfl, by simp⟩
  | cons x d ih =>
    obtain ⟨r, tail, hr, hhead⟩ := ih fun c hc => h c (List.mem_cons_of_mem _ hc)
    refine ⟨r, tail, ?_, hhead⟩
    rw [List.cons_append, List.splitOnP_cons_eq_if_modifyHead,
      if_neg (by simp [h x List.mem_cons_self]), hr]
    rfl

theorem isWhitespace_digit {c : Char} (h : c.isDigit = true) : isWhitespace c = false := by
  have hrange : 48 ≤ c.toNat ∧ c.toNat ≤ 57 := by
    simpa [Char.isDigit, UInt32.le_iff_toNat_le] using h
  unfold isWhitespace
  simp only [Bool.or_eq_false_iff, Bool.and_eq_false_iff, decide_eq_false_iff_not, beq_eq_false_iff_ne]
  omega

theorem not_mem_padZero {w n : Nat} {c : Char} (hc : c.isDigit = false) : c ∉ padZero w n := by
  intro h
  rw [padZero_digits w n c h] at hc
  cases hc

theorem clockDigits_padZero {w n : Nat} {l : List Char} (hn : n < 2 ^ 63)
    (hl : ∀ c ∈ l.head?, c.isDigit = false) : clockDigits (padZero w n ++ l) = some (n : Int) := by
  have hdigits := padZero_digits w n
  have hrest : l.takeWhile Char.isDigit = [] := by
    cases l with
    | nil => rfl
    | cons c l => exact List.takeWhile_cons_of_neg (by simp [hl c rfl])
  have hparse := parseDigits_of_digits (padZero_ne_nil w n) hdigits
  rw [padZero_value] at hparse
  rw [clockDigits, List.takeWhile_append_of_pos hdigits, hrest, List.append_nil, hparse,
    Option.filter_some, if_pos (by simpa using hn)]
  rfl

namespace UtcFields

/-- `HH:MM:SS`. -/
def clockChars (g : UtcFields) : List Char :=
  padZero 2 g.hour ++ ':' :: (padZero 2 g.minute ++ ':' :: padZero 2 g.second)

/-- The second of the day. -/
def clock (g : UtcFields) : Int := g.hour * 3600 + g.minute * 60 + g.second

theorem clock_eq {g : UtcFields} (h : g.IsSecond) (hs : g.second ≤ 59) :
    g.clock = g.seconds % 86400 := by
  obtain ⟨-, hh, hmi, -⟩ := h
  unfold clock seconds
  omega

theorem not_isWhitespace_clock (g : UtcFields) : ∀ c ∈ g.clockChars, isWhitespace c = false := by
  intro c hc
  simp only [clockChars, List.mem_append, List.mem_cons] at hc
  rcases hc with hc | rfl | hc | rfl | hc
  · exact isWhitespace_digit (padZero_digits _ _ c hc)
  · rfl
  · exact isWhitespace_digit (padZero_digits _ _ c hc)
  · rfl
  · exact isWhitespace_digit (padZero_digits _ _ c hc)

/-- What follows the seconds is not read, up to the next digit. -/
theorem parseClockSeconds_clock (g : UtcFields) {l : List Char}
    (hl : ∀ c ∈ l.head?, c.isDigit = false) :
    parseClockSeconds (String.ofList (g.clockChars ++ l)) = some g.clock := by
  have hh := g.hour_lt
  have hmi := g.minute_lt
  have hs := g.second_lt
  have hcolon {n : Nat} : ':' ∉ padZero 2 n := not_mem_padZero rfl
  obtain ⟨r, tail, hr, hhead⟩ := splitOnP_append (p := (· == ':')) (d := padZero 2 g.second)
    (fun c hc => beq_false_of_ne fun heq => hcolon (heq ▸ hc)) l
  have hsplit : (g.clockChars ++ l).splitOn ':' =
      padZero 2 g.hour :: padZero 2 g.minute :: (padZero 2 g.second ++ r) :: tail := by
    rw [clockChars, List.append_assoc, List.cons_append, List.append_assoc, List.cons_append,
      List.splitOn_append_cons_self_of_not_mem hcolon, List.splitOn_append_cons_self_of_not_mem hcolon]
    exact congrArg (fun parts => padZero 2 g.hour :: padZero 2 g.minute :: parts) hr
  have hhour : clockDigits (padZero 2 g.hour) = some (g.hour : Int) := by
    simpa using clockDigits_padZero (w := 2) (l := []) (by omega : g.hour < 2 ^ 63) (by simp)
  have hminute : clockDigits (padZero 2 g.minute) = some (g.minute : Int) := by
    simpa using clockDigits_padZero (w := 2) (l := []) (by omega : g.minute < 2 ^ 63) (by simp)
  have hsecond := clockDigits_padZero (w := 2) (l := r) (by omega : g.second < 2 ^ 63)
    fun c hc => hl c (hhead c hc)
  unfold parseClockSeconds
  rw [String.toList_ofList, hsplit]
  dsimp only
  rw [hhour, hminute, hsecond]
  simp only [Option.bind_eq_bind, Option.bind_some, Option.pure_def, Option.some.injEq]
  exact Int.bmod_eq_of_le (by omega) (by omega)

end UtcFields

/-- The first clock in a text. -/
def firstClock (cs : List Char) : Option Int :=
  (splitWhitespace (String.ofList cs)).findSome? parseClockSeconds

theorem firstClock_clock (g : UtcFields) {l : List Char} (hl : ∀ c ∈ l.head?, c.isDigit = false) :
    firstClock (g.clockChars ++ l) = some g.clock := by
  obtain ⟨r, tail, hr, hhead⟩ := splitOnP_append (p := isWhitespace) g.not_isWhitespace_clock l
  have hne : g.clockChars ++ r ≠ [] := by
    simp [UtcFields.clockChars]
  rw [firstClock, splitWhitespace, String.toList_ofList, hr,
    List.filter_cons_of_pos (by exact decide_eq_true hne), List.map_cons, List.findSome?_cons, g.parseClockSeconds_clock fun c hc => hl c (hhead c hc)]

/-- A word that is no clock. -/
structure IsWord (w : List Char) : Prop where
  ne_nil : w ≠ []
  unbroken : ∀ c ∈ w, isWhitespace c = false
  noClock : parseClockSeconds (String.ofList w) = none

theorem firstClock_word {w l : List Char} (h : IsWord w) :
    firstClock (w ++ ' ' :: l) = firstClock l := by
  rw [firstClock, splitWhitespace, String.toList_ofList,
    List.splitOnP_append_cons_of_forall_mem h.unbroken ' ' rfl,
    List.filter_cons_of_pos (by exact decide_eq_true h.ne_nil),
    List.map_cons, List.findSome?_cons, h.noClock, firstClock, splitWhitespace, String.toList_ofList]

theorem isWord_at : IsWord ['a', 't'] := ⟨by simp, by simp [isWhitespace], by decide +kernel⟩

theorem isWord_from : IsWord ['f', 'r', 'o', 'm'] :=
  ⟨by simp, by simp [isWhitespace], by decide +kernel⟩

theorem isWord_until : IsWord ['u', 'n', 't', 'i', 'l'] :=
  ⟨by simp, by simp [isWhitespace], by decide +kernel⟩

theorem isWord_between : IsWord ['b', 'e', 't', 'w', 'e', 'e', 'n'] :=
  ⟨by simp, by simp [isWhitespace], by decide +kernel⟩

/-! ## The clock of a time -/

theorem splitOnce_T {u v : List Char} (h : 'T' ∉ u) :
    splitOnce ['T'] (u ++ 'T' :: v) = some (u, v) := by
  induction u with
  | nil => rfl
  | cons c u ih =>
    rw [List.mem_cons, not_or] at h
    rw [List.cons_append, splitOnce, if_neg (by simp [List.isPrefixOf, h.1]), ih h.2]
    rfl

theorem trim_Z {l : List Char} (h : ∀ c ∈ l.getLast?, c ≠ 'Z') :
    ((l ++ ['Z']).reverse.dropWhile (· = 'Z')).reverse = l := by
  rw [List.reverse_append, List.reverse_singleton, List.singleton_append,
    List.dropWhile_cons_of_pos (by simp)]
  rcases List.eq_nil_or_concat l with rfl | ⟨l', c, rfl⟩
  · rfl
  · have hc : c ≠ 'Z' := h c (by simp)
    simp [hc]

theorem findingTime_text (g : UtcFields) : findingTime g.text = String.ofList g.clockChars := by
  let date := padZero 4 g.year ++ '-' :: (padZero 2 g.month ++ '-' :: padZero 2 g.day)
  have hchars : g.text.toList = (date ++ 'T' :: g.clockChars) ++ ['Z'] := by
    simp [date, UtcFields.text, UtcFields.chars, isoChars, UtcFields.clockChars]
  have hlen : g.clockChars.length = 8 := by
    simp [UtcFields.clockChars, padZero_length (by decide) g.second_lt,
      padZero_length (by decide) g.minute_lt, padZero_length (by decide) g.hour_lt]
  have hlast : ∀ c ∈ (date ++ 'T' :: g.clockChars).getLast?, c ≠ 'Z' := by
    intro c hc
    rw [UtcFields.clockChars, List.getLast?_append_of_ne_nil _ (by simp),
      List.getLast?_cons_of_ne_nil (by simp), List.getLast?_append_of_ne_nil _ (by simp),
      List.getLast?_cons_of_ne_nil (by simp), List.getLast?_append_of_ne_nil _ (by simp),
      List.getLast?_cons_of_ne_nil (padZero_ne_nil 2 g.second)] at hc
    rintro rfl
    exact absurd (padZero_digits 2 g.second 'Z' (List.mem_of_getLast? hc)) (by decide)
  have hdate : 'T' ∉ date := by
    simp [date, not_mem_padZero]
  unfold findingTime
  dsimp only
  rw [hchars, trim_Z hlast, splitOnce_T hdate]
  dsimp only
  rw [if_pos hlen.ge, List.take_of_length_le hlen.le]

theorem sortSeconds_eq (label : StepLabel) (time : String) : sortSeconds label time =
    (firstClock time.toList).getD (if label = .eventBaseline then -(2 ^ 63) else 2 ^ 63 - 1) := by
  rw [firstClock, String.ofList_toList, sortSeconds]

/-- A word, and the time. -/
theorem sortSeconds_word (label : StepLabel) (g : UtcFields) {w : List Char} (hw : IsWord w)
    {time : String} (rest : List Char) (htime : time.toList = w ++ ' ' :: (g.clockChars ++ ' ' :: rest)) :
    sortSeconds label time = g.clock := by
  rw [sortSeconds_eq, htime, firstClock_word hw, firstClock_clock g (by simp), Option.getD_some]

namespace RoutingFinding
variable {f : RoutingFinding} {windowEnd : String}

theorem sortSeconds_at (label : StepLabel) (g : UtcFields) :
    sortSeconds label (atText g.text) = g.clock :=
  sortSeconds_word label g isWord_at ['U', 'T', 'C'] (by simp [atText, findingTime_text])

theorem sortSeconds_until (label : StepLabel) {g : UtcFields} (hg : f.firstTime = g.text)
    (hne : f.firstTime ≠ "") (otherwise : String) :
    sortSeconds label (f.untilText otherwise) = g.clock := by
  rw [untilText, if_neg hne, hg]
  exact sortSeconds_word label g isWord_until ['U', 'T', 'C'] (by simp [findingTime_text])

theorem sortSeconds_absent (label : StepLabel) {g : UtcFields} {last : Option String}
    (h : f.absenceEnds = some (g.text, last)) : sortSeconds label f.absentTime = g.clock := by
  rw [absentTime, h]
  dsimp only
  generalize findingTime (last.getD "the event-window end") = stop
  split
  · exact sortSeconds_at label g
  · have hchars : (findingTime g.text ++ "–" ++ stop ++ " UTC").toList =
        g.clockChars ++ '–' :: (stop.toList ++ [' ', 'U', 'T', 'C']) := by
      simp [findingTime_text]
    rw [sortSeconds_eq, hchars, firstClock_clock g (by simp), Option.getD_some]

theorem sortSeconds_exact (label : StepLabel) {g : UtcFields} {t : String}
    (h : ((f.exactRange t).getD (t, t)).1 = g.text) : sortSeconds label (f.exactTime t) = g.clock := by
  rw [exactTime]
  split
  · next lo hi hrange =>
    rw [hrange, Option.getD_some] at h
    obtain rfl : lo = g.text := h
    generalize findingTime hi = stop
    refine sortSeconds_word label g isWord_between ("and ".toList ++ stop.toList ++ " UTC".toList) ?_
    simp [findingTime_text]
  · next hrange =>
    rw [hrange, Option.getD_none] at h
    obtain rfl : t = g.text := h
    exact sortSeconds_at label g

/-- **The clock of a step** is the second of the day of the first time in its text. -/
theorem clock_eq {e : StepSource} {s : String × String} {g : UtcFields}
    (hs : f.span windowEnd e = some s) (hg : s.1 = g.text) : f.clock windowEnd e = g.clock := by
  unfold clock
  cases e with
  | eventBaseline => cases hs
  | preFinding =>
    rw [span] at hs
    split at hs
    · cases hs
    · next hne =>
      obtain rfl := Option.some.inj hs
      exact sortSeconds_until _ hg hne _
  | firstChange =>
    rw [span] at hs
    split at hs
    · cases hs
    · next hne =>
      obtain rfl := Option.some.inj hs
      rw [timeText, if_neg hne, show f.firstTime = g.text from hg]
      exact sortSeconds_at _ g
  | absence =>
    rw [span, absenceSpan] at hs
    obtain ⟨⟨first, last⟩, hends, rfl⟩ := Option.map_eq_some_iff.1 hs
    obtain rfl : first = g.text := hg
    exact sortSeconds_absent _ hends
  | firstReturn =>
    obtain rfl := Option.some.inj hs
    rw [timeText, show f.replacement.1 = g.text from hg]
    exact sortSeconds_word _ g isWord_from ['U', 'T', 'C'] (by simp [findingTime_text])
  | exactReturn t =>
    obtain rfl := Option.some.inj hs
    exact sortSeconds_exact _ hg
  | planeReturn t | equivalentReturn t | later t | changedAgain t =>
    obtain rfl := Option.some.inj hs
    obtain rfl : t = g.text := hg
    exact sortSeconds_at _ g
  | windowEnd =>
    obtain rfl := Option.some.inj hs
    obtain rfl : windowEnd = g.text := hg
    exact sortSeconds_at _ g
  | analysisEnd =>
    obtain rfl := Option.some.inj hs
    rw [timeText, show f.analysisEnd = g.text from hg]
    exact sortSeconds_at _ g

/-! ## One day -/

/-- What the steps stand for, or begin at, are seconds of one day. -/
def OneDay (f : RoutingFinding) (windowEnd : String) (day : Int) : Prop :=
  ∀ e s, f.Gives windowEnd e → f.span windowEnd e = some s →
    ∃ g : UtcFields, s.1 = g.text ∧ g.IsSecond ∧ g.second ≤ 59 ∧ g.seconds / 86400 = day

theorem OneDay.clock_of_start {day : Int} (h : f.OneDay windowEnd day) {e : StepSource}
    (hgives : f.Gives windowEnd e) {x : Int} (hx : f.start parseUtcSeconds windowEnd e = some x) :
    x = day * 86400 + f.clock windowEnd e := by
  obtain ⟨s, hs, hread⟩ := Option.bind_eq_some_iff.1 hx
  obtain ⟨g, hg, hsecond, hle, hday⟩ := h e s hgives hs
  have hparse := UtcFields.parse_text_of_exists hsecond.1 hsecond.inRanges
  rw [hg, hparse] at hread
  have hxg : g.seconds = x := Option.some.inj hread
  rw [clock_eq hs hg, UtcFields.clock_eq hsecond hle]
  omega

/-- **Within a day** the steps that are shown are in the order of their instants. -/
theorem ordered_of_oneDay {day : Int} (h : f.OneDay windowEnd day) :
    (f.shownSteps windowEnd).Pairwise fun p q => ∀ x y, f.start parseUtcSeconds windowEnd p.1 = some x →
      f.start parseUtcSeconds windowEnd q.1 = some y → x ≤ y := by
  have hsorted := (ordered_iff (R := fun a b => ∀ x y, f.start parseUtcSeconds windowEnd a = some x →
    f.start parseUtcSeconds windowEnd b = some y → x ≤ y)).2 fun a b ha hb hab x y hx hy => by
      have hclock : f.clock windowEnd a ≤ f.clock windowEnd b :=
        hab.elim Int.le_of_lt fun heq => heq.1.le
      rw [h.clock_of_start ha hx, h.clock_of_start hb hy]
      exact Int.add_le_add_left hclock _
  exact hsorted.sublist (dedupByKey_sublist _ _)

end RoutingFinding

end Inim
