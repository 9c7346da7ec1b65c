import Inim.Tokenize.Facets
import Inim.Workbench.Findings

/-!
# The difference of two paths (`catalog/workbench.rs:2488-2695`)

`diff_paths` compares how often the ASNs occur on two paths, not their order; `collapse_as_path` of the
lifecycle compares the order, with repeats removed. The two agree on what a change of prepending is
unless the paths differ in order or an AS is visited again (`diffsRight_iff`).

| here | there |
| --- | --- |
| `kindBefore`, `diffPaths` | see `Workbench.Findings` |
| `PlaneDiff`, `planeDiff`  | the other fields of `diff_paths` (:2516-2556) |
| `planePart`, `insertedPart`, `removedPart`, `deltaPart`, `lengthPart`, `joinParts`, `explainPathDiff` | `explain_path_diff_with_origins` (:2577) |
-/

namespace Inim

open Lib

/-! ## Explanations -/

structure PlaneDiff where
  planeRetained : Bool
  planeDeparted : Bool
  planeReturned : Bool
  longer : Bool
  shorter : Bool
deriving DecidableEq, Repr

def planeDiff (before after planeAsns : List UInt32) : PlaneDiff :=
  if after.isEmpty then ⟨false, false, false, false, false⟩
  else
    let beforeHasPlane := planeAsns.any before.contains
    let afterHasPlane := planeAsns.any after.contains
    { planeRetained := beforeHasPlane && afterHasPlane
      planeDeparted := beforeHasPlane && !afterHasPlane
      planeReturned := !beforeHasPlane && afterHasPlane
      longer := decide (before.length < after.length)
      shorter := decide (after.length < before.length) }

section Explain
variable (before after planeAsns : List UInt32) (planeLabel : String) (targetOrigins : List UInt32)
  (names : UInt32 → String)

def planePart : List String :=
  let plane := if planeLabel = "" then "the reviewed path plane" else "the reviewed " ++ planeLabel ++ " path"
  let d := planeDiff before after planeAsns
  if d.planeDeparted then
    ["the route remained visible, but the new selected path no longer traversed " ++ plane]
  else if d.planeRetained then
    ["the route remained visible and continued through " ++ plane ++
      ((planeAsns.find? after.contains).map fun p => " AS" ++ toString p).getD ""]
  else if d.planeReturned then ["the selected path returned to " ++ plane]
  else []

/-- `between … and …`, for an ASN in the middle of the path. -/
def positionOf (first : UInt32) : Option String :=
  (after.findIdx? (· == first)).bind fun i =>
    (if 0 < i then after[i - 1]? else none).bind fun p => (after[i + 1]?).bind fun n =>
      if p ≠ first ∧ n ≠ first then some ("between " ++ names p ++ " and " ++ names n) else none

def insertedPart : List String :=
  match (diffPaths before after).inserted with
  | [] => []
  | first :: rest =>
    (names first ++ " appeared " ++ (positionOf after names first).getD "in the selected path") ::
      if rest = [] then []
      else ["also " ++ String.intercalate ", " (rest.map names) ++ " appeared in the selected path"]

def removedPart : List String :=
  (diffPaths before after).removed.map fun a => names a ++ " left the selected path"

def deltaPart : List String :=
  (diffPaths before after).countDeltas.map fun d =>
    let origin := targetOrigins.contains d.1 ||
      (targetOrigins.isEmpty && (after.getLast? = some d.1 || before.getLast? = some d.1))
    (if origin then "origin-AS prepending" else "prepending") ++
      (if 0 < d.2 then " increased" else " decreased") ++ " from " ++ toString (before.count d.1) ++
      " to " ++ toString (after.count d.1) ++ " AS" ++ toString d.1 ++ " occurrences"

def lengthPart : List String :=
  let d := planeDiff before after []
  if d.longer then ["the selected path became longer"]
  else if d.shorter then ["the selected path became shorter"]
  else []

def explainParts : List String :=
  planePart before after planeAsns planeLabel ++ insertedPart before after names ++
    removedPart before after names ++ deltaPart before after targetOrigins ++ lengthPart before after

/-- What follows the first part. -/
def joinRest : List String → String
  | [] => "."
  | [part] => ", and " ++ part ++ "."
  | part :: parts => ", " ++ part ++ joinRest parts

def unchangedText : String := "The selected path did not materially change."

def joinParts : List String → String
  | [] => unchangedText
  | part :: parts => part ++ joinRest parts

/-- `explain_path_diff_with_origins`; `explain_path_diff` is the case of no target origins. -/
def explainPathDiff : String :=
  if after.isEmpty then "The route was absent between the two observations."
  else if before.isEmpty then "The route became visible (no prior path observed)."
  else joinParts (explainParts before after planeAsns planeLabel targetOrigins names)

end Explain

example : explainPathDiff [64512, 40220, 225] [64512, 40220, 225, 225] [64512] "plane" []
    (fun a => "AS" ++ toString a) =
      "the route remained visible and continued through the reviewed plane path AS64512, " ++
      "origin-AS prepending increased from 1 to 2 AS225 occurrences, " ++
      "and the selected path became longer." := by
  decide +kernel

/-! ## The counts -/

section Counts
variable {before after : List UInt32}

theorem dedupAdjacent_eq_nil {l : List UInt32} : dedupAdjacent l = [] ↔ l = [] := by
  simp only [List.eq_nil_iff_forall_not_mem, mem_dedupAdjacent]

theorem inserted_eq_nil (ha : after ≠ []) :
    (diffPaths before after).inserted = [] ↔ ∀ a ∈ after, a ∈ before := by
  rw [diffPaths, if_neg (by simpa using ha), dedupAdjacent_eq_nil, List.filter_eq_nil_iff]
  simp

theorem removed_eq_nil (ha : after ≠ []) :
    (diffPaths before after).removed = [] ↔ ∀ a ∈ before, a ∈ after := by
  rw [diffPaths, if_neg (by simpa using ha), dedupAdjacent_eq_nil, List.filter_eq_nil_iff]
  simp

/-- Where both paths have the same ASNs, the counts differ if the paths are no rearrangements. -/
theorem countDeltas_eq_nil (ha : after ≠ []) (hsame : ∀ a, a ∈ before ↔ a ∈ after) :
    (diffPaths before after).countDeltas = [] ↔ before.Perm after := by
  rw [diffPaths, if_neg (by simpa using ha), List.map_eq_nil_iff, List.filter_eq_nil_iff,
    List.perm_iff_count]
  constructor
  · intro h a
    by_cases hmem : a ∈ before
    · have hcount := h a (mem_sortDedup.2 (List.mem_append_left _ hmem))
      have hb := List.count_pos_iff.2 hmem
      have ha := List.count_pos_iff.2 ((hsame a).1 hmem)
      simp only [decide_eq_true_eq] at hcount
      omega
    · rw [List.count_eq_zero_of_not_mem hmem, List.count_eq_zero_of_not_mem (mt (hsame a).2 hmem)]
  · intro h a _
    simp [h a]

end Counts

/-! ## What is called a change of prepending -/

section Paths
variable {before after : List UInt32}

/-- The paths have the same ASNs, and are no rearrangements of each other. -/
theorem kindBefore_prepend_iff (kind : String) (rest : List TransitionShape) (ha : after ≠ []) :
    kindBefore ((kind, before, after) :: rest) = .prependChange ↔
      (∀ a, a ∈ before ↔ a ∈ after) ∧ ¬ before.Perm after := by
  have hnil : ∀ l : List UInt32, l.isEmpty = true ↔ l = [] := fun _ => List.isEmpty_iff
  have hsame : (∀ a, a ∈ before ↔ a ∈ after) ↔
      (diffPaths before after).inserted = [] ∧ (diffPaths before after).removed = [] := by
    rw [inserted_eq_nil ha, removed_eq_nil ha]
    constructor
    · intro h
      exact ⟨fun a => (h a).2, fun a => (h a).1⟩
    · rintro ⟨hin, hout⟩ a
      exact ⟨hout a, hin a⟩
  have hkind : kindBefore ((kind, before, after) :: rest) = .prependChange ↔
      ((diffPaths before after).inserted = [] ∧ (diffPaths before after).removed = []) ∧
        ¬ (diffPaths before after).countDeltas = [] := by
    simp only [kindBefore]
    split
    · next h =>
      simp only [Bool.and_eq_true, Bool.not_eq_true', hnil] at h
      refine iff_of_true rfl ⟨h.1, fun hd => ?_⟩
      rw [hd] at h
      exact absurd h.2 (by simp)
    · next h =>
      refine iff_of_false (by simp) ?_
      rintro ⟨⟨hin, hout⟩, hd⟩
      refine h ?_
      rw [hin, hout]
      simpa using hd
  rw [hkind, ← hsame]
  refine and_congr_right fun hs => not_congr (countDeltas_eq_nil ha hs)

/-- Removing adjacent repeats keeps the ASNs. -/
theorem mem_collapseAsPath {a : UInt32} {p : List UInt32} : a ∈ collapseAsPath p ↔ a ∈ p := by
  have hgo : ∀ (last : UInt32) (l : List UInt32), a ∈ collapseAsPath.go last l ↔ a ∈ last :: l := by
    intro last l
    induction l generalizing last with
    | nil => rfl
    | cons b l ih =>
      rw [collapseAsPath.go]
      split
      · next hb => rw [ih, hb]; simp
      · rw [List.mem_cons, ih]; simp
  cases p with
  | nil => rfl
  | cons b l => exact hgo b l

theorem mem_iff_of_collapse_eq (h : collapseAsPath before = collapseAsPath after) (a : UInt32) :
    a ∈ before ↔ a ∈ after := by
  rw [← mem_collapseAsPath, h, mem_collapseAsPath]

/-- An ASN that is not on `other` comes back on `path` after another such ASN. -/
def ReturnsOutside (path other : List UInt32) : Prop :=
  ∃ a b, a ∉ other ∧ b ∉ other ∧ a ≠ b ∧ [a, b, a].Sublist path

theorem noReturn_filter {path other : List UInt32} :
    NoReturn (path.filter (· ∉ other)) ↔ ¬ ReturnsOutside path other := by
  constructor
  · rintro h ⟨a, b, ha, hb, hab, hs⟩
    refine h a b hab ?_
    have hf := hs.filter (fun x => decide (x ∉ other))
    simpa [ha, hb] using hf
  · intro h a b hab hs
    have hmem : ∀ x ∈ [a, b, a], x ∉ other := fun x hx =>
      of_decide_eq_true (List.mem_filter.1 (hs.subset hx)).2
    exact h ⟨a, b, hmem a (by simp), hmem b (by simp), hab, hs.trans List.filter_sublist⟩

theorem inserted_nodup_iff (ha : after ≠ []) :
    (diffPaths before after).inserted.Nodup ↔ ¬ ReturnsOutside after before := by
  rw [diffPaths, if_neg (by simpa using ha), dedupAdjacent_nodup_iff, noReturn_filter]

theorem removed_nodup_iff (ha : after ≠ []) :
    (diffPaths before after).removed.Nodup ↔ ¬ ReturnsOutside before after := by
  rw [diffPaths, if_neg (by simpa using ha), dedupAdjacent_nodup_iff, noReturn_filter]

/-! ## What is said of a change -/

/-- No part that comes first makes the sentence the one for unchanged paths. -/
theorem joinParts_eq_iff {parts : List String}
    (h : ∀ part ∈ parts.head?, ¬ part.toList <+: unchangedText.toList) :
    joinParts parts = unchangedText ↔ parts = [] := by
  cases parts with
  | nil => exact iff_of_true rfl rfl
  | cons part rest =>
    refine iff_of_false (fun heq => ?_) (by simp)
    refine h part rfl ⟨(joinRest rest).toList, ?_⟩
    rw [← heq, joinParts, String.toList_append]

theorem not_prefix_of_infix {s part text : List Char} (hs : s <:+: part) (ht : ¬ s <:+: text) :
    ¬ part <+: text := fun h => ht (hs.trans h.isInfix)

theorem head?_append_all {P : String → Prop} {l m : List String} (hl : ∀ x ∈ l.head?, P x)
    (hm : ∀ x ∈ m.head?, P x) : ∀ x ∈ (l ++ m).head?, P x := by
  cases l with
  | nil => exact hm
  | cons a l => exact hl

/-- Whatever comes first in an explanation, it does not begin the sentence for unchanged paths. -/
theorem head_explainParts (planeAsns : List UInt32) (planeLabel : String) (targetOrigins : List UInt32)
    (names : UInt32 → String) :
    ∀ part ∈ (explainParts before after planeAsns planeLabel targetOrigins names).head?,
      ¬ part.toList <+: unchangedText.toList := by
  have hstart : ∀ a b : String, ¬ a.toList <:+: unchangedText.toList →
      ¬ (a ++ b).toList <+: unchangedText.toList := by
    intro a b ha
    exact not_prefix_of_infix ⟨[], b.toList, by simp⟩ ha
  have hmiddle : ∀ a b c : String, ¬ b.toList <:+: unchangedText.toList →
      ¬ (a ++ b ++ c).toList <+: unchangedText.toList := by
    intro a b c hb
    exact not_prefix_of_infix ⟨a.toList, c.toList, by simp⟩ hb
  refine head?_append_all (head?_append_all (head?_append_all (head?_append_all ?_ ?_) ?_) ?_) ?_
  · intro part hpart
    unfold planePart at hpart
    dsimp only at hpart
    split at hpart
    · obtain rfl := Option.mem_some_iff.1 hpart
      exact hstart _ _ (by decide)
    split at hpart
    · obtain rfl := Option.mem_some_iff.1 hpart
      rw [String.append_assoc]
      exact hstart _ _ (by decide)
    split at hpart
    · obtain rfl := Option.mem_some_iff.1 hpart
      exact hstart _ _ (by decide)
    · cases hpart
  · intro part hpart
    unfold insertedPart at hpart
    split at hpart
    · cases hpart
    · obtain rfl := Option.mem_some_iff.1 hpart
      exact hmiddle _ _ _ (by decide)
  · intro part hpart
    obtain ⟨a, -, rfl⟩ := List.mem_map.1 (List.mem_of_mem_head? hpart)
    exact not_prefix_of_infix (s := " left the selected path".toList) ⟨(names a).toList, [], by simp⟩
      (by decide)
  · intro part hpart
    obtain ⟨d, -, rfl⟩ := List.mem_map.1 (List.mem_of_mem_head? hpart)
    dsimp only
    simp only [String.append_assoc]
    split
    · exact hstart _ _ (by decide)
    · exact hstart _ _ (by decide)
  · intro part hpart
    unfold lengthPart at hpart
    dsimp only at hpart
    split at hpart
    · obtain rfl := Option.mem_some_iff.1 hpart
      decide
    split at hpart
    · obtain rfl := Option.mem_some_iff.1 hpart
      decide
    · cases hpart

theorem planeDiff_of_ne_nil (planeAsns : List UInt32) (ha : after ≠ []) :
    planeDiff before after planeAsns =
      ⟨planeAsns.any before.contains && planeAsns.any after.contains,
        planeAsns.any before.contains && !planeAsns.any after.contains,
        !planeAsns.any before.contains && planeAsns.any after.contains,
        decide (before.length < after.length), decide (after.length < before.length)⟩ := by
  rw [planeDiff, if_neg (by simpa using ha)]

theorem planePart_eq_nil (planeAsns : List UInt32) (planeLabel : String) (ha : after ≠ []) :
    planePart before after planeAsns planeLabel = [] ↔
      ∀ p ∈ planeAsns, p ∉ before ∧ p ∉ after := by
  have hany : ∀ l : List UInt32, planeAsns.any l.contains = false ↔ ∀ p ∈ planeAsns, p ∉ l := by
    simp [List.any_eq_false]
  have hboth : (∀ p ∈ planeAsns, p ∉ before ∧ p ∉ after) ↔
      planeAsns.any before.contains = false ∧ planeAsns.any after.contains = false := by
    rw [hany, hany]
    exact ⟨fun h => ⟨fun p hp => (h p hp).1, fun p hp => (h p hp).2⟩,
      fun h p hp => ⟨h.1 p hp, h.2 p hp⟩⟩
  rw [hboth, planePart, planeDiff_of_ne_nil planeAsns ha]
  cases planeAsns.any before.contains <;> cases planeAsns.any after.contains <;> simp

theorem lengthPart_eq_nil (ha : after ≠ []) :
    lengthPart before after = [] ↔ before.length = after.length := by
  rw [lengthPart, planeDiff_of_ne_nil [] ha]
  dsimp only
  rcases Nat.lt_trichotomy before.length after.length with hlt | heq | hgt
  · simp [hlt, hlt.ne]
  · simp [heq]
  · simp [hgt, hgt.ne', Nat.lt_asymm hgt]

/-- Nothing is said of a rearrangement off the plane. -/
theorem explainParts_eq_nil (planeAsns : List UInt32) (planeLabel : String)
    (targetOrigins : List UInt32) (names : UInt32 → String) (ha : after ≠ []) :
    explainParts before after planeAsns planeLabel targetOrigins names = [] ↔
      before.Perm after ∧ ∀ p ∈ planeAsns, p ∉ before := by
  have hinserted : insertedPart before after names = [] ↔ ∀ a ∈ after, a ∈ before := by
    rw [← inserted_eq_nil ha, insertedPart]
    cases (diffPaths before after).inserted <;> simp
  have hremoved : removedPart before after names = [] ↔ ∀ a ∈ before, a ∈ after := by
    rw [← removed_eq_nil ha, removedPart, List.map_eq_nil_iff]
  have hdelta : deltaPart before after targetOrigins = [] ↔
      (diffPaths before after).countDeltas = [] := by
    rw [deltaPart, List.map_eq_nil_iff]
  simp only [explainParts, List.append_eq_nil_iff, planePart_eq_nil planeAsns planeLabel ha, hinserted,
    hremoved, hdelta, lengthPart_eq_nil ha]
  constructor
  · rintro ⟨⟨⟨⟨hplane, hin⟩, hout⟩, hcounts⟩, -⟩
    have hsame : ∀ a, a ∈ before ↔ a ∈ after := fun a => ⟨hout a, hin a⟩
    exact ⟨(countDeltas_eq_nil ha hsame).1 hcounts, fun p hp => (hplane p hp).1⟩
  · rintro ⟨hperm, hplane⟩
    have hsame : ∀ a, a ∈ before ↔ a ∈ after := fun _ => hperm.mem_iff
    refine ⟨⟨⟨⟨fun p hp => ⟨hplane p hp, mt (hsame p).2 (hplane p hp)⟩, fun a => (hsame a).2⟩,
      fun a => (hsame a).1⟩, (countDeltas_eq_nil ha hsame).2 hperm⟩, hperm.length_eq⟩

theorem explainPathDiff_unchanged_iff (planeAsns : List UInt32) (planeLabel : String)
    (targetOrigins : List UInt32) (names : UInt32 → String) (hb : before ≠ []) (ha : after ≠ []) :
    explainPathDiff before after planeAsns planeLabel targetOrigins names = unchangedText ↔
      before.Perm after ∧ ∀ p ∈ planeAsns, p ∉ before := by
  rw [explainPathDiff, if_neg (by simpa using ha), if_neg (by simpa using hb),
    joinParts_eq_iff (head_explainParts planeAsns planeLabel targetOrigins names),
    explainParts_eq_nil planeAsns planeLabel targetOrigins names ha]

end Paths

/-! ## Where the difference is right -/

/-- A change is called one of prepending if the paths are one when repeats are removed, the ASNs that came
and went are listed once, and only equal paths are said to be unchanged. -/
structure DiffsRight (before after planeAsns : List UInt32) (planeLabel : String)
    (targetOrigins : List UInt32) (names : UInt32 → String) : Prop where
  prepend : ∀ kind rest, kindBefore ((kind, before, after) :: rest) = .prependChange ↔
    collapseAsPath before = collapseAsPath after
  inserted : (diffPaths before after).inserted.Nodup
  removed : (diffPaths before after).removed.Nodup
  unchanged : explainPathDiff before after planeAsns planeLabel targetOrigins names = unchangedText →
    before = after

/-- **Where the difference of two paths is right.** For two paths that are not empty and not equal: if
they have the same ASNs, they are rearrangements of each other just when their order differs; no ASN that
is only on one of them comes back there after another one; and they are no rearrangements off the plane. -/
theorem diffsRight_iff {before after : List UInt32} (hb : before ≠ []) (ha : after ≠ [])
    (hne : before ≠ after) (planeAsns : List UInt32) (planeLabel : String)
    (targetOrigins : List UInt32) (names : UInt32 → String) :
    DiffsRight before after planeAsns planeLabel targetOrigins names ↔
      ((∀ a, a ∈ before ↔ a ∈ after) →
        (before.Perm after ↔ collapseAsPath before ≠ collapseAsPath after)) ∧
      ¬ ReturnsOutside after before ∧ ¬ ReturnsOutside before after ∧
      ¬ (before.Perm after ∧ ∀ p ∈ planeAsns, p ∉ before) := by
  have hprepend : (∀ kind rest, kindBefore ((kind, before, after) :: rest) = .prependChange ↔
      collapseAsPath before = collapseAsPath after) ↔ ((∀ a, a ∈ before ↔ a ∈ after) →
        (before.Perm after ↔ collapseAsPath before ≠ collapseAsPath after)) := by
    have hsame := @mem_iff_of_collapse_eq before after
    constructor
    · intro h hs
      have hk := h "" []
      rw [kindBefore_prepend_iff _ _ ha] at hk
      tauto
    · intro h kind rest
      rw [kindBefore_prepend_iff _ _ ha]
      tauto
  have hunchanged := explainPathDiff_unchanged_iff planeAsns planeLabel targetOrigins names hb ha
  rw [← hprepend, ← inserted_nodup_iff ha, ← removed_nodup_iff ha, ← hunchanged]
  constructor
  · rintro ⟨h1, h2, h3, h4⟩
    exact ⟨h1, h2, h3, fun h => hne (h4 h)⟩
  · rintro ⟨h1, h2, h3, h4⟩
    exact ⟨h1, h2, h3, fun h => absurd h h4⟩

/-- A longer tail of prepending is called what it is. -/
theorem diffsRight_prepend_of_origin :
    DiffsRight [64512, 225] [64512, 225, 225] [64512] "plane" [225] fun a => "AS" ++ toString a := by
  have hin : ∀ p q : List UInt32, (∀ a ∈ p, a ∈ q) → ¬ ReturnsOutside p q := by
    rintro p q h ⟨a, b, ha, -, -, hs⟩
    exact ha (h a (hs.subset List.mem_cons_self))
  have hperm : ¬ [64512, 225].Perm ([64512, 225, 225] : List UInt32) :=
    fun h => absurd h.length_eq (by decide)
  refine (diffsRight_iff (by decide) (by decide) (by decide) [64512] "plane" [225] _).2
    ⟨fun _ => ?_, ?_, ?_, ?_⟩
  · exact iff_of_false hperm (by decide)
  · exact hin _ _ (by simp)
  · exact hin _ _ (by simp)
  · exact fun h => hperm h.1

/-- **Bug**: two paths with their middle swapped and one repeat more are a change of prepending, an AS that
leaves and comes back appears twice, and a swap alone is no change. -/
theorem reordered_path_is_prepending :
    ¬ DiffsRight [1, 2, 3] [1, 3, 2, 2] [] "" [] (fun a => toString a) ∧
      kindBefore [("PathReplacement", [1, 2, 3], [1, 3, 2, 2])] = .prependChange ∧
      (diffPaths [1] [1, 2, 3, 2]).inserted = [2, 3, 2] ∧
      explainPathDiff [1, 2, 3] [1, 3, 2] [] "" [] (fun a => toString a) = unchangedText := by
  have hkind : kindBefore [("PathReplacement", [1, 2, 3], [1, 3, 2, 2])] = .prependChange := by
    decide +kernel
  refine ⟨fun h => ?_, hkind, by decide +kernel, by decide +kernel⟩
  have hcollapse := (h.prepend "PathReplacement" []).1 hkind
  revert hcollapse
  decide

end Inim
