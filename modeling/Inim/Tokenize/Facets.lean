import Inim.Lifecycle.Build
/-!
# The facets of a change (`tokenize.rs:27-136`)

`GenericTransitionEffects` promises facets that "are always computed" (`route.rs:184`). Where both
paths are there and the continuity is known, `diff_states` computes eight of the nine.

* **Bug**: `next_hop_changed` is declared (`route.rs:209`) and counted for the wave
  (`lifecycle.rs:711`), and no line sets it. `facetsExact_iff`: the facets are exact iff the next
  hop did not change.
* **Bug**: prepends moved inside a path of the same length ([1, 1, 2] to [1, 2, 2]) fall into the
  `else` of both classifiers and are reported as `Increased`, "prepend count increased"
  (`route.rs:218`). `prependExact_iff`: the two are right iff the lengths differ.
-/

namespace Inim

/-- The effects a step between two known, present routes with different attributes gets, whatever
the primary kind. -/
theorem diffStates_effects (baseline : Option RouteState) {f t : RouteState}
    (hne : f.attributes ≠ t.attributes) (ht : t.attributes.asPath ≠ []) :
    (diffStates baseline (some f) t .known).2 = transitionEffects f t := by
  unfold diffStates
  simp only [reduceCtorEq, if_false, ht, hne]
  split <;> rfl

/-! ## Every facet against its attribute -/

/-- Some attribute a facet is about differs. -/
def modelledDiffers (f t : RouteAttributes) : Prop :=
  f.asPath ≠ t.asPath ∨ f.communities ≠ t.communities ∨ f.med ≠ t.med ∨
    f.localPref ≠ t.localPref ∨ f.origin ≠ t.origin ∨ f.nextHop ≠ t.nextHop

/-- Each facet is set exactly when its attribute differs. -/
structure FacetsExact (f t : RouteAttributes) (e : GenericTransitionEffects) : Prop where
  med : e.medChanged = true ↔ f.med ≠ t.med
  localPref : e.localPrefChanged = true ↔ f.localPref ≠ t.localPref
  origin : e.originChanged = true ↔ f.origin ≠ t.origin
  nextHop : e.nextHopChanged = true ↔ f.nextHop ≠ t.nextHop
  communities : e.communitiesChanged = true ↔ f.communities ≠ t.communities
  gshutAdded : e.gracefulShutdownAdded = true ↔
    gshutCommunity ∉ f.communities ∧ gshutCommunity ∈ t.communities
  gshutRemoved : e.gracefulShutdownRemoved = true ↔
    gshutCommunity ∈ f.communities ∧ gshutCommunity ∉ t.communities
  materialPath : e.materialPathChanged = true ↔ collapseAsPath f.asPath ≠ collapseAsPath t.asPath
  prepend : e.prepend ≠ .none ↔
    f.asPath ≠ t.asPath ∧ collapseAsPath f.asPath = collapseAsPath t.asPath
  /-- all facets clear: nothing a facet is about differs -/
  clear : e = {} → ¬ modelledDiffers f t

theorem transitionEffects_prepend_ne_none (f t : RouteState) :
    (transitionEffects f t).prepend ≠ .none ↔ f.attributes.asPath ≠ t.attributes.asPath ∧
      collapseAsPath f.attributes.asPath = collapseAsPath t.attributes.asPath := by
  simp only [transitionEffects]
  split
  · next h =>
    refine iff_of_true ?_ h
    split <;> simp
  · next h => simpa using h

theorem transitionEffects_materialPath (f t : RouteState) :
    (transitionEffects f t).materialPathChanged = true ↔
      collapseAsPath f.attributes.asPath ≠ collapseAsPath t.attributes.asPath := by
  simp only [transitionEffects, decide_eq_true_eq]
  refine ⟨fun h => h.2, fun h => ⟨fun heq => h (by rw [heq]), h⟩⟩

/-- With the next hop left alone, clear facets mean equal attributes, as far as facets go. -/
theorem not_modelledDiffers_of_clear {f t : RouteState}
    (hnh : f.attributes.nextHop = t.attributes.nextHop) (h : transitionEffects f t = {}) :
    ¬ modelledDiffers f.attributes t.attributes := by
  have hpath : f.attributes.asPath = t.attributes.asPath := by
    by_contra hne
    have hprep := transitionEffects_prepend_ne_none f t
    have hmat := transitionEffects_materialPath f t
    rw [h] at hprep hmat
    by_cases hc : collapseAsPath f.attributes.asPath = collapseAsPath t.attributes.asPath
    · exact hprep.2 ⟨hne, hc⟩ rfl
    · exact absurd (hmat.2 hc) (by decide)
  simp only [transitionEffects, GenericTransitionEffects.mk.injEq, decide_eq_false_iff_not,
    not_not] at h
  obtain ⟨-, -, -, -, hcomm, hmed, hpref, horigin, -⟩ := h
  simp only [modelledDiffers, hpath, hcomm, hmed, hpref, horigin, hnh, ne_eq, not_true, or_self,
    not_false_eq_true]

/-- **The facets are exact iff the next hop did not change**, for present routes with different
attributes, a new path that is not empty and known continuity. -/
theorem facetsExact_iff (baseline : Option RouteState) (f t : RouteState)
    (hne : f.attributes ≠ t.attributes) (ht : t.attributes.asPath ≠ []) :
    FacetsExact f.attributes t.attributes (diffStates baseline (some f) t .known).2 ↔
      f.attributes.nextHop = t.attributes.nextHop := by
  rw [diffStates_effects baseline hne ht]
  constructor
  · intro h
    by_contra hnh
    exact absurd (h.nextHop.2 hnh) (by simp [transitionEffects])
  · intro hnh
    refine ⟨?_, ?_, ?_, ?_, ?_, ?_, ?_, transitionEffects_materialPath f t,
      transitionEffects_prepend_ne_none f t, not_modelledDiffers_of_clear hnh⟩
    · simp [transitionEffects]
    · simp [transitionEffects]
    · simp [transitionEffects]
    · simp [transitionEffects, hnh]
    · simp [transitionEffects]
    · simp [transitionEffects, RouteAttributes.hasGshut]
    · simp [transitionEffects, RouteAttributes.hasGshut]

/-- A present route of `10.0.0.0/8` with the given path and next hop. -/
def routeVia (asPath : List UInt32) (nextHop : Option IpAddr) : RouteState :=
  ⟨"10.0.0.0/8", { RouteAttributes.fromAsPath asPath with nextHop := nextHop }, 0, "rv:0.0.0.1", none⟩

/-- **Bug**: only the next hop moves, the attributes differ, and every facet is clear. -/
theorem nextHop_facet_never_set :
    (routeVia [1, 2] (some (.v4 1))).attributes ≠ (routeVia [1, 2] (some (.v4 2))).attributes ∧
    diffStates none (some (routeVia [1, 2] (some (.v4 1)))) (routeVia [1, 2] (some (.v4 2))) .known =
      (.attributeChange, {}) ∧
    ¬ FacetsExact (routeVia [1, 2] (some (.v4 1))).attributes
      (routeVia [1, 2] (some (.v4 2))).attributes
      (diffStates none (some (routeVia [1, 2] (some (.v4 1)))) (routeVia [1, 2] (some (.v4 2))) .known).2 := by
  refine ⟨by decide, by decide, ?_⟩
  intro h
  exact absurd (h.nextHop.2 (by decide)) (by decide)

theorem facetsExact_iff_prepended :
    (routeVia [1, 2] none).attributes ≠ (routeVia [1, 2, 2] none).attributes ∧
    (FacetsExact (routeVia [1, 2] none).attributes (routeVia [1, 2, 2] none).attributes
      (diffStates none (some (routeVia [1, 2] none)) (routeVia [1, 2, 2] none) .known).2 ↔
        (routeVia [1, 2] none).attributes.nextHop = (routeVia [1, 2, 2] none).attributes.nextHop) :=
  ⟨by decide, facetsExact_iff none _ _ (by decide) (by decide)⟩

/-! ## Prepends -/

/-- What the two prepend classifiers say of a pair of states agrees, and is right. -/
structure PrependExact (p q : List UInt32) (change : PrependChange) (shape : PathShapeChange) : Prop where
  agreeIncreased : change = .increased ↔ shape = .prependIncreased
  agreeReduced : change = .reduced ↔ shape = .prependReduced
  increased : change = .increased ↔ p.length < q.length
  reduced : change = .reduced ↔ q.length < p.length

theorem collapseAsPath_ne_nil (a : UInt32) (l : List UInt32) : collapseAsPath (a :: l) ≠ [] := by
  have hgo (last : UInt32) (l : List UInt32) : collapseAsPath.go last l ≠ [] := by
    induction l with
    | nil => simp [collapseAsPath.go]
    | cons b l ih =>
      simp only [collapseAsPath.go]
      split
      · exact ih
      · simp
  exact hgo a l

/-- Only the empty path collapses to nothing. -/
theorem collapseAsPath_eq_nil_iff (p : List UInt32) : collapseAsPath p = [] ↔ p = [] := by
  cases p with
  | nil => simp [collapseAsPath]
  | cons a l => simp [collapseAsPath_ne_nil]

/-- **Both prepend classifiers are right iff the lengths differ**, for different paths that
collapse to the same one, whatever the other attributes, the baseline and the predicate. -/
theorem prependExact_iff (baseline : Option RouteState) (pred : TransitPredicate) (f t : RouteState)
    (hne : f.attributes.asPath ≠ t.attributes.asPath)
    (hcol : collapseAsPath f.attributes.asPath = collapseAsPath t.attributes.asPath) :
    PrependExact f.attributes.asPath t.attributes.asPath
      (diffStates baseline (some f) t .known).2.prepend (classifyPathChange f t pred) ↔
      f.attributes.asPath.length ≠ t.attributes.asPath.length := by
  have ht : t.attributes.asPath ≠ [] := by
    intro h
    rw [h, (collapseAsPath_eq_nil_iff []).2 rfl, collapseAsPath_eq_nil_iff] at hcol
    exact hne (hcol.trans h.symm)
  have hattr : f.attributes ≠ t.attributes := fun h => hne (by rw [h])
  have hprep : (diffStates baseline (some f) t .known).2.prepend =
      if t.attributes.asPath.length < f.attributes.asPath.length then .reduced else .increased := by
    rw [diffStates_effects baseline hattr ht]
    simp [transitionEffects, hne, hcol]
  have hshape : classifyPathChange f t pred =
      if t.attributes.asPath.length < f.attributes.asPath.length then .prependReduced
      else .prependIncreased := by
    simp [classifyPathChange, collapsedEquivalent, hcol]
  rw [hprep, hshape]
  by_cases hlt : t.attributes.asPath.length < f.attributes.asPath.length
  · simp only [hlt, if_true]
    refine iff_of_true ⟨by simp, by simp, ?_, by simp [hlt]⟩ (by omega)
    simpa using hlt.le
  · simp only [hlt, if_false]
    constructor
    · intro h
      have := h.increased.1 rfl
      omega
    · intro hlen
      refine ⟨by simp, by simp, ?_, by simpa using not_lt.1 hlt⟩
      refine iff_of_true rfl ?_
      omega

/-- **Bug**: two prepends of 1 become two of 2, and both classifiers report an increase. -/
theorem redistribution_reported_increased :
    collapseAsPath [1, 1, 2] = collapseAsPath [1, 2, 2] ∧
    (diffStates none (some (routeVia [1, 1, 2] none)) (routeVia [1, 2, 2] none) .known).2.prepend =
      .increased ∧
    classifyPathChange (routeVia [1, 1, 2] none) (routeVia [1, 2, 2] none) (.containsAny [1]) =
      .prependIncreased ∧
    ¬ PrependExact [1, 1, 2] [1, 2, 2]
      (diffStates none (some (routeVia [1, 1, 2] none)) (routeVia [1, 2, 2] none) .known).2.prepend
      (classifyPathChange (routeVia [1, 1, 2] none) (routeVia [1, 2, 2] none) (.containsAny [1])) := by
  refine ⟨by decide, by decide, by decide, ?_⟩
  intro h
  exact absurd (h.increased.1 (by decide)) (by decide)

theorem prependExact_iff_oneMore :
    collapseAsPath (routeVia [1, 2] none).attributes.asPath =
      collapseAsPath (routeVia [1, 2, 2] none).attributes.asPath ∧
    (PrependExact (routeVia [1, 2] none).attributes.asPath (routeVia [1, 2, 2] none).attributes.asPath
      (diffStates none (some (routeVia [1, 2] none)) (routeVia [1, 2, 2] none) .known).2.prepend
      (classifyPathChange (routeVia [1, 2] none) (routeVia [1, 2, 2] none) (.containsAny [1])) ↔
        (routeVia [1, 2] none).attributes.asPath.length ≠
          (routeVia [1, 2, 2] none).attributes.asPath.length) :=
  ⟨by decide, prependExact_iff none (.containsAny [1]) _ _ (by decide) (by decide)⟩

end Inim
