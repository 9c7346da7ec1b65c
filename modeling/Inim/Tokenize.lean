import Inim.Domain.Route
/-!
# Transition classification (`tokenize.rs`)

| here | there |
| --- | --- |
| `collapseAsPath`          | `lifecycle.rs:27` |
| `diffStates`              | `diff_states` (`tokenize.rs:29-135`) |
| `transitionOf`, `tokenize` | `tokenize` (`tokenize.rs:141-185`); `_baseline_store` is not read there |
-/

namespace Inim

/-- Collapse runs of one ASN: the loop pushes an ASN that differs from the last one kept. -/
def collapseAsPath : List UInt32 → List UInt32
  | [] => []
  | a :: rest => go a rest
where
  go (last : UInt32) : List UInt32 → List UInt32
    | [] => [last]
    | b :: rest => if b = last then go last rest else last :: go b rest

example : collapseAsPath [11537, 40220, 225, 225, 225] = [11537, 40220, 225] := by decide

/-- The GRACEFUL_SHUTDOWN community. -/
def gshutCommunity : String := "65535:0"

def RouteAttributes.hasGshut (a : RouteAttributes) : Bool := a.communities.contains gshutCommunity

/-- The effects `diff_states` computes once it knows both states and that they differ. -/
def transitionEffects (from_ to_ : RouteState) : GenericTransitionEffects :=
  let f := from_.attributes
  let t := to_.attributes
  let pathChanged := f.asPath ≠ t.asPath
  let prependOnly := collapseAsPath f.asPath = collapseAsPath t.asPath
  { gracefulShutdownAdded := !f.hasGshut && t.hasGshut
    gracefulShutdownRemoved := f.hasGshut && !t.hasGshut
    communitiesChanged := decide (f.communities ≠ t.communities)
    medChanged := decide (f.med ≠ t.med)
    localPrefChanged := decide (f.localPref ≠ t.localPref)
    originChanged := decide (f.origin ≠ t.origin)
    prepend :=
      if pathChanged ∧ prependOnly then
        if t.asPath.length < f.asPath.length then .reduced else .increased
      else .none
    materialPathChanged := decide (pathChanged ∧ ¬ prependOnly)
    nextHopChanged := false }

def diffStates (baseline from_ : Option RouteState) (to_ : RouteState) (continuity : Continuity) :
    TransitionKind × GenericTransitionEffects :=
  if continuity = .unknown then (.sessionReset, {})
  else match from_ with
    | none => (.announcement, {})
    | some f =>
      -- an empty AS path counts as a withdrawal
      if to_.attributes.asPath = [] then (.withdrawal, {})
      else if f.attributes = to_.attributes then (.duplicate, {})
      else if f.attributes.asPath ≠ to_.attributes.asPath then
        let kind :=
          if baseline.map (·.attributes.asPath) = some to_.attributes.asPath then .returnToBaseline
          else .pathReplacement f.attributes.asPath to_.attributes.asPath
        (kind, transitionEffects f to_)
      else (.attributeChange, transitionEffects f to_)

/-- One element of `tokenize`. -/
def transitionOf (sc : StateChange) : RouteTransition :=
  let fromState := sc.before.bind (·.state)
  let kindEffects : TransitionKind × GenericTransitionEffects := match fromState, sc.after.state with
    | _, none => (.withdrawal, {})
    | none, some _ => (.announcement, {})
    | some _, some to_ => diffStates (sc.eventBaseline.bind (·.state)) fromState to_ sc.continuity
  { key := sc.key
    eventBaseline := sc.eventBaseline
    from_ := sc.before
    to_ := sc.after
    kind := kindEffects.1
    effects := kindEffects.2
    triggering := sc.triggering
    phase := sc.phase }

def tokenize (changes : List StateChange) : List RouteTransition := changes.map transitionOf

/-- A change is classified as a withdrawal iff the route is gone, or a held route is replaced by
one with an empty AS path while the collector's continuity is known. -/
theorem transitionOf_withdrawal_iff (sc : StateChange) :
    (transitionOf sc).kind = .withdrawal ↔
      sc.after.state = none ∨ (sc.continuity = .known ∧ (sc.before.bind (·.state)).isSome = true ∧
        (sc.after.state.map (·.attributes.asPath)) = some []) := by
  cases hto : sc.after.state with
  | none => simp [transitionOf, hto]
  | some to_ =>
    cases hfrom : sc.before.bind (·.state) with
    | none => simp [transitionOf, hto, hfrom]
    | some f =>
      cases hc : sc.continuity with
      | unknown => simp [transitionOf, hto, hfrom, hc, diffStates]
      | known =>
        by_cases hp : to_.attributes.asPath = []
        · simp [transitionOf, hto, hfrom, hc, diffStates, hp]
        · simp only [transitionOf, hto, hfrom, hc, diffStates, hp, reduceCtorEq, if_false,
            Option.map_some, Option.some.injEq, and_false, or_false, iff_false]
          split
          · simp
          · split
            · dsimp only
              split <;> simp
            · simp

end Inim
