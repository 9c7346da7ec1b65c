import Inim.Lifecycle.Restoration
/-!
# The tag before a withdrawal (`lifecycle.rs:976-1102`, `:1200-1210`, `:339-345`)

`gshut_before_withdrawal` is documented as "65535:0 was present before a stream withdrawal". It is
set at any withdrawal of an instance, from `last_had_gshut`: one flag for the stream, the tag of
whichever instance changed last (of the principal baseline instance before any has).

So only the first withdrawal that directly follows a tagged transition matters
(`gshutSound_iff`): whether it takes the stream's last instance, and from a tagged route.
-/

namespace Inim

open Std Inim.Lib

/-- `last_had_gshut` where the next transition comes after `l`. -/
def lastTag (baseline : InstanceMap) (l : List RouteTransition) : Bool :=
  (l.getLast?.map RouteTransition.toGshut).getD (gshutAtBaseline baseline)

/-- A stream-level withdrawal of an instance whose route carries the tag. -/
def taggedLoss (active : InstanceMap) (t : RouteTransition) : Bool :=
  losesStream active t && t.fromGshut

/-- A withdrawal that directly follows a tagged transition of the stream. -/
def afterTag (baseline : InstanceMap) (pre : List RouteTransition) (t : RouteTransition) : Bool :=
  t.kind == .withdrawal && lastTag baseline pre

section Flag
variable {pred : TransitPredicate} {baseline : InstanceMap} {l : List RouteTransition}

theorem Sim.run_lastHadGshut (pred : TransitPredicate) (baseline : InstanceMap)
    (l : List RouteTransition) : (Sim.run pred baseline l).lastHadGshut = lastTag baseline l := by
  rcases List.eq_nil_or_concat l with rfl | ⟨l, t, rfl⟩
  · rfl
  · rw [List.concat_eq_append, run_concat, step_lastHadGshut]
    simp [lastTag]

/-- The flag: some withdrawal directly follows a tagged transition. -/
theorem Sim.run_gshutBeforeWithdrawal (pred : TransitPredicate) (baseline : InstanceMap)
    (l : List RouteTransition) : (Sim.run pred baseline l).gshutBeforeWithdrawal = true ↔
      ∃ pre t post, l = pre ++ t :: post ∧ afterTag baseline pre t = true := by
  induction l using List.reverseRecOn with
  | nil => simp [Sim.init]
  | append_singleton l t ih =>
    rw [run_concat, step_gshutBeforeWithdrawal, exists_split_concat, ← ih, run_lastHadGshut,
      Bool.or_eq_true]
    rfl

/-- The flag says what it is documented to: there is such a withdrawal, and nothing else sets it. -/
structure GshutSound (opk : ObserverPrefixKey) (cooldownEnd : DateTime) (pred : TransitPredicate)
    (baseline : InstanceMap) (l : List RouteTransition) : Prop where
  sound : (buildOneLifecycle opk baseline l cooldownEnd pred).gshutBeforeWithdrawal = true →
    (buildOneLifecycle opk baseline l cooldownEnd pred).wasWithdrawn = true ∧
      ∃ pre t post, l = pre ++ t :: post ∧ taggedLoss (activeRun baseline pre) t = true
  sets : ∀ pre t post, l = pre ++ t :: post →
    (buildOneLifecycle opk baseline pre cooldownEnd pred).gshutBeforeWithdrawal = false →
    (buildOneLifecycle opk baseline (pre ++ [t]) cooldownEnd pred).gshutBeforeWithdrawal = true →
    taggedLoss (activeRun baseline pre) t = true

/-- The first withdrawal that directly follows a tagged transition is a stream-level one of a tagged
route. -/
def FirstTagLeadsToLoss (baseline : InstanceMap) (l : List RouteTransition) : Prop :=
  ∀ pre t post, l = pre ++ t :: post → afterTag baseline pre t = true →
    (∀ pre' t' post', pre = pre' ++ t' :: post' → afterTag baseline pre' t' = false) →
    taggedLoss (activeRun baseline pre) t = true

theorem first_of_exists {P : List RouteTransition → RouteTransition → Bool}
    (h : ∃ pre t post, l = pre ++ t :: post ∧ P pre t = true) :
    ∃ pre t post, l = pre ++ t :: post ∧ P pre t = true ∧
      ∀ pre' t' post', pre = pre' ++ t' :: post' → P pre' t' = false := by
  induction l using List.reverseRecOn with
  | nil => simp at h
  | append_singleton l t ih =>
    by_cases hl : ∃ pre t post, l = pre ++ t :: post ∧ P pre t = true
    · obtain ⟨pre, u, post, rfl, hP, hfirst⟩ := ih hl
      exact ⟨pre, u, post ++ [t], by simp, hP, hfirst⟩
    · have hP := (exists_split_concat.1 h).resolve_left hl
      refine ⟨l, t, [], rfl, hP, fun pre' t' post' heq => ?_⟩
      rw [Bool.eq_false_iff]
      exact fun hP' => hl ⟨pre', t', post', heq, hP'⟩

/-- **The flag is sound iff** the first withdrawal directly after a tagged transition takes the
stream's last instance, and from a tagged route. -/
theorem gshutSound_iff (opk : ObserverPrefixKey) (cooldownEnd : DateTime) (pred : TransitPredicate)
    (baseline : InstanceMap) (l : List RouteTransition) :
    GshutSound opk cooldownEnd pred baseline l ↔ FirstTagLeadsToLoss baseline l := by
  have hflag : ∀ l, (buildOneLifecycle opk baseline l cooldownEnd pred).gshutBeforeWithdrawal = true ↔
      ∃ pre t post, l = pre ++ t :: post ∧ afterTag baseline pre t = true :=
    Sim.run_gshutBeforeWithdrawal pred baseline
  constructor
  · intro h pre t post hl htag hfirst
    refine h.sets pre t post hl ?_ ?_
    · rw [Bool.eq_false_iff, Ne, hflag]
      rintro ⟨pre', t', post', hpre, htag'⟩
      rw [hfirst pre' t' post' hpre] at htag'
      cases htag'
    · exact (hflag _).2 ⟨pre, t, [], rfl, htag⟩
  · intro h
    constructor
    · intro hset
      obtain ⟨pre, t, post, hl, htag, hfirst⟩ := first_of_exists ((hflag l).1 hset)
      have hloss := h pre t post hl htag hfirst
      refine ⟨?_, pre, t, post, hl, hloss⟩
      have hww : (buildOneLifecycle opk baseline l cooldownEnd pred).wasWithdrawn =
          decide (0 < (Sim.run pred baseline l).streamWithdrawalCount) := rfl
      rw [hww, decide_eq_true_eq, Sim.run_count_pos]
      exact ⟨pre, t, post, hl, (Bool.and_eq_true_iff.1 hloss).1⟩
    · intro pre t post hl hno hset
      obtain ⟨pre', t', post', heq, htag⟩ := (hflag _).1 hset
      have hnone : ∀ pre' t' post', pre = pre' ++ t' :: post' → afterTag baseline pre' t' = false := by
        intro pre' t' post' hpre
        rw [Bool.eq_false_iff] at hno ⊢
        exact fun htag' => hno ((hflag _).2 ⟨pre', t', post', hpre, htag'⟩)
      rcases concat_eq_split heq with ⟨rfl, rfl, -⟩ | ⟨post', -, hpre⟩
      · exact h _ _ post hl htag hnone
      · rw [hnone pre' t' post' hpre] at htag
        cases htag

end Flag

/-! ### A tag on one instance, the withdrawal of another -/

/-- `o` with the communities `cs`. -/
def RouteObservation.tagged (o : RouteObservation) (cs : List String) : RouteObservation :=
  { o with attributes := o.attributes.map fun a => { a with communities := cs } }

/-- Two instances from the RIB; instance 2 is tagged, then instance 1 withdrawn. -/
def tagElsewhere : List RouteObservation :=
  [.plain "rrc00" 0 .ribEntry 0 (some 1) [1, 2], .plain "rrc00" 1 .ribEntry 0 (some 2) [1, 2],
    (RouteObservation.plain "rrc00" 0 .announcement 15 (some 2) [1, 2]).tagged [gshutCommunity],
    .plain "rrc00" 1 .withdrawal 16 (some 1)]

def tagElsewhereBaseline : InstanceMap :=
  baselineFor (freezeCohort [2] (.containsAny [1]) tagElsewhere) sampleStream

def tagElsewhereTransitions : List RouteTransition :=
  streamTransitions sampleStream (transitionsAfter 10 20 30 tagElsewhere)

/-- **Bug**: the stream stays visible, the withdrawn instance never had the tag, and the flag is
set. -/
theorem tag_on_another_instance_sets_flag :
    (buildOneLifecycle sampleStream tagElsewhereBaseline tagElsewhereTransitions 30
      (.containsAny [1])).gshutBeforeWithdrawal = true ∧
    (buildOneLifecycle sampleStream tagElsewhereBaseline tagElsewhereTransitions 30
      (.containsAny [1])).wasWithdrawn = false ∧
    ¬ GshutSound sampleStream 30 (.containsAny [1]) tagElsewhereBaseline tagElsewhereTransitions := by
  have hset : (buildOneLifecycle sampleStream tagElsewhereBaseline tagElsewhereTransitions 30
      (.containsAny [1])).gshutBeforeWithdrawal = true := by decide +kernel
  have hww : (buildOneLifecycle sampleStream tagElsewhereBaseline tagElsewhereTransitions 30
      (.containsAny [1])).wasWithdrawn = false := by decide +kernel
  refine ⟨hset, hww, fun h => ?_⟩
  rw [(h.sound hset).1] at hww
  cases hww

end Inim
