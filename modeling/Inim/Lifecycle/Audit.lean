import Inim.Lifecycle.Restoration
import Inim.Lifecycle.Order
/-!
# The withdrawal audit (`lifecycle.rs:400-499`, `:1500-1564`)

| here | there |
| --- | --- |
| `WithdrawalRecord`, `withdrawalRecord` | `lifecycle.rs:371`, and one pass of the loop of `withdrawal_audit` |
| `withdrawalAudit`                      | `lifecycle.rs:1506` |
| `WithdrawalAuditSummary.fromRecords`   | `lifecycle.rs:436` |

The median and maximum of a summary are of whole seconds; twice the median is kept, which is whole
as well.
-/

namespace Inim

open Std Inim.Lib

structure WithdrawalRecord where
  collector : String
  peerIp : String
  pfx : String
  baselinePath : List UInt32
  baselineInstances : Nat
  activeBeforeAbsence : Nat
  finalWithdrawalTime : DateTime
  restorationTime : Option DateTime
  absenceDurationSecs : Option Int
  transitAtWithdrawal : Option Bool
  exactRestoration : Bool
  equivalentRestoration : Bool
  observerPrefixRestoration : Bool
  baselineSetRestoration : Bool
  observationIds : List Nat
  archiveChecksums : List String
deriving DecidableEq, Repr

/-- The transitions whose observations a record names. -/
def auditedTransitions (lc : StreamLifecycle) : List LifecycleTransition :=
  lc.transitions.filter fun t =>
    t.kind == "Withdrawal" || t.kind == "Restoration" || t.kind == "ReturnToBaseline"

def withdrawalRecord (lc : StreamLifecycle) : Option WithdrawalRecord := do
  guard lc.wasWithdrawn
  let withdrawalTime ← lc.streamWithdrawalTime <|> lc.firstChange
  let firstRestoration := lc.restorations.head?
  return {
    collector := lc.collector
    peerIp := lc.peerIp
    pfx := lc.pfx
    baselinePath := lc.baselinePath
    baselineInstances := lc.baselineInstanceCount
    activeBeforeAbsence := lc.activeBeforeAbsence
    finalWithdrawalTime := withdrawalTime
    restorationTime := lc.restorationTime
    -- the last withdrawal and the first restoration of the whole run
    absenceDurationSecs := lc.restorationTime.map fun r => max 0 (numSeconds (r - withdrawalTime))
    transitAtWithdrawal := lc.transitAtWithdrawal
    exactRestoration := (firstRestoration.map (·.exactInstance)).getD false
    equivalentRestoration := (firstRestoration.map (·.equivalentRoute)).getD false
    observerPrefixRestoration := (firstRestoration.map (·.observerPrefix)).getD false
    baselineSetRestoration := (firstRestoration.map (·.baselineSet)).getD false
    observationIds := (auditedTransitions lc).map (·.observationId)
    archiveChecksums := (auditedTransitions lc).foldl (fun acc t =>
      match t.archiveSha256 with
      | some sha => if acc.contains sha then acc else acc ++ [sha]
      | none => acc) [] }

def withdrawalAudit (lifecycles : List StreamLifecycle) : List WithdrawalRecord :=
  lifecycles.filterMap withdrawalRecord

structure WithdrawalAuditSummary where
  uniqueWithdrawnStreams : Nat
  routeInstanceWithdrawals : Nat
  affectedPrefixes : Nat
  affectedPeers : Nat
  /-- Twice `median_absence_secs`. -/
  medianAbsenceTwice : Option Int
  maxAbsenceSecs : Option Int
  restoredCount : Nat
  unresolvedCount : Nat
  exactRestorations : Nat
  equivalentRestorations : Nat
  observerPrefixRestorations : Nat
  baselineSetRestorations : Nat
deriving DecidableEq, Repr

/-- The median of ascending values, doubled. -/
def medianTwice (absences : List Int) : Option Int :=
  if absences.isEmpty then none
  else if absences.length % 2 = 1 then (absences[absences.length / 2]?).map (2 * ·)
  else do
    let hi := absences.length / 2
    return (← absences[hi - 1]?) + (← absences[hi]?)

def WithdrawalAuditSummary.fromRecords (records : List WithdrawalRecord) : WithdrawalAuditSummary :=
  let absences := sortBy compare (records.filterMap (·.absenceDurationSecs))
  { uniqueWithdrawnStreams := records.length
    routeInstanceWithdrawals := (records.map fun r => max r.activeBeforeAbsence 1).sum
    affectedPrefixes := (records.map (·.pfx)).dedup.length
    affectedPeers := (records.map (·.peerIp)).dedup.length
    medianAbsenceTwice := medianTwice absences
    maxAbsenceSecs := absences.getLast?
    restoredCount := records.countP (·.restorationTime.isSome)
    unresolvedCount := records.countP (!·.restorationTime.isSome)
    exactRestorations := records.countP (·.exactRestoration)
    equivalentRestorations := records.countP (·.equivalentRestoration)
    observerPrefixRestorations := records.countP (·.observerPrefixRestoration)
    baselineSetRestorations := records.countP (·.baselineSetRestoration) }

/-! ## The records of a run -/

section Record
variable {opk : ObserverPrefixKey} {cooldownEnd : DateTime} {pred : TransitPredicate}
  {baseline : InstanceMap} {l : List RouteTransition}

theorem isSome_streamWithdrawalTime (pred : TransitPredicate) (baseline : InstanceMap)
    (l : List RouteTransition) :
    (Sim.run pred baseline l).streamWithdrawalTime.isSome = true ↔ IsLost baseline l := by
  rw [Sim.run_streamWithdrawalTime, Option.isSome_map, List.getLast?_isSome]
  simp [IsLost, List.filter_eq_nil_iff]

/-- A stream has a record iff it was lost, with the time of its last loss and of its first return. -/
theorem withdrawalRecord_spec (opk : ObserverPrefixKey) (cooldownEnd : DateTime)
    (pred : TransitPredicate) (baseline : InstanceMap) (l : List RouteTransition) :
    (IsLost baseline l ∧ ∃ r x, withdrawalRecord (buildOneLifecycle opk baseline l cooldownEnd pred) = some r ∧
        ((timeline baseline l).filter isLoss).getLast? = some x ∧
        r.finalWithdrawalTime = x.2.to_.timestamp ∧
        r.restorationTime = ((timeline baseline l).find? (isReturn pred)).map (·.2.to_.timestamp) ∧
        r.absenceDurationSecs =
          r.restorationTime.map (fun restored => max 0 (numSeconds (restored - r.finalWithdrawalTime))) ∧
        r.activeBeforeAbsence = 1) ∨
      (¬ IsLost baseline l ∧
        withdrawalRecord (buildOneLifecycle opk baseline l cooldownEnd pred) = none) := by
  have hww : (buildOneLifecycle opk baseline l cooldownEnd pred).wasWithdrawn =
      decide (0 < (Sim.run pred baseline l).streamWithdrawalCount) := rfl
  by_cases hlost : IsLost baseline l
  · refine Or.inl ⟨hlost, ?_⟩
    have hcount := (isLost_iff pred baseline l).1 hlost
    obtain ⟨w, hw⟩ := Option.isSome_iff_exists.1
      ((isSome_streamWithdrawalTime pred baseline l).2 hlost)
    have htime : (buildOneLifecycle opk baseline l cooldownEnd pred).streamWithdrawalTime = some w := hw
    rw [Sim.run_streamWithdrawalTime, Option.map_eq_some_iff] at hw
    obtain ⟨x, hx, hxw⟩ := hw
    have hactive : (buildOneLifecycle opk baseline l cooldownEnd pred).activeBeforeAbsence = 1 :=
      (Sim.run_activeBeforeAbsence pred baseline l).trans (if_pos hcount)
    have hrest : (buildOneLifecycle opk baseline l cooldownEnd pred).restorationTime =
        ((timeline baseline l).find? (isReturn pred)).map (·.2.to_.timestamp) :=
      Sim.run_restorationTime pred baseline l
    simp only [withdrawalRecord, hww, hcount, decide_true, htime]
    exact ⟨_, x, rfl, hx, hxw.symm, hrest, rfl, hactive⟩
  · refine Or.inr ⟨hlost, ?_⟩
    rw [isLost_iff pred] at hlost
    simp [withdrawalRecord, hww, hlost, guard]

/-- A record whose restoration, if any, is not before its withdrawal. -/
def RecordConsistent (r : WithdrawalRecord) : Prop :=
  ∀ restored, r.restorationTime = some restored → r.finalWithdrawalTime ≤ restored ∧
    r.absenceDurationSecs = some (numSeconds (restored - r.finalWithdrawalTime))

/-- No stream-level withdrawal comes after a return, but at the same timestamp in a stream that ends
visible. -/
def NoLossAfterReturn (pred : TransitPredicate) (baseline : InstanceMap)
    (l : List RouteTransition) : Prop :=
  (timeline baseline l).Pairwise fun x y => isReturn pred x = true → isLoss y = true →
    x.2.to_.timestamp = y.2.to_.timestamp ∧ (activeRun baseline l).isEmpty = false

theorem numSeconds_nonneg {n : Int} (h : 0 ≤ n) : 0 ≤ numSeconds n :=
  Int.tdiv_nonneg h (by decide)

theorem timeline_sorted (h : l.Pairwise fun a b => a.to_.timestamp ≤ b.to_.timestamp) :
    (timeline baseline l).Pairwise fun x y => x.2.to_.timestamp ≤ y.2.to_.timestamp := by
  rw [← @map_snd_trace _ _ activeAfter baseline l, List.pairwise_map] at h
  exact h

/-- A return leaves the stream visible. -/
theorem visible_of_isReturn {active : InstanceMap} {t : RouteTransition}
    (h : isReturn pred (active, t) = true) : (activeAfter active t).isEmpty = false := by
  rcases Bool.or_eq_true_iff.1 h with h | h
  · simpa using (Bool.and_eq_true_iff.1 h).2
  · obtain ⟨hk, st, hst⟩ := applies_of_pathShape (eq_of_beq h)
    dsimp only at hk hst
    simp [activeAfter, hk, hst]

/-- A stream that returns and ends absent is lost after the return. -/
theorem loss_after_return {x : InstanceMap × RouteTransition} (hx : x ∈ timeline baseline l)
    (hret : isReturn pred x = true) (hend : (activeRun baseline l).isEmpty = true) :
    ¬ NoLossAfterReturn pred baseline l := by
  intro hno
  obtain ⟨as, bs, hsplit⟩ := List.append_of_mem hx
  obtain ⟨pre, post, rfl, has, hbs⟩ := trace_eq_append_iff.1 hsplit
  rw [show Lib.run activeAfter baseline pre = activeRun baseline pre from rfl] at hbs
  obtain ⟨t, post, rfl⟩ : ∃ t rest, post = t :: rest := by
    cases post with
    | nil => simp at hbs
    | cons t rest => exact ⟨t, rest, rfl⟩
  rw [trace, List.cons.injEq] at hbs
  obtain ⟨rfl, rfl⟩ := hbs
  have hvis := visible_of_isReturn hret
  rw [List.append_cons, activeRun_append, activeRun_concat] at hend
  obtain ⟨y, hy, hy'⟩ :
      ∃ y ∈ timeline (activeAfter (activeRun baseline pre) t) post, isLoss y = true := by
    by_contra hnone
    rw [visible_of_no_loss hvis fun y hy => Bool.eq_false_iff.2 fun hl => hnone ⟨y, hy, hl⟩] at hend
    cases hend
  rw [NoLossAfterReturn, show timeline baseline (pre ++ t :: post) = _ from hsplit] at hno
  have hpair := (List.pairwise_cons.1 (List.pairwise_append.1 hno).2.1).1 y hy hret hy'
  rw [List.append_cons, activeRun_append, activeRun_concat, hend] at hpair
  exact Bool.noConfusion hpair.2

/-- One stream's record, if it has one. -/
theorem record_consistent_iff (opk : ObserverPrefixKey) (cooldownEnd : DateTime)
    (hsorted : l.Pairwise fun a b => a.to_.timestamp ≤ b.to_.timestamp) :
    (∀ r, withdrawalRecord (buildOneLifecycle opk baseline l cooldownEnd pred) = some r →
      RecordConsistent r ∧
        ((activeRun baseline l).isEmpty = true → r.restorationTime = none)) ↔
      NoLossAfterReturn pred baseline l := by
  rcases withdrawalRecord_spec opk cooldownEnd pred baseline l with
    ⟨hlost, r, y, hr, hy, hfinal, hrest, habs, -⟩ | ⟨hlost, hnone⟩
  · rw [hr]
    constructor
    · intro h
      obtain ⟨hcons, habsent⟩ := h r rfl
      cases hx : (timeline baseline l).find? (isReturn pred) with
      | none =>
        rw [List.find?_eq_none] at hx
        exact (timeline_sorted hsorted).imp_of_mem fun hmem _ _ hret => absurd hret (hx _ hmem)
      | some x =>
        rw [hx] at hrest
        have hle := (hcons _ hrest).1
        rw [hfinal, getLast_le_find?_iff (k := fun z => z.2.to_.timestamp) (timeline_sorted hsorted) hx hy] at hle
        have hvis : (activeRun baseline l).isEmpty = false := by
          rw [Bool.eq_false_iff]
          intro hend
          rw [habsent hend] at hrest
          cases hrest
        exact hle.imp fun h hret hloss => ⟨h hret hloss, hvis⟩
    · rintro hno r' hr'
      cases hr'
      cases hx : (timeline baseline l).find? (isReturn pred) with
      | none =>
        rw [hx] at hrest
        refine ⟨fun restored hres => ?_, fun _ => hrest⟩
        rw [hrest] at hres
        cases hres
      | some x =>
        rw [hx] at hrest
        have hle : y.2.to_.timestamp ≤ x.2.to_.timestamp :=
          (getLast_le_find?_iff (k := fun z => z.2.to_.timestamp) (timeline_sorted hsorted) hx hy).2
            (hno.imp fun h hret hloss => (h hret hloss).1)
        refine ⟨fun restored hres => ?_, fun hend => ?_⟩
        · rw [hrest] at hres
          cases hres
          refine ⟨hfinal ▸ hle, ?_⟩
          rw [habs, hrest, hfinal]
          exact congrArg some (max_eq_right (numSeconds_nonneg (sub_nonneg.2 hle)))
        · exact absurd hno (loss_after_return (List.mem_of_find?_eq_some hx)
            (List.find?_some hx) hend)
  · rw [hnone]
    refine ⟨fun _ => ?_, fun _ _ h => by cases h⟩
    refine (timeline_sorted hsorted).imp_of_mem fun _ hmem _ _ hloss => ?_
    exact absurd ⟨_, hmem, hloss⟩ hlost

end Record

/-! ## The audit of a run -/

section Audit
variable (transitions : List RouteTransition) (cohort : FrozenCohort) (cooldownEnd : DateTime)
  (pred : TransitPredicate)

theorem withdrawalAudit_perm :
    (withdrawalAudit (buildLifecycles transitions cohort cooldownEnd pred)).Perm
      ((lifecycleStreams transitions cohort).filterMap fun opk =>
        withdrawalRecord (lifecycleOf cohort cooldownEnd pred transitions opk)) := by
  refine ((sortBy_perm lifecycleOrder _).filterMap withdrawalRecord).trans ?_
  rw [List.filterMap_map]
  rfl

/-- The stream is lost, and absent (visible) after its last transition. -/
def EndsLost (absent : Bool) (opk : ObserverPrefixKey) : Prop :=
  IsLost (baselineFor cohort opk) (streamTransitions opk transitions) ∧
    (activeRun (baselineFor cohort opk) (streamTransitions opk transitions)).isEmpty = absent

instance (absent : Bool) (opk : ObserverPrefixKey) :
    Decidable (EndsLost transitions cohort absent opk) :=
  inferInstanceAs (Decidable (IsLost _ _ ∧ _))

/-- Every record is in order, and the summary counts the streams that ended absent as unresolved
and the others as restored. -/
structure AuditConsistent : Prop where
  records : ∀ r ∈ withdrawalAudit (buildLifecycles transitions cohort cooldownEnd pred),
    RecordConsistent r
  absent : ∀ opk ∈ lifecycleStreams transitions cohort, ∀ r,
    withdrawalRecord (lifecycleOf cohort cooldownEnd pred transitions opk) = some r →
    EndsLost transitions cohort true opk → r.restorationTime = none
  unresolved : (WithdrawalAuditSummary.fromRecords
      (withdrawalAudit (buildLifecycles transitions cohort cooldownEnd pred))).unresolvedCount =
    (lifecycleStreams transitions cohort).countP (EndsLost transitions cohort true)
  restored : (WithdrawalAuditSummary.fromRecords
      (withdrawalAudit (buildLifecycles transitions cohort cooldownEnd pred))).restoredCount =
    (lifecycleStreams transitions cohort).countP (EndsLost transitions cohort false)

/-- A stream's restoration time, where the audit is in order. -/
theorem restorationTime_isSome_iff {opk : ObserverPrefixKey} {baseline : InstanceMap}
    {l : List RouteTransition} {r : WithdrawalRecord}
    (hr : withdrawalRecord (buildOneLifecycle opk baseline l cooldownEnd pred) = some r)
    (hno : NoLossAfterReturn pred baseline l) :
    IsLost baseline l ∧ (r.restorationTime.isSome = true ↔ (activeRun baseline l).isEmpty = false) := by
  rcases withdrawalRecord_spec opk cooldownEnd pred baseline l with
    ⟨hlost, r', y, hr', -, -, hrest, -, -⟩ | ⟨-, hnone⟩
  · obtain rfl : r' = r := Option.some_injective _ (hr'.symm.trans hr)
    refine ⟨hlost, ?_⟩
    rw [hrest, Option.isSome_map, List.find?_isSome]
    constructor
    · rintro ⟨x, hx, hret⟩
      rw [Bool.eq_false_iff]
      exact fun hend => loss_after_return hx hret hend hno
    · intro hvis
      obtain ⟨x, hx, hback⟩ := comesBack_of_lost hlost hvis
      exact ⟨x, hx, by simp [isReturn, hback]⟩
  · rw [hnone] at hr
    cases hr

/-- Counting the records with a property counts the streams that have one. -/
theorem countP_withdrawalAudit (p : WithdrawalRecord → Bool) :
    (withdrawalAudit (buildLifecycles transitions cohort cooldownEnd pred)).countP p =
      (lifecycleStreams transitions cohort).countP fun opk =>
        ((withdrawalRecord (lifecycleOf cohort cooldownEnd pred transitions opk)).map p).getD false := by
  rw [(withdrawalAudit_perm transitions cohort cooldownEnd pred).countP_eq, List.countP_filterMap]

/-- **The audit is in order iff** in no stream a loss comes after a return. -/
theorem auditConsistent_iff : AuditConsistent transitions cohort cooldownEnd pred ↔
    ∀ opk ∈ lifecycleStreams transitions cohort,
      NoLossAfterReturn pred (baselineFor cohort opk) (streamTransitions opk transitions) := by
  constructor
  · rintro ⟨hrec, habs, -, -⟩ opk hopk
    refine (record_consistent_iff opk cooldownEnd (streamTransitions_sorted transitions opk)).1
      fun r hr => ⟨hrec r ?_, fun hend => ?_⟩
    · rw [(withdrawalAudit_perm transitions cohort cooldownEnd pred).mem_iff, List.mem_filterMap]
      exact ⟨opk, hopk, hr⟩
    · refine habs opk hopk r hr ⟨?_, hend⟩
      rcases withdrawalRecord_spec opk cooldownEnd pred (baselineFor cohort opk)
        (streamTransitions opk transitions) with ⟨hlost, -⟩ | ⟨-, hnone⟩
      · exact hlost
      · rw [hnone] at hr
        cases hr
  · intro h
    have hstream := fun opk hopk => (record_consistent_iff opk cooldownEnd
      (streamTransitions_sorted transitions opk)).2 (h opk hopk)
    -- the records with a restoration time are those of the streams that end visible
    have hcount : ∀ opk ∈ lifecycleStreams transitions cohort, ∀ b : Bool,
        ((withdrawalRecord (lifecycleOf cohort cooldownEnd pred transitions opk)).map
          fun r => r.restorationTime.isSome == b).getD false = true ↔
        decide (EndsLost transitions cohort (!b) opk) = true := by
      intro opk hopk b
      rw [decide_eq_true_eq]
      cases hr : withdrawalRecord (lifecycleOf cohort cooldownEnd pred transitions opk) with
      | none =>
        rcases withdrawalRecord_spec opk cooldownEnd pred (baselineFor cohort opk)
          (streamTransitions opk transitions) with ⟨-, r, x, hr', -⟩ | ⟨hlost, -⟩
        · exact absurd (hr.symm.trans hr') (by simp)
        · simp [EndsLost, hlost]
      | some r =>
        obtain ⟨hlost, hiff⟩ := restorationTime_isSome_iff cooldownEnd pred hr (h opk hopk)
        rw [Option.map_some, Option.getD_some, EndsLost, and_iff_right hlost]
        cases b
        · rw [beq_false, Bool.not_eq_true', Bool.not_false, ← Bool.not_eq_true, hiff,
            Bool.not_eq_false]
        · simpa using hiff
    refine ⟨fun r hr => ?_, fun opk hopk r hr hend => (hstream opk hopk r hr).2 hend.2, ?_, ?_⟩
    · rw [(withdrawalAudit_perm transitions cohort cooldownEnd pred).mem_iff, List.mem_filterMap] at hr
      obtain ⟨opk, hopk, hr⟩ := hr
      exact (hstream opk hopk r hr).1
    · have hsum := countP_withdrawalAudit transitions cohort cooldownEnd pred
        (fun r => r.restorationTime.isSome == false)
      simp only [beq_false] at hsum
      refine hsum.trans (List.countP_congr fun opk hopk => ?_)
      simpa using hcount opk hopk false
    · have hsum := countP_withdrawalAudit transitions cohort cooldownEnd pred
        (fun r => r.restorationTime.isSome)
      refine hsum.trans (List.countP_congr fun opk hopk => ?_)
      simpa using hcount opk hopk true

/-! ## What the summary counts -/

/-- The counts of the summary are the counts they name. -/
structure AuditCounts : Prop where
  instances : (WithdrawalAuditSummary.fromRecords
      (withdrawalAudit (buildLifecycles transitions cohort cooldownEnd pred))).routeInstanceWithdrawals =
    (((buildLifecycles transitions cohort cooldownEnd pred).filter (·.wasWithdrawn)).map
      (·.withdrawnInstances.length)).sum
  total : (WithdrawalAuditSummary.fromRecords
      (withdrawalAudit (buildLifecycles transitions cohort cooldownEnd pred))).restoredCount +
      (WithdrawalAuditSummary.fromRecords
        (withdrawalAudit (buildLifecycles transitions cohort cooldownEnd pred))).unresolvedCount =
    (WithdrawalAuditSummary.fromRecords
      (withdrawalAudit (buildLifecycles transitions cohort cooldownEnd pred))).uniqueWithdrawnStreams
  unique : (WithdrawalAuditSummary.fromRecords
      (withdrawalAudit (buildLifecycles transitions cohort cooldownEnd pred))).uniqueWithdrawnStreams =
    (buildLifecycles transitions cohort cooldownEnd pred).countP (·.wasWithdrawn)

/-- The streams with a record. -/
def lostStreams : List ObserverPrefixKey :=
  (lifecycleStreams transitions cohort).filter fun opk =>
    decide (IsLost (baselineFor cohort opk) (streamTransitions opk transitions))

theorem wasWithdrawn_lifecycleOf (opk : ObserverPrefixKey) :
    (lifecycleOf cohort cooldownEnd pred transitions opk).wasWithdrawn =
      decide (IsLost (baselineFor cohort opk) (streamTransitions opk transitions)) := by
  rw [decide_eq_decide.2 (isLost_iff pred _ _)]
  rfl

/-- A record for every lost stream, each counting one instance. -/
theorem withdrawalAudit_lengths :
    (withdrawalAudit (buildLifecycles transitions cohort cooldownEnd pred)).length =
        (lostStreams transitions cohort).length ∧
      ∀ r ∈ withdrawalAudit (buildLifecycles transitions cohort cooldownEnd pred),
        r.activeBeforeAbsence = 1 := by
  have hperm := withdrawalAudit_perm transitions cohort cooldownEnd pred
  constructor
  · rw [hperm.length_eq, List.length_filterMap_eq_countP, lostStreams, ← List.countP_eq_length_filter]
    refine List.countP_congr fun opk _ => ?_
    rw [decide_eq_true_eq]
    rcases withdrawalRecord_spec opk cooldownEnd pred (baselineFor cohort opk)
      (streamTransitions opk transitions) with ⟨hlost, r, x, hr, -⟩ | ⟨hlost, hnone⟩
    · simp [lifecycleOf, hr, hlost]
    · simp [lifecycleOf, hnone, hlost]
  · intro r hr
    rw [hperm.mem_iff, List.mem_filterMap] at hr
    obtain ⟨opk, -, hr⟩ := hr
    rcases withdrawalRecord_spec opk cooldownEnd pred (baselineFor cohort opk)
      (streamTransitions opk transitions) with ⟨-, r', x, hr', -, -, -, -, hone⟩ | ⟨-, hnone⟩
    · exact Option.some_injective _ (hr'.symm.trans hr) ▸ hone
    · exact absurd (hnone.symm.trans hr) (by simp)

theorem sum_eq_length_iff {α : Type*} {f : α → Nat} {l : List α} (h : ∀ a ∈ l, 1 ≤ f a) :
    l.length = (l.map f).sum ↔ ∀ a ∈ l, f a = 1 := by
  induction l with
  | nil => simp
  | cons a l ih =>
    have hrest : l.length ≤ (l.map f).sum := by
      have := List.card_nsmul_le_sum (l.map f) 1 (by simpa using fun b hb => h b (by simp [hb]))
      simpa using this
    have ha := h a (by simp)
    rw [List.forall_mem_cons, ← ih fun b hb => h b (by simp [hb]), List.map_cons, List.sum_cons,
      List.length_cons]
    omega

/-- **The counts are what they are called iff** every stream that is lost has one withdrawal. -/
theorem auditCounts_iff : AuditCounts transitions cohort cooldownEnd pred ↔
    ∀ opk ∈ lifecycleStreams transitions cohort,
      IsLost (baselineFor cohort opk) (streamTransitions opk transitions) →
        (transitionsOf opk transitions).countP (fun t => t.kind == .withdrawal) = 1 := by
  obtain ⟨hlen, hone⟩ := withdrawalAudit_lengths transitions cohort cooldownEnd pred
  have hperm : (buildLifecycles transitions cohort cooldownEnd pred).Perm
      ((lifecycleStreams transitions cohort).map (lifecycleOf cohort cooldownEnd pred transitions)) :=
    sortBy_perm _ _
  have hsum : ((withdrawalAudit (buildLifecycles transitions cohort cooldownEnd pred)).map
      fun r => max r.activeBeforeAbsence 1).sum = (lostStreams transitions cohort).length := by
    rw [List.map_congr_left fun r hr => by rw [hone r hr], ← hlen]
    simp
  have hinst : (((buildLifecycles transitions cohort cooldownEnd pred).filter (·.wasWithdrawn)).map
      (·.withdrawnInstances.length)).sum = ((lostStreams transitions cohort).map fun opk =>
        (transitionsOf opk transitions).countP (fun t => t.kind == .withdrawal)).sum := by
    rw [((hperm.filter _).map _).sum_eq, List.filter_map, List.map_map, lostStreams]
    have hfilter : (lifecycleStreams transitions cohort).filter
        ((fun lc : StreamLifecycle => lc.wasWithdrawn) ∘ lifecycleOf cohort cooldownEnd pred transitions) =
        (lifecycleStreams transitions cohort).filter fun opk =>
          decide (IsLost (baselineFor cohort opk) (streamTransitions opk transitions)) :=
      List.filter_congr fun opk _ => wasWithdrawn_lifecycleOf transitions cohort cooldownEnd pred opk
    rw [hfilter]
    refine congrArg List.sum (List.map_congr_left fun opk _ => ?_)
    have hwi : (lifecycleOf cohort cooldownEnd pred transitions opk).withdrawnInstances =
        (Sim.run pred (baselineFor cohort opk) (streamTransitions opk transitions)).withdrawnInstances := rfl
    rw [Function.comp_apply, hwi, Sim.run_withdrawnInstances, List.length_map,
      ← List.countP_eq_length_filter]
    exact (sortBy_perm _ _).countP_eq _
  have hpos : ∀ opk ∈ lostStreams transitions cohort,
      1 ≤ (transitionsOf opk transitions).countP (fun t => t.kind == .withdrawal) := by
    intro opk hopk
    obtain ⟨x, hx, hloss⟩ := of_decide_eq_true (List.mem_filter.1 hopk).2
    rw [Nat.one_le_iff_ne_zero, ← Nat.pos_iff_ne_zero, List.countP_pos_iff]
    exact ⟨x.2, mem_sortBy.1 (mem_of_mem_trace hx), (Bool.and_eq_true_iff.1 hloss).1⟩
  have hiff := sum_eq_length_iff hpos
  rw [← hsum, ← hinst] at hiff
  have hmem : (∀ opk ∈ lostStreams transitions cohort,
      (transitionsOf opk transitions).countP (fun t => t.kind == .withdrawal) = 1) ↔
      ∀ opk ∈ lifecycleStreams transitions cohort,
        IsLost (baselineFor cohort opk) (streamTransitions opk transitions) →
          (transitionsOf opk transitions).countP (fun t => t.kind == .withdrawal) = 1 := by
    simp [lostStreams]
  rw [← hmem, ← hiff]
  refine ⟨AuditCounts.instances, fun h => ⟨h, ?_, ?_⟩⟩
  · refine (congrArg₂ (· + ·) rfl (List.countP_congr fun r _ => ?_)).trans
      (List.length_eq_countP_add_countP fun r : WithdrawalRecord => r.restorationTime.isSome).symm
    simp
  · refine hlen.trans ?_
    rw [hperm.countP_eq, List.countP_map, lostStreams, ← List.countP_eq_length_filter]
    exact (List.countP_congr fun opk _ => by
      rw [Function.comp_apply, wasWithdrawn_lifecycleOf]).symm

end Audit

/-! ### Lost, back, lost again -/

/-- From the RIB; withdrawn at 15 s, announced at 16 s, withdrawn at 17 s. -/
def lostAgain : List RouteObservation :=
  [.plain "rrc00" 0 .ribEntry 0 none [1, 2],
    .plain "rrc00" 0 .withdrawal 15000000000 none,
    .plain "rrc00" 1 .announcement 16000000000 none [1, 2],
    .plain "rrc00" 2 .withdrawal 17000000000 none]

def lostAgainTransitions : List RouteTransition :=
  transitionsAfter 10000000000 20000000000 30000000000 lostAgain

def lostAgainCohort : FrozenCohort := freezeCohort [2] (.containsAny [1]) lostAgain

def lostAgainAudit : List WithdrawalRecord :=
  withdrawalAudit (buildLifecycles lostAgainTransitions lostAgainCohort 30000000000 (.containsAny [1]))

/-- **Bug**: the stream is absent at the end. Its record pairs the second withdrawal with the
restoration after the first one, its duration is clamped, and it counts as restored. -/
theorem lost_again_counts_as_restored :
    lostAgainAudit.map (fun r => (r.finalWithdrawalTime, r.restorationTime, r.absenceDurationSecs)) =
      [(17000000000, some 16000000000, some 0)] ∧
    (WithdrawalAuditSummary.fromRecords lostAgainAudit).restoredCount = 1 ∧
    (WithdrawalAuditSummary.fromRecords lostAgainAudit).unresolvedCount = 0 ∧
    ¬ AuditConsistent lostAgainTransitions lostAgainCohort 30000000000 (.containsAny [1]) := by
  refine ⟨by decide, by decide, by decide, fun h => ?_⟩
  exact absurd h.restored (by decide)

/-- **Bug**: the stream was withdrawn twice, and one route-instance withdrawal is counted. -/
theorem two_withdrawals_count_once :
    (WithdrawalAuditSummary.fromRecords lostAgainAudit).routeInstanceWithdrawals = 1 ∧
    (buildLifecycles lostAgainTransitions lostAgainCohort 30000000000 (.containsAny [1])).map
      (·.withdrawnInstances.length) = [2] ∧
    ¬ AuditCounts lostAgainTransitions lostAgainCohort 30000000000 (.containsAny [1]) := by
  refine ⟨by decide, by decide, fun h => ?_⟩
  exact absurd h.instances (by decide)

end Inim
