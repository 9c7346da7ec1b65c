import Inim.Assess
import Inim.Catalog.RunImmutability
/-!
# The verdict of a run, written and read back

| here | there |
| --- | --- |
| `resultJson`                  | `result` of `report.json` (`output.rs:967-1019`) |
| `Verdict.fromStored`          | `domain/assessment.rs:167` |
| `Verdict.fromDeprecatedLabel` | `domain/assessment.rs:177` |
| `importedRun`                 | the row of `import_one` (`catalog/import.rs:348-384`) |
| `publishedRun`                | the row of `import_finalized_run` (`catalog/jobs/publish.rs:243-269`) |

A report has the verdict twice: its machine name under `verdict`, and a label of what was observed
under `verdict_label`, which several verdicts share. Both importers take the one and fall back on
the other; `import_one` prefers the name ("stable identity across label vocabulary changes"),
`import_finalized_run` the label. A field that is `null` is there, so neither falls back on a
current report.
-/

namespace Inim

open Lib

/-! ## Names and labels -/

/-- The name `serde` writes and reads. -/
def Verdict.name : Verdict → String
  | .expectedRedundantImpact => "ExpectedRedundantImpact"
  | .expectedLossOfReachability => "ExpectedLossOfReachability"
  | .expectedParticipantUnavailability => "ExpectedParticipantUnavailability"
  | .expectedAlternateRouting => "ExpectedAlternateRouting"
  | .partialImpact => "PartialImpact"
  | .unexpectedContinuedInternet2Path => "UnexpectedContinuedInternet2Path"
  | .policyChangeObserved => "PolicyChangeObserved"
  | .provisionalImpactObserved => "ProvisionalImpactObserved"
  | .provisionalNoImpactSoFar => "ProvisionalNoImpactSoFar"
  | .unexpectedWithdrawals => "UnexpectedWithdrawals"
  | .redundancyFailureObserved => "RedundancyFailureObserved"
  | .unexpectedBlastRadius => "UnexpectedBlastRadius"
  | .lessImpactThanExpected => "LessImpactThanExpected"
  | .noObservableBgpImpact => "NoObservableBgpImpact"
  | .insufficientVisibility => "InsufficientVisibility"
  | .indeterminate => "Indeterminate"

def Verdict.all : List Verdict :=
  [.expectedRedundantImpact, .expectedLossOfReachability, .expectedParticipantUnavailability,
    .expectedAlternateRouting, .partialImpact, .unexpectedContinuedInternet2Path,
    .policyChangeObserved, .provisionalImpactObserved, .provisionalNoImpactSoFar,
    .unexpectedWithdrawals, .redundancyFailureObserved, .unexpectedBlastRadius,
    .lessImpactThanExpected, .noObservableBgpImpact, .insufficientVisibility, .indeterminate]

def Verdict.ofName (s : String) : Option Verdict := Verdict.all.find? fun v => v.name == s

theorem Verdict.ofName_name (v : Verdict) : Verdict.ofName v.name = some v := by
  cases v <;> decide +kernel

/-- The frozen labels of old reports. -/
def Verdict.deprecatedLabels : List (String × Verdict) :=
  [("Expected redundant-attachment impact observed", .expectedRedundantImpact),
    ("Expected loss of reachability observed", .expectedLossOfReachability),
    ("Expected participant unavailability observed", .expectedParticipantUnavailability),
    ("Expected alternate routing observed", .expectedAlternateRouting),
    ("Partial routing impact observed", .partialImpact),
    ("Unexpected continued reviewed-transit path", .unexpectedContinuedInternet2Path),
    ("Policy-shape change observed", .policyChangeObserved),
    ("Routing impact observed so far", .provisionalImpactObserved),
    ("No route-state change observed so far", .provisionalNoImpactSoFar),
    ("Unexpected withdrawals observed", .unexpectedWithdrawals),
    ("Redundancy failure observed", .redundancyFailureObserved),
    ("Unexpected blast radius observed", .unexpectedBlastRadius),
    ("Less impact than expected", .lessImpactThanExpected),
    ("No route-state change observed", .noObservableBgpImpact),
    ("Insufficient visibility", .insufficientVisibility),
    ("insufficient_visibility", .insufficientVisibility),
    ("Indeterminate", .indeterminate)]

def Verdict.fromDeprecatedLabel (label : String) : Option Verdict :=
  Verdict.deprecatedLabels.lookup label

/-- The stored text between quotes as JSON, else as an old label. -/
def Verdict.fromStored (env : RunEnv) (stored : String) : Option Verdict :=
  (((env.parseJson ("\"" ++ stored ++ "\"")).toOption.bind Json.asStr).bind Verdict.ofName).or
    (Verdict.fromDeprecatedLabel stored)

def ObservedResultKind.name : ObservedResultKind → String
  | .routeStateChangesObserved => "RouteStateChangesObserved"
  | .noRouteStateChangeObserved => "NoRouteStateChangeObserved"
  | .insufficientQualifyingVisibility => "InsufficientQualifyingVisibility"
  | .analysisIncomplete => "AnalysisIncomplete"

def ObservedResultKind.humanLabel : ObservedResultKind → String
  | .routeStateChangesObserved => "Route-state changes observed"
  | .noRouteStateChangeObserved => "No route-state change observed"
  | .insufficientQualifyingVisibility => "Insufficient qualifying visibility"
  | .analysisIncomplete => "Analysis incomplete"

def scopeStatement : String :=
  "Observation is limited to externally exported BGP route state at the selected public-BGP " ++
  "observer sessions; it does not measure traffic, circuit, or service state."

/-! ## The report -/

/-- `AnalysisOutcome` (`outcome.rs:14`); of an assessment the report's result has the verdict. -/
inductive AnalysisOutcome where
  | completed (verdict : Verdict)
  | insufficientVisibility (reason : String)
  | incomplete (failure : String)
deriving DecidableEq, Repr

def observedResult (kind label scope : String) : Json :=
  .obj [("kind", .str kind), ("label", .str label), ("scope", .str scope)]

def resultJson (finding : String) : AnalysisOutcome → Json
  | .completed v => .obj [("verdict", .str v.name),
      ("verdict_label", .str v.observedResultKind.humanLabel),
      ("observed_result", observedResult v.observedResultKind.name
        v.observedResultKind.humanLabel scopeStatement),
      ("finding", .str finding)]
  | .insufficientVisibility _ => .obj [("verdict", .null),
      ("verdict_label", .str "Insufficient qualifying visibility"),
      ("observed_result", observedResult "InsufficientQualifyingVisibility"
        "Insufficient qualifying visibility" scopeStatement),
      ("finding", .null)]
  | .incomplete _ => .obj [("verdict", .null),
      ("verdict_label", .str "Analysis incomplete"),
      ("observed_result", observedResult "AnalysisIncomplete" "Analysis incomplete"
        "No observation was completed."),
      ("finding", .null)]

/-- `report` was written for the outcome. -/
def WrittenFor (o : AnalysisOutcome) (report : Json) : Prop :=
  ∃ finding, report.get "result" = some (resultJson finding o)

/-! ## What is stored -/

/-- An import stores the name, and nothing for an outcome without a verdict. -/
def AnalysisOutcome.importedVerdict : AnalysisOutcome → Option String
  | .completed v => some v.name
  | .insufficientVisibility _ | .incomplete _ => none

/-- A publication stores the label of what was observed. -/
def AnalysisOutcome.publishedVerdict : AnalysisOutcome → String
  | .completed v => v.observedResultKind.humanLabel
  | .insufficientVisibility _ => ObservedResultKind.insufficientQualifyingVisibility.humanLabel
  | .incomplete _ => ObservedResultKind.analysisIncomplete.humanLabel

section Stored
variable {o : AnalysisOutcome} {report : Json}

theorem importedRun_verdict (h : WrittenFor o report) (cmd : ImportCommand) (planId : Nat) :
    (importedRun cmd planId report).verdict = o.importedVerdict := by
  obtain ⟨finding, h⟩ := h
  have hv : (importedRun cmd planId report).verdict =
      reportVerdict report "verdict" "verdict_label" := rfl
  rw [hv, reportVerdict, h]
  cases o <;> simp [resultJson, Json.get, List.lookup, Json.asStr, AnalysisOutcome.importedVerdict]

theorem publishedRun_verdict (h : WrittenFor o report) (p : PublishInputs) :
    (publishedRun p report).verdict = some o.publishedVerdict := by
  obtain ⟨finding, h⟩ := h
  have hv : (publishedRun p report).verdict =
      reportVerdict report "verdict_label" "verdict" := rfl
  rw [hv, reportVerdict, h]
  cases o <;> simp [resultJson, Json.get, List.lookup, Json.asStr,
    AnalysisOutcome.publishedVerdict, ObservedResultKind.humanLabel]

/-- No label is a name. -/
theorem importedVerdict_ne_published (o : AnalysisOutcome) :
    o.importedVerdict ≠ some o.publishedVerdict := by
  cases o with
  | completed v => cases v <;> decide +kernel
  | insufficientVisibility => simp [AnalysisOutcome.importedVerdict]
  | incomplete => simp [AnalysisOutcome.importedVerdict]

end Stored

/-! ## What is read back -/

/-- Text that JSON writes as it is. -/
def plainText (s : String) : Bool :=
  s.toList.all fun c => decide (32 ≤ c.toNat ∧ c.toNat ≠ 34 ∧ c.toNat ≠ 92)

section ReadBack
variable {env : RunEnv}

/-- The parser reads a string without escapes. -/
def ReadsStrings (env : RunEnv) : Prop :=
  ∀ s, plainText s = true → env.parseJson ("\"" ++ s ++ "\"") = .ok (.str s)

theorem fromStored_plain (hjson : ReadsStrings env) {s : String} (hs : plainText s = true) :
    Verdict.fromStored env s = (Verdict.ofName s).or (Verdict.fromDeprecatedLabel s) := by
  rw [Verdict.fromStored, hjson s hs]
  rfl

theorem fromStored_name (hjson : ReadsStrings env) (v : Verdict) :
    Verdict.fromStored env v.name = some v := by
  have hplain : plainText v.name = true := by cases v <;> decide +kernel
  rw [fromStored_plain hjson hplain, Verdict.ofName_name]
  rfl

/-- One of the four labels is an old label too, of one verdict. -/
theorem fromStored_label (hjson : ReadsStrings env) (k : ObservedResultKind) :
    Verdict.fromStored env k.humanLabel =
      if k = .noRouteStateChangeObserved then some .noObservableBgpImpact else none := by
  have hplain : plainText k.humanLabel = true := by cases k <;> decide +kernel
  rw [fromStored_plain hjson hplain]
  cases k <;> decide +kernel

theorem label_injective : Function.Injective ObservedResultKind.humanLabel := by
  intro a b h
  revert h
  cases a <;> cases b <;> decide +kernel

theorem name_injective : Function.Injective Verdict.name := by
  intro a b h
  have hname := congrArg Verdict.ofName h
  rwa [Verdict.ofName_name, Verdict.ofName_name, Option.some.injEq] at hname

end ReadBack

section Law
variable (env : RunEnv) (cmd : ImportCommand) (planId : Nat) (p : PublishInputs)

/-- The verdict of an outcome survives both ways into the catalog. -/
structure VerdictKept (o : AnalysisOutcome) : Prop where
  /-- One report, one stored string. -/
  same : ∀ report, WrittenFor o report →
    (importedRun cmd planId report).verdict = (publishedRun p report).verdict
  /-- The string is read back as the verdict. -/
  resolves : ∀ v report, o = .completed v → WrittenFor o report →
    (importedRun cmd planId report).verdict.bind (Verdict.fromStored env) = some v ∧
    (publishedRun p report).verdict.bind (Verdict.fromStored env) = some v
  /-- No other verdict is stored as it. -/
  apart : ∀ v v' report report', o = .completed v → WrittenFor o report →
    WrittenFor (.completed v') report' →
    (importedRun cmd planId report).verdict = (importedRun cmd planId report').verdict ∨
      (publishedRun p report).verdict = (publishedRun p report').verdict → v = v'

variable {env cmd planId p}

/-- **No outcome's verdict is kept.** An import alone is read back as the verdict and keeps verdicts
apart; a publication keeps what was observed, and is read back as the verdict for one of them. -/
theorem verdictKept_never (hjson : ReadsStrings env) :
    (∀ o, ¬ VerdictKept env cmd planId p o) ∧
    ∀ v report, WrittenFor (.completed v) report →
      (importedRun cmd planId report).verdict.bind (Verdict.fromStored env) = some v ∧
      ((publishedRun p report).verdict.bind (Verdict.fromStored env) = some v ↔
        v = .noObservableBgpImpact) ∧
      ∀ v' report', WrittenFor (.completed v') report' →
        ((importedRun cmd planId report).verdict = (importedRun cmd planId report').verdict ↔
          v = v') ∧
        ((publishedRun p report).verdict = (publishedRun p report').verdict ↔
          v.observedResultKind = v'.observedResultKind) := by
  constructor
  · intro o h
    have hw : WrittenFor o (.obj [("result", resultJson "" o)]) := ⟨"", rfl⟩
    have hsame := h.same _ hw
    rw [importedRun_verdict hw, publishedRun_verdict hw] at hsame
    exact importedVerdict_ne_published o hsame
  · intro v report hw
    rw [importedRun_verdict hw, publishedRun_verdict hw]
    refine ⟨fromStored_name hjson v, ?_, fun v' report' hw' => ?_⟩
    · have hread : (some (AnalysisOutcome.completed v).publishedVerdict).bind (Verdict.fromStored env) =
          Verdict.fromStored env v.observedResultKind.humanLabel := rfl
      rw [hread, fromStored_label hjson]
      cases v <;> decide
    · rw [importedRun_verdict hw', publishedRun_verdict hw']
      simp only [AnalysisOutcome.importedVerdict, AnalysisOutcome.publishedVerdict,
        Option.some.injEq, name_injective.eq_iff, label_injective.eq_iff, and_self]

end Law

/-! ### One report, both ways -/

namespace VerdictTrip

/-- A report of partial impact. -/
def report : Json :=
  .obj [("schema_version", .int 3), ("result", resultJson "" (.completed .partialImpact))]

/-- Files hold the report; a quoted text is the text between the quotes. -/
def env : RunEnv where
  readToString _ := .ok "report"
  parseJson text :=
    if text.toList.head? = some (Char.ofNat 34) then
      .ok (.str (String.ofList (text.toList.drop 1).dropLast))
    else .ok report
  sha256Bytes _ := "sha"

theorem readsStrings : ReadsStrings env := by
  intro s _
  have hquote : ("\"" ++ s ++ "\"").toList = Char.ofNat 34 :: (s.toList ++ [Char.ofNat 34]) := by
    simp
  simp [env, hquote]

def files : List RunFile := [⟨"report.json", [82]⟩]

def command : ImportCommand := ⟨"0.1.0", none, []⟩

def inputs : PublishInputs :=
  ⟨"catalog", "job-1", 0, "E", "0.1.0", none, "2026-07-30T10:00:00Z", "2026-07-30T10:05:00Z"⟩

theorem verdictKept_never_report :
    (∀ o, ¬ VerdictKept env command 0 inputs o) ∧
    ∀ v report, WrittenFor (.completed v) report →
      (importedRun command 0 report).verdict.bind (Verdict.fromStored env) = some v ∧
      ((publishedRun inputs report).verdict.bind (Verdict.fromStored env) = some v ↔
        v = .noObservableBgpImpact) ∧
      ∀ v' report', WrittenFor (.completed v') report' →
        ((importedRun command 0 report).verdict = (importedRun command 0 report').verdict ↔
          v = v') ∧
        ((publishedRun inputs report).verdict = (publishedRun inputs report').verdict ↔
          v.observedResultKind = v'.observedResultKind) :=
  verdictKept_never readsStrings

/-- **Bug**: the same file, imported and published: two strings, one of which no reader resolves. -/
theorem partial_impact_stored_twice :
    ((importRun env command 1 .empty "E" 0 files).toOption.map fun t =>
      t.runs.map (·.verdict)) = some [some "PartialImpact"] ∧
    ((importFinalizedRun env 1 .empty files inputs).toOption.map fun t =>
      t.1.runs.map (·.verdict)) = some [some "Route-state changes observed"] ∧
    Verdict.fromStored env "Route-state changes observed" = none ∧
    ¬ VerdictKept env command 0 inputs (.completed .partialImpact) := by
  refine ⟨by decide +kernel, by decide +kernel, by decide +kernel, fun h => ?_⟩
  have hw : WrittenFor (.completed .partialImpact) report := ⟨"", rfl⟩
  exact absurd (h.same report hw) (by decide +kernel)

end VerdictTrip

end Inim
