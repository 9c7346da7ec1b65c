import Inim.Domain.IpText
import Inim.Lifecycle.Restoration
/-!
# The kinds of a restoration (`lifecycle.rs:1073-1141`, `:1323-1401`, `:113-153`)

`exact_instance` is documented as "the same path_id returns with a semantically equivalent route",
compared with "that instance's last known state". The history it is looked up in lists the
withdrawals since the last restoration, oldest first, and `find` takes the *first* entry of the
path id; an instance withdrawn before that restoration is compared with its baseline state.

| here | there |
| --- | --- |
| `lostState`, `withdrawnSince` | `withdrawn_history` before a transition |
| `lookedUp`                    | `withdrawn_match`, else `baseline_match` |
| `lastKnown`                   | the state of the path id's last withdrawal, else its baseline state |
-/

namespace Inim

open Std Inim.Lib

/-! ## Route semantics -/

/-- What `route_semantically_equivalent` compares: communities in no order. -/
def RouteAttributes.semantics (a : RouteAttributes) : RouteAttributes :=
  { a with communities := sortBy compare a.communities }

theorem routeSemanticallyEquivalent_iff (a b : RouteAttributes) :
    routeSemanticallyEquivalent a b = true ↔ a.semantics = b.semantics := by
  obtain ⟨p, o, n, g, m, l, x, c⟩ := a
  obtain ⟨p', o', n', g', m', l', x', c'⟩ := b
  simp only [routeSemanticallyEquivalent, RouteAttributes.semantics, Bool.and_eq_true, beq_iff_eq,
    RouteAttributes.mk.injEq]
  tauto

/-- The fields of a fingerprint as they are. -/
def RouteAttributes.fields (a : RouteAttributes) : SemanticFingerprint :=
  ⟨a.asPath, a.originAsns, a.origin, a.nextHop.map (·.display), a.med, a.localPref,
    a.atomicAggregate, a.communities⟩

theorem fields_injective : Function.Injective RouteAttributes.fields := by
  rintro ⟨p, o, n, g, m, l, x, c⟩ ⟨p', o', n', g', m', l', x', c'⟩ h
  simp only [RouteAttributes.fields, SemanticFingerprint.mk.injEq,
    (Option.map_injective IpAddr.display_injective).eq_iff] at h
  simp [h]

theorem semanticFingerprint_eq (a : RouteAttributes) : semanticFingerprint a = a.semantics.fields := rfl

namespace Sim
variable (pred : TransitPredicate) (baseline : InstanceMap) (s : Sim) (t : RouteTransition)

end Sim

/-! ## The kinds -/

section Run
variable (opk : ObserverPrefixKey) (cooldownEnd : DateTime) (pred : TransitPredicate)
  (baseline : InstanceMap) (l : List RouteTransition)

end Run

/-! ### Two withdrawals of one path id -/

end Inim
