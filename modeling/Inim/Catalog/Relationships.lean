import Inim.Lib.DepthFirst
import Inim.Lib.Dedup
import Inim.Text

/-!
# The graph of related tickets (`catalog/relationships.rs`, `store.rs:897-1014`)

| here | there |
| --- | --- |
| `TicketRelationship`, `dedupKey`, `insertRelationship` | `domain.rs:284-301`, `store.rs:897`, the index `uq_relationship_dedup` |
| `relationshipNeighbors`                    | `relationship_neighbors` (`store.rs:975`) |
| `boundedNeighbors`                         | `bounded_neighbors` (`relationships.rs:258`) |
| `eventGraph`                               | the resolved edges, taken in both directions |

**Bug** (`bounded_neighbors_misses`): the traversal is said to be breadth-first, but it takes the events
from the end of its frontier. An event that is first seen on a detour of `max_depth` edges is not
expanded, and what lies behind it is missed although it is near enough. `boundedNeighbors_iff` gives
the exact condition. Up to two edges nothing is missed (`boundedNeighbors_of_le_two`).
-/

namespace Inim

open Std Inim.Lib

/-! ## The table of relationships -/

structure TicketRelationship where
  id : Int
  fromEventId : Int
  /-- `None` while the identifier is unresolved. -/
  toEventId : Option Int
  toExternalId : String
  relationshipKind : String
  evidenceKind : String
  sourceSnapshotId : Option Int
  sourceDocumentId : Option Int
  reviewedStatus : String
  note : Option String
  createdUtc : String
deriving DecidableEq, Repr

/-- `uq_relationship_dedup`, with `COALESCE(.., 0)` for the two ids of the source. -/
def TicketRelationship.dedupKey (edge : TicketRelationship) :
    Int × String × String × String × Int × Int :=
  (edge.fromEventId, edge.toExternalId, edge.relationshipKind, edge.evidenceKind,
    edge.sourceSnapshotId.getD 0, edge.sourceDocumentId.getD 0)

/-- The id that SQLite gives a new row. -/
def nextRelationshipId (edges : List TicketRelationship) : Int :=
  (edges.map (·.id)).foldl max 0 + 1

/-- `INSERT OR IGNORE`, and whether a row was inserted. -/
def insertRelationship (edges : List TicketRelationship) (edge : TicketRelationship) :
    List TicketRelationship × Bool :=
  if edges.any (·.dedupKey = edge.dedupKey) then (edges, false)
  else (edges ++ [{ edge with id := nextRelationshipId edges }], true)

/-! ## Neighbours -/

/-- The events that the resolved edges join with the event, in the order of their ids. -/
def relationshipNeighbors (edges : List TicketRelationship) (eventId : Int) : List Int :=
  sortDedup compare
    ((edges.filter (·.fromEventId = eventId)).filterMap (·.toEventId) ++
      (edges.filter (·.toEventId = some eventId)).map (·.fromEventId))

/-- The events of the edges and the one the traversal starts from. -/
def relationshipEvents (edges : List TicketRelationship) (eventId : Int) : Finset Int :=
  insert eventId (edges.map (·.fromEventId) ++ edges.filterMap (·.toEventId)).toFinset

/-- The traversal: `frontier.pop` takes the last event that was pushed. -/
def boundedNeighbors (edges : List TicketRelationship) (eventId : Int) (maxDepth : Nat) :
    Option (Finset Int) :=
  let start : SearchState Int := ⟨{eventId}, [(eventId, 0)]⟩
  let fuel := (relationshipEvents edges eventId).card
  (search (relationshipNeighbors edges) maxDepth fuel start).map (·.erase eventId)

theorem mem_relationshipNeighbors {edges : List TicketRelationship} {v w : Int} :
    w ∈ relationshipNeighbors edges v ↔
      ∃ e ∈ edges, (e.fromEventId = v ∧ e.toEventId = some w) ∨
        (e.fromEventId = w ∧ e.toEventId = some v) := by
  simp only [relationshipNeighbors, mem_sortDedup, List.mem_append, List.mem_filterMap, List.mem_filter,
    List.mem_map, decide_eq_true_eq]
  constructor
  · rintro (⟨e, ⟨he, hf⟩, ht⟩ | ⟨e, ⟨he, ht⟩, hf⟩)
    · exact ⟨e, he, .inl ⟨hf, ht⟩⟩
    · exact ⟨e, he, .inr ⟨hf, ht⟩⟩
  · rintro ⟨e, he, ⟨hf, ht⟩ | ⟨hf, ht⟩⟩
    · exact .inl ⟨e, ⟨he, hf⟩, ht⟩
    · exact .inr ⟨e, ⟨he, ht⟩, hf⟩

/-- The graph of the resolved edges. -/
def eventGraph (edges : List TicketRelationship) : SimpleGraph Int :=
  SimpleGraph.fromRel fun v w => ∃ e ∈ edges, e.fromEventId = v ∧ e.toEventId = some w

theorem eventGraph_adj (edges : List TicketRelationship) (v w : Int) :
    (eventGraph edges).Adj v w ↔ v ≠ w ∧ w ∈ relationshipNeighbors edges v := by
  rw [eventGraph, SimpleGraph.fromRel_adj, mem_relationshipNeighbors]
  refine and_congr_right fun _ => ?_
  constructor
  · rintro (⟨e, he, h⟩ | ⟨e, he, h⟩)
    · exact ⟨e, he, .inl h⟩
    · exact ⟨e, he, .inr h⟩
  · rintro ⟨e, he, h | h⟩
    · exact .inl ⟨e, he, h⟩
    · exact .inr ⟨e, he, h⟩

/-! ## The traversal -/

/-- The traversal ends on every graph, and sees what the search with a stack sees. -/
theorem boundedNeighbors_sees (edges : List TicketRelationship) (eventId : Int) (maxDepth : Nat) :
    ∃ seen, boundedNeighbors edges eventId maxDepth = some (seen.erase eventId) ∧
      Sees (relationshipNeighbors edges) maxDepth eventId seen := by
  have hasc : ∀ v, (relationshipNeighbors edges v).Pairwise (· < ·) := fun v => sortDedup_ascending _
  have huniv : ∀ v, ∀ w ∈ relationshipNeighbors edges v, w ∈ relationshipEvents edges eventId := by
    intro v w hw
    obtain ⟨e, he, ⟨-, h⟩ | ⟨h, -⟩⟩ := mem_relationshipNeighbors.mp hw
    · simp only [relationshipEvents, Finset.mem_insert, List.mem_toFinset, List.mem_append,
        List.mem_filterMap]
      exact .inr (.inr ⟨e, he, h⟩)
    · simp only [relationshipEvents, Finset.mem_insert, List.mem_toFinset, List.mem_append, List.mem_map]
      exact .inr (.inl ⟨e, he, h⟩)
  have hcard : ([(eventId, 0)] : List (Int × Nat)).length +
      (relationshipEvents edges eventId \ {eventId}).card ≤ (relationshipEvents edges eventId).card := by
    have hin : {eventId} ⊆ relationshipEvents edges eventId := by simp [relationshipEvents]
    have h := Finset.card_sdiff_add_card_eq_card hin
    simp only [List.length_singleton, Finset.card_singleton] at h ⊢
    omega
  have hends : (search (relationshipNeighbors edges) maxDepth (relationshipEvents edges eventId).card
      ⟨{eventId}, [(eventId, 0)]⟩).isSome :=
    search_isSome (fun v => (hasc v).imp fun h => h.ne) huniv _ _ hcard
  obtain ⟨seen, hseen⟩ := Option.isSome_iff_exists.mp hends
  exact ⟨seen, by rw [boundedNeighbors, hseen, Option.map_some], search_sees hasc hseen⟩

/-- The traversal ends and returns the events at a distance from 1 to `max_depth`, exactly if the limit
cuts none of them off. -/
theorem boundedNeighbors_iff (edges : List TicketRelationship) (eventId : Int) (maxDepth : Nat) :
    ∃ found, boundedNeighbors edges eventId maxDepth = some found ∧
      ((∀ v, v ∈ found ↔
          1 ≤ (eventGraph edges).dist eventId v ∧ (eventGraph edges).dist eventId v ≤ maxDepth) ↔
        NothingCutOff (eventGraph edges) (relationshipNeighbors edges) maxDepth eventId) := by
  obtain ⟨seen, hrun, hsees⟩ := boundedNeighbors_sees edges eventId maxDepth
  exact ⟨seen.erase eventId, hrun, hsees.dist_iff (eventGraph_adj edges)⟩

namespace DetourSample

/-- `from` refers to `to` in its text. -/
def reference (id fromId toId : Int) : TicketRelationship :=
  { id := id, fromEventId := fromId, toEventId := some toId, toExternalId := "INC0000000"
    relationshipKind := "References", evidenceKind := "ExplicitTicketText", sourceSnapshotId := some id
    sourceDocumentId := none, reviewedStatus := "Unreviewed", note := none
    createdUtc := "2026-08-01T00:00:00Z" }

/-- The way 1, 2, 5, 6 and the detour 1, 3, 4, 5. -/
def edges : List TicketRelationship :=
  [reference 1 1 2, reference 2 1 3, reference 3 3 4, reference 4 4 5, reference 5 2 5, reference 6 5 6]

theorem edge {v w : Int} (h : v ≠ w ∧ w ∈ relationshipNeighbors edges v) : (eventGraph edges).Adj v w :=
  (eventGraph_adj edges v w).mpr h

end DetourSample

open DetourSample in
/-- **Bug.** The event 5 is first seen at the end of the detour, so 6 is missed. -/
theorem bounded_neighbors_misses :
    ¬ ∀ (edges : List TicketRelationship) (eventId : Int) (maxDepth : Nat),
      ∃ found, boundedNeighbors edges eventId maxDepth = some found ∧ ∀ v, v ∈ found ↔
        1 ≤ (eventGraph edges).dist eventId v ∧ (eventGraph edges).dist eventId v ≤ maxDepth := by
  intro h
  obtain ⟨found, hrun, hdist⟩ := h edges 1 3
  have hfound : boundedNeighbors edges 1 3 = some {2, 3, 4, 5} := by decide +kernel
  obtain rfl : {2, 3, 4, 5} = found := Option.some.inj (hfound.symm.trans hrun)
  have h12 : (eventGraph edges).Adj 1 2 := edge (by decide +kernel)
  have h25 : (eventGraph edges).Adj 2 5 := edge (by decide +kernel)
  have h56 : (eventGraph edges).Adj 5 6 := edge (by decide +kernel)
  let walk : (eventGraph edges).Walk 1 6 := .cons h12 (.cons h25 (.cons h56 .nil))
  have hle : (eventGraph edges).dist 1 6 ≤ 3 := SimpleGraph.dist_le walk
  have hpos : 0 < (eventGraph edges).dist 1 6 := walk.reachable.pos_dist_of_ne (by decide)
  exact absurd ((hdist 6).mpr ⟨hpos, hle⟩) (by decide)

theorem boundedNeighbors_of_le_two (edges : List TicketRelationship) (eventId : Int) {maxDepth : Nat}
    (h : maxDepth ≤ 2) :
    ∃ found, boundedNeighbors edges eventId maxDepth = some found ∧ ∀ v, v ∈ found ↔
      1 ≤ (eventGraph edges).dist eventId v ∧ (eventGraph edges).dist eventId v ≤ maxDepth := by
  obtain ⟨seen, hrun, hsees⟩ := boundedNeighbors_sees edges eventId maxDepth
  refine ⟨seen.erase eventId, hrun, (hsees.dist_iff (eventGraph_adj edges)).mpr ?_⟩
  exact nothingCutOff_of_le_two hsees (eventGraph_adj edges) h

end Inim
