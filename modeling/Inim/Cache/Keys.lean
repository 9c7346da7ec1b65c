import Inim.Domain.Route
import Inim.Lib.Dedup

/-!
# Cache keys (`derived_cache.rs`, `catalog/source_extract.rs`)

| here | there |
| --- | --- |
| `transitPredicateIdentity` | `derived_cache.rs:68-89` |
| `ribCacheKey`              | `derived_cache.rs:96-122` |
| `updateCacheKey`           | `derived_cache.rs:313-334` |
| `extractionKey`            | `source_extract.rs:34-61` |

A key is a digest of bytes: `digest` is SHA-256 cut to 16 bytes and written in hexadecimal, and
a parameter throughout.
-/

namespace Inim

open Inim.Lib

def utf8 (s : String) : List UInt8 := s.toUTF8.data.toList

/-- `to_le_bytes`. -/
def leBytes (n : UInt32) : List UInt8 :=
  [n.toUInt8, (n >>> 8).toUInt8, (n >>> 16).toUInt8, (n >>> 24).toUInt8]

/-- Parts with `|` between them. -/
def separated : List (List UInt8) → List UInt8
  | [] => []
  | [p] => p
  | p :: ps => p ++ utf8 "|" ++ separated ps

/-- `SourceFamily` (`archive_plan.rs:40`). -/
inductive SourceFamily where
  | routeViews
  | ripeRis
deriving DecidableEq, Repr

def SourceFamily.asStr : SourceFamily → String
  | .routeViews => "RouteViews"
  | .ripeRis => "RipeRis"

def parserVersion : String := "0.19.0"
def extractionSchemaVersion : UInt32 := 1
def ribCacheSchemaVersion : UInt32 := 2
def updateCacheSchemaVersion : UInt32 := 2
def observationSchemaVersion : UInt32 := 2

def joinAsns (asns : List UInt32) : String := String.intercalate "," (asns.map toString)

def transitPredicateIdentity : TransitPredicate → String
  | .containsAny asns => "ContainsAny[" ++ joinAsns asns ++ "]"
  | .containsAll asns => "ContainsAll[" ++ joinAsns asns ++ "]"
  | .adjacent a b => "Adjacent(" ++ toString a ++ "," ++ toString b ++ ")"

section Keys

variable (digest : List UInt8 → String)

def ribCacheKey (sourceSha collector : String) (originAsns : List UInt32)
    (transitPredicate : TransitPredicate) (manifestRevision : UInt32) (sourceFamily : String) :
    String :=
  digest (separated [utf8 sourceSha, utf8 sourceFamily, utf8 collector, originAsns.flatMap leBytes,
    utf8 (transitPredicateIdentity transitPredicate), leBytes manifestRevision,
    leBytes ribCacheSchemaVersion, utf8 parserVersion])

def updateCacheKey (sourceSha collector targetsetHash sourceFamily : String) : String :=
  digest (separated [utf8 sourceSha, utf8 sourceFamily, utf8 collector, utf8 targetsetHash,
    leBytes updateCacheSchemaVersion, leBytes observationSchemaVersion, utf8 parserVersion])

/-- The origins are sorted and deduplicated; the transit predicate is not part of the key. -/
def extractionKey (sourceSha sourceFamily collector : String) (originAsns : List UInt32) : String :=
  digest (separated [utf8 sourceSha, utf8 (sourceFamily.map Char.toLower), utf8 collector,
    (sortDedup compare originAsns).flatMap leBytes, leBytes extractionSchemaVersion,
    utf8 parserVersion])

/-- All listings of one origin set share an extraction. -/
theorem extractionKey_congr (sourceSha sourceFamily collector : String) {l l' : List UInt32}
    (h : ∀ a, a ∈ l ↔ a ∈ l') :
    extractionKey digest sourceSha sourceFamily collector l
      = extractionKey digest sourceSha sourceFamily collector l' := by
  rw [extractionKey, extractionKey, sortDedup_congr h]

end Keys

end Inim
