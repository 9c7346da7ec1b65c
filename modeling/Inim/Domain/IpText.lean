import Inim.Domain.Observation
import Inim.Lib.Joined
/-!
# The text of an address determines it

`IpAddr` is printed where records are sorted, grouped and compared (`peer_ip.to_string()`), so two
addresses must not share a text. Every text is pieces joined by `:`, an IPv4 address being one
piece (`display_eq`); a compressed text has an empty piece, and the segments on the two sides of
it give back the run of zeros between them.
-/

namespace Inim

open Inim.Lib

namespace IpAddr

/-! ## The parts -/

theorem hex_injective : Function.Injective hex := fun _ _ h =>
  toDigits_injective (by decide) (by decide) (String.ofList_injective h)

theorem hex_ne_empty (n : Nat) : hex n ≠ "" := by
  intro h
  have hlen := congrArg (fun s : String => s.toList.length) h
  simp only [hex, String.toList_ofList] at hlen
  have := @Nat.length_toDigits_pos 16 n
  simp at hlen

theorem not_mem_hex {c : Char} (hc : ∀ d : Fin 16, c ≠ d.val.digitChar) (n : Nat) :
    c ∉ (hex n).toList := by
  intro hm
  rw [hex, String.toList_ofList] at hm
  obtain ⟨d, hd, rfl⟩ := mem_toDigits (by decide) hm
  exact hc ⟨d, hd⟩ rfl

theorem not_mem_toString {c : Char} (hc : ∀ d : Fin 10, c ≠ d.val.digitChar) (n : Nat) :
    c ∉ (toString n).toList := by
  intro hm
  rw [Nat.toString_eq_ofList_toDigits, String.toList_ofList] at hm
  obtain ⟨d, hd, rfl⟩ := mem_toDigits (by decide) hm
  exact hc ⟨d, hd⟩ rfl

theorem not_mem_displayV4 {c : Char} (hc : ∀ d : Fin 16, c ≠ d.val.digitChar) (hdot : c ≠ '.')
    (n : Nat) : c ∉ (displayV4 n).toList := by
  intro hm
  rcases mem_intercalate hm with h | ⟨p, hp, h⟩
  · exact hdot (by simpa using h)
  · obtain ⟨s, -, rfl⟩ := List.mem_map.1 hp
    exact not_mem_toString (fun d => hc ⟨d, d.isLt.trans (by decide)⟩) _ h

theorem dot_mem_displayV4 (n : Nat) : '.' ∈ (displayV4 n).toList := by
  simp [displayV4]

theorem displayV4_injective {m n : Nat} (hm : m < 2 ^ 32) (hn : n < 2 ^ 32)
    (h : displayV4 m = displayV4 n) : m = n := by
  have hp := intercalate_injective (c := '.') rfl (by simp) (by simp)
    (by simp only [List.mem_map]; rintro p ⟨s, -, rfl⟩; exact not_mem_toString (by decide) _)
    (by simp only [List.mem_map]; rintro p ⟨s, -, rfl⟩; exact not_mem_toString (by decide) _) h
  simp only [List.map_cons, List.map_nil, List.cons.injEq, and_true, Nat.toString_eq_repr,
    Nat.repr_inj] at hp
  omega

/-- What is above a segment, and the segment. -/
theorem div_eq_of_segment {m n s : Nat} (habove : m / 2 ^ (s + 16) = n / 2 ^ (s + 16))
    (hsegment : m / 2 ^ s % 65536 = n / 2 ^ s % 65536) : m / 2 ^ s = n / 2 ^ s := by
  rw [Nat.pow_add, ← Nat.div_div_eq_div_mul, ← Nat.div_div_eq_div_mul] at habove
  rw [← Nat.div_add_mod (m / 2 ^ s) 65536, ← Nat.div_add_mod (n / 2 ^ s) 65536, hsegment]
  exact congrArg (65536 * · + n / 2 ^ s % 65536) habove

theorem segments_injective {m n : Nat} (hm : m < 2 ^ 128) (hn : n < 2 ^ 128)
    (h : segments m = segments n) : m = n := by
  simp only [segments, List.map_cons, List.map_nil, List.cons.injEq, and_true] at h
  obtain ⟨h112, h96, h80, h64, h48, h32, h16, h0⟩ := h
  have htop : m / 2 ^ 128 = n / 2 ^ 128 := by rw [Nat.div_eq_of_lt hm, Nat.div_eq_of_lt hn]
  have hall : m / 2 ^ 0 = n / 2 ^ 0 :=
    div_eq_of_segment (div_eq_of_segment (div_eq_of_segment (div_eq_of_segment
      (div_eq_of_segment (div_eq_of_segment (div_eq_of_segment
        (div_eq_of_segment htop h112) h96) h80) h64) h48) h32) h16) h0
  simpa using hall

/-! ## Zero runs -/

/-- The segments from `z.1` on, `z.2` of them, are zero. -/
def ZeroRun (segs : List Nat) (z : Nat × Nat) : Prop :=
  ∀ j, z.1 ≤ j → j < z.1 + z.2 → segs[j]? = some 0

theorem longestZeros_zeroRun {segs : List Nat} (rest : List Nat) :
    ∀ (i : Nat) (cur longest : Nat × Nat), segs.drop i = rest → ZeroRun segs cur →
      (cur.2 ≠ 0 → cur.1 + cur.2 = i) → ZeroRun segs longest →
      ZeroRun segs (longestZeros i cur longest rest) := by
  induction rest with
  | nil => exact fun _ _ _ _ _ _ h => h
  | cons s rest ih =>
    intro i cur longest hdrop hcur hend hlongest
    have hrest : segs.drop (i + 1) = rest := by
      rw [← List.drop_drop, hdrop]
      rfl
    have hs : segs[i]? = some s := by
      have := congrArg (·[0]?) hdrop
      simpa using this
    unfold longestZeros
    split
    · next hzero =>
      subst hzero
      have hnext : ZeroRun segs (if cur.2 = 0 then (i, 1) else (cur.1, cur.2 + 1)) ∧
          (if cur.2 = 0 then (i, 1) else (cur.1, cur.2 + 1)).1 +
            (if cur.2 = 0 then (i, 1) else (cur.1, cur.2 + 1)).2 = i + 1 := by
        split
        · refine ⟨fun j h1 h2 => ?_, rfl⟩
          obtain rfl : j = i := by dsimp only at h1 h2; omega
          exact hs
        · next hne =>
          have hi := hend hne
          refine ⟨fun j h1 h2 => ?_, by dsimp only; omega⟩
          dsimp only at h1 h2
          by_cases hj : j = i
          · exact hj ▸ hs
          · exact hcur j h1 (by omega)
      dsimp only
      generalize (if cur.2 = 0 then (i, 1) else (cur.1, cur.2 + 1)) = next at hnext ⊢
      refine ih _ _ _ hrest hnext.1 (fun _ => hnext.2) ?_
      split
      · exact hnext.1
      · exact hlongest
    · refine ih _ _ _ hrest (fun j h1 h2 => ?_) (fun h => absurd rfl h) hlongest
      dsimp only at h1 h2
      omega

theorem zeroRun_longest (segs : List Nat) :
    ZeroRun segs (longestZeros 0 (0, 0) (0, 0) segs) := by
  have hnone : ZeroRun segs (0, 0) := by
    intro j h1 h2
    dsimp only at h1 h2
    omega
  exact longestZeros_zeroRun segs 0 _ _ rfl hnone (fun h => absurd rfl h) hnone

/-- The segments before and after a zero run that is inside the list determine the list. -/
theorem eq_of_sides {xs ys : List Nat} {z w : Nat × Nat} (hlen : xs.length = ys.length)
    (hz : ZeroRun xs z) (hw : ZeroRun ys w) (hz2 : 0 < z.2) (hw2 : 0 < w.2)
    (htake : xs.take z.1 = ys.take w.1) (hdrop : xs.drop (z.1 + z.2) = ys.drop (w.1 + w.2)) :
    xs = ys := by
  have hlt {l : List Nat} {u : Nat × Nat} (hu : ZeroRun l u) (h2 : 0 < u.2) :
      u.1 + u.2 ≤ l.length := by
    have hlast := hu (u.1 + u.2 - 1) (by omega) (by omega)
    obtain ⟨h, -⟩ := List.getElem?_eq_some_iff.1 hlast
    omega
  have hzl := hlt hz hz2
  have hwl := hlt hw hw2
  have h1 := congrArg List.length htake
  have h2 := congrArg List.length hdrop
  simp only [List.length_take, List.length_drop] at h1 h2
  obtain ⟨z1, z2⟩ := z
  obtain ⟨w1, w2⟩ := w
  dsimp only at *
  obtain rfl : z1 = w1 := by omega
  obtain rfl : z2 = w2 := by omega
  refine List.ext_getElem? fun j => ?_
  by_cases hj1 : j < z1
  · have hget (l : List Nat) : l[j]? = (l.take z1)[j]? := (List.getElem?_take_of_lt hj1).symm
    rw [hget xs, hget ys, htake]
  · by_cases hj2 : j < z1 + z2
    · rw [hz j (by omega) hj2, hw j (by omega) hj2]
    · have := congrArg (·[j - (z1 + z2)]?) hdrop
      simpa [List.getElem?_drop, Nat.add_sub_cancel' (Nat.le_of_not_lt hj2)] using this

/-! ## The pieces of a text -/

/-- The pieces on one side of `::`. -/
def side (l : List String) : List String := if l = [] then [""] else l

def piecesV6 (n : Nat) : List String :=
  if n / 2 ^ 32 = 65535 then ["", "", "ffff", displayV4 (n % 2 ^ 32)]
  else
    let segs := segments n
    let z := longestZeros 0 (0, 0) (0, 0) segs
    if 1 < z.2 then side ((segs.take z.1).map hex) ++ "" :: side ((segs.drop (z.1 + z.2)).map hex)
    else segs.map hex

def pieces : IpAddr → List String
  | .v4 b => [displayV4 b.toNat]
  | .v6 b => piecesV6 b.toNat

theorem intercalate_side (l : List String) :
    String.intercalate ":" (side l) = String.intercalate ":" l := by
  unfold side
  split
  · next h => simp [h]
  · rfl

theorem side_ne_nil (l : List String) : side l ≠ [] := by
  unfold side
  split
  · simp
  · assumption

theorem display_eq (ip : IpAddr) : ip.display = String.intercalate ":" (pieces ip) := by
  cases ip with
  | v4 b => simp [display, pieces]
  | v6 b =>
    rw [display, pieces, displayV6, piecesV6]
    split
    · refine String.toList_inj.1 ?_
      simp
    · dsimp only
      split
      · rw [String.intercalate_append_of_ne_nil (side_ne_nil _) (by simp),
          String.intercalate_cons_of_ne_nil (side_ne_nil _), intercalate_side, intercalate_side]
        refine String.toList_inj.1 ?_
        simp only [String.toList_append, List.append_assoc]
        rfl
      · rfl

theorem not_mem_side {c : Char} {l : List String} (h : ∀ p ∈ l, c ∉ p.toList) :
    ∀ p ∈ side l, c ∉ p.toList := by
  unfold side
  split
  · simp
  · exact h

theorem not_mem_hexes {c : Char} (hc : ∀ d : Fin 16, c ≠ d.val.digitChar) (l : List Nat) :
    ∀ p ∈ l.map hex, c ∉ p.toList := by
  simp only [List.mem_map]
  rintro p ⟨n, -, rfl⟩
  exact not_mem_hex hc n

/-- The three forms of an IPv6 text. -/
theorem piecesV6_cases (n : Nat) :
    (n / 2 ^ 32 = 65535 ∧ piecesV6 n = ["", "", "ffff", displayV4 (n % 2 ^ 32)]) ∨
    (∃ z : Nat × Nat, 0 < z.2 ∧ ZeroRun (segments n) z ∧
      piecesV6 n = side (((segments n).take z.1).map hex) ++
        "" :: side (((segments n).drop (z.1 + z.2)).map hex)) ∨
    piecesV6 n = (segments n).map hex := by
  rw [piecesV6]
  split
  · next h => exact Or.inl ⟨h, rfl⟩
  · dsimp only
    split
    · next h =>
      exact Or.inr (Or.inl ⟨_, by omega, zeroRun_longest (segments n), rfl⟩)
    · exact Or.inr (Or.inr rfl)

theorem not_mem_piecesV6 {c : Char} (hc : ∀ d : Fin 16, c ≠ d.val.digitChar) (hdot : c ≠ '.')
    (n : Nat) : ∀ p ∈ piecesV6 n, c ∉ p.toList := by
  rcases piecesV6_cases n with ⟨-, h⟩ | ⟨z, -, -, h⟩ | h
  · rw [h]
    have hv4 := not_mem_displayV4 hc hdot (n % 2 ^ 32)
    have hf : c ≠ 'f' := hc 15
    simp_all
  · rw [h]
    intro p hp
    rcases List.mem_append.1 hp with hp | hp
    · exact not_mem_side (not_mem_hexes hc _) p hp
    · rcases List.mem_cons.1 hp with rfl | hp
      · simp
      · exact not_mem_side (not_mem_hexes hc _) p hp
  · exact h ▸ not_mem_hexes hc _

theorem two_le_length_piecesV6 (n : Nat) : 2 ≤ (piecesV6 n).length := by
  have hside (l : List String) : 1 ≤ (side l).length :=
    List.length_pos_iff.2 (side_ne_nil l)
  rcases piecesV6_cases n with ⟨-, h⟩ | ⟨z, -, -, h⟩ | h
  · simp [h]
  · have := hside (((segments n).take z.1).map hex)
    rw [h, List.length_append, List.length_cons]
    omega
  · simp [h, segments]

theorem pieces_ne_nil (ip : IpAddr) : pieces ip ≠ [] := by
  cases ip with
  | v4 b => exact List.cons_ne_nil _ _
  | v6 b => exact List.ne_nil_of_length_pos (lt_of_lt_of_le (by decide) (two_le_length_piecesV6 b.toNat))

/-- Digits and `.` is all there is between the colons. -/
theorem not_mem_pieces {c : Char} (hc : ∀ d : Fin 16, c ≠ d.val.digitChar) (hdot : c ≠ '.')
    (ip : IpAddr) : ∀ p ∈ pieces ip, c ∉ p.toList := by
  cases ip with
  | v4 b =>
    intro p hp
    rw [List.mem_singleton.1 hp]
    exact not_mem_displayV4 hc hdot b.toNat
  | v6 b => exact not_mem_piecesV6 hc hdot b.toNat

/-! ## Telling the texts apart -/

theorem empty_not_mem_hexes (l : List Nat) : "" ∉ l.map hex := by
  simp only [List.mem_map, not_exists, not_and]
  exact fun n _ => hex_ne_empty n

theorem dot_not_mem_hexes {l : List Nat} {p : String} (h : p ∈ l.map hex) : '.' ∉ p.toList := by
  obtain ⟨n, -, rfl⟩ := List.mem_map.1 h
  exact not_mem_hex (by decide) n

theorem takeWhile_side {l : List String} (h : "" ∉ l) (rest : List String) :
    (side l ++ "" :: rest).takeWhile (· ≠ "") = l := by
  unfold side
  split
  · next hnil => simp [hnil]
  · rw [List.takeWhile_append_of_pos]
    · simp
    · intro p hp
      exact decide_eq_true (fun he => h (he ▸ hp))

theorem reverse_side (l : List String) : (side l).reverse = side l.reverse := by
  unfold side
  split <;> simp_all

/-- The two sides of a compressed text. -/
theorem sides_injective {a b c d : List String} (ha : "" ∉ a) (hb : "" ∉ b) (hc : "" ∉ c)
    (hd : "" ∉ d) (h : side a ++ "" :: side b = side c ++ "" :: side d) : a = c ∧ b = d := by
  constructor
  · rw [← takeWhile_side ha (side b), h, takeWhile_side hc]
  · have hrev := congrArg List.reverse h
    simp only [List.reverse_append, List.reverse_cons, reverse_side, List.append_assoc,
      List.singleton_append] at hrev
    have := (takeWhile_side (by simpa using hb) _).symm.trans
      ((congrArg (List.takeWhile (· ≠ "")) hrev).trans (takeWhile_side (by simpa using hd) _))
    simpa using this

theorem dot_not_mem_sides {a b : List Nat} {p : String}
    (h : p ∈ side (a.map hex) ++ "" :: side (b.map hex)) : '.' ∉ p.toList := by
  have hside {l : List Nat} (h : p ∈ side (l.map hex)) : '.' ∉ p.toList := by
    unfold side at h
    split at h
    · rw [List.mem_singleton.1 h]
      simp
    · exact dot_not_mem_hexes h
  rcases List.mem_append.1 h with h | h
  · exact hside h
  · rcases List.mem_cons.1 h with rfl | h
    · simp
    · exact hside h

theorem piecesV6_injective {m n : Nat} (hm : m < 2 ^ 128) (hn : n < 2 ^ 128)
    (h : piecesV6 m = piecesV6 n) : m = n := by
  have hhex := List.map_injective_iff.2 hex_injective
  -- the last piece of a mapped address has dots, no piece of the other forms has any
  have hmapped {k : Nat} {l : List String} (hl : ∀ p ∈ l, '.' ∉ p.toList)
      (hd : ["", "", "ffff", displayV4 k] = l) : False :=
    hl (displayV4 k) (hd ▸ by simp) (dot_mem_displayV4 k)
  rcases piecesV6_cases m with ⟨h1, hpm⟩ | ⟨z, hz, hrun, hpm⟩ | hpm <;>
    rcases piecesV6_cases n with ⟨h2, hpn⟩ | ⟨w, hw, hrun', hpn⟩ | hpn <;> rw [hpm, hpn] at h
  · simp only [List.cons.injEq, and_true, true_and] at h
    have := displayV4_injective (Nat.mod_lt _ (by decide)) (Nat.mod_lt _ (by decide)) h
    omega
  · exact (hmapped (fun p => dot_not_mem_sides) h).elim
  · exact (hmapped (fun p => dot_not_mem_hexes) h).elim
  · exact (hmapped (fun p => dot_not_mem_sides) h.symm).elim
  · obtain ⟨hl, hr⟩ := sides_injective (empty_not_mem_hexes _) (empty_not_mem_hexes _)
      (empty_not_mem_hexes _) (empty_not_mem_hexes _) h
    have hlen : (segments m).length = (segments n).length := by simp [segments]
    exact segments_injective hm hn (eq_of_sides hlen hrun hrun' hz hw (hhex hl) (hhex hr))
  · exact (empty_not_mem_hexes (segments n) (h ▸ by simp)).elim
  · exact (hmapped (fun p => dot_not_mem_hexes) h.symm).elim
  · exact (empty_not_mem_hexes (segments m) (h ▸ by simp)).elim
  · exact segments_injective hm hn (hhex h)

/-- **Two addresses have one text only if they are equal.** -/
theorem display_injective : Function.Injective display := by
  intro a b h
  rw [display_eq, display_eq] at h
  have hp : pieces a = pieces b := intercalate_injective (c := ':') rfl (pieces_ne_nil a)
    (pieces_ne_nil b) (not_mem_pieces (by decide) (by decide) a) (not_mem_pieces (by decide) (by decide) b) h
  cases a with
  | v4 a =>
    cases b with
    | v4 b =>
      have := displayV4_injective a.isLt b.isLt (List.singleton_inj.1 hp)
      rw [BitVec.eq_of_toNat_eq this]
    | v6 b =>
      have := two_le_length_piecesV6 b.toNat
      rw [← show pieces (.v6 b) = piecesV6 b.toNat from rfl, ← hp] at this
      simp [pieces] at this
  | v6 a =>
    cases b with
    | v4 b =>
      have := two_le_length_piecesV6 a.toNat
      rw [← show pieces (.v6 a) = piecesV6 a.toNat from rfl, hp] at this
      simp [pieces] at this
    | v6 b =>
      have := piecesV6_injective a.isLt b.isLt hp
      rw [BitVec.eq_of_toNat_eq this]

end IpAddr

end Inim
