import Blocklist.Proofs.IdTable
import Mathlib.Algebra.BigOperators.Fin
import Mathlib.Tactic.Ring

set_option autoImplicit false

/-! # The hash of a domain as a polynomial

The hash is computed unit by unit in signed words that wrap around, with a shift and a subtraction
to multiply by 31. What comes out is the residue of a whole number without its sign: the polynomial
in 31 whose coefficients are the UTF-16 units (`toNat_domainHash`). So a hash is at most `2 ^ 31`,
there is always room for its successor, and two pairs of hashed ids overlap iff the hashes are the
same or next to each other. -/

namespace Blocklist

/-! ## Units as numbers -/

namespace Text

/-- The UTF-16 units of a character as numbers: its code point, or beyond the Basic Multilingual
Plane a high and a low surrogate with ten bits each of what lies beyond it. -/
def charNumbers (c : Char) : List Nat :=
  if c.toNat < 0x10000 then [c.toNat]
  else [0xD800 + (c.toNat - 0x10000) / 0x400, 0xDC00 + (c.toNat - 0x10000) % 0x400]

/-- The UTF-16 units of a text as numbers. -/
def unitNumbers (text : String) : List Nat :=
  text.toList.flatMap charNumbers

theorem map_toNat_charUnits (c : Char) : (charUnits c).map UInt16.toNat = charNumbers c := by
  have hscalar : c.toNat < 0x110000 := by
    rcases c.valid with h | ⟨-, h⟩
    · show c.val.toNat < _
      omega
    · exact h
  have hplane : c.val < 0x10000 ↔ c.toNat < 0x10000 := by
    rw [UInt32.lt_iff_toNat_lt]
    rfl
  unfold charUnits charNumbers
  by_cases hbasic : c.toNat < 0x10000
  · rw [if_pos (hplane.2 hbasic), if_pos hbasic, List.map_singleton, UInt32.toNat_toUInt16,
      Char.toNat_val, Nat.mod_eq_of_lt hbasic]
  · rw [if_neg (mt hplane.1 hbasic), if_neg hbasic]
    have hle : (0x10000 : UInt32) ≤ c.val := UInt32.not_lt.1 (mt hplane.1 hbasic)
    have hlow (n : Nat) : n &&& 0x3FF = n % 0x400 := Nat.and_two_pow_sub_one_eq_mod n 10
    simp [UInt32.toNat_sub_of_le _ _ hle, Nat.shiftRight_eq_div_pow, hlow]
    -- No surrogate needs more than sixteen bits, since no code point is above 0x10FFFF.
    omega

theorem map_toNat_utf16Units (text : String) :
    (utf16Units text).map UInt16.toNat = unitNumbers text := by
  simp only [utf16Units, unitNumbers, List.map_flatMap, map_toNat_charUnits]

end Text

/-! ## The polynomial -/

/-- The polynomial in 31 with the given coefficients, that of the highest power first. -/
def polynomial (units : List Nat) : Nat :=
  ∑ i : Fin units.length, units[i] * 31 ^ (units.length - 1 - i)

theorem polynomial_nil : polynomial [] = 0 := rfl

theorem polynomial_cons (unit : Nat) (rest : List Nat) :
    polynomial (unit :: rest) = unit * 31 ^ rest.length + polynomial rest := by
  unfold polynomial
  simp only [List.length_cons]
  rw [Fin.sum_univ_succ]
  simp [Nat.sub_sub, Nat.add_comm]

/-! ## Signed words -/

/-- The shift and the subtraction multiply by 31, up to multiples of `2 ^ 32`. -/
theorem toInt_hashStep (h : Int32) (unit : UInt16) :
    (hashStep h unit).toInt = (h.toInt * 31 + unit.toNat).bmod (2 ^ 32) := by
  have hshift : h <<< 5 = h * 32 := by
    refine Int32.toBitVec_inj.1 ?_
    rw [Int32.toBitVec_shiftLeft, Int32.toBitVec_mul]
    exact BitVec.shiftLeft_eq_mul_twoPow h.toBitVec 5
  have hunit : unit.toUInt32.toInt32.toInt = unit.toNat := by
    have hlt : unit.toNat < 2 ^ 16 := unit.toNat_lt
    show unit.toUInt32.toBitVec.toInt = _
    rw [BitVec.toInt_eq_toNat_of_lt]
    · simp
    · simp
      omega
  unfold hashStep
  rw [hshift, Int32.toInt_add, Int32.toInt_sub, Int32.toInt_mul, hunit, Int.bmod_sub_bmod,
    Int.bmod_add_bmod]
  congr 1
  show h.toInt * 32 - h.toInt + _ = _
  ring

/-- From any word on, each unit multiplies what is there by 31 and is then multiplied by the units
that follow. -/
theorem toInt_foldl_hashStep (units : List UInt16) (h : Int32) :
    (units.foldl hashStep h).toInt
      = (h.toInt * 31 ^ units.length + polynomial (units.map UInt16.toNat) : Int).bmod
          (2 ^ 32) := by
  induction units generalizing h with
  | nil => simp [polynomial_nil]
  | cons unit rest ih =>
    -- The step was reduced; inside the larger sum its reduction makes no difference.
    rw [List.foldl_cons, ih, toInt_hashStep, Int.add_bmod, Int.bmod_mul_bmod, ← Int.add_bmod,
      List.map_cons, polynomial_cons, List.length_map, List.length_cons]
    congr 1
    push_cast
    ring

/-- The magnitude is the absolute value, also that of the least word. -/
theorem toNat_signedMagnitude (h : Int32) : (signedMagnitude h).toNat = h.toInt.natAbs := by
  have hlt : h.toUInt32.toNat < 2 ^ 32 := h.toUInt32.toNat_lt
  have hneg : h < 0 ↔ h.toInt < 0 := Int32.lt_iff_toInt_lt
  have hint : h.toInt = if 2 * h.toUInt32.toNat < 2 ^ 32 then (h.toUInt32.toNat : Int)
      else (h.toUInt32.toNat : Int) - (2 ^ 32 : Nat) := BitVec.toInt_eq_toNat_cond _
  unfold signedMagnitude
  by_cases hhalf : 2 * h.toUInt32.toNat < 2 ^ 32
  · rw [if_pos hhalf] at hint
    rw [if_neg (mt hneg.1 (by omega)), hint, Int.natAbs_natCast]
  · rw [if_neg hhalf] at hint
    rw [if_pos (hneg.2 (by omega)), UInt32.toNat_sub, UInt32.toNat_zero]
    omega

/-! ## The hash -/

/-- The signed residue of the polynomial whose coefficients are the UTF-16 units of a text: the
number from `-2 ^ 31` up to and without `2 ^ 31` that differs from it by a multiple of `2 ^ 32`. -/
def hashResidue (text : String) : Int :=
  (polynomial (Text.unitNumbers text) : Int).bmod (2 ^ 32)

theorem toNat_domainHash (text : String) :
    (domainHash text).toNat = (hashResidue text).natAbs := by
  have hfold := toInt_foldl_hashStep (Text.utf16Units text) 0
  rw [Text.map_toNat_utf16Units, Int32.toInt_zero, Int.zero_mul, Int.zero_add] at hfold
  unfold domainHash hashResidue
  rw [toNat_signedMagnitude, hfold]

theorem hashResidue_bounds (text : String) :
    -2 ^ 31 ≤ hashResidue text ∧ hashResidue text < 2 ^ 31 := by
  have hpos : 0 < 2 ^ 32 := by decide
  have hle := Int.le_bmod (x := (polynomial (Text.unitNumbers text) : Int)) hpos
  have hlt := Int.bmod_lt (x := (polynomial (Text.unitNumbers text) : Int)) hpos
  unfold hashResidue
  omega

theorem toNat_domainHash_le (text : String) : (domainHash text).toNat ≤ 2 ^ 31 := by
  have hbounds := hashResidue_bounds text
  rw [toNat_domainHash]
  omega

/-- The second id of a hashed pair is the successor of the first as a number, not only as a word. -/
theorem toNat_outgoing_hashed (text : String) :
    (IdPair.hashed text).outgoing.toNat = (domainHash text).toNat + 1 := by
  have hle := toNat_domainHash_le text
  show (domainHash text + 1).toNat = _
  rw [UInt32.toNat_add, UInt32.toNat_one]
  omega

/-- How far the hashes of two texts are from each other. -/
def hashDistance (a b : String) : Nat :=
  ((domainHash a).toNat - (domainHash b).toNat : Int).natAbs

theorem overlaps_hashed_iff (a b : String) :
    (IdPair.hashed a).overlaps (.hashed b) = true ↔ hashDistance a b ≤ 1 := by
  have ha := toNat_outgoing_hashed a
  have hb := toNat_outgoing_hashed b
  have hincoming (text : String) :
      (IdPair.hashed text).incoming.toNat = (domainHash text).toNat := rfl
  unfold hashDistance
  simp only [IdPair.overlaps, IdPair.toList, List.any_cons, List.any_nil, List.contains_cons,
    List.contains_nil, Bool.or_false, Bool.or_eq_true, beq_iff_eq, ← UInt32.toNat_inj, ha, hb,
    hincoming]
  omega

/-- The hash is the absolute value of the signed residue of the polynomial over the UTF-16 units. It
is at most `2 ^ 31`, and that only for the least residue; the pair of hashed ids is the hash and its
successor, and two such pairs overlap iff the hashes differ by at most one. -/
theorem domainHash_polynomial (text : String) :
    (domainHash text).toNat = (hashResidue text).natAbs
      ∧ (domainHash text).toNat ≤ 2 ^ 31
      ∧ ((domainHash text).toNat = 2 ^ 31 ↔ hashResidue text = -2 ^ 31)
      ∧ (IdPair.hashed text).incoming.toNat = (domainHash text).toNat
      ∧ (IdPair.hashed text).outgoing.toNat = (domainHash text).toNat + 1
      ∧ ∀ other, (IdPair.hashed text).overlaps (.hashed other) = true
          ↔ hashDistance text other ≤ 1 := by
  refine ⟨toNat_domainHash text, toNat_domainHash_le text, ?_, rfl, toNat_outgoing_hashed text,
    overlaps_hashed_iff text⟩
  have hbounds := hashResidue_bounds text
  rw [toNat_domainHash]
  omega

/-- The largest hash is reached. -/
example : domainHash "polygenelubricants" = 0x80000000 := by decide +kernel

end Blocklist
