import Mathlib.Algebra.Group.Nat.Defs
import PluginSurface.Eval.Operators
import PluginSurface.Optional.Mask

/-!
# The bits of a mask

The host sets bit `i` of a mask for an argument `i` that it supplies; the
program shifts the mask, which it reads as a signed number, and cuts off the
lowest bit. Both mean the same bit. The host can also put a mask together from
single bits and shift them out of it again.
-/

namespace PluginSurface

namespace Mask

theorem testBit_bits (supplied : List Bool) (index : Nat) :
    (bits supplied).testBit index = supplied.getD index false := by
  induction supplied generalizing index with
  | nil =>
      simp [bits]
  | cons flag rest inductionHypothesis =>
      cases index with
      | zero =>
          cases flag <;> simp [bits, Nat.testBit_zero]
      | succ index =>
          have half : bits (flag :: rest) / 2 = bits rest := by
            cases flag <;>
              simp only [bits, if_true, Bool.false_eq_true, if_false] <;> omega
          rw [Nat.testBit_succ, half, inductionHypothesis]
          simp

theorem bits_lt (supplied : List Bool) :
    bits supplied < 2 ^ supplied.length := by
  induction supplied with
  | nil =>
      simp [bits]
  | cons flag rest inductionHypothesis =>
      rw [List.length_cons, Nat.pow_succ]
      cases flag <;>
        simp only [bits, if_true, Bool.false_eq_true, if_false] <;> omega

/-- A mask of at most 64 flags tells each of them. -/
theorem testBit_ofSupplied {supplied : List Bool} {mask : UInt64}
    (made : ofSupplied supplied = .ok mask) (index : Nat) :
    mask.toNat.testBit index = supplied.getD index false := by
  unfold ofSupplied at made
  split at made
  · cases made
  · rename_i fits
    cases made
    have small : bits supplied < 2 ^ 64 :=
      Nat.lt_of_lt_of_le (bits_lt supplied)
        (Nat.pow_le_pow_right (by decide) (Nat.le_of_not_lt fits))
    rw [UInt64.toNat_ofNat_of_lt' small, testBit_bits]

/-! ## Bit by bit -/

theorem toNat_distance {index : Nat} (small : index < 64) :
    (UInt64.ofNat index).toNat % 64 = index := by
  rw [UInt64.toNat_ofNat_of_lt' (Nat.lt_trans small (by decide)),
    Nat.mod_eq_of_lt small]

/-- The host shifts the bit of an argument out of the mask. -/
theorem isSupplied_eq_shiftRight (mask : UInt64) {index : Nat}
    (small : index < 64) :
    isSupplied mask index =
      .ok ((mask >>> UInt64.ofNat index) &&& 1 == 1) := by
  have inside : ¬ width ≤ index := Nat.not_le.mpr small
  have lowest : ((mask >>> UInt64.ofNat index) &&& 1).toNat =
      mask.toNat / 2 ^ index % 2 := by
    rw [UInt64.toNat_and, UInt64.toNat_shiftRight, toNat_distance small,
      Nat.shiftRight_eq_div_pow]
    exact Nat.and_one_is_mod _
  unfold isSupplied
  rw [if_neg inside, Nat.testBit_eq_decide_div_mod_eq, ← lowest]
  congr 1
  rw [Bool.eq_iff_iff, decide_eq_true_iff, beq_iff_eq, ← UInt64.toNat_inj]
  rfl

theorem testBit_one_shiftLeft {index : Nat} (small : index < 64) (other : Nat) :
    ((1 : UInt64) <<< UInt64.ofNat index).toNat.testBit other =
      decide (index = other) := by
  have inWord : 2 ^ index < 2 ^ 64 := Nat.pow_lt_pow_right (by decide) small
  have power : ((1 : UInt64) <<< UInt64.ofNat index).toNat = 2 ^ index := by
    rw [UInt64.toNat_shiftLeft, toNat_distance small]
    change 1 <<< index % 2 ^ 64 = _
    rw [Nat.one_shiftLeft, Nat.mod_eq_of_lt inWord]
  rw [power, Nat.testBit_two_pow]

/-- Sets the bit at the position of a flag. -/
def setBit (mask : UInt64) (flag : Bool × Nat) : UInt64 :=
  mask ||| (1 <<< UInt64.ofNat flag.2)

/-- The flags from a position on, the first one apart. -/
theorem getD_from_cons (flag : Bool) (rest : List Bool) (first index : Nat) :
    (decide (first ≤ index) && (flag :: rest).getD (index - first) false) =
      (decide (first = index) && flag ||
        decide (first + 1 ≤ index) &&
          rest.getD (index - (first + 1)) false) := by
  rcases Nat.lt_trichotomy index first with before | rfl | behind
  · have notFirst : ¬ first ≤ index := Nat.not_le.mpr before
    have notBehind : ¬ first + 1 ≤ index := by omega
    simp [notFirst, notBehind, Nat.ne_of_gt before]
  · have notBehind : ¬ index + 1 ≤ index := by omega
    simp [notBehind]
  · have notBefore : first ≤ index := Nat.le_of_lt behind
    have next : index - first = index - (first + 1) + 1 := by omega
    rw [next, List.getD_cons_succ]
    simp [notBefore, Nat.succ_le_of_lt behind, Nat.ne_of_lt behind]

theorem testBit_foldl_setBit {supplied : List Bool} {first : Nat}
    (fits : first + supplied.length ≤ 64) (mask : UInt64) (index : Nat) :
    (((supplied.zipIdx first).filter Prod.fst).foldl setBit
        mask).toNat.testBit index =
      (mask.toNat.testBit index ||
        decide (first ≤ index) && supplied.getD (index - first) false) := by
  induction supplied generalizing first mask with
  | nil => simp
  | cons flag rest inductionHypothesis =>
      rw [List.length_cons] at fits
      have fitsRest : first + 1 + rest.length ≤ 64 := by omega
      have small : first < 64 := by omega
      have later := inductionHypothesis fitsRest
      rw [List.zipIdx_cons, getD_from_cons]
      cases flag with
      | false =>
          rw [List.filter_cons_of_neg (by simp), later]
          simp
      | true =>
          rw [List.filter_cons_of_pos rfl, List.foldl_cons, later]
          simp only [setBit, UInt64.toNat_or, Nat.testBit_or,
            testBit_one_shiftLeft small]
          simp [Bool.or_assoc]

/-- The host sets one bit after the other. -/
theorem ofSupplied_eq_foldl {supplied : List Bool}
    (fits : supplied.length ≤ 64) :
    ofSupplied supplied =
      .ok ((supplied.zipIdx.filter Prod.fst).foldl setBit 0) := by
  have made : ofSupplied supplied = .ok (UInt64.ofNat (bits supplied)) :=
    if_neg (Nat.not_lt.mpr fits)
  rw [made]
  congr 1
  rw [← UInt64.toNat_inj]
  refine Nat.eq_of_testBit_eq fun index => ?_
  rw [testBit_ofSupplied made, testBit_foldl_setBit (by omega)]
  simp

end Mask

namespace Value

/-- The integer holds the bits of the mask from a position on. -/
def HoldsFrom (mask : UInt64) (index : Nat) (value : Int64) : Prop :=
  value.toBitVec = mask.toBitVec.sshiftRight index

theorem holdsFrom_zero (mask : UInt64) : HoldsFrom mask 0 mask.toInt64 := by
  unfold HoldsFrom
  rw [BitVec.sshiftRight_zero]
  rfl

theorem distance_of_shift : ∀ index : Fin 64,
    ((UInt64.ofNat index).toInt64.toUInt64 &&& 63).toInt64.toBitVec.smod 64 =
      BitVec.ofNat 64 index := by
  decide

theorem holdsFrom_shiftRight (mask : UInt64) {index : Nat}
    (small : index < 64) :
    HoldsFrom mask index
      (bitwise .shiftRight mask.toInt64 (UInt64.ofNat index).toInt64) := by
  unfold HoldsFrom
  have distance := distance_of_shift ⟨index, small⟩
  simp only [bitwise, Int64.toBitVec_shiftRight]
  rw [distance, BitVec.sshiftRight'_ofNat_eq_sshiftRight,
    Nat.mod_eq_of_lt (Nat.lt_trans small (by decide))]
  rfl

theorem and_one_eq_zero_iff (bits : BitVec 64) :
    bits &&& 1#64 = 0#64 ↔ bits.getLsbD 0 = false := by
  rw [BitVec.and_one_eq_setWidth_ofBool_getLsbD]
  cases bits.getLsbD 0 <;> decide

/-- The lowest of the bits from a position on is zero if the mask does not mark
that position. -/
theorem lowest_bit_eq_zero {mask : UInt64} {index : Nat} {value : Int64}
    (holds : HoldsFrom mask index value) (small : index < 64) :
    (bitwise .bitAnd value 1 == 0) = !mask.toNat.testBit index := by
  have cut : (bitwise .bitAnd value 1).toBitVec = value.toBitVec &&& 1#64 := rfl
  have bit : value.toBitVec.getLsbD 0 = mask.toNat.testBit index := by
    rw [holds, BitVec.getLsbD_sshiftRight]
    simp only [small, Nat.add_zero, if_true]
    rfl
  have zero : bitwise .bitAnd value 1 = 0 ↔
      mask.toNat.testBit index = false := by
    rw [← bit, ← and_one_eq_zero_iff, ← cut, ← Int64.toBitVec_inj]
    rfl
  rw [Bool.eq_iff_iff]
  simp [zero]

end Value

end PluginSurface
