import PluginSurface.Proofs.Eval.Costs
import PluginSurface.Proofs.Optional.Bits
import PluginSurface.Proofs.Optional.Guards

/-!
# Host and program read a mask alike

The host builds a mask from flags and reads it bit by bit; a masked function
reads it by the expressions that its guards test. The flags come back on either
side, also from the bit that is the sign of the number the program sees.
-/

namespace PluginSurface

/-- More than 64 flags do not fit into a mask, and all others do. -/
theorem Mask.ofSupplied_fails_iff (supplied : List Bool) :
    (∃ error, ofSupplied supplied = .error error) ↔ 64 < supplied.length := by
  unfold ofSupplied
  by_cases tooMany : width < supplied.length
  · simp only [tooMany, if_true, Except.error.injEq, exists_eq', true_iff]
    exact tooMany
  · simp only [tooMany, if_false, reduceCtorEq, exists_false, false_iff]
    exact tooMany

/-- The flags that a mask was made of are read from it again. -/
theorem Mask.isSupplied_ofSupplied {supplied : List Bool}
    (fits : supplied.length ≤ 64) :
    ∃ mask, ofSupplied supplied = .ok mask ∧ ∀ index < 64,
      isSupplied mask index = .ok (supplied.getD index false) := by
  have made : ofSupplied supplied = .ok (UInt64.ofNat (bits supplied)) :=
    if_neg (Nat.not_lt.mpr fits)
  refine ⟨_, made, fun index small => ?_⟩
  have inside : ¬ width ≤ index := Nat.not_le.mpr small
  unfold isSupplied
  rw [if_neg inside, testBit_ofSupplied made]

/-- The mask parameter has the bits of a mask. -/
def HoldsMask (mask : UInt64) (environment : Environment) : Prop :=
  environment.find? maskParameter = some (.int mask.toInt64)

namespace Masking

variable {program : Program} {condition : Environment → Prop} {id : ExprId}
  {index : Nat}

/-- What the mask from a position on costs. -/
def maskFromCost (index : Nat) : Nat :=
  if index = 0 then 1 else 4

theorem computes_mask (mask : UInt64)
    (stored : program.arena.StoresExpr id (.identifier maskParameter)) :
    program.Computes (HoldsMask mask) 1 id (.int mask.toInt64) :=
  Program.computes_identifier stored.2 fun _ holds => holds

theorem computes_integer {number : Nat}
    (stored : program.arena.StoresExpr id (integerNode number)) :
    program.Computes condition 1 id
      (.int (UInt64.ofNat number).toInt64) :=
  Program.computes_literal stored.2 fun _ => rfl

theorem computes_maskFrom (mask : UInt64)
    (from_ : MaskFrom program.arena index id) (small : index < 64) :
    ∃ bits, Value.HoldsFrom mask index bits ∧
      program.Computes (HoldsMask mask) (maskFromCost index) id
        (.int bits) := by
  cases from_ with
  | whole stored =>
      exact ⟨_, Value.holdsFrom_zero mask, computes_mask mask stored⟩
  | shifted later paren operation operand count =>
      have shifts := (computes_mask mask operand).binary
        (computes_integer count) operation.2 (by decide) rfl
      refine ⟨_, Value.holdsFrom_shiftRight mask small, ?_⟩
      unfold maskFromCost
      rw [if_neg later]
      exact shifts.paren paren.2

theorem computes_unsuppliedTest (mask : UInt64)
    (test : UnsuppliedTest program.arena index id) (small : index < 64) :
    program.Computes (HoldsMask mask) (maskFromCost index + 5) id
      (.bool (!mask.toNat.testBit index)) := by
  obtain ⟨from_, one, cut, paren, zero, equal⟩ := test
  obtain ⟨bits, holds, computes⟩ := computes_maskFrom mask from_ small
  have cuts := computes.binary (computes_integer one) cut.2 (by decide) rfl
  have zeroComputes : program.Computes (HoldsMask mask) 1 _ (.int 0) :=
    computes_integer zero
  have result : Value.binary .equal
      (.int (Value.bitwise .bitAnd bits 1)) (.int 0) =
        .ok (.bool (!mask.toNat.testBit index)) := by
    rw [← Value.lowest_bit_eq_zero holds small]
    rfl
  have tests := (cuts.paren paren.2).binary zeroComputes equal.2 (by decide)
    result
  have total : 1 + (1 + (1 + (maskFromCost index + 1)) + 1) =
      maskFromCost index + 5 := by
    omega
  rw [← total]
  exact tests

/-- Up to 64 flags and no more fit into a mask, and the host reads them from it
again. The test that a guard makes of a bit tells whether the host reads false
there, at the cost of a few units of gas and without any other effect. -/
theorem tests_agree_with_flags :
    (∀ supplied, (∃ error, Mask.ofSupplied supplied = .error error) ↔
      64 < supplied.length) ∧
    (∀ supplied, supplied.length ≤ 64 →
      ∃ mask, Mask.ofSupplied supplied = .ok mask ∧ ∀ index < 64,
        Mask.isSupplied mask index = .ok (supplied.getD index false)) ∧
    ∀ (mask : UInt64) (index : Nat), index < 63 →
      ∀ (span : Span) (arena : Arena) (program : Program),
        ((unsuppliedTest span index).run arena).2.Extends program.arena →
          ∀ machine : Machine,
            machine.environment.find? "__SUPPLIED_PARAMS" =
                some (.int mask.toInt64) →
              machine.gas + (if index = 0 then 6 else 9) ≤ machine.gasLimit →
                ∃ unsupplied,
                  machine.eval program
                      ((unsuppliedTest span index).run arena).1 =
                    (.ok (.bool unsupplied),
                      { machine with
                        gas := machine.gas + if index = 0 then 6 else 9 }) ∧
                  (unsupplied = true ↔
                    Mask.isSupplied mask index = .ok false) := by
  refine ⟨Mask.ofSupplied_fails_iff, fun _ => Mask.isSupplied_ofSupplied, ?_⟩
  intro mask index small span arena program extended machine bound enough
  have builds : Builds .nothing (unsuppliedTest span index) fun id =>
      Lasting.both (lastingTest index id) .nothing :=
    builds_unsuppliedTest index
  obtain ⟨-, test, -⟩ := builds arena trivial
  have cost : (if index = 0 then 6 else 9) = maskFromCost index + 5 := by
    unfold maskFromCost
    split <;> rfl
  have inWidth : ¬ Mask.width ≤ index :=
    Nat.not_le.mpr (Nat.lt_succ_of_lt small)
  have computes := computes_unsuppliedTest mask (test.lasts extended)
    (Nat.lt_succ_of_lt small)
  rw [cost] at enough ⊢
  refine ⟨_, computes.eval bound enough, ?_⟩
  unfold Mask.isSupplied
  rw [if_neg inWidth]
  simp only [Bool.not_eq_true', Except.ok.injEq]

/-- The flag that decides the sign of the number that the program sees. -/
theorem tests_agree_with_last_flag :
    let flags := List.replicate 63 false ++ [true]
    let mask : UInt64 := 0x8000000000000000
    let built := (unsuppliedTest default 62).run default
    let program : Program := { (default : Program) with arena := built.2 }
    let machine : Machine :=
      ⟨⟨[("__SUPPLIED_PARAMS", .int mask.toInt64)], []⟩, 0, 9, 0⟩
    (∃ made, Mask.ofSupplied flags = .ok made ∧ ∀ index < 64,
      Mask.isSupplied made index = .ok (flags.getD index false)) ∧
    machine.eval program built.1 =
      (.ok (.bool true), { machine with gas := 9 }) := by
  obtain ⟨-, reads, tests⟩ := tests_agree_with_flags
  refine ⟨reads _ (by decide), ?_⟩
  obtain ⟨unsupplied, ran, agrees⟩ := tests 0x8000000000000000 62 (by decide)
    default default { (default : Program) with
      arena := ((unsuppliedTest default 62).run default).2 } (.refl _)
    ⟨⟨[("__SUPPLIED_PARAMS", .int (0x8000000000000000 : UInt64).toInt64)], []⟩,
      0, 9, 0⟩ rfl (by decide)
  have clear : unsupplied = true := agrees.mpr (by decide)
  subst clear
  exact ran

end Masking

end PluginSurface
