import Mathlib.Algebra.Group.Nat.Defs
import Mathlib.Data.List.Forall2
import Mathlib.Logic.Relation
import Mathlib.Order.Bounds.Basic
import PluginSurface.Proofs.Resolve.Table

/-!
# Where the fields of a class lie

The fields of a class are those of the classes it extends, the furthest first,
and then its own. Each lies at the first multiple of its alignment behind the
field before it, and the class is as large as the first multiple of its largest
alignment. A class that is extended keeps the places of its fields.
-/

namespace PluginSurface

/-! ## Alignment -/

/-- The multiples of an alignment that are not below an offset. -/
def alignedFrom (offset alignment : Nat) : Set Nat :=
  {place | alignment ∣ place ∧ offset ≤ place}

theorem slot_alignment_pos (type : DataType) : 0 < type.slot.alignment := by
  cases type with
  | primitive kind =>
      exact Nat.lt_of_lt_of_le Nat.one_pos (Nat.le_max_right _ _)
  | _ => exact Nat.succ_pos 3

theorem slot_le_eight (type : DataType) :
    type.slot.size ≤ 8 ∧ type.slot.alignment ≤ 8 := by
  cases type with
  | primitive kind => cases kind <;> decide
  | _ => exact ⟨Nat.le_add_left 4 4, Nat.le_add_left 4 4⟩

/-- Two multiples that are less than the alignment apart are the same. -/
theorem isLeast_alignedFrom {offset alignment place : Nat}
    (divides : alignment ∣ place) (behind : offset ≤ place)
    (near : place < offset + alignment) :
    IsLeast (alignedFrom offset alignment) place := by
  refine ⟨⟨divides, behind⟩, ?_⟩
  intro other ⟨otherDivides, otherBehind⟩
  by_contra notBelow
  have apart : alignment ≤ place - other :=
    Nat.le_of_dvd (by omega) (Nat.dvd_sub divides otherDivides)
  omega

section

variable {alignment : Nat} (positive : 0 < alignment)

include positive

theorem le_alignUp (offset : Nat) : offset ≤ alignUp offset alignment := by
  have divided := Nat.div_add_mod' (offset + alignment - 1) alignment
  have small := Nat.mod_lt (offset + alignment - 1) positive
  unfold alignUp
  omega

theorem alignUp_lt (offset : Nat) :
    alignUp offset alignment < offset + alignment := by
  have below := Nat.div_mul_le_self (offset + alignment - 1) alignment
  unfold alignUp
  omega

theorem isLeast_alignUp (offset : Nat) :
    IsLeast (alignedFrom offset alignment) (alignUp offset alignment) :=
  isLeast_alignedFrom (Nat.dvd_mul_left _ _)
    (le_alignUp positive offset) (alignUp_lt positive offset)

/-- An offset that is no multiple lies below the multiple behind its
quotient. -/
theorem alignUp_eq_quotient (offset : Nat) :
    alignUp offset alignment =
      (offset / alignment + if offset % alignment = 0 then 0 else 1) *
        alignment := by
  have divided := Nat.div_add_mod' offset alignment
  have small := Nat.mod_lt offset positive
  apply (isLeast_alignUp positive offset).unique
  by_cases exactly : offset % alignment = 0
  · rw [if_pos exactly, Nat.add_zero]
    exact isLeast_alignedFrom (Nat.dvd_mul_left _ _) (by omega)
      (by omega)
  · rw [if_neg exactly]
    have behind : (offset / alignment + 1) * alignment =
        offset / alignment * alignment + alignment := Nat.succ_mul _ _
    exact isLeast_alignedFrom (Nat.dvd_mul_left _ _) (by omega)
      (by omega)

end

/-! ## Fields one behind another -/

/-- Fields lie behind an offset one after the other, each at a multiple of its
alignment that is less than the alignment behind the end of the field before
it. -/
inductive LieNaturally : Nat → List PlacedField → Prop where
  | nil (offset : Nat) : LieNaturally offset []
  | cons {offset : Nat} {field : PlacedField} {rest : List PlacedField}
      (aligned : field.type.slot.alignment ∣ field.offset)
      (behind : offset ≤ field.offset)
      (near : field.offset < offset + field.type.slot.alignment)
      (further : LieNaturally field.stop rest) :
      LieNaturally offset (field :: rest)

theorem lieNaturally_placeFields (offset : Nat)
    (fields : List (String × DataType)) :
    LieNaturally offset (placeFields offset fields) := by
  induction fields generalizing offset with
  | nil => exact .nil offset
  | cons field rest inductionHypothesis =>
      obtain ⟨name, type⟩ := field
      have positive := slot_alignment_pos type
      exact .cons (Nat.dvd_mul_left _ _) (le_alignUp positive offset)
        (alignUp_lt positive offset) (inductionHypothesis _)

/-- A field as it was before it was placed. -/
def PlacedField.declared (field : PlacedField) : String × DataType :=
  (field.name, field.type)

theorem map_declared_placeFields (offset : Nat)
    (fields : List (String × DataType)) :
    (placeFields offset fields).map PlacedField.declared = fields := by
  induction fields generalizing offset with
  | nil => rfl
  | cons field rest inductionHypothesis =>
      exact congrArg (field :: ·) (inductionHypothesis _)

/-- Fields in front keep their places, whatever comes behind them. -/
theorem placeFields_isPrefix (offset : Nat)
    (front behind : List (String × DataType)) :
    placeFields offset front <+: placeFields offset (front ++ behind) := by
  induction front generalizing offset with
  | nil => exact List.nil_prefix
  | cons field rest inductionHypothesis =>
      have further := inductionHypothesis
        (alignUp offset field.2.slot.alignment + field.2.slot.size)
      exact (List.prefix_cons_inj _).mpr further

/-! ## Sizes -/

namespace ClassLayout

theorem isGreatest_alignment (layout : ClassLayout) :
    IsGreatest {alignment | alignment = 1 ∨
      ∃ field ∈ layout.fields, alignment = field.type.slot.alignment}
      layout.alignment := by
  suffices ∀ (fields : List PlacedField) (least : Nat),
      IsGreatest {alignment | alignment = least ∨
          ∃ field ∈ fields, alignment = field.type.slot.alignment}
        (fields.foldl
          (fun most field => max most field.type.slot.alignment) least) from
    this layout.fields 1
  intro fields
  induction fields with
  | nil =>
      intro least
      refine ⟨.inl rfl, ?_⟩
      rintro alignment (rfl | ⟨_, none, -⟩)
      · exact Nat.le_refl _
      · cases none
  | cons first rest inductionHypothesis =>
      intro least
      obtain ⟨attained, greatest⟩ :=
        inductionHypothesis (max least first.type.slot.alignment)
      have upTo : max least first.type.slot.alignment ≤ _ :=
        greatest (.inl rfl)
      constructor
      · rcases attained with isFirst | ⟨field, member, same⟩
        · rw [Set.mem_ofPred_eq, List.foldl_cons, isFirst]
          rcases Nat.le_total least first.type.slot.alignment with less | more
          · exact .inr ⟨first, List.mem_cons_self, Nat.max_eq_right less⟩
          · exact .inl (Nat.max_eq_left more)
        · exact .inr ⟨field, List.mem_cons_of_mem _ member, same⟩
      · rintro alignment (rfl | ⟨field, member, rfl⟩)
        · exact Nat.le_trans (Nat.le_max_left _ _) upTo
        · rcases List.mem_cons.mp member with rfl | inRest
          · exact Nat.le_trans (Nat.le_max_right _ _) upTo
          · exact greatest (.inr ⟨field, inRest, rfl⟩)

theorem alignment_pos (layout : ClassLayout) : 0 < layout.alignment :=
  layout.isGreatest_alignment.2 (.inl rfl)

theorem isLeast_size (layout : ClassLayout) :
    IsLeast (alignedFrom layout.stop layout.alignment) layout.size :=
  isLeast_alignUp layout.alignment_pos layout.stop

end ClassLayout

/-! ## Words of 32 bits -/

/-- The smallest multiple of an alignment that is not below an offset, where
both are words. -/
def alignUpWord (offset alignment : UInt32) : UInt32 :=
  (offset / alignment + if offset % alignment = 0 then 0 else 1) * alignment

/-- Places fields from an offset on, where offsets are words: the offsets of the
fields, and the one behind the last of them. -/
def placeWords (offset : UInt32) : List DataType → List UInt32 × UInt32
  | [] => ([], offset)
  | type :: rest =>
      let place := alignUpWord offset (.ofNat type.slot.alignment)
      let further := placeWords (place + .ofNat type.slot.size) rest
      (place :: further.1, further.2)

theorem toNat_alignUpWord {offset alignment : UInt32}
    (positive : 0 < alignment.toNat)
    (fits : alignUp offset.toNat alignment.toNat < 2 ^ 32) :
    (alignUpWord offset alignment).toNat =
      alignUp offset.toNat alignment.toNat := by
  rw [alignUp_eq_quotient positive] at fits ⊢
  have isZero : offset % alignment = 0 ↔
      offset.toNat % alignment.toNat = 0 := by
    rw [← UInt32.toNat_inj, UInt32.toNat_mod]
    rfl
  have carry : (if offset % alignment = 0 then (0 : UInt32) else 1).toNat =
      if offset.toNat % alignment.toNat = 0 then 0 else 1 := by
    by_cases divides : offset % alignment = 0
    · rw [if_pos divides, if_pos (isZero.mp divides)]
      rfl
    · rw [if_neg divides, if_neg (mt isZero.mpr divides)]
      rfl
  unfold alignUpWord
  rw [UInt32.toNat_mul, UInt32.toNat_add, UInt32.toNat_div, carry]
  generalize (offset.toNat / alignment.toNat +
    if offset.toNat % alignment.toNat = 0 then 0 else 1) = factor at fits ⊢
  have factorFits : factor < 2 ^ 32 :=
    Nat.lt_of_le_of_lt (Nat.le_mul_of_pos_right factor positive) fits
  rw [Nat.mod_eq_of_lt factorFits, Nat.mod_eq_of_lt fits]

theorem toNat_ofNat_of_le_eight {value : Nat} (small : value ≤ 8) :
    (UInt32.ofNat value).toNat = value :=
  UInt32.toNat_ofNat_of_lt' (Nat.lt_of_le_of_lt small (by decide))

/-- Where the last of several fields stops that lie behind an offset. -/
def stopFrom (offset : Nat) (fields : List (String × DataType)) : Nat :=
  ((placeFields offset fields).getLast?.map PlacedField.stop).getD offset

theorem stopFrom_cons (offset : Nat) (name : String) (type : DataType)
    (rest : List (String × DataType)) :
    stopFrom offset ((name, type) :: rest) =
      stopFrom (alignUp offset type.slot.alignment + type.slot.size) rest := by
  unfold stopFrom
  rw [placeFields]
  dsimp only [PlacedField.stop]
  generalize placeFields _ rest = placed
  cases placed with
  | nil => rfl
  | cons next further => rw [List.getLast?_cons_cons, List.getLast?_cons]; rfl

theorem le_stopFrom (offset : Nat) (fields : List (String × DataType)) :
    offset ≤ stopFrom offset fields := by
  induction fields generalizing offset with
  | nil => exact Nat.le_refl offset
  | cons field rest inductionHypothesis =>
      obtain ⟨name, type⟩ := field
      have aligned := le_alignUp (slot_alignment_pos type) offset
      have further := inductionHypothesis
        (alignUp offset type.slot.alignment + type.slot.size)
      rw [stopFrom_cons]
      omega

/-- Offsets are the same in words as long as the last field stops at a word. -/
theorem placeWords_eq {offset : UInt32} {fields : List (String × DataType)}
    (fits : stopFrom offset.toNat fields < 2 ^ 32) :
    (placeWords offset (fields.map Prod.snd)).1.map UInt32.toNat =
        (placeFields offset.toNat fields).map PlacedField.offset ∧
      (placeWords offset (fields.map Prod.snd)).2.toNat =
        stopFrom offset.toNat fields := by
  induction fields generalizing offset with
  | nil => exact ⟨rfl, rfl⟩
  | cons field rest inductionHypothesis =>
      obtain ⟨name, type⟩ := field
      rw [stopFrom_cons] at fits ⊢
      have ⟨sizeSmall, alignmentSmall⟩ := slot_le_eight type
      have alignmentWord := toNat_ofNat_of_le_eight alignmentSmall
      have sizeWord := toNat_ofNat_of_le_eight sizeSmall
      have further := le_stopFrom
        (alignUp offset.toNat type.slot.alignment + type.slot.size) rest
      have place : (alignUpWord offset (.ofNat type.slot.alignment)).toNat =
          alignUp offset.toNat type.slot.alignment := by
        rw [toNat_alignUpWord, alignmentWord] <;> rw [alignmentWord]
        · exact slot_alignment_pos type
        · omega
      have stop : (alignUpWord offset (.ofNat type.slot.alignment) +
            .ofNat type.slot.size).toNat =
          alignUp offset.toNat type.slot.alignment + type.slot.size := by
        rw [UInt32.toNat_add, place, sizeWord, Nat.mod_eq_of_lt (by omega)]
      rw [← stop] at fits ⊢
      have ⟨offsets, last⟩ := inductionHypothesis fits
      refine ⟨?_, last⟩
      simp only [List.map_cons, placeWords, placeFields, place, offsets, stop,
        PlacedField.stop]

/-- A layout has the offsets and the size that it has in words, if its size is
one. -/
theorem words_of_size_lt {layout : ClassLayout}
    {fields : List (String × DataType)}
    (placed : layout.fields = placeFields 0 fields)
    (fits : layout.size < 2 ^ 32) :
    (placeWords 0 layout.types).1.map UInt32.toNat =
        layout.fields.map PlacedField.offset ∧
      (alignUpWord (placeWords 0 layout.types).2
        (.ofNat layout.alignment)).toNat = layout.size := by
  have alignmentSmall : layout.alignment ≤ 8 := by
    rcases layout.isGreatest_alignment.1 with isOne | ⟨field, -, same⟩
    · omega
    · have ⟨_, small⟩ := slot_le_eight field.type
      omega
  have alignmentWord := toNat_ofNat_of_le_eight alignmentSmall
  have stops : layout.stop = stopFrom 0 fields := by
    rw [ClassLayout.stop, placed, stopFrom]
  have notAbove : layout.stop ≤ layout.size :=
    le_alignUp layout.alignment_pos layout.stop
  have types : layout.types = fields.map Prod.snd := by
    rw [ClassLayout.types, placed, Declarations.map_type_placeFields]
  have stopFits : stopFrom (0 : UInt32).toNat fields < 2 ^ 32 :=
    Nat.lt_of_le_of_lt (stops ▸ notAbove) fits
  have ⟨offsets, last⟩ := placeWords_eq stopFits
  have lastIsStop : (placeWords 0 (fields.map Prod.snd)).2.toNat =
      layout.stop := last.trans stops.symm
  rw [types, placed]
  refine ⟨offsets, ?_⟩
  rw [toNat_alignUpWord, alignmentWord, lastIsStop, ClassLayout.size]
  · rw [alignmentWord]
    exact layout.alignment_pos
  · rw [alignmentWord, lastIsStop]
    exact fits

end PluginSurface
