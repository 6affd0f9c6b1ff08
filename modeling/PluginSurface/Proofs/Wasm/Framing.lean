import Mathlib.Algebra.Group.Nat.Defs
import Mathlib.Data.Option.Basic
import PluginSurface.Proofs.Source.Utf8
import PluginSurface.Wasm.Embedding

/-!
# Sections are read as they were written

Reading undoes writing for whole numbers, names, custom sections, sections and
modules. Numbers and names have greatest sizes, so each statement says either
that the size is kept or that reading fails; a module that is read to its end
has the sections that were written.
-/

namespace PluginSurface

/-! ## Numbers -/

namespace Leb128

theorem unsigned?_encode_of_short {limit value : Nat} {rest : Bytes}
    (short : limit < (encode value).length) :
    unsigned? limit (encode value ++ rest) = none := by
  induction value using encode.induct generalizing limit with
  | case1 value small =>
      rw [encode, if_pos small] at short
      have zero : limit = 0 := by simpa using short
      rw [zero, unsigned?]
  | case2 value large inductionHypothesis =>
      rw [encode, if_neg large] at short ⊢
      cases limit with
      | zero => rw [unsigned?]
      | succ limit =>
          have later : unsigned? limit (encode (value / 128) ++ rest) = none :=
            inductionHypothesis (by simpa using short)
          have same : (value % 128 + 128) % 256 = value % 128 + 128 :=
            Nat.mod_eq_of_lt (by omega)
          have more : ¬ value % 128 + 128 < 128 := by omega
          simp [unsigned?, same, more, later]

theorem length_encode_le {value : Nat} (size : Nat)
    (small : value < 128 ^ (size + 1)) :
    (encode value).length ≤ size + 1 := by
  induction value using encode.induct generalizing size with
  | case1 value single =>
      rw [encode, if_pos single]
      simp
  | case2 value large inductionHypothesis =>
      rw [encode, if_neg large]
      cases size with
      | zero => omega
      | succ size =>
          have fewer : value / 128 < 128 ^ (size + 1) :=
            Nat.div_lt_of_lt_mul (by rwa [Nat.mul_comm, ← Nat.pow_succ])
          simpa using inductionHypothesis size fewer

theorem word?_encode_of_lt {value : Nat} (small : value < wordLimit)
    (rest : Bytes) : word? (encode value ++ rest) = some (value, rest) := by
  have short : (encode value).length ≤ 5 :=
    length_encode_le 4 (by unfold wordLimit at small; omega)
  rw [word?, unsigned?_encode value 5 rest short]
  simp [Option.filter, small]

theorem word?_encode_of_le {value : Nat} (large : wordLimit ≤ value)
    (rest : Bytes) : word? (encode value ++ rest) = none := by
  by_cases short : (encode value).length ≤ 5
  · rw [word?, unsigned?_encode value 5 rest short]
    simp [Option.filter, large]
  · rw [word?, unsigned?_encode_of_short (by omega), Option.filter_none]

end Leb128

namespace Wasm

open Leb128 (Bytes word?_encode_of_lt word?_encode_of_le)

/-! ## Custom sections -/

theorem take?_append (bytes rest : Bytes) :
    take? bytes.length (bytes ++ rest) = some (bytes, rest) := by
  simp [take?]

/-- A name is read as it was written, unless it is too long. -/
theorem name?_written {text : String} {rest : Bytes}
    (short : (name? (Leb128.encode text.toUTF8.toList.length ++
      (text.toUTF8.toList ++ rest))).isSome = true) :
    name? (Leb128.encode text.toUTF8.toList.length ++
      (text.toUTF8.toList ++ rest)) = some (text, rest) := by
  have readable := Utf8.fromUTF8?_toUTF8 text
  generalize text.toUTF8.toList = bytes at readable short ⊢
  by_cases small : bytes.length < Leb128.wordLimit
  · by_cases fits : bytes.length ≤ nameLimit
    · simp [name?, guard, word?_encode_of_lt small, fits, take?_append,
        readable]
    · simp [name?, guard, word?_encode_of_lt small, fits,
        failure] at short
  · simp [name?, word?_encode_of_le (Nat.le_of_not_lt small)] at short

/-- The section of a custom section holds it, unless its name is too long. -/
theorem Custom.ofBody?_toSection {custom : Custom}
    (framed : custom.toSection.isFramed = true) :
    Custom.ofBody? custom.toSection.body = some custom := by
  have held : (Custom.ofBody? custom.toSection.body).isSome = true := by
    simpa [Section.isFramed, Custom.toSection] using framed
  simp only [Custom.ofBody?, Custom.toSection, List.append_assoc,
    Option.bind_eq_bind] at held ⊢
  rw [name?_written (Option.isSome_of_isSome_bind held), Option.bind_some]

theorem Custom.isNamed_toSection {custom : Custom}
    (framed : custom.toSection.isFramed = true) :
    custom.toSection.isNamed custom.name = true := by
  have held := Custom.ofBody?_toSection framed
  have custom_id : custom.toSection.id = Section.customId := rfl
  simp [Section.isNamed, Section.custom?, custom_id, held]

/-! ## Sections -/

theorem Section.read?_encode_of_lt {sec : Section} {rest : Bytes}
    (known : sec.id < 0x80) (small : sec.body.length < Leb128.wordLimit) :
    Section.read? (sec.encode ++ rest) = some (sec, rest) := by
  simp [Section.encode, Section.read?, guard, known,
    word?_encode_of_lt small, take?_append]

theorem Section.eq_of_read?_encode {sec other : Section} {rest left : Bytes}
    (found : Section.read? (sec.encode ++ rest) = some (other, left)) :
    other = sec ∧ left = rest := by
  by_cases known : sec.id < 0x80
  · by_cases small : sec.body.length < Leb128.wordLimit
    · rw [Section.read?_encode_of_lt known small] at found
      cases found
      exact ⟨rfl, rfl⟩
    · simp [Section.encode, Section.read?, guard, known,
        word?_encode_of_le (Nat.le_of_not_lt small)] at found
  · simp [Section.encode, Section.read?, guard, known] at found

/-! ## Modules -/

theorem Sections.split_encode {bound : Nat} {sections : List Section}
    (complete : (Sections.split true bound
      (sections.flatMap Section.encode)).isComplete = true) :
    Sections.split true bound (sections.flatMap Section.encode) =
      ⟨sections, true⟩ := by
  induction sections generalizing bound with
  | nil => cases bound <;> simp [Sections.split]
  | cons sec rest inductionHypothesis =>
      cases bound with
      | zero => simp [Sections.split, Section.encode] at complete
      | succ bound =>
          rw [List.flatMap_cons] at complete ⊢
          have nonempty : sec.encode ++ rest.flatMap Section.encode ≠ [] := by
            simp [Section.encode]
          rw [Sections.split] at complete ⊢
          · cases found : Section.read?
                (sec.encode ++ rest.flatMap Section.encode) with
            | none => simp [found] at complete
            | some pair =>
                obtain ⟨other, left⟩ := pair
                obtain ⟨rfl, rfl⟩ := Section.eq_of_read?_encode found
                by_cases framed : other.isFramed = true
                · simp only [found, framed, Bool.true_or, if_true] at complete ⊢
                  rw [inductionHypothesis complete]
                · simp [found, framed] at complete
          all_goals exact nonempty

theorem Sections.isFramed_of_mem {bound : Nat} {input : Bytes} {sec : Section}
    (member : sec ∈ (Sections.split true bound input).items) :
    sec.isFramed = true := by
  induction bound generalizing input with
  | zero => cases input <;> simp [Sections.split] at member
  | succ bound inductionHypothesis =>
      cases input with
      | nil => simp [Sections.split] at member
      | cons byte input =>
          rw [Sections.split] at member
          · split at member
            · simp at member
            · split at member
              · rename_i framed
                rcases List.mem_cons.mp member with rfl | later
                · simpa using framed
                · exact inductionHypothesis later
              · simp at member
          all_goals simp

theorem read?_encode_eq (sections : List Section) :
    read? (encode sections) =
      some (.module 1, Sections.split true
        (sections.flatMap Section.encode).length
        (sections.flatMap Section.encode)) := by
  simp [read?, encode, magic, Header.read?]

/-- What is valid holds the sections that were written. -/
theorem read?_encode_of_isValidModule {sections : List Section}
    (valid : isValidModule (encode sections) = true) :
    read? (encode sections) = some (.module 1, ⟨sections, true⟩) := by
  rw [isValidModule, read?_encode_eq] at valid
  obtain ⟨complete, -⟩ := Bool.and_eq_true_iff.mp valid
  rw [read?_encode_eq, Sections.split_encode complete]

theorem isFramed_of_read? {input : Bytes} {version : Nat} {sections : Sections}
    (found : read? input = some (.module version, sections)) {sec : Section}
    (member : sec ∈ sections.items) : sec.isFramed = true := by
  simp only [read?, Option.bind_eq_bind, Option.bind_eq_some_iff,
    Option.some.injEq, Prod.mk.injEq] at found
  obtain ⟨⟨header, rest⟩, -, rfl, rfl⟩ := found
  exact Sections.isFramed_of_mem member

end Wasm

end PluginSurface
