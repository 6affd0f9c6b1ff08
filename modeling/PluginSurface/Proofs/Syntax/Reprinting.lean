import PluginSurface.Proofs.Grammar.ProgramTexts
import PluginSurface.Proofs.Optional.MaskedTrees

/-!
# Printed programs are read again

The text of a parsed program is read as that program if the program is
printable, and so is the text of what masking makes of it. Parentheses appear
around unary operands of unary operators and nothing else changes, so the text
stays the same from then on.
-/

namespace PluginSurface

/-! ## Printable programs -/

/-- The text of a program is read as the program, with parentheses around unary
operands of unary operators, and what is read has the same text. -/
def Program.ReadsBack (program : Program) (name : String) (kind : SourceKind) :
    Prop :=
  ∃ again, SourceText.parse ⟨name, program.text⟩ kind = .ok again ∧
    again.tree = program.tree.guarded ∧ again.text = program.text

theorem ProgramTree.Prints.readsBack {program : Program} {name : String}
    (prints : program.tree.Prints) (path : program.path = modulePath name) :
    program.ReadsBack name program.kind := by
  obtain ⟨again, parses, tree⟩ :=
    SourceText.parse_text prints.grammatical prints.printable path.symm
  refine ⟨again, parses, tree, ?_⟩
  rw [Program.text, tree, ProgramTree.text_guarded, Program.text]

theorem SourceText.frame_of_parse {source : SourceText} {kind : SourceKind}
    {program : Program} (parses : source.parse kind = .ok program) :
    program.path = modulePath source.name ∧ program.kind = kind := by
  unfold SourceText.parse Grammar.parse at parses
  dsimp only at parses
  split at parses
  · cases parses
  · split at parses
    · cases parses
      exact ⟨rfl, rfl⟩
    · cases parses

/-- A text of some kind holds a program that is printable. -/
structure HoldsPrintable (source : SourceText × SourceKind) (program : Program) :
    Prop where
  parses : source.1.parse source.2 = .ok program
  printable : program.tree.isPrintable = true

namespace HoldsPrintable

variable {source : SourceText × SourceKind} {program target : Program}

theorem prints (holds : HoldsPrintable source program) :
    program.tree.Prints :=
  ⟨SourceText.parse_grammatical holds.parses, holds.printable⟩

theorem wellFormed (holds : HoldsPrintable source program) :
    program.WellFormed :=
  SourceText.wellFormed_of_parse holds.parses

theorem readsBack (holds : HoldsPrintable source program) :
    program.ReadsBack source.1.name source.2 := by
  obtain ⟨path, kind⟩ := SourceText.frame_of_parse holds.parses
  rw [← kind]
  exact holds.prints.readsBack path

theorem readsBack_masked (holds : HoldsPrintable source program)
    {context : MaskingContext}
    (masks : Masking.MaskedModule context program target)
    (wellFormed : target.WellFormed) :
    target.ReadsBack source.1.name source.2 := by
  obtain ⟨path, kind⟩ := SourceText.frame_of_parse holds.parses
  obtain ⟨samePath, sameKind⟩ := masks.frame
  have prints := masks.prints holds.wellFormed.closed wellFormed.closed
    holds.prints
  rw [← kind, ← sameKind]
  exact prints.readsBack (samePath.trans path)

end HoldsPrintable

/-- Printing and parsing agree on printable programs. The text of each is read
without faults as that program, and so is the text of each program that masking
makes of them. -/
theorem parse_text_of_printable {sources : List (SourceText × SourceKind)}
    {programs : List Program}
    (holds : List.Forall₂ HoldsPrintable sources programs) :
    List.Forall₂
        (fun source program => program.ReadsBack source.1.name source.2)
        sources programs ∧
      ∀ (before : MaskingContext) (masked : List Program)
        (context : MaskingContext),
        before.maskAnew programs = (.ok masked, context) →
          List.Forall₂
            (fun source program => program.ReadsBack source.1.name source.2)
            sources masked := by
  refine ⟨holds.imp fun _ _ => HoldsPrintable.readsBack, ?_⟩
  intro before masked context ran
  have masks : Masking.MasksPrograms (Masking.requiring programs) programs masked
      context := Masking.masksPrograms_of_maskSources ran
  have wellFormed := masks.wellFormed fun program member => by
    obtain ⟨_, _, held⟩ := exists_of_mem_right holds member
    exact held.wellFormed
  have modules := ((List.forall₂_and_left masked programs).mpr
    ⟨wellFormed, masks.modules.flip⟩).flip
  exact forall₂_through holds modules fun _ _ _ held pair =>
    held.readsBack_masked pair.2 pair.1

namespace Sample

/-- A function with two signs in a default. -/
def nestedSigns : SourceText :=
  ⟨"assembly/index.ts",
    "export function f(a: i32, b: i32 = - -1): i32 \x7b return a + b; \x7d"⟩

/-- The text of a source, whether it is printable and its text when it is
masked. -/
def printedTexts (source : SourceText) : Option (String × Bool × String) :=
  match source.parse .entry with
  | .ok program =>
      match (MaskingContext.empty.maskAnew [program]).1 with
      | .ok [masked] =>
          some (program.text, program.tree.isPrintable, masked.text)
      | _ => none
  | _ => none

end Sample

/-- Parentheses keep the two signs apart, also in the guard of the default. -/
theorem parse_text_of_nestedSigns :
    ∃ program masked, Sample.nestedSigns.parse .entry = .ok program ∧
      (MaskingContext.empty.maskAnew [program]).1 = .ok [masked] ∧
      program.text =
        "export function f(a: i32, b: i32 = -(-1)): i32 \x7b\n" ++
          "  return a + b;\n\x7d\n" ∧
      masked.text =
        "export function f(a: i32, b: i32, __SUPPLIED_PARAMS: u64): " ++
          "i32 \x7b\n" ++
          "  if (((__SUPPLIED_PARAMS >> 1) & 1) == 0) b = -(-1);\n" ++
          "  return a + b;\n\x7d\n" ∧
      program.ReadsBack "assembly/index.ts" .entry ∧
      masked.ReadsBack "assembly/index.ts" .entry := by
  have texts : Sample.printedTexts Sample.nestedSigns = some
      ("export function f(a: i32, b: i32 = -(-1)): i32 \x7b\n" ++
          "  return a + b;\n\x7d\n", true,
        "export function f(a: i32, b: i32, __SUPPLIED_PARAMS: u64): " ++
          "i32 \x7b\n" ++
          "  if (((__SUPPLIED_PARAMS >> 1) & 1) == 0) b = -(-1);\n" ++
          "  return a + b;\n\x7d\n") := by
    decide +kernel
  unfold Sample.printedTexts at texts
  split at texts
  · rename_i program parses
    split at texts
    · rename_i masked succeeds
      obtain ⟨text, rest⟩ := Prod.mk.inj (Option.some.inj texts)
      obtain ⟨printable, maskedText⟩ := Prod.mk.inj rest
      have holds : HoldsPrintable (Sample.nestedSigns, .entry) program :=
        ⟨parses, printable⟩
      obtain ⟨reads, masks⟩ :=
        parse_text_of_printable (List.forall₂_cons.mpr ⟨holds, .nil⟩)
      have readsMasked := masks .empty [masked] _ (Prod.ext succeeds rfl)
      exact ⟨program, masked, parses, succeeds, text, maskedText,
        (List.forall₂_cons.mp reads).1, (List.forall₂_cons.mp readsMasked).1⟩
    · cases texts
  · cases texts

/-! ## Programs that are lost in print -/

/-- The text of an object key in quotes. -/
def Sample.quotedKey : SourceText :=
  ⟨"a.ts", "let v = \x7b \"a b\": 1 \x7d;"⟩

theorem Sample.text_quotedKey :
    (quotedKey.parse .user).toOption.map Program.text =
      some "let v = \x7b a b: 1 \x7d;\n" := by
  decide +kernel

theorem Sample.parse_printed_quotedKey :
    (SourceText.parse ⟨"a.ts", "let v = \x7b a b: 1 \x7d;\n"⟩
      .user).toOption.isNone = true := by
  decide +kernel

/-- A key in quotes loses them, and what is left of it need not be a word. -/
theorem parse_text_fails :
    ¬ ∀ (source : SourceText) (kind : SourceKind) (program : Program),
      source.parse kind = .ok program →
        ∃ again, SourceText.parse ⟨source.name, program.text⟩ kind =
          .ok again := by
  intro claim
  have printed := Sample.text_quotedKey
  cases parsed : Sample.quotedKey.parse .user with
  | error diagnostics => simp [parsed, Except.toOption] at printed
  | ok program =>
      obtain ⟨again, read⟩ := claim _ _ _ parsed
      have text : program.text = "let v = \x7b a b: 1 \x7d;\n" := by
        simpa [parsed, Except.toOption] using printed
      have none := Sample.parse_printed_quotedKey
      rw [text] at read
      change SourceText.parse ⟨"a.ts", _⟩ .user = _ at read
      simp [read, Except.toOption] at none

namespace Sample

/-- Sources that are not printable: a key that is no word, an entry with a
reserved name, a nullable type that is made nullable again and an angle behind a
cast to a name. -/
def unprintable : List SourceText :=
  [quotedKey,
    ⟨"a.ts", "let v = \x7b if \x7d;"⟩,
    ⟨"a.ts", "let v: (a | null) | null = b;"⟩,
    ⟨"a.ts", "let v = a as (b) < c;"⟩]

/-- Whether a source is read, is not printable and is not read again. -/
def isLost (source : SourceText) : Bool :=
  match source.parse .user with
  | .ok program =>
      !program.tree.isPrintable &&
        (SourceText.parse ⟨source.name, program.text⟩ .user).toOption.isNone
  | _ => false

end Sample

example : Sample.unprintable.all Sample.isLost = true := by
  decide +kernel

end PluginSurface
