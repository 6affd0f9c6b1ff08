import PluginSurface.Proofs.Build.TypeTable
import PluginSurface.Proofs.Surface.LineBreaks

/-!
# Lines of signatures

The line breaks of a signature are those of the literals that it shows as they
are: a name that is given by a host module, and the fronts of strings that are
defaults. The functions of a report stand on one line each exactly if none of
these literals has a line feed.
-/

namespace PluginSurface

/-! ## Texts that end lines -/

def EndsLine (text : String) : Prop :=
  ['\n'] <:+ text.toList

theorem endsLine_append (text : String) : EndsLine (text ++ "\n") :=
  ⟨text.toList, (@String.toList_append text "\n").symm⟩

section

variable {texts : List String} (ends : ∀ text ∈ texts, EndsLine text)

include ends

theorem length_le_count_join :
    texts.length ≤ (String.join texts).toList.count '\n' := by
  induction texts with
  | nil => exact Nat.zero_le _
  | cons first rest inductionHypothesis =>
      obtain ⟨endsFirst, endsRest⟩ := List.forall_mem_cons.mp ends
      obtain ⟨front, whole⟩ := endsFirst
      have further := inductionHypothesis endsRest
      rw [String.join_cons, String.toList_append, ← whole]
      simp only [List.count_append, List.count_singleton_self,
        List.length_cons]
      omega

/-- There are as many line feeds as texts exactly if each text has one only. -/
theorem count_join_iff :
    (String.join texts).toList.count '\n' = texts.length ↔
      ∀ text ∈ texts, text.toList.count '\n' = 1 := by
  induction texts with
  | nil => simp
  | cons first rest inductionHypothesis =>
      obtain ⟨endsFirst, endsRest⟩ := List.forall_mem_cons.mp ends
      obtain ⟨front, whole⟩ := endsFirst
      have further := length_le_count_join endsRest
      rw [List.forall_mem_cons, ← inductionHypothesis endsRest,
        String.join_cons, String.toList_append, ← whole]
      simp only [List.count_append, List.count_singleton_self,
        List.length_cons]
      omega

/-- Texts with one line feed each are the lines of all of them together. -/
theorem splitAtMark_join
    (single : ∀ text ∈ texts, text.toList.count '\n' = 1) :
    splitAtMark '\n' (String.join texts).toList =
      texts.map (fun text => text.toList.dropLast) ++ [[]] := by
  induction texts with
  | nil => rfl
  | cons first rest inductionHypothesis =>
      obtain ⟨endsFirst, endsRest⟩ := List.forall_mem_cons.mp ends
      obtain ⟨singleFirst, singleRest⟩ := List.forall_mem_cons.mp single
      obtain ⟨front, whole⟩ := endsFirst
      have absent : '\n' ∉ front := by
        rw [← whole, List.count_append] at singleFirst
        exact List.count_eq_zero.mp (Nat.succ.inj singleFirst)
      rw [String.join_cons, String.toList_append, ← whole, List.append_assoc,
        List.singleton_append, splitAtMark_append,
        splitAtMark_of_not_mem absent, inductionHypothesis endsRest singleRest,
        List.map_cons, ← whole, List.dropLast_concat]
      rfl

end

/-! ## Sections of functions -/

namespace Report

theorem filter_resume {style : List Char}
    (plain : style.filter isLineBreak = []) (chars : List Char) :
    (resume style chars).filter isLineBreak = chars.filter isLineBreak := by
  fun_induction resume style chars with
  | case1 rest inductionHypothesis =>
      simp [List.filter_cons, plain, inductionHypothesis]
  | case2 char rest _ inductionHypothesis =>
      simp only [List.filter_cons, inductionHypothesis]
  | case3 => rfl

theorem lineBreaks_paint {style : Style}
    (plain : lineBreaks style.sequence = []) (text : String) :
    lineBreaks (paint style text) = lineBreaks text := by
  have resumed : lineBreaks
      (String.ofList (resume style.sequence.toList text.toList)) =
        lineBreaks text := by
    rw [lineBreaks, String.toList_ofList]
    exact filter_resume plain text.toList
  rw [paint, lineBreaks_append, lineBreaks_append, plain, resumed]
  exact List.append_nil _

/-- An item has the line breaks of its text and a line feed at its end. -/
theorem lineBreaks_item (look : Look) (text : String) :
    lineBreaks (item look text) = lineBreaks text ++ ['\n'] := by
  have feed : lineBreaks "\n" = ['\n'] := rfl
  have plain : lineBreaks cyan.sequence = [] := rfl
  have colored := lineBreaks_paint plain text
  cases look <;>
    simp only [item, lineBreaks_append, feed, colored] <;> rfl

theorem count_item (look : Look) (text : String) :
    (item look text).toList.count '\n' = text.toList.count '\n' + 1 := by
  have counted := congrArg (List.count '\n') (lineBreaks_item look text)
  unfold lineBreaks at counted
  rwa [List.count_append, List.count_filter rfl, List.count_filter rfl]
    at counted

/-- The pieces that a section of functions is put together of: its title, an
item for each function and a blank line. -/
def functionPieces (look : Look) (manifest : Manifest)
    (records : RecordLookup) : List String :=
  header look "Hypermode Functions:" ::
    (manifest.functions.map fun signature =>
      item look (signature.text (records signature.name))) ++ ["\n"]

theorem functionSection_eq (look : Look) (manifest : Manifest)
    (records : RecordLookup) :
    functionSection look manifest records =
      String.join (functionPieces look manifest records) := by
  simp [functionSection, functionPieces, String.append_assoc]

theorem endsLine_of_mem_functionPieces {look : Look} {manifest : Manifest}
    {records : RecordLookup} {piece : String}
    (member : piece ∈ functionPieces look manifest records) :
    EndsLine piece := by
  simp only [functionPieces, List.cons_append, List.mem_cons, List.mem_append,
    List.mem_map, List.not_mem_nil, or_false] at member
  rcases member with rfl | ⟨signature, _, rfl⟩ | rfl
  · cases look <;> exact endsLine_append _
  · cases look <;> exact endsLine_append _
  · exact endsLine_append ""

/-- All pieces are single lines if no signature has a line feed. -/
theorem functionPieces_single_iff (look : Look) (manifest : Manifest)
    (records : RecordLookup) :
    (∀ piece ∈ functionPieces look manifest records,
        piece.toList.count '\n' = 1) ↔
      ∀ signature ∈ manifest.functions,
        '\n' ∉ (signature.text (records signature.name)).toList := by
  have title : (header look "Hypermode Functions:").toList.count '\n' = 1 := by
    cases look <;> decide
  have blank : "\n".toList.count '\n' = 1 := rfl
  simp only [functionPieces, List.cons_append, List.forall_mem_cons,
    List.forall_mem_append, List.forall_mem_map, title, blank, count_item,
    Nat.add_eq_right, List.count_eq_zero, true_and]
  exact and_iff_left (List.forall_mem_nil _)

/-- There is one line for each function, beside the title and the blank line,
exactly if no signature has a line feed, and then these are the lines. -/
theorem lines_functionSection (look : Look) (manifest : Manifest)
    (records : RecordLookup) :
    ((splitAtMark '\n'
        (functionSection look manifest records).toList).length =
          manifest.functions.length + 3 ↔
      ∀ signature ∈ manifest.functions,
        '\n' ∉ (signature.text (records signature.name)).toList) ∧
    ((∀ signature ∈ manifest.functions,
        '\n' ∉ (signature.text (records signature.name)).toList) →
      splitAtMark '\n' (functionSection look manifest records).toList =
        (functionPieces look manifest records).map
          (fun piece => piece.toList.dropLast) ++ [[]]) := by
  have ends (piece : String)
      (member : piece ∈ functionPieces look manifest records) :=
    endsLine_of_mem_functionPieces member
  have pieces : (functionPieces look manifest records).length =
      manifest.functions.length + 2 := by
    simp [functionPieces]
  rw [functionSection_eq, ← functionPieces_single_iff look]
  refine ⟨?_, splitAtMark_join ends⟩
  rw [length_splitAtMark, ← count_join_iff ends, pieces]
  exact Nat.add_left_inj

end Report

/-! ## Literals that are shown as they are -/

namespace FunctionDecl

/-- The name that a function without a body has in its host module. -/
def hostName? (function : FunctionDecl) : Option String :=
  match function.body, function.external with
  | none, some ⟨some _, name⟩ => some name
  | _, _ => none

theorem resolvedName_eq (function : FunctionDecl) :
    function.resolvedName = function.hostName?.getD function.name.text := by
  unfold resolvedName hostName?
  rcases function.body with _ | _ <;>
    rcases function.external with _ | ⟨_ | _, _⟩ <;> rfl

/-- The string that is shown of the default under a name. -/
def shownDefault? (arena : Arena) (function : FunctionDecl) (name : String) :
    Option String :=
  (function.defaultOf? name).bind fun initializer =>
    (arena.exprTree initializer).shownContent?

/-- The parameters that are not internal. -/
def shownParams (function : FunctionDecl) : List Param :=
  function.params.filter fun param =>
    !internalStart.toList.isPrefixOf param.name.text.toList

/-- The literals that a signature shows: the name that the host module gives
and, for each parameter that the first function shows, what the default of the
last function shows of a string. -/
def shownLiterals (arena : Arena) (first last : FunctionDecl) : List String :=
  first.hostName?.toList ++
    first.shownParams.filterMap fun param =>
      last.shownDefault? arena param.name.text

end FunctionDecl

open FunctionDecl Masking

/-- What is shown behind a recorded parameter has the line breaks of a string
only. -/
theorem lineBreaks_recorded (arena : Arena) (last : FunctionDecl)
    (name : String) :
    (if (recordedDefault? (recordsOf arena last) name).isSome then
        lineBreaks (defaultText (recordsOf arena last) name)
      else []) =
      (last.shownDefault? arena name).toList.flatMap lineBreaks := by
  have rel := find?_recordsOf_rel arena last name
  unfold recordedDefault? defaultText shownDefault?
  generalize List.find? _ _ = record, last.defaultOf? name = initializer
    at rel ⊢
  cases rel with
  | none => rfl
  | @some record initializer records =>
      have shown := DefaultLiteral.lineBreaks_text_ofTree
        (arena.exprTree initializer)
      simp only [Option.map_some, Option.isSome_some, if_true,
        Option.bind_some, records.text, Option.getD_some]
      exact shown

/-- Masks are not shown. -/
theorem shownParameters_eq (declarations : Declarations) (name : String)
    (program : Program) (first last : FunctionDecl) :
    (((first.declaredSignature declarations name program).withRecords
        (recordsOf program.arena last)).parameters.filter fun parameter =>
          !parameter.isInternal) =
      first.shownParams.map fun param =>
        (declaredParameter declarations program param).withRecords
          (recordsOf program.arena last) := by
  have noMask : (first.maskParameters.map (Parameter.withRecords
      (recordsOf program.arena last))).filter
        (fun parameter => !parameter.isInternal) = [] := by
    refine List.filter_eq_nil_iff.mpr fun parameter member => ?_
    obtain ⟨mask, isMask, rfl⟩ := List.mem_map.mp member
    unfold maskParameters at isMask
    split at isMask
    · cases List.mem_singleton.mp isMask
      show ¬(!internalStart.toList.isPrefixOf maskParameter.toList) = true
      decide
    · cases isMask
  rw [FunctionSignature.withRecords, declaredSignature]
  dsimp only
  rw [List.map_append, List.filter_append, noMask, List.append_nil,
    List.map_map, List.filter_map]
  rfl

section

variable {declarations : Declarations} (wellNamed : declarations.WellNamed)
  {program : Program}

include wellNamed

theorem lineBreaks_declaredParameter {param : Param}
    (isWord : Scan.isWord param.name.text = true)
    (typed : param.type.shape.Grammatical) (last : FunctionDecl) :
    lineBreaks (((declaredParameter declarations program param).withRecords
        (recordsOf program.arena last)).text (recordsOf program.arena last)) =
      (last.shownDefault? program.arena param.name.text).toList.flatMap
        lineBreaks := by
  have type : lineBreaks (declarations.resolve program.path param.type).text =
      [] := DataType.lineBreaks_text (wellNamed.resolveShape _ _ typed)
  rw [← lineBreaks_recorded, Parameter.lineBreaks_text]
  simp only [Parameter.withRecords, declaredParameter, DataType.ref,
    lineBreaks_of_isWord isWord, type, List.nil_append]
  rfl

/-- A declared signature has the line breaks of the literals that it shows. -/
theorem lineBreaks_declaredSignature {first : FunctionDecl}
    (grammatical : (first.tree program.arena).Grammatical)
    (last : FunctionDecl) :
    lineBreaks (((first.declaredSignature declarations first.resolvedName
        program).withRecords (recordsOf program.arena last)).text
          (some (recordsOf program.arena last))) =
      (shownLiterals program.arena first last).flatMap lineBreaks := by
  have typed := typed_of_grammatical grammatical
  have name : lineBreaks first.resolvedName =
      first.hostName?.toList.flatMap lineBreaks := by
    rw [resolvedName_eq]
    cases first.hostName? with
    | none => exact lineBreaks_of_isWord grammatical.name
    | some name => simp
  have returned : lineBreaks
      (declarations.resolveReturn program.path first.returnType).text = [] := by
    refine DataType.lineBreaks_text ?_
    unfold Declarations.resolveReturn
    split
    · exact wellNamed.resolveShape _ _ (typed.returns _ ‹_›)
    · trivial
  rw [FunctionSignature.lineBreaks_text, shownParameters_eq, List.flatMap_map,
    shownLiterals, List.flatMap_append, ← name,
    List.filterMap_eq_flatMap_toList, List.flatMap_assoc]
  refine (congrArg₂ (· ++ ·) (congrArg _ ?_) returned).trans
    (List.append_nil _)
  refine List.flatMap_congr fun param shown => ?_
  have member := List.mem_of_mem_filter shown
  exact lineBreaks_declaredParameter wellNamed
    (grammatical.params _ (List.mem_map_of_mem member)).1.name
    (typed.params param member) last

end

/-! ## Builds -/

/-- How the functions of a manifest are laid out in lines. A signature breaks
where its literals do, and the section of a report has one line for each
function, beside its title, a blank line and what is behind them, exactly if no
signature has a line feed. -/
structure Manifest.LaidOut (manifest : Manifest) (build : Build)
    (programs : List Program) : Prop where
  signatures : List.Forall₂ (fun name signature => ∃ program first last,
      Shows programs build.context name signature program first last ∧
        lineBreaks (signature.text (build.context.records? signature.name)) =
          (shownLiterals program.arena first last).flatMap lineBreaks)
    build.context.processed manifest.functions
  reported : ∃ front back, build.report = .ok (front ++
    Report.functionSection (Report.lookOf build.settings.reportOptions) manifest
      build.context.records? ++ back)
  count : ∀ look, (splitAtMark '\n' (Report.functionSection look manifest
      build.context.records?).toList).length = manifest.functions.length + 3 ↔
    ∀ signature ∈ manifest.functions,
      '\n' ∉ (signature.text (build.context.records? signature.name)).toList
  lines : (∀ signature ∈ manifest.functions,
      '\n' ∉ (signature.text (build.context.records? signature.name)).toList) →
    ∀ look, splitAtMark '\n' (Report.functionSection look manifest
        build.context.records?).toList =
      (Report.functionPieces look manifest build.context.records?).map
        (fun piece => piece.toList.dropLast) ++ [[]]

/-- A signature that is shown has the line breaks of the literals that it
shows. -/
theorem Shows.lineBreaks_eq {programs : List Program}
    {context : MaskingContext} {name : String} {signature : FunctionSignature}
    {program : Program} {first last : FunctionDecl}
    (shows : Shows programs context name signature program first last)
    (grammatical : ∀ program ∈ programs, program.tree.Grammatical) :
    lineBreaks (signature.text (context.records? signature.name)) =
      (shownLiterals program.arena first last).flatMap lineBreaks := by
  have wellNamed := Declarations.wellNamed_ofPrograms grammatical
  have known := (mem_of_lastDeclared? shows.isLast).1
  have topLevel := Program.item_grammatical (grammatical program known)
    (Program.mem_functions_iff.mp (List.mem_of_find?_eq_some shows.isFirst))
  have named : first.resolvedName = name := by
    simpa using List.find?_some shows.isFirst
  have sameName : signature.name = name := by
    rw [shows.signature]
    rfl
  rw [sameName, shows.records, shows.signature, ← named]
  exact lineBreaks_declaredSignature wellNamed topLevel.grammatical last

theorem manifest_laidOut {build after : Build} {sources : List BuildSource}
    {transformed : Transformed}
    (accepts : build.transform sources = (.ok transformed, after)) :
    ∃ manifest, after.manifest = .ok manifest ∧
      manifest.LaidOut after transformed.parsed := by
  obtain ⟨-, closed, succeeds⟩ := masks_of_transform accepts
  obtain ⟨manifest, isManifest, functions⟩ := exists_manifest accepts
  have grammatical := grammatical_of_transform accepts
  have shown := (assembleSignatures_spec succeeds closed).2
  refine ⟨manifest, isManifest, ?_, ?_, fun look => ?_, fun single look => ?_⟩
  · rw [functions]
    refine shown.imp fun name signature pair => ?_
    obtain ⟨program, first, last, shows, -⟩ := pair
    exact ⟨program, first, last, shows, shows.lineBreaks_eq grammatical⟩
  · unfold Build.report
    rw [isManifest]
    exact ⟨_, _, congrArg Except.ok String.append_assoc⟩
  · exact (Report.lines_functionSection look manifest _).1
  · exact (Report.lines_functionSection look manifest _).2 single

/-! ## A default of two lines -/

namespace Sample

def brokenDefault : List BuildSource :=
  [⟨⟨"assembly/index.ts",
    "export function f(a: string = \"x\\ny\"): void \x7b\x7d"⟩, .entry⟩]

/-- The texts of the signatures that the manifest of sources shows. -/
def signatureTexts (sources : List BuildSource) : Option (List String) :=
  match build.transform sources with
  | (.ok _, after) =>
      after.manifest.toOption.map fun manifest =>
        manifest.functions.map fun signature =>
          signature.text (after.context.records? signature.name)
  | _ => none

end Sample

theorem manifest_laidOut_of_brokenDefault :
    ∃ transformed after,
      Sample.build.transform Sample.brokenDefault = (.ok transformed, after) ∧
      ∃ manifest, after.manifest = .ok manifest ∧
        manifest.LaidOut after transformed.parsed := by
  have accepted :
      (Sample.build.transform Sample.brokenDefault).1.isOk = true := by
    decide +kernel
  obtain ⟨transformed, after, accepts⟩ := exists_transformed accepted
  exact ⟨transformed, after, accepts, manifest_laidOut accepts⟩

/-- A string that is a default may put a line feed into a signature. -/
theorem signature_not_on_one_line :
    ¬ ∀ (build after : Build) (sources : List BuildSource)
      (transformed : Transformed) (manifest : Manifest),
      build.transform sources = (.ok transformed, after) →
        after.manifest = .ok manifest →
          ∀ signature ∈ manifest.functions,
            lineBreaks (signature.text
              (after.context.records? signature.name)) = [] := by
  intro claim
  have seen : Sample.signatureTexts Sample.brokenDefault =
      some ["f(a: string = \"x\ny\"): void"] := by
    decide +kernel
  unfold Sample.signatureTexts at seen
  generalize accepts : Sample.build.transform Sample.brokenDefault = result
    at seen
  obtain ⟨_ | transformed, after⟩ := result
  · cases seen
  cases isManifest : after.manifest with
  | error error => simp [isManifest, Except.toOption] at seen
  | ok manifest =>
      have texts : (manifest.functions.map fun signature => signature.text
          (after.context.records? signature.name)) =
            ["f(a: string = \"x\ny\"): void"] := by
        simpa [isManifest, Except.toOption] using seen
      have plain : ∀ text ∈ manifest.functions.map fun signature =>
          signature.text (after.context.records? signature.name),
            lineBreaks text = [] :=
        List.forall_mem_map.mpr (claim _ _ _ _ _ accepts isManifest)
      rw [texts] at plain
      exact absurd (plain _ List.mem_cons_self) (by decide)

end PluginSurface
