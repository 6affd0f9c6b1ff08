import PluginSurface.Proofs.Optional.Masking
import PluginSurface.Proofs.Syntax.Tree

/-!
# What masking records

Masking goes over the functions of all programs that are no libraries, and
records each one whose name is required. A function is processed for its name
alone, so of several functions with one name the last one's records stay.
-/

namespace PluginSurface

open Masking MaskingContext

/-- The functions of the programs that are no libraries, in order. -/
def ownFunctions (programs : List Program) : List (Program × FunctionDecl) :=
  programs.flatMap fun program =>
    if program.kind = .library then []
    else program.functions.map fun function => (program, function)

/-- The last of these functions that goes by a name. -/
def lastDeclared? (programs : List Program) (name : String) :
    Option (Program × FunctionDecl) :=
  (ownFunctions programs).reverse.find? fun declared =>
    declared.2.resolvedName == name

/-- Stores records under their names, one after the other. -/
def MaskingContext.recordEach (context : MaskingContext)
    (entries : List (String × List OptionalRecord)) : MaskingContext :=
  entries.foldl (fun context entry => context.record entry.1 entry.2) context

def MaskingContext.recordAll (context : MaskingContext)
    (declared : List (Program × FunctionDecl)) : MaskingContext :=
  declared.foldl (fun context declared =>
    context.record declared.2.resolvedName
      (recordsOf declared.1.arena declared.2)) context

namespace MaskingContext

/-! ## Recording one function after the other -/

variable {context : MaskingContext} {name : String}
  {entries : List (String × List OptionalRecord)}
  {declared : List (Program × FunctionDecl)}

theorem recordEach_append (first second : List (String × List OptionalRecord)) :
    context.recordEach (first ++ second) =
      (context.recordEach first).recordEach second :=
  List.foldl_append

theorem recordAll_eq :
    context.recordAll declared =
      context.recordEach (declared.map fun declared =>
        (declared.2.resolvedName, recordsOf declared.1.arena declared.2)) := by
  rw [recordEach, List.foldl_map]
  rfl

theorem recordAll_cons (first : Program × FunctionDecl)
    (rest : List (Program × FunctionDecl)) :
    context.recordAll (first :: rest) =
      (context.record first.2.resolvedName
        (recordsOf first.1.arena first.2)).recordAll rest := rfl

theorem recordAll_append (first second : List (Program × FunctionDecl)) :
    context.recordAll (first ++ second) =
      (context.recordAll first).recordAll second :=
  List.foldl_append

theorem required_recordAll :
    (context.recordAll declared).required = context.required := by
  induction declared generalizing context with
  | nil => rfl
  | cons first rest inductionHypothesis => exact inductionHypothesis

/-- Of several records under one name the last one stays. -/
theorem records_recordEach :
    (context.recordEach entries).records.find? name =
      ((entries.reverse.find? fun entry => entry.1 == name).map Prod.snd).or
        (context.records.find? name) := by
  induction entries generalizing context with
  | nil => rfl
  | cons first rest inductionHypothesis =>
      refine inductionHypothesis.trans ?_
      rw [List.reverse_cons, List.find?_append]
      cases rest.reverse.find? fun entry => entry.1 == name with
      | some entry => rfl
      | none =>
          by_cases same : first.1 = name
          · simp [record, same]
          · have different : name ≠ first.1 := fun equal => same equal.symm
            simp [record, same, Dict.find?_insert_other _ different]

/-- Of several functions with one name the last one's records stay. -/
theorem records_recordAll :
    (context.recordAll declared).records.find? name =
      ((declared.reverse.find? fun declared =>
        declared.2.resolvedName == name).map fun declared =>
          recordsOf declared.1.arena declared.2).or
        (context.records.find? name) := by
  rw [recordAll_eq, records_recordEach, ← List.map_reverse, List.find?_map,
    Option.map_map]
  rfl

/-- The processed names are those that something is recorded of, each of them
once. -/
structure Consistent (context : MaskingContext) : Prop where
  distinct : context.processed.Nodup
  recorded : ∀ name, name ∈ context.processed ↔
    (context.records.find? name).isSome

theorem Consistent.record (consistent : context.Consistent)
    (records : List OptionalRecord) :
    (context.record name records).Consistent := by
  have known : context.records.contains name = true ↔
      name ∈ context.processed := by
    rw [Dict.contains_eq, consistent.recorded]
  unfold MaskingContext.record
  by_cases contained : context.records.contains name = true
  · simp only [contained, if_true]
    refine ⟨consistent.distinct, fun other => ?_⟩
    rw [consistent.recorded other, Dict.find?_insert]
    by_cases same : other = name
    · subst other
      rw [Dict.contains_eq] at contained
      simp [contained]
    · simp [same]
  · simp only [contained, Bool.false_eq_true, if_false]
    have fresh : name ∉ context.processed := fun member =>
      contained (known.mpr member)
    constructor
    · exact List.nodup_append.mpr ⟨consistent.distinct, by simp,
        fun other member last isLast same =>
          fresh (List.mem_singleton.mp isLast ▸ same ▸ member)⟩
    · intro other
      rw [List.mem_append, List.mem_singleton, consistent.recorded other,
        Dict.find?_insert]
      by_cases same : other = name
      · simp [same]
      · simp [same]

theorem Consistent.recordEach (consistent : context.Consistent)
    (entries : List (String × List OptionalRecord)) :
    (context.recordEach entries).Consistent := by
  induction entries generalizing context with
  | nil => exact consistent
  | cons first rest inductionHypothesis =>
      exact inductionHypothesis (consistent.record _)

theorem Consistent.recordAll (consistent : context.Consistent) :
    (context.recordAll declared).Consistent :=
  recordAll_eq ▸ consistent.recordEach _

end MaskingContext

/-! ## Selection -/

namespace Masking

theorem required_foldl (names : List String) (context : MaskingContext)
    (name : String) :
    (names.foldl MaskingContext.require context).isRequired name =
      (decide (name ∈ names) || context.isRequired name) := by
  induction names generalizing context with
  | nil => simp
  | cons first rest inductionHypothesis =>
      rw [List.foldl_cons, inductionHypothesis]
      simp only [MaskingContext.isRequired, MaskingContext.require,
        Dict.contains_eq, Dict.find?_insert]
      by_cases same : name = first <;> simp [same]

theorem isRequired_requiring (programs : List Program) (name : String) :
    (requiring programs).isRequired name =
      decide (name ∈ programs.flatMap requiredNames) := by
  unfold requiring
  rw [required_foldl]
  simp [MaskingContext.isRequired, MaskingContext.empty, Dict.contains_eq]

/-- Exported functions of an entry are required, so a function of a build is
selected for its name alone. -/
theorem isSelected_requiring {programs : List Program} {program : Program}
    (known : program ∈ programs) {function : FunctionDecl}
    (declared : function ∈ program.functions) :
    isSelected program.kind (requiring programs) function =
      (requiring programs).isRequired function.resolvedName := by
  unfold isSelected
  by_cases exported : (program.kind == .entry && function.isExported) = true
  · have isEntry : program.kind = .entry := by
      simpa using (Bool.and_eq_true_iff.mp exported).1
    have isExported := (Bool.and_eq_true_iff.mp exported).2
    have named : function.resolvedName ∈ requiredNames program := by
      simp only [requiredNames, isEntry]
      refine List.mem_append_right _ (List.mem_map_of_mem ?_)
      exact List.mem_filter.mpr ⟨declared, by simp [isExported]⟩
    have required : function.resolvedName ∈ programs.flatMap requiredNames :=
      List.mem_flatMap.mpr ⟨program, known, named⟩
    rw [isRequired_requiring, decide_eq_true required, Bool.true_or]
  · rw [Bool.eq_false_iff.mpr exported, Bool.or_false]

/-! ## The whole pass -/

/-- What is recorded of a function does not depend on how far its program has
been masked. -/
theorem recordsOf_eq {smaller larger : Arena}
    (extended : smaller.Extends larger) (closed : smaller.Closed)
    {function : FunctionDecl}
    (stored : ∀ point ∈ function.entries, smaller.Has point) :
    recordsOf larger function = recordsOf smaller function := by
  refine List.filterMap_congr fun param member => ?_
  unfold recordOf?
  cases default : param.initializer with
  | none => rfl
  | some initializer =>
      have has : smaller.Has (.expr initializer) := by
        refine stored _ (List.mem_append_left _ (List.mem_flatMap.mpr
          ⟨param, member, ?_⟩))
        simp [Param.points, optionalPoints, default]
      simp only [Option.map_some, extended.exprTree_eq closed has]

/-- The selected functions among some items of a program. -/
def selectedFunctions (selected : FunctionDecl → Bool) (program : Program)
    (items : List Item) : List (Program × FunctionDecl) :=
  (({ program with items := items } : Program).functions.filter selected).map
    fun function => (program, function)

theorem MasksItems.context_eq {kind : SourceKind}
    {context later : MaskingContext} {arena after : Arena}
    {items masked : List Item}
    (masks : MasksItems kind context arena items masked after later)
    {program : Program} (closed : program.arena.Closed)
    (extended : program.arena.Extends arena)
    (stored : ∀ item ∈ items, ∀ point ∈ item.points,
      program.arena.Has point) :
    later = context.recordAll
      (selectedFunctions (isSelected kind context) program items) := by
  induction masks with
  | nil => rfl
  | @selected context _ arena _ _ function _ _ _ selects _ step _
      inductionHypothesis =>
      have same : isSelected kind (context.record function.resolvedName
          (recordsOf arena function)) = isSelected kind context :=
        funext fun function => isSelected_congr rfl function
      have records : recordsOf arena function =
          recordsOf program.arena function :=
        recordsOf_eq extended closed fun point member =>
          stored _ List.mem_cons_self point (List.mem_append_right _ member)
      have rest := inductionHypothesis (extended.trans step.extends)
        fun item member => stored item (List.mem_cons_of_mem _ member)
      rw [same] at rest
      rw [rest, records]
      simp [selectedFunctions, Program.functions, selects,
        MaskingContext.recordAll_cons]
  | @skipped _ _ _ _ item items _ unselected _ inductionHypothesis =>
      have rest := inductionHypothesis extended
        fun item member => stored item (List.mem_cons_of_mem _ member)
      rw [rest]
      cases item with
      | function function =>
          simp [selectedFunctions, Program.functions, unselected function rfl]
      | _ => rfl

def processedIn (context : MaskingContext) (programs : List Program) :
    List (Program × FunctionDecl) :=
  (ownFunctions programs).filter fun declared =>
    isSelected declared.1.kind context declared.2

theorem processedIn_cons (context : MaskingContext) (program : Program)
    (programs : List Program) :
    processedIn context (program :: programs) =
      processedIn context [program] ++ processedIn context programs := by
  simp [processedIn, ownFunctions]

theorem processedIn_congr {first second : MaskingContext}
    (same : first.required = second.required) (programs : List Program) :
    processedIn first programs = processedIn second programs := by
  simp only [processedIn, isSelected_congr same]

theorem MasksProgram.context_eq {context later : MaskingContext}
    {program masked : Program}
    (masks : MasksProgram context program masked later)
    (closed : program.Closed) :
    later = context.recordAll (processedIn context [program]) := by
  cases masks with
  | library isLibrary =>
      simp [processedIn, ownFunctions, isLibrary, MaskingContext.recordAll]
  | own notLibrary steps =>
      have stored : ∀ item ∈ program.items, ∀ point ∈ item.points,
          program.arena.Has point := fun item member point within =>
        closed.points point (List.mem_flatMap.mpr ⟨item, member, within⟩)
      rw [steps.context_eq closed.arena (.refl _) stored]
      simp [processedIn, ownFunctions, notLibrary, selectedFunctions,
        List.filter_map, Function.comp_def]

theorem MasksPrograms.context_eq {context later : MaskingContext}
    {programs masked : List Program}
    (masks : MasksPrograms context programs masked later)
    (closed : ∀ program ∈ programs, program.Closed) :
    later = context.recordAll (processedIn context programs) := by
  induction masks with
  | nil => rfl
  | @cons context middle _ program _ programs _ step _ inductionHypothesis =>
      have first := step.context_eq (closed program List.mem_cons_self)
      have rest := inductionHypothesis fun other member =>
        closed other (List.mem_cons_of_mem _ member)
      -- Recording requires no further names, so the rest is selected alike.
      have required : middle.required = context.required := by
        rw [first, required_recordAll]
      rw [rest, processedIn_congr required, first, ← recordAll_append,
        ← processedIn_cons]

/-! ## The records of a build -/

theorem requiring_foldl (names : List String) (context : MaskingContext) :
    (names.foldl MaskingContext.require context).records = context.records ∧
      (names.foldl MaskingContext.require context).processed =
        context.processed := by
  induction names generalizing context with
  | nil => exact ⟨rfl, rfl⟩
  | cons first rest inductionHypothesis =>
      exact inductionHypothesis (context.require first)

theorem records_requiring (programs : List Program) :
    (requiring programs).records = [] :=
  (requiring_foldl _ _).1

theorem processed_requiring (programs : List Program) :
    (requiring programs).processed = [] :=
  (requiring_foldl _ _).2

theorem consistent_requiring (programs : List Program) :
    (requiring programs).Consistent := by
  refine ⟨?_, fun name => ?_⟩
  · rw [processed_requiring]
    exact List.nodup_nil
  · rw [processed_requiring, records_requiring]
    simp

theorem mem_of_mem_ownFunctions {programs : List Program}
    {declared : Program × FunctionDecl}
    (member : declared ∈ ownFunctions programs) :
    declared.1 ∈ programs ∧ declared.1.kind ≠ .library ∧
      declared.2 ∈ declared.1.functions := by
  obtain ⟨program, known, member⟩ := List.mem_flatMap.mp member
  by_cases isLibrary : program.kind = .library
  · simp [isLibrary] at member
  · rw [if_neg isLibrary] at member
    obtain ⟨function, within, rfl⟩ := List.mem_map.mp member
    exact ⟨known, isLibrary, within⟩

/-- As functions are selected for their names alone, the last selected function
of a name is its last one, and the name is required. -/
theorem find?_selected {programs : List Program} {name : String}
    {declared : Program × FunctionDecl}
    (found : ((processedIn (requiring programs) programs).reverse.find?
      fun declared => declared.2.resolvedName == name) = some declared) :
    (requiring programs).isRequired name = true ∧
      lastDeclared? programs name = some declared := by
  have required : ∀ other ∈ (ownFunctions programs).reverse,
      isSelected other.1.kind (requiring programs) other.2 =
        (requiring programs).isRequired other.2.resolvedName :=
    fun other member =>
      have among := mem_of_mem_ownFunctions (List.mem_reverse.mp member)
      isSelected_requiring among.1 among.2.2
  rw [processedIn, ← List.filter_reverse, List.filter_congr required,
    List.find?_filter] at found
  have selects := List.find?_some found
  simp only [decide_eq_true_eq, beq_iff_eq] at selects
  obtain ⟨isRequired, named⟩ := selects
  subst named
  refine ⟨isRequired, ?_⟩
  rw [← found]
  unfold lastDeclared?
  congr 1
  funext other
  by_cases same : other.2.resolvedName = declared.2.resolvedName <;>
    simp [same, isRequired]

/-- Every processed name is required, and of each the optional parameters are
recorded that its last function has. -/
theorem records_of_maskSources {programs masked : List Program}
    {context : MaskingContext}
    (succeeds : maskSources programs = (.ok masked, context))
    (closed : ∀ program ∈ programs, program.Closed) :
    context.Consistent ∧ ∀ name ∈ context.processed,
      (requiring programs).isRequired name = true ∧
        ∃ program last, lastDeclared? programs name = some (program, last) ∧
          context.records? name = some (recordsOf program.arena last) := by
  have passed := (masksPrograms_of_maskSources succeeds).context_eq closed
  have consistent : context.Consistent := by
    rw [passed]
    exact (consistent_requiring programs).recordAll
  refine ⟨consistent, fun name processed => ?_⟩
  obtain ⟨records, found⟩ := Option.isSome_iff_exists.mp
    ((consistent.recorded name).mp processed)
  have recorded := found
  rw [passed, records_recordAll, records_requiring] at recorded
  obtain ⟨⟨program, last⟩, isLast, rfl⟩ :=
    Option.map_eq_some_iff.mp (Option.or_none.symm.trans recorded)
  obtain ⟨required, declared⟩ := find?_selected isLast
  exact ⟨required, program, last, declared, found⟩

end Masking

end PluginSurface
