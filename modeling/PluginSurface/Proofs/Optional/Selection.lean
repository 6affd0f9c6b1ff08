import Mathlib.Data.List.Induction
import PluginSurface.Json.Text
import PluginSurface.Proofs.Optional.Records

/-!
# What masking selects and records

The names that have to be callable are collected over all programs before any
function is looked at, so functions are selected for their names alone. The pass
goes over the selected functions in order. It stops at the first one that cannot
take a mask, and otherwise records one after the other.
-/

namespace PluginSurface

open Masking MaskingContext

/-! ## Selected functions -/

/-- A name that the programs of a build make callable from the host: that of a
member of an export list or of an exported function of an entry, or that of a
function without a body. -/
inductive IsCallable (programs : List Program) : String → Prop where
  | listed {program : Program} {exportList : ExportDecl}
      {member : ExportMember} (known : program ∈ programs)
      (isEntry : program.kind = .entry)
      (declared : exportList ∈ program.exports)
      (listed : member ∈ exportList.members) :
      IsCallable programs member.localName.text
  | exported {program : Program} {function : FunctionDecl}
      (known : program ∈ programs) (isEntry : program.kind = .entry)
      (declared : function ∈ program.functions)
      (isExported : function.isExported = true) :
      IsCallable programs function.resolvedName
  | host {program : Program} {function : FunctionDecl}
      (known : program ∈ programs) (notLibrary : program.kind ≠ .library)
      (declared : function ∈ program.functions)
      (noBody : function.body = none) :
      IsCallable programs function.resolvedName

theorem isCallable_iff {programs : List Program} {name : String} :
    IsCallable programs name ↔ name ∈ programs.flatMap requiredNames := by
  rw [List.mem_flatMap]
  constructor
  · rintro (⟨known, isEntry, declared, listed⟩ |
      ⟨known, isEntry, declared, isExported⟩ |
      ⟨known, notLibrary, declared, noBody⟩)
    all_goals refine ⟨_, known, ?_⟩
    · simp only [requiredNames, isEntry]
      refine List.mem_append_left _ (List.mem_flatMap.mpr ⟨_, declared, ?_⟩)
      exact List.mem_map_of_mem listed
    · simp only [requiredNames, isEntry]
      refine List.mem_append_right _ (List.mem_map_of_mem ?_)
      exact List.mem_filter.mpr ⟨declared, by simp [isExported]⟩
    · simp only [requiredNames, beq_eq_false_iff_ne.mpr notLibrary]
      refine List.mem_append_right _ (List.mem_map_of_mem ?_)
      exact List.mem_filter.mpr ⟨declared, by simp [noBody]⟩
  · rintro ⟨program, known, required⟩
    unfold requiredNames at required
    dsimp only at required
    split at required
    · cases required
    next notLibrary =>
    rcases List.mem_append.mp required with isListed | isDeclared
    · split at isListed
      · next isEntry =>
          obtain ⟨exportList, declared, named⟩ := List.mem_flatMap.mp isListed
          obtain ⟨member, listed, rfl⟩ := List.mem_map.mp named
          exact .listed known (by simpa using isEntry) declared listed
      · cases isListed
    · obtain ⟨function, among, rfl⟩ := List.mem_map.mp isDeclared
      obtain ⟨declared, callable⟩ := List.mem_filter.mp among
      rcases (Bool.or_eq_true _ _).mp callable with exported | noBody
      · obtain ⟨isEntry, isExported⟩ := Bool.and_eq_true_iff.mp exported
        exact .exported known (by simpa using isEntry) declared isExported
      · exact .host known (by simpa using notLibrary) declared
          (by simpa using noBody)

instance (programs : List Program) (name : String) :
    Decidable (IsCallable programs name) :=
  decidable_of_iff' _ isCallable_iff

/-- The functions that masking selects: those of programs that are no libraries
that go by callable names, in source and item order. -/
def callableFunctions (programs : List Program) :
    List (Program × FunctionDecl) :=
  (ownFunctions programs).filter fun declared =>
    IsCallable programs declared.2.resolvedName

theorem processedIn_requiring (programs : List Program) :
    processedIn (requiring programs) programs = callableFunctions programs := by
  refine List.filter_congr fun declared member => ?_
  obtain ⟨known, -, within⟩ := mem_of_mem_ownFunctions member
  rw [isSelected_requiring known within, isRequired_requiring]
  exact decide_eq_decide.mpr isCallable_iff.symm

/-! ## Functions that cannot take a mask -/

/-- Whether a function cannot take a mask: it has too many parameters, or one
of them has the name of the mask that it would gain. -/
def FunctionDecl.Unmaskable (function : FunctionDecl) : Prop :=
  63 < function.params.length ∨
    (∃ param ∈ function.params, param.initializer.isSome) ∧
      function.body.isSome ∧
        ∃ param ∈ function.params, param.name.text = "__SUPPLIED_PARAMS"

instance (function : FunctionDecl) : Decidable function.Unmaskable :=
  inferInstanceAs (Decidable (_ ∨ _))

/-- What is reported of a function that cannot take a mask. Too many parameters
come before a reserved name. -/
inductive Refuses (file : String) (function : FunctionDecl) :
    MaskingError → Prop where
  | tooMany (many : 63 < function.params.length) :
      Refuses file function
        (.tooManyParameters function.resolvedName function.params.length file
          function.span)
  | reserved {param : Param} (few : function.params.length ≤ 63)
      (defaults : function.hasDefaults = true)
      (hasBody : function.body.isSome = true)
      (first : (function.params.find? fun param =>
        param.name.text == "__SUPPLIED_PARAMS") = some param) :
      Refuses file function
        (.reservedParameterName function.resolvedName file param.span)

/-- How a pass over some functions ends: at the first one that cannot take a
mask, with what is reported of it, or with a result. -/
inductive StopsAtFirst {Result : Type}
    (declared : List (Program × FunctionDecl))
    (outcome : Except MaskingError Result) : Prop where
  | fails {first : Program × FunctionDecl} {error : MaskingError}
      (found : (declared.find? fun declared => declared.2.Unmaskable) =
        some first)
      (refuses : Refuses first.1.path first.2 error)
      (isError : outcome = .error error)
  | succeeds {result : Result}
      (allMaskable : (declared.find? fun declared =>
        declared.2.Unmaskable) = none)
      (isOk : outcome = .ok result)

namespace Masking

variable {First Second : Type}

theorem stopsAtFirst_pure {result : First} {context : MaskingContext} :
    StopsAtFirst [] ((pure result : Pass First).run context).1 :=
  .succeeds rfl rfl

/-- A pass of two steps goes over the functions of the first step first. -/
theorem stopsAtFirst_bind {first : Pass First} {next : First → Pass Second}
    {context : MaskingContext} {early late : List (Program × FunctionDecl)}
    (stops : StopsAtFirst early (first.run context).1)
    (goesOn : ∀ reached middle, first.run context = (.ok reached, middle) →
      StopsAtFirst late ((next reached).run middle).1) :
    StopsAtFirst (early ++ late) ((first >>= next).run context).1 := by
  have unfolded : (first >>= next).run context =
      ExceptT.bindCont next (first.run context).1 (first.run context).2 := rfl
  rw [unfolded]
  rcases ran : first.run context with ⟨outcome, middle⟩
  rw [ran] at stops
  rcases stops with ⟨found, refuses, rfl⟩ | ⟨allMaskable, rfl⟩
  · exact .fails (List.find?_append.trans (by rw [found]; rfl)) refuses rfl
  · rcases goesOn _ middle ran with
      ⟨found, refuses, isError⟩ | ⟨restMaskable, isOk⟩
    · exact .fails (List.find?_append.trans (by rw [allMaskable, found]; rfl))
        refuses isError
    · exact .succeeds
        (List.find?_append.trans (by rw [allMaskable, restMaskable]; rfl)) isOk

theorem find?_unmaskable {program : Program} {function : FunctionDecl} :
    ([(program, function)].find? fun declared => declared.2.Unmaskable) =
      if function.Unmaskable then some (program, function) else none := by
  by_cases unmaskable : function.Unmaskable <;> simp [unmaskable]

theorem maskFunction_stops (program : Program) (arena : Arena)
    (function : FunctionDecl) (context : MaskingContext) :
    StopsAtFirst [(program, function)]
      ((maskFunction program.path arena function).run context).1 := by
  unfold maskFunction
  dsimp only
  split
  · next many =>
      exact .fails (find?_unmaskable.trans (if_pos (.inl many)))
        (.tooMany many) rfl
  next few =>
  have maskable (kept : ¬ ((∃ param ∈ function.params,
      param.initializer.isSome) ∧ function.body.isSome ∧
        ∃ param ∈ function.params, param.name.text = "__SUPPLIED_PARAMS")) :
      ([(program, function)].find? fun declared => declared.2.Unmaskable) =
        none :=
    find?_unmaskable.trans (if_neg (not_or.mpr ⟨few, kept⟩))
  rw [← List.nil_append [(program, function)]]
  refine stopsAtFirst_bind (.succeeds rfl rfl) ?_
  rintro _ middle -
  split
  · next noDefaults =>
      refine .succeeds (maskable fun kept => ?_) rfl
      have defaults : function.hasDefaults = true :=
        List.any_eq_true.mpr kept.1
      simp [defaults] at noDefaults
  next defaults =>
  have hasDefaults : function.hasDefaults = true := by simpa using defaults
  split
  · next noBody =>
      refine .succeeds (maskable fun kept => ?_) rfl
      simp [Option.isNone_iff_eq_none.mp noBody] at kept
  next hasBody =>
  split
  · next param isReserved =>
      have isSome : function.body.isSome = true := by
        simpa [Option.isSome_iff_ne_none] using hasBody
      have reserved := List.find?_some isReserved
      have unmaskable : function.Unmaskable :=
        .inr ⟨List.any_eq_true.mp hasDefaults, isSome, param,
          List.mem_of_find?_eq_some isReserved, beq_iff_eq.mp reserved⟩
      exact .fails (find?_unmaskable.trans (if_pos unmaskable))
        (.reserved (Nat.le_of_not_lt few) hasDefaults isSome isReserved) rfl
  · next unreserved =>
      refine .succeeds (maskable fun kept => ?_) rfl
      obtain ⟨-, -, param, member, named⟩ := kept
      have different := List.find?_eq_none.mp unreserved param member
      exact different (beq_iff_eq.mpr named)

/-- A step that cannot fail goes over no function. -/
theorem stopsAtFirst_map {first : Pass First} {next : First → Pass Second}
    {context : MaskingContext} {declared : List (Program × FunctionDecl)}
    (stops : StopsAtFirst declared (first.run context).1)
    (goesOn : ∀ reached middle,
      StopsAtFirst [] ((next reached).run middle).1) :
    StopsAtFirst declared ((first >>= next).run context).1 := by
  have whole := stopsAtFirst_bind stops fun reached middle _ =>
    goesOn reached middle
  rwa [List.append_nil] at whole

theorem stopsAtFirst_get {next : MaskingContext → Pass Second}
    {context : MaskingContext} {declared : List (Program × FunctionDecl)}
    (goesOn : StopsAtFirst declared ((next context).run context).1) :
    StopsAtFirst declared ((get >>= next).run context).1 :=
  goesOn

theorem selectedFunctions_selected {selected : FunctionDecl → Bool}
    {function : FunctionDecl} (selects : selected function = true)
    (program : Program) (items : List Item) :
    selectedFunctions selected program (.function function :: items) =
      [(program, function)] ++ selectedFunctions selected program items := by
  simp [selectedFunctions, Program.functions, selects]

theorem selectedFunctions_skipped {selected : FunctionDecl → Bool}
    {item : Item} (unselected : ∀ function, item = .function function →
      selected function = false)
    (program : Program) (items : List Item) :
    selectedFunctions selected program (item :: items) =
      selectedFunctions selected program items := by
  cases item with
  | function function =>
      simp [selectedFunctions, Program.functions, unselected function rfl]
  | _ => rfl

theorem maskItems_stops (program : Program) (kind : SourceKind)
    (arena : Arena) (items : List Item) (context : MaskingContext) :
    StopsAtFirst
      (selectedFunctions (isSelected kind context) program items)
      ((maskItems program.path kind arena items).run context).1 := by
  induction items generalizing arena context with
  | nil => exact stopsAtFirst_pure
  | cons item rest inductionHypothesis =>
      -- What stands before the rest is put in front of its counterpart.
      have goesOn (middle : MaskingContext) (after : Arena) (masked : Item)
          (same : middle.required = context.required) :
          StopsAtFirst
            (selectedFunctions (isSelected kind context) program rest)
            ((maskItems program.path kind after rest >>= fun reached =>
              pure (masked :: reached.1, reached.2)
              : Pass (List Item × Arena)).run middle).1 := by
        have sameSelection :
            isSelected kind middle = isSelected kind context :=
          funext (isSelected_congr same)
        exact stopsAtFirst_map (sameSelection ▸ inductionHypothesis _ _)
          fun _ _ => stopsAtFirst_pure
      unfold maskItems
      split
      · cases ‹_ = []›
      · next function items same =>
          cases same
          refine stopsAtFirst_get ?_
          split
          · next selects =>
              rw [selectedFunctions_selected selects]
              refine stopsAtFirst_bind (maskFunction_stops _ _ _ _) ?_
              rintro ⟨masked, after⟩ middle ran
              obtain ⟨-, rfl, -⟩ := masksFunction_of_run ran
              exact goesOn _ _ _ rfl
          · next unselected =>
              rw [selectedFunctions_skipped (by simpa using unselected)]
              exact goesOn _ _ _ rfl
      · next other items notFunction same =>
          cases same
          rw [selectedFunctions_skipped fun function isFunction =>
            (notFunction function isFunction).elim]
          exact goesOn _ _ _ rfl

theorem processedIn_library {program : Program}
    (isLibrary : program.kind = .library) (context : MaskingContext) :
    processedIn context [program] = [] := by
  simp [processedIn, ownFunctions, isLibrary]

theorem processedIn_own {program : Program}
    (notLibrary : program.kind ≠ .library) (context : MaskingContext) :
    processedIn context [program] =
      selectedFunctions (isSelected program.kind context) program
        program.items := by
  simp [processedIn, ownFunctions, notLibrary, selectedFunctions,
    List.filter_map, Function.comp_def]

theorem maskProgram_stops (program : Program) (context : MaskingContext) :
    StopsAtFirst (processedIn context [program])
      ((maskProgram program).run context).1 := by
  unfold maskProgram
  split
  · next isLibrary =>
      rw [processedIn_library (by simpa using isLibrary)]
      exact stopsAtFirst_pure
  · next notLibrary =>
      rw [processedIn_own (by simpa using notLibrary)]
      exact stopsAtFirst_map (maskItems_stops _ _ _ _ _) fun _ _ =>
        stopsAtFirst_pure

theorem MasksProgram.required {context later : MaskingContext}
    {program masked : Program}
    (masks : MasksProgram context program masked later) :
    later.required = context.required := by
  cases masks with
  | library => rfl
  | own _ steps => exact steps.required

theorem maskPrograms_stops (programs : List Program)
    (context : MaskingContext) :
    StopsAtFirst (processedIn context programs)
      ((maskPrograms programs).run context).1 := by
  induction programs generalizing context with
  | nil => exact stopsAtFirst_pure
  | cons program rest inductionHypothesis =>
      rw [processedIn_cons]
      refine stopsAtFirst_bind (maskProgram_stops program context) ?_
      intro masked middle ran
      have same := (masksProgram_of_run ran).required
      rw [← processedIn_congr same]
      exact stopsAtFirst_map (inductionHypothesis middle) fun _ _ =>
        stopsAtFirst_pure

/-! ## What is recorded -/

/-- What is recorded of a parameter with a default: its name, its type as it is
written, that it is optional, and its default as a value and as a text. -/
structure RecordsDefault (arena : Arena) (param : Param)
    (record : OptionalRecord) : Prop where
  name : record.parameter.name = param.name.text
  type : record.parameter.type = ⟨param.type.text, param.type.text⟩
  isOptional : record.parameter.isOptional = true
  default : ∃ initializer, param.initializer = some initializer ∧
    record.parameter.default? = (arena.exprTree initializer).json? ∧
    record.text =
      some (DefaultLiteral.ofTree (arena.exprTree initializer)).text

/-- A record for each parameter that has a default, in the order of the
parameters. -/
def ListsDefaults (arena : Arena) (params : List Param)
    (records : List OptionalRecord) : Prop :=
  List.Forall₂ (RecordsDefault arena)
    (params.filter fun param => param.initializer.isSome) records

theorem recordsDefault_iff {arena : Arena} {param : Param}
    {record : OptionalRecord} :
    RecordsDefault arena param record ↔
      recordOf? arena param = some record := by
  constructor
  · rintro ⟨name, type, isOptional, initializer, found, value, text⟩
    obtain ⟨⟨_, _, _, _⟩, _⟩ := record
    cases name
    cases type
    cases isOptional
    cases value
    cases text
    rw [recordOf?, found]
    rfl
  · intro recorded
    obtain ⟨initializer, found, rfl⟩ := Option.map_eq_some_iff.mp recorded
    exact ⟨rfl, rfl, rfl, initializer, found, rfl, rfl⟩

/-- The records of a function are those of its parameters with a default. -/
theorem listsDefaults_iff {arena : Arena} {function : FunctionDecl}
    {records : List OptionalRecord} :
    ListsDefaults arena function.params records ↔
      records = recordsOf arena function := by
  unfold ListsDefaults recordsOf
  induction function.params generalizing records with
  | nil => exact List.forall₂_nil_left_iff
  | cons param rest inductionHypothesis =>
      cases recorded : recordOf? arena param with
      | none =>
          have required : param.initializer.isSome = false := by
            simpa [recordOf?] using recorded
          simp only [List.filter_cons, required, Bool.false_eq_true, if_false,
            List.filterMap_cons_none recorded]
          exact inductionHypothesis
      | some record =>
          have optional : param.initializer.isSome = true := by
            obtain ⟨initializer, found, -⟩ :=
              Option.map_eq_some_iff.mp recorded
            rw [found, Option.isSome_some]
          simp only [List.filter_cons, optional, if_true,
            List.filterMap_cons_some recorded, List.forall₂_cons_left_iff]
          constructor
          · rintro ⟨first, others, isFirst, lists, rfl⟩
            cases recorded.symm.trans (recordsDefault_iff.mp isFirst)
            rw [inductionHypothesis.mp lists]
          · rintro rfl
            exact ⟨_, _, recordsDefault_iff.mpr recorded,
              inductionHypothesis.mpr rfl, rfl⟩

/-- The optional parameters that masking records of a function, by the nodes of
its program and those that masking has added to them before. -/
structure IsRecordOf (declared : Program × FunctionDecl)
    (records : List OptionalRecord) : Prop where
  exists_arena : ∃ arena, declared.1.arena.Extends arena ∧
    records = recordsOf arena declared.2 ∧
    ListsDefaults arena declared.2.params records
  eq_of_closed : declared.1.Closed →
    records = recordsOf declared.1.arena declared.2 ∧
    ListsDefaults declared.1.arena declared.2.params records

theorem isRecordOf {program : Program} {function : FunctionDecl}
    (declared : function ∈ program.functions) {arena : Arena}
    (extended : program.arena.Extends arena) :
    IsRecordOf (program, function) (recordsOf arena function) where
  exists_arena := ⟨arena, extended, rfl, listsDefaults_iff.mpr rfl⟩
  eq_of_closed closed := by
    have same : recordsOf arena function =
        recordsOf program.arena function := by
      refine recordsOf_eq extended closed.arena fun point member => ?_
      obtain ⟨item, within, isFunction⟩ := List.mem_filterMap.mp declared
      refine closed.points point (List.mem_flatMap.mpr ⟨item, within, ?_⟩)
      split at isFunction <;> cases isFunction
      exact List.mem_append_right _ member
    exact ⟨same, listsDefaults_iff.mpr same⟩

/-- An entry of a record under the name of a function. -/
def Records (declared : Program × FunctionDecl)
    (entry : String × List OptionalRecord) : Prop :=
  entry.1 = declared.2.resolvedName ∧ IsRecordOf declared entry.2

theorem MasksItems.records {kind : SourceKind}
    {context later : MaskingContext} {arena after : Arena}
    {items masked : List Item}
    (masks : MasksItems kind context arena items masked after later)
    {program : Program} (extended : program.arena.Extends arena)
    (within : ∀ item ∈ items, item ∈ program.items) :
    ∃ entries, later = context.recordEach entries ∧
      List.Forall₂ Records
        (selectedFunctions (isSelected kind context) program items)
        entries := by
  induction masks with
  | nil => exact ⟨[], rfl, .nil⟩
  | @selected context _ arena _ _ function _ items _ selects _ step _
      inductionHypothesis =>
      have declared : function ∈ program.functions :=
        List.mem_filterMap.mpr ⟨_, within _ List.mem_cons_self, rfl⟩
      have sameSelection : isSelected kind (context.record
          function.resolvedName (recordsOf arena function)) =
            isSelected kind context :=
        funext (isSelected_congr rfl)
      obtain ⟨entries, rfl, pairs⟩ :=
        inductionHypothesis (extended.trans step.extends)
          fun item member => within item (List.mem_cons_of_mem _ member)
      rw [sameSelection] at pairs
      rw [selectedFunctions_selected selects]
      exact ⟨(_, _) :: entries, rfl,
        .cons ⟨rfl, isRecordOf declared extended⟩ pairs⟩
  | skipped unselected _ inductionHypothesis =>
      rw [selectedFunctions_skipped unselected]
      exact inductionHypothesis extended
        fun item member => within item (List.mem_cons_of_mem _ member)

theorem MasksProgram.records {context later : MaskingContext}
    {program masked : Program}
    (masks : MasksProgram context program masked later) :
    ∃ entries, later = context.recordEach entries ∧
      List.Forall₂ Records (processedIn context [program]) entries := by
  cases masks with
  | library isLibrary =>
      rw [processedIn_library isLibrary]
      exact ⟨[], rfl, .nil⟩
  | own notLibrary steps =>
      rw [processedIn_own notLibrary]
      exact steps.records (.refl _) fun _ member => member

theorem MasksPrograms.records {context later : MaskingContext}
    {programs masked : List Program}
    (masks : MasksPrograms context programs masked later) :
    ∃ entries, later = context.recordEach entries ∧
      List.Forall₂ Records (processedIn context programs) entries := by
  induction masks with
  | nil => exact ⟨[], rfl, .nil⟩
  | @cons context middle _ program _ programs _ step _ inductionHypothesis =>
      obtain ⟨first, rfl, firstPairs⟩ := step.records
      obtain ⟨rest, rfl, restPairs⟩ := inductionHypothesis
      rw [processedIn_congr step.required] at restPairs
      rw [processedIn_cons]
      exact ⟨first ++ rest, (recordEach_append _ _).symm,
        List.rel_append firstPairs restPairs⟩

theorem MasksPrograms.libraries {context later : MaskingContext}
    {programs masked : List Program}
    (masks : MasksPrograms context programs masked later) :
    List.Forall₂ (fun program masked =>
      program.kind = .library → masked = program) programs masked := by
  induction masks with
  | nil => exact .nil
  | cons step _ inductionHypothesis =>
      refine .cons (fun isLibrary => ?_) inductionHypothesis
      cases step with
      | library => rfl
      | own notLibrary => exact absurd isLibrary notLibrary

end Masking

/-- Names are listed in the order in which they are first recorded. -/
theorem processed_recordEach {context : MaskingContext}
    (fresh : context.processed = []) (consistent : context.Consistent)
    (entries : List (String × List OptionalRecord)) :
    (context.recordEach entries).processed =
      (entries.map Prod.fst).eraseDups := by
  induction entries using List.reverseRecOn with
  | nil => exact fresh
  | append_singleton entries last inductionHypothesis =>
      have known : (context.recordEach entries).records.contains last.1 =
          decide (last.1 ∈ entries.map Prod.fst) := by
        have listed := (consistent.recordEach entries).recorded last.1
        rw [inductionHypothesis, List.mem_eraseDups] at listed
        exact Bool.eq_iff_iff.mpr (by simp only [decide_eq_true_eq, listed,
          Dict.contains_eq])
      rw [recordEach_append]
      change (MaskingContext.record _ _ _).processed = _
      simp only [MaskingContext.record, known, inductionHypothesis]
      rw [List.map_append, List.eraseDups_append]
      by_cases listed : last.1 ∈ entries.map Prod.fst
      · simp [listed, List.removeAll]
      · simp [listed, List.removeAll, List.eraseDups_cons]

/-- Masking stops at the first selected function that cannot take a mask.
Otherwise it lists the names of the selected functions in order and each of them
once, knows of each name the optional parameters of the last selected function
that goes by it and of other names nothing, and leaves libraries as they are.
What an earlier pass has left does not matter. -/
theorem maskAnew_selects (before : MaskingContext)
    (programs : List Program) :
    match (callableFunctions programs).find? fun declared =>
        declared.2.Unmaskable with
    | some (program, function) =>
        ∃ error, (before.maskAnew programs).1 = .error error ∧
          Refuses program.path function error
    | none =>
        ∃ masked context, before.maskAnew programs = (.ok masked, context) ∧
          context.processed = ((callableFunctions programs).map fun declared =>
            declared.2.resolvedName).eraseDups ∧
          (∀ name, Option.Rel IsRecordOf
            ((callableFunctions programs).reverse.find? fun declared =>
              declared.2.resolvedName == name)
            (context.records? name)) ∧
          List.Forall₂ (fun program masked =>
            program.kind = .library → masked = program) programs masked := by
  have stops := maskPrograms_stops programs (requiring programs)
  rw [processedIn_requiring] at stops
  rcases stops with ⟨found, refuses, isError⟩ | ⟨allMaskable, isOk⟩
  · rw [found]
    exact ⟨_, isError, refuses⟩
  · rw [allMaskable]
    have ran : before.maskAnew programs = (.ok _, (maskSources programs).2) :=
      Prod.ext isOk rfl
    have masks := masksPrograms_of_maskSources ran
    refine ⟨_, _, ran, ?_, fun name => ?_, masks.libraries⟩
    all_goals
      obtain ⟨entries, recorded, pairs⟩ := masks.records
      rw [processedIn_requiring] at pairs
      rw [recorded]
    · rw [processed_recordEach (processed_requiring programs)
        (consistent_requiring programs)]
      have names : entries.map Prod.fst =
          (callableFunctions programs).map fun declared =>
            declared.2.resolvedName := by
        refine List.forall₂_eq_eq_eq ▸ ?_
        rw [List.forall₂_map_left_iff, List.forall₂_map_right_iff]
        exact pairs.flip.imp fun _ _ pair => pair.1
      rw [names]
    · rw [MaskingContext.records?, records_recordEach, records_requiring,
        Dict.find?_nil, Option.or_none]
      have last := find?_rel (List.rel_reverse pairs)
        (fun declared => declared.2.resolvedName == name)
        (fun entry => entry.1 == name) fun pair => by rw [pair.1]
      generalize (callableFunctions programs).reverse.find? _ = declared
        at last ⊢
      generalize entries.reverse.find? _ = entry at last ⊢
      cases last with
      | none => exact .none
      | some pair => exact .some pair.2

/-- `export function f(a: i32, b: i32 = -7, c: string = g()): void \x7b\x7d` -/
def Sample.severalDefaults : Program :=
  ⟨"index", .entry,
    [.function ⟨⟨"f", default⟩, [], none, true, false,
      [⟨⟨"a", default⟩, .simple "i32" default, none, default⟩,
        ⟨⟨"b", default⟩, .simple "i32" default, some ⟨1⟩, default⟩,
        ⟨⟨"c", default⟩, .simple "string" default, some ⟨3⟩, default⟩],
      some (.simple "void" default), some ⟨[], default⟩, default⟩],
    ⟨#[⟨.literal (.integer 7 "7"), default⟩, ⟨.unary .negate ⟨0⟩, default⟩,
        ⟨.identifier "g", default⟩, ⟨.call ⟨2⟩ [] [], default⟩], #[]⟩,
    default⟩

/-- The parameters with a default are recorded. A call is no document value. -/
example :
    ((MaskingContext.empty.maskAnew [Sample.severalDefaults]).2.records?
        "f").map (fun records => records.map fun record =>
          (record.parameter.name, record.parameter.type.path,
            record.parameter.default?.map Json.compact, record.text)) =
      some
        [("b", "i32", some "-7", some "-7"),
          ("c", "string", none, some "...")] := by
  decide +kernel

end PluginSurface
