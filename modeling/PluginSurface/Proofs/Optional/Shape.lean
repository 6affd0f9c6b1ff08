import PluginSurface.Grammar.Program
import PluginSurface.Proofs.Optional.Selection

/-!
# The shape of a masked program

Masking adds nodes to an arena and keeps those that are there. It changes
selected functions with defaults and nothing else: without a body they lose
their defaults, and with one they gain the mask and, before their statements,
one guard for each default.
-/

namespace PluginSurface

open Masking

/-! ## Guards in order -/

/-- A default, the name of its parameter and the position of that. -/
structure DefaultedParam where
  position : Nat
  name : String
  initializer : ExprId

def DefaultedParam.of? (positioned : Param × Nat) : Option DefaultedParam :=
  positioned.1.initializer.map fun initializer =>
    ⟨positioned.2, positioned.1.name.text, initializer⟩

/-- The defaults of a function in the order of their parameters. -/
def FunctionDecl.defaulted (function : FunctionDecl) : List DefaultedParam :=
  function.params.zipIdx.filterMap DefaultedParam.of?

/-- A statement tests the bit of a parameter and assigns its default to it. -/
def DefaultedParam.GuardedBy (arena : Arena) (param : DefaultedParam)
    (id : StmtId) : Prop :=
  GuardStatement arena param.position param.name param.initializer id

theorem Masking.Guards.forall₂ {arena : Arena} {index : Nat}
    {params : List Param} {ids : List StmtId}
    (guards : Guards arena index params ids) :
    List.Forall₂ (DefaultedParam.GuardedBy arena)
      ((params.zipIdx index).filterMap DefaultedParam.of?) ids := by
  induction guards with
  | nil => exact .nil
  | @required index param _ _ noDefault _ inductionHypothesis =>
      have isRequired : DefaultedParam.of? (param, index) = none := by
        simp [DefaultedParam.of?, noDefault]
      rw [List.zipIdx_cons, List.filterMap_cons_none isRequired]
      exact inductionHypothesis
  | @optional index param _ initializer _ _ default guard _
      inductionHypothesis =>
      have isDefaulted : DefaultedParam.of? (param, index) =
          some ⟨index, param.name.text, initializer⟩ := by
        simp [DefaultedParam.of?, default]
      rw [List.zipIdx_cons, List.filterMap_cons_some isDefaulted]
      exact .cons guard inductionHypothesis

/-! ## Functions -/

/-- What a function becomes in a program over an arena. -/
structure ReshapedFunction (selected : Prop) (arena : Arena)
    (function masked : FunctionDecl) : Prop where
  unselected : ¬ selected → masked = function
  plain : (∀ param ∈ function.params, param.initializer = none) →
    masked = function
  host : selected → function.body = none → masked =
    { function with
      params := function.params.map fun param =>
        { param with initializer := none } }
  guarded : ∀ {body : Block}, selected → function.body = some body →
    (∃ param ∈ function.params, param.initializer.isSome) →
      ∃ guards,
        List.Forall₂ (DefaultedParam.GuardedBy arena) function.defaulted
          guards ∧
        masked =
          { function with
            params :=
              (function.params.map fun param =>
                { param with initializer := none }) ++
                [⟨⟨"__SUPPLIED_PARAMS", function.span⟩,
                  .simple "u64" function.span, none, function.span⟩]
            body := some
              { body with statements := guards ++ body.statements } }

theorem withoutInitializers_of_plain {function : FunctionDecl}
    (plain : ∀ param ∈ function.params, param.initializer = none) :
    withoutInitializers function = function := by
  have each : ∀ param ∈ function.params, withoutInitializer param = param := by
    intro param member
    unfold withoutInitializer
    rw [← plain param member]
  have same : function.params.map withoutInitializer = function.params :=
    (List.map_congr_left each).trans (List.map_id _)
  unfold withoutInitializers
  rw [same]

theorem hasDefaults_iff {function : FunctionDecl} :
    function.hasDefaults = true ↔
      ∃ param ∈ function.params, param.initializer.isSome :=
  List.any_eq_true

theorem plain_of_hasDefaults {function : FunctionDecl}
    (noDefaults : function.hasDefaults = false) :
    ∀ param ∈ function.params, param.initializer = none := by
  simpa [FunctionDecl.hasDefaults] using noDefaults

/-- A function that is not selected or has no defaults stays. -/
theorem ReshapedFunction.kept {selected : Prop} {arena : Arena}
    {function : FunctionDecl}
    (plain : selected → function.hasDefaults = false) :
    ReshapedFunction selected arena function function := by
  refine ⟨fun _ => rfl, fun _ => rfl, fun selects _ => ?_,
    fun selects _ defaults => ?_⟩
  · exact (withoutInitializers_of_plain
      (plain_of_hasDefaults (plain selects))).symm
  · rw [← hasDefaults_iff, plain selects] at defaults
    cases defaults

theorem Masking.MaskedFunction.reshaped {selected : FunctionDecl → Bool}
    {arena : Arena} {function masked : FunctionDecl}
    (masks : MaskedFunction selected arena function masked) :
    ReshapedFunction (selected function = true) arena function masked := by
  cases masks with
  | kept plain => exact .kept plain
  | host selects noBody =>
      refine ⟨fun unselected => absurd selects unselected,
        withoutInitializers_of_plain, fun _ _ => rfl, fun _ hasBody => ?_⟩
      rw [noBody] at hasBody
      cases hasBody
  | @guarded body ids selects defaults hasBody _ _ guards =>
      refine ⟨fun unselected => absurd selects unselected, fun plain => ?_,
        fun _ noBody => ?_, fun _ sameBody _ => ⟨ids, guards.forall₂, ?_⟩⟩
      · obtain ⟨param, member, isSome⟩ := hasDefaults_iff.mp defaults
        rw [plain param member] at isSome
        cases isSome
      · rw [noBody] at hasBody
        cases hasBody
      · rw [sameBody] at hasBody
        cases hasBody
        rfl

/-! ## Programs -/

/-- What an item becomes in a program over an arena. -/
def ReshapedItem (selected : FunctionDecl → Prop) (arena : Arena)
    (item masked : Item) : Prop :=
  match item with
  | .function function => ∃ reshaped, masked = .function reshaped ∧
      ReshapedFunction (selected function) arena function reshaped
  | item => masked = item

theorem Masking.MaskedItem.reshaped {selected : FunctionDecl → Bool}
    {selects : FunctionDecl → Prop} {arena : Arena} {item masked : Item}
    (masks : MaskedItem selected arena item masked)
    (same : ∀ function, item = .function function →
      (selected function = true ↔ selects function)) :
    ReshapedItem selects arena item masked := by
  cases masks with
  | @function function masked masks =>
      have selection := propext (same function rfl)
      exact ⟨masked, rfl, selection ▸ masks.reshaped⟩
  | other notFunction =>
      cases item with
      | function function => exact (notFunction function rfl).elim
      | _ => rfl

/-- A function that masking selects: it is declared in no library and goes by a
name that can be called from the host. -/
def IsSelected (programs : List Program) (program : Program)
    (function : FunctionDecl) : Prop :=
  program.kind ≠ .library ∧ IsCallable programs function.resolvedName

/-- What a program of a build becomes. -/
structure ReshapedProgram (programs : List Program)
    (source target : Program) : Prop where
  frame : target = { source with items := target.items, arena := target.arena }
  arena : source.arena.Extends target.arena
  items : List.Forall₂
    (ReshapedItem (IsSelected programs source) target.arena) source.items
      target.items

theorem isSelected_iff {programs : List Program} {program : Program}
    (known : program ∈ programs) (notLibrary : program.kind ≠ .library)
    {function : FunctionDecl} (declared : function ∈ program.functions) :
    isSelected program.kind (requiring programs) function = true ↔
      IsSelected programs program function := by
  rw [isSelected_requiring known declared, isRequired_requiring,
    decide_eq_true_iff, ← isCallable_iff]
  exact (and_iff_right notLibrary).symm

theorem Masking.MaskedModule.reshaped {programs : List Program}
    {source target : Program} (known : source ∈ programs)
    (masks : MaskedModule (requiring programs) source target) :
    ReshapedProgram programs source target := by
  cases masks with
  | library isLibrary =>
      refine ⟨rfl, .refl _, List.forall₂_same.mpr fun item _ => ?_⟩
      cases item with
      | function function =>
          exact ⟨function, rfl, .kept fun selected =>
            absurd isLibrary selected.1⟩
      | _ => rfl
  | own notLibrary masks =>
      obtain ⟨path, kind, span, extended, items⟩ := masks
      refine ⟨?_, extended, ?_⟩
      · rw [← path, ← kind, ← span]
      · have within := (List.forall₂_and_left _ _).mpr
          ⟨fun _ member => member, items⟩
        refine within.imp fun item masked pair => ?_
        obtain ⟨member, masks⟩ := pair
        apply masks.reshaped
        intro function isFunction
        subst isFunction
        have declared : function ∈ source.functions :=
          List.mem_filterMap.mpr ⟨_, member, rfl⟩
        exact isSelected_iff known notLibrary declared

/-- Masking a build keeps every node and every item of its programs but for the
selected functions with defaults. One with a body keeps its parameters in order
and gains the mask behind them, and its body starts with a guard for each
default; one without a body only loses its defaults. -/
theorem maskAnew_reshapes {before context : MaskingContext}
    {programs masked : List Program}
    (ran : before.maskAnew programs = (.ok masked, context)) :
    List.Forall₂ (ReshapedProgram programs) programs masked := by
  have masks : MasksPrograms (requiring programs) programs masked context :=
    masksPrograms_of_maskSources ran
  have known := (List.forall₂_and_left programs masked).mpr
    ⟨fun _ member => member, masks.modules⟩
  exact known.imp fun _ _ pair => pair.2.reshaped pair.1

namespace Sample

/-- A function with a required and an optional parameter, and an import with an
optional one. -/
def mixedDefaults : SourceText :=
  ⟨"assembly/index.ts",
    "export function f(a: i32, b: i32 = 1): i32 \x7b return a; \x7d " ++
      "declare function g(c: i32 = 2): void;"⟩

/-- How many parameters, defaults and statements the functions of a source have
when it is masked. -/
def maskedLengths (source : SourceText) :
    Option (List (Nat × Nat × Option Nat)) :=
  match source.parse .entry with
  | .ok program =>
      match (MaskingContext.empty.maskAnew [program]).1 with
      | .ok [masked] =>
          some <| masked.functions.map fun function =>
            (function.params.length, function.defaulted.length,
              function.body.map fun body => body.statements.length)
      | _ => none
  | _ => none

end Sample

theorem maskAnew_reshapes_of_mixedDefaults :
    ∃ program masked, Sample.mixedDefaults.parse .entry = .ok program ∧
      (MaskingContext.empty.maskAnew [program]).1 = .ok [masked] ∧
      (masked.functions.map fun function =>
        (function.params.length, function.defaulted.length,
          function.body.map fun body => body.statements.length)) =
        [(3, 0, some 2), (1, 0, none)] ∧
      ReshapedProgram [program] program masked := by
  have lengths : Sample.maskedLengths Sample.mixedDefaults =
      some [(3, 0, some 2), (1, 0, none)] := by
    decide +kernel
  unfold Sample.maskedLengths at lengths
  split at lengths
  · rename_i program parses
    split at lengths
    · rename_i masked succeeds
      have ran : MaskingContext.empty.maskAnew [program] =
          (.ok [masked], (MaskingContext.empty.maskAnew [program]).2) :=
        Prod.ext succeeds rfl
      have reshaped := maskAnew_reshapes ran
      exact ⟨program, masked, parses, succeeds, Option.some.inj lengths,
        (List.forall₂_cons.mp reshaped).1⟩
    · cases lengths
  · cases lengths

end PluginSurface
