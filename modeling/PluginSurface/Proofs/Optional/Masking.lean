import Mathlib.Data.List.Forall2
import PluginSurface.Proofs.Optional.Guards
import PluginSurface.Proofs.Eval.Simulation

/-!
# What masking does to a program

The pass as a relation: from the context, the arena and the items that it starts
with to those that it leaves, one rule for each way it can treat an item. Over a
whole program it pairs every item with its counterpart, keeps all nodes, and
leaves all names as they are, so that lookups find counterparts.
-/

namespace PluginSurface

/-! ## Lists of counterparts -/

theorem exists_of_mem_right {Source Target : Type}
    {related : Source → Target → Prop} {sources : List Source}
    {targets : List Target} (pairs : List.Forall₂ related sources targets)
    {target : Target} (member : target ∈ targets) :
    ∃ source ∈ sources, related source target := by
  induction pairs with
  | nil => cases member
  | @cons first second _ _ pair _ inductionHypothesis =>
      rcases List.mem_cons.mp member with rfl | inRest
      · exact ⟨first, List.mem_cons_self, pair⟩
      · obtain ⟨source, inSources, found⟩ := inductionHypothesis inRest
        exact ⟨source, List.mem_cons_of_mem _ inSources, found⟩

/-- Counterparts of counterparts. -/
theorem forall₂_through {First Second Third : Type}
    {related : First → Second → Prop} {further : Second → Third → Prop}
    {whole : First → Third → Prop} {firsts : List First}
    {seconds : List Second} {thirds : List Third}
    (pairs : List.Forall₂ related firsts seconds)
    (morePairs : List.Forall₂ further seconds thirds)
    (each : ∀ first second third, related first second →
      further second third → whole first third) :
    List.Forall₂ whole firsts thirds := by
  induction pairs generalizing thirds with
  | nil =>
      cases morePairs
      exact .nil
  | cons pair _ inductionHypothesis =>
      cases morePairs with
      | cons next others =>
          exact .cons (each _ _ _ pair next) (inductionHypothesis others)

namespace Masking

/-! ## The pass -/

/-- What a selected function becomes, and the arena after it. -/
inductive MasksFunction (arena : Arena) (function : FunctionDecl) :
    FunctionDecl → Arena → Prop where
  | plain (noDefaults : function.hasDefaults = false) :
      MasksFunction arena function function arena
  | host (defaults : function.hasDefaults = true)
      (noBody : function.body = none) :
      MasksFunction arena function (withoutInitializers function) arena
  | guarded (defaults : function.hasDefaults = true)
      (hasBody : function.body.isSome = true)
      (unreserved : ∀ param ∈ function.params,
        param.name.text ≠ maskParameter) :
      MasksFunction arena function (withMask function arena).1
        (withMask function arena).2

/-- What the items of a program that is no library become. -/
inductive MasksItems (kind : SourceKind) :
    MaskingContext → Arena → List Item → List Item → Arena →
      MaskingContext → Prop where
  | nil {context : MaskingContext} {arena : Arena} :
      MasksItems kind context arena [] [] arena context
  | selected {context later : MaskingContext} {arena middle after : Arena}
      {function masked : FunctionDecl} {items maskedItems : List Item}
      (selects : isSelected kind context function = true)
      (few : function.params.length ≤ parameterLimit)
      (step : MasksFunction arena function masked middle)
      (rest : MasksItems kind
        (context.record function.resolvedName (recordsOf arena function))
        middle items maskedItems after later) :
      MasksItems kind context arena (.function function :: items)
        (.function masked :: maskedItems) after later
  | skipped {context later : MaskingContext} {arena after : Arena}
      {item : Item} {items maskedItems : List Item}
      (unselected : ∀ function, item = .function function →
        isSelected kind context function = false)
      (rest : MasksItems kind context arena items maskedItems after later) :
      MasksItems kind context arena (item :: items) (item :: maskedItems)
        after later

inductive MasksProgram (context : MaskingContext) (program : Program) :
    Program → MaskingContext → Prop where
  | library (isLibrary : program.kind = .library) :
      MasksProgram context program program context
  | own {items : List Item} {arena : Arena} {later : MaskingContext}
      (notLibrary : program.kind ≠ .library)
      (steps : MasksItems program.kind context program.arena program.items
        items arena later) :
      MasksProgram context program
        { program with items := items, arena := arena } later

inductive MasksPrograms :
    MaskingContext → List Program → List Program → MaskingContext → Prop where
  | nil {context : MaskingContext} : MasksPrograms context [] [] context
  | cons {context middle later : MaskingContext} {program masked : Program}
      {programs maskedPrograms : List Program}
      (step : MasksProgram context program masked middle)
      (rest : MasksPrograms middle programs maskedPrograms later) :
      MasksPrograms context (program :: programs) (masked :: maskedPrograms)
        later

/-- A pass of two steps that succeeds succeeds in both. -/
theorem steps_of_run {First Second : Type} {first : Pass First}
    {next : First → Pass Second} {context later : MaskingContext}
    {result : Second}
    (ran : (first >>= next).run context = (.ok result, later)) :
    ∃ reached middle, first.run context = (.ok reached, middle) ∧
      (next reached).run middle = (.ok result, later) := by
  have unfolded : (first >>= next).run context =
      ExceptT.bindCont next (first.run context).1 (first.run context).2 := rfl
  rw [unfolded] at ran
  rcases found : first.run context with ⟨error | reached, middle⟩ <;>
    rw [found] at ran
  · cases ran
  · exact ⟨reached, middle, rfl, ran⟩

theorem masksFunction_of_run {file : String} {arena after : Arena}
    {function masked : FunctionDecl} {context later : MaskingContext}
    (ran : (maskFunction file arena function).run context =
      (.ok (masked, after), later)) :
    function.params.length ≤ parameterLimit ∧
      later =
        context.record function.resolvedName (recordsOf arena function) ∧
      MasksFunction arena function masked after := by
  unfold maskFunction at ran
  dsimp only at ran
  split at ran
  · cases ran
  · rename_i few
    obtain ⟨_, _, ⟨rfl⟩, ran⟩ := steps_of_run ran
    refine ⟨Nat.le_of_not_lt few, ?_⟩
    split at ran
    · rename_i noDefaults
      cases ran
      exact ⟨rfl, .plain (by simpa using noDefaults)⟩
    · rename_i defaults
      have hasDefaults : function.hasDefaults = true := by simpa using defaults
      split at ran
      · rename_i noBody
        cases ran
        exact ⟨rfl, .host hasDefaults (by simpa using noBody)⟩
      · rename_i hasBody
        split at ran
        · cases ran
        · rename_i unreserved
          cases ran
          refine ⟨rfl, .guarded hasDefaults ?_ fun param member => ?_⟩
          · simpa [Option.isSome_iff_ne_none] using hasBody
          · simpa using List.find?_eq_none.mp unreserved param member

theorem masksItems_of_run {file : String} {kind : SourceKind}
    {items : List Item} {arena after : Arena} {masked : List Item}
    {context later : MaskingContext}
    (ran : (maskItems file kind arena items).run context =
      (.ok (masked, after), later)) :
    MasksItems kind context arena items masked after later := by
  induction items generalizing arena context masked with
  | nil =>
      cases ran
      exact .nil
  | cons item rest inductionHypothesis =>
      unfold maskItems at ran
      split at ran
      · cases ‹_ = []›
      · rename_i function items same
        cases same
        obtain ⟨_, _, ⟨rfl⟩, ran⟩ := steps_of_run ran
        split at ran
        · rename_i selects
          obtain ⟨⟨masked, middle⟩, _, step, ran⟩ := steps_of_run ran
          obtain ⟨few, rfl, masks⟩ := masksFunction_of_run step
          obtain ⟨⟨maskedRest, final⟩, _, restRan, ran⟩ := steps_of_run ran
          cases ran
          exact .selected selects few masks (inductionHypothesis restRan)
        · rename_i unselected
          obtain ⟨⟨maskedRest, final⟩, _, restRan, ran⟩ := steps_of_run ran
          cases ran
          refine .skipped ?_ (inductionHypothesis restRan)
          rintro _ ⟨rfl⟩
          simpa using unselected
      · rename_i other items notFunction same
        cases same
        obtain ⟨⟨maskedRest, final⟩, _, restRan, ran⟩ := steps_of_run ran
        cases ran
        exact .skipped (fun function isFunction =>
          (notFunction function isFunction).elim)
          (inductionHypothesis restRan)

theorem masksProgram_of_run {program masked : Program}
    {context later : MaskingContext}
    (ran : (maskProgram program).run context = (.ok masked, later)) :
    MasksProgram context program masked later := by
  unfold maskProgram at ran
  split at ran
  · rename_i isLibrary
    cases ran
    exact .library (by simpa using isLibrary)
  · rename_i notLibrary
    obtain ⟨⟨items, arena⟩, _, steps, ran⟩ := steps_of_run ran
    cases ran
    exact .own (by simpa using notLibrary) (masksItems_of_run steps)

theorem masksPrograms_of_run {programs masked : List Program}
    {context later : MaskingContext}
    (ran : (maskPrograms programs).run context = (.ok masked, later)) :
    MasksPrograms context programs masked later := by
  induction programs generalizing context masked with
  | nil =>
      cases ran
      exact .nil
  | cons program rest inductionHypothesis =>
      obtain ⟨first, _, step, ran⟩ := steps_of_run ran
      obtain ⟨others, _, restRan, ran⟩ := steps_of_run ran
      cases ran
      exact .cons (masksProgram_of_run step) (inductionHypothesis restRan)

theorem masksPrograms_of_maskSources {programs masked : List Program}
    {context : MaskingContext}
    (succeeds : maskSources programs = (.ok masked, context)) :
    MasksPrograms (requiring programs) programs masked context :=
  masksPrograms_of_run succeeds

/-! ## Nodes and selection -/

theorem isSelected_congr {kind : SourceKind} {first second : MaskingContext}
    (same : first.required = second.required) (function : FunctionDecl) :
    isSelected kind first function = isSelected kind second function := by
  simp only [isSelected, MaskingContext.isRequired, same]

theorem MasksFunction.extends {arena after : Arena}
    {function masked : FunctionDecl}
    (masks : MasksFunction arena function masked after) :
    arena.Extends after := by
  cases masks with
  | plain => exact .refl arena
  | host => exact .refl arena
  | guarded =>
      obtain ⟨_, extended, -⟩ := withMask_spec function arena
      exact extended

section

variable {kind : SourceKind} {context later : MaskingContext}
  {arena after : Arena} {items masked : List Item}

theorem MasksItems.extends
    (masks : MasksItems kind context arena items masked after later) :
    arena.Extends after := by
  induction masks with
  | nil => exact .refl _
  | selected _ _ step _ inductionHypothesis =>
      exact step.extends.trans inductionHypothesis
  | skipped _ _ inductionHypothesis => exact inductionHypothesis

theorem MasksItems.required
    (masks : MasksItems kind context arena items masked after later) :
    later.required = context.required := by
  induction masks with
  | nil => rfl
  | selected _ _ _ _ inductionHypothesis => exact inductionHypothesis
  | skipped _ _ inductionHypothesis => exact inductionHypothesis

end

/-! ## Counterparts -/

/-- A function with a mask in place of its defaults and with guards before its
body. -/
def guarded (function : FunctionDecl) (body : Block) (ids : List StmtId) :
    FunctionDecl :=
  { function with
    params :=
      function.params.map withoutInitializer ++ [maskParam function.span]
    body := some { body with statements := ids ++ body.statements } }

/-- What a function of a program becomes that is over an arena when masking is
done. -/
inductive MaskedFunction (selected : FunctionDecl → Bool) (arena : Arena) :
    FunctionDecl → FunctionDecl → Prop where
  | kept {function : FunctionDecl}
      (plain : selected function = true → function.hasDefaults = false) :
      MaskedFunction selected arena function function
  | host {function : FunctionDecl} (selects : selected function = true)
      (noBody : function.body = none) :
      MaskedFunction selected arena function (withoutInitializers function)
  | guarded {function : FunctionDecl} {body : Block} {ids : List StmtId}
      (selects : selected function = true)
      (defaults : function.hasDefaults = true)
      (hasBody : function.body = some body)
      (few : function.params.length ≤ parameterLimit)
      (unreserved : ∀ param ∈ function.params,
        param.name.text ≠ maskParameter)
      (guards : Guards arena 0 function.params ids) :
      MaskedFunction selected arena function
        (Masking.guarded function body ids)

inductive MaskedItem (selected : FunctionDecl → Bool) (arena : Arena) :
    Item → Item → Prop where
  | function {function masked : FunctionDecl}
      (masks : MaskedFunction selected arena function masked) :
      MaskedItem selected arena (.function function) (.function masked)
  | other {item : Item} (notFunction : ∀ function, item ≠ .function function) :
      MaskedItem selected arena item item

/-- What a program that is no library becomes. -/
structure MaskedProgram (selected : FunctionDecl → Bool)
    (source target : Program) : Prop where
  path : target.path = source.path
  kind : target.kind = source.kind
  span : target.span = source.span
  arena : source.arena.Extends target.arena
  items : List.Forall₂ (MaskedItem selected target.arena) source.items
    target.items

theorem MaskedFunction.lasts {selected : FunctionDecl → Bool}
    {smaller larger : Arena} (extended : smaller.Extends larger)
    {function masked : FunctionDecl}
    (masks : MaskedFunction selected smaller function masked) :
    MaskedFunction selected larger function masked := by
  cases masks with
  | kept plain => exact .kept plain
  | host selects noBody => exact .host selects noBody
  | guarded selects defaults hasBody few unreserved guards =>
      exact .guarded selects defaults hasBody few unreserved
        (guards.lasts extended)

theorem MasksFunction.maskedFunction {selected : FunctionDecl → Bool}
    {arena after : Arena} {function masked : FunctionDecl}
    (masks : MasksFunction arena function masked after)
    (selects : selected function = true)
    (few : function.params.length ≤ parameterLimit) :
    MaskedFunction selected after function masked := by
  cases masks with
  | plain noDefaults => exact .kept fun _ => noDefaults
  | host _ noBody => exact .host selects noBody
  | guarded defaults hasBody unreserved =>
      obtain ⟨ids, _, guards, same⟩ := withMask_spec function arena
      obtain ⟨body, found⟩ := Option.isSome_iff_exists.mp hasBody
      rw [same, found]
      exact .guarded selects defaults found few unreserved guards

theorem MasksItems.maskedItems {kind : SourceKind}
    {context later : MaskingContext} {arena after : Arena}
    {items masked : List Item}
    (masks : MasksItems kind context arena items masked after later) :
    List.Forall₂ (MaskedItem (isSelected kind context) after) items
      masked := by
  induction masks with
  | nil => exact .nil
  | selected selects few step rest inductionHypothesis =>
      exact .cons
        (.function ((step.maskedFunction selects few).lasts rest.extends))
        inductionHypothesis
  | @skipped context _ _ _ item _ _ unselected rest inductionHypothesis =>
      refine .cons ?_ inductionHypothesis
      cases item with
      | function function =>
          refine .function (.kept fun selects => ?_)
          rw [unselected function rfl] at selects
          cases selects
      | _ => exact .other (by simp)

/-- What becomes of a program of a build whose required names are known. -/
inductive MaskedModule (context : MaskingContext) (source : Program) :
    Program → Prop where
  | library (isLibrary : source.kind = .library) :
      MaskedModule context source source
  | own {target : Program} (notLibrary : source.kind ≠ .library)
      (masks : MaskedProgram (isSelected source.kind context) source target) :
      MaskedModule context source target

theorem MaskedModule.congr {first second : MaskingContext}
    (same : first.required = second.required) {source target : Program}
    (masks : MaskedModule first source target) :
    MaskedModule second source target := by
  have selection : isSelected source.kind first =
      isSelected source.kind second := funext (isSelected_congr same)
  cases masks with
  | library isLibrary => exact .library isLibrary
  | own notLibrary masks => exact .own notLibrary (selection ▸ masks)

section

variable {context later : MaskingContext} {programs masked : List Program}
  {source target : Program}

/-- Every program of a build is masked, whatever came before it. -/
theorem MasksPrograms.modules
    (masks : MasksPrograms context programs masked later) :
    List.Forall₂ (MaskedModule context) programs masked := by
  induction masks with
  | nil => exact .nil
  | @cons context middle _ program first programs others step _
      inductionHypothesis =>
      cases step with
      | library isLibrary =>
          exact .cons (.library isLibrary) inductionHypothesis
      | own notLibrary steps =>
          refine .cons (.own notLibrary ?_)
            (inductionHypothesis.imp fun _ _ => .congr steps.required)
          exact ⟨rfl, rfl, rfl, steps.extends, steps.maskedItems⟩

theorem MasksPrograms.maskedProgram
    (masks : MasksPrograms context programs masked later)
    (paired : (source, target) ∈ programs.zip masked)
    (notLibrary : source.kind ≠ .library) :
    MaskedProgram (isSelected source.kind context) source target := by
  cases (List.forall₂_iff_zip.mp masks.modules).2 paired with
  | library isLibrary => exact (notLibrary isLibrary).elim
  | own _ masks => exact masks

end

/-! ## Lookups -/

/-- A function gains a mask: its counterpart has one more parameter. -/
def GainsMask (source target : Program) (function : FunctionDecl) : Prop :=
  ∃ masked : FunctionDecl,
    (Item.function function, Item.function masked) ∈
        source.items.zip target.items ∧
      masked.params.length = function.params.length + 1

/-- A function and the one that stands in its place afterwards. -/
structure Counterpart (selected : FunctionDecl → Bool)
    (source target : Program) (function masked : FunctionDecl) : Prop where
  paired : (Item.function function, Item.function masked) ∈
    source.items.zip target.items
  masks : MaskedFunction selected target.arena function masked

theorem MasksPrograms.notLibrary {context later : MaskingContext}
    {programs masked : List Program}
    (masks : MasksPrograms context programs masked later)
    {source target : Program} (paired : (source, target) ∈ programs.zip masked)
    {function : FunctionDecl} (gains : GainsMask source target function) :
    source.kind ≠ .library := by
  cases (List.forall₂_iff_zip.mp masks.modules).2 paired with
  | library =>
      obtain ⟨masked, kept, count⟩ := gains
      have equal : List.Forall₂ (· = ·) source.items source.items :=
        List.forall₂_same.mpr fun _ _ => rfl
      cases (List.forall₂_iff_zip.mp equal).2 kept
      omega
  | own notLibrary => exact notLibrary

section

variable {selected : FunctionDecl → Bool} {arena : Arena}
  {function masked : FunctionDecl} {source target : Program}

theorem MaskedFunction.name_eq
    (masks : MaskedFunction selected arena function masked) :
    masked.name = function.name := by
  cases masks <;> rfl

theorem MaskedFunction.resolvedName_eq
    (masks : MaskedFunction selected arena function masked) :
    masked.resolvedName = function.resolvedName := by
  cases masks with
  | kept => rfl
  | host => rfl
  | guarded _ _ hasBody =>
      simp [FunctionDecl.resolvedName, hasBody, Masking.guarded]

/-- What is read from other items than functions stays as it is. -/
theorem MaskedProgram.filterMap_items
    (masks : MaskedProgram selected source target) {Part : Type}
    {read : Item → Option Part}
    (noFunction : ∀ function, read (.function function) = none) :
    target.items.filterMap read = source.items.filterMap read := by
  have pairs := masks.items
  generalize source.items = items, target.items = maskedItems at pairs ⊢
  induction pairs with
  | nil => rfl
  | cons first rest inductionHypothesis =>
      cases first with
      | function =>
          rw [List.filterMap_cons_none (noFunction _),
            List.filterMap_cons_none (noFunction _), inductionHypothesis]
      | other =>
          rw [List.filterMap_cons, List.filterMap_cons, inductionHypothesis]

theorem MaskedProgram.classes_eq
    (masks : MaskedProgram selected source target) :
    target.classes = source.classes :=
  masks.filterMap_items fun _ => rfl

theorem MaskedProgram.imports_eq
    (masks : MaskedProgram selected source target) :
    target.imports = source.imports :=
  masks.filterMap_items fun _ => rfl

theorem MaskedProgram.class?_eq (masks : MaskedProgram selected source target)
    (name : String) : target.class? name = source.class? name := by
  rw [Program.class?, masks.classes_eq, Program.class?]

theorem counterparts_of_items {items maskedItems : List Item}
    (pairs : List.Forall₂ (MaskedItem selected target.arena) items maskedItems)
    (within : items.zip maskedItems ⊆ source.items.zip target.items) :
    List.Forall₂ (Counterpart selected source target)
      ({ source with items := items } : Program).functions
      ({ target with items := maskedItems } : Program).functions := by
  unfold Program.functions
  induction pairs with
  | nil => exact .nil
  | @cons item _ _ _ first rest inductionHypothesis =>
      rw [List.zip_cons_cons] at within
      obtain ⟨paired, others⟩ := List.cons_subset.mp within
      have tail := inductionHypothesis others
      cases first with
      | function masks => exact .cons ⟨paired, masks⟩ tail
      | other notFunction =>
          cases item with
          | function function => exact (notFunction function rfl).elim
          | _ => exact tail

theorem MaskedProgram.functions
    (masks : MaskedProgram selected source target) :
    List.Forall₂ (Counterpart selected source target) source.functions
      target.functions :=
  counterparts_of_items masks.items (List.Subset.refl _)

/-- Related lists have related first elements that pass a test, if related
elements pass their tests alike. -/
theorem find?_rel {Source Target : Type} {related : Source → Target → Prop}
    {sources : List Source} {targets : List Target}
    (pairs : List.Forall₂ related sources targets) (test : Source → Bool)
    (testTarget : Target → Bool)
    (same : ∀ {source target}, related source target →
      testTarget target = test source) :
    Option.Rel related (sources.find? test) (targets.find? testTarget) := by
  induction pairs with
  | nil => exact .none
  | cons first rest inductionHypothesis =>
      rw [List.find?_cons, List.find?_cons, same first]
      split
      · exact .some first
      · exact inductionHypothesis

/-- A name finds a function before and its counterpart after. -/
theorem MaskedProgram.callee?_rel
    (masks : MaskedProgram selected source target) (name : String) :
    Option.Rel (Counterpart selected source target) (source.callee? name)
      (target.callee? name) := by
  have resolved := find?_rel masks.functions
    (fun function => function.resolvedName == name)
    (fun function => function.resolvedName == name) fun pair =>
      congrArg (· == name) pair.masks.resolvedName_eq
  have declared := find?_rel masks.functions
    (fun function => function.name.text == name)
    (fun function => function.name.text == name) fun pair =>
      congrArg (·.text == name) pair.masks.name_eq
  unfold Program.callee? Program.function?
  revert resolved
  generalize source.functions.find? _ = first,
    target.functions.find? _ = second
  intro resolved
  cases resolved with
  | none => exact declared
  | some pair => exact .some pair

/-! ## Functions that gain a mask -/

/-- A function that gains a mask is processed and has a body and defaults. -/
theorem MaskedProgram.selected_of_gainsMask
    (masks : MaskedProgram selected source target)
    (gains : GainsMask source target function) :
    selected function = true ∧ function.hasDefaults = true ∧
      function.body.isSome = true := by
  obtain ⟨masked, paired, count⟩ := gains
  have related := (List.forall₂_iff_zip.mp masks.items).2 paired
  cases related with
  | function masked =>
      cases masked with
      | kept => omega
      | host => simp [withoutInitializers] at count
      | guarded selects defaults hasBody =>
          exact ⟨selects, defaults, by simp [hasBody]⟩
  | other notFunction => exact (notFunction function rfl).elim

/-- Under the name of a function that gains a mask there is the function with
its guards afterwards. -/
theorem MaskedProgram.callee?_guarded
    (masks : MaskedProgram selected source target) {name : String}
    (found : source.callee? name = some function)
    (gains : GainsMask source target function) :
    ∃ body ids, function.body = some body ∧
      function.params.length ≤ parameterLimit ∧
        (∀ param ∈ function.params, param.name.text ≠ maskParameter) ∧
          Guards target.arena 0 function.params ids ∧
            target.callee? name = some (guarded function body ids) := by
  obtain ⟨selects, defaults, someBody⟩ := masks.selected_of_gainsMask gains
  have rel := masks.callee?_rel name
  rw [found] at rel
  generalize target.callee? name = after at rel ⊢
  cases rel with
  | some pair =>
      obtain ⟨-, masked⟩ := pair
      cases masked with
      | kept plain =>
          rw [plain selects] at defaults
          cases defaults
      | host _ noBody =>
          rw [noBody] at someBody
          cases someBody
      | @guarded body ids _ _ hasBody few unreserved guards =>
          exact ⟨body, ids, hasBody, few, unreserved, guards, rfl⟩

/-! ## Simulation -/

theorem MaskedFunction.sameCall
    (masks : MaskedFunction selected arena function masked)
    (count : masked.params.length ≠ function.params.length + 1) :
    SameCall (some function) (some masked) := by
  cases masks with
  | kept => exact .same _
  | host _ noBody =>
      exact .host noBody noBody rfl (by simp [withoutInitializers])
  | guarded => simp [Masking.guarded] at count

/-- The masked program simulates the original one on stored points from which no
function is called by name that gains a mask. -/
theorem MaskedProgram.simulates
    (masks : MaskedProgram selected source target) {inside : Point → Prop}
    (stored : ∀ {point}, inside point → source.arena.Has point)
    (successors : ∀ {point next}, inside point →
      next ∈ source.successors point → inside next)
    (calls : ∀ {point name callee}, inside point →
      source.namedCallee? point = some name →
        source.callee? name = some callee → ¬ GainsMask source target callee) :
    Simulates source target inside where
  expr isInside := by rw [masks.arena.expr_eq (stored isInside)]
  stmt isInside := by rw [masks.arena.stmt_eq (stored isInside)]
  class? := masks.class?_eq
  callee {point name} isInside named := by
    have found := masks.callee?_rel name
    have plain := @calls point name
    generalize source.callee? name = first,
      target.callee? name = second at found plain
    cases found with
    | none => exact .same none
    | some pair =>
        exact pair.masks.sameCall fun count =>
          plain isInside named rfl ⟨_, pair.paired, count⟩
  successors := successors

end

end Masking

end PluginSurface
