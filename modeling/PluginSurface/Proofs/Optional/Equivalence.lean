import PluginSurface.Proofs.Optional.GuardRuns
import PluginSurface.Proofs.Optional.MaskedCalls
import PluginSurface.Proofs.Optional.Untouched

/-!
# Masked functions do what the original ones do

A call without some arguments evaluates their defaults while it binds the
parameters one by one. With a mask all parameters are bound at once, and the
guards then evaluate the same defaults in the same order. In between, the names
of the parameters that are still to be set are hidden, on the left because they
are not bound yet and on the right because they hold what the host passed.
-/

namespace PluginSurface

open Environment Eval Interpreter Masking

/-! ## What a default can come to -/

namespace Program

variable {program : Program} {name : String} {point next : Point}

theorem Contains.operand {id child : ExprId}
    (contains : program.Contains (.expr id))
    (member : child ∈ program.arena.operands id) :
    program.Contains (.expr child) := by
  have part {id child : ExprId} (contains : program.Contains (.expr id))
      (among : child ∈ (program.arena.expr id).node.children) :
      program.Contains (.expr child) :=
    .part contains (List.mem_map_of_mem among)
  unfold Arena.operands at member
  split at member
  · rename_i callee types arguments node
    have argument {child : ExprId} (among : child ∈ arguments) :
        program.Contains (.expr child) :=
      part contains (by simp [node, Expr.children, among])
    split at member
    · rename_i object property calleeNode
      rcases List.mem_cons.mp member with rfl | among
      · have callee : program.Contains (.expr callee) :=
          part contains (by simp [node, Expr.children])
        exact part callee (by simp [calleeNode, Expr.children])
      · exact argument among
    · exact argument member
  · exact part contains member

theorem Contains.evaluated (contains : program.Contains point)
    (member : next ∈ program.arena.evaluated point) :
    program.Contains next := by
  cases point with
  | expr id =>
      obtain ⟨child, among, rfl⟩ := List.mem_map.mp member
      exact contains.operand among
  | stmt id => exact .part contains member

/-- A name that no point of a program stands for is not touched. -/
theorem Contains.not_touches
    (nowhere : ∀ {point}, program.Contains point →
      name ∉ program.arena.names point)
    (contains : program.Contains point) : ¬ program.Touches name point := by
  intro touches
  induction touches with
  | here named => exact nowhere contains named
  | part member _ inductionHypothesis =>
      exact inductionHypothesis (contains.evaluated member)
  | created member _ inductionHypothesis =>
      exact inductionHypothesis (.item (mem_points_of_created member))

/-- A name that no initializer of a field mentions is only touched where it is
mentioned. -/
theorem Touches.mentions (touches : program.Touches name point)
    (fields : ∀ class_ ∈ program.classes,
      ∀ point ∈ class_.fields.flatMap FieldDecl.points,
        ¬ program.arena.Mentions name point) :
    program.arena.Mentions name point := by
  induction touches with
  | here named => exact .here named
  | part member _ inductionHypothesis => exact .part member inductionHypothesis
  | created member _ inductionHypothesis =>
      obtain ⟨class_, known, among⟩ := mem_fields_of_created member
      exact (fields class_ known _ among inductionHypothesis).elim

end Program

/-! ## Setting the parameters -/

/-- The names that are not the same on both sides before some parameters are
set: theirs and the one of the mask. -/
def Unset (params : List Param) (name : String) : Prop :=
  name = maskParameter ∨ name ∈ params.map fun param => param.name.text

def passed (mask : UInt64) (params : List Param) (fillers : List Value) :
    Bindings :=
  (maskParameter, .int mask.toInt64) :: bindingsOf params fillers

abbrev BeforeParams (mask : UInt64) (params : List Param)
    (fillers : List Value) : ScopeRelation :=
  CallScopes (Unset params) [] (passed mask params fillers)

section

variable {source target : Program} {mask : UInt64} {param : Param}
  {params : List Param} {filler : Value} {fillers : List Value}

theorem passed_unset {entry : String × Value}
    (member : entry ∈ passed mask params fillers) : Unset params entry.1 := by
  rcases List.mem_cons.mp member with rfl | among
  · exact .inl rfl
  · exact .inr (bindings_named among)

theorem hides_beforeParams :
    Hides (BeforeParams mask params fillers) (Unset params) NoName :=
  hides_callScopes (fun _ member => by cases member) fun _ member =>
    .inl (passed_unset member)

theorem holdsMask_of_beforeParams {left right : Environment}
    (scopes : BeforeParams mask params fillers left.scopes right.scopes) :
    HoldsMask mask right :=
  scopes.right_find? List.mem_cons_self

/-- The first parameter gets a value on the left, and on the right it gets the
same value or holds it already. -/
theorem leads_param {failed : ScopeRelation} {value : Value}
    {right : Eval Unit} {leftNext rightNext : Eval Flow}
    (unreserved : param.name.text ≠ maskParameter)
    (distinct : ((param :: params).map fun param => param.name.text).Nodup)
    (binds : Binds (passed mask (param :: params) (filler :: fillers))
      param.name.text value right)
    (leftMetered : Metered leftNext) (rightMetered : Metered rightNext)
    (next : Leads .free (BeforeParams mask params fillers) AnyScopes failed
      leftNext rightNext) :
    Leads .free (BeforeParams mask (param :: params) (filler :: fillers))
      AnyScopes failed
      (Eval.define param.name.text value >>= fun _ => leftNext)
      (right >>= fun _ => rightNext) := by
  have set : Leads .free
      (BeforeParams mask (param :: params) (filler :: fillers))
      (BeforeParams mask params fillers) failed
      (Eval.define param.name.text value) right := by
    refine leads_of_binds (binds_define [] _ value) binds ?_
      (fun _ member => by cases member) ?_
    · rintro other (isMask | among)
      · exact .inr (.inl isMask)
      · rcases List.mem_cons.mp among with rfl | later
        · exact .inl rfl
        · exact .inr (.inr later)
    · intro entry member
      rcases List.mem_cons.mp member with rfl | among
      · exact ⟨List.mem_cons_self, unreserved.symm⟩
      · refine ⟨List.mem_cons_of_mem _ (List.mem_cons_of_mem _ among), ?_⟩
        intro same
        have named := bindings_named among
        rw [same] at named
        exact (List.nodup_cons.mp distinct).1 named
  exact set.bind (fun _ _ => trivial) (fun _ => leftMetered)
    (fun _ => rightMetered) fun _ _ => next

/-! ## The guards -/

/-- The arguments and the fillers fit the parameters: what has no default is
supplied, and what is supplied is passed. -/
inductive Fits : List Param → List (Option Value) → List Value → Prop where
  | nil : Fits [] [] []
  | cons {param : Param} {params : List Param} {argument : Option Value}
      {arguments : List (Option Value)} {filler : Value} {fillers : List Value}
      (supplied : param.initializer = none → argument.isSome)
      (filled : ∀ value ∈ argument, filler = value)
      (rest : Fits params arguments fillers) :
      Fits (param :: params) (argument :: arguments) (filler :: fillers)

/-- Defaults neither come to the parameters that are still to be set nor to the
mask. -/
def DefaultsSafe (source : Program) (params : List Param) : Prop :=
  ∀ {param : Param} {later : List Param} {initializer : ExprId},
    param :: later <:+ params → param.initializer = some initializer →
      Safe source source.Contains (Unset (param :: later)) NoName
        (.expr initializer)

/-- What holds of the parameters from a position on before they are set. -/
structure Pending (source : Program) (mask : UInt64) (index : Nat)
    (params : List Param) (arguments : List (Option Value))
    (fillers : List Value) : Prop where
  small : index + params.length ≤ parameterLimit
  distinct : (params.map fun param => param.name.text).Nodup
  unreserved : ∀ param ∈ params, param.name.text ≠ maskParameter
  defaults : DefaultsSafe source params
  fits : Fits params arguments fillers
  marks : ∀ offset, mask.toNat.testBit (index + offset) =
    (arguments.map Option.isSome).getD offset false

theorem Pending.tail {index : Nat} {argument : Option Value}
    {arguments : List (Option Value)}
    (pending : Pending source mask index (param :: params)
      (argument :: arguments) (filler :: fillers)) :
    Pending source mask (index + 1) params arguments fillers where
  small := by
    have small := pending.small
    rw [List.length_cons] at small
    omega
  distinct := (List.nodup_cons.mp pending.distinct).2
  unreserved other member :=
    pending.unreserved other (List.mem_cons_of_mem param member)
  defaults isLater := pending.defaults (isLater.trans (List.suffix_cons _ _))
  fits := by
    cases pending.fits with
    | cons _ _ rest => exact rest
  marks offset := by
    rw [Nat.add_assoc, Nat.add_comm 1, pending.marks (offset + 1)]
    rfl

theorem Pending.marks_first {index : Nat} {argument : Option Value}
    {arguments : List (Option Value)}
    (pending : Pending source mask index (param :: params)
      (argument :: arguments) (filler :: fillers)) :
    mask.toNat.testBit index = argument.isSome :=
  pending.marks 0

theorem Pending.small_first {index : Nat} {arguments : List (Option Value)}
    (pending : Pending source mask index (param :: params) arguments
      fillers) : index < 64 := by
  have small := pending.small
  rw [List.length_cons, parameterLimit] at small
  omega

theorem leads_execAll (simulates : Simulates source target source.Contains)
    {statements : List StmtId} (safe : ∀ id ∈ statements,
      Safe source source.Contains (· = maskParameter) NoName (.stmt id))
    {held : Bindings} (leftBound rightBound : Nat) :
    Leads .free (CallScopes (Unset []) [] held) AnyScopes AnyScopes
      (execAll (interpreter source leftBound) statements)
      (execAll (interpreter target rightBound) statements) := by
  have alike : Alike .free source source.Contains
      (interpreter source leftBound) (interpreter target rightBound) :=
    alike_interpreter simulates trivial
  refine (alike.execAll safe).leads.weaken ?_ (fun _ => trivial)
    fun _ => trivial
  rintro _ _ ⟨alike, -, -⟩
  refine .cons (fun name visible => alike name ?_) .nil
  rintro (isMask | among)
  · exact visible isMask
  · cases among

theorem leads_default (simulates : Simulates source target source.Contains)
    {initializer : ExprId}
    (safe : Safe source source.Contains (Unset params) NoName
      (.expr initializer))
    (leftBound rightBound : Nat) :
    Leads .free (BeforeParams mask params fillers)
      (BeforeParams mask params fillers) AnyScopes
      (evalExpr source leftBound initializer)
      (evalExpr target rightBound initializer) := by
  have alike : Alike .free source source.Contains
      (interpreter source leftBound) (interpreter target rightBound) :=
    alike_interpreter simulates trivial
  exact (alike.expr hides_beforeParams safe).leads.weaken id id
    fun _ => trivial

theorem bindParams_cons_bind {Result : Type} (run : Interpreter)
    (function : FunctionDecl) (argument : Option Value)
    (arguments : List (Option Value)) (next : Eval Result) :
    (do
      bindParams run function (param :: params) (argument :: arguments)
      next) = (do
      let value ← paramValue run function param argument
      Eval.define param.name.text value
      bindParams run function params arguments
      next) := by
  rw [bindParams_cons]
  simp only [Eval.bind_assoc]
  rfl

/-- Binding parameters one by one and going on leads where the guards of these
parameters and going on lead. -/
theorem leads_guards (simulates : Simulates source target source.Contains)
    {statements : List StmtId} (safe : ∀ id ∈ statements,
      Safe source source.Contains (· = maskParameter) NoName (.stmt id))
    (function : FunctionDecl) {index : Nat} {ids : List StmtId}
    (guards : Guards target.arena index params ids)
    {arguments : List (Option Value)}
    (pending : Pending source mask index params arguments fillers)
    (leftBound rightBound : Nat) :
    Leads .free (BeforeParams mask params fillers) AnyScopes AnyScopes (do
      bindParams (interpreter source leftBound) function params arguments
      execAll (interpreter source leftBound) statements)
      (execAll (interpreter target rightBound) (ids ++ statements)) := by
  have leftMetered (params : List Param) (arguments : List (Option Value)) :
      Metered (do
        bindParams (interpreter source leftBound) function params arguments
        execAll (interpreter source leftBound) statements) :=
    (metered_bindParams _ _ _ _ _).bind fun _ => metered_execAll _ _ _
  have rightMetered (ids : List StmtId) :=
    metered_execAll target rightBound ids
  -- The parameters that are still to be set are hidden, and each step takes the
  -- first of them out of hiding. Only then may later defaults come to it.
  induction guards generalizing arguments fillers with
  | nil =>
      cases pending.fits
      exact leads_execAll simulates safe leftBound rightBound
  | @required index param params ids noDefault _ inductionHypothesis =>
      cases pending.fits with
      | @cons _ _ argument _ filler _ supplied filled =>
          obtain ⟨value, rfl⟩ :=
            Option.isSome_iff_exists.mp (supplied noDefault)
          obtain rfl := filled value rfl
          rw [bindParams_cons_bind, paramValue_some, Eval.pure_bind]
          exact leads_param (pending.unreserved param List.mem_cons_self)
            pending.distinct
            (binds_pure (List.mem_cons_of_mem _ List.mem_cons_self))
            (leftMetered _ _) (rightMetered _)
            (inductionHypothesis pending.tail)
  | @optional index param params initializer id ids default guard _
      inductionHypothesis =>
      have unreserved := pending.unreserved param List.mem_cons_self
      cases pending.fits with
      | @cons _ _ argument _ filler _ supplied filled =>
          rw [bindParams_cons_bind]
          have marked := pending.marks_first
          cases argument with
          | some value =>
              obtain rfl := filled value rfl
              rw [paramValue_some, Eval.pure_bind]
              refine Leads.after_right
                (passes_execAll_of_marked guard pending.small_first marked _
                  _)
                holdsMask_of_beforeParams ?_
              exact leads_param unreserved pending.distinct
                (binds_pure (List.mem_cons_of_mem _ List.mem_cons_self))
                (leftMetered _ _) (rightMetered _)
                (inductionHypothesis pending.tail)
          | none =>
              refine Leads.after_right
                (passes_execAll_of_unmarked guard pending.small_first marked _
                  _)
                holdsMask_of_beforeParams ?_
              have isDefault : paramValue (interpreter source leftBound)
                  function param none = evalExpr source leftBound initializer :=
                by simp only [paramValue, default, interpreter]
              rw [isDefault]
              refine (leads_default simulates
                (pending.defaults (List.suffix_refl _) default) _ _).bind
                (fun _ _ => trivial)
                (fun _ => (Metered.updateEnvironment _).bind fun _ =>
                  leftMetered _ _)
                (fun _ => (Metered.store _ _).bind fun _ => rightMetered _)
                fun value _ => ?_
              exact leads_param unreserved pending.distinct
                (binds_store (List.mem_cons_of_mem _ List.mem_cons_self) value)
                (leftMetered _ _) (rightMetered _)
                (inductionHypothesis pending.tail)

/-! ## The body -/

theorem Fits.length_eq {arguments : List (Option Value)}
    (fits : Fits params arguments fillers) :
    arguments.length = params.length ∧ fillers.length = params.length := by
  induction fits with
  | nil => exact ⟨rfl, rfl⟩
  | cons _ _ _ inductionHypothesis =>
      simp only [List.length_cons, inductionHypothesis, and_self]

theorem beforeParams_bindAll (span : Span)
    (count : fillers.length = params.length)
    (distinct : (params.map fun param => param.name.text).Nodup)
    (unreserved : ∀ param ∈ params, param.name.text ≠ maskParameter) :
    BeforeParams mask params fillers [[]]
      [bindAll [] (maskedBindings mask span params fillers)] := by
  refine .single (fun name visible => ?_) (fun _ member => by cases member)
    (holds_maskedBindings span count distinct unreserved)
  rw [find?_bindAll_of_not_mem]
  rw [names_maskedBindings span count, List.mem_append, List.mem_singleton]
  rintro (among | isMask)
  · exact visible (.inr among)
  · exact visible (.inl isMask)

theorem leads_runBody (simulates : Simulates source target source.Contains)
    {function : FunctionDecl} {body : Block}
    (hasBody : function.body = some body)
    (safe : ∀ id ∈ body.statements,
      Safe source source.Contains (· = maskParameter) NoName (.stmt id))
    {ids : List StmtId} (guards : Guards target.arena 0 function.params ids)
    {arguments : List (Option Value)}
    (pending : Pending source mask 0 function.params arguments fillers)
    (leftBound rightBound : Nat) :
    Leads .free FreshScopes AnyScopes AnyScopes
      (runBody (interpreter source leftBound) function body arguments)
      (runBody (interpreter target rightBound) (guarded function body ids)
        { body with statements := ids ++ body.statements }
        ((fillers ++ [Value.int mask.toInt64]).map some)) := by
  have count := pending.fits.length_eq.2
  have passes : Leads .free FreshScopes
      (BeforeParams mask function.params fillers) AnyScopes (pure ())
      (bindParams (interpreter target rightBound) (guarded function body ids)
        (guarded function body ids).params
        ((fillers ++ [Value.int mask.toInt64]).map some)) := by
    exact leads_of_endsIn endsIn_pure (endsIn_bindParams_guarded _ _ _ _ count)
      (beforeParams_bindAll function.span count pending.distinct
        pending.unreserved)
  have bodies := leads_guards simulates safe function guards pending leftBound
    rightBound
  have metered := metered_runBody source leftBound hasBody arguments
  have finished := bodies.bind (fun _ _ => trivial) metered_returned
    metered_returned fun flow _ => leads_returned (fun _ => trivial) flow
  rw [runBody_eq] at metered ⊢
  rw [runBody_eq]
  rw [Eval.bind_assoc] at finished
  exact passes.bind (fun _ _ => trivial) (fun _ => metered)
    (fun _ => (metered_execAll _ _ _).bind metered_returned) fun _ _ => finished

/-! ## The whole call -/

/-- What masking asks of a program and of a function that gains a mask so that
the function does the same afterwards. -/
structure Separate (source target : Program) (function : FunctionDecl) :
    Prop where
  distinct : (function.params.map fun param => param.name.text).Nodup
  /-- No default mentions its own parameter or a later one. -/
  defaults : ∀ {param : Param} {later : List Param} {initializer : ExprId},
    param :: later <:+ function.params →
      param.initializer = some initializer → ∀ other ∈ param :: later,
        ¬ source.arena.Mentions other.name.text (.expr initializer)
  maskUnused : ∀ {point : Point}, source.Contains point →
    maskParameter ∉ source.arena.names point
  fields : ∀ class_ ∈ source.classes,
    ∀ point ∈ class_.fields.flatMap FieldDecl.points,
      ∀ param ∈ function.params,
        ¬ source.arena.Mentions param.name.text point
  /-- No call reaches a function that gains a mask. -/
  calls : ∀ {point : Point} {name : String} {callee : FunctionDecl},
    source.Contains point → source.namedCallee? point = some name →
      source.callee? name = some callee → ¬ GainsMask source target callee

theorem Separate.defaultsSafe {function : FunctionDecl}
    (separate : Separate source target function)
    (known : ∀ point ∈ function.entries, source.Contains point) :
    DefaultsSafe source function.params := by
  intro param later initializer isLater default
  have contains : source.Contains (.expr initializer) := by
    refine known _ (List.mem_append_left _ (List.mem_flatMap.mpr
      ⟨param, isLater.subset List.mem_cons_self, ?_⟩))
    simp [Param.points, optionalPoints, default]
  refine .of_avoids contains ?_
  rintro name (rfl | among) touches
  · exact contains.not_touches separate.maskUnused touches
  · obtain ⟨other, member, rfl⟩ := List.mem_map.mp among
    refine separate.defaults isLater default other member
      (touches.mentions fun class_ owned point initial => ?_)
    exact separate.fields class_ owned point initial other
      (isLater.subset member)

theorem Separate.safeBody {function : FunctionDecl}
    (separate : Separate source target function)
    (known : ∀ point ∈ function.entries, source.Contains point) {body : Block}
    (hasBody : function.body = some body) {id : StmtId}
    (member : id ∈ body.statements) :
    Safe source source.Contains (· = maskParameter) NoName (.stmt id) := by
  have contains : source.Contains (.stmt id) := by
    refine known _ (List.mem_append_right _ ?_)
    simp [hasBody, Block.points, member]
  refine .of_avoids contains ?_
  rintro _ rfl
  exact contains.not_touches separate.maskUnused

end

/-- A function that gains a mask has the same outcome, called with some of its
arguments in a program, and called with all of them and the mask of those in the
masked form. Both calls leave the same global variables, if they stay within
their gas. -/
theorem call_eq_callWithMask {programs masked : List Program}
    {context : MaskingContext} {source target : Program}
    (closed : ∀ program ∈ programs, program.Closed)
    (succeeds : maskSources programs = (.ok masked, context))
    (paired : (source, target) ∈ programs.zip masked)
    (notLibrary : source.kind ≠ .library) {name : String}
    {function : FunctionDecl} (found : source.callee? name = some function)
    (gains : GainsMask source target function)
    (separate : Separate source target function)
    {arguments : List (Option Value)} {fillers : List Value}
    (fits : Fits function.params arguments fillers) :
    ∃ mask, Mask.ofSupplied (arguments.map Option.isSome) = .ok mask ∧
      (∀ gasLimit, Machine.start target gasLimit =
        Machine.start source gasLimit) ∧
      ∀ machine : Machine,
        let plain := machine.call source name arguments
        let withMask := machine.callWithMask target name fillers mask
        WithinGas plain → WithinGas withMask →
          plain.1 = withMask.1 ∧
            plain.2.environment.globals =
              withMask.2.environment.globals := by
  have masks := (masksPrograms_of_maskSources succeeds).maskedProgram paired
    notLibrary
  obtain ⟨body, ids, hasBody, few, unreserved, guards, foundGuarded⟩ :=
    masks.callee?_guarded found gains
  have isClosed := closed source (List.of_mem_zip paired).1
  have simulates : Simulates source target source.Contains :=
    masks.simulates (fun contains => contains.has isClosed)
      (fun contains member => contains.successor member) separate.calls
  have known : ∀ point ∈ function.entries, source.Contains point :=
    fun point member => .item (Program.mem_points_of_function
      (Program.mem_functions_of_callee? found) member)
  have startCalls : CallsNoMasked source target source.globalPoints :=
    fun reaches => separate.calls (reaches.contains fun _ member =>
      .item (Program.mem_points_of_globalPoints member))
  have starts := start_eq masks (simulates_reaches masks isClosed
    (fun _ => Program.mem_points_of_globalPoints) startCalls)
    (List.Subset.refl _)
  have counts := fits.length_eq
  have fitsMask : (arguments.map Option.isSome).length ≤ Mask.width := by
    rw [List.length_map, counts.1]
    exact Nat.le_trans few (by decide)
  obtain ⟨mask, made⟩ : ∃ mask,
      Mask.ofSupplied (arguments.map Option.isSome) = .ok mask := by
    unfold Mask.ofSupplied
    rw [if_neg (Nat.not_lt.mpr fitsMask)]
    exact ⟨_, rfl⟩
  refine ⟨mask, made, starts, fun machine => ?_⟩
  have pending : Pending source mask 0 function.params arguments fillers :=
    { small := by rw [Nat.zero_add]; exact few
      distinct := separate.distinct
      unreserved := unreserved
      defaults := separate.defaultsSafe known
      fits := fits
      marks := fun offset => by
        rw [Nat.zero_add, Mask.testBit_ofSupplied made] }
  rw [call_of_found found,
    callWithMask_of_found foundGuarded (takesMask_guarded _ _ _)]
  refine Outcomes.run_eq (Leads.bind (leads_invoke hasBody rfl ?_ ?_
    (leads_runBody simulates hasBody
      (fun id member => separate.safeBody known hasBody member) guards pending
      _ _)) (fun _ _ => trivial) (fun _ => .pure _) (fun _ => .pure _)
      (fun result _ => (Agree.pure result.1).leads) machine machine
      (Machines.refl .free machine))
  · exact Nat.le_of_eq counts.1
  · simp [guarded, counts.2]

namespace Sample

theorem gainsMask_f : GainsMask (source false) (target false) f :=
  ⟨(withMask f arena).1, List.mem_cons_self, rfl⟩

theorem among_of_contains {point : Point}
    (contains : (source false).Contains point) :
    point ∈ [Point.expr ⟨0⟩, .stmt ⟨0⟩, .expr ⟨1⟩, .stmt ⟨1⟩, .expr ⟨2⟩] :=
  contains.among (by decide) (by decide)

theorem separate_f : Separate (source false) (target false) f where
  distinct := by decide
  defaults {param later initializer} isLater default other member mentions := by
    rcases List.suffix_cons_iff.mp isLater with same | isLater
    · cases same
      cases default
      rcases mentions with ⟨named⟩ | ⟨part, _⟩
      · cases named
      · cases part
    · cases List.suffix_nil.mp isLater
  maskUnused {point} contains := by
    have unused : ∀ point ∈ [Point.expr ⟨0⟩, .stmt ⟨0⟩, .expr ⟨1⟩, .stmt ⟨1⟩,
        .expr ⟨2⟩], maskParameter ∉ (source false).arena.names point := by
      decide
    exact unused point (among_of_contains contains)
  fields class_ member := by cases member
  calls {point name callee} contains named := by
    have noCalls : ∀ point ∈ [Point.expr ⟨0⟩, .stmt ⟨0⟩, .expr ⟨1⟩, .stmt ⟨1⟩,
        .expr ⟨2⟩], (source false).namedCallee? point = none := by
      decide
    rw [noCalls point (among_of_contains contains)] at named
    cases named

end Sample

/-- A function whose only parameter has a constant for a default, called without
arguments. -/
theorem call_eq_callWithMask_of_constant :
    ∃ mask, Mask.ofSupplied [false] = .ok mask ∧
      (∀ gasLimit, Machine.start (Sample.target false) gasLimit =
        Machine.start (Sample.source false) gasLimit) ∧
      ∀ machine : Machine,
        let plain := machine.call (Sample.source false) "f" [none]
        let withMask :=
          machine.callWithMask (Sample.target false) "f" [.int 9] mask
        WithinGas plain → WithinGas withMask →
          plain.1 = withMask.1 ∧
            plain.2.environment.globals =
              withMask.2.environment.globals := by
  have found : (Sample.source false).callee? "f" = some Sample.f := rfl
  have fits : Fits Sample.f.params [none] [.int 9] :=
    .cons (fun required => by cases required)
      (fun _ supplied => by cases supplied) .nil
  exact call_eq_callWithMask (by decide) (Sample.maskSources_source false)
    List.mem_cons_self (by decide) found Sample.gainsMask_f Sample.separate_f
    fits

end PluginSurface
