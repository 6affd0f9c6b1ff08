import PluginSurface.Proofs.Eval.Congruence

/-!
# Frames

Whether it gives a value or a fault, an evaluation leaves as many local scopes
as it found, with the same names in each, the same global names and the same
depth. Statements may define names, but only in the innermost scope, which is
closed again with the block or the call that opened it. A call moreover leaves
the local variables of its caller as they are and does not depend on them.
-/

namespace PluginSurface

open Eval

/-! ## What a computation leaves -/

namespace Eval

variable {Result Next : Type} {kept : Machine → Machine → Prop}

/-- However a computation ends, the machine that it leaves is related to the one
it started from. -/
def Leaves (kept : Machine → Machine → Prop)
    (computation : Eval Result) : Prop :=
  ∀ ⦃machine : Machine⦄ ⦃outcome : Outcome Result⦄,
    computation machine = some outcome → kept machine outcome.2

namespace Leaves

section

variable (reflexive : ∀ machine, kept machine machine)

include reflexive

theorem pure (result : Result) : Leaves kept (Pure.pure result) := by
  rintro machine _ ⟨rfl⟩
  exact reflexive machine

theorem ofExcept (outcome : Except Fault Result) :
    Leaves kept (Eval.ofExcept outcome) := by
  rintro machine _ ⟨rfl⟩
  exact reflexive machine

theorem inspect (view : Machine → Result) :
    Leaves kept (Eval.inspect view) := by
  rintro machine _ ⟨rfl⟩
  exact reflexive machine

theorem load (place : Place) : Leaves kept (Eval.load place) := by
  rintro machine _ ⟨rfl⟩
  exact reflexive machine

theorem variableValue (name : String) :
    Leaves kept (Eval.variableValue name) := by
  intro machine outcome ran
  unfold Eval.variableValue at ran
  split at ran <;> cases ran <;> exact reflexive machine

theorem lookUp (program : Program) (name : String) :
    Leaves kept (Interpreter.lookUp program name) := by
  unfold Interpreter.lookUp
  split
  · exact pure reflexive _
  · exact ofExcept reflexive (.error _)

end

theorem run (reflexive : ∀ machine, kept machine machine)
    {bounded : Nat → Eval Result}
    (leaves : ∀ bound, Leaves kept (bounded bound)) :
    Leaves kept fun machine => some (machine.run bounded) := by
  rintro machine _ ⟨rfl⟩
  unfold Machine.run
  rcases ran : bounded machine.stepBound machine with _ | outcome
  · exact reflexive machine
  · exact leaves _ ran

theorem attempt {body : Eval Result} (leaves : Leaves kept body) :
    Leaves kept (Eval.attempt body) := by
  intro machine outcome ran
  unfold Eval.attempt at ran
  split at ran <;> cases ran
  all_goals
    rename_i step
    exact leaves step

section

variable (transitive : ∀ ⦃first second third : Machine⦄, kept first second →
  kept second third → kept first third)

include transitive

theorem bind {first : Eval Result} {next : Result → Eval Next}
    (before : Leaves kept first) (after : ∀ result, Leaves kept (next result)) :
    Leaves kept (first >>= next) := by
  intro machine outcome ran
  rcases bind_cases ran with ⟨fault, middle, step, rfl⟩ |
    ⟨result, middle, step, ran⟩
  · exact before step
  · exact transitive (before step) (after result ran)

theorem repeatWhile (reflexive : ∀ machine, kept machine machine)
    {condition : Eval Value} {body : Eval Flow}
    (tested : Leaves kept condition) (repeated : Leaves kept body)
    (bound : Nat) : Leaves kept (Eval.repeatWhile condition body bound) := by
  induction bound with
  | zero =>
      intro machine outcome ran
      cases ran
  | succ bound inductionHypothesis =>
      rw [repeatWhile_succ]
      refine bind transitive tested fun value => ?_
      split
      · refine bind transitive repeated fun flow => ?_
        cases flow with
        | normal => exact inductionHypothesis
        | «return» value => exact pure reflexive _
      · exact pure reflexive _

variable {program : Program} {invocation : Interpreter.Invocation}

theorem hostCall (reflexive : ∀ machine, kept machine machine)
    (call : ∀ function receiver arguments,
      Leaves kept (invocation function receiver arguments))
    (name : String) (arguments : List (Option Value)) :
    Leaves kept
      (Interpreter.hostCall program invocation name arguments) := by
  refine bind transitive (lookUp reflexive program name) fun function => ?_
  exact bind transitive (call function none arguments)
    fun result => pure reflexive _

theorem hostCallWithMask (reflexive : ∀ machine, kept machine machine)
    (call : ∀ function receiver arguments,
      Leaves kept (invocation function receiver arguments))
    (name : String) (arguments : List Value) (mask : UInt64) :
    Leaves kept (Interpreter.hostCallWithMask program invocation name arguments
      mask) := by
  refine bind transitive (lookUp reflexive program name) fun function => ?_
  split
  · exact bind transitive (call function none _) fun result => pure reflexive _
  · exact ofExcept reflexive (.error _)

end

end Leaves

end Eval

/-! ## Names in scopes -/

/-- The names that a scope binds. -/
def boundNames (scope : Scope) : String → Bool :=
  scope.contains

theorem boundNames_insert {scope : Scope} {name : String}
    (bound : scope.contains name = true) (value : Value) :
    boundNames (scope.insert name value) = boundNames scope := by
  funext other
  unfold boundNames
  rw [Dict.contains_eq, Dict.contains_eq, Dict.find?_insert]
  by_cases same : other = name
  · rw [if_pos same, same, ← Dict.contains_eq, bound]
    rfl
  · rw [if_neg same]

theorem Environment.map_boundNames_setIn (name : String) (value : Value)
    (scopes : List Scope) :
    (setIn name value scopes).map boundNames = scopes.map boundNames := by
  induction scopes with
  | nil => rfl
  | cons scope rest inductionHypothesis =>
      unfold setIn
      by_cases bound : scope.contains name = true
      · rw [if_pos bound, List.map_cons, List.map_cons,
          boundNames_insert bound]
      · rw [if_neg bound, List.map_cons, List.map_cons, inductionHypothesis]

namespace Machine

/-- Two machines with the same depth, the same global names and the same names
in each local scope. So they have equally many local scopes. -/
structure SameFrame (before after : Machine) : Prop where
  depth : after.depth = before.depth
  globals : boundNames after.environment.globals =
    boundNames before.environment.globals
  scopes : after.environment.scopes.map boundNames =
    before.environment.scopes.map boundNames

/-- Two machines with the same depth, the same global names and the same names
in each local scope but the innermost one, which there is in both. -/
structure SameOuterFrame (before after : Machine) : Prop where
  depth : after.depth = before.depth
  globals : boundNames after.environment.globals =
    boundNames before.environment.globals
  outer : after.environment.scopes.tail.map boundNames =
    before.environment.scopes.tail.map boundNames
  open_ : after.environment.scopes ≠ []

namespace SameFrame

theorem refl (machine : Machine) : SameFrame machine machine :=
  ⟨rfl, rfl, rfl⟩

theorem trans ⦃first second third : Machine⦄ (left : SameFrame first second)
    (right : SameFrame second third) : SameFrame first third :=
  ⟨right.depth.trans left.depth, right.globals.trans left.globals,
    right.scopes.trans left.scopes⟩

theorem length_eq {before after : Machine} (same : SameFrame before after) :
    after.environment.scopes.length = before.environment.scopes.length := by
  have lengths := congrArg List.length same.scopes
  simpa using lengths

theorem outer {before after : Machine} (same : SameFrame before after)
    (isOpen : before.environment.scopes ≠ []) :
    SameOuterFrame before after := by
  have tails := congrArg List.tail same.scopes
  refine ⟨same.depth, same.globals, by simpa using tails, ?_⟩
  intro none
  have length := same.length_eq
  rw [none] at length
  exact isOpen (List.length_eq_zero_iff.mp length.symm)

end SameFrame

/-- In an open scope, the frame stays the same up to the innermost scope. -/
def KeepsOuterFrame (before after : Machine) : Prop :=
  before.environment.scopes ≠ [] → SameOuterFrame before after

theorem KeepsOuterFrame.refl (machine : Machine) :
    KeepsOuterFrame machine machine :=
  fun isOpen => ⟨rfl, rfl, rfl, isOpen⟩

theorem KeepsOuterFrame.trans ⦃first second third : Machine⦄
    (left : KeepsOuterFrame first second)
    (right : KeepsOuterFrame second third) : KeepsOuterFrame first third := by
  intro isOpen
  have before := left isOpen
  have after := right before.open_
  exact ⟨after.depth.trans before.depth, after.globals.trans before.globals,
    after.outer.trans before.outer, after.open_⟩

end Machine

open Machine

theorem sameFrame_set (machine : Machine) (name : String) (value : Value) :
    SameFrame machine
      { machine with environment := machine.environment.set name value } := by
  unfold Environment.set
  split
  · exact ⟨rfl, rfl, Environment.map_boundNames_setIn _ _ _⟩
  · split
    · rename_i bound
      exact ⟨rfl, boundNames_insert bound value, rfl⟩
    · exact .refl machine

namespace Eval

variable {Result : Type}

/-! ## Elementary steps -/

theorem leaves_sameFrame_tick : Leaves SameFrame tick := by
  intro machine outcome ran
  unfold tick at ran
  dsimp only at ran
  split at ran <;> cases ran <;> exact ⟨rfl, rfl, rfl⟩

theorem leaves_sameFrame_store (place : Place) (value : Value) :
    Leaves SameFrame (store place value) := by
  intro machine outcome ran
  have after : SameFrame machine { machine with
      environment := (machine.environment.store place value).2 } := by
    unfold Environment.store
    split
    · exact sameFrame_set machine _ _
    · exact .refl machine
  unfold store at ran
  dsimp only at ran
  split at ran <;> cases ran <;> exact after

theorem leaves_keepsOuterFrame_define (name : String) (value : Value) :
    Leaves KeepsOuterFrame (define name value) := by
  rintro ⟨⟨globals, scopes⟩, gas, limit, depth⟩ _ ⟨rfl⟩ isOpen
  cases scopes with
  | nil => exact (isOpen rfl).elim
  | cons innermost rest => exact ⟨rfl, rfl, rfl, nofun⟩

/-- What is kept outside of the innermost scope is kept by a scope of its
own. -/
theorem leaves_sameFrame_inScope {body : Eval Result}
    (leaves : Leaves KeepsOuterFrame body) :
    Leaves SameFrame (inScope body) := by
  intro machine outcome ran
  unfold inScope at ran
  split at ran <;> cases ran
  rename_i step
  have inner := leaves step (by simp [Environment.push])
  exact ⟨inner.depth, inner.globals, inner.outer⟩

theorem leaves_sameFrame_inCall {body : Eval Result}
    (leaves : Leaves KeepsOuterFrame body) :
    Leaves SameFrame (inCall body) := by
  intro machine outcome ran
  unfold inCall at ran
  dsimp only at ran
  split at ran <;> cases ran
  rename_i step
  have inner := leaves step (by simp [Environment.entered])
  exact ⟨rfl, inner.globals, rfl⟩

theorem Leaves.keepsOuterFrame {computation : Eval Result}
    (leaves : Leaves SameFrame computation) :
    Leaves KeepsOuterFrame computation :=
  fun _ _ ran isOpen => (leaves ran).outer isOpen

/-- Expressions keep the frame, and statements keep it up to the innermost
scope. -/
theorem congruence_sameFrame :
    Congruence (fun _ left _ => Leaves SameFrame left)
      (fun _ left _ => Leaves KeepsOuterFrame left) where
  pure result := .pure SameFrame.refl result
  ofExcept _ := .ofExcept SameFrame.refl _
  variableValue name := .variableValue SameFrame.refl name
  binding _ := .inspect SameFrame.refl _
  load place := .load SameFrame.refl place
  store place value := leaves_sameFrame_store place value
  define name value := leaves_keepsOuterFrame_define name value
  bind first second := .bind SameFrame.trans first second
  bindDefining first second := .bind KeepsOuterFrame.trans first second
  weaken leaves := leaves.keepsOuterFrame
  inScope leaves := (leaves_sameFrame_inScope leaves).keepsOuterFrame

end Eval

/-! ## Calls -/

namespace Interpreter

variable {run : Interpreter}

/-- The parts of a program keep the frame. -/
abbrev KeepsFrames (run : Interpreter) : Prop :=
  PartsRelated (fun _ left _ => Leaves SameFrame left)
    (fun _ left _ => Leaves KeepsOuterFrame left) run run

theorem leaves_sameFrame_enter {frame : Eval (Value × Option Value)}
    (leaves : Leaves KeepsOuterFrame frame) :
    Leaves SameFrame (enter frame) := by
  refine .bind SameFrame.trans (.inspect SameFrame.refl _) fun depth => ?_
  split
  · exact .ofExcept SameFrame.refl (.error _)
  · exact leaves_sameFrame_inCall leaves

theorem KeepsFrames.invoke (parts : KeepsFrames run) (function : FunctionDecl)
    (receiver : Option Value) (arguments : List (Option Value)) :
    Leaves SameFrame (invoke run function receiver arguments) := by
  rw [invoke_eq_invokeBy]
  exact parts.invokeBy congruence_sameFrame congruence_sameFrame enter enter
    leaves_sameFrame_enter function receiver arguments

theorem KeepsFrames.steps (parts : KeepsFrames run) (program : Program) :
    StepsRelated program (fun _ left _ => Leaves SameFrame left)
      (fun _ left _ => Leaves KeepsOuterFrame left) run run
      (Interpreter.invoke run) (Interpreter.invoke run) where
  toPartsRelated := parts
  call function receiver arguments := parts.invoke function receiver arguments
  place id := parts.placeAt congruence_sameFrame program (.inl nofun)
  settle id _ :=
    (parts.placeAt congruence_sameFrame program (.inl nofun)).attempt
  loop condition body := by
    have tested := (parts.expr condition).keepsOuterFrame
    refine .bind KeepsOuterFrame.trans (.inspect KeepsOuterFrame.refl _)
      fun bound => ?_
    exact .repeatWhile KeepsOuterFrame.trans KeepsOuterFrame.refl tested
      (parts.stmt body) bound

theorem keepsFrames_interpreter (program : Program) (bound : Nat) :
    KeepsFrames (interpreter program bound) := by
  induction bound with
  | zero => exact ⟨fun _ => nofun, fun _ => nofun⟩
  | succ bound inductionHypothesis =>
      rw [interpreter_succ]
      exact (inductionHypothesis.steps program).parts congruence_sameFrame
        leaves_sameFrame_tick

end Interpreter

/-! ## What a call depends on -/

/-- What the host sees of an outcome: the result, the global variables and the
gas that was used. -/
def Outcome.effect {Result : Type} (outcome : Outcome Result) :
    Except Fault Result × Scope × Nat :=
  (outcome.1, outcome.2.environment.globals, outcome.2.gas)

/-- Two machines with the same local variables. -/
def SameLocals (before after : Machine) : Prop :=
  after.environment.scopes = before.environment.scopes

theorem SameLocals.refl (machine : Machine) : SameLocals machine machine :=
  rfl

theorem SameLocals.trans ⦃first second third : Machine⦄
    (left : SameLocals first second) (right : SameLocals second third) :
    SameLocals first third :=
  Eq.trans right left

/-- A computation that keeps the frame and all values of local variables, and
whose effect does not depend on the local variables. -/
structure Isolated {Result : Type} (computation : Eval Result) : Prop where
  frame : Leaves SameFrame computation
  locals : Leaves SameLocals computation
  effect : ∀ left right : Machine,
    left.environment.globals = right.environment.globals →
      left.gas = right.gas → left.gasLimit = right.gasLimit →
        left.depth = right.depth →
          (computation left).map Outcome.effect =
            (computation right).map Outcome.effect

section

variable {Result : Type} {computation : Eval Result}

/-- Evaluations that keep step have the same effect. -/
theorem Eval.Outcomes.effect_eq {done failed : ScopeRelation}
    {left right : Ending Result}
    (outcomes : Outcomes .lockstep done failed left right) :
    left.map Outcome.effect = right.map Outcome.effect := by
  cases outcomes with
  | done machines =>
      simp only [Option.map_some, Outcome.effect, machines.globals,
        machines.meters.1]
  | failed machines =>
      simp only [Option.map_some, Outcome.effect, machines.globals,
        machines.meters.1]
  | outOfSteps => rfl
  | stopped isFree => cases isFree

/-- Evaluations that agree over any scopes have the same effect. -/
theorem effect_eq_of_agree
    (agree : Agree .lockstep Environment.AnyScopes computation computation)
    (left right : Machine)
    (globals : left.environment.globals = right.environment.globals)
    (gas : left.gas = right.gas) (limit : left.gasLimit = right.gasLimit)
    (depth : left.depth = right.depth) :
    (computation left).map Outcome.effect =
      (computation right).map Outcome.effect := by
  have machines : Machines .lockstep Environment.AnyScopes left right :=
    ⟨globals, trivial, depth, gas, limit⟩
  exact (agree.leads _ _ machines).effect_eq

/-- With the bound that the gas provides, a computation is isolated if it is
so with every bound. -/
theorem Isolated.run {bounded : Nat → Eval Result}
    (isolated : ∀ bound, Isolated (bounded bound)) :
    Isolated fun machine => some (machine.run bounded) where
  frame := .run SameFrame.refl fun bound => (isolated bound).frame
  locals := .run SameLocals.refl fun bound => (isolated bound).locals
  effect := by
    intro left right globals gas limit depth
    have sameBound : left.stepBound = right.stepBound := by
      unfold Machine.stepBound
      rw [gas, limit]
    have same := (isolated right.stepBound).effect left right globals gas
      limit depth
    unfold Machine.run
    rw [sameBound]
    rcases leftRan : bounded right.stepBound left with _ | leftOutcome <;>
      rcases rightRan : bounded right.stepBound right with _ | rightOutcome <;>
      rw [leftRan, rightRan] at same
    · simp only [Option.getD_none, Option.map_some, Outcome.effect, globals,
        gas]
    · cases same
    · cases same
    · exact same

end

/-! ### Locals -/

theorem leaves_sameLocals_inCall {Result : Type} (body : Eval Result) :
    Leaves SameLocals (inCall body) := by
  intro machine outcome ran
  unfold inCall at ran
  dsimp only at ran
  split at ran <;> cases ran
  rfl

theorem leaves_sameLocals_invoke (run : Interpreter) (function : FunctionDecl)
    (receiver : Option Value) (arguments : List (Option Value)) :
    Leaves SameLocals
      (Interpreter.invoke run function receiver arguments) := by
  have failed (fault : Fault) :
      Leaves SameLocals (fail fault : Eval (Value × Option Value)) :=
    .ofExcept SameLocals.refl (.error fault)
  unfold Interpreter.invoke
  split
  · exact failed _
  · split
    · exact failed _
    · refine .bind SameLocals.trans (.inspect SameLocals.refl _) fun depth => ?_
      split
      · exact failed _
      · exact leaves_sameLocals_inCall _

theorem leaves_sameLocals_callMethod (program : Program) (run : Interpreter)
    (receiver : Value) (method : String) (arguments : List Value) :
    Leaves SameLocals
      (Interpreter.callMethod program run receiver method arguments) := by
  have failed (fault : Fault) :
      Leaves SameLocals (fail fault : Eval (Value × Option Value)) :=
    .ofExcept SameLocals.refl (.error fault)
  unfold Interpreter.callMethod
  split
  · dsimp only
    split
    · exact leaves_sameLocals_invoke _ _ _ _
    · exact failed _
  · exact .ofExcept SameLocals.refl _
  · exact failed _
  · exact failed _

theorem agree_lookUp (program : Program) (name : String) {pace : Pace}
    {related : ScopeRelation} :
    Agree pace related (Interpreter.lookUp program name)
      (Interpreter.lookUp program name) := by
  unfold Interpreter.lookUp
  split
  · exact .pure _
  · exact .fail _

/-! ### Isolated calls -/

section

variable (program : Program) (bound : Nat)

theorem agree_invoke (function : FunctionDecl) (receiver : Option Value)
    (arguments : List (Option Value)) :
    Agree .lockstep Environment.AnyScopes
      ((interpreter program bound).invoke function receiver arguments)
      ((interpreter program bound).invoke function receiver arguments) :=
  (alike_lockstep (simulates_self program) bound).invoke function receiver
    arguments fun _ _ => trivial

theorem isolated_invoke (function : FunctionDecl) (receiver : Option Value)
    (arguments : List (Option Value)) :
    Isolated ((interpreter program bound).invoke function receiver
      arguments) where
  frame := (Interpreter.keepsFrames_interpreter program bound).invoke function
    receiver arguments
  locals := leaves_sameLocals_invoke _ function receiver arguments
  effect := effect_eq_of_agree
    (agree_invoke program bound function receiver arguments)

theorem isolated_callMethod (receiver : Value) (method : String)
    (arguments : List Value) :
    Isolated (Interpreter.callMethod program (interpreter program bound)
      receiver method arguments) where
  frame := by
    have parts := Interpreter.keepsFrames_interpreter program bound
    exact (parts.steps program).callMethodBy congruence_sameFrame receiver
      method arguments
  locals := leaves_sameLocals_callMethod program _ receiver method arguments
  effect := effect_eq_of_agree
    ((alike_lockstep (simulates_self program) bound).callMethod
      (simulates_self program) receiver method arguments
      fun _ _ _ _ => trivial)

theorem isolated_hostCall (name : String) (arguments : List (Option Value)) :
    Isolated (Interpreter.hostCall program
      (interpreter program bound).invoke name arguments) where
  frame := .hostCall SameFrame.trans SameFrame.refl
    (Interpreter.keepsFrames_interpreter program bound).invoke name arguments
  locals := .hostCall SameLocals.trans SameLocals.refl
    (leaves_sameLocals_invoke _) name arguments
  effect := by
    apply effect_eq_of_agree
    exact .bind (agree_lookUp program name) fun function =>
      .bind (agree_invoke program bound function none arguments)
        fun result => .pure _

theorem isolated_hostCallWithMask (name : String) (arguments : List Value)
    (mask : UInt64) :
    Isolated (Interpreter.hostCallWithMask program
      (interpreter program bound).invoke name arguments mask) where
  frame := .hostCallWithMask SameFrame.trans SameFrame.refl
    (Interpreter.keepsFrames_interpreter program bound).invoke name arguments
    mask
  locals := .hostCallWithMask SameLocals.trans SameLocals.refl
    (leaves_sameLocals_invoke _) name arguments mask
  effect := by
    apply effect_eq_of_agree
    refine .bind (agree_lookUp program name) fun function => ?_
    split
    · exact .bind (agree_invoke program bound function none _)
        fun result => .pure _
    · exact .fail _

end

/-- Evaluating an expression restores the frame, and calls are isolated: calls
by the host, and with every bound those of functions, constructors and
methods, up to the point where a changed receiver is stored back. -/
theorem calls_restore_frames (program : Program) :
    (∀ (machine : Machine) (id : ExprId),
      SameFrame machine (machine.eval program id).2) ∧
    (∀ (name : String) (arguments : List (Option Value)),
      Isolated fun machine => some (machine.call program name arguments)) ∧
    (∀ (name : String) (arguments : List Value) (mask : UInt64),
      Isolated fun machine =>
        some (machine.callWithMask program name arguments mask)) ∧
    ∀ bound : Nat,
      (∀ (function : FunctionDecl) (receiver : Option Value)
        (arguments : List (Option Value)),
          Isolated ((interpreter program bound).invoke function receiver
            arguments)) ∧
      ∀ (receiver : Value) (method : String) (arguments : List Value),
        Isolated (Interpreter.callMethod program (interpreter program bound)
          receiver method arguments) := by
  refine ⟨fun machine id => ?_, fun name arguments => ?_,
    fun name arguments mask => ?_, fun bound => ⟨?_, ?_⟩⟩
  · have kept : Leaves SameFrame fun machine =>
        some (machine.eval program id) :=
      .run SameFrame.refl fun bound =>
        (Interpreter.keepsFrames_interpreter program bound).expr id
    exact kept rfl
  · exact Isolated.run fun bound => isolated_hostCall program bound name
      arguments
  · exact Isolated.run fun bound => isolated_hostCallWithMask program bound
      name arguments mask
  · exact isolated_invoke program bound
  · exact isolated_callMethod program bound

end PluginSurface
