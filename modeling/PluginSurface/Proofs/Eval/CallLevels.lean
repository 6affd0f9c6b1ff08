import PluginSurface.Proofs.Eval.Frames
import PluginSurface.Proofs.Eval.Termination

/-!
# Levels of calls

A machine counts the calls that are open and refuses one that would be too many.
Here is an evaluation that counts nothing: it has a fixed number of levels, a
call takes place one level further down, and on the last level a call is refused
where it would have entered its frame. With as many levels as a machine allows
it gives the same outcomes. So no more calls are ever open, and the machine's
fault is the refusal on the last level and nothing else.
-/

namespace PluginSurface

open Eval

variable {Result Next : Type}

/-! ## Evaluation with levels -/

namespace Interpreter

/-- The evaluation of the parts of a program with a bound on its depth, if it is
given how functions are called with a bound. -/
def calling (program : Program) (call : Nat → Invocation) : Nat → Interpreter
  | 0 => ⟨fun _ => outOfSteps, fun _ => outOfSteps⟩
  | bound + 1 =>
      let run := calling program call bound
      ⟨fun id => tick >>= fun _ => exprBody program run (call bound) id,
        fun id => tick >>= fun _ => stmtBody program run id⟩

/-- A call with so many levels below it. On the last level the call is refused
with a fault in place of entering its frame. -/
def callAbove (program : Program) (refusal : Fault) : Nat → Nat → Invocation
  | 0, _ =>
      invokeBy ⟨fun _ => outOfSteps, fun _ => outOfSteps⟩
        fun _ => fail refusal
  | levels + 1, bound =>
      invokeBy (calling program (callAbove program refusal levels) bound)
        inCall

/-- Evaluation with so many levels below it. -/
def above (program : Program) (refusal : Fault) (levels bound : Nat) :
    Interpreter :=
  calling program (callAbove program refusal levels) bound

theorem above_succ (program : Program) (refusal : Fault)
    (levels bound : Nat) :
    above program refusal levels (bound + 1) =
      ⟨fun id => tick >>= fun _ => exprBody program
          (above program refusal levels bound)
          (callAbove program refusal levels bound) id,
        fun id => tick >>= fun _ =>
          stmtBody program (above program refusal levels bound) id⟩ :=
  rfl

end Interpreter

/-- A fault with another one in the place of a stack overflow. -/
def Fault.refusedWith (refusal : Fault) : Fault → Fault
  | stackOverflow => refusal
  | fault => fault

/-- An outcome with another fault in the place of a stack overflow. -/
def Outcome.refusedWith (refusal : Fault) (outcome : Outcome Result) :
    Outcome Result :=
  (outcome.1.mapError (Fault.refusedWith refusal), outcome.2)

theorem Outcome.refusedWith_of_ne {refusal : Fault} {outcome : Outcome Result}
    (ordinary : outcome.1 ≠ .error .stackOverflow) :
    outcome.refusedWith refusal = outcome := by
  obtain ⟨result, machine⟩ := outcome
  cases result with
  | ok result => rfl
  | error fault =>
      cases fault with
      | stackOverflow => exact (ordinary rfl).elim
      | _ => rfl

/-! ## Counting and levels -/

namespace Eval

/-- Two machines with the same depth. -/
def SameDepth (before after : Machine) : Prop :=
  after.depth = before.depth

theorem SameDepth.refl (machine : Machine) : SameDepth machine machine :=
  rfl

theorem SameDepth.trans ⦃first second third : Machine⦄
    (left : SameDepth first second) (right : SameDepth second third) :
    SameDepth first third :=
  Eq.trans right left

/-- With so many levels left `right` does as `left` does on the machine whose
depth says so, up to the fault of a refusal. -/
structure Levels (refusal : Fault) (levels : Nat)
    (left right : Eval Result) : Prop where
  leaves : Leaves SameDepth left
  agrees : ∀ ⦃machine : Machine⦄,
    machine.depth + levels = Machine.depthLimit →
      right machine = (left machine).map (Outcome.refusedWith refusal)

namespace Levels

variable {refusal : Fault} {levels : Nat}

/-- A computation that leaves the depth and does not overflow. -/
theorem of_ordinary {computation : Eval Result}
    (leaves : Leaves SameDepth computation)
    (ordinary : ∀ {machine outcome}, computation machine = some outcome →
      outcome.1 ≠ .error .stackOverflow) :
    Levels refusal levels computation computation := by
  refine ⟨leaves, fun machine atLevel => ?_⟩
  cases ran : computation machine with
  | none => rfl
  | some outcome =>
      rw [Option.map_some, Outcome.refusedWith_of_ne (ordinary ran)]

theorem pure (result : Result) :
    Levels refusal levels (Pure.pure result) (Pure.pure result) :=
  ⟨.pure SameDepth.refl result, fun _ _ => rfl⟩

theorem inspect (view : Machine → Result) :
    Levels refusal levels (Eval.inspect view) (Eval.inspect view) :=
  ⟨.inspect SameDepth.refl view, fun _ _ => rfl⟩

theorem outOfSteps :
    Levels refusal levels (Eval.outOfSteps : Eval Result) Eval.outOfSteps :=
  ⟨nofun, fun _ _ => rfl⟩

theorem ofExcept {outcome : Except Fault Result}
    (within : WithinLimits outcome) :
    Levels refusal levels (Eval.ofExcept outcome) (Eval.ofExcept outcome) := by
  refine .of_ordinary (.ofExcept SameDepth.refl outcome) ?_
  rintro machine _ ⟨rfl⟩ overflows
  exact absurd (within _ overflows) (by decide)

theorem variableValue (name : String) :
    Levels refusal levels (Eval.variableValue name)
      (Eval.variableValue name) := by
  refine .of_ordinary (.variableValue SameDepth.refl name) ?_
  intro machine outcome ran
  unfold Eval.variableValue at ran
  split at ran <;> cases ran <;> exact nofun

theorem load (place : Place) :
    Levels refusal levels (Eval.load place) (Eval.load place) := by
  refine .of_ordinary (.load SameDepth.refl place) ?_
  rintro machine _ ⟨rfl⟩ overflows
  have within := Environment.withinLimits_load machine.environment place
  exact absurd (within _ overflows) (by decide)

theorem store (place : Place) (value : Value) :
    Levels refusal levels (Eval.store place value)
      (Eval.store place value) := by
  have leaves : Leaves SameDepth (Eval.store place value) := fun _ _ ran =>
    (leaves_sameFrame_store place value ran).depth
  refine .of_ordinary leaves ?_
  intro machine outcome ran overflows
  unfold Eval.store at ran
  dsimp only at ran
  split at ran <;> cases ran
  · rename_i fails
    cases overflows
    have within := Environment.isLimit_of_store (Prod.ext fails rfl)
    exact absurd within (by decide)
  · cases overflows

theorem define (name : String) (value : Value) :
    Levels refusal levels (Eval.define name value)
      (Eval.define name value) := by
  refine ⟨?_, fun _ _ => rfl⟩
  rintro machine _ ⟨rfl⟩
  rfl

theorem tick : Levels refusal levels Eval.tick Eval.tick := by
  have leaves : Leaves SameDepth Eval.tick := fun _ _ ran =>
    (leaves_sameFrame_tick ran).depth
  refine .of_ordinary leaves ?_
  intro machine outcome ran
  unfold Eval.tick at ran
  dsimp only at ran
  split at ran <;> cases ran <;> exact nofun

theorem bind {left right : Eval Result}
    {leftNext rightNext : Result → Eval Next}
    (first : Levels refusal levels left right)
    (second : ∀ result,
      Levels refusal levels (leftNext result) (rightNext result)) :
    Levels refusal levels (left >>= leftNext) (right >>= rightNext) := by
  refine ⟨first.leaves.bind SameDepth.trans fun result =>
    (second result).leaves, fun machine atLevel => ?_⟩
  change andThen right rightNext machine = (andThen left leftNext machine).map _
  unfold andThen
  rw [first.agrees atLevel]
  rcases step : left machine with _ | ⟨fault | result, middle⟩
  · rfl
  · rfl
  · have kept : middle.depth = machine.depth := first.leaves step
    rw [← kept] at atLevel
    exact (second result).agrees atLevel

theorem attempt {left right : Eval Result}
    (body : Levels refusal levels left right) :
    Levels refusal levels (Eval.attempt left) (Eval.attempt right) := by
  refine ⟨body.leaves.attempt, fun machine atLevel => ?_⟩
  unfold Eval.attempt
  rw [body.agrees atLevel]
  rcases left machine with _ | ⟨fault | result, after⟩ <;> rfl

theorem inScope {left right : Eval Result}
    (body : Levels refusal levels left right) :
    Levels refusal levels (Eval.inScope left) (Eval.inScope right) := by
  refine ⟨?_, fun machine atLevel => ?_⟩
  · intro machine outcome ran
    unfold Eval.inScope at ran
    split at ran <;> cases ran
    rename_i step
    have kept := body.leaves step
    exact kept
  · have agrees (inner : Machine) (same : inner.depth = machine.depth) :
        right inner = (left inner).map (Outcome.refusedWith refusal) := by
      rw [← same] at atLevel
      exact body.agrees atLevel
    unfold Eval.inScope
    rw [agrees { machine with environment := machine.environment.push } rfl]
    rcases left _ with _ | ⟨outcome, after⟩ <;> rfl

theorem repeatWhile {leftCondition rightCondition : Eval Value}
    {leftBody rightBody : Eval Flow}
    (conditions : Levels refusal levels leftCondition rightCondition)
    (bodies : Levels refusal levels leftBody rightBody) (bound : Nat) :
    Levels refusal levels (Eval.repeatWhile leftCondition leftBody bound)
      (Eval.repeatWhile rightCondition rightBody bound) := by
  induction bound with
  | zero => exact outOfSteps
  | succ bound inductionHypothesis =>
      rw [repeatWhile_succ, repeatWhile_succ]
      apply conditions.bind
      intro value
      split
      · apply bodies.bind
        intro flow
        cases flow with
        | normal => exact inductionHypothesis
        | «return» value => exact pure _
      · exact pure _

end Levels

theorem congruence_levels (refusal : Fault) (levels : Nat) :
    Congruence (fun _ => Levels refusal levels)
      (fun _ => Levels refusal levels) where
  pure := .pure
  ofExcept := .ofExcept
  variableValue := .variableValue
  binding _ := .inspect _
  load := .load
  store := .store
  define := .define
  bind := .bind
  bindDefining := .bind
  weaken same := same
  inScope := .inScope

/-! ### Entering a frame -/

theorem enter_of_full {machine : Machine}
    (full : Machine.depthLimit ≤ machine.depth)
    (frame : Eval (Value × Option Value)) :
    Interpreter.enter frame machine =
      some (.error .stackOverflow, machine) := by
  change (if Machine.depthLimit ≤ machine.depth then _ else _ : Eval _) _ = _
  rw [if_pos full]
  rfl

theorem enter_of_room {machine : Machine}
    (room : ¬ Machine.depthLimit ≤ machine.depth)
    (frame : Eval (Value × Option Value)) :
    Interpreter.enter frame machine = inCall frame machine := by
  change (if Machine.depthLimit ≤ machine.depth then _ else _ : Eval _) _ = _
  rw [if_neg room]

theorem leaves_sameDepth_enter (frame : Eval (Value × Option Value)) :
    Leaves SameDepth (Interpreter.enter frame) := by
  intro machine outcome ran
  by_cases full : Machine.depthLimit ≤ machine.depth
  · rw [enter_of_full full] at ran
    cases ran
    rfl
  · rw [enter_of_room full] at ran
    unfold inCall at ran
    dsimp only at ran
    split at ran <;> cases ran
    rfl

namespace Levels

variable {refusal : Fault} {levels : Nat}
  {left right : Eval (Value × Option Value)}

/-- On the last level the machine overflows. -/
theorem refused : Levels refusal 0 (Interpreter.enter left) (fail refusal) := by
  refine ⟨leaves_sameDepth_enter left, fun machine atLevel => ?_⟩
  rw [enter_of_full (Nat.le_of_eq atLevel.symm)]
  rfl

/-- Above the last level there is room for a frame one level further down. -/
theorem entered (frame : Levels refusal levels left right) :
    Levels refusal (levels + 1) (Interpreter.enter left) (inCall right) := by
  refine ⟨leaves_sameDepth_enter left, fun machine atLevel => ?_⟩
  have room : ¬ Machine.depthLimit ≤ machine.depth := by omega
  have agrees (inner : Machine) (deeper : inner.depth = machine.depth + 1) :
      right inner = (left inner).map (Outcome.refusedWith refusal) := by
    apply frame.agrees
    omega
  rw [enter_of_room room]
  unfold inCall
  dsimp only
  rw [agrees
    { machine with
      environment := machine.environment.entered
      depth := machine.depth + 1 } rfl]
  rcases left _ with _ | ⟨outcome, after⟩ <;> rfl

end Levels

end Eval

namespace Interpreter

variable {program : Program} {refusal : Fault} {levels : Nat}

/-- Evaluation with levels agrees if calls on the same level do. -/
theorem levels_above
    (calls : ∀ bound function receiver arguments,
      Levels refusal levels
        (invoke (interpreter program bound) function receiver arguments)
        (callAbove program refusal levels bound function receiver arguments))
    (bound : Nat) :
    PartsRelated (fun _ => Levels refusal levels)
      (fun _ => Levels refusal levels) (interpreter program bound)
      (above program refusal levels bound) := by
  induction bound with
  | zero => exact ⟨fun _ => .outOfSteps, fun _ => .outOfSteps⟩
  | succ bound parts =>
      have place (id : ExprId) :
          Levels refusal levels (place program (interpreter program bound) id)
            (place program (above program refusal levels bound) id) :=
        parts.placeAt (congruence_levels refusal levels) program
          (.inl .outOfSteps)
      have steps : StepsRelated program (fun _ => Levels refusal levels)
          (fun _ => Levels refusal levels) _ _
          (invoke (interpreter program bound))
          (callAbove program refusal levels bound) :=
        { parts with
          call := calls bound
          place := place
          settle := fun object _ => (place object).attempt
          loop := fun condition body => (Levels.inspect _).bind fun rounds =>
            (parts.expr condition).repeatWhile (parts.stmt body) rounds }
      rw [interpreter_succ, above_succ]
      exact steps.parts (congruence_levels refusal levels) .tick

theorem levels_callAbove (program : Program) (refusal : Fault)
    (levels bound : Nat) (function : FunctionDecl) (receiver : Option Value)
    (arguments : List (Option Value)) :
    Levels refusal levels
      (invoke (interpreter program bound) function receiver arguments)
      (callAbove program refusal levels bound function receiver
        arguments) := by
  induction levels generalizing bound function receiver arguments with
  | zero =>
      have failed {fault : Fault} (ordinary : fault.isLimit = false) :
          Levels refusal 0 (fail fault : Eval (Value × Option Value))
            (fail fault) :=
        (congruence_levels refusal 0).fail ordinary
      rw [invoke_eq_invokeBy]
      unfold callAbove invokeBy
      split
      · exact failed rfl
      · split
        · exact failed rfl
        · exact .refused
  | succ levels inductionHypothesis =>
      rw [invoke_eq_invokeBy]
      have parts := levels_above inductionHypothesis bound
      exact parts.invokeBy (congruence_levels refusal levels)
        (congruence_levels refusal (levels + 1)) enter inCall .entered function
        receiver arguments

end Interpreter

/-! ## Whole evaluations -/

/-- With every bound from the one that the gas provides on, an evaluation gives
an outcome, and so does one with levels, up to the fault of a refusal. -/
def Settles (refusal : Fault) (machine : Machine)
    (bounded levelled : Nat → Eval Result) (outcome : Outcome Result) : Prop :=
  ∀ bound, machine.stepBound ≤ bound →
    bounded bound machine = some outcome ∧
      levelled bound machine = some (outcome.refusedWith refusal)

theorem settles_run {refusal : Fault} {machine : Machine}
    (noCall : machine.depth = 0) {bounded levelled : Nat → Eval Result}
    (ends : ∀ bound, Ends bound (bounded bound))
    (refines : ∀ {left right}, left ≤ right →
      Refines (bounded left) (bounded right))
    (levels : ∀ bound,
      Levels refusal Machine.depthLimit (bounded bound) (levelled bound)) :
    Settles refusal machine bounded levelled (machine.run bounded) := by
  intro bound enough
  have ran := Machine.run_of_ends ends refines enough
  have atLevel : machine.depth + Machine.depthLimit = Machine.depthLimit := by
    rw [noCall, Nat.zero_add]
  refine ⟨ran, ?_⟩
  rw [(levels bound).agrees atLevel, ran]
  rfl

open Interpreter in
/-- Over a closed arena every evaluation comes to an end: with the bound that
the gas provides, with every larger bound, and on as many levels as calls may be
open at a time. An overflow is a call that would enter its frame on the last
level. -/
theorem evaluations_end (program : Program) (closed : program.arena.Closed)
    (machine : Machine) (noCall : machine.depth = 0) (refusal : Fault) :
    (∀ id : ExprId,
      Settles refusal machine (fun bound => evalExpr program bound id)
        (fun bound => (above program refusal Machine.depthLimit bound).expr id)
        (machine.eval program id)) ∧
    (∀ (name : String) (arguments : List (Option Value)),
      Settles refusal machine
        (fun bound =>
          hostCall program (interpreter program bound).invoke name arguments)
        (fun bound =>
          hostCall program (callAbove program refusal Machine.depthLimit bound)
            name arguments)
        (machine.call program name arguments)) ∧
    ∀ (name : String) (arguments : List Value) (mask : UInt64),
      Settles refusal machine
        (fun bound =>
          hostCallWithMask program (interpreter program bound).invoke name
            arguments mask)
        (fun bound =>
          hostCallWithMask program
            (callAbove program refusal Machine.depthLimit bound) name arguments
            mask)
        (machine.callWithMask program name arguments mask) := by
  have parts (bound : Nat) := (partsEnd_interpreter closed bound).1
  have calls := levels_callAbove program refusal Machine.depthLimit
  have levels := levels_above calls
  have ends (bound : Nat) := PartsEnd.invoke (parts bound)
  have refines {left right : Nat} (longer : left ≤ right) :=
    refines_interpreter program longer
  refine ⟨fun id => ?_, fun name arguments => ?_,
    fun name arguments mask => ?_⟩
  · exact settles_run noCall (fun bound => (parts bound).expr id)
      (fun longer => (refines longer).expr id) fun bound => (levels bound).expr id
  · refine settles_run noCall (fun bound => ?_) (fun longer => ?_)
      fun bound => ?_
    · exact (congruence_ends bound).hostCall _ (interpreter program bound).invoke
        (ends bound) name arguments
    · exact congruence_refines.hostCall _ _ (refines_invoke (refines longer))
        name arguments
    · exact (congruence_levels _ _).hostCall _ _ (calls bound) name arguments
  · refine settles_run noCall (fun bound => ?_) (fun longer => ?_)
      fun bound => ?_
    · exact (congruence_ends bound).hostCallWithMask _
        (interpreter program bound).invoke (ends bound) name
        arguments mask
    · exact congruence_refines.hostCallWithMask _ _
        (refines_invoke (refines longer)) name arguments mask
    · exact (congruence_levels _ _).hostCallWithMask _ _ (calls bound) name
        arguments mask

namespace Sample

/-- `function f(): i32 \x7b return f(); \x7d` -/
def endless : Program :=
  ⟨"index", .entry,
    [.function ⟨⟨"f", default⟩, [], none, true, false, [],
      some (.simple "i32" default), some ⟨[⟨0⟩], default⟩, default⟩],
    ⟨#[⟨.identifier "f", default⟩, ⟨.call ⟨0⟩ [] [], default⟩],
      #[⟨.return (some ⟨1⟩), default⟩]⟩,
    default⟩

/-- Whether an outcome is a stack overflow. -/
def overflows (outcome : Outcome Value) : Bool :=
  match outcome.1 with
  | .error .stackOverflow => true
  | _ => false

theorem refusedWith_of_overflows {outcome : Outcome Value}
    (overflow : overflows outcome = true) (refusal : Fault) :
    (outcome.refusedWith refusal).1 = .error refusal := by
  unfold overflows at overflow
  unfold Outcome.refusedWith
  split at overflow
  · rename_i same
    rw [same]
    rfl
  · cases overflow

end Sample

/-- A function that only calls itself is refused the next call when all levels
are taken. -/
theorem evaluations_end_of_endless :
    (Interpreter.hostCall Sample.endless
        (Interpreter.callAbove Sample.endless (.thrown .null) 64 1002) "f" []
        (.initial 1000)).map Prod.fst = some (.error (.thrown .null)) := by
  have calls := (evaluations_end Sample.endless (by decide) (.initial 1000) rfl
    (.thrown .null)).2.1
  have settles := (calls "f" [] 1002 (by decide)).2
  have overflow : Sample.overflows
      ((Machine.initial 1000).call Sample.endless "f" []) = true := by
    decide +kernel
  have refused := Sample.refusedWith_of_overflows overflow (.thrown .null)
  exact (congrArg (Option.map Prod.fst) settles).trans (congrArg some refused)

end PluginSurface
