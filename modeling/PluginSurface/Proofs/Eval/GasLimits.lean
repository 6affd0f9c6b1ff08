import PluginSurface.Proofs.Eval.Frames

/-!
# Gas limits

A larger gas limit changes nothing about an evaluation that stays within the
smaller one. An evaluation that uses more gas than its limit ends with the fault
that says so, with one exception. After a method call the place of the receiver
is determined anew. If an index on the way to it uses up the gas, there is no
place, the changed receiver is dropped, and the call gives its result.
-/

namespace PluginSurface

open Eval

variable {Result Next : Type}

/-- A machine with another gas limit. -/
def Machine.withLimit (machine : Machine) (limit : Nat) : Machine :=
  { machine with gasLimit := limit }

namespace Eval

/-! ## Under a larger limit -/

/-- Under a larger limit `right` ends as `left` does, if `left` stays within its
own limit. -/
structure Outlasts (left right : Eval Result) : Prop where
  metered : Metered left
  ends : ∀ ⦃machine : Machine⦄ ⦃outcome : Outcome Result⦄ ⦃limit : Nat⦄,
    left machine = some outcome → machine.gasLimit ≤ limit →
      outcome.2.gas ≤ machine.gasLimit →
        right (machine.withLimit limit) =
          some (outcome.1, outcome.2.withLimit limit)

namespace Outlasts

theorem outOfSteps (right : Eval Result) :
    Outlasts Eval.outOfSteps right :=
  ⟨.outOfSteps, nofun⟩

theorem pure (result : Result) :
    Outlasts (Pure.pure result) (Pure.pure result) := by
  refine ⟨.pure result, ?_⟩
  rintro machine _ limit ⟨rfl⟩ larger within
  rfl

theorem ofExcept (outcome : Except Fault Result) :
    Outlasts (Eval.ofExcept outcome) (Eval.ofExcept outcome) := by
  refine ⟨.ofExcept outcome, ?_⟩
  rintro machine _ limit ⟨rfl⟩ larger within
  rfl

theorem variableValue (name : String) :
    Outlasts (Eval.variableValue name) (Eval.variableValue name) := by
  refine ⟨.variableValue name, ?_⟩
  intro machine outcome limit ran larger within
  unfold Eval.variableValue at ran ⊢
  dsimp only [Machine.withLimit]
  split at ran <;> cases ran <;> rfl

theorem binding (name : String) :
    Outlasts
      (Eval.inspect fun machine => machine.environment.find? name)
      (Eval.inspect fun machine => machine.environment.find? name) := by
  refine ⟨.inspect _, ?_⟩
  rintro machine _ limit ⟨rfl⟩ larger within
  rfl

theorem load (place : Place) :
    Outlasts (Eval.load place) (Eval.load place) := by
  refine ⟨.load place, ?_⟩
  rintro machine _ limit ⟨rfl⟩ larger within
  rfl

theorem store (place : Place) (value : Value) :
    Outlasts (Eval.store place value) (Eval.store place value) := by
  refine ⟨.store place value, ?_⟩
  intro machine outcome limit ran larger within
  unfold Eval.store at ran ⊢
  dsimp only [Machine.withLimit] at ran ⊢
  split at ran <;> cases ran <;> rfl

theorem define (name : String) (value : Value) :
    Outlasts (Eval.define name value) (Eval.define name value) := by
  refine ⟨.updateEnvironment _, ?_⟩
  rintro machine _ limit ⟨rfl⟩ larger within
  rfl

theorem tick : Outlasts Eval.tick Eval.tick := by
  refine ⟨.tick, ?_⟩
  intro machine outcome limit ran larger within
  unfold Eval.tick at ran ⊢
  dsimp only [Machine.withLimit] at ran ⊢
  split at ran <;> cases ran
  · rename_i exceeds
    exact (Nat.not_lt.mpr within exceeds).elim
  · rename_i fits
    have stillFits : ¬ limit < machine.gas + 1 := by omega
    exact if_neg stillFits

theorem bind {left right : Eval Result} {leftNext rightNext : Result → Eval Next}
    (first : Outlasts left right)
    (second : ∀ result, Outlasts (leftNext result) (rightNext result)) :
    Outlasts (left >>= leftNext) (right >>= rightNext) := by
  refine ⟨first.metered.bind fun result => (second result).metered, ?_⟩
  intro machine outcome limit ran larger within
  rcases bind_cases ran with ⟨fault, middle, step, rfl⟩ |
    ⟨result, middle, step, ran⟩
  · exact bind_of_error (first.ends step larger within) rightNext
  · -- Gas is not given back, so the first part stays within the limit too.
    have kept : middle.gasLimit = machine.gasLimit := (first.metered step).2
    have rose : middle.gas ≤ outcome.2.gas := ((second result).metered ran).1
    have middleWithin : middle.gas ≤ machine.gasLimit :=
      Nat.le_trans rose within
    rw [bind_of_ok (first.ends step larger middleWithin)]
    rw [← kept] at larger within
    exact (second result).ends ran larger within

theorem attempt {left right : Eval Result} (body : Outlasts left right) :
    Outlasts (Eval.attempt left) (Eval.attempt right) := by
  refine ⟨body.metered.attempt, ?_⟩
  intro machine outcome limit ran larger within
  unfold Eval.attempt at ran ⊢
  split at ran <;> cases ran
  all_goals
    rename_i step
    rw [body.ends step larger within]

theorem inScope {left right : Eval Result} (body : Outlasts left right) :
    Outlasts (Eval.inScope left) (Eval.inScope right) := by
  refine ⟨body.metered.inScope, ?_⟩
  intro machine outcome limit ran larger within
  unfold Eval.inScope at ran ⊢
  split at ran <;> cases ran
  rename_i step
  have ended := body.ends step larger within
  dsimp only [Machine.withLimit] at ended ⊢
  rw [ended]

theorem inCall {left right : Eval Result} (body : Outlasts left right) :
    Outlasts (Eval.inCall left) (Eval.inCall right) := by
  refine ⟨body.metered.inCall, ?_⟩
  intro machine outcome limit ran larger within
  unfold Eval.inCall at ran ⊢
  dsimp only at ran ⊢
  split at ran <;> cases ran
  rename_i step
  have ended := body.ends step larger within
  dsimp only [Machine.withLimit] at ended ⊢
  rw [ended]

theorem enter {left right : Eval (Value × Option Value)}
    (frame : Outlasts left right) :
    Outlasts (Interpreter.enter left) (Interpreter.enter right) := by
  have depth :
      Outlasts (inspect Machine.depth) (inspect Machine.depth) := by
    refine ⟨.inspect _, ?_⟩
    rintro machine _ limit ⟨rfl⟩ larger within
    rfl
  refine depth.bind fun depth => ?_
  split
  · exact ofExcept (.error _)
  · exact frame.inCall

theorem repeatWhile {leftCondition rightCondition : Eval Value}
    {leftBody rightBody : Eval Flow}
    (conditions : Outlasts leftCondition rightCondition)
    (bodies : Outlasts leftBody rightBody) {leftBound rightBound : Nat}
    (longer : leftBound ≤ rightBound) :
    Outlasts (Eval.repeatWhile leftCondition leftBody leftBound)
      (Eval.repeatWhile rightCondition rightBody rightBound) := by
  induction leftBound generalizing rightBound with
  | zero => exact outOfSteps _
  | succ leftBound inductionHypothesis =>
      obtain ⟨rightBound, rfl⟩ := Nat.exists_eq_add_of_lt longer
      rw [repeatWhile_succ, repeatWhile_succ]
      refine conditions.bind fun value => ?_
      split
      · refine bodies.bind fun flow => ?_
        cases flow with
        | normal => exact inductionHypothesis (Nat.le_add_right _ _)
        | «return» value => exact pure _
      · exact pure _

/-- The larger limit also allows more rounds. -/
theorem loop {leftCondition rightCondition : Eval Value}
    {leftBody rightBody : Eval Flow}
    (conditions : Outlasts leftCondition rightCondition)
    (bodies : Outlasts leftBody rightBody) :
    Outlasts
      (Eval.inspect Machine.stepBound >>=
        Eval.repeatWhile leftCondition leftBody)
      (Eval.inspect Machine.stepBound >>=
        Eval.repeatWhile rightCondition rightBody) := by
  refine ⟨(Metered.inspect _).bind
    (conditions.metered.repeatWhile bodies.metered), ?_⟩
  intro machine outcome limit ran larger within
  have longer : machine.stepBound ≤ (machine.withLimit limit).stepBound := by
    unfold Machine.stepBound Machine.withLimit
    dsimp only
    omega
  exact (conditions.repeatWhile bodies longer).ends ran larger within

end Outlasts

theorem congruence_outlasts :
    Congruence (fun _ => Outlasts) (fun _ => Outlasts) where
  pure := .pure
  ofExcept _ := .ofExcept _
  variableValue := .variableValue
  binding := .binding
  load := .load
  store := .store
  define := .define
  bind := .bind
  bindDefining := .bind
  weaken same := same
  inScope := .inScope

end Eval

namespace Interpreter

variable {left right : Interpreter}

theorem outlasts_invoke
    (parts : PartsRelated (fun _ => Outlasts) (fun _ => Outlasts) left right)
    (function : FunctionDecl) (receiver : Option Value)
    (arguments : List (Option Value)) :
    Outlasts (invoke left function receiver arguments)
      (invoke right function receiver arguments) := by
  rw [invoke_eq_invokeBy, invoke_eq_invokeBy]
  exact parts.invokeBy congruence_outlasts congruence_outlasts enter enter
    .enter function receiver arguments

theorem outlasts_interpreter (program : Program) {leftBound rightBound : Nat}
    (longer : leftBound ≤ rightBound) :
    PartsRelated (fun _ => Outlasts) (fun _ => Outlasts)
      (interpreter program leftBound) (interpreter program rightBound) := by
  induction leftBound generalizing rightBound with
  | zero => exact ⟨fun id => .outOfSteps _, fun id => .outOfSteps _⟩
  | succ leftBound inductionHypothesis =>
      obtain ⟨rightBound, rfl⟩ := Nat.exists_eq_add_of_lt longer
      have parts := inductionHypothesis (Nat.le_add_right leftBound rightBound)
      have place (id : ExprId) :
          Outlasts (place program (interpreter program leftBound) id)
            (place program (interpreter program (leftBound + rightBound))
              id) :=
        parts.placeAt congruence_outlasts program (.inl (.outOfSteps _))
      have steps : StepsRelated program (fun _ => Outlasts)
          (fun _ => Outlasts) _ _ (invoke (interpreter program leftBound))
          (invoke (interpreter program (leftBound + rightBound))) :=
        { parts with
          call := outlasts_invoke parts
          place := place
          settle := fun object _ => (place object).attempt
          loop := fun condition body =>
            (parts.expr condition).loop (parts.stmt body) }
      rw [interpreter_succ, interpreter_succ]
      exact steps.parts congruence_outlasts .tick

end Interpreter

/-! ## Noticing that the gas is used up -/

namespace Eval

/-- Started within its limit, a computation stays within it or ends with the
fault that says otherwise. -/
def Notices (computation : Eval Result) : Prop :=
  ∀ ⦃machine : Machine⦄ ⦃outcome : Outcome Result⦄,
    computation machine = some outcome → machine.gas ≤ machine.gasLimit →
      outcome.1 ≠ .error .gasExhausted →
        outcome.2.gas ≤ outcome.2.gasLimit

/-- Two machines that have used the same gas of the same limit. -/
def SameMeter (before after : Machine) : Prop :=
  after.gas = before.gas ∧ after.gasLimit = before.gasLimit

theorem SameMeter.refl (machine : Machine) : SameMeter machine machine :=
  ⟨rfl, rfl⟩

theorem SameMeter.trans ⦃first second third : Machine⦄
    (left : SameMeter first second) (right : SameMeter second third) :
    SameMeter first third :=
  ⟨right.1.trans left.1, right.2.trans left.2⟩

namespace Notices

theorem of_leaves {computation : Eval Result}
    (leaves : Leaves SameMeter computation) : Notices computation := by
  intro machine outcome ran within noticed
  have same := leaves ran
  rw [same.1, same.2]
  exact within

theorem tick : Notices Eval.tick := by
  intro machine outcome ran within noticed
  unfold Eval.tick at ran
  dsimp only at ran
  split at ran <;> cases ran
  · exact (noticed rfl).elim
  · rename_i fits
    exact Nat.not_lt.mp fits

theorem store (place : Place) (value : Value) :
    Notices (Eval.store place value) := by
  intro machine outcome ran within noticed
  unfold Eval.store at ran
  dsimp only at ran
  split at ran <;> cases ran <;> exact within

theorem bind {first : Eval Result} {next : Result → Eval Next}
    (before : Notices first) (after : ∀ result, Notices (next result)) :
    Notices (first >>= next) := by
  intro machine outcome ran within noticed
  rcases bind_cases ran with ⟨fault, middle, step, rfl⟩ |
    ⟨result, middle, step, ran⟩
  · refine before step within fun exhausted => noticed ?_
    cases exhausted
    rfl
  · exact after result ran (before step within nofun) noticed

theorem inScope {body : Eval Result} (notices : Notices body) :
    Notices (Eval.inScope body) := by
  intro machine outcome ran within noticed
  unfold Eval.inScope at ran
  split at ran <;> cases ran
  rename_i step
  have bounded := notices step
  exact bounded within noticed

theorem inCall {body : Eval Result} (notices : Notices body) :
    Notices (Eval.inCall body) := by
  intro machine outcome ran within noticed
  unfold Eval.inCall at ran
  dsimp only at ran
  split at ran <;> cases ran
  rename_i step
  have bounded := notices step
  exact bounded within noticed

theorem enter {frame : Eval (Value × Option Value)}
    (notices : Notices frame) : Notices (Interpreter.enter frame) := by
  refine bind (of_leaves (.inspect SameMeter.refl _)) fun depth => ?_
  split
  · exact of_leaves (.ofExcept SameMeter.refl (.error _))
  · exact notices.inCall

theorem repeatWhile {condition : Eval Value} {body : Eval Flow}
    (tested : Notices condition) (repeated : Notices body) (bound : Nat) :
    Notices (Eval.repeatWhile condition body bound) := by
  induction bound with
  | zero =>
      intro machine outcome ran
      cases ran
  | succ bound inductionHypothesis =>
      rw [repeatWhile_succ]
      refine tested.bind fun value => ?_
      split
      · refine repeated.bind fun flow => ?_
        cases flow with
        | normal => exact inductionHypothesis
        | «return» value => exact of_leaves (.pure SameMeter.refl _)
      · exact of_leaves (.pure SameMeter.refl _)

end Notices

theorem congruence_notices :
    Congruence (fun _ left _ => Notices left)
      (fun _ left _ => Notices left) where
  pure result := .of_leaves (.pure SameMeter.refl result)
  ofExcept _ := .of_leaves (.ofExcept SameMeter.refl _)
  variableValue name := .of_leaves (.variableValue SameMeter.refl name)
  binding _ := .of_leaves (.inspect SameMeter.refl _)
  load place := .of_leaves (.load SameMeter.refl place)
  store := .store
  define name value := .of_leaves fun _ _ ran => by
    cases ran
    exact .refl _
  bind := .bind
  bindDefining := .bind
  weaken notices := notices
  inScope := .inScope

end Eval

/-! ## Receivers below an index -/

/-- Whether an index stands on the way to the place of an expression. -/
inductive Arena.Indexes (arena : Arena) : ExprId → Prop where
  | index {id object position : ExprId}
    (node : (arena.expr id).node = .index object position) : Indexes arena id
  | member {id object : ExprId} {property : Name}
    (node : (arena.expr id).node = .member object property)
    (below : Indexes arena object) : Indexes arena id
  | paren {id inner : ExprId} (node : (arena.expr id).node = .paren inner)
    (below : Indexes arena inner) : Indexes arena id

namespace Interpreter

variable {program : Program}

/-- Without an index on the way no gas is used. -/
theorem leaves_sameMeter_placeAt (run : Interpreter) (bound : Nat)
    {id : ExprId} (plain : ¬ program.arena.Indexes id) :
    Leaves SameMeter (placeAt program run bound id) := by
  induction bound generalizing id with
  | zero => exact nofun
  | succ bound inductionHypothesis =>
      unfold placeAt
      split
      · exact .pure SameMeter.refl _
      · exact .pure SameMeter.refl _
      · rename_i node
        exact inductionHypothesis fun below => plain (.paren node below)
      · rename_i node
        have object := inductionHypothesis fun below =>
          plain (.member node below)
        exact object.bind SameMeter.trans fun place => .pure SameMeter.refl _
      · rename_i node
        exact (plain (.index node)).elim
      · exact .ofExcept SameMeter.refl (.error _)

theorem notices_invoke {run : Interpreter}
    (parts : PartsRelated (fun _ left _ => Notices left)
      (fun _ left _ => Notices left) run run) (function : FunctionDecl)
    (receiver : Option Value) (arguments : List (Option Value)) :
    Notices (invoke run function receiver arguments) := by
  rw [invoke_eq_invokeBy]
  exact parts.invokeBy congruence_notices congruence_notices enter enter
    .enter function receiver arguments

theorem notices_interpreter
    (plain : ∀ object, program.Receives object →
      ¬ program.arena.Indexes object) (bound : Nat) :
    PartsRelated (fun _ left _ => Notices left)
      (fun _ left _ => Notices left) (interpreter program bound)
      (interpreter program bound) := by
  induction bound with
  | zero => exact ⟨fun _ => nofun, fun _ => nofun⟩
  | succ bound parts =>
      have steps : StepsRelated program (fun _ left _ => Notices left)
          (fun _ left _ => Notices left) (interpreter program bound)
          (interpreter program bound) (invoke (interpreter program bound))
          (invoke (interpreter program bound)) :=
        { parts with
          call := notices_invoke parts
          place := fun id =>
            parts.placeAt congruence_notices program (.inl nofun)
          settle := fun object receives =>
            .of_leaves (leaves_sameMeter_placeAt _ _
              (plain object receives)).attempt
          loop := fun condition body =>
            .bind (.of_leaves (.inspect SameMeter.refl _))
              ((parts.expr condition).repeatWhile (parts.stmt body)) }
      rw [interpreter_succ]
      exact steps.parts congruence_notices .tick

end Interpreter

/-! ## Calls -/

namespace Machine

/-- An evaluation that does not end for want of gas comes to an end within the
bound that the gas provides. -/
theorem ran_of_noticed {machine : Machine} {bounded : Nat → Eval Result}
    (noticed : (machine.run bounded).1 ≠ .error .gasExhausted) :
    bounded machine.stepBound machine = some (machine.run bounded) := by
  unfold run at noticed ⊢
  cases ran : bounded machine.stepBound machine with
  | none =>
      rw [ran] at noticed
      exact (noticed rfl).elim
  | some outcome => rfl

theorem run_of_ran {machine : Machine} {bounded : Nat → Eval Result}
    {outcome : Outcome Result}
    (ran : bounded machine.stepBound machine = some outcome) :
    machine.run bounded = outcome := by
  unfold run
  rw [ran]
  rfl

variable (program : Program) {machine : Machine} (name : String)
  (arguments : List (Option Value))

theorem outlasts_hostCall {leftBound rightBound : Nat}
    (longer : leftBound ≤ rightBound) :
    Outlasts
      (Interpreter.hostCall program (interpreter program leftBound).invoke name
        arguments)
      (Interpreter.hostCall program (interpreter program rightBound).invoke
        name arguments) :=
  congruence_outlasts.hostCall _ _
    (Interpreter.outlasts_invoke
      (Interpreter.outlasts_interpreter program longer)) name arguments

theorem notices_hostCall
    (plain : ∀ object, program.Receives object →
      ¬ program.arena.Indexes object) (bound : Nat) :
    Notices (Interpreter.hostCall program (interpreter program bound).invoke
      name arguments) :=
  congruence_notices.hostCall _ (interpreter program bound).invoke
    (Interpreter.notices_invoke (Interpreter.notices_interpreter plain bound))
    name arguments

end Machine

/-- A call that does not end for want of gas ends alike under every larger
limit if it has stayed within its own. It can only have used more gas where the
program calls a method on a receiver that stands below an index. -/
theorem call_withLimit (program : Program) {machine : Machine} {limit : Nat}
    (name : String) (arguments : List (Option Value))
    (within : machine.gas ≤ machine.gasLimit)
    (larger : machine.gasLimit ≤ limit)
    (noticed : (machine.call program name arguments).1 ≠
      .error .gasExhausted) :
    ((machine.call program name arguments).2.gas ≤ machine.gasLimit →
      (machine.withLimit limit).call program name arguments =
        ((machine.call program name arguments).1,
          (machine.call program name arguments).2.withLimit limit)) ∧
    (machine.gasLimit < (machine.call program name arguments).2.gas →
      ∃ object, program.Receives object ∧ program.arena.Indexes object) := by
  rw [Machine.call_eq_hostCall] at noticed ⊢
  have ran := Machine.ran_of_noticed noticed
  generalize machine.run _ = outcome at noticed ran ⊢
  constructor
  · intro stays
    have longer : machine.stepBound ≤ (machine.withLimit limit).stepBound := by
      unfold Machine.stepBound Machine.withLimit
      dsimp only
      omega
    have ended := (Machine.outlasts_hostCall program name arguments
      longer).ends ran larger stays
    rw [Machine.call_eq_hostCall]
    exact Machine.run_of_ran ended
  · intro exceeds
    by_contra none
    have plain : ∀ object, program.Receives object →
        ¬ program.arena.Indexes object :=
      fun object receives below => none ⟨object, receives, below⟩
    have kept : outcome.2.gasLimit = machine.gasLimit :=
      ((Machine.outlasts_hostCall program name arguments
        (Nat.le_refl _)).metered ran).2
    have stays := Machine.notices_hostCall program name arguments plain _ ran
      within noticed
    rw [kept] at stays
    exact Nat.not_lt.mpr stays exceeds

namespace Sample

/-- `let g: i32[][] = [[]];` and
`function f(): i32 \x7b return g[0].push(1); \x7d` -/
def nested : Program :=
  ⟨"index", .entry,
    [.variable ⟨.letBinding, ⟨"g", default⟩, none, some ⟨1⟩, false, [],
        default⟩,
      .function ⟨⟨"f", default⟩, [], none, true, false, [],
        some (.simple "i32" default), some ⟨[⟨0⟩], default⟩, default⟩],
    ⟨#[⟨.literal (.array []), default⟩, ⟨.literal (.array [⟨0⟩]), default⟩,
        ⟨.identifier "g", default⟩, ⟨.literal (.integer 0 "0"), default⟩,
        ⟨.index ⟨2⟩ ⟨3⟩, default⟩, ⟨.member ⟨4⟩ ⟨"push", default⟩, default⟩,
        ⟨.literal (.integer 1 "1"), default⟩, ⟨.call ⟨5⟩ [] [⟨6⟩], default⟩],
      #[⟨.return (some ⟨7⟩), default⟩]⟩,
    default⟩

/-- A machine after the start of `nested` or a call of `f`. -/
def nestedMachine (element : List Value) (gas limit : Nat) : Machine :=
  ⟨⟨[("g", .array [.array element])], []⟩, gas, limit, 0⟩

theorem start_nested :
    Machine.start nested 8 = .ok (nestedMachine [] 2 8) := rfl

end Sample

/-- Nine units of gas are enough to push onto an array in an array. -/
theorem call_withLimit_of_push :
    ((Sample.nestedMachine [] 2 9).withLimit 20).call Sample.nested "f" [] =
      (.ok (.int 1), Sample.nestedMachine [.int 1] 9 20) := by
  have call : (Sample.nestedMachine [] 2 9).call Sample.nested "f" [] =
      (.ok (.int 1), Sample.nestedMachine [.int 1] 9 9) := rfl
  have within : (Sample.nestedMachine [] 2 9).gas ≤
      (Sample.nestedMachine [] 2 9).gasLimit := by decide
  have larger : (Sample.nestedMachine [] 2 9).gasLimit ≤ 20 := by decide
  have same := call_withLimit Sample.nested "f" [] within larger
    (by rw [call]; nofun)
  rw [call] at same
  exact same.1 (by decide)

/-- With eight units the call gives its result all the same, without the
element. -/
theorem call_hides_exhaustion :
    ¬ ∀ (program : Program) (machine : Machine) (limit gasLimit : Nat)
      (name : String) (arguments : List (Option Value)),
      Machine.start program gasLimit = .ok machine →
      machine.gas ≤ machine.gasLimit → machine.gasLimit ≤ limit →
      (machine.call program name arguments).1 ≠ .error .gasExhausted →
        (machine.call program name arguments).2.gas ≤ machine.gasLimit ∧
          ((machine.withLimit limit).call program name arguments).effect =
            (machine.call program name arguments).effect := by
  intro claim
  have call : (Sample.nestedMachine [] 2 8).call Sample.nested "f" [] =
      (.ok (.int 1), Sample.nestedMachine [] 9 8) := rfl
  have within := claim Sample.nested (Sample.nestedMachine [] 2 8) 8 8 "f" []
    Sample.start_nested (by decide) (by decide) (by rw [call]; nofun)
  rw [call] at within
  exact absurd within.1 (by decide)

end PluginSurface
