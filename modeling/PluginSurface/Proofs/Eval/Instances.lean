import PluginSurface.Proofs.Eval.Costs
import PluginSurface.Proofs.Eval.Places

/-!
# New instances

The constructor of a new instance runs in a frame of its own. The initializers
of its fields do not: they see the local variables of whoever creates the
instance. So the instance depends on those local variables that an initializer
comes to, and on no others.
-/

namespace PluginSurface

open Eval Interpreter

/-! ## Scopes that differ in some names -/

namespace Environment

/-- Names that are not hidden mean the same in two lists of scopes, whichever of
the scopes it is that binds them. -/
def MeanAlike (hidden : String → Prop) : ScopeRelation :=
  fun left right => ∀ name, ¬ hidden name →
    findIn? name left = findIn? name right

theorem setIn_of_missing {name : String} {scopes : List Scope}
    (missing : findIn? name scopes = none) (value : Value) :
    setIn name value scopes = scopes := by
  induction scopes with
  | nil => rfl
  | cons scope rest inductionHypothesis =>
      unfold findIn? at missing
      unfold setIn
      rw [Dict.contains_eq]
      cases bound : scope.find? name with
      | some held =>
          rw [bound] at missing
          cases missing
      | none =>
          rw [bound] at missing
          simp [inductionHypothesis missing]

theorem hides_meanAlike (hidden fixed : String → Prop) :
    Hides (MeanAlike hidden) hidden fixed where
  find alike visible := alike _ visible
  set {left right name} value alike visible _ := by
    intro other otherVisible
    have before := alike name visible
    by_cases same : other = name
    · subst same
      cases leftBound : findIn? other left with
      | some held =>
          rw [leftBound] at before
          rw [findIn?_setIn_self leftBound, findIn?_setIn_self before.symm]
      | none =>
          rw [leftBound] at before
          rw [setIn_of_missing leftBound, setIn_of_missing before.symm]
          exact alike other otherVisible
    · rw [findIn?_setIn_other same, findIn?_setIn_other same]
      exact alike other otherVisible

end Environment

/-! ## Going on from two machines -/

namespace Eval

variable {Result Next : Type} {middle after failed : ScopeRelation}

/-- Evaluations that keep step up to a result go on to the same end, if they do
so from the very machines that they have come to. -/
theorem Outcomes.bind {left right : Eval Result}
    {leftNext rightNext : Result → Eval Next} {leftMachine rightMachine : Machine}
    (outcomes : Outcomes .lockstep middle failed (left leftMachine)
      (right rightMachine))
    (next : ∀ {result leftAfter rightAfter},
      left leftMachine = some (.ok result, leftAfter) →
      right rightMachine = some (.ok result, rightAfter) →
      Machines .lockstep middle leftAfter rightAfter →
        Outcomes .lockstep after failed (leftNext result leftAfter)
          (rightNext result rightAfter)) :
    Outcomes .lockstep after failed ((left >>= leftNext) leftMachine)
      ((right >>= rightNext) rightMachine) := by
  change Outcomes .lockstep after failed (andThen left leftNext leftMachine)
    (andThen right rightNext rightMachine)
  unfold andThen
  generalize left leftMachine = leftEnding,
    right rightMachine = rightEnding at outcomes next ⊢
  cases outcomes with
  | done machines => exact next rfl rfl machines
  | failed machines => exact .failed machines
  | outOfSteps => exact .outOfSteps
  | stopped isFree => cases isFree

theorem Agree.quiet {pace : Pace} {related : ScopeRelation} (steps : Nat)
    (enough : Bool) {rest : Eval Result} (agree : Agree pace related rest rest) :
    Agree pace related (quiet steps enough rest) (quiet steps enough rest) := by
  refine .bind (.spend steps) fun _ => ?_
  cases enough with
  | true => exact agree
  | false => exact .outOfSteps

end Eval

/-! ## Creating an instance -/

namespace Interpreter

/-- Runs the constructor of a new instance, if its class has one. -/
def construct (run : Interpreter) (className : String) (decl : ClassDecl)
    (created : Value) (arguments : List Value) : Eval Value :=
  match decl.methods.find? fun method =>
      method.name.text == "constructor" with
  | some constructor => do
      let (_, after) ←
        invoke run constructor (some created) (arguments.map some)
      return after.getD created
  | none =>
      if arguments.isEmpty then return created
      else fail (.arityMismatch (className ++ ".constructor") 0
        arguments.length)

variable {program : Program} {type : TypeExpr}

theorem evalNew_of_found (run : Interpreter) {decl : ClassDecl}
    (found : program.class? (type.baseName?.getD "") = some decl)
    (arguments : List ExprId) :
    evalNew program run type arguments = (do
      let fields ← initialFields run [] decl.fields
      let values ← evalAll run arguments
      construct run (type.baseName?.getD "") decl
        (.object (some (type.baseName?.getD "")) fields) values) := by
  simp only [evalNew, found]
  rfl

theorem agree_construct (program : Program) (bound : Nat)
    (related : ScopeRelation) (className : String) (decl : ClassDecl)
    (created : Value) (arguments : List Value) :
    Agree .lockstep related
      (construct (interpreter program bound) className decl created arguments)
      (construct (interpreter program bound) className decl created
        arguments) := by
  have calls (function : FunctionDecl) (receiver : Option Value)
      (values : List (Option Value)) :
      Agree .lockstep related
        (invoke (interpreter program bound) function receiver values)
        (invoke (interpreter program bound) function receiver values) :=
    (alike_lockstep (simulates_self program) bound).invoke function receiver
      values fun _ _ => trivial
  unfold construct
  split
  · exact .bind (calls _ _ _) fun result => .pure _
  · split
    · exact .pure _
    · exact .fail _

end Interpreter

/-- Once the fields of a new instance are initialized, its arguments come to
some values. They use gas for that and change nothing else. -/
def GivesArguments (program : Program) (bound : Nat) (type : TypeExpr)
    (machine : Machine) (arguments : List ExprId) (values : List Value)
    (steps : Nat) (enough : Bool) : Prop :=
  ∀ ⦃decl : ClassDecl⦄ ⦃fields : Dict Value⦄ ⦃after : Machine⦄,
    program.class? (type.baseName?.getD "") = some decl →
    initialFields (interpreter program bound) [] decl.fields machine =
      some (.ok fields, after) →
      evalAll (interpreter program bound) arguments after =
        quiet steps enough (pure values) after

section

variable {program : Program} {bound : Nat} {type : TypeExpr}
  {leftArguments rightArguments : List ExprId} {values : List Value}
  {steps : Nat} {enough : Bool} {hidden : String → Prop}
  {left right : Machine}

/-- Instances that are created from the same values are the same, if no
initializer comes to a hidden name. -/
theorem outcomes_evalNew
    (avoids : ∀ decl,
      program.class? (type.baseName?.getD "") = some decl →
        ∀ initializer ∈ decl.fields.flatMap FieldDecl.points,
          program.Avoids hidden initializer)
    (machines :
      Machines .lockstep (Environment.MeanAlike hidden) left right)
    (leftGives : GivesArguments program bound type left leftArguments values
      steps enough)
    (rightGives : GivesArguments program bound type right rightArguments values
      steps enough) :
    Outcomes .lockstep (Environment.MeanAlike hidden)
      (Environment.MeanAlike hidden)
      (evalNew program (interpreter program bound) type leftArguments left)
      (evalNew program (interpreter program bound) type rightArguments
        right) := by
  cases found : program.class? (type.baseName?.getD "") with
  | none =>
      simp only [evalNew, found]
      exact .failed machines
  | some decl =>
      rw [evalNew_of_found _ found, evalNew_of_found _ found]
      have alike := alike_lockstep (simulates_self program) bound
      have fields := alike.initialFields
        (Environment.hides_meanAlike hidden Environment.NoName) []
        fun initializer member =>
          .of_avoids trivial (avoids decl found _ member)
      refine (fields.leads _ _ machines).bind ?_
      intro fieldValues leftAfter rightAfter leftRan rightRan after
      -- What the arguments do on either side is known from here on.
      rw [bind_congr_first (leftGives found leftRan),
        bind_congr_first (rightGives found rightRan)]
      have argued : Agree .lockstep (Environment.MeanAlike hidden)
          (quiet steps enough (pure values))
          (quiet steps enough (pure values)) :=
        .quiet steps enough (.pure values)
      have constructs := argued.bind fun values =>
        agree_construct program bound _ (type.baseName?.getD "") decl
          (.object (some (type.baseName?.getD "")) fieldValues) values
      exact constructs.leads _ _ after

end

/-- Two states with the same globals, gas and depth give the same instance or
fault, the same globals and the same gas, if every name that a field initializer
comes to means the same in their local variables. -/
theorem new_effect_eq {program : Program} {bound : Nat} {type : TypeExpr}
    {leftId rightId : ExprId} {leftArguments rightArguments : List ExprId}
    {values : List Value} {steps : Nat} {enough : Bool} {left right : Machine}
    (leftNode : (program.arena.expr leftId).node = .new type leftArguments)
    (rightNode : (program.arena.expr rightId).node = .new type rightArguments)
    (globals : left.environment.globals = right.environment.globals)
    (gas : left.gas = right.gas) (limit : left.gasLimit = right.gasLimit)
    (depth : left.depth = right.depth)
    (alike : ∀ initializer ∈ program.created (.expr leftId), ∀ name,
      program.Touches name initializer →
        Environment.findIn? name left.environment.scopes =
          Environment.findIn? name right.environment.scopes)
    (leftGives : GivesArguments program bound type (left.charged 1)
      leftArguments values steps enough)
    (rightGives : GivesArguments program bound type (right.charged 1)
      rightArguments values steps enough) :
    (evalExpr program (bound + 1) leftId left).map Outcome.effect =
      (evalExpr program (bound + 1) rightId right).map Outcome.effect := by
  let hidden : String → Prop := fun name =>
    Environment.findIn? name left.environment.scopes ≠
      Environment.findIn? name right.environment.scopes
  have scopes : Environment.MeanAlike hidden left.environment.scopes
      right.environment.scopes := fun name visible => not_not.mp visible
  have machines : Machines .lockstep (Environment.MeanAlike hidden) left right :=
    ⟨globals, scopes, depth, gas, limit⟩
  have avoids : ∀ decl,
      program.class? (type.baseName?.getD "") = some decl →
        ∀ initializer ∈ decl.fields.flatMap FieldDecl.points,
          program.Avoids hidden initializer := by
    intro decl found initializer member name differs touches
    refine differs (alike initializer ?_ name touches)
    simpa [Program.created, leftNode, found] using member
  have outcomes : Outcomes .lockstep (Environment.MeanAlike hidden)
      (Environment.MeanAlike hidden) (evalExpr program (bound + 1) leftId left)
      (evalExpr program (bound + 1) rightId right) := by
    rw [evalExpr_succ, evalExpr_succ]
    unfold exprStep
    rw [leftNode, rightNode]
    refine (Agree.tick.leads _ _ machines).bind ?_
    intro _ leftAfter rightAfter leftRan rightRan after
    rw [← eq_charged_of_tick leftRan] at leftGives
    rw [← eq_charged_of_tick rightRan] at rightGives
    exact outcomes_evalNew avoids after leftGives rightGives
  exact outcomes.effect_eq

namespace Sample

/-- A class `T` with a field `x: i32 = y` and some methods, and the expressions
`new T()`, `new T(5)` and `new T(z)`. -/
def instances (methods : List FunctionDecl) : Program :=
  ⟨"index", .entry,
    [.class ⟨⟨"T", default⟩, [], false, none,
      [⟨⟨"x", default⟩, .simple "i32" default, some ⟨0⟩, default⟩], methods,
      default⟩],
    ⟨#[⟨.identifier "y", default⟩, ⟨.literal (.integer 5 "5"), default⟩,
        ⟨.identifier "z", default⟩, ⟨.new (.simple "T" default) [], default⟩,
        ⟨.new (.simple "T" default) [⟨1⟩], default⟩,
        ⟨.new (.simple "T" default) [⟨2⟩], default⟩, ⟨.this, default⟩,
        ⟨.member ⟨6⟩ ⟨"x", default⟩, default⟩, ⟨.identifier "a", default⟩,
        ⟨.assign (some .add) ⟨7⟩ ⟨8⟩, default⟩],
      #[⟨.expression ⟨9⟩, default⟩]⟩,
    default⟩

/-- `constructor(a: i32) \x7b this.x += a; \x7d` -/
def adding : FunctionDecl :=
  ⟨⟨"constructor", default⟩, [], none, false, false,
    [⟨⟨"a", default⟩, .simple "i32" default, none, default⟩], none,
    some ⟨[⟨0⟩], default⟩, default⟩

/-- A machine with one scope of local variables. -/
def localMachine (scope : Scope) (gas : Nat) : Machine :=
  ⟨⟨[], [scope]⟩, gas, 100, 0⟩

theorem instances_touches {methods : List FunctionDecl} {name : String}
    (touches : (instances methods).Touches name (.expr ⟨0⟩)) : name = "y" := by
  cases touches with
  | here named => exact List.mem_singleton.mp named
  | part member => cases member
  | created member => cases member

end Sample

/-- An instance whose field takes the value of a local variable `y`, with an
argument that is a number or another variable. -/
theorem new_effect_eq_of_named :
    (evalExpr (Sample.instances [Sample.adding]) 10 ⟨4⟩
        (Sample.localMachine [("y", .int 7)] 0)).map Outcome.effect =
      (evalExpr (Sample.instances [Sample.adding]) 10 ⟨5⟩
        (Sample.localMachine [("y", .int 7), ("z", .int 5)] 0)).map
          Outcome.effect := by
  have alike : ∀ initializer ∈
      (Sample.instances [Sample.adding]).created (.expr ⟨4⟩), ∀ name,
      (Sample.instances [Sample.adding]).Touches name initializer →
        Environment.findIn? name [[("y", .int 7)]] =
          Environment.findIn? name [[("y", .int 7), ("z", .int 5)]] := by
    intro initializer member name touches
    cases List.mem_singleton.mp member
    cases Sample.instances_touches touches
    rfl
  have leftGives : GivesArguments (Sample.instances [Sample.adding]) 9
      (.simple "T" default) (Sample.localMachine [("y", .int 7)] 1) [⟨1⟩]
      [.int 5] 1 true := by
    rintro _ _ _ ⟨rfl⟩ ⟨rfl⟩
    rfl
  have rightGives : GivesArguments (Sample.instances [Sample.adding]) 9
      (.simple "T" default)
      (Sample.localMachine [("y", .int 7), ("z", .int 5)] 1) [⟨2⟩]
      [.int 5] 1 true := by
    rintro _ _ _ ⟨rfl⟩ ⟨rfl⟩
    rfl
  exact new_effect_eq rfl rfl rfl rfl rfl rfl alike leftGives rightGives

/-- A field takes its value from whatever the creator of an instance calls by
the name. -/
theorem new_shows_local :
    ¬ ∀ (program : Program) (bound : Nat) (type : TypeExpr) (id : ExprId)
      (arguments : List ExprId) (values : List Value) (steps : Nat)
      (enough : Bool) (left right : Machine),
      (program.arena.expr id).node = .new type arguments →
      left.environment.globals = right.environment.globals →
      left.gas = right.gas → left.gasLimit = right.gasLimit →
      left.depth = right.depth →
      (∀ machine, evalAll (interpreter program bound) arguments machine =
        quiet steps enough (pure values) machine) →
        (evalExpr program (bound + 1) id left).map Outcome.effect =
          (evalExpr program (bound + 1) id right).map Outcome.effect := by
  intro claim
  have same := claim (Sample.instances []) 9 (.simple "T" default) ⟨3⟩ [] [] 0
    true (Sample.localMachine [("y", .int 7)] 0) (Sample.localMachine [] 0)
    rfl rfl rfl rfl rfl fun _ => rfl
  have bound : evalExpr (Sample.instances []) 10 ⟨3⟩
      (Sample.localMachine [("y", .int 7)] 0) =
        some (.ok (.object (some "T") [("x", .int 7)]),
          Sample.localMachine [("y", .int 7)] 2) := rfl
  have unbound : evalExpr (Sample.instances []) 10 ⟨3⟩
      (Sample.localMachine [] 0) =
        some (.error (.undefinedVariable "y"), Sample.localMachine [] 2) := rfl
  rw [bound, unbound] at same
  cases same

end PluginSurface
