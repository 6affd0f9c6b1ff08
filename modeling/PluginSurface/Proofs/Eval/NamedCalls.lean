import Mathlib.Data.List.Nodup
import PluginSurface.Proofs.Eval.Simulation

/-!
# Which function a call names

A call by name looks for a host name first and for a declared identifier only
then. A function with a body goes by its identifier, so with identifiers that
are all different only an import can come between a call and the function that
it names, and it does so by its place in the program.
-/

namespace PluginSurface

open Eval Interpreter

/-- Evaluates the arguments of a call and calls a function with them. -/
def Interpreter.evalCallOf (run : Interpreter) (function : FunctionDecl)
    (arguments : List ExprId) : Eval Value := do
  tick
  let values ← evalAll run arguments
  let (result, _) ← invoke run function none (values.map some)
  return result

namespace FunctionDecl

variable {function : FunctionDecl} {name : String}

/-- Only an import has a name other than its identifier. -/
theorem body_eq_none_of_resolvedName (named : function.resolvedName = name)
    (different : function.name.text ≠ name) : function.body = none := by
  cases hasBody : function.body with
  | none => rfl
  | some body =>
      unfold resolvedName at named
      rw [hasBody] at named
      exact absurd named different

end FunctionDecl

namespace Program

variable {program : Program} {before after : List FunctionDecl}
  {function reached : FunctionDecl} {name : String}

/-- The function that a call by name reaches if one is declared under it. -/
def reachedBy (program : Program) (function : FunctionDecl) : FunctionDecl :=
  (program.function? function.name.text).getD function

/-- Identifiers that are all different single out their functions. -/
def DistinctIdentifiers (program : Program) : Prop :=
  (program.functions.map fun function => function.name.text).Nodup

theorem DistinctIdentifiers.ne (distinct : program.DistinctIdentifiers)
    (declared : program.functions = before ++ function :: after)
    {other : FunctionDecl} (member : other ∈ before ∨ other ∈ after) :
    other.name.text ≠ function.name.text := by
  unfold DistinctIdentifiers at distinct
  rw [declared, List.map_append, List.map_cons, List.nodup_middle,
    List.nodup_cons, ← List.map_append] at distinct
  intro same
  apply distinct.1
  rw [← same]
  exact List.mem_map_of_mem (List.mem_append.mpr member)

theorem DistinctIdentifiers.callee?_eq (distinct : program.DistinctIdentifiers)
    (declared : program.functions = before ++ function :: after) :
    program.callee? function.name.text =
      some (program.reachedBy function) := by
  have first : program.functions.find? (fun other =>
      other.name.text == function.name.text) = some function := by
    rw [List.find?_eq_some_iff_append]
    refine ⟨beq_self_eq_true _, before, after, declared, fun other member => ?_⟩
    have apart := distinct.ne declared (.inl member)
    simpa using apart
  unfold callee? reachedBy
  rw [first]
  cases program.function? function.name.text <;> rfl

/-- Either no import stands between a function and its name, or the first one
does. -/
theorem reachedBy_cases
    (declared : program.functions = before ++ function :: after) :
    (program.reachedBy function = function ∧
      (∀ other ∈ before, other.resolvedName ≠ function.name.text) ∧
        (function.resolvedName = function.name.text ∨
          ∀ other ∈ after, other.resolvedName ≠ function.name.text)) ∨
    ∃ other, program.reachedBy function = other ∧
      other.resolvedName = function.name.text ∧
        (other ∈ before ∨
          other ∈ after ∧ function.resolvedName ≠ function.name.text) := by
  have goesBy {functions : List FunctionDecl} {other : FunctionDecl}
      (found : functions.find? (fun other =>
        other.resolvedName == function.name.text) = some other) :
      other.resolvedName = function.name.text := by
    simpa using List.find?_some found
  have never {functions : List FunctionDecl}
      (none : functions.find? (fun other =>
        other.resolvedName == function.name.text) = none) :
      ∀ other ∈ functions, other.resolvedName ≠ function.name.text := by
    simpa using none
  unfold reachedBy function?
  rw [declared, List.find?_append, List.find?_cons]
  cases early : before.find? fun other =>
      other.resolvedName == function.name.text with
  | some other =>
      exact .inr ⟨other, rfl, goesBy early,
        .inl (List.mem_of_find?_eq_some early)⟩
  | none =>
      by_cases own : function.resolvedName = function.name.text
      · left
        refine ⟨?_, never early, .inl own⟩
        rw [beq_iff_eq.mpr own]
        rfl
      · rw [beq_eq_false_iff_ne.mpr own]
        cases late : after.find? fun other =>
            other.resolvedName == function.name.text with
        | none => exact .inl ⟨rfl, never early, .inr (never late)⟩
        | some other =>
            exact .inr ⟨other, rfl, goesBy late,
              .inr ⟨List.mem_of_find?_eq_some late, own⟩⟩

theorem DistinctIdentifiers.reachedBy_eq_iff
    (distinct : program.DistinctIdentifiers)
    (declared : program.functions = before ++ function :: after) :
    program.reachedBy function = function ↔
      (∀ other ∈ before, other.resolvedName ≠ function.name.text) ∧
        (function.resolvedName = function.name.text ∨
          ∀ other ∈ after, other.resolvedName ≠ function.name.text) := by
  rcases reachedBy_cases declared with
    ⟨same, free⟩ | ⟨other, same, named, place⟩
  · exact iff_of_true same free
  · have member : other ∈ before ∨ other ∈ after := place.imp_right And.left
    have apart : other ≠ function := fun isFunction =>
      distinct.ne declared member (congrArg (·.name.text) isFunction)
    refine iff_of_false (same ▸ apart) fun ⟨freeBefore, freeAfter⟩ => ?_
    rcases place with inBefore | ⟨inAfter, renamed⟩
    · exact freeBefore other inBefore named
    · rcases freeAfter with own | freeAfter
      · exact renamed own
      · exact freeAfter other inAfter named

/-- What is reached instead of a function is an import, so that no other body is
run. -/
theorem DistinctIdentifiers.import_of_ne
    (distinct : program.DistinctIdentifiers)
    (declared : program.functions = before ++ function :: after)
    (misses : program.reachedBy function ≠ function) :
    (program.reachedBy function).body = none ∧
      (program.reachedBy function).resolvedName = function.name.text := by
  rcases reachedBy_cases declared with
    ⟨same, -⟩ | ⟨other, same, named, place⟩
  · exact absurd same misses
  · have member : other ∈ before ∨ other ∈ after := place.imp_right And.left
    have different := distinct.ne declared member
    rw [same]
    exact ⟨FunctionDecl.body_eq_none_of_resolvedName named different, named⟩

end Program

/-- In a program whose functions all have different identifiers, a call by the
identifier of one of them calls that function, unless an import goes by the
identifier that stands before it, or anywhere if the function itself goes by
another name. The call fails as the call of an import then, and never runs
another body. -/
theorem evalExpr_call_of_identifier {program : Program}
    {before after : List FunctionDecl} {function : FunctionDecl}
    {id callee : ExprId} {types : List TypeExpr} {arguments : List ExprId}
    (distinct : (program.functions.map fun other => other.name.text).Nodup)
    (declared : program.functions = before ++ function :: after)
    (called : (program.arena.expr id).node = .call callee types arguments)
    (named : (program.arena.expr callee).node = .identifier function.name.text)
    (notBase : function.name.text ≠ "super") :
    (∀ bound, evalExpr program (bound + 1) id =
      (interpreter program bound).evalCallOf (program.reachedBy function)
        arguments) ∧
    (program.reachedBy function = function ↔
      (∀ other ∈ before, other.resolvedName ≠ function.name.text) ∧
        (function.resolvedName = function.name.text ∨
          ∀ other ∈ after, other.resolvedName ≠ function.name.text)) ∧
    (program.reachedBy function ≠ function →
      (program.reachedBy function).body = none ∧
        (program.reachedBy function).resolvedName = function.name.text) ∧
    ((program.reachedBy function).body = none →
      ∀ (run : Interpreter) (values : List (Option Value)),
        run.invoke (program.reachedBy function) none values =
          if (program.reachedBy function).params.length < values.length then
            fail (.arityMismatch (program.reachedBy function).resolvedName
              (program.reachedBy function).params.length values.length)
          else
            fail (.hostImport (program.reachedBy function).resolvedName)) := by
  have apart : program.DistinctIdentifiers := distinct
  refine ⟨fun bound => ?_, apart.reachedBy_eq_iff declared,
    apart.import_of_ne declared,
    fun noBody run values => run.invoke_host noBody none values⟩
  have found := apart.callee?_eq declared
  have looksUp : lookUp program function.name.text =
      pure (program.reachedBy function) := by
    unfold lookUp
    rw [found]
  rw [evalExpr_succ]
  unfold exprStep
  rw [called]
  dsimp only
  unfold evalCall
  rw [named]
  dsimp only
  rw [if_neg notBase, looksUp]
  rfl

namespace Sample

def textParam : Param :=
  ⟨⟨"text", default⟩, .simple "string" default, none, default⟩

/-- `export function log(text: string): i32 \x7b return 1; \x7d` -/
def log : FunctionDecl :=
  ⟨⟨"log", default⟩, [], none, true, false, [textParam],
    some (.simple "i32" default), some ⟨[⟨0⟩], default⟩, default⟩

/-- `@external("host", "log")` before
`declare function hostLog(text: string): void;` -/
def hostLog : FunctionDecl :=
  ⟨⟨"hostLog", default⟩, [⟨⟨"external", default⟩, [⟨0⟩, ⟨1⟩], default⟩],
    some ⟨some "host", "log"⟩, false, true, [textParam],
    some (.simple "void" default), none, default⟩

/-- `export function f(): i32`, which returns the value of a call. -/
def caller : FunctionDecl :=
  ⟨⟨"f", default⟩, [], none, true, false, [], some (.simple "i32" default),
    some ⟨[⟨1⟩], default⟩, default⟩

/-- A program whose caller returns `log("x")`, with `log` or the import in
front. -/
def logging (importFirst : Bool) : Program :=
  ⟨"index", .entry,
    (if importFirst then [hostLog, log, caller]
      else [log, hostLog, caller]).map .function,
    ⟨#[⟨.literal (.string "host"), default⟩,
        ⟨.literal (.string "log"), default⟩,
        ⟨.literal (.integer 1 "1"), default⟩, ⟨.identifier "log", default⟩,
        ⟨.literal (.string "x"), default⟩, ⟨.call ⟨3⟩ [] [⟨4⟩], default⟩],
      #[⟨.return (some ⟨2⟩), default⟩, ⟨.return (some ⟨5⟩), default⟩]⟩,
    default⟩

/-- `function super(): i32 \x7b return 1; \x7d` -/
def base : FunctionDecl :=
  ⟨⟨"super", default⟩, [], none, false, false, [],
    some (.simple "i32" default), some ⟨[⟨0⟩], default⟩, default⟩

/-- A program whose caller returns `super()`. -/
def basing : Program :=
  ⟨"index", .entry, [.function base, .function caller],
    ⟨#[⟨.literal (.integer 1 "1"), default⟩, ⟨.identifier "super", default⟩,
        ⟨.call ⟨1⟩ [] [], default⟩],
      #[⟨.return (some ⟨0⟩), default⟩, ⟨.return (some ⟨2⟩), default⟩]⟩,
    default⟩

end Sample

/-- A wrapper in front of the import that it stands for is called. -/
theorem evalExpr_call_of_wrapper :
    (Sample.logging false).reachedBy Sample.log = Sample.log ∧
      ∀ bound, evalExpr (Sample.logging false) (bound + 1) ⟨5⟩ =
        (interpreter (Sample.logging false) bound).evalCallOf Sample.log
          [⟨4⟩] := by
  have declared : (Sample.logging false).functions =
      [] ++ Sample.log :: [Sample.hostLog, Sample.caller] := rfl
  have called : ((Sample.logging false).arena.expr ⟨5⟩).node =
      .call ⟨3⟩ [] [⟨4⟩] := rfl
  have calls := evalExpr_call_of_identifier (by decide) declared called rfl
    (by decide)
  have reached := calls.2.1.mpr ⟨nofun, .inl rfl⟩
  have evaluates := calls.1
  rw [reached] at evaluates
  exact ⟨reached, evaluates⟩

/-- In the programs that are admitted, every call by the identifier of a
function calls that function. -/
def CallsByIdentifier (admits : Program → FunctionDecl → Prop) : Prop :=
  ∀ (program : Program) (function : FunctionDecl) (id callee : ExprId)
    (types : List TypeExpr) (arguments : List ExprId),
    program.Closed →
    (program.functions.map fun other => other.name.text).Nodup →
    function ∈ program.functions → admits program function →
    (program.arena.expr id).node = .call callee types arguments →
    (program.arena.expr callee).node = .identifier function.name.text →
    ∀ bound, evalExpr program (bound + 1) id =
      (interpreter program bound).evalCallOf function arguments

/-- An import in front of its wrapper is called in place of it. A function that
is declared as `super` is not called either, also in a program without imports:
the name stands for the constructor of a base class. -/
theorem call_misses_function :
    (¬ CallsByIdentifier fun _ function => function.name.text ≠ "super") ∧
      ¬ CallsByIdentifier fun program _ =>
        ∀ other ∈ program.functions, other.external = none := by
  constructor
  · intro claim
    have same := claim (Sample.logging true) Sample.log ⟨5⟩ ⟨3⟩ [] [⟨4⟩]
      (by decide) (by decide) (.tail _ (.head _)) (by decide) rfl rfl 9
    have importCalled : evalExpr (Sample.logging true) 10 ⟨5⟩ (.initial 10) =
        some (.error (.hostImport "log"), ⟨.empty, 2, 10, 0⟩) := rfl
    have wrapperCalled : (interpreter (Sample.logging true) 9).evalCallOf
        Sample.log [⟨4⟩] (.initial 10) =
          some (.ok (.int 1), ⟨.empty, 4, 10, 0⟩) := rfl
    rw [same, wrapperCalled] at importCalled
    cases importCalled
  · intro claim
    have same := claim Sample.basing Sample.base ⟨2⟩ ⟨1⟩ [] []
      (by decide) (by decide) (.head _) (by decide) rfl rfl 9
    have nothingCalled : evalExpr Sample.basing 10 ⟨2⟩ (.initial 10) =
        some (.ok .null, ⟨.empty, 1, 10, 0⟩) := rfl
    have baseCalled : (interpreter Sample.basing 9).evalCallOf Sample.base []
        (.initial 10) = some (.ok (.int 1), ⟨.empty, 3, 10, 0⟩) := rfl
    rw [same, baseCalled] at nothingCalled
    cases nothingCalled

end PluginSurface
