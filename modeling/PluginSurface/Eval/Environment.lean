import PluginSurface.Eval.Value

/-!
Variables. A name is looked up in the local scopes from the innermost one on
and then among the globals. A call sets the local scopes of its caller aside,
so that the callee sees its own scope and the globals only.
-/

namespace PluginSurface

abbrev Scope :=
  Dict Value

/-- The globals and the local scopes, the innermost one first. -/
structure Environment where
  globals : Scope
  scopes : List Scope
deriving Inhabited

namespace Environment

def empty : Environment :=
  ⟨[], []⟩

def push (environment : Environment) : Environment :=
  { environment with scopes := [] :: environment.scopes }

/-- Closes the innermost local scope, if there is one. -/
def pop (environment : Environment) : Environment :=
  { environment with scopes := environment.scopes.tail }

/-- The environment of a callee: one empty scope over the globals. -/
def entered (environment : Environment) : Environment :=
  { environment with scopes := [[]] }

/-- Brings back the local scopes that a call set aside. -/
def restored (environment : Environment) (frame : List Scope) : Environment :=
  { environment with scopes := frame }

/-- Defines a variable in the innermost scope, or among the globals when there
is no local one. -/
def define (environment : Environment) (name : String) (value : Value) :
    Environment :=
  match environment.scopes with
  | [] =>
      { environment with globals := environment.globals.insert name value }
  | innermost :: rest =>
      { environment with scopes := innermost.insert name value :: rest }

/-- The value of a variable in the first of some scopes that has it. -/
def findIn? (name : String) : List Scope → Option Value
  | [] => none
  | scope :: rest =>
      match scope.find? name with
      | some value => some value
      | none => findIn? name rest

def find? (environment : Environment) (name : String) : Option Value :=
  match findIn? name environment.scopes with
  | some value => some value
  | none => environment.globals.find? name

/-- Changes a variable in the first of some scopes that has it. -/
def setIn (name : String) (value : Value) : List Scope → List Scope
  | [] => []
  | scope :: rest =>
      if scope.contains name then scope.insert name value :: rest
      else scope :: setIn name value rest

/-- Changes a variable in the first scope that has it. A name that no scope has
changes nothing. -/
def set (environment : Environment) (name : String) (value : Value) :
    Environment :=
  if (findIn? name environment.scopes).isSome then
    { environment with scopes := setIn name value environment.scopes }
  else if environment.globals.contains name then
    { environment with globals := environment.globals.insert name value }
  else environment

end Environment

end PluginSurface
