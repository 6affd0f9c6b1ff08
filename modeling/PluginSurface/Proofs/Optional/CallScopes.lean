import PluginSurface.Proofs.Eval.Agreement
import PluginSurface.Proofs.Eval.Simulation

/-!
# The scope of a call

Two calls of a function may bind its parameters to different values. Until a
parameter is set to the same value on both sides its name is hidden, and it
keeps the value that it was bound to.
-/

namespace PluginSurface

open Environment Eval Interpreter

/-- The values that some names are bound to. -/
abbrev Bindings :=
  List (String × Value)

/-- A scope binds names as told. -/
def Holds (held : Bindings) (scope : Scope) : Prop :=
  ∀ entry ∈ held, scope.find? entry.1 = some entry.2

/-- One scope on each side: the names that are not hidden are bound alike, and
some names are bound as told on either side. -/
inductive CallScopes (hidden : String → Prop) (leftHeld rightHeld : Bindings) :
    ScopeRelation where
  | single {left right : Scope} (alike : AlikeOff hidden left right)
      (leftHolds : Holds leftHeld left) (rightHolds : Holds rightHeld right) :
      CallScopes hidden leftHeld rightHeld [left] [right]

section

variable {hidden : String → Prop} {leftHeld rightHeld : Bindings}

theorem Holds.insert_other {held : Bindings} {scope : Scope}
    (holds : Holds held scope) {name : String}
    (others : ∀ entry ∈ held, entry.1 ≠ name) (value : Value) :
    Holds held (scope.insert name value) := by
  intro entry member
  rw [Dict.find?_insert_other scope (others entry member)]
  exact holds entry member

/-- What is told of a name holds on as long as the name is not assigned. -/
theorem hides_callScopes {fixed : String → Prop}
    (leftKept : ∀ entry ∈ leftHeld, hidden entry.1 ∨ fixed entry.1)
    (rightKept : ∀ entry ∈ rightHeld, hidden entry.1 ∨ fixed entry.1) :
    Hides (CallScopes hidden leftHeld rightHeld) hidden fixed where
  find {_ _ name} related visible := by
    obtain ⟨alike, -, -⟩ := related
    rw [findIn?_singleton, findIn?_singleton]
    exact alike name visible
  set {_ _ name} value related visible free := by
    obtain ⟨alike, leftHolds, rightHolds⟩ := related
    rename_i left right
    have other {held : Bindings}
        (kept : ∀ entry ∈ held, hidden entry.1 ∨ fixed entry.1) :
        ∀ entry ∈ held, entry.1 ≠ name := by
      rintro entry member rfl
      exact (kept entry member).elim visible free
    simp only [setIn, Dict.contains_eq, alike name visible]
    by_cases bound : (right.find? name).isSome
    · simp only [bound, if_true]
      exact .single (alike.insert name value)
        (leftHolds.insert_other (other leftKept) value)
        (rightHolds.insert_other (other rightKept) value)
    · simp only [bound]
      exact .single alike leftHolds rightHolds

theorem CallScopes.right_find? {left right : Environment}
    (scopes : CallScopes hidden leftHeld rightHeld left.scopes right.scopes)
    {name : String} {value : Value} (held : (name, value) ∈ rightHeld) :
    right.find? name = some value := by
  obtain ⟨_, _⟩ := left
  obtain ⟨_, _⟩ := right
  obtain ⟨-, -, rightHolds⟩ := scopes
  simp [Environment.find?, rightHolds _ held]

theorem CallScopes.left_find? {left right : Environment}
    (scopes : CallScopes hidden leftHeld rightHeld left.scopes right.scopes)
    {name : String} {value : Value} (held : (name, value) ∈ leftHeld) :
    left.find? name = some value := by
  obtain ⟨_, _⟩ := left
  obtain ⟨_, _⟩ := right
  obtain ⟨-, leftHolds, -⟩ := scopes
  simp [Environment.find?, leftHolds _ held]

def withScope (machine : Machine) (scope : Scope) : Machine :=
  { machine with environment := { machine.environment with scopes := [scope] } }

/-! ## Binding one name -/

/-- In a scope that binds some names as told, a computation binds a name to a
value and leaves all other names. -/
def Binds (held : Bindings) (name : String) (value : Value)
    (computation : Eval Unit) : Prop :=
  ∀ (machine : Machine) (scope : Scope),
    machine.environment.scopes = [scope] → Holds held scope →
      ∃ after : Scope, computation machine =
          some (.ok (), withScope machine after) ∧
        after.find? name = some value ∧
          ∀ other, other ≠ name → after.find? other = scope.find? other

theorem binds_define (held : Bindings) (name : String) (value : Value) :
    Binds held name value (Eval.define name value) := by
  intro machine scope scopes _
  refine ⟨scope.insert name value, ?_, by simp,
    fun other different => Dict.find?_insert_other scope different value⟩
  simp [Eval.define, updateEnvironment, Environment.define, scopes, withScope]

theorem binds_store {held : Bindings} {name : String} {old : Value}
    (bound : (name, old) ∈ held) (value : Value) :
    Binds held name value (store ⟨name, []⟩ value) := by
  intro machine scope scopes holds
  have found : scope.find? name = some old := holds _ bound
  refine ⟨scope.insert name value, ?_, by simp,
    fun other different => Dict.find?_insert_other scope different value⟩
  simp [Eval.store, Environment.store, Environment.find?, Environment.set,
    scopes, found, Value.assign, setIn_singleton found, withScope]

theorem binds_pure {held : Bindings} {name : String} {value : Value}
    (bound : (name, value) ∈ held) : Binds held name value (pure ()) := by
  intro machine scope scopes holds
  refine ⟨scope, ?_, holds _ bound, fun _ _ => rfl⟩
  rw [withScope, ← scopes]
  rfl

/-- When both sides bind a name to one value, it need not be hidden any
longer. -/
theorem leads_of_binds {pace : Pace} {failed : ScopeRelation}
    {fewer : String → Prop} {leftLater rightLater : Bindings} {name : String}
    {value : Value} {left right : Eval Unit}
    (leftBinds : Binds leftHeld name value left)
    (rightBinds : Binds rightHeld name value right)
    (others : ∀ other, hidden other → other = name ∨ fewer other)
    (leftKept : ∀ entry ∈ leftLater, entry ∈ leftHeld ∧ entry.1 ≠ name)
    (rightKept : ∀ entry ∈ rightLater, entry ∈ rightHeld ∧ entry.1 ≠ name) :
    Leads pace (CallScopes hidden leftHeld rightHeld)
      (CallScopes fewer leftLater rightLater) failed left right := by
  intro leftMachine rightMachine machines
  generalize leftScopes : leftMachine.environment.scopes = lefts,
    rightScopes : rightMachine.environment.scopes = rights at *
  have scopes := machines.scopes
  rw [leftScopes, rightScopes] at scopes
  obtain ⟨alike, leftHolds, rightHolds⟩ := scopes
  obtain ⟨leftAfter, leftRan, leftBound, leftOthers⟩ :=
    leftBinds leftMachine _ leftScopes leftHolds
  obtain ⟨rightAfter, rightRan, rightBound, rightOthers⟩ :=
    rightBinds rightMachine _ rightScopes rightHolds
  rw [leftRan, rightRan]
  refine .done ⟨machines.globals, .single ?_ ?_ ?_, machines.depth,
    machines.meters⟩
  · intro other visible
    by_cases same : other = name
    · rw [same, leftBound, rightBound]
    · rw [leftOthers other same, rightOthers other same]
      refine alike other fun hides => ?_
      exact (others other hides).elim same visible
  · intro entry member
    obtain ⟨before, different⟩ := leftKept entry member
    rw [leftOthers _ different]
    exact leftHolds entry before
  · intro entry member
    obtain ⟨before, different⟩ := rightKept entry member
    rw [rightOthers _ different]
    exact rightHolds entry before

end

/-! ## Binding all parameters -/

def bindAll (scope : Scope) (held : Bindings) : Scope :=
  held.foldl (fun scope entry => scope.insert entry.1 entry.2) scope

theorem find?_bindAll_of_not_mem {name : String} {held : Bindings}
    (missing : name ∉ held.map Prod.fst) (scope : Scope) :
    (bindAll scope held).find? name = scope.find? name := by
  induction held generalizing scope with
  | nil => rfl
  | cons entry rest inductionHypothesis =>
      rw [List.map_cons, List.mem_cons, not_or] at missing
      refine (inductionHypothesis missing.2 _).trans ?_
      exact Dict.find?_insert_other scope missing.1 entry.2

theorem holds_bindAll {held : Bindings} (distinct : (held.map Prod.fst).Nodup)
    (scope : Scope) : Holds held (bindAll scope held) := by
  induction held generalizing scope with
  | nil => exact fun _ member => by cases member
  | cons entry rest inductionHypothesis =>
      rw [List.map_cons, List.nodup_cons] at distinct
      intro other member
      rcases List.mem_cons.mp member with rfl | among
      · refine (find?_bindAll_of_not_mem distinct.1 _).trans ?_
        simp
      · exact inductionHypothesis distinct.2 _ other among

/-- From an empty scope a computation ends in a scope. -/
def EndsIn (scope : Scope) (computation : Eval Unit) : Prop :=
  ∀ machine : Machine, machine.environment.scopes = [[]] →
    computation machine = some (.ok (), withScope machine scope)

theorem endsIn_pure : EndsIn [] (pure ()) := by
  intro machine scopes
  rw [withScope, ← scopes]
  rfl

def bindingsOf (params : List Param) (values : List Value) : Bindings :=
  (params.map fun param => param.name.text).zip values

theorem bindings_named {params : List Param} {values : List Value}
    {entry : String × Value} (member : entry ∈ bindingsOf params values) :
    entry.1 ∈ params.map fun param => param.name.text :=
  (List.of_mem_zip member).1

theorem paramValue_some (run : Interpreter) (function : FunctionDecl)
    (param : Param) (value : Value) :
    paramValue run function param (some value) = pure value := by
  unfold paramValue
  split <;> simp_all

theorem bindParams_supplied (run : Interpreter) (function : FunctionDecl)
    {params : List Param} {values : List Value}
    (count : params.length = values.length) {machine : Machine} {scope : Scope}
    (scopes : machine.environment.scopes = [scope]) :
    bindParams run function params (values.map some) machine =
      some (.ok (), withScope machine
        (bindAll scope (bindingsOf params values))) := by
  induction params generalizing values machine scope with
  | nil =>
      rw [bindParams, bindingsOf, List.map_nil, List.zip_nil_left, bindAll,
        List.foldl_nil, withScope, ← scopes]
      rfl
  | cons param params inductionHypothesis =>
      cases values with
      | nil => cases count
      | cons value values =>
          rw [bindParams_cons]
          change (paramValue run function param (some value) >>= _) _ = _
          rw [paramValue_some, Eval.pure_bind]
          have defined : Eval.define param.name.text value machine =
              some (.ok (), withScope machine
                (scope.insert param.name.text value)) := by
            simp [Eval.define, updateEnvironment, Environment.define, scopes,
              withScope]
          rw [bind_of_ok defined]
          exact inductionHypothesis (Nat.succ.inj count) rfl

theorem endsIn_bindParams (run : Interpreter) (function : FunctionDecl)
    {params : List Param} {values : List Value}
    (count : params.length = values.length) :
    EndsIn (bindAll [] (bindingsOf params values))
      (bindParams run function params (values.map some)) :=
  fun _ scopes => bindParams_supplied run function count scopes

theorem leads_of_endsIn {pace : Pace} {after failed : ScopeRelation}
    {left right : Eval Unit} {leftScope rightScope : Scope}
    (leftEnds : EndsIn leftScope left) (rightEnds : EndsIn rightScope right)
    (related : after [leftScope] [rightScope]) :
    Leads pace FreshScopes after failed left right := by
  intro leftMachine rightMachine machines
  obtain ⟨leftFresh, rightFresh⟩ := machines.scopes
  rw [leftEnds leftMachine leftFresh, rightEnds rightMachine rightFresh]
  exact .done ⟨machines.globals, related, machines.depth, machines.meters⟩

/-! ## The whole call -/

theorem metered_execAll (program : Program) (bound : Nat) (ids : List StmtId) :
    Metered (execAll (interpreter program bound) ids) :=
  ((alike_lockstep (simulates_self program) bound).execAll fun _ _ =>
    .of_inside trivial).leftMetered

theorem metered_bindParams (program : Program) (bound : Nat)
    (function : FunctionDecl) (params : List Param)
    (arguments : List (Option Value)) :
    Metered (bindParams (interpreter program bound) function params
      arguments) :=
  ((alike_lockstep (simulates_self program) bound).bindParams function arguments
    fun _ _ => trivial).leftMetered

theorem metered_runBody (program : Program) (bound : Nat)
    {function : FunctionDecl} {body : Block}
    (hasBody : function.body = some body) (arguments : List (Option Value)) :
    Metered (runBody (interpreter program bound) function body arguments) :=
  ((alike_lockstep (simulates_self program) bound).runBody function body
    arguments hasBody fun _ _ => trivial).leftMetered

def returned : Flow → Eval Value
  | .return value => pure value
  | .normal => pure .null

theorem metered_returned (flow : Flow) : Metered (returned flow) := by
  cases flow <;> exact .pure _

theorem leads_returned {pace : Pace} {before failed : ScopeRelation}
    (weakens : ∀ {lefts rights}, before lefts rights → failed lefts rights)
    (flow : Flow) :
    Leads pace before before failed (returned flow) (returned flow) := by
  cases flow <;> exact (Agree.pure _).leads.weaken id id weakens

theorem runBody_eq (run : Interpreter) (function : FunctionDecl) (body : Block)
    (arguments : List (Option Value)) :
    runBody run function body arguments = (do
      bindParams run function function.params arguments
      let flow ← execAll run body.statements
      returned flow) :=
  rfl

theorem leads_invoke {pace : Pace} {related : ScopeRelation}
    {source target : Program} {leftBound rightBound : Nat}
    {function counterpart : FunctionDecl} {leftBody rightBody : Block}
    {leftArguments rightArguments : List (Option Value)}
    (hasLeft : function.body = some leftBody)
    (hasRight : counterpart.body = some rightBody)
    (leftFits : leftArguments.length ≤ function.params.length)
    (rightFits : rightArguments.length ≤ counterpart.params.length)
    (bodies : Leads pace FreshScopes AnyScopes AnyScopes
      (runBody (interpreter source leftBound) function leftBody leftArguments)
      (runBody (interpreter target rightBound) counterpart rightBody
        rightArguments)) :
    Leads pace related related related
      (invoke (interpreter source leftBound) function none leftArguments)
      (invoke (interpreter target rightBound) counterpart none
        rightArguments) := by
  have leftMetered := metered_runBody source leftBound hasLeft leftArguments
  have rightMetered := metered_runBody target rightBound hasRight rightArguments
  have leftCall : Metered (inCall (do
      let value ← runBody (interpreter source leftBound) function leftBody
        leftArguments
      return (value, (none : Option Value)))) :=
    (leftMetered.bind fun _ => .pure _).inCall
  have rightCall : Metered (inCall (do
      let value ← runBody (interpreter target rightBound) counterpart rightBody
        rightArguments
      return (value, (none : Option Value)))) :=
    (rightMetered.bind fun _ => .pure _).inCall
  simp only [invoke, hasLeft, hasRight, Nat.not_lt.mpr leftFits,
    Nat.not_lt.mpr rightFits, if_false]
  have depths : Agree pace related (inspect Machine.depth)
      (inspect Machine.depth) := .inspect fun machines => machines.depth
  refine depths.leads.bind (fun _ _ => trivial) ?_ ?_ fun depth _ => ?_
  · intro depth
    split
    · exact .fail _
    · exact leftCall
  · intro depth
    split
    · exact .fail _
    · exact rightCall
  · split
    · exact (Agree.fail _).leads
    · refine Leads.inCall ?_
      exact bodies.bind (fun _ _ => trivial) (fun _ => .pure _)
        (fun _ => .pure _) fun value _ => (Agree.pure _).leads

theorem call_of_found {program : Program} {name : String}
    {function : FunctionDecl} (found : program.callee? name = some function)
    (machine : Machine) (arguments : List (Option Value)) :
    machine.call program name arguments = machine.run fun bound => do
      let result ← (interpreter program bound).invoke function none arguments
      return result.1 := by
  simp only [Machine.call, lookUp, found]
  rfl

end PluginSurface
