import PluginSurface.Eval.Run
import PluginSurface.Proofs.Eval.Scopes

/-!
# Evaluations that agree

Two computations agree if from related machines they come to the same result, or
the same fault, on related machines. Machines are related if they have the same
globals and the same depth and if their local scopes are related. How their gas
relates is a matter of pace. At the free pace a computation that ran out of gas
agrees with anything, which is why a computation has to be metered: gas that was
used does not come back.
-/

namespace PluginSurface

namespace Eval

variable {Result Next : Type}

/-- What a computation leaves: a result or a fault and a machine, or nothing if
the bound on its steps was too small. -/
abbrev Ending (Result : Type) :=
  Option (Except Fault Result × Machine)

theorem pure_bind (result : Result) (next : Result → Eval Next) :
    (pure result >>= next) = next result := rfl

theorem bind_pure (computation : Eval Result) :
    (computation >>= fun result => pure result) = computation := by
  funext machine
  change andThen computation _ machine = _
  unfold andThen
  rcases computation machine with _ | ⟨fault | result, after⟩ <;> rfl

theorem bind_assoc {Last : Type} (first : Eval Result)
    (next : Result → Eval Next) (last : Next → Eval Last) :
    (first >>= next >>= last) =
      first >>= fun result => next result >>= last := by
  funext machine
  change andThen (andThen first next) last machine =
    andThen first (fun result => andThen (next result) last) machine
  unfold andThen
  rcases first machine with _ | ⟨fault | result, middle⟩ <;> rfl

section

variable {first : Eval Result} {next : Result → Eval Next}
  {machine after : Machine}

theorem bind_of_ok {result : Result}
    (ran : first machine = some (.ok result, after))
    (next : Result → Eval Next) :
    (first >>= next) machine = next result after := by
  change andThen first next machine = _
  unfold andThen
  rw [ran]

theorem bind_of_error {fault : Fault}
    (ran : first machine = some (.error fault, after))
    (next : Result → Eval Next) :
    (first >>= next) machine = some (.error fault, after) := by
  change andThen first next machine = _
  unfold andThen
  rw [ran]

/-- What ends has ended with the fault of its first part, or gone on from its
result. -/
theorem bind_cases {outcome : Except Fault Next × Machine}
    (ran : (first >>= next) machine = some outcome) :
    (∃ fault after, first machine = some (.error fault, after) ∧
      outcome = (.error fault, after)) ∨
    ∃ result after, first machine = some (.ok result, after) ∧
      next result after = some outcome := by
  change andThen first next machine = some outcome at ran
  unfold andThen at ran
  rcases step : first machine with _ | ⟨fault | result, after⟩ <;>
    rw [step] at ran
  · cases ran
  · cases ran
    exact .inl ⟨fault, after, rfl, rfl⟩
  · exact .inr ⟨result, after, rfl, ran⟩

theorem exists_of_bind {result : Next}
    (ran : (first >>= next) machine = some (.ok result, after)) :
    ∃ middle between, first machine = some (.ok middle, between) ∧
      next middle between = some (.ok result, after) := by
  rcases bind_cases ran with ⟨_, _, -, ended⟩ | went
  · cases ended
  · exact went

end

/-! ## Gas -/

/-- A computation never gives gas back and keeps the limit. -/
def Metered (computation : Eval Result) : Prop :=
  ∀ ⦃machine : Machine⦄ ⦃outcome : Except Fault Result × Machine⦄,
    computation machine = some outcome →
      machine.gas ≤ outcome.2.gas ∧ outcome.2.gasLimit = machine.gasLimit

/-- Whether a computation ran out of steps or of gas. -/
def Stopped : Ending Result → Prop
  | none => True
  | some (_, after) => after.gasLimit < after.gas

theorem repeatWhile_succ (condition : Eval Value) (body : Eval Flow)
    (bound : Nat) :
    repeatWhile condition body (bound + 1) = do
      let value ← condition
      if value.isTruthy then
        match ← body with
        | .return value => return .return value
        | .normal => repeatWhile condition body bound
      else return .normal := by
  funext machine
  change _ = andThen condition _ machine
  unfold repeatWhile andThen
  rcases condition machine with _ | ⟨fault | value, tested⟩
  · rfl
  · rfl
  · dsimp only
    split
    · change _ = andThen body _ tested
      unfold andThen
      rcases body tested with _ | ⟨fault | _ | value, after⟩ <;> rfl
    · rfl

namespace Metered

theorem pure (result : Result) : Metered (Pure.pure result : Eval Result) := by
  rintro machine _ ⟨rfl⟩
  exact ⟨Nat.le_refl _, rfl⟩

theorem fail (fault : Fault) : Metered (Eval.fail fault : Eval Result) := by
  rintro machine _ ⟨rfl⟩
  exact ⟨Nat.le_refl _, rfl⟩

theorem outOfSteps : Metered (Eval.outOfSteps : Eval Result) := by
  rintro machine _ ⟨⟩

theorem ofExcept (outcome : Except Fault Result) :
    Metered (Eval.ofExcept outcome) := by
  rintro machine _ ⟨rfl⟩
  exact ⟨Nat.le_refl _, rfl⟩

theorem inspect (view : Machine → Result) : Metered (Eval.inspect view) := by
  rintro machine _ ⟨rfl⟩
  exact ⟨Nat.le_refl _, rfl⟩

theorem updateEnvironment (update : Environment → Environment) :
    Metered (Eval.updateEnvironment update) := by
  rintro machine _ ⟨rfl⟩
  exact ⟨Nat.le_refl _, rfl⟩

theorem tick : Metered Eval.tick := by
  intro machine outcome ran
  unfold Eval.tick at ran
  dsimp only at ran
  split at ran <;> cases ran <;> exact ⟨Nat.le_succ _, rfl⟩

theorem variableValue (name : String) :
    Metered (Eval.variableValue name) := by
  intro machine outcome ran
  unfold Eval.variableValue at ran
  split at ran <;> cases ran <;> exact ⟨Nat.le_refl _, rfl⟩

theorem load (place : Place) : Metered (Eval.load place) := by
  rintro machine _ ⟨rfl⟩
  exact ⟨Nat.le_refl _, rfl⟩

theorem store (place : Place) (value : Value) :
    Metered (Eval.store place value) := by
  intro machine outcome ran
  unfold Eval.store at ran
  dsimp only at ran
  split at ran <;> cases ran <;> exact ⟨Nat.le_refl _, rfl⟩

theorem bind {first : Eval Result} {next : Result → Eval Next}
    (before : Metered first) (after : ∀ result, Metered (next result)) :
    Metered (first >>= next) := by
  intro machine outcome ran
  rcases bind_cases ran with ⟨fault, middle, step, rfl⟩ |
    ⟨result, middle, step, ran⟩
  · exact before step
  · obtain ⟨rose, kept⟩ := before step
    obtain ⟨roseFurther, keptFurther⟩ := after result ran
    exact ⟨Nat.le_trans rose roseFurther, keptFurther.trans kept⟩

theorem attempt {body : Eval Result} (metered : Metered body) :
    Metered (Eval.attempt body) := by
  intro machine outcome ran
  unfold Eval.attempt at ran
  split at ran <;> cases ran
  all_goals
    rename_i step
    exact metered step

theorem inScope {body : Eval Result} (metered : Metered body) :
    Metered (Eval.inScope body) := by
  intro machine outcome ran
  unfold Eval.inScope at ran
  split at ran <;> cases ran
  rename_i step
  have bounds := metered step
  exact bounds

theorem inCall {body : Eval Result} (metered : Metered body) :
    Metered (Eval.inCall body) := by
  intro machine outcome ran
  unfold Eval.inCall at ran
  dsimp only at ran
  split at ran <;> cases ran
  rename_i step
  have bounds := metered step
  exact bounds

theorem repeatWhile {condition : Eval Value} {body : Eval Flow}
    (conditionMetered : Metered condition) (bodyMetered : Metered body) :
    ∀ bound, Metered (Eval.repeatWhile condition body bound)
  | 0 => outOfSteps
  | bound + 1 => by
      rw [repeatWhile_succ]
      refine conditionMetered.bind fun value => ?_
      split
      · refine bodyMetered.bind fun flow => ?_
        cases flow with
        | normal => exact repeatWhile conditionMetered bodyMetered bound
        | «return» value => exact pure _
      · exact pure _

/-- From a machine that is out of gas a computation does not recover. -/
theorem stopped {computation : Eval Result} (metered : Metered computation)
    {machine : Machine} (exceeds : machine.gasLimit < machine.gas) :
    Stopped (computation machine) := by
  rcases ran : computation machine with _ | outcome
  · trivial
  · obtain ⟨rose, kept⟩ := metered ran
    change outcome.2.gasLimit < outcome.2.gas
    omega

end Metered

theorem Stopped.bind {first : Eval Result} {next : Result → Eval Next}
    {machine : Machine} (stopped : Stopped (first machine))
    (after : ∀ result, Metered (next result)) :
    Stopped ((first >>= next) machine) := by
  change Stopped (andThen first next machine)
  unfold andThen
  rcases ran : first machine with _ | ⟨fault | result, middle⟩ <;>
    rw [ran] at stopped
  · trivial
  · exact stopped
  · exact (after result).stopped stopped

/-! ## Results -/

/-- All results of a computation have a property. -/
def Returns (computation : Eval Result) (property : Result → Prop) : Prop :=
  ∀ ⦃machine after : Machine⦄ ⦃result : Result⦄,
    computation machine = some (.ok result, after) → property result

namespace Returns

variable {property : Result → Prop}

theorem anything (computation : Eval Result) :
    Returns computation fun _ => True :=
  fun _ _ _ _ => trivial

theorem pure {result : Result} (holds : property result) :
    Returns (Pure.pure result) property := by
  rintro machine _ _ ⟨rfl⟩
  exact holds

theorem fail (fault : Fault) : Returns (Eval.fail fault) property := by
  rintro machine _ _ ⟨⟩

theorem bind {first : Eval Result} {next : Result → Eval Next}
    {later : Next → Prop} (before : Returns first property)
    (after : ∀ result, property result → Returns (next result) later) :
    Returns (first >>= next) later := by
  intro machine ending result ran
  obtain ⟨middle, _, step, ran⟩ := exists_of_bind ran
  exact after middle (before step) ran

theorem attempt {body : Eval Result} (returns : Returns body property) :
    Returns (Eval.attempt body) fun result => ∀ found ∈ result,
      property found := by
  intro machine after result ran
  unfold Eval.attempt at ran
  split at ran <;> cases ran
  · rename_i step
    rintro found ⟨rfl⟩
    exact returns step
  · rintro found ⟨⟩

end Returns

/-! ## Related machines -/

/-- How the gas of two evaluations relates. -/
inductive Pace where
  /-- Both use the same gas under the same limit, and run out of it together. -/
  | lockstep
  /-- Each uses gas of its own, and either may run out of it. -/
  | free

namespace Pace

/-- How the gas that was used and the limit relate. -/
def Meters : Pace → (leftGas leftLimit rightGas rightLimit : Nat) → Prop
  | lockstep, leftGas, leftLimit, rightGas, rightLimit =>
      leftGas = rightGas ∧ leftLimit = rightLimit
  | free, _, _, _, _ => True

/-- How two bounds on the steps of evaluations relate. -/
def Bounds : Pace → Nat → Nat → Prop
  | lockstep, left, right => left = right
  | free, _, _ => True

theorem bounds_stepBound {pace : Pace} {left right : Machine}
    (meters : pace.Meters left.gas left.gasLimit right.gas right.gasLimit) :
    pace.Bounds left.stepBound right.stepBound := by
  cases pace with
  | lockstep =>
      obtain ⟨sameGas, sameLimit⟩ := meters
      simp [Bounds, Machine.stepBound, sameGas, sameLimit]
  | free => trivial

theorem bounds_of_succ {pace : Pace} {left right : Nat}
    (bounds : pace.Bounds (left + 1) (right + 1)) : pace.Bounds left right := by
  cases pace with
  | lockstep => exact Nat.succ.inj bounds
  | free => trivial

end Pace

/-- Machines with the same globals and depth and with related scopes. -/
structure Machines (pace : Pace) (related : ScopeRelation)
    (left right : Machine) : Prop where
  globals : left.environment.globals = right.environment.globals
  scopes : related left.environment.scopes right.environment.scopes
  depth : left.depth = right.depth
  meters :
    pace.Meters left.gas left.gasLimit right.gas right.gasLimit

theorem Machines.weaken {pace : Pace} {stronger weaker : ScopeRelation}
    {left right : Machine} (machines : Machines pace stronger left right)
    (weakens : ∀ {lefts rights}, stronger lefts rights → weaker lefts rights) :
    Machines pace weaker left right :=
  ⟨machines.globals, weakens machines.scopes, machines.depth, machines.meters⟩

theorem Machines.eq {left right : Machine}
    (machines : Machines .lockstep (· = ·) left right) : left = right := by
  obtain ⟨⟨leftGlobals, leftScopes⟩, leftGas, leftLimit, leftDepth⟩ := left
  obtain ⟨⟨rightGlobals, rightScopes⟩, rightGas, rightLimit, rightDepth⟩ :=
    right
  obtain ⟨rfl, rfl, rfl, rfl, rfl⟩ := machines
  rfl

theorem Machines.refl (pace : Pace) (machine : Machine) :
    Machines pace (· = ·) machine machine := by
  refine ⟨rfl, rfl, rfl, ?_⟩
  cases pace with
  | lockstep => exact ⟨rfl, rfl⟩
  | free => trivial

theorem Machines.find?_eq {pace : Pace} {related : ScopeRelation}
    {hidden fixed : String → Prop} {left right : Machine}
    (machines : Machines pace related left right)
    (hides : Environment.Hides related hidden fixed) {name : String}
    (visible : ¬ hidden name) :
    left.environment.find? name = right.environment.find? name := by
  simp only [Environment.find?, hides.find machines.scopes visible,
    machines.globals]

theorem Machines.set {pace : Pace} {related : ScopeRelation}
    {hidden fixed : String → Prop} {left right : Machine}
    (machines : Machines pace related left right)
    (hides : Environment.Hides related hidden fixed) {name : String}
    (visible : ¬ hidden name) (free : ¬ fixed name) (value : Value) :
    Machines pace related
      { left with environment := left.environment.set name value }
      { right with environment := right.environment.set name value } := by
  have sameFound := hides.find machines.scopes visible
  unfold Environment.set
  rw [sameFound, machines.globals]
  split
  · exact ⟨rfl, hides.set value machines.scopes visible free, machines.depth,
      machines.meters⟩
  · split
    · exact ⟨rfl, machines.scopes, machines.depth, machines.meters⟩
    · exact machines

/-- The same result on related machines, the same fault on related machines, or
no result on either side. At the free pace one side may have stopped. -/
inductive Outcomes (pace : Pace) (done failed : ScopeRelation) :
    Ending Result → Ending Result → Prop where
  | done {result : Result} {left right : Machine}
      (machines : Machines pace done left right) :
      Outcomes pace done failed (some (.ok result, left))
        (some (.ok result, right))
  | failed {fault : Fault} {left right : Machine}
      (machines : Machines pace failed left right) :
      Outcomes pace done failed (some (.error fault, left))
        (some (.error fault, right))
  | outOfSteps : Outcomes pace done failed none none
  | stopped {left right : Ending Result} (isFree : pace = .free)
      (exceeds : Stopped left ∨ Stopped right) :
      Outcomes pace done failed left right

theorem Outcomes.weaken {pace : Pace}
    {done failed laterDone laterFailed : ScopeRelation}
    {left right : Ending Result}
    (outcomes : Outcomes pace done failed left right)
    (weakensDone : ∀ {lefts rights}, done lefts rights →
      laterDone lefts rights)
    (weakensFailed : ∀ {lefts rights}, failed lefts rights →
      laterFailed lefts rights) :
    Outcomes pace laterDone laterFailed left right := by
  cases outcomes with
  | done machines => exact .done (machines.weaken weakensDone)
  | failed machines => exact .failed (machines.weaken weakensFailed)
  | outOfSteps => exact .outOfSteps
  | stopped isFree exceeds => exact .stopped isFree exceeds

/-- From machines related by `before` two computations come to the same end, on
machines related by `after` if it is a result and by `failed` if it is a
fault. -/
def Leads (pace : Pace) (before after failed : ScopeRelation)
    (left right : Eval Result) : Prop :=
  ∀ leftMachine rightMachine : Machine,
    Machines pace before leftMachine rightMachine →
      Outcomes pace after failed (left leftMachine) (right rightMachine)

/-- Going on after computations that lead to the same result, which has a
property if the left one gives it on machines related by `before`. -/
theorem Leads.bind {pace : Pace}
    {before middle after failed : ScopeRelation} {property : Result → Prop}
    {left right : Eval Result} {leftNext rightNext : Result → Eval Next}
    (first : Leads pace before middle failed left right)
    (returns : ∀ {machine later : Machine} {rights : List Scope}
      {result : Result}, before machine.environment.scopes rights →
        left machine = some (.ok result, later) → property result)
    (leftMetered : ∀ result, Metered (leftNext result))
    (rightMetered : ∀ result, Metered (rightNext result))
    (second : ∀ result, property result →
      Leads pace middle after failed (leftNext result) (rightNext result)) :
    Leads pace before after failed (left >>= leftNext)
      (right >>= rightNext) := by
  intro leftMachine rightMachine machines
  have outcomes := first _ _ machines
  have leftStops (stopped : Stopped (left leftMachine)) :=
    stopped.bind leftMetered
  have rightStops (stopped : Stopped (right rightMachine)) :=
    stopped.bind rightMetered
  have returned {after : Machine} {result : Result}
      (ran : left leftMachine = some (.ok result, after)) :=
    returns machines.scopes ran
  change Outcomes pace after failed (andThen left leftNext leftMachine)
    (andThen right rightNext rightMachine)
  change _ → Stopped (andThen left leftNext leftMachine) at leftStops
  change _ → Stopped (andThen right rightNext rightMachine) at rightStops
  unfold andThen at *
  generalize left leftMachine = leftEnding,
    right rightMachine = rightEnding at outcomes leftStops rightStops returned ⊢
  cases outcomes with
  | done related => exact second _ (returned rfl) _ _ related
  | failed related => exact .failed related
  | outOfSteps => exact .outOfSteps
  | stopped isFree exceeds =>
      exact .stopped isFree (exceeds.imp leftStops rightStops)

theorem Leads.weaken {pace : Pace}
    {before after failed earlier later laterFailed : ScopeRelation}
    {left right : Eval Result}
    (leads : Leads pace before after failed left right)
    (strengthens : ∀ {lefts rights}, earlier lefts rights →
      before lefts rights)
    (weakens : ∀ {lefts rights}, after lefts rights → later lefts rights)
    (weakensFailed : ∀ {lefts rights}, failed lefts rights →
      laterFailed lefts rights) :
    Leads pace earlier later laterFailed left right :=
  fun _ _ machines =>
    (leads _ _ (machines.weaken strengthens)).weaken weakens weakensFailed

/-- Computations that keep step over equal scopes are the same computation. -/
theorem Leads.eq {left right : Eval Result}
    (leads : Leads .lockstep (· = ·) (· = ·) (· = ·) left right) :
    left = right := by
  funext machine
  have outcomes := leads _ _ (Machines.refl .lockstep machine)
  generalize left machine = leftEnding,
    right machine = rightEnding at outcomes ⊢
  cases outcomes with
  | done machines => rw [machines.eq]
  | failed machines => rw [machines.eq]
  | outOfSteps => rfl
  | stopped isFree => cases isFree

/-- The scopes at the start of a call. -/
def FreshScopes : ScopeRelation :=
  fun left right => left = [[]] ∧ right = [[]]

/-- A call sets the scopes of its caller aside, so its body may leave any
scopes. -/
theorem Leads.inCall {pace : Pace} {related : ScopeRelation}
    {left right : Eval Result}
    (leads : Leads pace FreshScopes Environment.AnyScopes
      Environment.AnyScopes left right) :
    Leads pace related related related (Eval.inCall left)
      (Eval.inCall right) := by
  intro leftMachine rightMachine machines
  have outcomes := leads
    { leftMachine with
      environment := leftMachine.environment.entered
      depth := leftMachine.depth + 1 }
    { rightMachine with
      environment := rightMachine.environment.entered
      depth := rightMachine.depth + 1 }
    ⟨machines.globals, ⟨rfl, rfl⟩, congrArg (· + 1) machines.depth,
      machines.meters⟩
  have restored {left right : Machine}
      (after : Machines pace Environment.AnyScopes left right) :
      Machines pace related
        { left with
          environment :=
            left.environment.restored leftMachine.environment.scopes
          depth := leftMachine.depth }
        { right with
          environment :=
            right.environment.restored rightMachine.environment.scopes
          depth := rightMachine.depth } :=
    ⟨after.globals, machines.scopes, machines.depth, after.meters⟩
  unfold Eval.inCall
  dsimp only
  revert outcomes
  generalize left _ = leftEnding, right _ = rightEnding
  intro outcomes
  cases outcomes with
  | done after => exact .done (restored after)
  | failed after => exact .failed (restored after)
  | outOfSteps => exact .outOfSteps
  | stopped isFree exceeds =>
      refine .stopped isFree (exceeds.imp ?_ ?_) <;> intro stopped
      · rcases leftEnding with _ | ⟨outcome, after⟩ <;> exact stopped
      · rcases rightEnding with _ | ⟨outcome, after⟩ <;> exact stopped

/-! ## Agreement -/

/-- From related machines two computations come to the same end on related
machines, and both are metered. -/
structure Agree (pace : Pace) (related : ScopeRelation)
    (left right : Eval Result) : Prop where
  leftMetered : Metered left
  rightMetered : Metered right
  leads : Leads pace related related related left right

namespace Agree

variable {pace : Pace} {related : ScopeRelation}
  {hidden fixed : String → Prop}

theorem pure (result : Result) :
    Agree pace related (Pure.pure result) (Pure.pure result) :=
  ⟨.pure result, .pure result, fun _ _ machines => .done machines⟩

theorem fail (fault : Fault) :
    Agree pace related (Eval.fail fault : Eval Result) (Eval.fail fault) :=
  ⟨.fail fault, .fail fault, fun _ _ machines => .failed machines⟩

theorem outOfSteps :
    Agree pace related (Eval.outOfSteps : Eval Result) Eval.outOfSteps :=
  ⟨.outOfSteps, .outOfSteps, fun _ _ _ => .outOfSteps⟩

/-- At the free pace a computation agrees with one that has no steps left. -/
theorem stopped_left {right : Eval Result} (metered : Metered right) :
    Agree .free related Eval.outOfSteps right :=
  ⟨.outOfSteps, metered, fun _ _ _ => .stopped rfl (.inl trivial)⟩

theorem stopped_right {left : Eval Result} (metered : Metered left) :
    Agree .free related left Eval.outOfSteps :=
  ⟨metered, .outOfSteps, fun _ _ _ => .stopped rfl (.inr trivial)⟩

theorem ofExcept (outcome : Except Fault Result) :
    Agree pace related (Eval.ofExcept outcome) (Eval.ofExcept outcome) := by
  refine ⟨.ofExcept outcome, .ofExcept outcome, fun _ _ machines => ?_⟩
  cases outcome with
  | ok result => exact .done machines
  | error fault => exact .failed machines

theorem bind {left right : Eval Result}
    {leftNext rightNext : Result → Eval Next}
    (first : Agree pace related left right)
    (second : ∀ result,
      Agree pace related (leftNext result) (rightNext result)) :
    Agree pace related (left >>= leftNext) (right >>= rightNext) where
  leftMetered := first.leftMetered.bind fun result =>
    (second result).leftMetered
  rightMetered := first.rightMetered.bind fun result =>
    (second result).rightMetered
  leads := first.leads.bind (fun _ _ => trivial)
    (fun result => (second result).leftMetered)
    (fun result => (second result).rightMetered)
    fun result _ => (second result).leads

theorem bind_returning {property : Result → Prop} {left right : Eval Result}
    {leftNext rightNext : Result → Eval Next}
    (first : Agree pace related left right) (returns : Returns left property)
    (leftMetered : ∀ result, Metered (leftNext result))
    (rightMetered : ∀ result, Metered (rightNext result))
    (second : ∀ result, property result →
      Agree pace related (leftNext result) (rightNext result)) :
    Agree pace related (left >>= leftNext) (right >>= rightNext) where
  leftMetered := first.leftMetered.bind leftMetered
  rightMetered := first.rightMetered.bind rightMetered
  leads := first.leads.bind (fun _ ran => returns ran) leftMetered rightMetered
    fun result holds => (second result holds).leads

theorem inspect {view : Machine → Result}
    (same : ∀ {left right}, Machines pace related left right →
      view left = view right) :
    Agree pace related (Eval.inspect view) (Eval.inspect view) := by
  refine ⟨.inspect view, .inspect view, fun left right machines => ?_⟩
  unfold Eval.inspect
  rw [same machines]
  exact .done machines

theorem tick : Agree pace related Eval.tick Eval.tick := by
  refine ⟨.tick, .tick, fun left right machines => ?_⟩
  unfold Eval.tick
  dsimp only
  cases pace with
  | lockstep =>
      obtain ⟨sameGas, sameLimit⟩ := machines.meters
      have after : Machines .lockstep related
          { left with gas := left.gas + 1 }
          { right with gas := right.gas + 1 } :=
        ⟨machines.globals, machines.scopes, machines.depth,
          congrArg (· + 1) sameGas, sameLimit⟩
      by_cases exceeds : left.gasLimit < left.gas + 1
      · have overRight : right.gasLimit < right.gas + 1 := by omega
        rw [if_pos exceeds, if_pos overRight]
        exact .failed after
      · have fitsRight : ¬ right.gasLimit < right.gas + 1 := by omega
        rw [if_neg exceeds, if_neg fitsRight]
        exact .done after
  | free =>
      have after : Machines .free related { left with gas := left.gas + 1 }
          { right with gas := right.gas + 1 } :=
        ⟨machines.globals, machines.scopes, machines.depth, trivial⟩
      by_cases exceeds : left.gasLimit < left.gas + 1
      · rw [if_pos exceeds]
        exact .stopped rfl (.inl exceeds)
      · by_cases overRight : right.gasLimit < right.gas + 1
        · rw [if_pos overRight]
          exact .stopped rfl (.inr overRight)
        · rw [if_neg exceeds, if_neg overRight]
          exact .done after

/-! ### Variables -/

theorem variableValue (hides : Environment.Hides related hidden fixed)
    {name : String} (visible : ¬ hidden name) :
    Agree pace related (Eval.variableValue name)
      (Eval.variableValue name) := by
  refine ⟨.variableValue name, .variableValue name,
    fun left right machines => ?_⟩
  unfold Eval.variableValue
  rw [machines.find?_eq hides visible]
  split
  · exact .done machines
  · exact .failed machines

theorem load (hides : Environment.Hides related hidden fixed) {place : Place}
    (visible : ¬ hidden place.root) :
    Agree pace related (Eval.load place) (Eval.load place) := by
  refine ⟨.load place, .load place, fun left right machines => ?_⟩
  unfold Eval.load Environment.load
  rw [machines.find?_eq hides visible]
  split
  · cases (Value.followAll _ place.path) with
    | ok value => exact .done machines
    | error fault => exact .failed machines
  · exact .failed machines

theorem store (hides : Environment.Hides related hidden fixed) {place : Place}
    (visible : ¬ hidden place.root) (free : ¬ fixed place.root)
    (value : Value) :
    Agree pace related (Eval.store place value) (Eval.store place value) := by
  refine ⟨.store place value, .store place value,
    fun left right machines => ?_⟩
  unfold Eval.store Environment.store
  rw [machines.find?_eq hides visible]
  rcases right.environment.find? place.root with _ | target
  · exact .failed machines
  · dsimp only
    rcases target.assign place.path value with ⟨_ | fault, after⟩
    · exact .done (machines.set hides visible free after)
    · exact .failed (machines.set hides visible free after)

theorem define (name : String) (value : Value) :
    Agree pace (Environment.ScopesAlikeOff hidden) (Eval.define name value)
      (Eval.define name value) := by
  refine ⟨.updateEnvironment _, .updateEnvironment _,
    fun left right machines => .done ?_⟩
  obtain ⟨globals, scopes, depth, meters⟩ := machines
  rcases leftEnvironment : left.environment with ⟨leftGlobals, leftScopes⟩
  rcases rightEnvironment : right.environment with ⟨rightGlobals, rightScopes⟩
  rw [leftEnvironment, rightEnvironment] at globals scopes
  cases scopes with
  | nil => exact ⟨by simp_all [Environment.define], .nil, depth, meters⟩
  | cons first rest =>
      exact ⟨by simp_all [Environment.define],
        .cons (first.insert name value) rest, depth, meters⟩

/-! ### Control -/

theorem attempt {left right : Eval Result}
    (agree : Agree pace related left right) :
    Agree pace related (Eval.attempt left) (Eval.attempt right) := by
  refine ⟨agree.leftMetered.attempt, agree.rightMetered.attempt,
    fun leftMachine rightMachine machines => ?_⟩
  have outcomes := agree.leads _ _ machines
  unfold Eval.attempt
  generalize left leftMachine = leftEnding,
    right rightMachine = rightEnding at outcomes ⊢
  cases outcomes with
  | done after => exact .done after
  | failed after => exact .done after
  | outOfSteps => exact .outOfSteps
  | stopped isFree exceeds =>
      refine .stopped isFree (exceeds.imp ?_ ?_) <;> intro stopped
      · rcases leftEnding with _ | ⟨fault | result, after⟩ <;> exact stopped
      · rcases rightEnding with _ | ⟨fault | result, after⟩ <;> exact stopped

theorem inScope {left right : Eval Result}
    (agree : Agree pace (Environment.ScopesAlikeOff hidden) left right) :
    Agree pace (Environment.ScopesAlikeOff hidden) (Eval.inScope left)
      (Eval.inScope right) := by
  refine ⟨agree.leftMetered.inScope, agree.rightMetered.inScope,
    fun leftMachine rightMachine machines => ?_⟩
  have outcomes := agree.leads
    { leftMachine with environment := leftMachine.environment.push }
    { rightMachine with environment := rightMachine.environment.push }
    ⟨machines.globals, machines.scopes.push, machines.depth, machines.meters⟩
  have popped {left right : Machine}
      (after : Machines pace (Environment.ScopesAlikeOff hidden) left right) :
      Machines pace (Environment.ScopesAlikeOff hidden)
        { left with environment := left.environment.pop }
        { right with environment := right.environment.pop } :=
    ⟨after.globals, after.scopes.pop, after.depth, after.meters⟩
  unfold Eval.inScope
  revert outcomes
  generalize left _ = leftEnding, right _ = rightEnding
  intro outcomes
  cases outcomes with
  | done after => exact .done (popped after)
  | failed after => exact .failed (popped after)
  | outOfSteps => exact .outOfSteps
  | stopped isFree exceeds =>
      refine .stopped isFree (exceeds.imp ?_ ?_) <;> intro stopped
      · rcases leftEnding with _ | ⟨outcome, after⟩ <;> exact stopped
      · rcases rightEnding with _ | ⟨outcome, after⟩ <;> exact stopped

theorem inCall {left right : Eval Result}
    (agree : Agree pace Environment.ScopesAlike left right) :
    Agree pace related (Eval.inCall left) (Eval.inCall right) where
  leftMetered := agree.leftMetered.inCall
  rightMetered := agree.rightMetered.inCall
  leads := by
    refine (agree.leads.weaken ?_ ?_ ?_).inCall
    · rintro lefts rights ⟨rfl, rfl⟩
      exact .cons (.refl []) .nil
    · exact fun _ => trivial
    · exact fun _ => trivial

theorem repeatWhile {leftCondition rightCondition : Eval Value}
    {leftBody rightBody : Eval Flow}
    (conditions : Agree pace related leftCondition rightCondition)
    (bodies : Agree pace related leftBody rightBody) :
    ∀ {leftBound rightBound : Nat}, pace.Bounds leftBound rightBound →
      Agree pace related (Eval.repeatWhile leftCondition leftBody leftBound)
        (Eval.repeatWhile rightCondition rightBody rightBound)
  | leftBound, rightBound, bounds => by
      have leftMetered := conditions.leftMetered.repeatWhile
        bodies.leftMetered leftBound
      have rightMetered := conditions.rightMetered.repeatWhile
        bodies.rightMetered rightBound
      cases leftBound with
      | zero =>
          cases pace with
          | lockstep => cases bounds; exact .outOfSteps
          | free => exact .stopped_left rightMetered
      | succ leftBound =>
          cases rightBound with
          | zero =>
              cases pace with
              | lockstep => cases bounds
              | free => exact .stopped_right leftMetered
          | succ rightBound =>
              rw [repeatWhile_succ, repeatWhile_succ]
              refine conditions.bind fun value => ?_
              split
              · refine bodies.bind fun flow => ?_
                cases flow with
                | normal =>
                    exact repeatWhile conditions bodies
                      (Pace.bounds_of_succ bounds)
                | «return» value => exact .pure _
              · exact .pure _

/-- A loop may go around as often as its gas allows. -/
theorem loop {leftCondition rightCondition : Eval Value}
    {leftBody rightBody : Eval Flow}
    (conditions : Agree pace related leftCondition rightCondition)
    (bodies : Agree pace related leftBody rightBody) :
    Agree pace related
      (Eval.inspect Machine.stepBound >>=
        Eval.repeatWhile leftCondition leftBody)
      (Eval.inspect Machine.stepBound >>=
        Eval.repeatWhile rightCondition rightBody) where
  leftMetered := (Metered.inspect _).bind
    (conditions.leftMetered.repeatWhile bodies.leftMetered)
  rightMetered := (Metered.inspect _).bind
    (conditions.rightMetered.repeatWhile bodies.rightMetered)
  leads _ _ machines :=
    (conditions.repeatWhile bodies
      (Pace.bounds_stepBound machines.meters)).leads _ _ machines

end Agree

/-! ## Whole evaluations -/

/-- An evaluation did not run out of gas, nor use more than its limit where
running out of it went unnoticed. -/
def WithinGas (outcome : Outcome Result) : Prop :=
  outcome.1 ≠ .error .gasExhausted ∧ outcome.2.gas ≤ outcome.2.gasLimit

/-- Evaluations that end alike within their gas have the same outcome and leave
the same global variables. -/
theorem Outcomes.run_eq {machine : Machine} {done failed : ScopeRelation}
    {left right : Nat → Eval Result}
    (outcomes : Outcomes .free done failed (left machine.stepBound machine)
      (right machine.stepBound machine))
    (leftWithin : WithinGas (machine.run left))
    (rightWithin : WithinGas (machine.run right)) :
    (machine.run left).1 = (machine.run right).1 ∧
      (machine.run left).2.environment.globals =
        (machine.run right).2.environment.globals := by
  have exceeds {ending : Ending Result} (stopped : Stopped ending) :
      ¬ WithinGas (ending.getD (.error .gasExhausted, machine)) := by
    rcases ending with _ | outcome
    · exact fun within => within.1 rfl
    · exact fun within => Nat.not_lt.mpr within.2 stopped
  unfold Machine.run at leftWithin rightWithin ⊢
  generalize left machine.stepBound machine = leftEnding,
    right machine.stepBound machine = rightEnding at *
  cases outcomes with
  | done machines => exact ⟨rfl, machines.globals⟩
  | failed machines => exact ⟨rfl, machines.globals⟩
  | outOfSteps => exact (leftWithin.1 rfl).elim
  | stopped _ stops =>
      rcases stops with leftStops | rightStops
      · exact (exceeds leftStops leftWithin).elim
      · exact (exceeds rightStops rightWithin).elim

end Eval

end PluginSurface
