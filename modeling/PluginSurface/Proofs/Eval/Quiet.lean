import PluginSurface.Proofs.Eval.Agreement

/-!
# Evaluations that start by using gas

Some computations use gas and then go on as simpler ones. How much gas that is
does not depend on the machine, so in a pair of evaluations the start may be
left out: on both sides at any pace, and on one side at the free pace.
-/

namespace PluginSurface.Eval

variable {Result Next : Type}

/-- Uses a number of units of gas. -/
def spend : Nat → Eval Unit
  | 0 => pure ()
  | steps + 1 => do
      tick
      spend steps

/-- Uses gas and then goes on, unless there are too few steps. -/
def quiet (steps : Nat) (enough : Bool) (rest : Eval Result) : Eval Result :=
  spend steps >>= fun _ => if enough then rest else outOfSteps

/-- Over the environments that meet a condition, a computation uses gas and then
goes on as another one, or runs out of steps. -/
def PassesTo (condition : Environment → Prop)
    (computation rest : Eval Result) : Prop :=
  ∃ steps enough, ∀ machine : Machine, condition machine.environment →
    computation machine = quiet steps enough rest machine

theorem spend_succ_bind (steps : Nat) (rest : Eval Result) :
    (spend (steps + 1) >>= fun _ => rest) =
      tick >>= fun _ => spend steps >>= fun _ => rest :=
  bind_assoc _ _ _

theorem spend_add_bind (first second : Nat) (rest : Eval Result) :
    (spend (first + second) >>= fun _ => rest) =
      spend first >>= fun _ => spend second >>= fun _ => rest := by
  induction first with
  | zero =>
      rw [Nat.zero_add]
      rfl
  | succ first inductionHypothesis =>
      rw [Nat.add_right_comm, spend_succ_bind, inductionHypothesis,
        spend_succ_bind]

theorem tick_bind_of_fits {machine : Machine}
    (fits : ¬ machine.gasLimit < machine.gas + 1)
    (rest : Eval Result) :
    (tick >>= fun _ => rest) machine =
      rest { machine with gas := machine.gas + 1 } := by
  change andThen tick _ machine = _
  simp only [andThen, tick, fits, if_false]

theorem tick_bind_of_over {machine : Machine}
    (exceeds : machine.gasLimit < machine.gas + 1)
    (rest : Eval Result) :
    (tick >>= fun _ => rest) machine =
      some (.error .gasExhausted, { machine with gas := machine.gas + 1 }) := by
  change andThen tick _ machine = _
  simp only [andThen, tick, exceeds, if_true]

/-- Using gas leaves the environment as it is, so what follows may be replaced
by what does the same over it. -/
theorem spend_bind_congr {left right : Eval Result} {machine : Machine}
    (same : ∀ after : Machine, after.environment = machine.environment →
      left after = right after) (steps : Nat) :
    (spend steps >>= fun _ => left) machine =
      (spend steps >>= fun _ => right) machine := by
  induction steps generalizing machine with
  | zero => exact same machine rfl
  | succ steps inductionHypothesis =>
      rw [spend_succ_bind, spend_succ_bind]
      by_cases exceeds : machine.gasLimit < machine.gas + 1
      · rw [tick_bind_of_over exceeds, tick_bind_of_over exceeds]
      · rw [tick_bind_of_fits exceeds, tick_bind_of_fits exceeds]
        exact inductionHypothesis same

theorem quiet_bind (steps : Nat) (enough : Bool) (rest : Eval Result)
    (next : Result → Eval Next) :
    (quiet steps enough rest >>= next) =
      quiet steps enough (rest >>= next) := by
  cases enough <;> exact bind_assoc _ _ _

/-- A computation may be replaced by another one on the machine it runs on. -/
theorem bind_congr_first {first second : Eval Result} {machine : Machine}
    (same : first machine = second machine) (next : Result → Eval Next) :
    (first >>= next) machine = (second >>= next) machine := by
  change andThen first next machine = andThen second next machine
  unfold andThen
  rw [same]

/-- As `PassesTo`, with a known number of units of gas and knowing whether there
are enough steps. -/
def Takes (condition : Environment → Prop) (steps : Nat) (enough : Bool)
    (computation rest : Eval Result) : Prop :=
  ∀ machine : Machine, condition machine.environment →
    computation machine = quiet steps enough rest machine

namespace Takes

variable {condition : Environment → Prop} {steps further : Nat}
  {enough : Bool}

theorem refl (computation : Eval Result) :
    Takes condition 0 true computation computation :=
  fun _ _ => rfl

theorem outOfSteps (rest : Eval Result) :
    Takes condition 0 false Eval.outOfSteps rest :=
  fun _ _ => rfl

theorem tick (rest : Eval Result) :
    Takes condition 1 true (Eval.tick >>= fun _ => rest) rest := by
  intro machine _
  change _ = (spend 1 >>= fun _ => rest) machine
  rw [spend_succ_bind]
  rfl

theorem trans {first second third : Eval Result}
    (takes : Takes condition steps true first second)
    (takesMore : Takes condition further enough second third) :
    Takes condition (steps + further) enough first third := by
  intro machine holds
  have quiets : quiet (steps + further) enough third =
      spend steps >>= fun _ => quiet further enough third :=
    spend_add_bind _ _ _
  rw [takes machine holds, quiets]
  exact spend_bind_congr (fun after same => takesMore after (same ▸ holds)) _

/-- What runs out of steps would have gone on as anything. -/
theorem stopped {first second third : Eval Result}
    (takes : Takes condition steps false first second) :
    Takes condition steps false first third :=
  takes

theorem andThen {first rest : Eval Result}
    (takes : Takes condition steps enough first rest)
    (next : Result → Eval Next) :
    Takes condition steps enough (first >>= next) (rest >>= next) := by
  intro machine holds
  rw [bind_congr_first (takes machine holds), quiet_bind]

end Takes

namespace PassesTo

variable {condition : Environment → Prop}

theorem refl (computation : Eval Result) :
    PassesTo condition computation computation :=
  ⟨0, true, Takes.refl computation⟩

theorem outOfSteps (rest : Eval Result) :
    PassesTo condition Eval.outOfSteps rest :=
  ⟨0, false, Takes.outOfSteps rest⟩

theorem tick (rest : Eval Result) :
    PassesTo condition (Eval.tick >>= fun _ => rest) rest :=
  ⟨1, true, Takes.tick rest⟩

theorem trans {first second third : Eval Result}
    (passes : PassesTo condition first second)
    (further : PassesTo condition second third) :
    PassesTo condition first third := by
  obtain ⟨steps, enough, takes⟩ := passes
  obtain ⟨moreSteps, moreEnough, takesMore⟩ := further
  cases enough with
  | true => exact ⟨steps + moreSteps, moreEnough, Takes.trans takes takesMore⟩
  | false => exact ⟨steps, false, Takes.stopped takes⟩

theorem andThen {first rest : Eval Result}
    (passes : PassesTo condition first rest) (next : Result → Eval Next) :
    PassesTo condition (first >>= next) (rest >>= next) := by
  obtain ⟨steps, enough, takes⟩ := passes
  exact ⟨steps, enough, Takes.andThen takes next⟩

theorem bind {first : Eval Result} {next : Result → Eval Next}
    {result : Result} {rest : Eval Next}
    (before : PassesTo condition first (pure result))
    (after : PassesTo condition (next result) rest) :
    PassesTo condition (first >>= next) rest :=
  (before.andThen next).trans after

end PassesTo

/-! ## In a pair of evaluations -/

theorem Agree.spend {pace : Pace} {related : ScopeRelation} :
    ∀ steps : Nat, Agree pace related (spend steps) (spend steps)
  | 0 => .pure ()
  | steps + 1 => .bind .tick fun _ => spend steps

variable {before after failed : ScopeRelation}
  {condition : Environment → Prop} {computation rest : Eval Result}

/-- The start may be left out if both sides compute the same. -/
theorem Leads.after_both {pace : Pace}
    (passes : PassesTo condition computation rest)
    (conditions : ∀ {left right : Machine},
      before left.environment.scopes right.environment.scopes →
        condition left.environment ∧ condition right.environment)
    (weakens : ∀ {lefts rights}, before lefts rights → failed lefts rights)
    (metered : Metered rest)
    (leads : Leads pace before after failed rest rest) :
    Leads pace before after failed computation computation := by
  obtain ⟨steps, enough, does⟩ := passes
  intro leftMachine rightMachine machines
  obtain ⟨leftHolds, rightHolds⟩ := conditions machines.scopes
  rw [does leftMachine leftHolds, does rightMachine rightHolds]
  have spends : Leads pace before before failed (spend steps) (spend steps) :=
    (Agree.spend steps).leads.weaken id id weakens
  refine spends.bind (fun _ _ => trivial) ?_ ?_ ?_ leftMachine rightMachine
    machines
  · exact fun _ => by cases enough; exacts [.outOfSteps, metered]
  · exact fun _ => by cases enough; exacts [.outOfSteps, metered]
  · exact fun _ _ => by cases enough; exacts [fun _ _ _ => .outOfSteps, leads]

/-- At the free pace the start may be left out on one side. -/
theorem Leads.after_right {left : Eval Result}
    (passes : PassesTo condition computation rest)
    (conditions : ∀ {left right : Machine},
      before left.environment.scopes right.environment.scopes →
        condition right.environment)
    (leads : Leads .free before after failed left rest) :
    Leads .free before after failed left computation := by
  obtain ⟨steps, enough, does⟩ := passes
  have goesOn : Leads .free before after failed left
      (if enough then rest else outOfSteps) := by
    cases enough with
    | true => exact leads
    | false => exact fun _ _ _ => .stopped rfl (.inr trivial)
  intro leftMachine rightMachine machines
  rw [does rightMachine (conditions machines.scopes)]
  clear does
  unfold quiet
  induction steps generalizing rightMachine with
  | zero => exact goesOn leftMachine rightMachine machines
  | succ steps inductionHypothesis =>
      rw [spend_succ_bind]
      by_cases exceeds : rightMachine.gasLimit < rightMachine.gas + 1
      · rw [tick_bind_of_over exceeds]
        exact .stopped rfl (.inr exceeds)
      · rw [tick_bind_of_fits exceeds]
        exact inductionHypothesis _
          ⟨machines.globals, machines.scopes, machines.depth, trivial⟩

end PluginSurface.Eval
