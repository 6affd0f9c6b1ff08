import PluginSurface.Proofs.Optional.Masking

/-!
# Functions that masking leaves alone

A call inside a program still passes the arguments that it is written with when
masking has changed the function that it reaches. As long as evaluation cannot
come to such a call, a program and its masked form are evaluated alike, down to
the gas that is used.
-/

namespace PluginSurface

open Eval Interpreter Masking

/-- No function is called by name, directly or indirectly, that gains a
mask. -/
def CallsNoMasked (source target : Program) (start : List Point) : Prop :=
  ∀ {point : Point} {name : String} {callee : FunctionDecl},
    source.Reaches start point → source.namedCallee? point = some name →
      source.callee? name = some callee → ¬ GainsMask source target callee

section

variable {selected : FunctionDecl → Bool} {source target : Program}
  {start : List Point}

/-- A masked program simulates the original one as far as no masked function is
called. -/
theorem simulates_reaches (masks : MaskedProgram selected source target)
    (closed : source.Closed) (known : start ⊆ source.points)
    (calls : CallsNoMasked source target start) :
    Simulates source target (source.Reaches start) :=
  masks.simulates
    (fun reaches => (reaches.contains fun _ member =>
      .item (known member)).has closed)
    .step calls

theorem evalExpr_eq (simulates : Simulates source target (source.Reaches start))
    {id : ExprId} (reaches : source.Reaches start (.expr id)) (bound : Nat) :
    evalExpr source bound id = evalExpr target bound id :=
  ((alike_lockstep simulates bound).expr
    (Environment.hides_eq _ _) (.of_inside reaches)).leads.eq

theorem defineGlobals_eq {left right : Interpreter} {arena : Arena}
    {items masked : List Item}
    (pairs : List.Forall₂ (MaskedItem selected arena) items masked)
    (same : ∀ decl, .variable decl ∈ items →
      evalOptional left decl.value = evalOptional right decl.value) :
    Machine.defineGlobals source left items =
      Machine.defineGlobals target right masked := by
  induction pairs with
  | nil => rfl
  | @cons item _ _ _ first rest inductionHypothesis =>
      have others := inductionHypothesis fun decl member =>
        same decl (List.mem_cons_of_mem _ member)
      cases first with
      | function => exact others
      | other notFunction =>
          cases item with
          | function function => exact (notFunction function rfl).elim
          | «variable» decl =>
              unfold Machine.defineGlobals
              rw [same decl List.mem_cons_self, others]
          | _ => exact others

/-- The global variables of a program start with the values that they have in
its masked form. -/
theorem start_eq (masks : MaskedProgram selected source target)
    (simulates : Simulates source target (source.Reaches start))
    (globals : source.globalPoints ⊆ start) (gasLimit : Nat) :
    Machine.start target gasLimit = Machine.start source gasLimit := by
  have same (bound : Nat) :
      Machine.defineGlobals source (interpreter source bound) source.items =
        Machine.defineGlobals target (interpreter target bound)
          target.items := by
    refine defineGlobals_eq masks.items fun decl member => ?_
    rcases value : decl.value with _ | id
    · rfl
    · refine evalExpr_eq simulates (.start (globals ?_)) bound
      exact List.mem_flatMap.mpr
        ⟨.variable decl, member, by simp [optionalPoints, value]⟩
  simp only [Machine.start, same]

theorem call_eq (masks : MaskedProgram selected source target)
    (simulates : Simulates source target (source.Reaches start)) {name : String}
    {function : FunctionDecl} (found : source.callee? name = some function)
    (entries : function.entries ⊆ start)
    (unmasked : ¬ GainsMask source target function) (machine : Machine)
    (arguments : List (Option Value)) :
    machine.call target name arguments =
      machine.call source name arguments := by
  have same (bound : Nat) : (do
      let function ← lookUp source name
      let result ← (interpreter source bound).invoke function none arguments
      return result.1) = (do
      let function ← lookUp target name
      let result ← (interpreter target bound).invoke function none arguments
      return result.1) := by
    have pair := masks.callee?_rel name
    unfold lookUp
    rw [found] at pair ⊢
    generalize target.callee? name = counterpart at pair
    cases pair with
    | some pair =>
        dsimp only
        rw [Eval.pure_bind, Eval.pure_bind]
        have alike := alike_lockstep simulates bound
        refine (Agree.bind (alike.invoke_sameCall ?_ none arguments
          fun point member => .start (entries member)) fun _ => .pure _).leads.eq
        exact pair.masks.sameCall fun count => unmasked ⟨_, pair.paired, count⟩
  exact (congrArg machine.run (funext same)).symm

end

/-! ## A function with a default and a function beside it -/

namespace Sample

def parameter (name : String) (initializer : Option ExprId) : Param :=
  ⟨⟨name, default⟩, .simple "i32" default, initializer, default⟩

def function (name : String) (params : List Param) (statements : List StmtId) :
    FunctionDecl :=
  ⟨⟨name, default⟩, [], none, true, false, params,
    some (.simple "i32" default), some ⟨statements, default⟩, default⟩

def arena : Arena :=
  ⟨#[⟨.literal (.integer 1 "1"), default⟩, ⟨.identifier "a", default⟩,
      ⟨.literal (.integer 5 "5"), default⟩, ⟨.identifier "f", default⟩,
      ⟨.call ⟨3⟩ [] [⟨2⟩], default⟩],
    #[⟨.return (some ⟨1⟩), default⟩, ⟨.return (some ⟨2⟩), default⟩,
      ⟨.return (some ⟨4⟩), default⟩]⟩

/-- `function f(a: i32 = 1): i32 \x7b return a; \x7d` -/
def f : FunctionDecl :=
  function "f" [parameter "a" (some ⟨0⟩)] [⟨0⟩]

/-- A function `g` that returns `5` or `f(5)`. -/
def g (calling : Bool) : FunctionDecl :=
  function "g" [] [if calling then ⟨2⟩ else ⟨1⟩]

def source (calling : Bool) : Program :=
  ⟨"index", .entry, [.function f, .function (g calling)], arena, default⟩

def target (calling : Bool) : Program :=
  ⟨"index", .entry,
    [.function (withMask f arena).1, .function (g calling)],
    (withMask f arena).2, default⟩

theorem maskSources_source (calling : Bool) :
    maskSources [source calling] =
      (.ok [target calling], (maskSources [source calling]).2) := by
  cases calling <;> rfl

theorem not_gainsMask_g :
    ¬ GainsMask (source false) (target false) (g false) := by
  rintro ⟨masked, paired, count⟩
  rcases List.mem_cons.mp paired with same | among
  · have functions := Item.function.inj (Prod.mk.inj same).1
    have names : (g false).name.text = f.name.text :=
      congrArg (fun function => function.name.text) functions
    exact absurd names (by decide)
  · cases List.mem_singleton.mp among
    exact absurd count (by decide)

theorem callsNoMasked_g :
    CallsNoMasked (source false) (target false)
      ((source false).globalPoints ++ (g false).entries) := by
  intro point name callee reaches named
  have among : point ∈ [Point.stmt ⟨1⟩, .expr ⟨2⟩] :=
    reaches.among (by decide) (by decide)
  rcases List.mem_pair.mp among with rfl | rfl <;> cases named

end Sample

/-! ## Functions that call no masked one -/

/-- A function that gains no mask is called with the same outcome, the same
globals and the same gas in a program and in its masked form, if neither the
function nor the value of a global variable comes to the call of a function that
gains one. -/
theorem call_eq_of_no_masked_call {programs masked : List Program}
    {context : MaskingContext} {source target : Program}
    (closed : ∀ program ∈ programs, program.Closed)
    (succeeds : maskSources programs = (.ok masked, context))
    (paired : (source, target) ∈ programs.zip masked)
    (notLibrary : source.kind ≠ .library) {name : String}
    {function : FunctionDecl} (found : source.callee? name = some function)
    (unmasked : ¬ GainsMask source target function)
    (calls : CallsNoMasked source target
      (source.globalPoints ++ function.entries)) :
    (∀ gasLimit, Machine.start target gasLimit =
        Machine.start source gasLimit) ∧
      ∀ (machine : Machine) (arguments : List (Option Value)),
        machine.call target name arguments =
          machine.call source name arguments := by
  have masks := (masksPrograms_of_maskSources succeeds).maskedProgram paired
    notLibrary
  have known : source.globalPoints ++ function.entries ⊆ source.points := by
    refine List.append_subset.mpr ⟨fun _ => Program.mem_points_of_globalPoints,
      fun _ => Program.mem_points_of_function ?_⟩
    exact Program.mem_functions_of_callee? found
  have simulates := simulates_reaches masks
    (closed source (List.of_mem_zip paired).1) known calls
  exact ⟨start_eq masks simulates (List.subset_append_left _ _),
    call_eq masks simulates found (List.subset_append_right _ _) unmasked⟩

/-- A function that returns a constant is not changed by one beside it. -/
theorem call_eq_of_constant :
    (∀ gasLimit, Machine.start (Sample.target false) gasLimit =
        Machine.start (Sample.source false) gasLimit) ∧
      ∀ (machine : Machine) (arguments : List (Option Value)),
        machine.call (Sample.target false) "g" arguments =
          machine.call (Sample.source false) "g" arguments :=
  call_eq_of_no_masked_call (by decide) (Sample.maskSources_source false)
    List.mem_cons_self (by decide) rfl Sample.not_gainsMask_g
    Sample.callsNoMasked_g

/-- A function that stays as it is, but calls one that gains a mask, need not do
the same afterwards. -/
theorem call_changes_with_callee :
    ¬ ∀ (programs masked : List Program) (context : MaskingContext)
      (source target : Program) (name : String) (function : FunctionDecl)
      (gasLimit : Nat) (left right : Machine)
      (arguments : List (Option Value)),
      (∀ program ∈ programs, program.Closed) →
      maskSources programs = (.ok masked, context) →
      (source, target) ∈ programs.zip masked → source.kind ≠ .library →
      source.callee? name = some function → function.body.isSome →
      (Item.function function, Item.function function) ∈
        source.items.zip target.items →
      Machine.start source gasLimit = .ok left →
      Machine.start target gasLimit = .ok right →
      WithinGas (left.call source name arguments) →
      WithinGas (right.call target name arguments) →
        (left.call source name arguments).1 =
          (right.call target name arguments).1 := by
  intro claim
  have before : (Machine.initial 100).call (Sample.source true) "g" [] =
      (.ok (.int 5), ⟨.empty, 5, 100, 0⟩) := rfl
  have after : (Machine.initial 100).call (Sample.target true) "g" [] =
      (.error (.missingArgument "f" maskParameter), ⟨.empty, 3, 100, 0⟩) := rfl
  have kept : (Item.function (Sample.g true), Item.function (Sample.g true)) ∈
      (Sample.source true).items.zip (Sample.target true).items :=
    List.mem_cons_of_mem _ List.mem_cons_self
  have same := claim _ _ _ (Sample.source true) (Sample.target true) "g"
    (Sample.g true) 100 (.initial 100) (.initial 100) [] (by decide)
    (Sample.maskSources_source true) List.mem_cons_self (by decide) rfl rfl
    kept rfl rfl (before ▸ ⟨nofun, by decide⟩) (after ▸ ⟨nofun, by decide⟩)
  rw [before, after] at same
  cases same

end PluginSurface
