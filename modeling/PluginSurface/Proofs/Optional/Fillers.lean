import PluginSurface.Proofs.Optional.GuardRuns
import PluginSurface.Proofs.Optional.MaskedCalls
import PluginSurface.Proofs.Optional.Untouched

/-!
# What the host passes for an omitted argument

A host passes some value for every parameter. For a parameter with a default
that the mask does not mark, the guard overwrites that value. Nothing depends on
it then, provided that no default which is computed before sees the parameter
and none changes the mask.
-/

namespace PluginSurface

open Environment Eval Interpreter Masking

/-! ## Unsupplied parameters -/

/-- Whether a parameter has a default and the mask does not mark its
position. -/
def isUnsupplied (mask : UInt64) (index : Nat) (param : Param) : Bool :=
  param.initializer.isSome && !mask.toNat.testBit index

/-- The parameters from a position on that have a default and are not
supplied. -/
def unsupplied (mask : UInt64) : Nat → List Param → List Param
  | _, [] => []
  | index, param :: params =>
      if isUnsupplied mask index param then
        param :: unsupplied mask (index + 1) params
      else unsupplied mask (index + 1) params

def fillers (mask : UInt64) : Nat → List Param → List Value → Bindings
  | index, param :: params, value :: values =>
      if isUnsupplied mask index param then
        (param.name.text, value) :: fillers mask (index + 1) params values
      else fillers mask (index + 1) params values
  | _, _, _ => []

/-- Two lists of arguments for the parameters from a position on differ at most
where a parameter has a default and is not supplied. -/
inductive SameSupplied (mask : UInt64) :
    Nat → List Param → List Value → List Value → Prop where
  | nil {index : Nat} : SameSupplied mask index [] [] []
  | same {index : Nat} {param : Param} {params : List Param} {value : Value}
      {lefts rights : List Value}
      (rest : SameSupplied mask (index + 1) params lefts rights) :
      SameSupplied mask index (param :: params) (value :: lefts)
        (value :: rights)
  | unsupplied {index : Nat} {param : Param} {params : List Param}
      {left right : Value} {lefts rights : List Value}
      (omitted : isUnsupplied mask index param = true)
      (rest : SameSupplied mask (index + 1) params lefts rights) :
      SameSupplied mask index (param :: params) (left :: lefts)
        (right :: rights)

/-- No default of an unsupplied parameter comes to an unsupplied parameter from
its own on or assigns to the mask. A default may read the mask. -/
def DefaultsBlind (program : Program) (omitted : List Param) : Prop :=
  ∀ {param : Param} {later : List Param} {initializer : ExprId},
    param :: later <:+ omitted → param.initializer = some initializer →
      program.Avoids
          (· ∈ (param :: later).map fun param => param.name.text)
          (.expr initializer) ∧
        ¬ program.Assigns maskParameter (.expr initializer)

section

variable {program : Program} {mask : UInt64} {index : Nat} {param : Param}
  {params : List Param} {lefts rights : List Value}

theorem SameSupplied.length_eq
    (same : SameSupplied mask index params lefts rights) :
    lefts.length = params.length ∧ rights.length = params.length := by
  induction same with
  | nil => exact ⟨rfl, rfl⟩
  | same _ inductionHypothesis =>
      simp only [List.length_cons, inductionHypothesis, and_self]
  | unsupplied _ _ inductionHypothesis =>
      simp only [List.length_cons, inductionHypothesis, and_self]

theorem fillers_sublist {values : List Value} :
    (fillers mask index params values).Sublist (bindingsOf params values) := by
  induction params generalizing index values with
  | nil => cases values <;> exact List.nil_sublist _
  | cons param params inductionHypothesis =>
      cases values with
      | nil => exact List.nil_sublist _
      | cons value values =>
          unfold fillers
          split
          · exact .cons_cons _ inductionHypothesis
          · exact .cons _ inductionHypothesis

theorem fillers_named {values : List Value} {entry : String × Value}
    (member : entry ∈ fillers mask index params values) :
    entry.1 ∈ (unsupplied mask index params).map fun param =>
      param.name.text := by
  induction params generalizing index values with
  | nil => cases values <;> cases member
  | cons param params inductionHypothesis =>
      cases values with
      | nil => cases member
      | cons value values =>
          unfold fillers at member
          unfold unsupplied
          split at member
          · rw [if_pos ‹_›]
            rcases List.mem_cons.mp member with rfl | among
            · exact List.mem_cons_self
            · exact List.mem_cons_of_mem _ (inductionHypothesis among)
          · rw [if_neg ‹_›]
            exact inductionHypothesis member

/-! ## The scopes before the guards -/

/-- The mask and what a host passes for the unsupplied parameters. -/
def heldFrom (mask : UInt64) (index : Nat) (params : List Param)
    (values : List Value) : Bindings :=
  (maskParameter, .int mask.toInt64) :: fillers mask index params values

/-- The scopes before the guards of some parameters. -/
abbrev BeforeGuards (mask : UInt64) (index : Nat) (params : List Param)
    (lefts rights : List Value) : ScopeRelation :=
  CallScopes
    (· ∈ (unsupplied mask index params).map fun param => param.name.text)
    (heldFrom mask index params lefts) (heldFrom mask index params rights)

theorem holdsMask_of_beforeGuards {left right : Machine}
    (scopes : BeforeGuards mask index params lefts rights
      left.environment.scopes right.environment.scopes) :
    HoldsMask mask left.environment ∧ HoldsMask mask right.environment :=
  ⟨scopes.left_find? List.mem_cons_self, scopes.right_find? List.mem_cons_self⟩

theorem hides_beforeGuards :
    Hides (BeforeGuards mask index params lefts rights)
      (· ∈ (unsupplied mask index params).map fun param => param.name.text)
      (· = maskParameter) := by
  have named {values : List Value} :
      ∀ entry ∈ heldFrom mask index params values,
        (entry.1 ∈ (unsupplied mask index params).map fun param =>
          param.name.text) ∨ entry.1 = maskParameter := by
    intro entry member
    rcases List.mem_cons.mp member with rfl | among
    · exact .inr rfl
    · exact .inl (fillers_named among)
  exact hides_callScopes named named

theorem beforeGuards_of_supplied {left right : Value}
    (supplied : isUnsupplied mask index param = false) :
    BeforeGuards mask index (param :: params) (left :: lefts)
        (right :: rights) =
      BeforeGuards mask (index + 1) params lefts rights := by
  simp [BeforeGuards, heldFrom, unsupplied, fillers, supplied]

theorem unsupplied_of_supplied
    (supplied : isUnsupplied mask index param = false) :
    unsupplied mask index (param :: params) =
      unsupplied mask (index + 1) params := by
  simp [unsupplied, supplied]

theorem unsupplied_of_omitted (omitted : isUnsupplied mask index param = true) :
    unsupplied mask index (param :: params) =
      param :: unsupplied mask (index + 1) params := by
  simp [unsupplied, omitted]

theorem fillers_of_omitted {value : Value} {values : List Value}
    (omitted : isUnsupplied mask index param = true) :
    fillers mask index (param :: params) (value :: values) =
      (param.name.text, value) ::
        fillers mask (index + 1) params values := by
  simp [fillers, omitted]

theorem leads_store {failed : ScopeRelation} {left right : Value}
    (omitted : isUnsupplied mask index param = true)
    (unreserved : param.name.text ≠ maskParameter)
    (distinct : ((param :: params).map fun param => param.name.text).Nodup)
    (value : Value) :
    Leads .lockstep
      (BeforeGuards mask index (param :: params) (left :: lefts)
        (right :: rights))
      (BeforeGuards mask (index + 1) params lefts rights) failed
      (store ⟨param.name.text, []⟩ value)
      (store ⟨param.name.text, []⟩ value) := by
  have held {first : Value} {values : List Value} :
      (param.name.text, first) ∈
        heldFrom mask index (param :: params) (first :: values) := by
    rw [heldFrom, fillers_of_omitted omitted]
    exact List.mem_cons_of_mem _ List.mem_cons_self
  have kept {first : Value} {values : List Value} {entry : String × Value}
      (member : entry ∈ heldFrom mask (index + 1) params values) :
      entry ∈ heldFrom mask index (param :: params) (first :: values) ∧
        entry.1 ≠ param.name.text := by
    rw [heldFrom, fillers_of_omitted omitted]
    rcases List.mem_cons.mp member with rfl | among
    · exact ⟨List.mem_cons_self, unreserved.symm⟩
    · refine ⟨List.mem_cons_of_mem _ (List.mem_cons_of_mem _ among), ?_⟩
      intro same
      have named := bindings_named (fillers_sublist.subset among)
      rw [same] at named
      exact (List.nodup_cons.mp distinct).1 named
  refine leads_of_binds (binds_store held value) (binds_store held value) ?_
    (fun _ member => kept member) fun _ member => kept member
  intro other hidden
  rw [unsupplied_of_omitted omitted] at hidden
  exact List.mem_cons.mp hidden

/-! ## The guards -/

theorem leads_initializer {left right : Value} {initializer : ExprId}
    (omitted : isUnsupplied mask index param = true)
    (blind : DefaultsBlind program (unsupplied mask index (param :: params)))
    (default : param.initializer = some initializer) (bound : Nat) :
    Leads .lockstep
      (BeforeGuards mask index (param :: params) (left :: lefts)
        (right :: rights))
      (BeforeGuards mask index (param :: params) (left :: lefts)
        (right :: rights)) AnyScopes (evalExpr program bound initializer)
      (evalExpr program bound initializer) := by
  have alike := alike_lockstep (simulates_self program) bound
  rw [unsupplied_of_omitted omitted] at blind
  obtain ⟨avoids, spares⟩ := blind (List.suffix_refl _) default
  rw [← unsupplied_of_omitted omitted] at avoids
  exact (alike.expr hides_beforeGuards
    ⟨trivial, avoids, by rintro _ rfl; exact spares⟩).leads.weaken id id
    fun _ => trivial

theorem leads_execAll_of_none {statements : List StmtId} (bound : Nat) :
    Leads .lockstep (BeforeGuards mask index [] lefts rights) AnyScopes
      AnyScopes (execAll (interpreter program bound) statements)
      (execAll (interpreter program bound) statements) := by
  have alike := alike_lockstep (simulates_self program) bound
  have agree : Agree .lockstep ScopesAlike
      (execAll (interpreter program bound) statements)
      (execAll (interpreter program bound) statements) :=
    alike.execAll fun _ _ => .of_inside trivial
  refine agree.leads.weaken ?_ (fun _ => trivial) fun _ => trivial
  rintro _ _ ⟨alike, -, -⟩
  exact .cons (fun name _ => alike name (List.not_mem_nil)) .nil

/-- What is needed of the parameters from a position on. -/
structure Omittable (program : Program) (mask : UInt64) (index : Nat)
    (params : List Param) : Prop where
  small : index + params.length ≤ parameterLimit
  distinct : (params.map fun param => param.name.text).Nodup
  unreserved : ∀ param ∈ params, param.name.text ≠ maskParameter
  blind : DefaultsBlind program (unsupplied mask index params)

theorem unsupplied_suffix :
    unsupplied mask (index + 1) params <:+
      unsupplied mask index (param :: params) := by
  cases omitted : isUnsupplied mask index param with
  | true =>
      rw [unsupplied_of_omitted omitted]
      exact List.suffix_cons _ _
  | false =>
      exact (unsupplied_of_supplied omitted).symm ▸ List.suffix_refl _

theorem Omittable.tail
    (omittable : Omittable program mask index (param :: params)) :
    Omittable program mask (index + 1) params where
  small := by
    have small := omittable.small
    rw [List.length_cons] at small
    omega
  distinct := (List.nodup_cons.mp omittable.distinct).2
  unreserved other member :=
    omittable.unreserved other (List.mem_cons_of_mem param member)
  blind isLater := omittable.blind (isLater.trans unsupplied_suffix)

theorem Omittable.small_first
    (omittable : Omittable program mask index (param :: params)) :
    index < 64 := by
  have small := omittable.small
  rw [List.length_cons, parameterLimit] at small
  omega

/-- After the guards nothing is left of what a host passes for the unsupplied
parameters. -/
theorem leads_execAll_guards {ids : List StmtId}
    (guards : Guards program.arena index params ids)
    (omittable : Omittable program mask index params)
    (leftCount : lefts.length = params.length)
    (rightCount : rights.length = params.length)
    (statements : List StmtId) (bound : Nat) :
    Leads .lockstep (BeforeGuards mask index params lefts rights) AnyScopes
      AnyScopes (execAll (interpreter program bound) (ids ++ statements))
      (execAll (interpreter program bound) (ids ++ statements)) := by
  have metered (ids : List StmtId) := metered_execAll program bound ids
  -- The two scopes differ in the parameters whose guards are still to come. A
  -- guard sets its parameter alike on both sides, or it was alike before.
  induction guards generalizing lefts rights with
  | nil => exact leads_execAll_of_none bound
  | @required index param params ids noDefault _ inductionHypothesis =>
      obtain ⟨left, lefts, rfl⟩ :=
        List.exists_cons_of_length_eq_add_one leftCount
      obtain ⟨right, rights, rfl⟩ :=
        List.exists_cons_of_length_eq_add_one rightCount
      have supplied : isUnsupplied mask index param = false := by
        simp [isUnsupplied, noDefault]
      rw [beforeGuards_of_supplied supplied]
      exact inductionHypothesis omittable.tail (Nat.succ.inj leftCount)
        (Nat.succ.inj rightCount)
  | @optional index param params initializer id ids default guard _
      inductionHypothesis =>
      obtain ⟨left, lefts, rfl⟩ :=
        List.exists_cons_of_length_eq_add_one leftCount
      obtain ⟨right, rights, rfl⟩ :=
        List.exists_cons_of_length_eq_add_one rightCount
      have rest := inductionHypothesis omittable.tail (Nat.succ.inj leftCount)
        (Nat.succ.inj rightCount)
      cases marked : mask.toNat.testBit index with
      | true =>
          have supplied : isUnsupplied mask index param = false := by
            simp [isUnsupplied, marked]
          have passes := passes_execAll_of_marked guard omittable.small_first
            marked (ids ++ statements) bound
          refine Leads.after_both passes holdsMask_of_beforeGuards
            (fun _ => trivial) (metered _) ?_
          rw [beforeGuards_of_supplied supplied]
          exact rest
      | false =>
          have omitted : isUnsupplied mask index param = true := by
            simp [isUnsupplied, marked, default]
          have passes := passes_execAll_of_unmarked guard omittable.small_first
            marked (ids ++ statements) bound
          have stored (value : Value) := (Metered.store ⟨param.name.text, []⟩
            value).bind fun _ => metered (ids ++ statements)
          refine Leads.after_both passes holdsMask_of_beforeGuards
            (fun _ => trivial) ((metered_evalExpr _ _ _).bind stored) ?_
          refine (leads_initializer omitted omittable.blind default _).bind
            (fun _ _ => trivial) stored stored fun value _ => ?_
          exact (leads_store omitted
            (omittable.unreserved param List.mem_cons_self)
            omittable.distinct value).bind (fun _ _ => trivial)
            (fun _ => metered _) (fun _ => metered _) fun _ _ => rest

/-! ## The whole call -/

theorem alikeOff_bindAll {hidden : String → Prop}
    (same : SameSupplied mask index params lefts rights)
    (hides : ∀ param ∈ unsupplied mask index params, hidden param.name.text)
    {leftScope rightScope : Scope}
    (alike : AlikeOff hidden leftScope rightScope) :
    AlikeOff hidden (bindAll leftScope (bindingsOf params lefts))
      (bindAll rightScope (bindingsOf params rights)) := by
  induction same generalizing leftScope rightScope with
  | nil => exact alike
  | @same index param params value _ _ _ inductionHypothesis =>
      refine inductionHypothesis (fun other member => hides other ?_)
        (alike.insert param.name.text value)
      exact unsupplied_suffix.subset member
  | @unsupplied index param params left right _ _ omitted _
      inductionHypothesis =>
      rw [unsupplied_of_omitted omitted] at hides
      exact inductionHypothesis
        (fun other member => hides other (List.mem_cons_of_mem _ member))
        (alike.insert_hidden (hides param List.mem_cons_self) left right)

theorem beforeGuards_bindAll (span : Span)
    (same : SameSupplied mask 0 params lefts rights)
    (distinct : (params.map fun param => param.name.text).Nodup)
    (unreserved : ∀ param ∈ params, param.name.text ≠ maskParameter) :
    BeforeGuards mask 0 params lefts rights
      [bindAll [] (maskedBindings mask span params lefts)]
      [bindAll [] (maskedBindings mask span params rights)] := by
  obtain ⟨leftCount, rightCount⟩ := same.length_eq
  have held {values : List Value} (count : values.length = params.length) :
      Holds (heldFrom mask 0 params values)
        (bindAll [] (maskedBindings mask span params values)) := by
    intro entry member
    refine holds_maskedBindings span count distinct unreserved entry ?_
    rcases List.mem_cons.mp member with rfl | among
    · exact List.mem_cons_self
    · exact List.mem_cons_of_mem _ (fillers_sublist.subset among)
  refine .single ?_ (held leftCount) (held rightCount)
  rw [maskedBindings_eq span leftCount, maskedBindings_eq span rightCount]
  simp only [bindAll, List.foldl_append]
  refine AlikeOff.insert ?_ _ _
  exact alikeOff_bindAll same
    (fun param member => List.mem_map.mpr ⟨param, member, rfl⟩) (.refl [])

theorem leads_runBody_guarded {function : FunctionDecl} {body : Block}
    {ids : List StmtId}
    (guards : Guards program.arena 0 function.params ids)
    (omittable : Omittable program mask 0 function.params)
    (same : SameSupplied mask 0 function.params lefts rights) (bound : Nat) :
    Leads .lockstep FreshScopes AnyScopes AnyScopes
      (runBody (interpreter program bound) (guarded function body ids)
        { body with statements := ids ++ body.statements }
        ((lefts ++ [Value.int mask.toInt64]).map some))
      (runBody (interpreter program bound) (guarded function body ids)
        { body with statements := ids ++ body.statements }
        ((rights ++ [Value.int mask.toInt64]).map some)) := by
  obtain ⟨leftCount, rightCount⟩ := same.length_eq
  have binds : Leads .lockstep FreshScopes
      (BeforeGuards mask 0 function.params lefts rights) AnyScopes
      (bindParams (interpreter program bound) (guarded function body ids)
        (guarded function body ids).params
        ((lefts ++ [Value.int mask.toInt64]).map some))
      (bindParams (interpreter program bound) (guarded function body ids)
        (guarded function body ids).params
        ((rights ++ [Value.int mask.toInt64]).map some)) :=
    leads_of_endsIn (endsIn_bindParams_guarded _ _ _ _ leftCount)
      (endsIn_bindParams_guarded _ _ _ _ rightCount)
      (beforeGuards_bindAll function.span same omittable.distinct
        omittable.unreserved)
  have metered := (metered_execAll program bound
    (ids ++ body.statements)).bind metered_returned
  have finished := (leads_execAll_guards guards omittable leftCount rightCount
    body.statements bound).bind (fun _ _ => trivial) metered_returned
    metered_returned fun flow _ => leads_returned (fun _ => trivial) flow
  rw [runBody_eq, runBody_eq]
  exact binds.bind (fun _ _ => trivial) (fun _ => metered) (fun _ => metered)
    fun _ _ => finished

end

/-- What a host passes for the parameters that it does not supply makes no
difference to the call of a function with a mask, down to the gas that is used,
if no default of theirs comes to one of them that is still to be set or assigns
to the mask. -/
theorem callWithMask_eq_of_sameSupplied {programs masked : List Program}
    {context : MaskingContext} {source target : Program}
    (succeeds : maskSources programs = (.ok masked, context))
    (paired : (source, target) ∈ programs.zip masked) {name : String}
    {function : FunctionDecl} (found : source.callee? name = some function)
    (gains : GainsMask source target function)
    (distinct : (function.params.map fun param => param.name.text).Nodup)
    {mask : UInt64}
    (blind : DefaultsBlind target (unsupplied mask 0 function.params))
    {lefts rights : List Value}
    (same : SameSupplied mask 0 function.params lefts rights)
    (machine : Machine) :
    machine.callWithMask target name lefts mask =
      machine.callWithMask target name rights mask := by
  have passes := masksPrograms_of_maskSources succeeds
  have masks := passes.maskedProgram paired (passes.notLibrary paired gains)
  obtain ⟨body, ids, -, few, unreserved, guards, foundGuarded⟩ :=
    masks.callee?_guarded found gains
  obtain ⟨leftCount, rightCount⟩ := same.length_eq
  have omittable : Omittable target mask 0 function.params :=
    { small := by rw [Nat.zero_add]; exact few
      distinct := distinct
      unreserved := unreserved
      blind := blind }
  have calls (bound : Nat) : (do
      let result ← (interpreter target bound).invoke
        (guarded function body ids) none
        ((lefts ++ [Value.int mask.toInt64]).map some)
      return result.1) = (do
      let result ← (interpreter target bound).invoke
        (guarded function body ids) none
        ((rights ++ [Value.int mask.toInt64]).map some)
      return result.1) := by
    refine Leads.eq (Leads.bind (leads_invoke rfl rfl ?_ ?_
      (leads_runBody_guarded guards omittable same bound)) (fun _ _ => trivial)
      (fun _ => .pure _) (fun _ => .pure _)
      fun result _ => (Agree.pure result.1).leads)
    · simp [guarded, leftCount]
    · simp [guarded, rightCount]
  rw [callWithMask_of_found foundGuarded (takesMask_guarded _ _ _),
    callWithMask_of_found foundGuarded (takesMask_guarded _ _ _)]
  simp only [calls]

theorem Sample.defaultsBlind_f :
    DefaultsBlind (Sample.target false) (unsupplied 0 0 Sample.f.params) := by
  intro param later initializer isLater default
  have only : unsupplied 0 0 Sample.f.params = Sample.f.params := by
    simp [unsupplied, isUnsupplied, Sample.f, Sample.function, Sample.parameter]
  rw [only] at isLater
  rcases List.suffix_cons_iff.mp isLater with same | isLater
  · cases same
    cases default
    refine ⟨fun name _ touches => ?_, fun assigns => ?_⟩
    · rcases touches with ⟨named⟩ | ⟨part, _⟩ | ⟨created, _⟩
      · cases named
      · cases part
      · cases created
    · rcases assigns with ⟨node, _⟩ | ⟨node, _⟩ | ⟨part, _⟩ | ⟨created, _⟩
      · cases node
      · cases node
      · cases part
      · cases created
  · cases List.suffix_nil.mp isLater

/-- A function whose only parameter has a constant for a default: what is passed
for it without marking it makes no difference. -/
theorem callWithMask_eq_of_constant :
    (Machine.initial 100).callWithMask (Sample.target false) "f" [.int 5] 0 =
      (Machine.initial 100).callWithMask (Sample.target false) "f"
        [.int 9] 0 := by
  have found : (Sample.source false).callee? "f" = some Sample.f := rfl
  have same : SameSupplied 0 0 Sample.f.params [.int 5] [.int 9] :=
    .unsupplied (by decide) .nil
  exact callWithMask_eq_of_sameSupplied (Sample.maskSources_source false)
    List.mem_cons_self found ⟨(withMask Sample.f Sample.arena).1,
      List.mem_cons_self, rfl⟩ (by decide) Sample.defaultsBlind_f same
    (.initial 100)

namespace Sample

def ownArena : Arena :=
  ⟨#[⟨.identifier "a", default⟩, ⟨.identifier "a", default⟩],
    #[⟨.return (some ⟨1⟩), default⟩]⟩

/-- `function f(a: i32 = a): i32 \x7b return a; \x7d` -/
def own : FunctionDecl :=
  function "f" [parameter "a" (some ⟨0⟩)] [⟨0⟩]

def ownSource : Program :=
  ⟨"index", .entry, [.function own], ownArena, default⟩

def ownTarget : Program :=
  ⟨"index", .entry, [.function (withMask own ownArena).1],
    (withMask own ownArena).2, default⟩

theorem maskSources_ownSource :
    maskSources [ownSource] = (.ok [ownTarget], (maskSources [ownSource]).2) :=
  rfl

/-- What `own` returns if a host passes a value without marking it. -/
def shown (filler : Int64) : Option Int64 :=
  ((Machine.initial 100).callWithMask ownTarget "f" [.int filler]
    0).1.toOption.bind Value.int?

end Sample

/-- A default that reads its own parameter sees what the host passes for it. -/
theorem callWithMask_shows_filler :
    ¬ ∀ (programs masked : List Program) (context : MaskingContext)
      (source target : Program) (name : String) (function : FunctionDecl)
      (mask : UInt64) (lefts rights : List Value) (gasLimit : Nat)
      (machine : Machine),
      (∀ program ∈ programs, program.Closed) →
      maskSources programs = (.ok masked, context) →
      (source, target) ∈ programs.zip masked →
      source.callee? name = some function →
      GainsMask source target function →
      (function.params.map fun param => param.name.text).Nodup →
      SameSupplied mask 0 function.params lefts rights →
      Machine.start target gasLimit = .ok machine →
        (machine.callWithMask target name lefts mask).1 =
          (machine.callWithMask target name rights mask).1 := by
  intro claim
  have seven : Sample.shown 7 = some 7 := by decide +kernel
  have eight : Sample.shown 8 = some 8 := by decide +kernel
  have same := claim _ _ _ Sample.ownSource Sample.ownTarget "f" Sample.own 0
    [.int 7] [.int 8] 100 (.initial 100) (by decide)
    Sample.maskSources_ownSource List.mem_cons_self rfl
    ⟨(withMask Sample.own Sample.ownArena).1, List.mem_cons_self, rfl⟩
    (by decide) (.unsupplied (by decide) .nil) rfl
  have sevenIsEight : some (7 : Int64) = some 8 := by
    rw [← seven, ← eight, Sample.shown, same, Sample.shown]
  exact absurd sevenIsEight (by decide)

end PluginSurface
