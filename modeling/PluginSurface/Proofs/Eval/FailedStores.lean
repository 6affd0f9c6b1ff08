import PluginSurface.Proofs.Eval.Places

/-!
# Stores that fail

A store that fails changes nothing, with one exception. On the way down a path a
missing field is created as null before the rest of the path is looked at. If
the path goes on there, the store fails, and the field stays.

That nothing changes takes names in order, in the scopes and in everything that
they hold: whatever changes an environment keeps them so.
-/

namespace PluginSurface

/-! ## Values in order -/

namespace Value

/-- The items of an array and the fields of an object. -/
def parts : Value → List Value
  | array items => items
  | object _ fields => fields.map Prod.snd
  | _ => []

/-- The fields of a value and of everything inside it are in name order. -/
inductive Ordered : Value → Prop where
  | intro {value : Value}
      (sorted : ∀ className fields, value = .object className fields →
        Dict.IsSorted fields)
      (parts : ∀ part ∈ value.parts, Ordered part) : Ordered value

variable {target after inner value : Value} {step : Step}
  {path rest : List Step} {replace : Value → Value} {fault : Fault}
  {className : Option String} {fields : Dict Value}

theorem Ordered.part (ordered : target.Ordered) (member : inner ∈ target.parts) :
    inner.Ordered := by
  obtain ⟨-, parts⟩ := ordered
  exact parts inner member

theorem Ordered.isSorted (ordered : (object className fields).Ordered) :
    Dict.IsSorted fields := by
  obtain ⟨sorted, -⟩ := ordered
  exact sorted className fields rfl

theorem Ordered.field (ordered : (object className fields).Ordered)
    {name : String} (held : Dict.find? fields name = some inner) :
    inner.Ordered :=
  ordered.part (List.mem_map.mpr ⟨_, Dict.mem_of_find? held, rfl⟩)

theorem ordered_leaf (noParts : target.parts = [])
    (noFields : ∀ className fields, target ≠ .object className fields) :
    target.Ordered :=
  .intro (fun className fields same => (noFields className fields same).elim)
    (by simp [noParts])

theorem ordered_noFields (className : Option String) :
    (object className []).Ordered := by
  constructor
  · rintro _ _ ⟨rfl⟩
    exact .nil
  · exact nofun

/-- A field in its place keeps the order. -/
theorem Ordered.insert (ordered : (object className fields).Ordered)
    (innerOrdered : inner.Ordered) (name : String) :
    (object className (Dict.insert fields name inner)).Ordered := by
  constructor
  · rintro _ _ ⟨rfl⟩
    exact ordered.isSorted.insert name inner
  · intro part member
    obtain ⟨entry, inserted, rfl⟩ := List.mem_map.mp member
    rcases Dict.mem_insert inserted with rfl | held
    · exact innerOrdered
    · exact ordered.part (List.mem_map.mpr ⟨entry, held, rfl⟩)

/-- What a step leads to is in order, and so is the value with something in
order put there. -/
theorem Opens.ordered (opens : Opens target step inner replace)
    (ordered : target.Ordered) :
    inner.Ordered ∧ ∀ changed : Value, changed.Ordered →
      (replace changed).Ordered := by
  cases opens with
  | field className fields name =>
      refine ⟨?_, fun changed changedOrdered =>
        ordered.insert changedOrdered name⟩
      cases found : Dict.find? fields name with
      | some field => exact ordered.field found
      | none => exact ordered_leaf rfl nofun
  | @index items index held found =>
      obtain ⟨-, known⟩ := itemAt?_eq_some found
      obtain ⟨within, rfl⟩ := List.getElem?_eq_some_iff.mp known
      refine ⟨ordered.part (List.getElem_mem within), ?_⟩
      refine fun changed changedOrdered => .intro nofun fun part member => ?_
      rcases List.mem_or_eq_of_mem_set member with other | rfl
      · exact ordered.part other
      · exact changedOrdered

/-- An assignment keeps the order, also one that fails. -/
theorem Ordered.assign (ordered : target.Ordered) (valueOrdered : value.Ordered)
    (path : List Step) : (target.assign path value).2.Ordered := by
  induction path generalizing target with
  | nil => exact valueOrdered
  | cons step rest inductionHypothesis =>
      rcases opens_or_fails target step with
        ⟨inner, replace, opens⟩ | ⟨fault, blocked⟩
      · obtain ⟨innerOrdered, keeps⟩ := opens.ordered ordered
        rw [opens.assign]
        exact keeps _ (inductionHypothesis innerOrdered)
      · rw [blocked]
        exact ordered

/-- Putting back what stands behind a step changes nothing. -/
theorem Opens.replace_held (opens : Opens target step inner replace)
    (ordered : target.Ordered) (held : target.follow step = .ok inner) :
    replace inner = target := by
  cases opens with
  | field className fields name =>
      cases found : Dict.find? fields name with
      | some field =>
          simp only [Option.getD_some, ordered.isSorted.insert_held found]
      | none => simp [Value.follow, Value.member, found] at held
  | @index items index held found =>
      obtain ⟨-, known⟩ := itemAt?_eq_some found
      obtain ⟨within, rfl⟩ := List.getElem?_eq_some_iff.mp known
      simp only [List.set_getElem_self]

/-! ## Missing fields -/

/-- A path goes on below a field that the object it has come to does not
have. -/
def LeavesOff (target : Value) (path : List Step) (name : String)
    (rest : List Step) : Prop :=
  rest ≠ [] ∧ ∃ className fields,
    target.followAll path = .ok (.object className fields) ∧
      Dict.find? fields name = none

/-- A failing assignment changes nothing where no field is missing. -/
theorem eq_or_leavesOff_of_assign (ordered : target.Ordered)
    (fails : target.assign path value = (some fault, after)) :
    after = target ∨ ∃ front name rest,
      path = front ++ .field name :: rest ∧
        target.LeavesOff front name rest := by
  induction path generalizing target after with
  | nil => cases fails
  | cons step rest inductionHypothesis =>
      rcases opens_or_fails target step with
        ⟨inner, replace, opens⟩ | ⟨stepFault, blocked⟩
      · rw [opens.assign] at fails
        obtain ⟨innerFault, rfl⟩ := Prod.mk.inj fails
        rcases opens.follow with
          held | ⟨className, fields, name, rfl, rfl, missing, rfl⟩
        · have restored := opens.replace_held ordered held
          rcases inductionHypothesis (opens.ordered ordered).1
            (Prod.ext innerFault rfl) with
            same | ⟨front, name, back, rfl, goesOn, className, fields, found,
              missing⟩
          · exact .inl ((congrArg replace same).trans restored)
          · refine .inr ⟨step :: front, name, back, rfl, goesOn, className,
              fields, ?_, missing⟩
            rw [followAll_cons, held]
            exact found
        · refine .inr ⟨[], name, rest, rfl, ?_, className, fields, rfl, missing⟩
          rintro rfl
          cases innerFault
      · rw [blocked] at fails
        exact .inl (Prod.mk.inj fails).2.symm

/-- What a step leads to stands behind it for assignments too, or it is a
length or a character. -/
theorem opens_of_follow (found : target.follow step = .ok inner) :
    (∃ replace, Opens target step inner replace) ∨
      (∃ number, inner = .int number) ∨ ∃ text, inner = .string text := by
  cases step with
  | field name =>
      change target.member name = .ok inner at found
      unfold Value.member at found
      split at found
      · rename_i className fields
        split at found <;> cases found
        rename_i held
        have opens := Opens.field className fields name
        rw [held] at opens
        exact .inl ⟨_, opens⟩
      · split at found <;> cases found
        exact .inr (.inl ⟨_, rfl⟩)
      · split at found <;> cases found
        exact .inr (.inl ⟨_, rfl⟩)
      · cases found
      · cases found
  | index index =>
      change target.element index = .ok inner at found
      unfold Value.element at found
      split at found
      · split at found <;> cases found
        rename_i held
        exact .inl ⟨_, .index held⟩
      · split at found <;> cases found
        exact .inr (.inr ⟨_, rfl⟩)
      · cases found
      · cases found

/-- Nothing below a number or a text is an object. -/
theorem followAll_ne_object
    (isLeaf : (∃ number, target = .int number) ∨ ∃ text, target = .string text)
    (path : List Step) :
    target.followAll path ≠ .ok (.object className fields) := by
  induction path generalizing target with
  | nil => rcases isLeaf with ⟨number, rfl⟩ | ⟨text, rfl⟩ <;> nofun
  | cons step rest inductionHypothesis =>
      rw [followAll_cons]
      cases found : target.follow step with
      | error fault => nofun
      | ok inner =>
          rcases opens_of_follow found with ⟨replace, opens⟩ | innerIsLeaf
          · rcases isLeaf with ⟨number, rfl⟩ | ⟨text, rfl⟩ <;> cases opens
          · exact inductionHypothesis innerIsLeaf

/-- The steps on the way to an object can be assigned through. -/
theorem exists_opens_of_followAll
    (found : target.followAll (step :: path) = .ok (.object className fields)) :
    ∃ inner replace, Opens target step inner replace ∧
      inner.followAll path = .ok (.object className fields) := by
  rw [followAll_cons] at found
  cases first : target.follow step with
  | error fault =>
      rw [first] at found
      cases found
  | ok inner =>
      rw [first] at found
      rcases opens_of_follow first with ⟨replace, opens⟩ | isLeaf
      · exact ⟨inner, replace, opens, found⟩
      · exact (followAll_ne_object isLeaf path found).elim

/-- Where a path goes on below a missing field, an assignment fails and leaves
the field as null. -/
theorem assign_of_leavesOff {name : String}
    (leavesOff : target.LeavesOff path name rest) (value : Value) :
    ∃ changed,
      target.assign (path ++ .field name :: rest) value =
        (some (.nullAccess .assign), changed) ∧
      target.assign (path ++ [.field name]) .null = (none, changed) := by
  obtain ⟨goesOn, className, fields, found, missing⟩ := leavesOff
  induction path generalizing target with
  | nil =>
      cases found
      obtain ⟨next, others, rfl⟩ := List.exists_cons_of_ne_nil goesOn
      have opens := Opens.field className fields name
      rw [missing] at opens
      refine ⟨_, (opens.assign _ _).trans rfl, (opens.assign _ _).trans rfl⟩
  | cons step path inductionHypothesis =>
      obtain ⟨inner, replace, opens, below⟩ := exists_opens_of_followAll found
      obtain ⟨changed, fails, creates⟩ := inductionHypothesis below
      refine ⟨replace changed, ?_, ?_⟩
      · rw [List.cons_append, opens.assign, fails]
      · rw [List.cons_append, opens.assign, creates]

end Value

/-! ## Stores -/

namespace Environment

/-- The variables of every scope and the fields of everything that they hold are
in name order. A scope is ordered like an object. -/
structure Ordered (environment : Environment) : Prop where
  globals : (Value.object none environment.globals).Ordered
  scopes : ∀ scope ∈ environment.scopes, (Value.object none scope).Ordered

/-- The path of a place comes to an object that does not have the field which
is next, and goes on below that field. -/
def LacksAt (environment : Environment) (place : Place) (path : List Step)
    (name : String) : Prop :=
  ∃ rest, place.path = path ++ .field name :: rest ∧ rest ≠ [] ∧
    ∃ className fields,
      environment.load ⟨place.root, path⟩ = .ok (.object className fields) ∧
        Dict.find? fields name = none

variable {environment after : Environment} {place : Place} {name : String}
  {held value : Value} {fault : Fault}

theorem findIn?_eq_some {scopes : List Scope}
    (found : findIn? name scopes = some held) :
    ∃ scope ∈ scopes, scope.find? name = some held := by
  induction scopes with
  | nil => cases found
  | cons scope rest inductionHypothesis =>
      unfold findIn? at found
      split at found
      · rename_i first
        cases found
        exact ⟨scope, List.mem_cons_self, first⟩
      · obtain ⟨other, member, known⟩ := inductionHypothesis found
        exact ⟨other, List.mem_cons_of_mem _ member, known⟩

theorem Ordered.find? (ordered : environment.Ordered)
    (found : environment.find? name = some held) : held.Ordered := by
  unfold Environment.find? at found
  split at found
  · rename_i isLocal
    cases found
    obtain ⟨scope, member, known⟩ := findIn?_eq_some isLocal
    exact (ordered.scopes scope member).field known
  · exact ordered.globals.field found

theorem Ordered.define (ordered : environment.Ordered)
    (valueOrdered : value.Ordered) (name : String) :
    (environment.define name value).Ordered := by
  obtain ⟨globals, scopes⟩ := environment
  cases scopes with
  | nil => exact ⟨ordered.globals.insert valueOrdered name, nofun⟩
  | cons innermost rest =>
      obtain ⟨first, others⟩ := List.forall_mem_cons.mp ordered.scopes
      exact ⟨ordered.globals,
        List.forall_mem_cons.mpr ⟨first.insert valueOrdered name, others⟩⟩

theorem ordered_setIn {scopes : List Scope}
    (ordered : ∀ scope ∈ scopes, (Value.object none scope).Ordered)
    (valueOrdered : value.Ordered) (name : String) :
    ∀ scope ∈ setIn name value scopes, (Value.object none scope).Ordered := by
  induction scopes with
  | nil => exact ordered
  | cons scope rest inductionHypothesis =>
      obtain ⟨first, others⟩ := List.forall_mem_cons.mp ordered
      unfold setIn
      split
      · exact List.forall_mem_cons.mpr ⟨first.insert valueOrdered name, others⟩
      · exact List.forall_mem_cons.mpr ⟨first, inductionHypothesis others⟩

theorem Ordered.set (ordered : environment.Ordered)
    (valueOrdered : value.Ordered) (name : String) :
    (environment.set name value).Ordered := by
  unfold Environment.set
  split
  · exact ⟨ordered.globals, ordered_setIn ordered.scopes valueOrdered name⟩
  · split
    · exact ⟨ordered.globals.insert valueOrdered name, ordered.scopes⟩
    · exact ordered

/-- A store keeps the order, also one that fails. -/
theorem Ordered.store (ordered : environment.Ordered)
    (valueOrdered : value.Ordered) (place : Place) :
    (environment.store place value).2.Ordered := by
  unfold Environment.store
  split
  · rename_i target found
    exact ordered.set ((ordered.find? found).assign valueOrdered place.path) _
  · exact ordered

theorem setIn_held {scopes : List Scope}
    (ordered : ∀ scope ∈ scopes, (Value.object none scope).Ordered)
    (found : findIn? name scopes = some held) :
    setIn name held scopes = scopes := by
  induction scopes with
  | nil => rfl
  | cons scope rest inductionHypothesis =>
      obtain ⟨first, others⟩ := List.forall_mem_cons.mp ordered
      unfold findIn? at found
      unfold setIn
      rw [Dict.contains_eq]
      cases bound : scope.find? name with
      | some value =>
          rw [bound] at found
          cases found
          simp only [Option.isSome_some, if_true,
            first.isSorted.insert_held bound]
      | none =>
          rw [bound] at found
          simp [inductionHypothesis others found]

/-- Assigning to a variable what it holds changes nothing. -/
theorem Ordered.set_held (ordered : environment.Ordered)
    (found : environment.find? name = some held) :
    environment.set name held = environment := by
  unfold Environment.set
  cases bound : findIn? name environment.scopes with
  | some first =>
      have same : first = held := by
        simpa only [Environment.find?, bound, Option.some.injEq] using found
      rw [same] at bound
      rw [setIn_held ordered.scopes bound]
      rfl
  | none =>
      have isGlobal : environment.globals.find? name = some held := by
        simpa only [Environment.find?, bound] using found
      simp [Dict.contains_eq, isGlobal,
        ordered.globals.isSorted.insert_held isGlobal]

theorem exists_of_load (loaded : environment.load place = .ok value) :
    ∃ target, environment.find? place.root = some target ∧
      target.followAll place.path = .ok value := by
  unfold load at loaded
  split at loaded
  · rename_i target found
    exact ⟨target, found, loaded⟩
  · cases loaded

theorem eq_or_lacksAt_of_store (ordered : environment.Ordered)
    (fails : environment.store place value = (some fault, after)) :
    after = environment ∨ ∃ path name, environment.LacksAt place path name := by
  unfold store at fails
  split at fails
  · rename_i target found
    obtain ⟨isFault, rfl⟩ := Prod.mk.inj fails
    rcases Value.eq_or_leavesOff_of_assign (ordered.find? found)
      (Prod.ext isFault rfl) with
      same | ⟨path, name, rest, onward, goesOn, className, fields, reached,
        missing⟩
    · exact .inl ((congrArg _ same).trans (ordered.set_held found))
    · refine .inr ⟨path, name, rest, onward, goesOn, className, fields, ?_,
        missing⟩
      simp only [load, found, reached]
  · exact .inl (Prod.mk.inj fails).2.symm

/-- Below a missing field a store fails, and the field is null afterwards. -/
theorem store_of_lacksAt {path : List Step}
    (lacks : environment.LacksAt place path name) (value : Value) :
    ∃ changed,
      environment.store place value =
        (some (.nullAccess .assign), changed) ∧
      environment.store ⟨place.root, path ++ [.field name]⟩ .null =
        (none, changed) := by
  obtain ⟨rest, onward, goesOn, className, fields, reached, missing⟩ := lacks
  obtain ⟨target, found, followed⟩ := exists_of_load reached
  obtain ⟨changed, fails, creates⟩ := Value.assign_of_leavesOff
    ⟨goesOn, className, fields, followed, missing⟩ value
  refine ⟨environment.set place.root changed, ?_, ?_⟩
  · simp only [store, found, onward, fails]
  · simp only [store, found, creates]

theorem ne_of_lacksAt {path : List Step}
    (lacks : environment.LacksAt place path name)
    (created : environment.store ⟨place.root, path ++ [.field name]⟩ .null =
      (none, after)) : after ≠ environment := by
  obtain ⟨rest, -, -, className, fields, reached, missing⟩ := lacks
  have loaded := load_store created
  rintro rfl
  rw [load_append, reached] at loaded
  change (Value.object className fields).follow (.field name) >>= _ = _
    at loaded
  simp only [Value.follow, Value.member, missing] at loaded
  cases loaded

/-- A failing store leaves the environment as it was exactly if its path does
not go on below a missing field. Otherwise it leaves that field as null. -/
theorem failed_store_keeps_iff (ordered : environment.Ordered)
    (fails : environment.store place value = (some fault, after)) :
    (after = environment ↔
      ∀ path name, ¬ environment.LacksAt place path name) ∧
    ∀ path name, environment.LacksAt place path name →
      fault = .nullAccess .assign ∧
        environment.store ⟨place.root, path ++ [.field name]⟩ .null =
          (none, after) := by
  have leaves {path : List Step} {name : String}
      (lacks : environment.LacksAt place path name) :
      fault = .nullAccess .assign ∧
        environment.store ⟨place.root, path ++ [.field name]⟩ .null =
          (none, after) := by
    obtain ⟨changed, failed, created⟩ := store_of_lacksAt lacks value
    rw [fails] at failed
    cases failed
    exact ⟨rfl, created⟩
  refine ⟨⟨fun same path name lacks => ?_, fun lacksNone => ?_⟩,
    fun path name lacks => leaves lacks⟩
  · exact ne_of_lacksAt lacks (leaves lacks).2 same
  · rcases eq_or_lacksAt_of_store ordered fails with
      same | ⟨path, name, lacks⟩
    · exact same
    · exact (lacksNone path name lacks).elim

namespace Sample

/-- An object with a list as its only field, in a variable `g`. -/
def listed : Environment :=
  ⟨[("g", .object none [("items", .array [])])], []⟩

/-- An object without fields in a variable `g`. -/
def bare : Environment :=
  ⟨[("g", .object none [])], []⟩

theorem ordered_single {name : String} {value : Value}
    (ordered : value.Ordered) :
    (Value.object none [(name, value)]).Ordered := by
  constructor
  · rintro _ _ ⟨rfl⟩
    exact List.pairwise_singleton _ _
  · simpa [Value.parts] using ordered

theorem ordered_listed : listed.Ordered :=
  ⟨ordered_single (ordered_single (Value.ordered_leaf rfl nofun)), nofun⟩

theorem ordered_bare : bare.Ordered :=
  ⟨ordered_single (Value.ordered_noFields none), nofun⟩

end Sample

/-- An index that is out of bounds leaves `g.items` as it was. -/
theorem failed_store_keeps_of_index :
    Sample.listed.store ⟨"g", [.field "items", .index 0]⟩ (.int 1) =
      (some (.indexOutOfBounds 0 0), Sample.listed) := by
  have fails : Sample.listed.store ⟨"g", [.field "items", .index 0]⟩ (.int 1) =
      (some (.indexOutOfBounds 0 0),
        (Sample.listed.store ⟨"g", [.field "items", .index 0]⟩ (.int 1)).2) :=
    rfl
  rw [fails]
  have kept := (failed_store_keeps_iff Sample.ordered_listed fails).2
  have same := (failed_store_keeps_iff Sample.ordered_listed fails).1.mpr ?_
  · rw [same]
  · intro path name lacks
    cases (kept path name lacks).1

/-- Storing at `g.a.b` fails if `g` has no field `a`, and leaves one. -/
theorem failed_store_creates_field :
    ¬ ∀ (environment after : Environment) (place : Place) (value : Value)
      (fault : Fault),
      environment.Ordered →
      environment.store place value = (some fault, after) →
        after = environment := by
  intro claim
  have same := claim Sample.bare
    ⟨[("g", .object none [("a", .null)])], []⟩
    ⟨"g", [.field "a", .field "b"]⟩ (.int 1) (.nullAccess .assign)
    Sample.ordered_bare rfl
  cases same

end Environment

end PluginSurface
