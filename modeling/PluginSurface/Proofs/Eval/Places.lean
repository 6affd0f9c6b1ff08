import PluginSurface.Proofs.Eval.Frames

/-!
# Storing at places and loading from them

A store that succeeds puts a value at the end of a path and leaves everything
beside the path as it is. A step into a value is described once, by what stands
behind it and by the value with something else put there; the laws of whole
paths follow step by step.
-/

namespace PluginSurface

/-! ## Paths -/

/-- Two paths take different steps at some position that both have. -/
def Diverge (left right : List Step) : Prop :=
  ∃ (position : Nat) (first second : Step), left[position]? = some first ∧
    right[position]? = some second ∧ first ≠ second

theorem not_diverge_nil_left (path : List Step) : ¬ Diverge [] path := by
  rintro ⟨position, first, second, found, -, -⟩
  simp at found

theorem not_diverge_nil_right (path : List Step) : ¬ Diverge path [] := by
  rintro ⟨position, first, second, -, found, -⟩
  simp at found

theorem diverge_cons {first second : Step} {left right : List Step}
    (diverge : Diverge (first :: left) (second :: right)) :
    first ≠ second ∨ Diverge left right := by
  obtain ⟨position, leftStep, rightStep, leftFound, rightFound, different⟩ :=
    diverge
  cases position with
  | zero =>
      simp only [List.getElem?_cons_zero, Option.some.injEq] at leftFound
      simp only [List.getElem?_cons_zero, Option.some.injEq] at rightFound
      subst leftFound rightFound
      exact .inl different
  | succ position =>
      rw [List.getElem?_cons_succ] at leftFound rightFound
      exact .inr ⟨position, leftStep, rightStep, leftFound, rightFound,
        different⟩

namespace Value

/-! ## Items of lists -/

section

variable {Item : Type} {items : List Item} {index other : Int64} {held : Item}

theorem itemAt?_eq_some (found : itemAt? items index = some held) :
    0 ≤ index.toInt ∧ items[index.toInt.toNat]? = some held := by
  unfold itemAt? at found
  split at found
  · cases found
  · rename_i notNegative
    exact ⟨Int.not_lt.mp notNegative, found⟩

theorem itemAt?_set_self (found : itemAt? items index = some held)
    (item : Item) :
    itemAt? (items.set index.toInt.toNat item) index = some item := by
  obtain ⟨notNegative, known⟩ := itemAt?_eq_some found
  obtain ⟨within, -⟩ := List.getElem?_eq_some_iff.mp known
  unfold itemAt?
  rw [if_neg (Int.not_lt.mpr notNegative)]
  exact List.getElem?_set_self within

theorem itemAt?_set_other (found : itemAt? items index = some held)
    (different : other ≠ index) (item : Item) :
    itemAt? (items.set index.toInt.toNat item) other = itemAt? items other := by
  obtain ⟨notNegative, -⟩ := itemAt?_eq_some found
  unfold itemAt?
  split
  · rfl
  · rename_i otherNotNegative
    have apart : index.toInt.toNat ≠ other.toInt.toNat := by
      intro same
      apply different
      apply Int64.toInt_inj.mp
      omega
    exact List.getElem?_set_ne apart

end

/-! ## One step -/

/-- A step leads into a value: to what stands behind it, or null where a field
is missing, and to the value with something else put there. -/
inductive Opens : Value → Step → Value → (Value → Value) → Prop where
  | field (className : Option String) (fields : Dict Value) (name : String) :
      Opens (.object className fields) (.field name)
        ((Dict.find? fields name).getD .null)
        fun inner => .object className (Dict.insert fields name inner)
  | index {items : List Value} {index : Int64} {held : Value}
      (found : itemAt? items index = some held) :
      Opens (.array items) (.index index) held
        fun inner => .array (items.set index.toInt.toNat inner)

variable {target after inner value : Value} {step other : Step}
  {path rest : List Step} {replace : Value → Value}

/-- Where a step leads into a value, an assignment goes on behind it. -/
theorem Opens.assign (opens : Opens target step inner replace)
    (rest : List Step) (value : Value) :
    target.assign (step :: rest) value =
      ((inner.assign rest value).1, replace (inner.assign rest value).2) := by
  cases opens with
  | field className fields name => rfl
  | index found => simp only [Value.assign, found]

/-- Where it does not, an assignment fails and changes nothing. -/
theorem opens_or_fails (target : Value) (step : Step) :
    (∃ inner replace, Opens target step inner replace) ∨
      ∃ fault, ∀ rest value,
        target.assign (step :: rest) value = (some fault, target) := by
  cases target with
  | object className fields =>
      cases step with
      | field name => exact .inl ⟨_, _, .field className fields name⟩
      | index index => exact .inr ⟨_, fun _ _ => rfl⟩
  | array items =>
      cases step with
      | field name => exact .inr ⟨_, fun _ _ => rfl⟩
      | index index =>
          cases found : itemAt? items index with
          | some held => exact .inl ⟨_, _, .index found⟩
          | none =>
              refine .inr ⟨.indexOutOfBounds index.toInt items.length, ?_⟩
              intro rest value
              simp only [Value.assign, found]
  | _ => exact .inr ⟨_, fun _ _ => rfl⟩

/-- What a step leads to can be read, unless it is a field that is missing. -/
theorem Opens.follow (opens : Opens target step inner replace) :
    target.follow step = .ok inner ∨
      ∃ className fields name, target = .object className fields ∧
        step = .field name ∧ Dict.find? fields name = none ∧
          inner = .null := by
  cases opens with
  | field className fields name =>
      cases found : Dict.find? fields name with
      | some held =>
          exact .inl (by simp [Value.follow, Value.member, found])
      | none => exact .inr ⟨className, fields, name, rfl, rfl, found, rfl⟩
  | index found =>
      exact .inl (by simp only [Value.follow, Value.element, found])

theorem Opens.follow_replace (opens : Opens target step inner replace)
    (value : Value) : (replace value).follow step = .ok value := by
  cases opens with
  | field className fields name =>
      simp only [Value.follow, Value.member, Dict.find?_insert_self]
  | index found =>
      simp only [Value.follow, Value.element, itemAt?_set_self found]

theorem Opens.follow_replace_other (opens : Opens target step inner replace)
    (different : other ≠ step) (value : Value) :
    (replace value).follow other = target.follow other := by
  cases opens with
  | field className fields name =>
      cases other with
      | index index => rfl
      | field otherName =>
          have apart : otherName ≠ name := fun same => different (same ▸ rfl)
          simp only [Value.follow, Value.member,
            Dict.find?_insert_other fields apart]
  | @index items index held found =>
      cases other with
      | field name =>
          simp only [Value.follow, Value.member, List.length_set, typeName]
      | index otherIndex =>
          have apart : otherIndex ≠ index := fun same => different (same ▸ rfl)
          simp only [Value.follow, Value.element,
            itemAt?_set_other found apart, List.length_set]

/-! ## Whole paths -/

theorem followAll_cons (target : Value) (step : Step) (rest : List Step) :
    target.followAll (step :: rest) =
      target.follow step >>= fun inner => inner.followAll rest := rfl

theorem followAll_append (target : Value) (path rest : List Step) :
    target.followAll (path ++ rest) =
      target.followAll path >>= fun inner => inner.followAll rest := by
  induction path generalizing target with
  | nil => rfl
  | cons step path inductionHypothesis =>
      rw [List.cons_append, followAll_cons, followAll_cons]
      cases target.follow step with
      | ok inner => exact inductionHypothesis inner
      | error fault => rfl

/-- An assignment that goes through has led into its target. -/
theorem exists_opens_of_assign
    (assigned : target.assign (step :: rest) value = (none, after)) :
    ∃ inner replace innerAfter, Opens target step inner replace ∧
      inner.assign rest value = (none, innerAfter) ∧
        after = replace innerAfter := by
  rcases opens_or_fails target step with
    ⟨inner, replace, opens⟩ | ⟨fault, fails⟩
  · rw [opens.assign] at assigned
    obtain ⟨noFault, rfl⟩ := Prod.mk.inj assigned
    exact ⟨inner, replace, _, opens, Prod.ext noFault rfl, rfl⟩
  · rw [fails] at assigned
    cases assigned

theorem followAll_assign (assigned : target.assign path value = (none, after)) :
    after.followAll path = .ok value := by
  induction path generalizing target after with
  | nil =>
      cases assigned
      rfl
  | cons step rest inductionHypothesis =>
      obtain ⟨inner, replace, innerAfter, opens, below, rfl⟩ :=
        exists_opens_of_assign assigned
      rw [followAll_cons, opens.follow_replace]
      exact inductionHypothesis below

/-- Nothing changes beside the path of an assignment. -/
theorem followAll_assign_of_diverge {otherPath : List Step}
    (diverge : Diverge path otherPath)
    (assigned : target.assign path value = (none, after)) :
    after.followAll otherPath = target.followAll otherPath := by
  induction path generalizing target after otherPath with
  | nil => exact (not_diverge_nil_left _ diverge).elim
  | cons step rest inductionHypothesis =>
      obtain ⟨inner, replace, innerAfter, opens, below, rfl⟩ :=
        exists_opens_of_assign assigned
      cases otherPath with
      | nil => exact (not_diverge_nil_right _ diverge).elim
      | cons other otherRest =>
          rw [followAll_cons, followAll_cons]
          by_cases same : other = step
          · subst same
            have restDiverges : Diverge rest otherRest :=
              (diverge_cons diverge).resolve_left fun different =>
                different rfl
            rcases opens.follow with held | ⟨_, _, _, _, _, _, rfl⟩
            · rw [opens.follow_replace, held]
              exact inductionHypothesis restDiverges below
            · -- Below a missing field there is no further step to take.
              cases rest with
              | nil => exact (not_diverge_nil_left _ restDiverges).elim
              | cons next rest => cases below
          · rw [opens.follow_replace_other same]

end Value

/-! ## Variables -/

namespace Environment

variable {environment after : Environment} {name other : String}
  {held value : Value} {place : Place}

theorem findIn?_setIn_self {scopes : List Scope}
    (found : findIn? name scopes = some held) (value : Value) :
    findIn? name (setIn name value scopes) = some value := by
  induction scopes with
  | nil => cases found
  | cons scope rest inductionHypothesis =>
      unfold findIn? at found
      unfold setIn
      rw [Dict.contains_eq]
      cases bound : Dict.find? scope name with
      | some first =>
          simp [findIn?]
      | none =>
          rw [bound] at found
          simp [findIn?, bound, inductionHypothesis found]

theorem findIn?_setIn_other (different : other ≠ name) (value : Value)
    (scopes : List Scope) :
    findIn? other (setIn name value scopes) = findIn? other scopes := by
  induction scopes with
  | nil => rfl
  | cons scope rest inductionHypothesis =>
      unfold setIn
      split
      · simp only [findIn?, Dict.find?_insert_other scope different]
      · simp only [findIn?, inductionHypothesis]

theorem find?_set_self (found : environment.find? name = some held)
    (value : Value) : (environment.set name value).find? name = some value := by
  unfold set
  cases bound : findIn? name environment.scopes with
  | some first => simp [find?, findIn?_setIn_self bound]
  | none =>
      have isGlobal : environment.globals.find? name = some held := by
        simpa only [find?, bound] using found
      simp [find?, bound, Dict.contains_eq, isGlobal]

theorem find?_set_other (environment : Environment) (different : other ≠ name)
    (value : Value) :
    (environment.set name value).find? other = environment.find? other := by
  unfold set
  split
  · simp only [find?, findIn?_setIn_other different]
  · split
    · simp only [find?, Dict.find?_insert_other _ different]
    · rfl

/-- Assigning to a variable binds no name in any scope. -/
theorem boundNames_set (environment : Environment) (name : String)
    (value : Value) :
    boundNames (environment.set name value).globals =
        boundNames environment.globals ∧
      (environment.set name value).scopes.map boundNames =
        environment.scopes.map boundNames := by
  have same := sameFrame_set ⟨environment, 0, 0, 0⟩ name value
  exact ⟨same.globals, same.scopes⟩

/-! ## Loads and stores -/

theorem load_append (environment : Environment) (root : String)
    (path rest : List Step) :
    environment.load ⟨root, path ++ rest⟩ =
      environment.load ⟨root, path⟩ >>= fun inner => inner.followAll rest := by
  unfold load
  cases environment.find? root with
  | some target => exact Value.followAll_append target path rest
  | none => rfl

theorem load_of_find? {name : String} {value : Value}
    (found : environment.find? name = some value) :
    environment.load ⟨name, []⟩ = .ok value := by
  simp only [load, found, Value.followAll]

theorem load_of_follow {outer : Value} {step : Step}
    (loaded : environment.load place = .ok outer)
    (followed : outer.follow step = .ok value) :
    environment.load ⟨place.root, place.path ++ [step]⟩ = .ok value := by
  rw [load_append, loaded]
  change outer.followAll [step] = .ok value
  rw [Value.followAll_cons, followed]
  rfl

/-- A store that goes through assigns to the variable at the root. -/
theorem exists_assign_of_store
    (stored : environment.store place value = (none, after)) :
    ∃ target changed, environment.find? place.root = some target ∧
      target.assign place.path value = (none, changed) ∧
        after = environment.set place.root changed := by
  unfold store at stored
  cases found : environment.find? place.root with
  | none =>
      rw [found] at stored
      cases stored
  | some target =>
      rw [found] at stored
      obtain ⟨noFault, rfl⟩ := Prod.mk.inj stored
      exact ⟨target, _, rfl, Prod.ext noFault rfl, rfl⟩

theorem load_store (stored : environment.store place value = (none, after)) :
    after.load place = .ok value := by
  obtain ⟨target, changed, found, assigned, rfl⟩ :=
    exists_assign_of_store stored
  unfold load
  rw [find?_set_self found]
  exact Value.followAll_assign assigned

theorem load_store_of_ne
    (stored : environment.store place value = (none, after)) {other : Place}
    (different : other.root ≠ place.root) :
    after.load other = environment.load other := by
  obtain ⟨target, changed, -, -, rfl⟩ := exists_assign_of_store stored
  unfold load
  rw [find?_set_other environment different]

theorem load_store_of_diverge
    (stored : environment.store place value = (none, after)) {other : Place}
    (diverge : Diverge place.path other.path) :
    after.load other = environment.load other := by
  by_cases same : other.root = place.root
  · obtain ⟨target, changed, found, assigned, rfl⟩ :=
      exists_assign_of_store stored
    unfold load
    rw [same, find?_set_self found, found]
    exact Value.followAll_assign_of_diverge diverge assigned
  · exact load_store_of_ne stored same

/-- What is stored at a place is loaded from it afterwards. Places below other
variables and places whose paths part from its path are loaded as before, and
every scope binds the names it has bound before. -/
theorem store_obeys_place_laws
    (stored : environment.store place value = (none, after)) :
    after.load place = .ok value ∧
      (∀ other : Place,
        other.root ≠ place.root ∨ Diverge place.path other.path →
          after.load other = environment.load other) ∧
      boundNames after.globals = boundNames environment.globals ∧
      after.scopes.map boundNames = environment.scopes.map boundNames := by
  refine ⟨load_store stored, ?_, ?_⟩
  · intro other apart
    rcases apart with different | diverge
    · exact load_store_of_ne stored different
    · exact load_store_of_diverge stored diverge
  · obtain ⟨target, changed, -, -, rfl⟩ := exists_assign_of_store stored
    exact boundNames_set environment place.root changed

namespace Sample

/-- A local variable `o` over a global one of the same name. -/
def shadowed : Environment :=
  ⟨[("o", .int 1)], [[("o", .object none [("a", .array [.int 5, .int 6])])]]⟩

/-- The place `o.a[1]`. -/
def second : Place :=
  ⟨"o", [.field "a", .index 1]⟩

def assigned : Environment :=
  ⟨[("o", .int 1)], [[("o", .object none [("a", .array [.int 5, .int 7])])]]⟩

end Sample

/-- Storing at `o.a[1]` leaves `o.a[0]`. -/
theorem store_obeys_place_laws_of_shadowed :
    Sample.shadowed.store Sample.second (.int 7) = (none, Sample.assigned) ∧
      Sample.assigned.load Sample.second = .ok (.int 7) ∧
      Sample.assigned.load ⟨"o", [.field "a", .index 0]⟩ =
        Sample.shadowed.load ⟨"o", [.field "a", .index 0]⟩ := by
  have stored : Sample.shadowed.store Sample.second (.int 7) =
      (none, Sample.assigned) := rfl
  obtain ⟨loaded, others, -⟩ := store_obeys_place_laws stored
  refine ⟨stored, loaded, others _ (.inr ?_)⟩
  exact ⟨1, .index 1, .index 0, rfl, rfl, by decide⟩

end Environment

end PluginSurface
