import Mathlib.Data.List.Forall2
import PluginSurface.Eval.Environment
import PluginSurface.Proofs.Dict

/-!
# Scopes that look alike

Two evaluations of one expression go the same way as long as the names that it
reads and assigns mean the same in both. A relation between local scopes hides
some names and fixes some: what is not hidden means the same on both sides, and
stays so when a name is assigned that is neither hidden nor fixed.
-/

namespace PluginSurface

/-- How the local scopes of two evaluations may differ. -/
abbrev ScopeRelation :=
  List Scope → List Scope → Prop

namespace Environment

/-- Names that are not hidden mean the same in related scopes. Assigning to one
of them leaves the scopes related unless the name is fixed: such names may be
read and not assigned. -/
structure Hides (related : ScopeRelation) (hidden fixed : String → Prop) :
    Prop where
  find : ∀ {left right : List Scope} {name : String}, related left right →
    ¬ hidden name → findIn? name left = findIn? name right
  set : ∀ {left right : List Scope} {name : String} (value : Value),
    related left right → ¬ hidden name → ¬ fixed name →
      related (setIn name value left) (setIn name value right)

/-- No name at all. -/
abbrev NoName : String → Prop :=
  fun _ => False

theorem hides_eq (hidden fixed : String → Prop) :
    Hides (· = ·) hidden fixed where
  find same _ := by rw [same]
  set value same _ _ := by rw [same]

/-! ## Hiding names from single scopes -/

/-- Two scopes bind all names alike that are not hidden. -/
def AlikeOff (hidden : String → Prop) (left right : Scope) : Prop :=
  ∀ name, ¬ hidden name → left.find? name = right.find? name

/-- Two lists of scopes bind all names alike, scope by scope, that are not
hidden. -/
abbrev ScopesAlikeOff (hidden : String → Prop) : ScopeRelation :=
  List.Forall₂ (AlikeOff hidden)

abbrev ScopesAlike : ScopeRelation :=
  ScopesAlikeOff NoName

def AnyScopes : ScopeRelation :=
  fun _ _ => True

variable {hidden : String → Prop} {left right : Scope}

theorem AlikeOff.refl (scope : Scope) : AlikeOff hidden scope scope :=
  fun _ _ => rfl

theorem AlikeOff.insert (alike : AlikeOff hidden left right) (name : String)
    (value : Value) :
    AlikeOff hidden (left.insert name value) (right.insert name value) := by
  intro other visible
  simp only [Dict.find?_insert, alike other visible]

theorem AlikeOff.insert_hidden (alike : AlikeOff hidden left right)
    {name : String} (hides : hidden name) (leftValue rightValue : Value) :
    AlikeOff hidden (left.insert name leftValue)
      (right.insert name rightValue) := by
  intro other visible
  have different : other ≠ name := fun same => visible (same ▸ hides)
  rw [Dict.find?_insert_other left different,
    Dict.find?_insert_other right different]
  exact alike other visible

theorem ScopesAlikeOff.push {lefts rights : List Scope}
    (alike : ScopesAlikeOff hidden lefts rights) :
    ScopesAlikeOff hidden ([] :: lefts) ([] :: rights) :=
  .cons (.refl []) alike

theorem ScopesAlikeOff.pop {lefts rights : List Scope}
    (alike : ScopesAlikeOff hidden lefts rights) :
    ScopesAlikeOff hidden lefts.tail rights.tail := by
  cases alike with
  | nil => exact .nil
  | cons _ rest => exact rest

theorem hides_scopesAlikeOff (hidden fixed : String → Prop) :
    Hides (ScopesAlikeOff hidden) hidden fixed where
  find {lefts rights name} alike visible := by
    induction alike with
    | nil => rfl
    | cons first _ inductionHypothesis =>
        simp only [findIn?, first name visible, inductionHypothesis]
  set {lefts rights name} value alike visible _ := by
    induction alike with
    | nil => exact .nil
    | @cons left right lefts rights first rest inductionHypothesis =>
        simp only [setIn, Dict.contains_eq, first name visible]
        by_cases bound : (right.find? name).isSome
        · simp only [bound, if_true]
          exact .cons (first.insert name value) rest
        · simp only [bound]
          exact .cons first inductionHypothesis

/-! ## One scope -/

@[simp]
theorem findIn?_singleton (name : String) (scope : Scope) :
    findIn? name [scope] = scope.find? name := by
  simp only [findIn?]
  split
  · rename_i found
    exact found.symm
  · rename_i missing
    exact missing.symm

theorem setIn_singleton {name : String} {scope : Scope} {held : Value}
    (found : scope.find? name = some held) (value : Value) :
    setIn name value [scope] = [scope.insert name value] := by
  simp [setIn, Dict.contains_eq, found]

end Environment

end PluginSurface
