import PluginSurface.Resolve.Declarations

/-!
Where the fields of a class lie. A class begins with the fields of the class it
extends, and every field is aligned to its own needs.
-/

namespace PluginSurface

/-- The smallest multiple of an alignment that is not below an offset. -/
def alignUp (offset alignment : Nat) : Nat :=
  (offset + alignment - 1) / alignment * alignment

/-- The number of declared paths that have not been seen. -/
def unseenCount (declared seen : List String) : Nat :=
  (declared.filter fun path => path ∉ seen).length

theorem unseenCount_cons_le (declared seen : List String) (path : String) :
    unseenCount declared (path :: seen) ≤ unseenCount declared seen := by
  induction declared with
  | nil => simp [unseenCount]
  | cons first rest step =>
      simp only [unseenCount, List.filter_cons] at step ⊢
      by_cases known : first ∈ seen
      · simpa [known] using step
      · by_cases same : first = path
        · simpa [same, same ▸ known] using Nat.le_succ_of_le step
        · simpa [known, same] using step

/-- A declared path counts no longer once it has been seen. -/
theorem unseenCount_cons_lt {declared seen : List String} {path : String}
    (isDeclared : path ∈ declared) (isNew : path ∉ seen) :
    unseenCount declared (path :: seen) < unseenCount declared seen := by
  induction declared with
  | nil => simp at isDeclared
  | cons first rest step =>
      have smaller := unseenCount_cons_le rest seen path
      simp only [unseenCount, List.filter_cons] at step smaller ⊢
      by_cases same : first = path
      · subst same
        simp [isNew]
        simp at smaller
        omega
      · have later : path ∈ rest := by
          simpa [Ne.symm same] using isDeclared
        have fewer := step later
        by_cases known : first ∈ seen
        · simpa [known] using fewer
        · simpa [known, same] using fewer

/-- A field, the offset it lies at and the type it has. -/
structure PlacedField where
  offset : Nat
  name : String
  type : DataType
deriving DecidableEq, Inhabited

namespace PlacedField

def stop (field : PlacedField) : Nat :=
  field.offset + field.type.slot.size

def toField (field : PlacedField) : Field :=
  ⟨field.offset, field.name, field.type.ref⟩

end PlacedField

/-- Places fields one after the other from an offset on, each at the first
multiple of its alignment. -/
def placeFields (offset : Nat) :
    List (String × DataType) → List PlacedField
  | [] => []
  | (name, type) :: rest =>
      let field : PlacedField :=
        ⟨alignUp offset type.slot.alignment, name, type⟩
      field :: placeFields field.stop rest

/-- The fields of a class, with those of the classes it extends. -/
structure ClassLayout where
  fields : List PlacedField
deriving DecidableEq, Inhabited

namespace ClassLayout

def alignment (layout : ClassLayout) : Nat :=
  layout.fields.foldl (fun most field => max most field.type.slot.alignment) 1

def stop (layout : ClassLayout) : Nat :=
  (layout.fields.getLast?.map PlacedField.stop).getD 0

/-- The size in bytes, which keeps the fields of a following object aligned. -/
def size (layout : ClassLayout) : Nat :=
  alignUp layout.stop layout.alignment

def types (layout : ClassLayout) : List DataType :=
  layout.fields.map PlacedField.type

end ClassLayout

namespace Declarations

theorem mem_keys_of_find? {Value : Type} {entries : Dict Value} {key : String}
    {value : Value} (found : entries.find? key = some value) :
    key ∈ entries.keys := by
  induction entries with
  | nil => simp [Dict.find?] at found
  | cons entry rest step =>
      obtain ⟨name, held⟩ := entry
      simp only [Dict.find?, List.lookup_cons] at found step
      by_cases same : key = name
      · simp [Dict.keys, same]
      · have other : (key == name) = false := by simpa using same
        rw [other] at found
        exact List.mem_cons_of_mem _ (step found)

/-- A class and the classes it extends, nearest first. A class that comes up
again ends the chain, and so does a base that no program declares. -/
def ancestry (declarations : Declarations) (path : String)
    (seen : List String) : List ClassEntry :=
  match _found : declarations.classes.find? path with
  | none => []
  | some entry =>
      if _new : path ∈ seen then []
      else
        entry ::
          match entry.decl.base.map (declarations.resolve entry.modulePath) with
          | some (.class base) =>
              declarations.ancestry base (path :: seen)
          | _ => []
termination_by unseenCount declarations.classes.keys seen
decreasing_by exact unseenCount_cons_lt (mem_keys_of_find? _found) _new

def ownFields (declarations : Declarations) (entry : ClassEntry) :
    List (String × DataType) :=
  entry.decl.fields.map fun field =>
    (field.name.text, declarations.resolve entry.modulePath field.type)

/-- How the class with a path is laid out, if a program declares it. -/
def layout? (declarations : Declarations) (path : String) :
    Option ClassLayout :=
  match declarations.ancestry path [] with
  | [] => none
  | chain =>
      some ⟨placeFields 0 (chain.reverse.flatMap declarations.ownFields)⟩

theorem mem_keys_of_layout? {declarations : Declarations} {path : String}
    {layout : ClassLayout} (found : declarations.layout? path = some layout) :
    path ∈ declarations.classes.keys := by
  unfold layout? at found
  cases entry : declarations.classes.find? path with
  | none =>
      rw [ancestry] at found
      split at found
      · contradiction
      · split at * <;> simp_all
  | some entry => exact mem_keys_of_find? ‹_›

end Declarations

end PluginSurface
