import PluginSurface.Resolve.Layout

/-!
The types that signatures depend on, each once, in the order they are met.
-/

namespace PluginSurface.Declarations

/-- The types of the fields that a declared class has. -/
def fieldTypes (declarations : Declarations) : DataType → List DataType
  | .class path => ((declarations.layout? path).map ClassLayout.types).getD []
  | _ => []

theorem mem_keys_of_fieldTypes_ne_nil {declarations : Declarations}
    {type : DataType} (some_field : declarations.fieldTypes type ≠ []) :
    type.path ∈ declarations.classes.keys := by
  cases type with
  | «class» path =>
      cases found : declarations.layout? path with
      | none => simp [fieldTypes, found] at some_field
      | some layout => exact mem_keys_of_layout? found
  | _ => simp [fieldTypes] at some_field

/-- Meets types from the front of a list on, and behind each type that has not
been seen the types inside it and then those of its fields. Primitive types are
left out, and a nullable type stands for the type inside it. -/
def discover (declarations : Declarations) (seen : List String) :
    List DataType → List DataType
  | [] => []
  | .primitive _ :: rest => declarations.discover seen rest
  | .nullable inner :: rest => declarations.discover seen (inner :: rest)
  | type :: rest =>
      if type.path ∈ seen then declarations.discover seen rest
      else
        type :: declarations.discover (type.path :: seen)
          (type.children ++ declarations.fieldTypes type ++ rest)
termination_by stack =>
  (unseenCount declarations.classes.keys seen, DataType.totalWeight stack)
decreasing_by
  · apply Prod.Lex.right
    simp only [DataType.totalWeight, DataType.weight]
    omega
  · apply Prod.Lex.right
    simp only [DataType.totalWeight, DataType.weight]
    omega
  · apply Prod.Lex.right
    have positive := type.weight_pos
    simp only [DataType.totalWeight]
    omega
  · next isNew =>
    rcases Nat.lt_or_eq_of_le (unseenCount_cons_le
      declarations.classes.keys seen type.path) with fewer | same
    · exact Prod.Lex.left _ _ fewer
    · rw [same]
      apply Prod.Lex.right
      have noFields : declarations.fieldTypes type = [] := by
        apply Classical.byContradiction
        intro hasFields
        have fewer := unseenCount_cons_lt
          (mem_keys_of_fieldTypes_ne_nil hasFields) isNew
        omega
      have lighter := type.totalWeight_children_lt
      simp only [noFields, List.append_nil, DataType.totalWeight_append,
        DataType.totalWeight]
      omega

/-! ## Definitions -/

/-- The number of the text type. Numbers one to three belong to built-in
types. -/
def stringId : Nat := 2

/-- The first number that is free for other types. -/
def firstFreeId : Nat := 4

/-- The definition of a type under a number. -/
def define (declarations : Declarations) (id : Nat) (type : DataType) :
    TypeDefinition :=
  let layout :=
    match type with
    | .class path => declarations.layout? path
    | _ => none
  let size :=
    match type with
    | .array _ => 16
    | .map .. | .date => 24
    | _ => (layout.map ClassLayout.size).getD 0
  { id, size, path := type.path, name := type.text
    fields := layout.map fun layout =>
      layout.fields.map PlacedField.toField }

/-- Numbers types in their order, but for the text type, which has its own
number. -/
def defineAll (declarations : Declarations) (next : Nat) :
    List DataType → List TypeDefinition
  | [] => []
  | .string :: rest =>
      declarations.define stringId .string :: declarations.defineAll next rest
  | type :: rest =>
      declarations.define next type :: declarations.defineAll (next + 1) rest

/-- The definitions of all types that given types depend on. -/
def typeTable (declarations : Declarations) (roots : List DataType) :
    List TypeDefinition :=
  declarations.defineAll firstFreeId (declarations.discover [] roots)

end PluginSurface.Declarations
