import PluginSurface.Eval.Run
import PluginSurface.Proofs.Syntax.Closure

/-!
# What an evaluation can reach

Evaluating a point of a program evaluates its operands, the initializers of the
fields of what it creates, and the functions that it calls. Operands and field
initializers see the local variables of the point, called functions do not.
Methods are found by name, so a method call may reach the method of any class.
The variables that an evaluation comes to and those that it can assign to are
told apart.
-/

namespace PluginSurface

open Interpreter

/-! ## Names -/

namespace Arena

variable (arena : Arena)

/-- The expressions that are evaluated for an expression. What is called is not
evaluated itself, only the object of a method is. -/
def operands (id : ExprId) : List ExprId :=
  match (arena.expr id).node with
  | .call callee _ arguments =>
      match (arena.expr callee).node with
      | .member object _ => object :: arguments
      | _ => arguments
  | node => node.children

/-- The points that are evaluated for a point over the same variables. -/
def evaluated : Point → List Point
  | .expr id => (arena.operands id).map Point.expr
  | .stmt id => (arena.stmt id).node.points

def names : Point → List String
  | .expr id =>
      match (arena.expr id).node with
      | .identifier name => [name]
      | .this => [receiverName]
      | _ => []
  | .stmt _ => []

/-- A variable is mentioned at a point or below it. -/
inductive Mentions (name : String) : Point → Prop where
  | here {point : Point} (named : name ∈ arena.names point) :
      Mentions name point
  | part {point part : Point} (member : part ∈ arena.evaluated point)
      (mentions : Mentions name part) : Mentions name point

/-- An expression stands for a place under a variable. -/
inductive StandsUnder : String → ExprId → Prop where
  | identifier {id : ExprId} {name : String}
      (node : (arena.expr id).node = .identifier name) : StandsUnder name id
  | this {id : ExprId} (node : (arena.expr id).node = .this) :
      StandsUnder receiverName id
  | paren {id inner : ExprId} {name : String}
      (node : (arena.expr id).node = .paren inner)
      (stands : StandsUnder name inner) : StandsUnder name id
  | member {id object : ExprId} {property : Name} {name : String}
      (node : (arena.expr id).node = .member object property)
      (stands : StandsUnder name object) : StandsUnder name id
  | index {id object position : ExprId} {name : String}
      (node : (arena.expr id).node = .index object position)
      (stands : StandsUnder name object) : StandsUnder name id

def parts : Point → List Point
  | .expr id => (arena.expr id).node.children.map Point.expr
  | .stmt id => (arena.stmt id).node.points

end Arena

namespace Program

variable (program : Program)

/-- The field initializers of the class that a point creates an instance of. -/
def created : Point → List Point
  | .expr id =>
      match (program.arena.expr id).node with
      | .new type _ =>
          (program.class? (type.baseName?.getD "")).toList.flatMap
            fun decl => decl.fields.flatMap FieldDecl.points
      | _ => []
  | .stmt _ => []

/-- The evaluation of a point can come to a variable, at the point, below it or
in the fields of an instance that is created. -/
inductive Touches (name : String) : Point → Prop where
  | here {point : Point} (named : name ∈ program.arena.names point) :
      Touches name point
  | part {point part : Point} (member : part ∈ program.arena.evaluated point)
      (touches : Touches name part) : Touches name point
  | created {point initializer : Point}
      (member : initializer ∈ program.created point)
      (touches : Touches name initializer) : Touches name point

/-- The evaluation of a point comes to no hidden variable. -/
def Avoids (hidden : String → Prop) (point : Point) : Prop :=
  ∀ name, hidden name → ¬ program.Touches name point

/-- The evaluation of a point can assign to a variable: it assigns to a place
under it or calls a method on one, which takes the receiver as the method leaves
it. -/
inductive Assigns (name : String) : Point → Prop where
  | target {id target value : ExprId} {operator : Option BinaryOperator}
      (node : (program.arena.expr id).node = .assign operator target value)
      (stands : program.arena.StandsUnder name target) :
      Assigns name (.expr id)
  | receiver {id callee object : ExprId} {types : List TypeExpr}
      {arguments : List ExprId} {property : Name}
      (node : (program.arena.expr id).node = .call callee types arguments)
      (calleeNode : (program.arena.expr callee).node = .member object property)
      (stands : program.arena.StandsUnder name object) :
      Assigns name (.expr id)
  | part {point part : Point} (member : part ∈ program.arena.evaluated point)
      (assigns : Assigns name part) : Assigns name point
  | created {point initializer : Point}
      (member : initializer ∈ program.created point)
      (assigns : Assigns name initializer) : Assigns name point

/-- The evaluation of a point assigns to no fixed variable. -/
def Spares (fixed : String → Prop) (point : Point) : Prop :=
  ∀ name, fixed name → ¬ program.Assigns name point

/-! ## Calls -/

def namedCallee? : Point → Option String
  | .expr id =>
      match (program.arena.expr id).node with
      | .call callee _ _ =>
          match (program.arena.expr callee).node with
          | .identifier name => if name = "super" then none else some name
          | _ => none
      | _ => none
  | .stmt _ => none

def methodsNamed (name : String) (classes : List ClassDecl) :
    List FunctionDecl :=
  (classes.flatMap ClassDecl.methods).filter fun method =>
    method.name.text == name

def callees : Point → List FunctionDecl
  | .expr id =>
      match (program.arena.expr id).node with
      | .call callee _ _ =>
          match (program.arena.expr callee).node with
          | .identifier name =>
              if name = "super" then [] else (program.callee? name).toList
          | .member _ property =>
              methodsNamed property.text program.classes
          | _ => []
      | .new type _ =>
          methodsNamed "constructor"
            (program.class? (type.baseName?.getD "")).toList
      | _ => []
  | .stmt _ => []

/-- What the evaluation of a point can come to in one step. -/
def successors (point : Point) : List Point :=
  program.arena.parts point ++
    (program.created point ++
      (program.callees point).flatMap FunctionDecl.entries)

/-- What evaluation can come to from some points. -/
inductive Reaches (start : List Point) : Point → Prop where
  | start {point : Point} (member : point ∈ start) : Reaches start point
  | step {point next : Point} (reaches : Reaches start point)
      (member : next ∈ program.successors point) : Reaches start next

/-- A point of a program: one that its items refer to, or a part of one. -/
inductive Contains : Point → Prop where
  | item {point : Point} (member : point ∈ program.points) : Contains point
  | part {point part : Point} (contains : Contains point)
      (member : part ∈ program.arena.parts point) : Contains part

def globalPoints : List Point :=
  program.items.flatMap fun item =>
    match item with
    | .variable decl => optionalPoints decl.value
    | _ => []

/-! ## Closure -/

variable {program} {hidden : String → Prop} {point next : Point}

theorem Avoids.evaluated (avoids : program.Avoids hidden point)
    (member : next ∈ program.arena.evaluated point) :
    program.Avoids hidden next :=
  fun name hides touches => avoids name hides (.part member touches)

theorem Avoids.created (avoids : program.Avoids hidden point)
    (member : next ∈ program.created point) : program.Avoids hidden next :=
  fun name hides touches => avoids name hides (.created member touches)

theorem Avoids.named (avoids : program.Avoids hidden point) {name : String}
    (named : name ∈ program.arena.names point) : ¬ hidden name :=
  fun hides => avoids name hides (.here named)

/-- The variable that an expression stands under is one that it names. -/
theorem Touches.of_standsUnder {name : String} {id : ExprId}
    (stands : program.arena.StandsUnder name id) :
    program.Touches name (.expr id) := by
  induction stands with
  | identifier node => exact .here (by simp [Arena.names, node])
  | this node => exact .here (by simp [Arena.names, node])
  | paren node _ inductionHypothesis | member node _ inductionHypothesis
  | index node _ inductionHypothesis =>
      refine .part (List.mem_map_of_mem ?_) inductionHypothesis
      simp [Arena.operands, node, Expr.children]

theorem Spares.evaluated {fixed : String → Prop}
    (spares : program.Spares fixed point)
    (member : next ∈ program.arena.evaluated point) :
    program.Spares fixed next :=
  fun name isFixed assigns => spares name isFixed (.part member assigns)

theorem Spares.created {fixed : String → Prop}
    (spares : program.Spares fixed point)
    (member : next ∈ program.created point) : program.Spares fixed next :=
  fun name isFixed assigns => spares name isFixed (.created member assigns)

theorem avoids_nothing (program : Program) (point : Point) :
    program.Avoids (fun _ => False) point :=
  fun _ hides => hides.elim

/-! ## Points of a program -/

theorem mem_points_of_function {function : FunctionDecl}
    (member : function ∈ program.functions) (among : point ∈ function.entries) :
    point ∈ program.points := by
  obtain ⟨item, itemMember, same⟩ := List.mem_filterMap.mp member
  refine List.mem_flatMap.mpr ⟨item, itemMember, ?_⟩
  cases item <;> cases same
  exact List.mem_append_right _ among

theorem mem_points_of_class {class_ : ClassDecl}
    (member : class_ ∈ program.classes)
    (among : point ∈ class_.fields.flatMap FieldDecl.points ++
      class_.methods.flatMap FunctionDecl.points) :
    point ∈ program.points := by
  obtain ⟨item, itemMember, same⟩ := List.mem_filterMap.mp member
  refine List.mem_flatMap.mpr ⟨item, itemMember, ?_⟩
  cases item <;> cases same
  exact List.mem_append_right _ among

theorem mem_classes_of_class? {name : String} {class_ : ClassDecl}
    (found : program.class? name = some class_) : class_ ∈ program.classes :=
  List.mem_of_find?_eq_some found

theorem mem_functions_of_callee? {name : String} {function : FunctionDecl}
    (found : program.callee? name = some function) :
    function ∈ program.functions := by
  unfold callee? at found
  rcases Option.or_eq_some_iff.mp found with resolved | ⟨_, declared⟩
  · exact List.mem_of_find?_eq_some resolved
  · exact List.mem_of_find?_eq_some declared

theorem mem_fields_of_created (member : next ∈ program.created point) :
    ∃ class_ ∈ program.classes,
      next ∈ class_.fields.flatMap FieldDecl.points := by
  unfold created at member
  split at member
  · split at member
    · obtain ⟨class_, found, among⟩ := List.mem_flatMap.mp member
      exact ⟨class_, mem_classes_of_class? (Option.mem_toList.mp found), among⟩
    · cases member
  · cases member

theorem mem_points_of_created (member : next ∈ program.created point) :
    next ∈ program.points := by
  obtain ⟨class_, known, among⟩ := mem_fields_of_created member
  exact mem_points_of_class known (List.mem_append_left _ among)

theorem mem_points_of_methodsNamed {name : String} {classes : List ClassDecl}
    (known : classes ⊆ program.classes) {method : FunctionDecl}
    (member : method ∈ methodsNamed name classes)
    (among : point ∈ method.entries) : point ∈ program.points := by
  obtain ⟨class_, owned, methodMember⟩ :=
    List.mem_flatMap.mp (List.mem_filter.mp member).1
  refine mem_points_of_class (known owned) (List.mem_append_right _ ?_)
  exact List.mem_flatMap.mpr
    ⟨method, methodMember, List.mem_append_right _ among⟩

theorem mem_points_of_callees {callee : FunctionDecl}
    (member : callee ∈ program.callees point)
    (among : next ∈ callee.entries) : next ∈ program.points := by
  unfold callees at member
  split at member
  · split at member
    · split at member
      · split at member
        · cases member
        · exact mem_points_of_function
            (mem_functions_of_callee? (Option.mem_toList.mp member)) among
      · exact mem_points_of_methodsNamed (List.Subset.refl _) member among
      · cases member
    · refine mem_points_of_methodsNamed (fun class_ found => ?_) member among
      exact mem_classes_of_class? (Option.mem_toList.mp found)
    · cases member
  · cases member

theorem mem_points_of_globalPoints (member : point ∈ program.globalPoints) :
    point ∈ program.points := by
  obtain ⟨item, itemMember, among⟩ := List.mem_flatMap.mp member
  refine List.mem_flatMap.mpr ⟨item, itemMember, ?_⟩
  cases item with
  | «variable» decl => exact List.mem_append_right _ among
  | _ => cases among

theorem Contains.successor (contains : program.Contains point)
    (member : next ∈ program.successors point) : program.Contains next := by
  rcases List.mem_append.mp member with isPart | elsewhere
  · exact .part contains isPart
  · rcases List.mem_append.mp elsewhere with isCreated | isCalled
    · exact .item (mem_points_of_created isCreated)
    · obtain ⟨callee, called, among⟩ := List.mem_flatMap.mp isCalled
      exact .item (mem_points_of_callees called among)

theorem Reaches.contains {start : List Point}
    (reaches : program.Reaches start point)
    (known : ∀ first ∈ start, program.Contains first) :
    program.Contains point := by
  induction reaches with
  | start member => exact known _ member
  | step _ member inductionHypothesis =>
      exact inductionHypothesis.successor member

/-- Points that lead to no further ones are all that is reached from them. -/
theorem Reaches.among {start known : List Point}
    (reaches : program.Reaches start point) (starts : start ⊆ known)
    (steps : ∀ point ∈ known, program.successors point ⊆ known) :
    point ∈ known := by
  induction reaches with
  | start member => exact starts member
  | step _ member inductionHypothesis =>
      exact steps _ inductionHypothesis member

theorem Contains.among {known : List Point} (contains : program.Contains point)
    (items : program.points ⊆ known)
    (parts : ∀ point ∈ known, program.arena.parts point ⊆ known) :
    point ∈ known := by
  induction contains with
  | item member => exact items member
  | part _ member inductionHypothesis =>
      exact parts _ inductionHypothesis member

theorem Contains.has (contains : program.Contains point)
    (closed : program.Closed) : program.arena.Has point := by
  induction contains with
  | item member => exact closed.points _ member
  | @part point part _ member inductionHypothesis =>
      cases point with
      | expr id =>
          obtain ⟨child, among, rfl⟩ := List.mem_map.mp member
          exact closed.arena.has_child inductionHypothesis among
      | stmt id => exact closed.arena.has_point inductionHypothesis member

end Program

end PluginSurface
