import PluginSurface.Proofs.Eval.Agreement
import PluginSurface.Proofs.Eval.Reach

/-!
# Simulation

A program simulates another on some points if the points are the same nodes in
both, and if the calls at them reach functions that behave alike. Evaluating
such a point then comes to the same end in both programs. There is one lemma
for each function of the interpreter, over interpreters that already agree on
the parts; the induction on the bounds ties them together.
-/

namespace PluginSurface

open Environment Eval Interpreter

/-- What two programs find under one name behaves alike when it is called: it is
one function, or two functions that only the host can run. -/
inductive SameCall : Option FunctionDecl → Option FunctionDecl → Prop where
  | same (function : Option FunctionDecl) : SameCall function function
  | host {left right : FunctionDecl} (leftBody : left.body = none)
      (rightBody : right.body = none)
      (name : left.resolvedName = right.resolvedName)
      (count : left.params.length = right.params.length) :
      SameCall (some left) (some right)

/-- The points inside are the same nodes in both programs, call functions that
behave alike, and lead to points inside. -/
structure Simulates (source target : Program) (inside : Point → Prop) :
    Prop where
  expr : ∀ {id : ExprId}, inside (.expr id) →
    (target.arena.expr id).node = (source.arena.expr id).node
  stmt : ∀ {id : StmtId}, inside (.stmt id) →
    (target.arena.stmt id).node = (source.arena.stmt id).node
  class? : ∀ name, target.class? name = source.class? name
  callee : ∀ {point : Point} {name : String}, inside point →
    source.namedCallee? point = some name →
      SameCall (source.callee? name) (target.callee? name)
  successors : ∀ {point next : Point}, inside point →
    next ∈ source.successors point → inside next

theorem simulates_self (program : Program) :
    Simulates program program fun _ => True where
  expr _ := rfl
  stmt _ := rfl
  class? _ := rfl
  callee _ _ := .same _
  successors _ _ := trivial

/-- A point inside that avoids the hidden names and spares the fixed ones. -/
structure Safe (source : Program) (inside : Point → Prop)
    (hidden fixed : String → Prop) (point : Point) : Prop where
  inside : inside point
  avoids : source.Avoids hidden point
  spares : source.Spares fixed point

/-- Two interpreters agree on the points inside that come to no name which a
relation of scopes hides and assign to none that it fixes. -/
structure Alike (pace : Pace) (source : Program) (inside : Point → Prop)
    (left right : Interpreter) : Prop where
  expr : ∀ {related : ScopeRelation} {hidden fixed : String → Prop}
    {id : ExprId}, Hides related hidden fixed →
      Safe source inside hidden fixed (.expr id) →
        Agree pace related (left.expr id) (right.expr id)
  stmt : ∀ {hidden fixed : String → Prop} {id : StmtId},
    Safe source inside hidden fixed (.stmt id) →
      Agree pace (ScopesAlikeOff hidden) (left.stmt id) (right.stmt id)

/-! ## Parameters and fields -/

namespace Interpreter

/-- The value that a parameter takes. -/
def paramValue (run : Interpreter) (function : FunctionDecl) (param : Param)
    (argument : Option Value) : Eval Value :=
  match argument, param.initializer with
  | some value, _ => pure value
  | none, some initializer => run.expr initializer
  | none, none =>
      fail (.missingArgument function.resolvedName param.name.text)

theorem bindParams_cons (run : Interpreter) (function : FunctionDecl)
    (param : Param) (params : List Param) (arguments : List (Option Value)) :
    bindParams run function (param :: params) arguments = (do
      let value ← paramValue run function param arguments.head?.join
      define param.name.text value
      bindParams run function params arguments.tail) := by
  rw [bindParams]
  unfold paramValue
  rcases arguments.head?.join with _ | value
  · rcases param.initializer with _ | initializer <;> rfl
  · rfl

/-- The value that a field starts with. -/
def fieldValue (run : Interpreter) (field : FieldDecl) : Eval Value :=
  match field.initializer with
  | some initializer => run.expr initializer
  | none => pure (Value.zeroOf field.type)

theorem initialFields_cons (run : Interpreter) (fields : Dict Value)
    (field : FieldDecl) (rest : List FieldDecl) :
    initialFields run fields (field :: rest) = (do
      let value ← fieldValue run field
      initialFields run (fields.insert field.name.text value) rest) := by
  rw [initialFields]
  unfold fieldValue
  rcases field.initializer with _ | initializer <;> rfl

/-- A function without a body is not run. -/
theorem invoke_host (run : Interpreter) {function : FunctionDecl}
    (noBody : function.body = none) (receiver : Option Value)
    (arguments : List (Option Value)) :
    invoke run function receiver arguments =
      if function.params.length < arguments.length then
        fail (.arityMismatch function.resolvedName function.params.length
          arguments.length)
      else fail (.hostImport function.resolvedName) := by
  simp only [invoke, noBody]

end Interpreter

section

variable {pace : Pace} {source target : Program} {inside : Point → Prop}
  {left right : Interpreter} {related : ScopeRelation}
  {hidden fixed : String → Prop}

namespace Safe

theorem of_avoids {point : Point} (isInside : inside point)
    (avoids : source.Avoids hidden point) :
    Safe source inside hidden NoName point :=
  ⟨isInside, avoids, fun _ isFixed => isFixed.elim⟩

theorem of_inside {point : Point} (isInside : inside point) :
    Safe source inside NoName NoName point :=
  .of_avoids isInside (source.avoids_nothing point)

theorem visible {id : ExprId}
    (safe : Safe source inside hidden fixed (.expr id)) {name : String}
    (stands : source.arena.StandsUnder name id) :
    ¬ hidden name :=
  fun isHidden => safe.avoids name isHidden (.of_standsUnder stands)

end Safe

namespace Simulates

variable (simulates : Simulates source target inside)

include simulates

theorem child {id child : ExprId} (isInside : inside (.expr id))
    (member : child ∈ (source.arena.expr id).node.children) :
    inside (.expr child) :=
  simulates.successors isInside <|
    List.mem_append_left _ (List.mem_map_of_mem member)

theorem operand {id child : ExprId} (isInside : inside (.expr id))
    (member : child ∈ source.arena.operands id) : inside (.expr child) := by
  unfold Arena.operands at member
  split at member
  · rename_i callee types arguments node
    have calleeInside : inside (.expr callee) :=
      simulates.child isInside (by simp [node, Expr.children])
    have argumentInside (argument : ExprId) (among : argument ∈ arguments) :
        inside (.expr argument) :=
      simulates.child isInside (by simp [node, Expr.children, among])
    split at member
    · rename_i object property calleeNode
      rcases List.mem_cons.mp member with rfl | among
      · exact simulates.child calleeInside (by simp [calleeNode, Expr.children])
      · exact argumentInside child among
    · exact argumentInside child member
  · exact simulates.child isInside member

theorem safe_operand {id child : ExprId}
    (safe : Safe source inside hidden fixed (.expr id))
    (member : child ∈ source.arena.operands id) :
    Safe source inside hidden fixed (.expr child) :=
  ⟨simulates.operand safe.inside member,
    safe.avoids.evaluated (List.mem_map_of_mem member),
    safe.spares.evaluated (List.mem_map_of_mem member)⟩

theorem safe_point {id : StmtId} {point : Point}
    (safe : Safe source inside hidden fixed (.stmt id))
    (member : point ∈ (source.arena.stmt id).node.points) :
    Safe source inside hidden fixed point :=
  ⟨simulates.successors safe.inside (List.mem_append_left _ member),
    safe.avoids.evaluated member, safe.spares.evaluated member⟩

theorem safe_created {id : ExprId} {point : Point}
    (safe : Safe source inside hidden fixed (.expr id))
    (member : point ∈ source.created (.expr id)) :
    Safe source inside hidden fixed point :=
  ⟨simulates.successors safe.inside
      (List.mem_append_right _ (List.mem_append_left _ member)),
    safe.avoids.created member, safe.spares.created member⟩

theorem callee_entries {point entry : Point} (isInside : inside point)
    {decl : FunctionDecl} (called : decl ∈ source.callees point)
    (member : entry ∈ decl.entries) : inside entry :=
  simulates.successors isInside <|
    List.mem_append_right _ <| List.mem_append_right _ <|
      List.mem_flatMap.mpr ⟨decl, called, member⟩

end Simulates

/-- The root of a place is the variable that the expression stands under. -/
theorem placeAt_returns {run : Interpreter} :
    ∀ (bound : Nat) {id : ExprId},
      Returns (placeAt source run bound id) fun place =>
        source.arena.StandsUnder place.root id
  | 0, _ => by rintro machine _ _ ⟨⟩
  | bound + 1, id => by
      unfold placeAt
      split
      · rename_i name node
        exact .pure (.identifier node)
      · rename_i node
        exact .pure (.this node)
      · rename_i inner node
        exact fun _ _ _ ran => .paren node (placeAt_returns bound ran)
      · rename_i object property node
        exact .bind (placeAt_returns bound)
          fun place stands => .pure (.member node stands)
      · rename_i object index node
        exact .bind (placeAt_returns bound) fun place stands =>
          .bind (.anything _) fun _ _ => .pure (.index node stands)
      · exact .fail _

namespace Alike

variable (alike : Alike pace source inside left right)
  (hides : Hides related hidden fixed)

include alike

/-! ## Lists of parts -/

include hides in
theorem evalAll {ids : List ExprId}
    (safe : ∀ id ∈ ids, Safe source inside hidden fixed (.expr id)) :
    Agree pace related (evalAll left ids) (evalAll right ids) := by
  induction ids with
  | nil => exact .pure []
  | cons id rest inductionHypothesis =>
      have first := safe id List.mem_cons_self
      refine .bind (alike.expr hides first) fun value => ?_
      exact .bind (inductionHypothesis fun other member =>
        safe other (List.mem_cons_of_mem id member)) fun values => .pure _

include hides in
theorem evalEntries {entries : List (Name × ExprId)} (fields : Dict Value)
    (safe : ∀ entry ∈ entries,
      Safe source inside hidden fixed (.expr entry.2)) :
    Agree pace related (evalEntries left fields entries)
      (evalEntries right fields entries) := by
  induction entries generalizing fields with
  | nil => exact .pure fields
  | cons entry rest inductionHypothesis =>
      have first := safe entry List.mem_cons_self
      refine .bind (alike.expr hides first) fun value => ?_
      exact inductionHypothesis _ fun other member =>
        safe other (List.mem_cons_of_mem entry member)

theorem execAll {ids : List StmtId}
    (safe : ∀ id ∈ ids, Safe source inside hidden fixed (.stmt id)) :
    Agree pace (ScopesAlikeOff hidden) (execAll left ids)
      (execAll right ids) := by
  induction ids with
  | nil => exact .pure Flow.normal
  | cons id rest inductionHypothesis =>
      have first := safe id List.mem_cons_self
      refine .bind (alike.stmt first) fun flow => ?_
      cases flow with
      | normal =>
          exact inductionHypothesis fun other member =>
            safe other (List.mem_cons_of_mem id member)
      | «return» value => exact .pure _

/-! ## Calls -/

include hides in
theorem paramValue (function : FunctionDecl) {param : Param}
    (argument : Option Value)
    (safe : ∀ initializer, param.initializer = some initializer →
      Safe source inside hidden fixed (.expr initializer)) :
    Agree pace related (paramValue left function param argument)
      (paramValue right function param argument) := by
  unfold Interpreter.paramValue
  split
  · exact .pure _
  · rename_i initializer initial
    have point := safe initializer initial
    exact alike.expr hides point
  · exact .fail _

theorem bindParams (function : FunctionDecl) {params : List Param}
    (arguments : List (Option Value))
    (entries : ∀ point ∈ params.flatMap Param.points, inside point) :
    Agree pace ScopesAlike (bindParams left function params arguments)
      (bindParams right function params arguments) := by
  induction params generalizing arguments with
  | nil => exact .pure ()
  | cons param rest inductionHypothesis =>
      rw [bindParams_cons, bindParams_cons]
      refine .bind ?_ fun value => .bind (.define _ value) fun _ => ?_
      · refine alike.paramValue (hides_scopesAlikeOff NoName NoName) function
          _ ?_
        exact fun initializer initial => .of_inside <| entries _ <| by
          simp [Param.points, optionalPoints, initial]
      · refine inductionHypothesis arguments.tail fun point member => ?_
        exact entries point (by simp [member])

theorem runBody (function : FunctionDecl) (body : Block)
    (arguments : List (Option Value)) (hasBody : function.body = some body)
    (entries : ∀ point ∈ function.entries, inside point) :
    Agree pace ScopesAlike (runBody left function body arguments)
      (runBody right function body arguments) := by
  refine .bind (alike.bindParams function arguments fun point member =>
    entries point (List.mem_append_left _ member)) fun _ => ?_
  refine .bind (alike.execAll fun id member => .of_inside ?_) fun flow => ?_
  · refine entries _ (List.mem_append_right _ ?_)
    simp [hasBody, Block.points, member]
  · cases flow <;> exact .pure _

theorem invoke (function : FunctionDecl) (receiver : Option Value)
    (arguments : List (Option Value))
    (entries : ∀ point ∈ function.entries, inside point) :
    Agree pace related (invoke left function receiver arguments)
      (invoke right function receiver arguments) := by
  unfold Interpreter.invoke
  split
  · exact .fail _
  · split
    · exact .fail _
    · rename_i body hasBody
      refine .bind (.inspect fun machines => machines.depth) fun depth => ?_
      split
      · exact .fail _
      · refine .inCall ?_
        have ran := alike.runBody function body arguments hasBody entries
        cases receiver with
        | none => exact .bind ran fun value => .pure _
        | some receiver =>
            refine .bind (.define _ receiver) fun _ =>
              .bind ran fun value => .bind (.inspect fun machines => ?_)
                fun after => .pure _
            exact machines.find?_eq (hides_scopesAlikeOff NoName NoName) id

theorem invoke_sameCall {function counterpart : FunctionDecl}
    (same : SameCall (some function) (some counterpart))
    (receiver : Option Value) (arguments : List (Option Value))
    (entries : ∀ point ∈ function.entries, inside point) :
    Agree pace related (Interpreter.invoke left function receiver arguments)
      (Interpreter.invoke right counterpart receiver arguments) := by
  cases same with
  | same => exact alike.invoke function receiver arguments entries
  | host leftBody rightBody sameName sameCount =>
      rw [invoke_host left leftBody, invoke_host right rightBody, sameName,
        sameCount]
      split <;> exact .fail _

theorem callMethod (simulates : Simulates source target inside)
    (receiver : Value) (method : String) (arguments : List Value)
    (methods : ∀ decl ∈ Program.methodsNamed method source.classes,
      ∀ point ∈ decl.entries, inside point) :
    Agree pace related (callMethod source left receiver method arguments)
      (callMethod target right receiver method arguments) := by
  unfold Interpreter.callMethod
  split
  · rename_i className fields
    rw [simulates.class? className]
    dsimp only
    rcases owned : source.class? className with _ | owner
    · exact .fail _
    · dsimp only
      split
      · rename_i decl found
        refine alike.invoke decl _ _ (methods decl ?_)
        refine List.mem_filter.mpr ⟨?_, by simpa using List.find?_some found⟩
        exact List.mem_flatMap.mpr ⟨owner, List.mem_of_find?_eq_some owned,
          List.mem_of_find?_eq_some found⟩
      · exact .fail _
  · exact .ofExcept _
  · exact .fail _
  · exact .fail _

/-! ## Places -/

include hides in
theorem evalIndex {id : ExprId}
    (safe : Safe source inside hidden fixed (.expr id)) :
    Agree pace related (evalIndex left id) (evalIndex right id) := by
  refine .bind (alike.expr hides safe) fun value => ?_
  split
  · exact .pure _
  · exact .fail _

include hides in
theorem placeAt (simulates : Simulates source target inside) :
    ∀ (bound : Nat) {id : ExprId}, Safe source inside hidden fixed (.expr id) →
      Agree pace related (placeAt source left bound id)
        (placeAt target right bound id)
  | 0, _, _ => .outOfSteps
  | bound + 1, id, safe => by
      unfold Interpreter.placeAt
      rw [simulates.expr safe.inside]
      have operand {child : ExprId}
          (member : child ∈ source.arena.operands id) :=
        simulates.safe_operand safe member
      rcases node : (source.arena.expr id).node <;> dsimp only
      case identifier name => exact .pure _
      case this => exact .pure _
      case paren inner =>
        exact placeAt simulates bound
          (operand (by simp [Arena.operands, node, Expr.children]))
      case member object property =>
        exact .bind (placeAt simulates bound
          (operand (by simp [Arena.operands, node, Expr.children])))
          fun place => .pure _
      case index object position =>
        refine .bind (placeAt simulates bound
          (operand (by simp [Arena.operands, node, Expr.children])))
          fun place => ?_
        exact .bind (alike.evalIndex hides
          (operand (by simp [Arena.operands, node, Expr.children])))
          fun _ => .pure _
      all_goals exact .fail _

/-! ## Expressions -/

include hides in
theorem evalLiteral {literal : Literal}
    (safe : ∀ child ∈ (Expr.literal literal).children,
      Safe source inside hidden fixed (.expr child)) :
    Agree pace related (evalLiteral left literal)
      (evalLiteral right literal) := by
  cases literal with
  | array elements =>
      exact .bind (alike.evalAll hides safe) fun values => .pure _
  | object entries =>
      refine .bind (alike.evalEntries hides [] fun entry member => ?_)
        fun fields => .pure _
      exact safe entry.2 (List.mem_map_of_mem member)
  | _ => exact .pure _

include hides in
theorem evalMethodCall (simulates : Simulates source target inside)
    {object : ExprId} {method : String} {arguments : List ExprId}
    (safeObject : Safe source inside hidden fixed (.expr object))
    (free : ∀ name, source.arena.StandsUnder name object → ¬ fixed name)
    (safeArguments : ∀ id ∈ arguments,
      Safe source inside hidden fixed (.expr id))
    (methods : ∀ decl ∈ Program.methodsNamed method source.classes,
      ∀ point ∈ decl.entries, inside point) :
    Agree pace related
      (evalMethodCall source left object method arguments)
      (evalMethodCall target right object method arguments) := by
  refine .bind (alike.expr hides safeObject)
    fun receiver => .bind (alike.evalAll hides safeArguments) fun values =>
      .bind (alike.callMethod simulates receiver method values methods)
        fun result => ?_
  obtain ⟨value, after⟩ := result
  cases after with
  | none => exact .pure _
  | some after =>
      -- Both sides go on alike once they know the place.
      refine .bind_returning
        (.attempt (alike.placeAt hides simulates _ safeObject))
        (.attempt (placeAt_returns _)) ?metered ?metered
        fun found stands => ?_
      case metered =>
        intro found
        cases found with
        | none => exact .pure _
        | some place => exact (Metered.store place after).bind fun _ => .pure _
      cases found with
      | none => exact .pure _
      | some place =>
          have root := stands place rfl
          exact .bind (.store hides (safeObject.visible root) (free _ root)
            after) fun _ => .pure _

include hides in
theorem evalCall (simulates : Simulates source target inside) {id : ExprId}
    (safe : Safe source inside hidden fixed (.expr id)) {callee : ExprId}
    {types : List TypeExpr} {arguments : List ExprId}
    (node : (source.arena.expr id).node = .call callee types arguments) :
    Agree pace related (evalCall source left callee arguments)
      (evalCall target right callee arguments) := by
  have calleeInside : inside (.expr callee) :=
    simulates.child safe.inside (by simp [node, Expr.children])
  unfold Interpreter.evalCall
  rw [simulates.expr calleeInside]
  have operand {child : ExprId} (member : child ∈ source.arena.operands id) :=
    simulates.safe_operand safe member
  rcases calleeNode : (source.arena.expr callee).node <;> dsimp only
  case identifier name =>
    have safeArguments : ∀ argument ∈ arguments,
        Safe source inside hidden fixed (.expr argument) := by
      intro argument member
      exact operand (by simp [Arena.operands, node, calleeNode, member])
    split
    · exact .bind (.bind (alike.evalAll hides safeArguments) fun _ => .pure _)
        fun _ => .pure _
    · rename_i named
      have called : source.namedCallee? (.expr id) = some name := by
        simp [Program.namedCallee?, node, calleeNode, named]
      have reached : source.callees (.expr id) =
          (source.callee? name).toList := by
        simp [Program.callees, node, calleeNode, named]
      have same := simulates.callee safe.inside called
      have values := alike.evalAll hides safeArguments
      unfold Interpreter.lookUp
      generalize source.callee? name = found,
        target.callee? name = counterpart at same reached
      cases found with
      | none =>
          cases same
          exact .fail _
      | some function =>
          cases counterpart with
          | none => cases same
          | some counterpart =>
              dsimp only
              rw [Eval.pure_bind, Eval.pure_bind]
              refine .bind values fun values =>
                .bind (alike.invoke_sameCall same none _ fun point member => ?_)
                  fun _ => .pure _
              exact simulates.callee_entries safe.inside
                (by simp [reached]) member
  case member object property =>
    refine alike.evalMethodCall hides simulates
      (operand (by simp [Arena.operands, node, calleeNode]))
      (fun name stands isFixed =>
        safe.spares name isFixed (.receiver node calleeNode stands))
      (fun argument member =>
        operand (by simp [Arena.operands, node, calleeNode, member])) ?_
    intro decl among point member
    exact simulates.callee_entries safe.inside
      (by simpa [Program.callees, node, calleeNode] using among) member
  all_goals exact .fail _

/-! ## New instances -/

include hides in
theorem initialFields {decls : List FieldDecl} (fields : Dict Value)
    (safe : ∀ point ∈ decls.flatMap FieldDecl.points,
      Safe source inside hidden fixed point) :
    Agree pace related (initialFields left fields decls)
      (initialFields right fields decls) := by
  induction decls generalizing fields with
  | nil => exact .pure fields
  | cons decl rest inductionHypothesis =>
      rw [initialFields_cons, initialFields_cons]
      refine .bind ?_ fun value => inductionHypothesis _ fun point member =>
        safe point (by simp [member])
      unfold fieldValue
      split
      · rename_i initializer initial
        have point := safe (.expr initializer)
          (by simp [FieldDecl.points, optionalPoints, initial])
        exact alike.expr hides point
      · exact .pure _

include hides in
theorem evalNew (simulates : Simulates source target inside) {id : ExprId}
    (safe : Safe source inside hidden fixed (.expr id)) {type : TypeExpr}
    {arguments : List ExprId}
    (node : (source.arena.expr id).node = .new type arguments) :
    Agree pace related (evalNew source left type arguments)
      (evalNew target right type arguments) := by
  have safeArguments : ∀ argument ∈ arguments,
      Safe source inside hidden fixed (.expr argument) := fun argument member =>
    simulates.safe_operand safe
      (by simpa [Arena.operands, node, Expr.children] using member)
  unfold Interpreter.evalNew
  dsimp only
  rw [simulates.class? _]
  rcases found : source.class? (type.baseName?.getD "") with _ | decl
  · exact .fail _
  · have fields : ∀ point ∈ decl.fields.flatMap FieldDecl.points,
        Safe source inside hidden fixed point := fun point member =>
      simulates.safe_created safe
        (by simpa [Program.created, node, found] using member)
    refine .bind (alike.initialFields hides [] fields) fun values =>
      .bind (alike.evalAll hides safeArguments) fun values => ?_
    split
    · rename_i constructor_ chosen
      refine .bind (alike.invoke constructor_ _ _ fun point member => ?_)
        fun _ => .pure _
      refine simulates.callee_entries safe.inside ?_ member
      have among := List.mem_of_find?_eq_some chosen
      have named := List.find?_some chosen
      simpa [Program.callees, node, found, Program.methodsNamed] using
        ⟨among, by simpa using named⟩
    · split
      · exact .pure _
      · exact .fail _

/-! ## Operators and assignments -/

include hides in
theorem evalBinary {operator : BinaryOperator} {first second : ExprId}
    (safeFirst : Safe source inside hidden fixed (.expr first))
    (safeSecond : Safe source inside hidden fixed (.expr second)) :
    Agree pace related (evalBinary left operator first second)
      (evalBinary right operator first second) := by
  have firstAgrees := alike.expr hides safeFirst
  have secondAgrees := alike.expr hides safeSecond
  refine .bind firstAgrees fun value => ?_
  split
  · split
    · exact secondAgrees
    · exact .pure _
  · split
    · exact .pure _
    · exact secondAgrees
  · exact .bind secondAgrees fun other => .ofExcept _

include hides in
theorem evalAssign (simulates : Simulates source target inside)
    {operator : Option BinaryOperator} {assigned value : ExprId}
    (safeTarget : Safe source inside hidden fixed (.expr assigned))
    (free : ∀ name, source.arena.StandsUnder name assigned → ¬ fixed name)
    (safeValue : Safe source inside hidden fixed (.expr value)) :
    Agree pace related (evalAssign source left operator assigned value)
      (evalAssign target right operator assigned value) := by
  have valueAgrees := alike.expr hides safeValue
  cases operator with
  | none =>
      have stored {computed : Eval Value} (metered : Metered computed)
          (place : Place) := metered.bind fun result =>
        (Metered.store place result).bind fun _ => .pure result
      refine .bind_returning (alike.placeAt hides simulates _ safeTarget)
        (placeAt_returns _)
        (stored valueAgrees.leftMetered)
        (stored valueAgrees.rightMetered) fun place root => ?_
      have visible := safeTarget.visible root
      exact .bind valueAgrees fun result =>
        .bind (.store hides visible (free _ root) result) fun _ => .pure _
  | some operator =>
      have stored {computed : Eval Value} (metered : Metered computed)
          (place : Place) := (Metered.load place).bind fun current =>
        metered.bind fun operand =>
          (Metered.ofExcept (Value.binary operator current operand)).bind
            fun result =>
              (Metered.store place result).bind fun _ => .pure result
      refine .bind_returning (alike.placeAt hides simulates _ safeTarget)
        (placeAt_returns _)
        (stored valueAgrees.leftMetered)
        (stored valueAgrees.rightMetered) fun place root => ?_
      have visible := safeTarget.visible root
      exact .bind (.load hides visible) fun current =>
        .bind valueAgrees fun operand => .bind (.ofExcept _) fun result =>
          .bind (.store hides visible (free _ root) result) fun _ => .pure _

/-! ## One step -/

include hides in
theorem exprStep (simulates : Simulates source target inside) {id : ExprId}
    (safe : Safe source inside hidden fixed (.expr id)) :
    Agree pace related (exprStep source left id)
      (exprStep target right id) := by
  refine .bind .tick fun _ => ?_
  rw [simulates.expr safe.inside]
  have operand {child : ExprId} (member : child ∈ source.arena.operands id) :=
    simulates.safe_operand safe member
  have value {child : ExprId} (member : child ∈ source.arena.operands id) :
      Agree pace related (left.expr child) (right.expr child) :=
    alike.expr hides (operand member)
  rcases node : (source.arena.expr id).node <;> dsimp only
  case literal literal =>
    exact alike.evalLiteral hides fun child member =>
      operand (by simpa [Arena.operands, node] using member)
  case identifier name =>
    exact .variableValue hides
      (safe.avoids.named (by simp [Arena.names, node]))
  case this =>
    exact .variableValue hides
      (safe.avoids.named (by simp [Arena.names, node]))
  case new type arguments => exact alike.evalNew hides simulates safe node
  case call callee types arguments =>
    exact alike.evalCall hides simulates safe node
  case member object property =>
    exact .bind (value (by simp [Arena.operands, node, Expr.children]))
      fun _ => .ofExcept _
  case index object position =>
    exact .bind (value (by simp [Arena.operands, node, Expr.children]))
      fun _ => .bind (alike.evalIndex hides
        (operand (by simp [Arena.operands, node, Expr.children])))
        fun _ => .ofExcept _
  case binary operator first second =>
    exact alike.evalBinary hides
      (operand (by simp [Arena.operands, node, Expr.children]))
      (operand (by simp [Arena.operands, node, Expr.children]))
  case unary operator operand =>
    exact .bind (value (by simp [Arena.operands, node, Expr.children]))
      fun _ => .ofExcept _
  case assign operator assigned result =>
    exact alike.evalAssign hides simulates
      (operand (by simp [Arena.operands, node, Expr.children]))
      (fun name stands isFixed =>
        safe.spares name isFixed (.target node stands))
      (operand (by simp [Arena.operands, node, Expr.children]))
  case conditional condition whenTrue whenFalse =>
    refine .bind (value (by simp [Arena.operands, node, Expr.children]))
      fun _ => ?_
    split
    · exact value (by simp [Arena.operands, node, Expr.children])
    · exact value (by simp [Arena.operands, node, Expr.children])
  case cast operand type =>
    exact .bind (value (by simp [Arena.operands, node, Expr.children]))
      fun _ => .pure _
  case paren inner =>
    exact value (by simp [Arena.operands, node, Expr.children])

include hides in
theorem evalOptional {id : Option ExprId}
    (safe : ∀ point ∈ optionalPoints id,
      Safe source inside hidden fixed point) :
    Agree pace related (evalOptional left id) (evalOptional right id) := by
  cases id with
  | none => exact .pure _
  | some id =>
      have point := safe (.expr id) (by simp [optionalPoints])
      exact alike.expr hides point

theorem stmtStep (simulates : Simulates source target inside) {id : StmtId}
    (safe : Safe source inside hidden fixed (.stmt id)) :
    Agree pace (ScopesAlikeOff hidden) (stmtStep source left id)
      (stmtStep target right id) := by
  refine .bind .tick fun _ => ?_
  rw [simulates.stmt safe.inside]
  have hides := hides_scopesAlikeOff hidden fixed
  have point {point : Point}
      (member : point ∈ (source.arena.stmt id).node.points) :=
    simulates.safe_point safe member
  have value {child : ExprId}
      (member : .expr child ∈ (source.arena.stmt id).node.points) :
      Agree pace (ScopesAlikeOff hidden) (left.expr child)
        (right.expr child) :=
    alike.expr hides (point member)
  have statement {child : StmtId}
      (member : .stmt child ∈ (source.arena.stmt id).node.points) :
      Agree pace (ScopesAlikeOff hidden) (left.stmt child)
        (right.stmt child) :=
    alike.stmt (point member)
  rcases node : (source.arena.stmt id).node <;> dsimp only
  case block block =>
    exact .inScope (alike.execAll fun child member => point
      (by simp [node, Stmt.points, Block.points, member]))
  case expression child =>
    exact .bind (.bind (value (by simp [node, Stmt.points])) fun _ => .pure _)
      fun _ => .pure _
  case binding kind name type initial =>
    exact .bind (alike.evalOptional hides fun child member => point
      (by simpa [node, Stmt.points] using member)) fun _ =>
        .bind (.define _ _) fun _ => .pure _
  case branch condition whenTrue whenFalse =>
    refine .bind (value (by simp [node, Stmt.points])) fun _ => ?_
    split
    · exact statement (by simp [node, Stmt.points])
    · cases whenFalse with
      | none => exact .pure _
      | some whenFalse => exact statement (by simp [node, Stmt.points])
  case loop condition body =>
    exact .loop (value (by simp [node, Stmt.points]))
      (statement (by simp [node, Stmt.points]))
  case «return» result =>
    exact .bind (alike.evalOptional hides fun child member => point
      (by simpa [node, Stmt.points] using member)) fun _ => .pure _
  case throw thrown =>
    exact .bind (value (by simp [node, Stmt.points])) fun _ => .fail _
  case empty => exact .pure _

end Alike

/-! ## Whole evaluations -/

theorem alike_outOfSteps :
    Alike pace source inside ⟨fun _ => outOfSteps, fun _ => outOfSteps⟩
      ⟨fun _ => outOfSteps, fun _ => outOfSteps⟩ :=
  ⟨fun _ _ => .outOfSteps, fun _ => .outOfSteps⟩

/-- One more step on each side. -/
theorem alike_step (alike : Alike pace source inside left right)
    (simulates : Simulates source target inside) :
    Alike pace source inside ⟨exprStep source left, stmtStep source left⟩
      ⟨exprStep target right, stmtStep target right⟩ :=
  ⟨fun hides safe => alike.exprStep hides simulates safe,
    fun safe => alike.stmtStep simulates safe⟩

theorem interpreter_succ (program : Program) (bound : Nat) :
    interpreter program (bound + 1) =
      ⟨exprStep program (interpreter program bound),
        stmtStep program (interpreter program bound)⟩ := by
  simp only [interpreter, evalExpr, execStmt]

theorem evalExpr_succ (program : Program) (bound : Nat) (id : ExprId) :
    evalExpr program (bound + 1) id =
      exprStep program (interpreter program bound) id :=
  congrArg (fun run => run.expr id) (interpreter_succ program bound)

theorem execStmt_succ (program : Program) (bound : Nat) (id : StmtId) :
    execStmt program (bound + 1) id =
      stmtStep program (interpreter program bound) id :=
  congrArg (fun run => run.stmt id) (interpreter_succ program bound)

/-- Evaluations with one bound. -/
theorem alike_lockstep (simulates : Simulates source target inside)
    (bound : Nat) :
    Alike .lockstep source inside (interpreter source bound)
      (interpreter target bound) := by
  induction bound with
  | zero => exact alike_outOfSteps
  | succ bound inductionHypothesis =>
      rw [interpreter_succ, interpreter_succ]
      exact alike_step inductionHypothesis simulates

end

/-! ## Every evaluation is metered -/

theorem metered_evalExpr (program : Program) (bound : Nat) (id : ExprId) :
    Metered (evalExpr program bound id) :=
  ((alike_lockstep (simulates_self program) bound).expr
    (hides_eq NoName NoName) (.of_inside trivial)).leftMetered

theorem metered_execStmt (program : Program) (bound : Nat) (id : StmtId) :
    Metered (execStmt program bound id) :=
  ((alike_lockstep (simulates_self program) bound).stmt
    (.of_inside trivial)).leftMetered

/-! ## Evaluations that keep a pace -/

/-- Evaluating a point inside comes to the same end in a program and in one that
simulates it. -/
theorem alike_interpreter {pace : Pace} {source target : Program}
    {inside : Point → Prop} (simulates : Simulates source target inside)
    {leftBound rightBound : Nat} (bounds : pace.Bounds leftBound rightBound) :
    Alike pace source inside (interpreter source leftBound)
      (interpreter target rightBound) := by
  cases pace with
  | lockstep =>
      cases bounds
      exact alike_lockstep simulates leftBound
  | free =>
      induction leftBound generalizing rightBound with
      | zero =>
          exact ⟨fun _ _ => .stopped_left (metered_evalExpr _ _ _),
            fun _ => .stopped_left (metered_execStmt _ _ _)⟩
      | succ leftBound inductionHypothesis =>
          cases rightBound with
          | zero =>
              exact ⟨fun _ _ => .stopped_right (metered_evalExpr _ _ _),
                fun _ => .stopped_right (metered_execStmt _ _ _)⟩
          | succ rightBound =>
              rw [interpreter_succ, interpreter_succ]
              exact alike_step (inductionHypothesis trivial) simulates

end PluginSurface
