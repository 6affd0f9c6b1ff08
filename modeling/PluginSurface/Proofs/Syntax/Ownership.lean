import PluginSurface.Proofs.Syntax.Closure

/-!
# Points with one owner

Each point of an arena is referred to at most once, by a node or by whoever has
taken it so far. A node that is added takes over the points that it refers to,
and is itself owned by whoever added it. Points may be dropped, but never
copied.
-/

namespace PluginSurface

/-- No point occurs in `points` more often than in `owned`. -/
def Within (points owned : List Point) : Prop :=
  ∀ point, points.count point ≤ owned.count point

namespace Within

variable {points owned : List Point}

theorem refl (points : List Point) : Within points points :=
  fun _ => Nat.le_refl _

theorem append {more moreOwned : List Point} (first : Within points owned)
    (second : Within more moreOwned) :
    Within (points ++ more) (owned ++ moreOwned) := by
  intro point
  have firstCount := first point
  have secondCount := second point
  rw [List.count_append, List.count_append]
  omega

theorem mem (within : Within points owned) {point : Point}
    (member : point ∈ points) : point ∈ owned := by
  have occurs := List.count_pos_iff.mpr member
  exact List.count_pos_iff.mp (Nat.lt_of_lt_of_le occurs (within point))

end Within

namespace Arena

/-- All that the nodes of an arena refer to. -/
def references (arena : Arena) : List Point :=
  arena.exprs.toList.flatMap
      (fun located => located.node.children.map Point.expr) ++
    arena.stmts.toList.flatMap fun located => located.node.points

variable {arena : Arena}

theorem count_references_addExpr (node : Expr) (span : Span) (point : Point) :
    (arena.addExpr node span).2.references.count point =
      arena.references.count point +
        (node.children.map Point.expr).count point := by
  unfold references addExpr
  simp only [Array.toList_push, List.flatMap_append, List.flatMap_cons,
    List.flatMap_nil, List.append_nil, List.count_append]
  omega

theorem count_references_addStmt (node : Stmt) (span : Span) (point : Point) :
    (arena.addStmt node span).2.references.count point =
      arena.references.count point + node.points.count point := by
  unfold references addStmt
  simp only [Array.toList_push, List.flatMap_append, List.flatMap_cons,
    List.flatMap_nil, List.append_nil, List.count_append]
  omega

theorem Closed.has_reference (closed : arena.Closed) {point : Point}
    (member : point ∈ arena.references) : arena.Has point := by
  rcases List.mem_append.mp member with inExpr | inStmt
  · obtain ⟨located, found, among⟩ := List.mem_flatMap.mp inExpr
    obtain ⟨child, isChild, rfl⟩ := List.mem_map.mp among
    obtain ⟨index, inside, rfl⟩ := List.getElem_of_mem found
    have stored : arena.exprs[index]? = some arena.exprs[index] :=
      Array.getElem?_eq_getElem inside
    exact Nat.lt_trans (closed.exprs stored child isChild) inside
  · obtain ⟨located, found, among⟩ := List.mem_flatMap.mp inStmt
    obtain ⟨index, inside, rfl⟩ := List.getElem_of_mem found
    have stored : arena.stmts[index]? = some arena.stmts[index] :=
      Array.getElem?_eq_getElem inside
    have before := closed.stmts stored point among
    cases point with
    | expr child => exact before
    | stmt child => exact Nat.lt_trans before inside

/-- An arena is closed, and outside of it there are references to stored points
only, one at most to each point that no node refers to. -/
structure Owns (arena : Arena) (owned : List Point) : Prop where
  closed : arena.Closed
  has : ∀ point ∈ owned, arena.Has point
  once : ∀ point, arena.references.count point + owned.count point ≤ 1

namespace Owns

variable {owned points kept : List Point}

theorem within (owns : arena.Owns owned) (within : Within points owned) :
    arena.Owns points where
  closed := owns.closed
  has point member := owns.has point (within.mem member)
  once point := Nat.le_trans
    (Nat.add_le_add_left (within point) _) (owns.once point)

theorem count_eq_zero (owns : arena.Owns owned) {point : Point}
    (missing : ¬ arena.Has point) :
    arena.references.count point = 0 ∧ owned.count point = 0 := by
  constructor
  · exact List.count_eq_zero.mpr fun member =>
      missing (owns.closed.has_reference member)
  · exact List.count_eq_zero.mpr fun member => missing (owns.has point member)

/-- Nothing refers to a new point but its owner, and what a new node takes over
it takes from others. -/
theorem once_of_new (owns : arena.Owns owned) {new : Point}
    (missing : ¬ arena.Has new) {taken : List Point}
    (takes : Within (taken ++ kept) owned) (point : Point) :
    arena.references.count point + taken.count point +
      (new :: kept).count point ≤ 1 := by
  have counted := takes point
  rw [List.count_append] at counted
  rw [List.count_cons]
  split
  · rename_i same
    rw [eq_of_beq same] at missing
    have unused := owns.count_eq_zero missing
    omega
  · have once := owns.once point
    omega

/-- A new expression takes over its children. -/
theorem addExpr (owns : arena.Owns owned) {node : Expr} (span : Span)
    (takes : Within (node.children.map Point.expr ++ kept) owned) :
    (arena.addExpr node span).2.Owns
      (.expr (arena.addExpr node span).1 :: kept) where
  closed := owns.closed.addExpr (fun child member => owns.has _ <|
    takes.mem <| List.mem_append_left _ <| List.mem_map.mpr
      ⟨child, member, rfl⟩) span
  has point member := by
    rcases List.mem_cons.mp member with rfl | isKept
    · exact arena.has_addExpr node span
    · have stored := owns.has point (takes.mem (List.mem_append_right _ isKept))
      exact (arena.extends_addExpr node span).has stored
  once point := by
    rw [count_references_addExpr]
    exact owns.once_of_new (Nat.lt_irrefl _) takes point

/-- A new statement takes over its parts. -/
theorem addStmt (owns : arena.Owns owned) {node : Stmt} (span : Span)
    (takes : Within (node.points ++ kept) owned) :
    (arena.addStmt node span).2.Owns
      (.stmt (arena.addStmt node span).1 :: kept) where
  closed := owns.closed.addStmt (fun point member =>
    owns.has _ (takes.mem (List.mem_append_left _ member))) span
  has point member := by
    rcases List.mem_cons.mp member with rfl | isKept
    · exact arena.has_addStmt node span
    · have stored := owns.has point (takes.mem (List.mem_append_right _ isKept))
      exact (arena.extends_addStmt node span).has stored
  once point := by
    rw [count_references_addStmt]
    exact owns.once_of_new (Nat.lt_irrefl _) takes point

end Owns

theorem owns_empty : empty.Owns [] where
  closed := closed_empty
  has := nofun
  once _ := Nat.zero_le 1

end Arena

/-! ## Programs -/

/-- The arena of a program is closed, the program refers to stored nodes only,
and no node of the program has two references to it, from the items or from
other nodes. -/
structure Program.WellFormed (program : Program) : Prop where
  closed : program.Closed
  once : (program.points ++ program.arena.references).Nodup

theorem Program.wellFormed_iff (program : Program) :
    program.WellFormed ↔ program.arena.Owns program.points := by
  constructor
  · rintro ⟨⟨closed, has⟩, once⟩
    refine ⟨closed, has, fun point => ?_⟩
    have count := List.nodup_iff_count.mp once point
    rw [List.count_append] at count
    omega
  · rintro ⟨closed, has, once⟩
    refine ⟨⟨closed, has⟩, List.nodup_iff_count.mpr fun point => ?_⟩
    rw [List.count_append, Nat.add_comm]
    exact once point

end PluginSurface
