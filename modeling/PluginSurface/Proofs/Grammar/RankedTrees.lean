import PluginSurface.Proofs.Grammar.Grammatical

/-!
# Trees of operator chains

Operands with operators between them can be put together in many ways. In a
ranked tree every operator binds no more tightly than those to its left and less
tightly than those to its right. Each chain of operators has exactly one ranked
tree.
-/

namespace PluginSurface

open Grammar

/-- What an operator joins is joined more tightly: on the left by operators that
bind at least as tightly, on the right by those that bind more tightly. -/
def ExprTree.Ranked : ExprTree → Prop
  | binary operator left right =>
      left.admits operator.precedence ∧
        right.admits (operator.precedence + 1) ∧ left.Ranked ∧ right.Ranked
  | _ => True

namespace Grammar

/-- What a token that is an operand by itself stands for. -/
def operandTree? : TokenKind → Option ExprTree
  | .identifier name => some (.identifier name)
  | .integer value spelling => some (.integer value spelling)
  | .float value spelling => some (.float value spelling)
  | .string content => some (.string content)
  | .keyword .trueWord => some (.bool true)
  | .keyword .falseWord => some (.bool false)
  | .keyword .nullWord => some .null
  | .keyword word =>
      if word.isContextual then some (.identifier word.text) else none
  | _ => none

/-- Operators, each with an operand behind it. -/
inductive Links : List Token → Prop where
  | nil : Links []
  | cons {operator operand : Token} {others : List Token}
      {symbol : BinaryOperator} {tree : ExprTree}
      (joins : binaryOperator? operator.kind = some symbol)
      (stands : operandTree? operand.kind = some tree) (more : Links others) :
      Links (operator :: operand :: others)

/-- The tokens of a tree from left to right. -/
inductive InOrder : ExprTree → List Token → Prop where
  | operand {token : Token} {tree : ExprTree}
      (stands : operandTree? token.kind = some tree) : InOrder tree [token]
  | binary {token : Token} {operator : BinaryOperator} {left right : ExprTree}
      {before behind : List Token}
      (joins : binaryOperator? token.kind = some operator)
      (first : InOrder left before) (second : InOrder right behind) :
      InOrder (.binary operator left right) (before ++ token :: behind)

theorem binaryOperator?_operand {kind : TokenKind} {tree : ExprTree}
    (stands : operandTree? kind = some tree) : binaryOperator? kind = none := by
  cases kind <;> first | rfl | cases stands

/-- A tree without an operator goes wherever an operand does. -/
theorem leaf_operand {kind : TokenKind} {tree : ExprTree}
    (stands : operandTree? kind = some tree) :
    (∀ least, tree.admits least) ∧ tree.Ranked := by
  unfold operandTree? at stands
  split at stands
  case h_8 =>
    split at stands <;> cases stands
    exact ⟨fun _ => trivial, trivial⟩
  all_goals
    cases stands
    try exact ⟨fun _ => trivial, trivial⟩

namespace InOrder

variable {tree : ExprTree} {tokens : List Token}

theorem ne_nil (inOrder : InOrder tree tokens) : tokens ≠ [] := by
  cases inOrder <;> simp

/-- No operator of a ranked tree binds less tightly than one that may follow
it. -/
theorem least_le (inOrder : InOrder tree tokens) (ranked : tree.Ranked)
    {least : Nat} (admits : tree.admits least) {token : Token}
    (member : token ∈ tokens) {operator : BinaryOperator}
    (joins : binaryOperator? token.kind = some operator) :
    least ≤ operator.precedence := by
  induction inOrder generalizing least with
  | operand stands =>
      rw [List.mem_singleton.mp member, binaryOperator?_operand stands] at joins
      cases joins
  | @binary middle root left right before behind found _ _ inLeft inRight =>
      obtain ⟨loose, tight, leftRanked, rightRanked⟩ := ranked
      have root : least ≤ root.precedence := admits
      rcases List.mem_append.mp member with inBefore | inRest
      · exact Nat.le_trans root (inLeft leftRanked loose inBefore)
      rcases List.mem_cons.mp inRest with rfl | inBehind
      · cases found.symm.trans joins
        exact root
      · have tighter := inRight rightRanked tight inBehind
        omega

/-- There are two operators, one in front of the other, each of which is the
loosest. -/
theorem absurd_roots {first second : BinaryOperator} {left right : ExprTree}
    {firstToken secondToken : Token} {before between behind : List Token}
    (firstJoins : binaryOperator? firstToken.kind = some first)
    (secondJoins : binaryOperator? secondToken.kind = some second)
    (leftOrder : InOrder left (before ++ firstToken :: between))
    (leftRanked : left.Ranked) (leftAdmits : left.admits second.precedence)
    (rightOrder : InOrder right (between ++ secondToken :: behind))
    (rightRanked : right.Ranked)
    (rightAdmits : right.admits (first.precedence + 1)) : False := by
  have loose := leftOrder.least_le leftRanked leftAdmits (by simp) firstJoins
  have tight := rightOrder.least_le rightRanked rightAdmits (by simp) secondJoins
  omega

/-- A ranked tree is known from its tokens. -/
theorem unique {other : ExprTree} (inOrder : InOrder tree tokens)
    (ranked : tree.Ranked) (otherOrder : InOrder other tokens)
    (otherRanked : other.Ranked) : tree = other := by
  induction inOrder generalizing other with
  | @operand token tree stands =>
      generalize same : [token] = tokens at otherOrder
      cases otherOrder with
      | operand alsoStands =>
          cases same
          exact Option.some.inj (stands.symm.trans alsoStands)
      | binary _ first _ =>
          obtain ⟨_, _, whole⟩ := List.exists_cons_of_ne_nil first.ne_nil
          simp [whole] at same
  | @binary token root left right before behind joins first second
      inLeft inRight =>
      generalize same : before ++ token :: behind = tokens at otherOrder
      obtain ⟨loose, tight, leftRanked, rightRanked⟩ := ranked
      cases otherOrder with
      | operand _ =>
          obtain ⟨_, _, whole⟩ := List.exists_cons_of_ne_nil first.ne_nil
          simp [whole] at same
      | @binary otherToken otherRoot _ _ otherBefore otherBehind otherJoins
          otherFirst otherSecond =>
          obtain ⟨otherLoose, otherTight, otherLeft, otherRight⟩ := otherRanked
          rcases List.append_eq_append_iff.mp same with
            ⟨_ | ⟨_, between⟩, rfl, ends⟩ | ⟨_ | ⟨_, between⟩, rfl, ends⟩
          · rw [List.append_nil] at otherFirst
            obtain ⟨rfl, rfl⟩ := List.cons.inj ends
            cases joins.symm.trans otherJoins
            rw [inLeft leftRanked otherFirst otherLeft,
              inRight rightRanked otherSecond otherRight]
          · obtain ⟨rfl, rfl⟩ := List.cons.inj ends
            exact (absurd_roots joins otherJoins otherFirst otherLeft otherLoose
              second rightRanked tight).elim
          · rw [List.append_nil] at first inLeft
            obtain ⟨rfl, rfl⟩ := List.cons.inj ends
            cases joins.symm.trans otherJoins
            rw [inLeft leftRanked otherFirst otherLeft,
              inRight rightRanked otherSecond otherRight]
          · obtain ⟨rfl, rfl⟩ := List.cons.inj ends
            exact (absurd_roots otherJoins joins first leftRanked loose
              otherSecond otherRight otherTight).elim

/-- One more operator and operand go to the right, as deep as they bind. -/
theorem attach (inOrder : InOrder tree tokens) (ranked : tree.Ranked)
    {operator operand : Token} {symbol : BinaryOperator} {leaf : ExprTree}
    (joins : binaryOperator? operator.kind = some symbol)
    (stands : operandTree? operand.kind = some leaf) :
    ∃ whole, InOrder whole (tokens ++ [operator, operand]) ∧ whole.Ranked ∧
      ∀ least ≤ symbol.precedence, tree.admits least → whole.admits least := by
  obtain ⟨leafAdmits, leafRanked⟩ := leaf_operand stands
  induction inOrder with
  | @operand token tree isLeaf =>
      exact ⟨_, .binary joins (.operand isLeaf) (.operand stands),
        ⟨(leaf_operand isLeaf).1 _, leafAdmits _, ranked, leafRanked⟩,
        fun least below _ => below⟩
  | @binary token root left right before behind found first second _ inRight =>
      obtain ⟨loose, tight, leftRanked, rightRanked⟩ := ranked
      rcases Nat.lt_or_ge root.precedence symbol.precedence with deeper | above
      · obtain ⟨inner, innerOrder, innerRanked, innerAdmits⟩ :=
          inRight rightRanked
        refine ⟨.binary root left inner, ?_,
          ⟨loose, innerAdmits _ deeper tight, leftRanked, innerRanked⟩,
          fun _ _ admits => admits⟩
        rw [List.append_assoc, List.cons_append]
        exact .binary found first innerOrder
      · exact ⟨_, .binary joins (.binary found first second) (.operand stands),
          ⟨above, leafAdmits _, ⟨loose, tight, leftRanked, rightRanked⟩,
            leafRanked⟩, fun least below _ => below⟩

end InOrder

/-- Every chain of operators has a ranked tree. -/
theorem Links.exists_ranked {links : List Token} (isLinks : Links links)
    {tree : ExprTree} {before : List Token} (inOrder : InOrder tree before)
    (ranked : tree.Ranked) :
    ∃ whole, InOrder whole (before ++ links) ∧ whole.Ranked := by
  induction isLinks generalizing tree before with
  | nil => exact ⟨tree, by rwa [List.append_nil], ranked⟩
  | @cons operator operand others _ _ joins stands _ inductionHypothesis =>
      obtain ⟨longer, longerOrder, longerRanked, _⟩ :=
        inOrder.attach ranked joins stands
      obtain ⟨whole, wholeOrder, wholeRanked⟩ :=
        inductionHypothesis longerOrder longerRanked
      exact ⟨whole, by simpa using wholeOrder, wholeRanked⟩

end Grammar

end PluginSurface
