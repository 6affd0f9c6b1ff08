import PluginSurface.Proofs.Grammar.Grammatical

/-!
# How expressions are put together

What a parser knows of the parts of an expression when it has read them gives
the same of the whole. The tokens that an expression is printed with need not be
the ones it was read from, but they lead no reader into type arguments where the
others did not.
-/

namespace PluginSurface

open Grammar

/-! ## Angles -/

namespace Grammar

theorem closes_cons (depth : Int) (kind : TokenKind) (rest : List TokenKind) :
    closes depth (kind :: rest) = true ↔
      ∃ change, angleChange? kind = some change ∧
        (depth + change = 0 ∧ rest.head? = some (.symbol .openParen) ∨
          0 < depth + change ∧ closes (depth + change) rest = true) := by
  rw [closes]
  cases angleChange? kind with
  | none => simp
  | some change =>
      simp only [Option.some.injEq, exists_eq_left']
      by_cases negative : depth + change < 0
      · have notZero : depth + change ≠ 0 := by omega
        have notPositive : ¬ 0 < depth + change := by omega
        simp [negative, notZero, notPositive]
      · by_cases zero : depth + change = 0
        · rw [if_neg negative, if_pos zero]
          simp only [zero, Int.lt_irrefl, false_and, or_false, true_and]
          cases rest with
          | nil => simp
          | cons next rest => simp [isSymbol_iff]
        · have positive : 0 < depth + change := by omega
          simp [negative, zero, positive]

namespace Inert

theorem wall {kind : TokenKind} (isWall : kind.isWall = true)
    (rest : List TokenKind) : Inert (kind :: rest) := by
  simp only [TokenKind.isWall, Bool.and_eq_true, Option.isNone_iff_eq_none,
    Bool.not_eq_true'] at isWall
  refine ⟨fun head => ?_, fun depth positive => ?_⟩
  · cases head
    cases isWall.2
  · simp [closes, isWall.1]

theorem milder {printed : List TokenKind} (inert : Inert printed)
    (original : List TokenKind) : Milder printed original where
  paren head := absurd head inert.paren
  angles depth positive closed := by
    rw [inert.angles depth positive] at closed
    cases closed

end Inert

namespace Milder

variable {printed original : List TokenKind}

theorem cons (milder : Milder printed original) (kind : TokenKind) :
    Milder (kind :: printed) (kind :: original) where
  paren head := head
  angles depth positive closed := by
    rw [closes_cons] at closed ⊢
    obtain ⟨change, known, ⟨zero, head⟩ | ⟨open_, inner⟩⟩ := closed
    · exact ⟨change, known, .inl ⟨zero, milder.paren head⟩⟩
    · exact ⟨change, known, .inr ⟨open_, milder.angles _ open_ inner⟩⟩

theorem openParen (printed original : List TokenKind) :
    Milder (.symbol .openParen :: printed)
      (.symbol .openParen :: original) where
  paren _ := rfl
  angles depth positive closed := by
    simp [closes, angleChange?] at closed

/-- A comma that is not printed. -/
theorem comma (milder : Milder printed original)
    (other : printed.head? ≠ some (.symbol .openParen)) :
    Milder printed (.comma :: original) where
  paren head := absurd head other
  angles depth positive closed := by
    rw [closes_cons]
    refine ⟨0, rfl, .inr ?_⟩
    rw [Int.add_zero]
    exact ⟨positive, milder.angles depth positive closed⟩

end Milder

theorem closes_angles (closing : Nat) {depth : Int} (positive : 0 < depth)
    (rest : List TokenKind) :
    closes depth (TypeShape.angles closing ++ rest) =
      if depth < closing then false
      else if depth = closing then
        rest.head?.any fun next => next.isSymbol .openParen
      else closes (depth - closing) rest := by
  induction closing using TypeShape.angles.induct generalizing depth with
  | case1 =>
      have notZero : ¬ depth = 0 := by omega
      have notNegative : ¬ depth < 0 := by omega
      simp [TypeShape.angles, notZero, notNegative]
  | case2 =>
      have shifted : depth + -1 < 0 ↔ depth < 1 := by omega
      have same : depth + -1 = 0 ↔ depth = 1 := by omega
      simp [TypeShape.angles, closes, angleChange?, shifted, same,
        Int.sub_eq_add_neg]
  | case3 =>
      have shifted : depth + -2 < 0 ↔ depth < 2 := by omega
      have same : depth + -2 = 0 ↔ depth = 2 := by omega
      simp [TypeShape.angles, closes, angleChange?, shifted, same,
        Int.sub_eq_add_neg]
  | case4 closing inductionHypothesis =>
      simp only [TypeShape.angles, closes, angleChange?, List.cons_append]
      rcases Int.lt_trichotomy (depth + -3) 0 with below | zero | above
      · have fewer : depth < ((closing + 3 : Nat) : Int) := by omega
        rw [if_pos below, if_pos fewer]
      · have notBelow : ¬ depth + -3 < 0 := by omega
        rw [if_neg notBelow, if_pos zero]
        rcases Nat.eq_zero_or_pos closing with rfl | more
        · have same : depth = ((0 + 3 : Nat) : Int) := by omega
          simp [TypeShape.angles, same]
        · have fewer : depth < ((closing + 3 : Nat) : Int) := by omega
          rw [if_pos fewer]
          cases closing using TypeShape.angles.induct <;>
            simp_all [TypeShape.angles, TokenKind.isSymbol]
      · have notBelow : ¬ depth + -3 < 0 := by omega
        have notZero : ¬ depth + -3 = 0 := by omega
        have fewer : depth + -3 < closing ↔
            depth < ((closing + 3 : Nat) : Int) := by omega
        have same : depth + -3 = closing ↔
            depth = ((closing + 3 : Nat) : Int) := by omega
        have left : depth + -3 - closing =
            depth - ((closing + 3 : Nat) : Int) := by omega
        rw [if_neg notBelow, if_neg notZero, inductionHypothesis above, left]
        simp only [fewer, same]

theorem closes_angles_succ (closing : Nat) {depth : Int} (positive : 0 < depth)
    (rest : List TokenKind) :
    closes (depth + 1) (TypeShape.angles (closing + 1) ++ rest) =
      closes depth (TypeShape.angles closing ++ rest) := by
  have fewer : depth + 1 < ((closing + 1 : Nat) : Int) ↔ depth < closing := by
    omega
  have same : depth + 1 = ((closing + 1 : Nat) : Int) ↔ depth = closing := by
    omega
  have left : depth + 1 - ((closing + 1 : Nat) : Int) = depth - closing := by
    omega
  rw [closes_angles _ (by omega), closes_angles _ positive, left]
  simp only [fewer, same]

/-- A token that may stand between angles without being one. -/
theorem closes_neutral {kind : TokenKind} (neutral : angleChange? kind = some 0)
    {depth : Int} (positive : 0 < depth) (rest : List TokenKind) :
    closes depth (kind :: rest) = closes depth rest := by
  have notNegative : ¬ depth < 0 := by omega
  have notZero : ¬ depth = 0 := by omega
  simp [closes, neutral, notNegative, notZero]

/-- A name with a colon behind it leads no reader into type arguments. -/
theorem Inert.entry (name : String) (rest : List TokenKind) :
    Inert (.comma :: .ofWord name :: .symbol .colon :: rest) := by
  have colon : Inert (.symbol .colon :: rest) := .wall rfl rest
  refine ⟨by simp [TokenKind.comma], fun depth positive => ?_⟩
  rw [TokenKind.comma, closes_neutral rfl positive]
  by_cases neutral : (angleChange? (.ofWord name)).isSome = true
  · rw [closes_neutral (angleChange?_ofWord neutral) positive]
    exact colon.angles depth positive
  · have wall : angleChange? (.ofWord name) = none := by
      simpa using neutral
    simp [closes, wall]

theorem closes_open {depth : Int} (positive : 0 < depth)
    (rest : List TokenKind) :
    closes depth (.symbol .less :: rest) = closes (depth + 1) rest := by
  have notNegative : ¬ depth + 1 < 0 := by omega
  have notZero : ¬ depth + 1 = 0 := by omega
  simp [closes, angleChange?, notNegative, notZero]

theorem closes_dotted {segments : List String}
    (neutral : ∀ segment ∈ segments,
      (angleChange? (.ofWord segment)).isSome = true)
    {depth : Int} (positive : 0 < depth) (rest : List TokenKind) :
    closes depth (TypeShape.dotted segments ++ rest) = closes depth rest := by
  induction segments using TypeShape.dotted.induct with
  | case1 => rfl
  | case2 segment =>
      have same := angleChange?_ofWord (neutral segment (by simp))
      exact closes_neutral same positive rest
  | case3 segment next others inductionHypothesis =>
      have same := angleChange?_ofWord (neutral segment (by simp))
      have others := inductionHypothesis fun other member =>
        neutral other (List.mem_cons_of_mem _ member)
      simp only [TypeShape.dotted, List.cons_append]
      rw [closes_neutral same positive, closes_neutral rfl positive, others]

end Grammar

namespace TypeShape

mutual

/-- Between angles a type counts for the angles that close behind it. -/
theorem closes_kindsBefore (type : TypeShape) (bare : type.isBare = true)
    (closing : Nat) {depth : Int} (positive : 0 < depth)
    (rest : List TokenKind) :
    closes depth (type.kindsBefore closing ++ rest) =
      closes depth (angles closing ++ rest) := by
  cases type with
  | named segments arguments =>
      simp only [isBare, Bool.and_eq_true, List.all_eq_true] at bare
      cases arguments with
      | nil =>
          rw [kindsBefore, List.append_assoc, closes_dotted bare.1 positive]
      | cons first others =>
          rw [kindsBefore, List.append_assoc, closes_dotted bare.1 positive,
            List.cons_append, closes_open positive,
            closes_argumentKinds (first :: others) bare.2 closing (by omega)
              rest,
            closes_angles_succ closing positive]
          simp
  | array element =>
      simp only [isBare, Bool.and_eq_true, Bool.not_eq_true'] at bare
      simp only [kindsBefore, bare.1, Bool.false_eq_true, if_false,
        List.append_assoc]
      rw [closes_kindsBefore element bare.2 0 positive, angles,
        List.nil_append, List.cons_append, List.cons_append,
        closes_neutral rfl positive, closes_neutral rfl positive]
  | nullable inner =>
      simp only [isBare] at bare
      simp only [kindsBefore, List.append_assoc]
      rw [closes_kindsBefore inner bare 0 positive, angles,
        List.nil_append, List.cons_append, List.cons_append,
        closes_neutral rfl positive, closes_neutral rfl positive]

theorem closes_argumentKinds (types : List TypeShape)
    (bare : areBare types = true) (closing : Nat) {depth : Int}
    (positive : 0 < depth) (rest : List TokenKind) :
    closes depth (argumentKinds types closing ++ rest) =
      closes depth (angles (closing + 1) ++ rest) := by
  cases types with
  | nil => rfl
  | cons type others =>
      simp only [areBare, Bool.and_eq_true] at bare
      cases others with
      | nil =>
          exact closes_kindsBefore type bare.1 (closing + 1) positive rest
      | cons next others =>
          rw [argumentKinds, List.append_assoc,
            closes_kindsBefore type bare.1 0 positive, angles,
            List.nil_append, List.cons_append, TokenKind.comma,
            closes_neutral rfl positive,
            closes_argumentKinds (next :: others) bare.2 closing positive]
          simp

end

end TypeShape

/-- The type arguments of a call close before its parenthesis. -/
theorem Grammar.Inert.angled {types : List TypeShape} (some_type : types ≠ [])
    (bare : TypeShape.areBare types = true) (rest : List TokenKind) :
    Inert (TypeShape.angled types ++ .symbol .openParen :: rest) := by
  cases types with
  | nil => exact absurd rfl some_type
  | cons first others =>
      constructor
      · simp [TypeShape.angled]
      · intro depth positive
        rw [TypeShape.angled, List.cons_append, closes_open positive,
          TypeShape.closes_argumentKinds _ bare 0 (by omega),
          closes_angles_succ 0 positive]
        · simp [TypeShape.angles, closes, angleChange?]
        · simp

/-! ## Expressions -/

namespace ExprTree

/-- What is known of an expression that a parser read at a depth, from the
tokens before it and after it. -/
structure ReadFrom (tree : ExprTree) (depth : Nat)
    (before after : List TokenKind) : Prop where
  grammatical : tree.Grammatical
  shallow : tree.nesting + depth ≤ nestingLimit
  first : tree.kinds.head? = before.head?
  mild : ∀ rest, Milder rest after →
    tree.Unmistaken rest ∧ Milder (tree.kinds ++ rest) before

/-- What is known of expressions between commas that a parser read. -/
structure AllReadFrom (trees : List ExprTree) (depth : Nat)
    (before after : List TokenKind) : Prop where
  grammatical : AllGrammatical trees
  shallow : nestingOfAll trees + depth ≤ nestingLimit
  mild : ∀ rest, Milder rest after →
    rest.head? ≠ some (.symbol .openParen) →
      AllUnmistaken trees rest ∧
        Milder (joinedKinds (kindsOfAll trees) ++ rest) before

section

variable {tree : ExprTree} {depth : Nat} {before after middle : List TokenKind}

theorem ReadFrom.enclosed (read : tree.ReadFrom (depth + 1) before after) :
    tree.Enclosed depth where
  grammatical := read.grammatical
  shallow := by
    have shallow := read.shallow
    omega
  unmistaken rest inert := (read.mild rest (inert.milder after)).1

/-! ### Lists -/

theorem AllReadFrom.nil (shallow : depth ≤ nestingLimit) :
    AllReadFrom [] depth before before where
  grammatical := trivial
  shallow := by simpa [nestingOfAll] using shallow
  mild _ milder _ := ⟨trivial, milder⟩

theorem AllReadFrom.singleton
    (read : tree.ReadFrom (depth + 1) before after) :
    AllReadFrom [tree] depth before after where
  grammatical := ⟨read.grammatical, trivial⟩
  shallow := by
    have shallow := read.shallow
    simp only [nestingOfAll]
    omega
  mild rest milder _ := by
    obtain ⟨unmistaken, mild⟩ := read.mild rest milder
    exact ⟨⟨unmistaken, trivial⟩, mild⟩

theorem AllReadFrom.cons {trees : List ExprTree}
    (read : tree.ReadFrom (depth + 1) before (.comma :: middle))
    (others : AllReadFrom trees depth middle after) :
    AllReadFrom (tree :: trees) depth before after where
  grammatical := ⟨read.grammatical, others.grammatical⟩
  shallow := by
    have first := read.shallow
    have later := others.shallow
    simp only [nestingOfAll]
    omega
  mild rest milder other := by
    obtain ⟨allUnmistaken, mild⟩ := others.mild rest milder other
    have between : Milder (followed (kindsOfAll trees) rest)
        (.comma :: middle) := by
      cases trees with
      | nil => exact mild.comma other
      | cons next trees => exact mild.cons .comma
    obtain ⟨unmistaken, mild⟩ := read.mild _ between
    refine ⟨⟨unmistaken, allUnmistaken⟩, ?_⟩
    rw [kindsOfAll, joinedKinds_cons_append]
    exact mild

theorem AllReadFrom.allEnclosed {trees : List ExprTree}
    (read : AllReadFrom trees depth before after) :
    AllEnclosed depth trees where
  grammatical := read.grammatical
  shallow := read.shallow
  unmistaken rest :=
    (read.mild _ ((Inert.wall rfl rest).milder after) (by simp)).1

theorem allEnclosed_nil (shallow : depth ≤ nestingLimit) :
    AllEnclosed depth [] where
  grammatical := trivial
  shallow := by simpa [nestingOfAll] using shallow
  unmistaken _ := trivial

/-- The value of an entry, which has no tokens of its own if the entry stands
for a variable. -/
structure EntryValue (depth : Nat) (value : ExprTree) : Prop where
  grammatical : value.Grammatical
  shallow : value.isIdentifier = false → value.nesting + depth < nestingLimit
  unmistaken : ∀ after, Inert after → value.Unmistaken after

theorem Enclosed.entryValue (enclosed : tree.Enclosed depth) :
    tree.EntryValue depth :=
  ⟨enclosed.grammatical, fun _ => enclosed.shallow, enclosed.unmistaken⟩

theorem entryValue_identifier (name : String) :
    (identifier name).EntryValue depth :=
  ⟨trivial, nofun, fun _ _ => trivial⟩

/-- An entry starts with its key, so it leads no reader into type
arguments. -/
theorem inert_followed_entries (entries : List (String × ExprTree))
    (after : List TokenKind) :
    Inert (followed (kindsOfEntries entries)
      (.symbol .closeBrace :: after)) := by
  cases entries with
  | nil => exact .wall rfl after
  | cons entry others =>
      rw [followed, kindsOfEntries, List.cons_append, joinedKinds_cons_append]
      · exact .entry entry.1 _
      · simp [kindsOfEntries]

/-! ### Nodes -/

theorem ReadFrom.leaf {kind : TokenKind} (single : tree.kinds = [kind])
    (grammatical : tree.Grammatical) (shallow : depth ≤ nestingLimit)
    (flat : tree.nesting = 0) (unmistaken : ∀ rest, tree.Unmistaken rest) :
    tree.ReadFrom depth (kind :: after) after where
  grammatical := grammatical
  shallow := by rwa [flat, Nat.zero_add]
  first := by rw [single]; rfl
  mild rest milder := by
    rw [single]
    exact ⟨unmistaken rest, milder.cons kind⟩

theorem ReadFrom.paren
    (read : tree.ReadFrom (depth + 1) before (.symbol .closeParen :: after)) :
    (ExprTree.paren tree).ReadFrom depth (.symbol .openParen :: before)
      after where
  grammatical := read.grammatical
  shallow := by
    have shallow := read.shallow
    simp only [nesting]
    omega
  first := rfl
  mild rest _ := by
    have wall : Inert (.symbol .closeParen :: rest) := .wall rfl rest
    obtain ⟨unmistaken, mild⟩ := read.mild _ (wall.milder _)
    exact ⟨unmistaken, .openParen _ _⟩

theorem ReadFrom.array {trees : List ExprTree}
    (read : AllReadFrom trees depth before (.symbol .closeBracket :: after)) :
    (ExprTree.array trees).ReadFrom depth (.symbol .openBracket :: before)
      after where
  grammatical := read.grammatical
  shallow := read.shallow
  first := rfl
  mild rest milder := by
    have closed := milder.cons (.symbol .closeBracket)
    obtain ⟨unmistaken, mild⟩ := read.mild _ closed nofun
    refine ⟨unmistaken, ?_⟩
    simpa [kinds] using mild.cons (.symbol .openBracket)

theorem ReadFrom.object {entries : List (String × ExprTree)}
    (values : ∀ entry ∈ entries, entry.2.EntryValue depth)
    (shallow : depth ≤ nestingLimit) :
    (ExprTree.object entries).ReadFrom depth (.symbol .openBrace :: before)
      after where
  grammatical := by
    rw [Grammatical]
    induction entries with
    | nil => trivial
    | cons entry others inductionHypothesis =>
        exact ⟨(values entry List.mem_cons_self).grammatical,
          inductionHypothesis fun other member =>
            values other (List.mem_cons_of_mem _ member)⟩
  shallow := by
    rw [nesting]
    induction entries with
    | nil => simpa [nestingOfEntries] using shallow
    | cons entry others inductionHypothesis =>
        have first := (values entry List.mem_cons_self).shallow
        have later := inductionHypothesis fun other member =>
          values other (List.mem_cons_of_mem _ member)
        obtain ⟨key, value⟩ := entry
        simp only [nestingOfEntries]
        cases isName : value.isIdentifier with
        | true =>
            simp only [if_true]
            omega
        | false =>
            have first : value.nesting + depth < nestingLimit := first isName
            simp only [Bool.false_eq_true, if_false]
            omega
  first := rfl
  mild rest _ := by
    have wall : Inert ((ExprTree.object entries).kinds ++ rest) := by
      rw [kinds]
      exact .wall rfl _
    refine ⟨?_, wall.milder _⟩
    rw [Unmistaken]
    induction entries with
    | nil => trivial
    | cons entry others inductionHypothesis =>
        refine ⟨(values entry List.mem_cons_self).unmistaken _
          (inert_followed_entries others rest), inductionHypothesis
            (fun other member => values other (List.mem_cons_of_mem _ member))
            ?_⟩
        rw [kinds]
        exact .wall rfl _

theorem ReadFrom.new {type : TypeShape} {trees : List ExprTree}
    (shape : type.Grammatical) (arguments : AllEnclosed depth trees) :
    (ExprTree.new type trees).ReadFrom depth (.keyword .newWord :: before)
      after where
  grammatical := ⟨shape, arguments.grammatical⟩
  shallow := arguments.shallow
  first := rfl
  mild rest _ := by
    refine ⟨arguments.unmistaken rest, Inert.milder ?_ _⟩
    rw [kinds]
    exact .wall rfl _

theorem ReadFrom.member {property : String}
    (read : tree.ReadFrom depth before
      (.symbol .dot :: .ofWord property :: after))
    (tight : postfixTightness ≤ tree.loosest)
    (word : Scan.isWord property = true) :
    (ExprTree.member tree property).ReadFrom depth before after where
  grammatical := ⟨tight, read.grammatical, word⟩
  shallow := read.shallow
  first := by rw [kinds, head?_kinds_append, read.first]
  mild rest milder := by
    have named := (milder.cons (.ofWord property)).cons (.symbol .dot)
    obtain ⟨unmistaken, mild⟩ := read.mild _ named
    refine ⟨unmistaken, ?_⟩
    rw [kinds, List.append_assoc]
    exact mild

theorem ReadFrom.index {position : ExprTree}
    (read : tree.ReadFrom depth before (.symbol .openBracket :: middle))
    (tight : postfixTightness ≤ tree.loosest)
    (inner : position.ReadFrom (depth + 1) middle
      (.symbol .closeBracket :: after)) :
    (ExprTree.index tree position).ReadFrom depth before after where
  grammatical := ⟨tight, read.grammatical, inner.grammatical⟩
  shallow := by
    have outside := read.shallow
    have inside := inner.shallow
    simp only [nesting]
    omega
  first := by
    rw [kinds, List.append_assoc, head?_kinds_append, read.first]
  mild rest milder := by
    have closed := milder.cons (.symbol .closeBracket)
    obtain ⟨insideUnmistaken, insideMild⟩ := inner.mild _ closed
    obtain ⟨unmistaken, mild⟩ :=
      read.mild _ (insideMild.cons (.symbol .openBracket))
    refine ⟨⟨unmistaken, insideUnmistaken⟩, ?_⟩
    simpa [kinds] using mild

theorem ReadFrom.call {arguments : List ExprTree}
    (read : tree.ReadFrom depth before (.symbol .openParen :: middle))
    (tight : postfixTightness ≤ tree.loosest)
    (inner : AllEnclosed depth arguments) :
    (ExprTree.call tree [] arguments).ReadFrom depth before after where
  grammatical := ⟨tight, read.grammatical, trivial, rfl, inner.grammatical⟩
  shallow := Nat.add_max_add_right .. ▸ Nat.max_le.mpr
    ⟨read.shallow, inner.shallow⟩
  first := by
    rw [kinds, List.append_assoc, List.append_assoc, head?_kinds_append,
      read.first]
  mild rest _ := by
    obtain ⟨unmistaken, mild⟩ := read.mild _ (.openParen
      (joinedKinds (kindsOfAll arguments) ++ .symbol .closeParen :: rest)
      middle)
    refine ⟨⟨?_, inner.unmistaken rest⟩, ?_⟩
    · simpa [TypeShape.angled] using unmistaken
    · simpa [kinds, TypeShape.angled] using mild

theorem ReadFrom.typedCall {types : List TypeShape}
    {arguments : List ExprTree} (read : tree.ReadFrom depth before middle)
    (tight : postfixTightness ≤ tree.loosest) (some_type : types ≠ [])
    (shapes : TypeShape.AllGrammatical types)
    (bare : TypeShape.areBare types = true)
    (inner : AllEnclosed depth arguments) :
    (ExprTree.call tree types arguments).ReadFrom depth before after where
  grammatical :=
    ⟨tight, read.grammatical, shapes, bare, inner.grammatical⟩
  shallow := Nat.add_max_add_right .. ▸ Nat.max_le.mpr
    ⟨read.shallow, inner.shallow⟩
  first := by
    rw [kinds, List.append_assoc, List.append_assoc, head?_kinds_append,
      read.first]
  mild rest _ := by
    have wall := Inert.angled some_type bare
      (joinedKinds (kindsOfAll arguments) ++ .symbol .closeParen :: rest)
    obtain ⟨unmistaken, mild⟩ := read.mild _ (wall.milder middle)
    refine ⟨⟨?_, inner.unmistaken rest⟩, ?_⟩
    · simpa using unmistaken
    · simpa [kinds] using mild

theorem ReadFrom.unary {operator : UnaryOperator}
    (read : tree.ReadFrom depth before after)
    (tight : unaryTightness ≤ tree.loosest) :
    (ExprTree.unary operator tree).ReadFrom depth
      (.symbol operator.symbol :: before) after where
  grammatical := ⟨tight, read.grammatical⟩
  shallow := read.shallow
  first := by rw [kinds]; rfl
  mild rest milder := by
    have wall : Inert ((ExprTree.unary operator tree).kinds ++ rest) := by
      rw [kinds]
      exact .wall (by cases operator <;> rfl) _
    refine ⟨?_, wall.milder _⟩
    rw [Unmistaken]
    split
    · exact (read.mild _ ((Inert.wall rfl rest).milder _)).1
    · exact (read.mild rest milder).1

theorem ReadFrom.binary {operator : BinaryOperator} {right : ExprTree}
    (left : tree.ReadFrom depth before (.symbol operator.symbol :: middle))
    (read : right.ReadFrom depth middle after)
    (positive : 0 < tree.loosest) (admitted : tree.admits operator.precedence)
    (tight : operator.precedence < right.loosest)
    (typed : ∀ type ∈ tree.endType?, type.isNullable = false →
      ¬ StartsNullable (.symbol operator.symbol :: middle))
    (ended : tree.endType? = none →
      ¬ StartsAccess (.symbol operator.symbol :: middle)) :
    (ExprTree.binary operator tree right).ReadFrom depth before after where
  grammatical := by
    refine ⟨positive, admitted, tight, left.grammatical, read.grammatical, ?_⟩
    rintro rfl isNull type isEnd
    rw [read.first] at isNull
    cases middle with
    | nil => cases isNull
    | cons kind rest =>
        cases isNull
        have notNullable := typed type isEnd
        cases isNullable : type.isNullable with
        | true => rfl
        | false => exact absurd trivial (notNullable isNullable)
  shallow := Nat.add_max_add_right .. ▸ Nat.max_le.mpr
    ⟨left.shallow, read.shallow⟩
  first := by rw [kinds, head?_kinds_append, left.first]
  mild rest milder := by
    obtain ⟨rightUnmistaken, rightMild⟩ := read.mild rest milder
    obtain ⟨unmistaken, mild⟩ :=
      left.mild _ (rightMild.cons (.symbol operator.symbol))
    refine ⟨⟨unmistaken, rightUnmistaken, ?_⟩, ?_⟩
    · rintro rfl noType
      have stays := ended noType
      cases closed : closes 1 (right.kinds ++ rest) with
      | false => rfl
      | true =>
          have original := rightMild.angles 1 (by decide) closed
          exact absurd original stays
    · simpa [kinds] using mild

theorem ReadFrom.cast {type : TypeShape}
    (read : tree.ReadFrom depth before (.keyword .asWord :: middle))
    (positive : 0 < tree.loosest) (admitted : tree.admits castPrecedence)
    (shape : type.Grammatical) (after : List TokenKind) :
    (ExprTree.cast tree type).ReadFrom depth before after where
  grammatical := ⟨positive, admitted, read.grammatical, shape⟩
  shallow := read.shallow
  first := by rw [kinds, head?_kinds_append, read.first]
  mild rest _ := by
    have wall : Inert (.keyword .asWord :: (type.kinds ++ rest)) :=
      .wall rfl _
    obtain ⟨unmistaken, mild⟩ := read.mild _ (wall.milder _)
    refine ⟨unmistaken, ?_⟩
    simpa [kinds] using mild

theorem ReadFrom.conditional {whenTrue whenFalse : ExprTree}
    {beforeTrue beforeFalse : List TokenKind}
    (condition : tree.ReadFrom depth before (.symbol .question :: beforeTrue))
    (positive : 0 < tree.loosest)
    (first : whenTrue.ReadFrom depth beforeTrue
      (.symbol .colon :: beforeFalse))
    (second : whenFalse.ReadFrom depth beforeFalse after) :
    (ExprTree.conditional tree whenTrue whenFalse).ReadFrom depth before
      after where
  grammatical :=
    ⟨positive, condition.grammatical, first.grammatical, second.grammatical⟩
  shallow := by
    have outer := condition.shallow
    have left := first.shallow
    have right := second.shallow
    simp only [nesting]
    omega
  first := by
    rw [kinds, List.append_assoc, head?_kinds_append, condition.first]
  mild rest milder := by
    have colon : Inert (.symbol .colon :: whenFalse.kinds ++ rest) :=
      .wall rfl _
    have question : Inert (.symbol .question :: whenTrue.kinds ++
        .symbol .colon :: whenFalse.kinds ++ rest) :=
      .wall rfl _
    obtain ⟨unmistaken, mild⟩ := condition.mild _ (question.milder _)
    refine ⟨⟨unmistaken, (first.mild _ (colon.milder _)).1,
      (second.mild rest milder).1⟩, ?_⟩
    simpa [kinds] using mild

theorem ReadFrom.assign {operator : Option BinaryOperator} {value : ExprTree}
    (target : tree.ReadFrom depth before
      (.symbol (assignmentSymbol operator) :: middle))
    (assignable : tree.isAssignable = true)
    (known : assignmentOperator? (.symbol (assignmentSymbol operator)) =
      some operator)
    (read : value.ReadFrom depth middle after) :
    (ExprTree.assign operator tree value).ReadFrom depth before after where
  grammatical := ⟨known, assignable, target.grammatical, read.grammatical⟩
  shallow := Nat.add_max_add_right .. ▸ Nat.max_le.mpr
    ⟨target.shallow, read.shallow⟩
  first := by rw [kinds, head?_kinds_append, target.first]
  mild rest milder := by
    have wall : Inert (.symbol (assignmentSymbol operator) ::
        value.kinds ++ rest) := by
      refine .wall ?_ _
      unfold assignmentSymbol
      split <;> rfl
    obtain ⟨unmistaken, mild⟩ := target.mild _ (wall.milder _)
    refine ⟨⟨unmistaken, (read.mild rest milder).1⟩, ?_⟩
    simpa [kinds] using mild

end

end ExprTree

end PluginSurface
