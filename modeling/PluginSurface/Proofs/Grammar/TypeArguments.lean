import PluginSurface.Proofs.Grammar.Composition
import PluginSurface.Proofs.Grammar.SpelledTypes

/-!
# Type arguments ahead

Behind the callee of a call, a `<` may open type arguments or compare. The
parser looks ahead to tell the two apart: it counts angles over tokens that
stand in types. Here the tokens that it takes for type arguments are compared
with those that are some, read by the grammar of types itself.
-/

namespace PluginSurface.Grammar

/-! ## Type arguments of a call -/

/-- Type arguments and the parenthesis that opens a call behind them. -/
def callTypes : Parse Unit := do
  expectSymbol .less
  discard (separated typeExpr)
  expectClosingAngle
  expectSymbol .openParen

/-- A parser of types with a bound of its own for each type. -/
theorem agree_typeExpr (limit : Nat) : Agree limit typeExpr (typeAt limit) :=
  fun _ ends short => (settled_typeAt.eq_of_lt ends short).symm

/-- The units of a call from its type arguments on. -/
abbrev callUnits (types after : List TokenKind) : List TokenKind :=
  .symbol .less :: (types ++ .symbol .greater :: .symbol .openParen :: after)

theorem callTypes_isSome_iff {state : State} (ends : state.Ends) :
    (callTypes state).1.isSome = true ↔
      ∃ types after, state.units = callUnits types after ∧
        SpellsType .several types := by
  constructor
  · intro accepted
    have reads : ReadsWord state callTypes fun word =>
        ∃ types, word = .symbol .less :: (types ++
          [.symbol .greater, .symbol .openParen]) ∧
          SpellsType .several types := by
      unfold callTypes
      refine .bind (.expectSymbol rfl) fun _ later word less => ?_
      refine .bind (.bind (.inspect (readsWord_separatedItems
        readsWord_typeExpr _)) fun _ _ _ types => .pure (by simpa using types))
        fun _ further types spelled => ?_
      refine .bind readsWord_expectClosingAngle fun _ last close greater => ?_
      refine (ReadsWord.expectSymbol rfl).imp fun paren same => ?_
      refine ⟨types, ?_, spelled⟩
      simp [less, greater, same]
    rcases ran : callTypes state with ⟨_ | result, later⟩
    · rw [ran] at accepted
      cases accepted
    · obtain ⟨_, split, types, rfl, spelled⟩ := reads ends result later ran
      exact ⟨types, later.units, by simpa using split, spelled⟩
  · rintro ⟨types, after, front, spelled⟩
    have arrives : Arrives state callTypes after := by
      unfold callTypes
      refine .bind (.expectSymbol front nofun) fun _ later passes there => ?_
      have laterEnds := passes.ends ends
      have separated : Arrives later (separated typeExpr)
          (.symbol .greater :: .symbol .openParen :: after) := by
        have same := agree_separated (agree_typeExpr (later.rest.length + 1))
          later laterEnds (Nat.lt_succ_self _)
        have fixed : Arrives later (separated (typeAt (later.rest.length + 1)))
            (.symbol .greater :: .symbol .openParen :: after) :=
          .inspect (spelled.isRead _ _ later _ laterEnds (Nat.lt_succ_self _)
            (Nat.lt_succ_self _) there)
        unfold Arrives
        rw [same]
        exact fixed
      refine .bind (.bind separated fun _ _ _ there => .pure there)
        fun _ further onward there => ?_
      exact .bind (arrives_expectClosingAngle there) fun _ last _ there =>
        .expectSymbol there nofun
    obtain ⟨result, later, ran, _⟩ := arrives
    rw [ran]
    rfl

/-! ## Looking ahead -/

/-- The tokens that may stand in what is looked at. -/
def isFlat (kind : TokenKind) : Bool :=
  (angleChange? kind).isSome

/-- The angles that are open behind some units, if all of these are flat and
none closes an angle that was not opened. -/
def openAngles? (depth : Int) : List TokenKind → Option Int
  | [] => some depth
  | kind :: rest =>
      (angleChange? kind).bind fun change =>
        if depth + change < 0 then none else openAngles? (depth + change) rest

/-- Flat units whose angles close one another. -/
def AnglesMatch (word : List TokenKind) : Prop :=
  openAngles? 0 word = some 0

theorem openAngles?_append (depth : Int) (first second : List TokenKind) :
    openAngles? depth (first ++ second) =
      (openAngles? depth first).bind (openAngles? · second) := by
  induction first generalizing depth with
  | nil => rfl
  | cons kind rest inductionHypothesis =>
      simp only [List.cons_append, openAngles?]
      cases angleChange? kind with
      | none => rfl
      | some change =>
          simp only [Option.bind_some]
          split
          · rfl
          · exact inductionHypothesis _

/-- Units whose angles match end at the angle that closes one before them. -/
theorem AnglesMatch.unique {first second more others : List TokenKind}
    (matched : AnglesMatch first) (also : AnglesMatch second)
    (same : first ++ .symbol .greater :: more =
      second ++ .symbol .greater :: others) : first = second := by
  have shorter {first rest : List TokenKind} (matched : AnglesMatch first)
      (also : AnglesMatch (first ++ .symbol .greater :: rest)) : False := by
    rw [AnglesMatch, openAngles?_append, matched] at also
    cases also
  rcases List.append_eq_append_iff.mp same with
    ⟨_ | ⟨unit, between⟩, rfl, ends⟩ | ⟨_ | ⟨unit, between⟩, rfl, ends⟩
  · simp
  · obtain ⟨rfl, _⟩ := List.cons.inj ends
    exact (shorter matched also).elim
  · simp
  · obtain ⟨rfl, _⟩ := List.cons.inj ends
    exact (shorter also matched).elim

/-- A symbol that closes a number of angles. -/
theorem closes_closing {kind : TokenKind} {count : Int}
    (angles : angleChange? kind = some (-count)) (depth : Int)
    (rest : List TokenKind) :
    closes depth (kind :: rest) = true ↔
      depth = count ∧ rest.head? = some (.symbol .openParen) ∨
        count < depth ∧ closes (depth - count) rest = true := by
  rw [closes_cons, angles]
  have zero : depth + -count = 0 ↔ depth = count := by omega
  have positive : 0 < depth + -count ↔ count < depth := by omega
  simp [zero, positive, Int.sub_eq_add_neg]

theorem closes_replicate (count : Nat) (depth : Int) (rest : List TokenKind) :
    closes depth (List.replicate (count + 1) (.symbol .greater) ++ rest) = true ↔
      depth = count + 1 ∧ rest.head? = some (.symbol .openParen) ∨
        count + 1 < depth ∧ closes (depth - (count + 1)) rest = true := by
  have single := @closes_closing (.symbol .greater) 1 rfl
  induction count generalizing depth with
  | zero => simpa using single depth rest
  | succ count inductionHypothesis =>
      have fewer := inductionHypothesis (depth - 1)
      rw [List.replicate_succ, List.cons_append, single]
      simp only [fewer]
      have head : (List.replicate (count + 1) (TokenKind.symbol .greater) ++
          rest).head? ≠ some (.symbol .openParen) := by
        simp [List.replicate_succ]
      have same : depth - 1 = count + 1 ↔ depth = (count + 1 : Nat) + 1 := by
        omega
      have less : count + 1 < depth - 1 ↔ (count + 1 : Nat) + 1 < depth := by
        omega
      have left : depth - 1 - (count + 1) = depth - ((count + 1 : Nat) + 1) := by
        omega
      rw [left, same, less]
      constructor
      · rintro (⟨_, opens⟩ | ⟨_, closed⟩)
        · exact absurd opens head
        · exact closed
      · intro closed
        refine .inr ⟨?_, closed⟩
        rcases closed with ⟨depth, _⟩ | ⟨further, _⟩ <;> omega

theorem head_units_openParen (tokens : List Token) :
    (units tokens).head? = some (.symbol .openParen) ↔
      (tokens.map Token.kind).head? = some (.symbol .openParen) := by
  cases tokens with
  | nil => simp [units]
  | cons token rest =>
      change (unitsOf token.kind ++ units rest).head? = _ ↔ some token.kind = _
      rcases unitsOf_cases token.kind with whole | ⟨mark, half, same, splits⟩
      · rw [whole]
        rfl
      · rw [same, unitsOf_split splits]
        cases mark <;> cases splits <;> simp

/-- It makes no difference to counting whether angles are taken one by one. -/
theorem closes_units (tokens : List Token) {depth : Int} (positive : 0 < depth) :
    closes depth (units tokens) = closes depth (tokens.map Token.kind) := by
  induction tokens generalizing depth with
  | nil => rfl
  | cons token rest inductionHypothesis =>
      rw [Bool.eq_iff_iff]
      change closes depth (unitsOf token.kind ++ units rest) = true ↔
        closes depth (token.kind :: rest.map Token.kind) = true
      rcases unitsOf_cases token.kind with whole | ⟨mark, half, same, splits⟩
      · rw [whole, List.singleton_append, closes_cons, closes_cons]
        simp only [head_units_openParen]
        refine exists_congr fun change => and_congr_right fun _ => or_congr_right
          (and_congr_right fun further => ?_)
        rw [inductionHypothesis further]
      · have several (count : Nat) (angles : angleChange? (.symbol mark) =
            some (-(count + 1 : Int))) (split : unitsOf (.symbol mark) =
              List.replicate (count + 1) (.symbol .greater)) :
            closes depth (unitsOf (.symbol mark) ++ units rest) = true ↔
              closes depth (.symbol mark :: rest.map Token.kind) = true := by
          rw [split, closes_replicate, closes_closing angles,
            head_units_openParen]
          refine or_congr_right (and_congr_right fun further => ?_)
          rw [inductionHypothesis (by omega)]
        rw [same]
        cases mark <;> cases splits
        · -- No reader goes past what is left of the symbol.
          simp [unitsOf, closes_cons, angleChange?]
        · exact several 1 rfl rfl
        · exact several 2 rfl rfl

theorem unitsOf_of_mem_units {tokens : List Token} {unit : TokenKind}
    (member : unit ∈ units tokens) : unitsOf unit = [unit] := by
  obtain ⟨token, _, inToken⟩ := List.mem_flatMap.mp member
  rcases unitsOf_cases token.kind with whole | ⟨mark, half, same, splits⟩
  · rw [whole, List.mem_singleton] at inToken
    rw [inToken, whole]
  · rw [same] at inToken
    cases mark <;> cases splits <;> grind [unitsOf]

/-- Only a single angle closes one. -/
theorem angleChange?_unit {unit : TokenKind} (whole : unitsOf unit = [unit])
    {change : Int} (known : angleChange? unit = some change) :
    0 ≤ change ∨ change = -1 ∧ unit = .symbol .greater := by
  unfold angleChange? at known
  split at known <;> cases known <;>
    first | exact .inl (by decide) | exact .inr ⟨rfl, rfl⟩ | cases whole

theorem openAngles?_cons {depth change : Int} {kind : TokenKind}
    (known : angleChange? kind = some change) (open_ : 0 ≤ depth + change)
    (rest : List TokenKind) :
    openAngles? depth (kind :: rest) = openAngles? (depth + change) rest := by
  rw [openAngles?, known, Option.bind_some, if_neg (by omega)]

theorem closes_iff_openAngles? {word : List TokenKind}
    (whole : ∀ unit ∈ word, unitsOf unit = [unit]) {depth : Int}
    (open_ : 0 ≤ depth) :
    closes (depth + 1) word = true ↔
      ∃ types after,
        word = types ++ .symbol .greater :: .symbol .openParen :: after ∧
        openAngles? depth types = some 0 := by
  constructor
  · intro closed
    induction word generalizing depth with
    | nil => cases closed
    | cons unit rest inductionHypothesis =>
        obtain ⟨wholeUnit, wholeRest⟩ := List.forall_mem_cons.mp whole
        obtain ⟨change, known, ⟨zero, head⟩ | ⟨further, closed⟩⟩ :=
          (closes_cons _ _ _).mp closed
        · obtain ⟨_, rfl⟩ :=
            (angleChange?_unit wholeUnit known).resolve_left (by omega)
          cases known
          obtain ⟨after, rfl⟩ := List.head?_eq_some_iff.mp head
          have closedAll : depth = 0 := by omega
          exact ⟨[], after, rfl, by rw [closedAll]; rfl⟩
        · rw [show depth + 1 + change = depth + change + 1 by omega] at closed
          obtain ⟨types, after, rfl, matched⟩ :=
            inductionHypothesis wholeRest (by omega) closed
          refine ⟨unit :: types, after, rfl, ?_⟩
          rw [openAngles?_cons known (by omega), matched]
  · rintro ⟨types, after, rfl, matched⟩
    clear whole
    induction types generalizing depth with
    | nil =>
        cases matched
        rfl
    | cons unit rest inductionHypothesis =>
        rw [openAngles?, Option.bind_eq_some_iff] at matched
        obtain ⟨change, known, matched⟩ := matched
        split at matched
        · cases matched
        · next below =>
            have closed := inductionHypothesis (by omega) matched
            rw [show depth + change + 1 = depth + 1 + change by omega] at closed
            exact (closes_cons _ _ _).mpr ⟨change, known, .inr ⟨by omega, closed⟩⟩

/-- The parser takes a `<` to open type arguments. -/
def LooksAhead (state : State) : Prop :=
  looksLikeTypeArguments state = (some true, state)

theorem looksAhead_iff_closes {state : State} {more : List TokenKind}
    (front : state.units = .symbol .less :: more) :
    LooksAhead state ↔ closes 1 more = true := by
  obtain ⟨token, rest, found, kind, rfl⟩ := state.front_of_units front nofun
  have current : state.current = token := by simp [State.current, found]
  have less : closes 0 (.symbol .less :: rest.map Token.kind) =
      closes 1 (rest.map Token.kind) := rfl
  have unfolded : looksLikeTypeArguments state =
      (some (closes 1 (rest.map Token.kind)), state) := by
    simp [looksLikeTypeArguments, Parse.inspect, closesBeforeCall_eq, current,
      found, kind, less, TokenKind.isSymbol]
  rw [LooksAhead, unfolded, closes_units _ Int.one_pos]
  simp

theorem looksAhead_iff {state : State} {more : List TokenKind}
    (front : state.units = .symbol .less :: more) :
    LooksAhead state ↔
      ∃ types after, state.units = callUnits types after ∧
        AnglesMatch types := by
  have whole : ∀ unit ∈ more, unitsOf unit = [unit] := fun unit member =>
    unitsOf_of_mem_units (front ▸ List.mem_cons_of_mem _ member)
  have counted := closes_iff_openAngles? whole (Int.le_refl 0)
  rw [looksAhead_iff_closes front, front]
  simpa [callUnits, AnglesMatch] using counted

/-! ## Types among angles -/

/-- A reader that passes some units comes out as deep as it went in. -/
structure KeepsDepth (word : List TokenKind) : Prop where
  opens : (∀ kind ∈ word, isFlat kind = true) → ∀ depth : Int, 0 ≤ depth →
    openAngles? depth word = some depth
  flat : ∀ (depth : Int) (rest : List TokenKind), 0 < depth →
    closes depth (word ++ rest) = true →
      (∀ kind ∈ word, isFlat kind = true) ∧ closes depth rest = true

namespace KeepsDepth

variable {word : List TokenKind}

theorem nil : KeepsDepth [] where
  opens _ _ _ := rfl
  flat _ _ _ closed := ⟨nofun, closed⟩

theorem append {others : List TokenKind} (first : KeepsDepth word)
    (second : KeepsDepth others) : KeepsDepth (word ++ others) where
  opens flat depth open_ := by
    obtain ⟨flatFirst, flatSecond⟩ := List.forall_mem_append.mp flat
    rw [openAngles?_append, first.opens flatFirst depth open_]
    exact second.opens flatSecond depth open_
  flat depth rest positive closed := by
    rw [List.append_assoc] at closed
    obtain ⟨flatFirst, closed⟩ := first.flat depth _ positive closed
    obtain ⟨flatSecond, closed⟩ := second.flat depth rest positive closed
    exact ⟨List.forall_mem_append.mpr ⟨flatFirst, flatSecond⟩, closed⟩

/-- Of the flat tokens only angles change the depth. -/
theorem cons {kind : TokenKind} (others : KeepsDepth word)
    (change : angleChange? kind = none ∨ angleChange? kind = some 0) :
    KeepsDepth (kind :: word) where
  opens flat depth open_ := by
    obtain ⟨first, flat⟩ := List.forall_mem_cons.mp flat
    rcases change with wall | neutral
    · rw [isFlat, wall] at first
      cases first
    · rw [openAngles?_cons neutral (by omega), Int.add_zero]
      exact others.opens flat depth open_
  flat depth rest positive closed := by
    rw [List.cons_append] at closed
    rcases change with wall | neutral
    · simp [closes, wall] at closed
    · rw [closes_neutral neutral positive] at closed
      obtain ⟨flat, closed⟩ := others.flat depth rest positive closed
      exact ⟨List.forall_mem_cons.mpr ⟨by simp [isFlat, neutral], flat⟩, closed⟩

theorem angled (inner : KeepsDepth word) :
    KeepsDepth (.symbol .less :: (word ++ [.symbol .greater])) where
  opens flat depth open_ := by
    obtain ⟨_, flat⟩ := List.forall_mem_cons.mp flat
    obtain ⟨flat, _⟩ := List.forall_mem_append.mp flat
    rw [openAngles?_cons rfl (by omega), openAngles?_append,
      inner.opens flat _ (by omega), Option.bind_some,
      openAngles?_cons rfl (by omega), Int.add_neg_cancel_right]
    rfl
  flat depth rest positive closed := by
    rw [List.cons_append, closes_open positive, List.append_assoc] at closed
    obtain ⟨flat, closed⟩ := inner.flat _ _ (by omega) closed
    have closing := @closes_closing (.symbol .greater) 1 rfl
    obtain ⟨same, _⟩ | ⟨_, closed⟩ := (closing _ _).mp closed
    · omega
    · rw [Int.add_sub_cancel] at closed
      exact ⟨List.forall_mem_cons.mpr ⟨rfl, List.forall_mem_append.mpr
        ⟨flat, by simp [isFlat, angleChange?]⟩⟩, closed⟩

theorem typeWord {kind : TokenKind} (isWord : isTypeWord kind = true)
    (others : KeepsDepth word) : KeepsDepth (kind :: word) := by
  refine others.cons ?_
  unfold angleChange?
  split <;> first | exact .inl rfl | exact .inr rfl | cases isWord

theorem dotted {words : List TokenKind}
    (areWords : ∀ kind ∈ words, isTypeWord kind = true) :
    KeepsDepth (Grammar.dotted words) := by
  induction words with
  | nil => exact .nil
  | cons first more inductionHypothesis =>
      obtain ⟨isWord, areWords⟩ := List.forall_mem_cons.mp areWords
      exact ((inductionHypothesis areWords).typeWord isWord).cons (.inr rfl)

theorem brackets (count : Nat) : KeepsDepth (Grammar.brackets count) := by
  induction count with
  | zero => exact .nil
  | succ count inductionHypothesis =>
      exact (inductionHypothesis.cons (.inr rfl)).cons (.inr rfl)

end KeepsDepth

theorem SpellsType.keepsDepth {level : TypeLevel} {word : List TokenKind}
    (spells : SpellsType level word) : KeepsDepth word := by
  induction spells with
  | paren _ inner =>
      exact (inner.append (KeepsDepth.nil.cons (.inl rfl))).cons (.inl rfl)
  | name words =>
      obtain ⟨isWord, areWords⟩ := List.forall_mem_cons.mp words
      exact (KeepsDepth.dotted areWords).typeWord isWord
  | applied words _ inner =>
      obtain ⟨isWord, areWords⟩ := List.forall_mem_cons.mp words
      exact ((KeepsDepth.dotted areWords).append inner.angled).typeWord isWord
  | array count _ inner => exact inner.append (.brackets count)
  | nullable count _ inner =>
      exact inner.append ((KeepsDepth.brackets count).append
        ((KeepsDepth.nil.cons (.inr rfl)).cons (.inr rfl)))
  | single _ inner => exact inner
  | cons _ _ first more => exact first.append (more.cons (.inr rfl))

/-- When looking ahead agrees with the grammar of types. The parser takes a `<`
to open type arguments if and only if flat units with matching angles stand
before a `>` and a parenthesis, while the grammar reads type arguments of a call
if and only if types stand there. So where types stand, the `<` is taken for a
comparison exactly if they are spelled with a token that is not flat, a
parenthesis or a contextual keyword; and where the `<` is taken to open type
arguments, these are read exactly if what stands there spells types. -/
theorem looksAhead_agrees_iff {state : State} (ends : state.Ends) :
    ((callTypes state).1.isSome = true ↔
      ∃ types after, state.units = callUnits types after ∧
        SpellsType .several types) ∧
    (state.current.kind = .symbol .less → (LooksAhead state ↔
      ∃ types after, state.units = callUnits types after ∧
        AnglesMatch types)) ∧
    ∀ types after, state.units = callUnits types after →
      (SpellsType .several types →
        (LooksAhead state ↔ ∀ kind ∈ types, isFlat kind = true)) ∧
      (AnglesMatch types →
        ((callTypes state).1.isSome = true ↔ SpellsType .several types)) := by
  refine ⟨callTypes_isSome_iff ends, fun less => ?_,
    fun types after front => ⟨fun spells => ?_, fun matched => ?_⟩⟩
  · exact looksAhead_iff (state.units_of_current ends less nofun rfl)
  · constructor
    · intro looks
      have closed := (looksAhead_iff_closes front).mp looks
      exact (spells.keepsDepth.flat 1 _ Int.one_pos closed).1
    · intro flat
      have matched := spells.keepsDepth.opens flat 0 (Int.le_refl 0)
      exact (looksAhead_iff front).mpr ⟨types, after, front, matched⟩
  · rw [callTypes_isSome_iff ends]
    refine ⟨fun accepted => ?_, fun spells => ⟨types, after, front, spells⟩⟩
    obtain ⟨others, further, same, spells⟩ := accepted
    have looks := (looksAhead_iff front).mpr ⟨types, after, front, matched⟩
    have closed := (looksAhead_iff_closes same).mp looks
    obtain ⟨flat, _⟩ := spells.keepsDepth.flat 1 _ Int.one_pos closed
    have alsoMatched := spells.keepsDepth.opens flat 0 (Int.le_refl 0)
    have units : types ++ .symbol .greater :: .symbol .openParen :: after =
        others ++ .symbol .greater :: .symbol .openParen :: further :=
      (List.cons.inj (front.symm.trans same)).2
    rwa [matched.unique alsoMatched units]

/-- A state before some tokens. -/
def stateBefore (kinds : List TokenKind) : State :=
  initialState ⟨"a.ts", ""⟩ (kinds.map fun kind => ⟨kind, .point .first⟩)

/-- In front of `<(a)>(` types stand, but with a parenthesis. -/
def parenthesizedTypes : State :=
  stateBefore [.symbol .less, .symbol .openParen, .identifier "a",
    .symbol .closeParen, .symbol .greater, .symbol .openParen]

/-- What stands in front of `<b] > (` are no types. -/
def bracketedComparison : State :=
  stateBefore [.symbol .less, .identifier "b", .symbol .closeBracket,
    .symbol .greater, .symbol .openParen]

/-- The units in front of `<(a)>(` are a case of the agreement: the types there
are read, and no reader that looks ahead goes past the parenthesis. -/
theorem looksAhead_agrees_of_parenthesized :
    parenthesizedTypes.Ends ∧
      (callTypes parenthesizedTypes).1.isSome = true ∧
      ¬ LooksAhead parenthesizedTypes := by
  have ends : parenthesizedTypes.Ends := rfl
  have agrees := looksAhead_agrees_iff ends
  have spells : SpellsType .several [.symbol .openParen, .identifier "a",
      .symbol .closeParen] :=
    .single (.array 0 (.paren (.array 0
      (@SpellsType.name (.identifier "a") [] (by simp [isTypeWord])))))
  refine ⟨ends, agrees.1.mpr ⟨_, [.endOfFile], rfl, spells⟩, fun looks => ?_⟩
  have flat := ((agrees.2.2 _ [.endOfFile] rfl).1 spells).mp looks
  exact absurd (flat (.symbol .openParen) (by simp)) (by decide)

/-- Looking ahead misses types in parentheses and finds types where there are
none. -/
theorem looksAhead_disagrees :
    (¬ LooksAhead parenthesizedTypes ∧
      (callTypes parenthesizedTypes).1.isSome = true) ∧
    (LooksAhead bracketedComparison ∧
      (callTypes bracketedComparison).1.isSome = false) := by
  refine ⟨⟨fun looks => ?_, by decide⟩, rfl, by decide⟩
  exact absurd (congrArg Prod.fst looks) (by decide)

end PluginSurface.Grammar
