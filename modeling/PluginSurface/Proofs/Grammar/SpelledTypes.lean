import PluginSurface.Proofs.Grammar.Units

/-!
# How types are spelled

The units that the parser of types reads, and in front of which it gives a
result, are those that a grammar of types spells: one direction by what the
parser has read, the other by induction on the spelling.
-/

namespace PluginSurface.Grammar

variable {Next : Type}

/-- A word that may stand in the name of a type. -/
def isTypeWord : TokenKind → Bool
  | .identifier _ => true
  | .keyword word => word.isContextual || word == .nullWord
  | _ => false

/-- The segments of a name behind the first one, each after a dot. -/
def dotted (words : List TokenKind) : List TokenKind :=
  words.flatMap fun word => [.symbol .dot, word]

/-- A number of empty pairs of brackets. -/
def brackets : Nat → List TokenKind
  | 0 => []
  | count + 1 => .symbol .openBracket :: .symbol .closeBracket :: brackets count

/-- A type without what may stand behind it, a type, or types between commas. -/
inductive TypeLevel where
  | primary
  | whole
  | several

/-- The units that types are spelled with. -/
inductive SpellsType : TypeLevel → List TokenKind → Prop where
  | paren {inner : List TokenKind} (type : SpellsType .whole inner) :
      SpellsType .primary
        (.symbol .openParen :: (inner ++ [.symbol .closeParen]))
  | name {first : TokenKind} {more : List TokenKind}
      (words : ∀ word ∈ first :: more, isTypeWord word = true) :
      SpellsType .primary (first :: dotted more)
  | applied {first : TokenKind} {more arguments : List TokenKind}
      (words : ∀ word ∈ first :: more, isTypeWord word = true)
      (types : SpellsType .several arguments) :
      SpellsType .primary (first :: (dotted more ++
        .symbol .less :: (arguments ++ [.symbol .greater])))
  | array {inner : List TokenKind} (count : Nat)
      (type : SpellsType .primary inner) :
      SpellsType .whole (inner ++ brackets count)
  | nullable {inner : List TokenKind} (count : Nat)
      (type : SpellsType .primary inner) :
      SpellsType .whole (inner ++ (brackets count ++
        [.symbol .pipe, .keyword .nullWord]))
  | single {type : List TokenKind} (only : SpellsType .whole type) :
      SpellsType .several type
  | cons {type others : List TokenKind} (first : SpellsType .whole type)
      (more : SpellsType .several others) :
      SpellsType .several (type ++ .symbol .comma :: others)

theorem isTypeWord_ne_end {word : TokenKind} (isWord : isTypeWord word = true) :
    word ≠ .endOfFile := by
  rintro rfl
  cases isWord

theorem unitsOf_typeWord {word : TokenKind} (isWord : isTypeWord word = true) :
    unitsOf word = [word] := by
  cases word <;> first | rfl | cases isWord

theorem typeWord_ne_symbol {word : TokenKind} (isWord : isTypeWord word = true)
    (mark : Symbol) : word ≠ .symbol mark := by
  rintro rfl
  cases isWord

/-! ## What is read as a type is spelled as one -/

section

variable {state : State}

theorem readsWord_takeName {kind : TokenKind} {text : String}
    (found : state.current.kind = kind) (isWord : isTypeWord kind = true) :
    ReadsWord state (takeName text) (· = [kind]) := by
  refine .inspect ?_
  exact .advanceThen found (isTypeWord_ne_end isWord) (unitsOf_typeWord isWord)
    (.pure rfl)

theorem readsWord_typeSegment :
    ReadsWord state typeSegment fun word =>
      ∃ kind, isTypeWord kind = true ∧ word = [kind] := by
  refine .inspect ?_
  split
  · next found =>
      exact (readsWord_takeName (isKeyword_iff.mp found) rfl).imp
        fun _ same => ⟨_, rfl, same⟩
  · refine .inspect ?_
    split
    · next found =>
        exact (readsWord_takeName found rfl).imp fun _ same => ⟨_, rfl, same⟩
    · next found =>
        split
        · next contextual =>
            have isWord : isTypeWord (.keyword _) = true :=
              Bool.or_eq_true_iff.mpr (.inl contextual)
            exact (readsWord_takeName found isWord).imp
              fun _ same => ⟨_, isWord, same⟩
        · exact .failHere
    · exact .failHere

theorem readsWord_moreSegments : ∀ (bound : Nat) {state : State},
    ReadsWord state (moreSegments bound) fun word =>
      ∃ words, (∀ kind ∈ words, isTypeWord kind = true) ∧ word = dotted words
  | 0, _ => .failHere
  | bound + 1, state => by
      unfold moreSegments
      refine .eatSymbol rfl ?_ (.pure ⟨[], nofun, rfl⟩)
      refine .bind readsWord_typeSegment fun _ later word isWord => ?_
      obtain ⟨kind, isWord, rfl⟩ := isWord
      refine .bind (readsWord_moreSegments bound) fun _ last rest others => ?_
      obtain ⟨words, areWords, rfl⟩ := others
      exact .pure ⟨kind :: words, List.forall_mem_cons.mpr ⟨isWord, areWords⟩,
        by simp [dotted]⟩

variable {nested : Parse TypeExpr} [Steady nested]

theorem readsWord_separatedItems
    (inner : ∀ state, ReadsWord state nested (SpellsType .whole)) :
    ∀ (bound : Nat) {state : State},
      ReadsWord state (separatedItems nested bound) (SpellsType .several)
  | 0, _ => .failHere
  | bound + 1, state => by
      unfold separatedItems
      refine .bind (inner state) fun _ later first type => ?_
      refine .eatSymbol rfl ?_ (.pure (by simpa using type.single))
      refine .bind (readsWord_separatedItems inner bound)
        fun _ last others types => ?_
      exact .pure (by simpa using type.cons types)

theorem readsWord_primaryType
    (inner : ∀ state, ReadsWord state nested (SpellsType .whole)) :
    ReadsWord state (primaryType nested) (SpellsType .primary) := by
  unfold primaryType
  dsimp only
  refine .inspect (.eatSymbol rfl ?_ ?_)
  · refine .bind (inner _) fun _ later word type => ?_
    refine .bind (.expectSymbol rfl) fun _ last close same => ?_
    subst same
    exact .inspect (.pure (by simpa using type.paren))
  · refine .bind readsWord_typeSegment fun _ later word isWord => ?_
    obtain ⟨first, isWord, rfl⟩ := isWord
    refine .inspect (.bind (readsWord_moreSegments _) fun _ last rest more => ?_)
    obtain ⟨words, areWords, rfl⟩ := more
    have named : ∀ kind ∈ first :: words, isTypeWord kind = true :=
      List.forall_mem_cons.mpr ⟨isWord, areWords⟩
    refine .eatSymbol rfl ?_ ?_
    · refine .bind (.inspect (readsWord_separatedItems inner _))
        fun _ later arguments types => ?_
      refine .bind readsWord_expectClosingAngle fun _ last close same => ?_
      subst same
      exact .inspect (.inspect (.pure (by simpa using .applied named types)))
    · exact .inspect (.inspect (.pure (by simpa using .name named)))

theorem readsWord_arraySuffixes (start : Span) :
    ∀ (bound : Nat) (type : TypeExpr) {state : State},
      ReadsWord state (arraySuffixes start bound type)
        fun word => ∃ count, word = brackets count
  | 0, _, _ => .pure ⟨0, rfl⟩
  | bound + 1, type, state => by
      refine .inspect (.inspect ?_)
      split
      · next both =>
          simp only [Bool.and_eq_true, isSymbol_iff] at both
          refine .advanceTwice both.1 nofun rfl both.2 nofun rfl (.inspect ?_)
          refine (readsWord_arraySuffixes start bound _).imp ?_
          rintro word ⟨count, rfl⟩
          exact ⟨count + 1, rfl⟩
      · exact .pure ⟨0, rfl⟩

theorem readsWord_typeStep
    (inner : ∀ state, ReadsWord state nested (SpellsType .whole)) :
    ReadsWord state (typeStep nested) (SpellsType .whole) := by
  unfold typeStep
  refine .inspect (.bind (readsWord_primaryType inner) ?_)
  intro type later word primary
  refine .inspect (.bind (readsWord_arraySuffixes _ _ _) ?_)
  rintro type last _ ⟨count, rfl⟩
  refine .inspect (.inspect ?_)
  split
  · next both =>
      simp only [Bool.and_eq_true, isSymbol_iff, isNullWord,
        isKeyword_iff] at both
      refine .advanceTwice both.1 nofun rfl both.2 nofun rfl (.inspect ?_)
      exact .pure (primary.nullable count)
  · exact .pure (by simpa using primary.array count)

theorem readsWord_typeAt : ∀ (bound : Nat) (state : State),
    ReadsWord state (typeAt bound) (SpellsType .whole)
  | 0, _ => .failHere
  | bound + 1, _ => readsWord_typeStep (readsWord_typeAt bound)

theorem readsWord_typeExpr (state : State) :
    ReadsWord state typeExpr (SpellsType .whole) :=
  .inspect (readsWord_typeAt _ state)

end

/-! ## What is spelled as a type is read as one -/

section

variable {state : State} {tail : List TokenKind}

theorem arrives_takeName {kind : TokenKind} {text : String}
    (front : state.units = kind :: tail) (isWord : isTypeWord kind = true) :
    Arrives state (takeName text) tail := by
  refine .inspect ?_
  exact .advance front (typeWord_ne_symbol isWord _)
    fun _ _ _ there => .pure there

theorem arrives_typeSegment {kind : TokenKind} (isWord : isTypeWord kind = true)
    (front : state.units = kind :: tail) :
    Arrives state typeSegment tail := by
  have found := state.current_of_units front (typeWord_ne_symbol isWord _)
  refine .inspect ?_
  split
  · exact arrives_takeName front isWord
  · next notNull =>
      refine .inspect ?_
      rw [found] at notNull ⊢
      cases kind with
      | identifier name => exact arrives_takeName front isWord
      | keyword word =>
          have notNull : word ≠ .nullWord := fun same =>
            notNull (isKeyword_iff.mpr (same ▸ rfl))
          have contextual : word.isContextual = true := by
            simpa [isTypeWord, notNull] using isWord
          dsimp only
          rw [if_pos contextual]
          exact arrives_takeName front isWord
      | _ => cases isWord

theorem arrives_moreSegments {words : List TokenKind}
    (areWords : ∀ kind ∈ words, isTypeWord kind = true)
    (stops : tail.head? ≠ some (.symbol .dot)) :
    ∀ {bound : Nat} {state : State}, state.Ends → state.rest.length < bound →
      state.units = dotted words ++ tail →
        Arrives state (moreSegments bound) tail := by
  induction words with
  | nil =>
      intro bound state ends enough front
      obtain ⟨bound, rfl⟩ := Nat.exists_eq_succ_of_ne_zero
        (Nat.ne_zero_of_lt enough)
      unfold moreSegments
      exact .leaveSymbol ends rfl (by rw [front]; exact stops) (.pure front)
  | cons word words inductionHypothesis =>
      intro bound state ends enough front
      obtain ⟨bound, rfl⟩ := Nat.exists_eq_succ_of_ne_zero
        (Nat.ne_zero_of_lt enough)
      obtain ⟨isWord, areWords⟩ := List.forall_mem_cons.mp areWords
      unfold moreSegments
      refine .eatSymbol front nofun fun later passes shorter there => ?_
      refine .bind (arrives_typeSegment isWord there)
        fun _ further onward there => ?_
      have fewer := onward.length_le
      refine .bind (inductionHypothesis areWords
        (onward.ends (passes.ends ends)) (by omega) there) ?_
      exact fun _ _ _ there => .pure there

theorem arrives_arraySuffixes (start : Span)
    (stops : tail.head? ≠ some (.symbol .openBracket)) :
    ∀ {count bound : Nat} {type : TypeExpr} {state : State}, state.Ends →
      state.rest.length < bound → state.units = brackets count ++ tail →
        Arrives state (arraySuffixes start bound type) tail := by
  intro count
  induction count with
  | zero =>
      intro bound type state ends enough front
      obtain ⟨bound, rfl⟩ := Nat.exists_eq_succ_of_ne_zero
        (Nat.ne_zero_of_lt enough)
      refine .inspect (.inspect ?_)
      rw [if_neg]
      · exact .pure front
      · intro both
        have opens := isSymbol_iff.mp (Bool.and_eq_true_iff.mp both).1
        exact absurd (state.head_units ends opens nofun rfl) (front ▸ stops)
  | succ count inductionHypothesis =>
      intro bound type state ends enough front
      obtain ⟨bound, rfl⟩ := Nat.exists_eq_succ_of_ne_zero
        (Nat.ne_zero_of_lt enough)
      refine .inspect (.inspect ?_)
      rw [if_pos]
      · exact .advance front nofun fun middle passes shorter there =>
          .advance there nofun fun later onward fewer there =>
            .inspect <| inductionHypothesis
              (onward.ends (passes.ends ends)) (by omega) there
      · simp [state.current_of_units front nofun,
          state.lookAhead_of_units front nofun nofun, TokenKind.isSymbol]

/-- What may stand behind a type of several, or behind one in parentheses. -/
def isTypeEnd : TokenKind → Bool
  | .symbol .comma | .symbol .greater | .symbol .closeParen => true
  | _ => false

/-- Where the units that are spelled so are read by a parser of their level. -/
def TypeLevel.IsRead (level : TypeLevel) (word : List TokenKind) : Prop :=
  match level with
  | .primary => ∀ (bound : Nat) (state : State) (tail : List TokenKind),
      state.Ends → state.rest.length ≤ bound → state.units = word ++ tail →
        tail.head? ≠ some (.symbol .dot) → tail.head? ≠ some (.symbol .less) →
          Arrives state (primaryType (typeAt bound)) tail
  | .whole => ∀ (bound : Nat) (state : State) (stop : TokenKind)
      (tail : List TokenKind), state.Ends → state.rest.length < bound →
        state.units = word ++ stop :: tail → isTypeEnd stop = true →
          Arrives state (typeAt bound) (stop :: tail)
  | .several => ∀ (depth bound : Nat) (state : State) (tail : List TokenKind),
      state.Ends → state.rest.length < depth → state.rest.length < bound →
        state.units = word ++ .symbol .greater :: tail →
          Arrives state (separatedItems (typeAt depth) bound)
            (.symbol .greater :: tail)

theorem isRead_paren {inner : List TokenKind}
    (isRead : TypeLevel.whole.IsRead inner) :
    TypeLevel.primary.IsRead
      (.symbol .openParen :: (inner ++ [.symbol .closeParen])) := by
  intro bound state tail ends enough front _ _
  simp only [List.cons_append, List.append_assoc, List.nil_append] at front
  unfold primaryType
  dsimp only
  refine .inspect (.eatSymbol front nofun ?_)
  intro later passes shorter there
  refine .bind (isRead bound later _ _ (passes.ends ends) (by omega) there rfl)
    fun _ further _ there => ?_
  exact .bind (.expectSymbol there nofun) fun _ last _ there =>
    .inspect (.pure there)

theorem isRead_name {first : TokenKind} {more : List TokenKind}
    (words : ∀ word ∈ first :: more, isTypeWord word = true) :
    TypeLevel.primary.IsRead (first :: dotted more) := by
  obtain ⟨isWord, areWords⟩ := List.forall_mem_cons.mp words
  intro bound state tail ends enough front notDot notLess
  unfold primaryType
  dsimp only
  refine .inspect (.leaveSymbol ends rfl ?_ ?_)
  · rw [front]
    simpa using typeWord_ne_symbol isWord _
  refine .bind (arrives_typeSegment isWord front)
    fun _ later passes there => .inspect ?_
  have laterEnds := passes.ends ends
  refine .bind (arrives_moreSegments areWords notDot laterEnds
    (Nat.lt_succ_self _) there) fun _ last onward there => ?_
  refine .leaveSymbol (onward.ends laterEnds) rfl (there ▸ notLess) ?_
  exact .inspect (.inspect (.pure there))

theorem isRead_applied {first : TokenKind} {more arguments : List TokenKind}
    (words : ∀ word ∈ first :: more, isTypeWord word = true)
    (isRead : TypeLevel.several.IsRead arguments) :
    TypeLevel.primary.IsRead (first :: (dotted more ++
      .symbol .less :: (arguments ++ [.symbol .greater]))) := by
  obtain ⟨isWord, areWords⟩ := List.forall_mem_cons.mp words
  intro bound state tail ends enough front _ _
  simp only [List.cons_append, List.append_assoc, List.nil_append] at front
  unfold primaryType
  dsimp only
  refine .inspect (.leaveSymbol ends rfl ?_ ?_)
  · rw [front]
    simpa using typeWord_ne_symbol isWord _
  refine .bind (arrives_typeSegment isWord front)
    fun _ later passes there => .inspect ?_
  have laterEnds := passes.ends ends
  refine .bind (arrives_moreSegments areWords (by simp) laterEnds
    (Nat.lt_succ_self _) there) fun _ further onward there => ?_
  have furtherEnds := onward.ends laterEnds
  refine .eatSymbol there nofun fun inside deeper shorter there => ?_
  have fewer := passes.length_le
  have less := onward.length_le
  refine .bind (.inspect (isRead bound _ inside tail (deeper.ends furtherEnds)
    (by omega) (Nat.lt_succ_self _) there)) fun _ behind _ there => ?_
  exact .bind (arrives_expectClosingAngle there) fun _ last _ there =>
    .inspect (.inspect (.pure there))

theorem typeEnd_ne {stop : TokenKind} (isEnd : isTypeEnd stop = true)
    {kind : TokenKind} (other : isTypeEnd kind = false) : stop ≠ kind := by
  rintro rfl
  rw [isEnd] at other
  cases other

/-- What comes behind a primary type and its brackets. -/
theorem arrives_element {inner : List TokenKind}
    (isRead : TypeLevel.primary.IsRead inner) {count bound : Nat}
    {state : State} (ends : state.Ends) (enough : state.rest.length ≤ bound)
    (front : state.units = inner ++ (brackets count ++ tail))
    (notDot : tail.head? ≠ some (.symbol .dot))
    (notLess : tail.head? ≠ some (.symbol .less))
    (notBracket : tail.head? ≠ some (.symbol .openBracket))
    {next : TypeExpr → Parse Next} {final : List TokenKind}
    (second : ∀ result later, state.Passes later → later.units = tail →
      Arrives later (next result) final) :
    Arrives state (primaryType (typeAt bound) >>= fun type =>
      stepBound >>= fun steps =>
        arraySuffixes state.current.span steps type >>= next) final := by
  refine .bind (isRead bound state _ ends enough front ?_ ?_)
    fun _ later passes there => .inspect ?_
  · cases count
    · exact notDot
    · nofun
  · cases count
    · exact notLess
    · nofun
  · exact .bind (arrives_arraySuffixes _ notBracket (passes.ends ends)
      (Nat.lt_succ_self _) there)
        fun result last onward there =>
          second result last (passes.trans onward) there

theorem isRead_array {inner : List TokenKind} (count : Nat)
    (isRead : TypeLevel.primary.IsRead inner) :
    TypeLevel.whole.IsRead (inner ++ brackets count) := by
  intro bound state stop tail ends enough front isEnd
  obtain ⟨bound, rfl⟩ := Nat.exists_eq_succ_of_ne_zero
    (Nat.ne_zero_of_lt enough)
  rw [List.append_assoc] at front
  unfold typeAt typeStep
  have other {kind : TokenKind} (differs : isTypeEnd kind = false) :
      (stop :: tail).head? ≠ some kind := by
    simpa using typeEnd_ne isEnd differs
  refine .inspect (arrives_element isRead ends (Nat.le_of_lt_succ enough) front
    (other rfl) (other rfl) (other rfl) ?_)
  intro result later passes there
  refine .inspect (.inspect ?_)
  rw [if_neg]
  · exact .pure there
  · intro both
    have pipe := isSymbol_iff.mp (Bool.and_eq_true_iff.mp both).1
    have front := later.head_units (passes.ends ends) pipe nofun rfl
    exact other rfl (there ▸ front)

theorem isRead_nullable {inner : List TokenKind} (count : Nat)
    (isRead : TypeLevel.primary.IsRead inner) :
    TypeLevel.whole.IsRead (inner ++ (brackets count ++
      [.symbol .pipe, .keyword .nullWord])) := by
  intro bound state stop tail ends enough front isEnd
  obtain ⟨bound, rfl⟩ := Nat.exists_eq_succ_of_ne_zero
    (Nat.ne_zero_of_lt enough)
  simp only [List.append_assoc, List.cons_append, List.nil_append] at front
  unfold typeAt typeStep
  refine .inspect (arrives_element isRead ends (Nat.le_of_lt_succ enough) front
    nofun nofun nofun ?_)
  intro result later passes there
  refine .inspect (.inspect ?_)
  rw [if_pos]
  · exact .advance there nofun fun _ _ _ there =>
      .advance there nofun fun _ _ _ there => .inspect (.pure there)
  · simp [later.current_of_units there nofun,
      later.lookAhead_of_units there nofun nofun, TokenKind.isSymbol,
      isNullWord, TokenKind.isKeyword]

theorem isRead_single {type : List TokenKind}
    (isRead : TypeLevel.whole.IsRead type) : TypeLevel.several.IsRead type := by
  intro depth bound state tail ends deep enough front
  obtain ⟨bound, rfl⟩ := Nat.exists_eq_succ_of_ne_zero
    (Nat.ne_zero_of_lt enough)
  unfold separatedItems
  refine .bind (isRead depth state _ tail ends deep front rfl)
    fun _ later passes there => ?_
  exact .leaveSymbol (passes.ends ends) rfl (by rw [there]; nofun) (.pure there)

theorem isRead_cons {type others : List TokenKind}
    (isRead : TypeLevel.whole.IsRead type)
    (areRead : TypeLevel.several.IsRead others) :
    TypeLevel.several.IsRead (type ++ .symbol .comma :: others) := by
  intro depth bound state tail ends deep enough front
  obtain ⟨bound, rfl⟩ := Nat.exists_eq_succ_of_ne_zero
    (Nat.ne_zero_of_lt enough)
  rw [List.append_assoc, List.cons_append] at front
  unfold separatedItems
  refine .bind (isRead depth state _ _ ends deep front rfl)
    fun _ later passes there => ?_
  have laterEnds := passes.ends ends
  have fewer := passes.length_le
  refine .eatSymbol there nofun fun further onward shorter there => ?_
  refine .bind (areRead depth bound further tail (onward.ends laterEnds)
    (by omega) (by omega) there) ?_
  exact fun _ _ _ there => .pure there

theorem SpellsType.isRead {level : TypeLevel} {word : List TokenKind}
    (spells : SpellsType level word) : level.IsRead word := by
  induction spells with
  | paren _ isRead => exact isRead_paren isRead
  | name words => exact isRead_name words
  | applied words _ isRead => exact isRead_applied words isRead
  | array count _ isRead => exact isRead_array count isRead
  | nullable count _ isRead => exact isRead_nullable count isRead
  | single _ isRead => exact isRead_single isRead
  | cons _ _ isRead areRead => exact isRead_cons isRead areRead

end

end PluginSurface.Grammar
