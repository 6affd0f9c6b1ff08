import PluginSurface.Proofs.Grammar.Gives
import PluginSurface.Proofs.Grammar.ParsedTypes
import PluginSurface.Proofs.Syntax.Printable

/-!
# Types as they are printed

The tokens of a printable type are read as that type. Angles that stand behind
it are taken one by one off the symbols that they make up together.
-/

namespace PluginSurface

open Grammar

/-! ## Closing angles -/

/-- Symbols that are made up of a number of closing angles. -/
inductive Closing : Nat → List TokenKind → Prop where
  | none : Closing 0 []
  | single {count : Nat} {kinds : List TokenKind} (others : Closing count kinds) :
      Closing (count + 1) (.symbol .greater :: kinds)
  | double {count : Nat} {kinds : List TokenKind} (others : Closing count kinds) :
      Closing (count + 2) (.symbol .doubleGreater :: kinds)
  | triple {count : Nat} {kinds : List TokenKind} (others : Closing count kinds) :
      Closing (count + 3) (.symbol .tripleGreater :: kinds)

theorem closing_angles (count : Nat) : Closing count (TypeShape.angles count) := by
  induction count using TypeShape.angles.induct with
  | case1 => exact .none
  | case2 => exact .single .none
  | case3 => exact .double .none
  | case4 count inductionHypothesis => exact .triple inductionHypothesis

theorem Closing.eq_nil {kinds : List TokenKind} (closing : Closing 0 kinds) :
    kinds = [] := by
  cases closing
  rfl

/-- What may stand behind a type that ends before it. Closing angles may always
do so. -/
structure TypeShape.EndsBefore (type : TypeShape) (after : List TokenKind) :
    Prop where
  dot : after.head? ≠ some (.symbol .dot)
  bracket : after.head? ≠ some (.symbol .openBracket)
  angle : type.isBareName = true → after.head? ≠ some (.symbol .less)
  null : type.isNullable = false → ¬ StartsNullable after

theorem Closing.endsBefore {count : Nat} {kinds : List TokenKind}
    (closing : Closing (count + 1) kinds) (type : TypeShape)
    (after : List TokenKind) : type.EndsBefore (kinds ++ after) := by
  cases closing <;> exact ⟨nofun, nofun, nofun, nofun⟩

namespace Grammar

/-! ## Parts of types -/

section

variable {state : State} {rest : List TokenKind}

theorem gives_splitAngle {left mark : Symbol} (ready : state.Ready)
    (kinds : state.kinds = .symbol mark :: rest) :
    Gives state (splitAngle left) fun _ later =>
      later.kinds = .symbol left :: rest := by
  unfold State.kinds at kinds
  cases tokens : state.rest with
  | nil =>
      rw [tokens] at kinds
      cases kinds
  | cons token others =>
      rw [tokens, List.map_cons] at kinds
      obtain ⟨_, rfl⟩ := List.cons.inj kinds
      unfold Gives splitAngle
      rw [tokens]
      refine ⟨(), _, rfl, ⟨⟨⟨ready.closed, ?_, ready.finish⟩, .refl _, rfl, ?_⟩,
        rfl⟩, rfl⟩
      · intro other member
        rcases List.mem_cons.mp member with rfl | inRest
        · trivial
        · exact ready.lexed other (tokens ▸ List.mem_cons_of_mem _ inRest)
      · simp [tokens]

theorem gives_expectClosingAngle {count : Nat} {closing : List TokenKind}
    (ready : state.Ready) (isClosing : Closing (count + 1) closing)
    (kinds : state.kinds = closing ++ rest) :
    Gives state expectClosingAngle fun _ later =>
      ∃ left, Closing count left ∧ later.kinds = left ++ rest := by
  cases isClosing with
  | single others =>
      refine .current ready kinds ?_
      exact (Gives.expectSymbol ready kinds).imp fun _ _ _ onward =>
        ⟨_, others, onward⟩
  | double others =>
      refine .current ready kinds ?_
      exact (gives_splitAngle ready kinds).imp fun _ _ _ onward =>
        ⟨_, .single others, onward⟩
  | triple others =>
      refine .current ready kinds ?_
      exact (gives_splitAngle ready kinds).imp fun _ _ _ onward =>
        ⟨_, .double others, onward⟩

theorem gives_typeSegment {segment : String} (ready : state.Ready)
    (named : isTypeName segment = true)
    (kinds : state.kinds = .ofWord segment :: rest) :
    Gives state typeSegment fun name later =>
      name.text = segment ∧ later.kinds = rest := by
  by_cases isNull : segment = Keyword.nullWord.text
  · subst isNull
    rw [ofWord_text] at kinds
    refine .inspect (.isTrue ?_ (gives_takeName ready kinds))
    exact (ready.isKeyword_current _).mpr (by rw [kinds]; rfl)
  · have named : isName segment = true := by
      simpa [isTypeName, isNull] using named
    refine .inspect (.isFalse ?_ (gives_expectIdentifier ready named kinds))
    rw [ready.isKeyword_current, kinds]
    intro same
    rcases ofWord_cases segment with ⟨word, _, text, reserved⟩ | ⟨_, plain⟩
    · rw [List.head?_cons, reserved] at same
      cases same
      exact isNull text.symm
    · rw [List.head?_cons, plain] at same
      cases same

/-- The segments of a type name that stand behind the first one. -/
def dots (segments : List String) : List TokenKind :=
  segments.flatMap fun segment => [.symbol .dot, .ofWord segment]

theorem dotted_cons (first : String) (more : List String) :
    TypeShape.dotted (first :: more) = .ofWord first :: dots more := by
  induction more generalizing first with
  | nil => rfl
  | cons next more inductionHypothesis =>
      simp [TypeShape.dotted, inductionHypothesis, dots]

theorem gives_moreSegments {segments : List String}
    (named : ∀ segment ∈ segments, isTypeName segment = true)
    (ended : rest.head? ≠ some (.symbol .dot)) {bound : Nat} {state : State}
    (ready : state.Ready) (kinds : state.kinds = dots segments ++ rest)
    (enough : segments.length < bound) :
    Gives state (moreSegments bound) fun names later =>
      names.map Name.text = segments ∧ later.kinds = rest := by
  induction segments generalizing bound state with
  | nil =>
      obtain ⟨bound, rfl⟩ := Nat.exists_eq_succ_of_ne_zero
        (Nat.ne_zero_of_lt enough)
      refine .leaveSymbol ready ?_ (.pure ready ⟨rfl, kinds⟩)
      rw [kinds]
      exact ended
  | cons segment segments inductionHypothesis =>
      obtain ⟨bound, rfl⟩ := Nat.exists_eq_succ_of_ne_zero
        (Nat.ne_zero_of_lt enough)
      obtain ⟨first, others⟩ := List.forall_mem_cons.mp named
      refine .eatSymbol ready kinds fun later reaches onward => ?_
      refine .bind (gives_typeSegment reaches.ready first onward) ?_
      rintro name second further ⟨rfl, remaining⟩
      refine .bind (inductionHypothesis others further.ready remaining
        (Nat.lt_of_succ_lt_succ enough)) ?_
      rintro names last final ⟨rfl, left⟩
      exact .pure final.ready ⟨rfl, left⟩

theorem arraySuffixes_bracketed (start : Span) (type : TypeExpr) (bound : Nat)
    (ready : state.Ready)
    (kinds : state.kinds =
      .symbol .openBracket :: .symbol .closeBracket :: rest) :
    ∃ span later, arraySuffixes start (bound + 1) type state =
        arraySuffixes start bound (.array type span) later ∧
      state.Reaches later ∧ later.kinds = rest := by
  have open_ := ready.current_kind kinds
  have close := ready.lookAhead_one kinds
  have first := ready.reaches_advance
  have onward := State.kinds_advance kinds
  refine ⟨start.merge state.advance.advance.previous,
    state.advance.advance, ?_, first.trans first.ready.reaches_advance,
    State.kinds_advance onward⟩
  rw [arraySuffixes]
  simp only [Parse.inspect, Bind.bind, atSymbol, open_, close, advance]
  rfl

theorem gives_arraySuffixes_end (start : Span) (type : TypeExpr) (bound : Nat)
    (ready : state.Ready)
    (other : state.kinds.head? ≠ some (.symbol .openBracket)) :
    Gives state (arraySuffixes start bound type) fun result later =>
      result = type ∧ later.kinds = state.kinds := by
  cases bound with
  | zero => exact .pure ready ⟨rfl, rfl⟩
  | succ bound =>
      refine .inspect (.inspect (.isFalse ?_ (.pure ready ⟨rfl, rfl⟩)))
      simp [mt (ready.isSymbol_current _).mp other]

end

/-! ## Types -/

/-- A type in parentheses or a named type, with the brackets behind it. -/
def elementType (nested : Parse TypeExpr) (start : Span) : Parse TypeExpr := do
  let type ← primaryType nested
  arraySuffixes start (← stepBound) type

theorem typeStep_eq (nested : Parse TypeExpr) :
    typeStep nested = (do
      let start ← currentSpan
      let type ← elementType nested start
      let isNull ← Parse.inspect fun state => isNullWord (state.lookAhead 1)
      if (← atSymbol .pipe) && isNull then
        advance
        advance
        return .nullable type (← spanFrom start)
      else return type) := by
  funext state
  unfold typeStep elementType
  simp only [Bind.bind, currentSpan, Parse.inspect, stepBound]
  cases primaryType nested state with
  | mk result later => cases result <;> rfl

section

variable {type : TypeShape}

/-- A parser of types that meets the tokens of a type with closing angles behind
them, but fewer tokens than a limit, leaves the angles. -/
def ReadsType (item : Parse TypeExpr) (limit : Nat) (type : TypeShape) : Prop :=
  ∀ ⦃count : Nat⦄ ⦃state : State⦄ ⦃rest : List TokenKind⦄, state.Ready →
    state.kinds = type.kindsBefore count ++ rest →
    state.kinds.length < limit → (count = 0 → type.EndsBefore rest) →
      Gives state item fun result later => result.shape = type ∧
        ∃ left, Closing count left ∧ later.kinds = left ++ rest

def PrintedType (type : TypeShape) : Prop :=
  ∀ bound : Nat, ReadsType (typeAt bound) bound type

/-- The parser of a type comes to the brackets behind what is a type
already. -/
def PrintedElement (type : TypeShape) : Prop :=
  ∀ ⦃bound count : Nat⦄ ⦃state : State⦄ ⦃rest : List TokenKind⦄ (start : Span),
    state.Ready → state.kinds = type.kindsBefore count ++ rest →
    state.kinds.length ≤ bound →
    (count = 0 → rest.head? ≠ some (.symbol .dot) ∧
      (type.isBareName = true → rest.head? ≠ some (.symbol .less))) →
      ∃ result later fuel,
        elementType (typeAt bound) start state =
          arraySuffixes start fuel result later ∧
        state.Reaches later ∧ later.kinds.length < fuel ∧
        result.shape = type ∧
        ∃ left, Closing count left ∧ later.kinds = left ++ rest

theorem startsNullable_current {state : State} (ready : state.Ready)
    (starts : ¬ StartsNullable state.kinds) :
    ¬ (state.current.kind.isSymbol .pipe &&
      isNullWord (state.lookAhead 1)) = true := by
  intro both
  rw [Bool.and_eq_true] at both
  obtain ⟨pipe, null⟩ := both
  rw [isNullWord, isKeyword_iff] at null
  have kinds := (ready.kinds_eq_two (isSymbol_iff.mp pipe) (by simp) null (by simp)).2
  rw [kinds] at starts
  exact starts trivial

/-- A type that is not nullable ends with its brackets. -/
theorem PrintedElement.printedType (element : PrintedElement type)
    (notNullable : type.isNullable = false) : PrintedType type := by
  intro bound count state rest ready kinds enough ends
  obtain ⟨bound, rfl⟩ := Nat.exists_eq_succ_of_ne_zero
    (Nat.ne_zero_of_lt enough)
  obtain ⟨result, later, fuel, same, reaches, _, shape, left, closing, onward⟩ :=
    element state.current.span ready kinds (Nat.le_of_lt_succ enough)
      fun zero => ⟨(ends zero).dot, (ends zero).angle⟩
  have ended : type.EndsBefore later.kinds := by
    rw [onward]
    cases count with
    | zero =>
        rw [closing.eq_nil]
        exact ends rfl
    | succ count => exact closing.endsBefore type rest
  have stops := gives_arraySuffixes_end state.current.span result fuel
    reaches.ready ended.bracket
  rw [typeAt, typeStep_eq]
  refine .inspect (.bind (.continued same reaches stops) ?_)
  rintro found last further ⟨rfl, unchanged⟩
  refine .inspect (.inspect (.isFalse ?_ ?_))
  · refine startsNullable_current further.ready ?_
    rw [unchanged]
    exact ended.null notNullable
  · exact .pure further.ready ⟨shape, left, closing, unchanged.trans onward⟩

theorem PrintedElement.nullable (element : PrintedElement type) :
    PrintedType (.nullable type) := by
  intro bound count state rest ready kinds enough ends
  obtain ⟨bound, rfl⟩ := Nat.exists_eq_succ_of_ne_zero
    (Nat.ne_zero_of_lt enough)
  have inside : state.kinds = type.kindsBefore 0 ++
      .symbol .pipe :: .keyword .nullWord :: (TypeShape.angles count ++ rest) := by
    rw [kinds]
    simp [TypeShape.kindsBefore]
  obtain ⟨result, later, fuel, same, reaches, _, shape, left, closing, onward⟩ :=
    element state.current.span ready inside (Nat.le_of_lt_succ enough)
      fun _ => ⟨nofun, nofun⟩
  rw [closing.eq_nil, List.nil_append] at onward
  have stops := gives_arraySuffixes_end state.current.span result fuel
    reaches.ready (by rw [onward]; nofun)
  rw [typeAt, typeStep_eq]
  refine .inspect (.bind (.continued same reaches stops) ?_)
  rintro found last further ⟨rfl, unchanged⟩
  rw [onward] at unchanged
  refine .inspect (.inspect (.isTrue ?_ ?_))
  · rw [further.ready.current_kind unchanged,
      further.ready.lookAhead_one unchanged]
    rfl
  · refine .advance further.ready unchanged fun second next first => ?_
    refine .advance next.ready first fun third final remaining => ?_
    refine .spanFrom fun span => .pure final.ready ⟨?_, _, closing_angles count,
      remaining⟩
    rw [TypeExpr.shape, shape]

/-- One more pair of brackets behind an element. -/
theorem PrintedElement.array (element : PrintedElement type)
    (notNullable : type.isNullable = false) :
    PrintedElement (.array type) := by
  intro bound count state rest start ready kinds enough _
  have inside : state.kinds = type.kindsBefore 0 ++
      .symbol .openBracket :: .symbol .closeBracket ::
        (TypeShape.angles count ++ rest) := by
    rw [kinds]
    simp [TypeShape.kindsBefore, notNullable]
  obtain ⟨result, later, fuel, same, reaches, more, shape, left, closing,
    onward⟩ := element start ready inside enough fun _ => ⟨nofun, nofun⟩
  rw [closing.eq_nil, List.nil_append] at onward
  obtain ⟨fuel, rfl⟩ := Nat.exists_eq_succ_of_ne_zero (Nat.ne_zero_of_lt more)
  obtain ⟨span, last, next, further, remaining⟩ :=
    arraySuffixes_bracketed start result fuel reaches.ready onward
  refine ⟨_, last, fuel, same.trans next, reaches.trans further, ?_, ?_, _,
    closing_angles count, remaining⟩
  · rw [onward, List.length_cons, List.length_cons] at more
    rw [remaining]
    omega
  · rw [TypeExpr.shape, shape]

/-- What the parser of a primary type gives is followed by any brackets. -/
theorem elementType_of_primary {nested : Parse TypeExpr} (start : Span)
    {state : State} {holds : TypeExpr → State → Prop}
    (gives : Gives state (primaryType nested) holds) :
    ∃ result later fuel, elementType nested start state =
        arraySuffixes start fuel result later ∧
      state.Reaches later ∧ later.kinds.length < fuel ∧ holds result later := by
  obtain ⟨result, later, given, reaches, known⟩ := gives
  refine ⟨result, later, later.rest.length + 1, Gives.bind_eq given, reaches, ?_,
    known⟩
  rw [State.kinds_length]
  exact Nat.lt_succ_self _

/-- An array of a nullable type has it in parentheses. -/
theorem PrintedType.array (printed : PrintedType type)
    (nullable : type.isNullable = true) : PrintedElement (.array type) := by
  intro bound count state rest start ready kinds enough _
  have inside : state.kinds = .symbol .openParen :: (type.kindsBefore 0 ++
      .symbol .closeParen :: .symbol .openBracket :: .symbol .closeBracket ::
        (TypeShape.angles count ++ rest)) := by
    rw [kinds]
    simp [TypeShape.kindsBefore, nullable]
  have primary : Gives state (primaryType (typeAt bound)) fun result later =>
      result.shape = type ∧ later.kinds = .symbol .openBracket ::
        .symbol .closeBracket :: (TypeShape.angles count ++ rest) := by
    refine .inspect (.eatSymbol ready inside fun later reaches onward => ?_)
    refine .bind (printed bound reaches.ready onward ?_ fun _ =>
      ⟨nofun, nofun, nofun, nofun⟩) ?_
    · rw [inside, List.length_cons] at enough
      rw [onward]
      omega
    rintro result second further ⟨shape, left, closing, remaining⟩
    rw [closing.eq_nil, List.nil_append] at remaining
    refine .bind (.expectSymbol further.ready remaining) ?_
    intro _ last final left
    refine .spanFrom fun span => .pure final.ready ⟨?_, left⟩
    rw [TypeExpr.shape_withSpan, shape]
  obtain ⟨result, later, fuel, same, reaches, more, shape, onward⟩ :=
    elementType_of_primary start primary
  obtain ⟨fuel, rfl⟩ := Nat.exists_eq_succ_of_ne_zero (Nat.ne_zero_of_lt more)
  obtain ⟨span, last, next, further, remaining⟩ :=
    arraySuffixes_bracketed start result fuel reaches.ready onward
  refine ⟨_, last, fuel, same.trans next, reaches.trans further, ?_, ?_, _,
    closing_angles count, remaining⟩
  · rw [onward, List.length_cons, List.length_cons] at more
    rw [remaining]
    omega
  · rw [TypeExpr.shape, shape]

/-! ### Arguments -/

theorem gives_separatedTypes {item : Parse TypeExpr} {limit : Nat}
    {types : List TypeShape} (some_type : types ≠ [])
    (reads : ∀ type ∈ types, ReadsType item limit type) {fuel count : Nat}
    {state : State} {rest : List TokenKind} (ready : state.Ready)
    (kinds : state.kinds = TypeShape.argumentKinds types count ++ rest)
    (enough : state.kinds.length < limit) (more : state.kinds.length < fuel) :
    Gives state (separatedItems item fuel) fun results later =>
      results.map TypeExpr.shape = types ∧
        ∃ left, Closing (count + 1) left ∧ later.kinds = left ++ rest := by
  induction types generalizing fuel state with
  | nil => exact absurd rfl some_type
  | cons type others inductionHypothesis =>
      obtain ⟨fuel, rfl⟩ := Nat.exists_eq_succ_of_ne_zero
        (Nat.ne_zero_of_lt more)
      obtain ⟨first, later⟩ := List.forall_mem_cons.mp reads
      by_cases last : others = []
      · subst last
        refine .bind (first ready kinds enough nofun) ?_
        rintro result later reaches ⟨rfl, left, closing, onward⟩
        refine .leaveSymbol reaches.ready ?_
          (.pure reaches.ready ⟨rfl, left, closing, onward⟩)
        rw [onward]
        cases closing <;> nofun
      · have inside : state.kinds = type.kindsBefore 0 ++
            .comma :: (TypeShape.argumentKinds others count ++ rest) := by
          rw [kinds, TypeShape.argumentKinds]
          · simp
          · exact last
        refine .bind (first ready inside enough fun _ =>
          ⟨nofun, nofun, nofun, nofun⟩) ?_
        rintro result second reaches ⟨rfl, left, closing, onward⟩
        rw [closing.eq_nil, List.nil_append] at onward
        refine .eatSymbol reaches.ready onward fun third further remaining => ?_
        rw [inside] at enough more
        simp only [List.length_append, List.length_cons] at enough more
        refine .bind (inductionHypothesis last later further.ready remaining ?_
          ?_) ?_
        · rw [remaining, List.length_append]
          omega
        · rw [remaining, List.length_append]
          omega
        rintro results last final ⟨rfl, left, closing, ended⟩
        exact .pure final.ready ⟨rfl, left, closing, ended⟩

/-! ### Names -/

theorem ofWord_ne_symbol (word : String) (mark : Symbol) :
    TokenKind.ofWord word ≠ .symbol mark := by
  rcases ofWord_cases word with ⟨_, _, _, reserved⟩ | ⟨_, plain⟩
  · rw [reserved]
    nofun
  · rw [plain]
    nofun

theorem ofWord_ne_endOfFile (word : String) :
    TokenKind.ofWord word ≠ .endOfFile := by
  rcases ofWord_cases word with ⟨_, _, _, reserved⟩ | ⟨_, plain⟩
  · rw [reserved]
    nofun
  · rw [plain]
    nofun

theorem length_le_dots (segments : List String) :
    segments.length ≤ (dots segments).length := by
  induction segments with
  | nil => exact Nat.le_refl _
  | cons segment segments inductionHypothesis =>
      simp only [dots, List.flatMap_cons, List.length_append, List.length_cons]
        at inductionHypothesis ⊢
      omega

theorem printedElement_bareName {segments : List String}
    (some_segment : segments ≠ [])
    (named : ∀ segment ∈ segments, isTypeName segment = true) :
    PrintedElement (.named segments []) := by
  intro bound count state rest start ready kinds enough ends
  obtain ⟨first, more, rfl⟩ := List.exists_cons_of_ne_nil some_segment
  obtain ⟨firstNamed, moreNamed⟩ := List.forall_mem_cons.mp named
  have inside : state.kinds = .ofWord first ::
      (dots more ++ (TypeShape.angles count ++ rest)) := by
    rw [kinds, TypeShape.kindsBefore, dotted_cons]
    simp
  have ended : (TypeShape.angles count ++ rest).head? ≠ some (.symbol .dot) ∧
      (TypeShape.angles count ++ rest).head? ≠ some (.symbol .less) := by
    cases count with
    | zero => exact ⟨(ends rfl).1, (ends rfl).2 rfl⟩
    | succ count =>
        have free := (closing_angles (count + 1)).endsBefore (.named [] []) rest
        exact ⟨free.dot, free.angle rfl⟩
  refine elementType_of_primary start ?_
  unfold primaryType
  refine .inspect (.leaveSymbol ready ?_ ?_)
  · rw [inside, List.head?_cons]
    exact fun same => ofWord_ne_symbol _ _ (Option.some.inj same)
  refine .bind (gives_typeSegment ready firstNamed inside) ?_
  rintro name later reaches ⟨rfl, onward⟩
  refine .inspect (.bind (gives_moreSegments moreNamed ended.1 reaches.ready
    onward ?_) ?_)
  · rw [← State.kinds_length, onward, List.length_append]
    have short := length_le_dots more
    omega
  rintro names second further ⟨rfl, remaining⟩
  refine .leaveSymbol further.ready (remaining ▸ ended.2) ?_
  refine .continued rfl further.ready.reaches (.spanFrom fun span =>
    .pure further.ready ⟨?_, _, closing_angles count, remaining⟩)
  simp [TypeExpr.shape]

theorem printedElement_named {segments : List String}
    {arguments : List TypeShape}
    (printed : ∀ argument ∈ arguments, PrintedType argument)
    (some_argument : arguments ≠ []) (some_segment : segments ≠ [])
    (named : ∀ segment ∈ segments, isTypeName segment = true) :
    PrintedElement (.named segments arguments) := by
  intro bound count state rest start ready kinds enough ends
  obtain ⟨first, more, rfl⟩ := List.exists_cons_of_ne_nil some_segment
  obtain ⟨firstNamed, moreNamed⟩ := List.forall_mem_cons.mp named
  have inside : state.kinds = .ofWord first :: (dots more ++
      .symbol .less :: (TypeShape.argumentKinds arguments count ++ rest)) := by
    rw [kinds, TypeShape.kindsBefore, dotted_cons]
    · simp
    · exact some_argument
  refine elementType_of_primary start ?_
  unfold primaryType
  refine .inspect (.leaveSymbol ready ?_ ?_)
  · rw [inside, List.head?_cons]
    exact fun same => ofWord_ne_symbol _ _ (Option.some.inj same)
  refine .bind (gives_typeSegment ready firstNamed inside) ?_
  rintro name later reaches ⟨rfl, onward⟩
  refine .inspect (.bind (gives_moreSegments moreNamed (by simp) reaches.ready
    onward ?_) ?_)
  · rw [← State.kinds_length, onward, List.length_append]
    have short := length_le_dots more
    omega
  rintro names second further ⟨rfl, remaining⟩
  refine .eatSymbol further.ready remaining fun third next behind => ?_
  have fewer : third.kinds.length < bound := by
    rw [inside] at enough
    rw [behind]
    simp only [List.length_cons, List.length_append] at enough ⊢
    omega
  refine .bind (.inspect (gives_separatedTypes some_argument
    (fun argument member => printed argument member bound) next.ready behind
    fewer ?_)) ?_
  · rw [State.kinds_length]
    exact Nat.lt_succ_self _
  rintro types fourth final ⟨rfl, left, closing, closed⟩
  refine .bind (gives_expectClosingAngle final.ready closing closed) ?_
  rintro _ last ultimate ⟨left, closing, ended⟩
  refine .continued rfl ultimate.ready.reaches (.spanFrom fun span =>
    .pure ultimate.ready ⟨?_, left, closing, ended⟩)
  simp [TypeExpr.shape]

/-- Behind a type the parser comes to what is not part of it, whether or not
brackets may still follow. -/
structure PrintedShape (type : TypeShape) : Prop where
  whole : PrintedType type
  element : type.isNullable = false → PrintedElement type

theorem PrintedElement.shape (element : PrintedElement type)
    (notNullable : type.isNullable = false) : PrintedShape type :=
  ⟨element.printedType notNullable, fun _ => element⟩

end

mutual

theorem printedShape (type : TypeShape) (grammatical : type.Grammatical)
    (printable : type.isPrintable = true) : PrintedShape type := by
  cases type with
  | named segments arguments =>
      obtain ⟨some_segment, named, argumentsGrammatical⟩ := grammatical
      cases arguments with
      | nil =>
          exact (printedElement_bareName some_segment named).shape rfl
      | cons first others =>
          have printed := printedShapes (first :: others) argumentsGrammatical
            printable
          exact (printedElement_named (fun type member =>
            (printed type member).whole) (by simp) some_segment named).shape rfl
  | array element =>
      have printed := printedShape element grammatical printable
      cases nullable : element.isNullable with
      | true => exact (printed.whole.array nullable).shape rfl
      | false => exact ((printed.element nullable).array nullable).shape rfl
  | nullable inner =>
      simp only [TypeShape.isPrintable, Bool.and_eq_true, Bool.not_eq_true']
        at printable
      have printed := printedShape inner grammatical printable.2
      exact ⟨(printed.element printable.1).nullable, nofun⟩

theorem printedShapes (types : List TypeShape)
    (grammatical : TypeShape.AllGrammatical types)
    (printable : TypeShape.arePrintable types = true) :
    ∀ type ∈ types, PrintedShape type := by
  cases types with
  | nil => simp
  | cons type others =>
      simp only [TypeShape.arePrintable, Bool.and_eq_true] at printable
      exact List.forall_mem_cons.mpr
        ⟨printedShape type grammatical.1 printable.1,
          printedShapes others grammatical.2 printable.2⟩

end

theorem PrintedType.readsTypeExpr {type : TypeShape}
    (printed : PrintedType type) (limit : Nat) :
    ReadsType typeExpr limit type := by
  intro count state rest ready kinds _ ends
  refine .inspect (printed _ ready kinds ?_ ends)
  rw [State.kinds_length]
  exact Nat.lt_succ_self _

theorem gives_typeExpr {type : TypeShape} {state : State}
    {rest : List TokenKind} (grammatical : type.Grammatical)
    (printable : type.isPrintable = true) (ready : state.Ready)
    (kinds : state.kinds = type.kinds ++ rest) (ends : type.EndsBefore rest) :
    Gives state typeExpr fun result later =>
      result.shape = type ∧ later.kinds = rest := by
  have printed := (printedShape type grammatical printable).whole
  refine (printed.readsTypeExpr _ ready kinds (Nat.lt_succ_self _) fun _ =>
    ends).imp ?_
  rintro result later _ ⟨shape, left, closing, onward⟩
  rw [closing.eq_nil, List.nil_append] at onward
  exact ⟨shape, onward⟩

theorem gives_typeArguments {types : List TypeShape} {state : State}
    {rest : List TokenKind} (some_type : types ≠ [])
    (grammatical : TypeShape.AllGrammatical types)
    (printable : TypeShape.arePrintable types = true) (ready : state.Ready)
    (kinds : state.kinds = TypeShape.argumentKinds types 0 ++ rest) :
    Gives state (separated typeExpr) fun results later =>
      results.map TypeExpr.shape = types ∧
        ∃ left, Closing 1 left ∧ later.kinds = left ++ rest := by
  have printed := printedShapes types grammatical printable
  refine .inspect (gives_separatedTypes some_type (fun type member =>
    (printed type member).whole.readsTypeExpr _) ready kinds
    (Nat.lt_succ_self _) ?_)
  rw [State.kinds_length]
  exact Nat.lt_succ_self _

end Grammar

end PluginSurface
