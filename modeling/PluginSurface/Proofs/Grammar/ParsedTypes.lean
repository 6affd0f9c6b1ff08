import PluginSurface.Proofs.Grammar.Yields

/-!
# Types as they are parsed

A parsed type is grammatical, and if the tokens it was read from can be type
arguments of a call, it is written without parentheses.
-/

namespace PluginSurface

/-! ## Shapes -/

namespace TypeExpr

@[simp]
theorem shapes_eq_map (types : List TypeExpr) :
    shapes types = types.map shape := by
  induction types with
  | nil => rfl
  | cons type rest inductionHypothesis =>
      simp [shapes, inductionHypothesis]

@[simp]
theorem shape_withSpan (type : TypeExpr) (span : Span) :
    (type.withSpan span).shape = type.shape := by
  cases type <;> simp [withSpan, shape]

end TypeExpr

namespace Grammar

/-! ## Angles -/

theorem closes_word {word : String} {rest : List TokenKind} {depth : Int}
    (positive : 0 < depth)
    (closed : closes depth (.ofWord word :: rest) = true) :
    (angleChange? (.ofWord word)).isSome = true ∧
      closes depth rest = true := by
  obtain ⟨change, known, _⟩ := (closes_cons _ _ _).mp closed
  have neutral : (angleChange? (.ofWord word)).isSome = true := by
    rw [known]
    rfl
  rw [closes_neutral (angleChange?_ofWord neutral) positive] at closed
  exact ⟨neutral, closed⟩

/-- What is known of a type that was read from some tokens, before the suffix
that makes it nullable. -/
structure PlainTypeRead (type : TypeShape) (before after : List TokenKind) :
    Prop where
  grammatical : type.Grammatical
  bare : ∀ depth : Int, 0 < depth → closes depth before = true →
    type.isBare = true ∧ type.isNullable = false ∧ closes depth after = true

/-- What is known of a type that was read from some tokens. -/
structure TypeRead (type : TypeShape) (before after : List TokenKind) :
    Prop where
  grammatical : type.Grammatical
  stopped : type.isNullable = false → ¬ StartsNullable after
  bare : ∀ depth : Int, 0 < depth → closes depth before = true →
    type.isBare = true ∧ closes depth after = true

/-- What is known of types between commas that were read from some tokens. -/
structure AllTypesRead (types : List TypeShape)
    (before after : List TokenKind) : Prop where
  some_type : types ≠ []
  grammatical : TypeShape.AllGrammatical types
  bare : ∀ depth : Int, 0 < depth → closes depth before = true →
    TypeShape.areBare types = true ∧ closes depth after = true

theorem TypeRead.singleton {type : TypeShape} {before after : List TokenKind}
    (read : TypeRead type before after) :
    AllTypesRead [type] before after where
  some_type := by simp
  grammatical := ⟨read.grammatical, trivial⟩
  bare depth positive closed := by
    simpa [TypeShape.areBare] using read.bare depth positive closed

theorem AllTypesRead.cons {type : TypeShape} {types : List TypeShape}
    {before middle after : List TokenKind}
    (read : TypeRead type before (.comma :: middle))
    (others : AllTypesRead types middle after) :
    AllTypesRead (type :: types) before after where
  some_type := by simp
  grammatical := ⟨read.grammatical, others.grammatical⟩
  bare depth positive closed := by
    obtain ⟨firstBare, onward⟩ := read.bare depth positive closed
    rw [TokenKind.comma, closes_neutral rfl positive] at onward
    obtain ⟨othersBare, closedAfter⟩ := others.bare depth positive onward
    exact ⟨by simp [TypeShape.areBare, firstBare, othersBare], closedAfter⟩

/-! ## Two tokens at once -/

section

variable {state : State} {Next : Type}

theorem State.Ready.kinds_eq_two (ready : state.Ready) {first second : TokenKind}
    (found : state.current.kind = first) (notEnd : first ≠ .endOfFile)
    (then_ : state.lookAhead 1 = second) (alsoNotEnd : second ≠ .endOfFile) :
    state.advance.current.kind = second ∧
      state.kinds = first :: second :: state.advance.advance.kinds := by
  have kinds := ready.kinds_eq found notEnd
  have next : state.advance.current.kind = second := by
    rw [State.lookAhead_eq ready, kinds, List.getElem?_cons_succ] at then_
    unfold State.current
    unfold State.kinds at then_
    cases rest : state.advance.rest with
    | nil =>
        rw [rest] at then_
        exact absurd then_.symm alsoNotEnd
    | cons token others => simpa [rest] using then_
  exact ⟨next, by rw [kinds, ready.advance.ready.kinds_eq next alsoNotEnd]⟩

theorem Yields.advanceTwice {next : Unit → Parse Next}
    {after : Next → State → Prop} {first second : TokenKind}
    (ready : state.Ready) (found : state.current.kind = first)
    (notEnd : first ≠ .endOfFile) (then_ : state.lookAhead 1 = second)
    (alsoNotEnd : second ≠ .endOfFile)
    (continues : ∀ later, state.Leads later →
      state.kinds = first :: second :: later.kinds →
        Yields later (next ()) after) :
    Yields state (Grammar.advance >>= fun _ => Grammar.advance >>= next)
      after := by
  obtain ⟨_, kinds⟩ := ready.kinds_eq_two found notEnd then_ alsoNotEnd
  have leads := ready.advance.trans ready.advance.ready.advance
  have unfolded : (Grammar.advance >>= fun _ => Grammar.advance >>= next)
      state = next () state.advance.advance := rfl
  exact continued unfolded leads (continues _ leads kinds)

end

/-! ## Parsers of types -/

-- Whether faults stay is asked for all that follows a step.
set_option synthInstance.maxSize 1024

section

variable {state : State}

theorem yields_typeSegment (ready : state.Ready) :
    Yields state typeSegment fun name later =>
      isTypeName name.text = true ∧
        state.kinds = .ofWord name.text :: later.kinds := by
  refine .inspect (.ite (fun found => ?_) fun _ => ?_)
  · refine (yields_takeName ready (isKeyword_iff.mp found) nofun).imp ?_
    rintro name later _ ⟨same, kinds⟩
    rw [same, ofWord_text]
    exact ⟨rfl, kinds⟩
  · refine (yields_expectIdentifier ready).imp ?_
    rintro name later _ ⟨named, kinds⟩
    exact ⟨by simp [isTypeName, named], kinds⟩

/-- What is known of the names that make up the name of a type. -/
structure SegmentsRead (segments : List String)
    (before after : List TokenKind) : Prop where
  names : ∀ segment ∈ segments, isTypeName segment = true
  bare : ∀ depth : Int, 0 < depth → closes depth before = true →
    (∀ segment ∈ segments,
      (angleChange? (.ofWord segment)).isSome = true) ∧
      closes depth after = true

theorem SegmentsRead.cons {segment : String} {segments : List String}
    {middle after : List TokenKind} (named : isTypeName segment = true)
    (others : SegmentsRead segments middle after) :
    SegmentsRead (segment :: segments) (.ofWord segment :: middle) after where
  names := List.forall_mem_cons.mpr ⟨named, others.names⟩
  bare depth positive closed := by
    obtain ⟨neutral, onward⟩ := closes_word positive closed
    obtain ⟨othersNeutral, closedAfter⟩ := others.bare depth positive onward
    exact ⟨List.forall_mem_cons.mpr ⟨neutral, othersNeutral⟩, closedAfter⟩

theorem yields_moreSegments :
    ∀ (bound : Nat) {state : State}, state.Ready →
      Yields state (moreSegments bound) fun names later =>
        SegmentsRead (names.map Name.text) state.kinds later.kinds
  | 0, _, _ => .failHere
  | bound + 1, state, ready => by
      refine .eatSymbol ready (fun later leads dot => ?_) fun _ => ?_
      · refine .bind (yields_typeSegment leads.ready) ?_
        rintro name second further ⟨named, kinds⟩
        refine .bind (yields_moreSegments bound further.ready) ?_
        intro names last onward read
        refine .pure onward.ready ?_
        have whole := read.cons named
        rw [dot, kinds]
        refine ⟨whole.names, fun depth positive closed => ?_⟩
        rw [closes_neutral rfl positive] at closed
        exact whole.bare depth positive closed
      · exact .pure ready ⟨by simp, fun _ _ closed => ⟨by simp, closed⟩⟩

theorem Yields.splitAngle {left : Symbol} {token : Token} {others : List Token}
    (ready : state.Ready) (rest : state.rest = token :: others) :
    Yields state (splitAngle left) fun _ later =>
      later.kinds = .symbol left :: others.map Token.kind := by
  unfold Yields Grammar.splitAngle
  rw [rest]
  refine .inr ⟨(), rfl, ⟨⟨ready.closed, ?_, ready.finish⟩, .refl _, rfl, ?_⟩,
    rfl⟩
  · intro other member
    rcases List.mem_cons.mp member with rfl | inRest
    · trivial
    · exact ready.lexed other (rest ▸ List.mem_cons_of_mem _ inRest)
  · simp [rest]

/-- The angle that closes type arguments may be the first of several, of which
the others are left. -/
theorem yields_expectClosingAngle (ready : state.Ready) :
    Yields state expectClosingAngle fun _ later =>
      ∀ depth : Int, 0 < depth → closes (depth + 1) state.kinds = true →
        closes depth later.kinds = true := by
  have plain : Yields state (expectSymbol .greater) fun _ later =>
      ∀ depth : Int, 0 < depth → closes (depth + 1) state.kinds = true →
        closes depth later.kinds = true := by
    refine (Yields.expectSymbol ready).imp ?_
    intro _ later _ kinds depth positive closed
    have single := closes_angles_succ 0 positive later.kinds
    simp only [TypeShape.angles, List.cons_append, List.nil_append] at single
    rwa [kinds, single] at closed
  refine .inspect ?_
  split
  · next mark found =>
      split
      · next left split_ =>
          have kinds := ready.kinds_eq found (by simp)
          unfold State.kinds State.advance at kinds
          cases rest : state.rest with
          | nil =>
              rw [rest] at kinds
              cases kinds
          | cons token others =>
              have whole : token.kind = .symbol mark := by
                rw [rest] at kinds
                exact (List.cons.inj kinds).1
              refine (Yields.splitAngle ready rest).imp ?_
              intro _ later _ kinds depth positive closed
              rw [kinds]
              rw [State.kinds, rest, List.map_cons, whole] at closed
              cases mark <;> cases split_
              · simp [closes, angleChange?] at closed
              · have both := closes_angles_succ 1 positive
                  (others.map Token.kind)
                simp only [TypeShape.angles, List.cons_append,
                  List.nil_append] at both
                rwa [both] at closed
              · have all := closes_angles_succ 2 positive
                  (others.map Token.kind)
                simp only [TypeShape.angles, List.cons_append,
                  List.nil_append] at all
                rwa [all] at closed
      · exact plain
  · exact plain

section

variable {nested : Parse TypeExpr} [Accounts nested]

theorem yields_separatedTypes
    (spec : ∀ {state : State}, state.Ready →
      Yields state nested fun type later =>
        TypeRead type.shape state.kinds later.kinds) :
    ∀ (bound : Nat) {state : State}, state.Ready →
      Yields state (separatedItems nested bound) fun types later =>
        AllTypesRead (types.map TypeExpr.shape) state.kinds later.kinds
  | 0, _, _ => .failHere
  | bound + 1, state, ready => by
      refine .bind (spec ready) fun type later leads read => ?_
      refine .eatSymbol leads.ready (fun second further comma => ?_) fun _ => ?_
      · refine .bind (yields_separatedTypes spec bound further.ready) ?_
        intro types last onward others
        rw [comma] at read
        exact .pure onward.ready (others.cons read)
      · exact .pure leads.ready read.singleton

theorem yields_primaryType
    (spec : ∀ {state : State}, state.Ready →
      Yields state nested fun type later =>
        TypeRead type.shape state.kinds later.kinds)
    (ready : state.Ready) :
    Yields state (primaryType nested) fun type later =>
      PlainTypeRead type.shape state.kinds later.kinds := by
  unfold primaryType
  dsimp only
  refine .inspect (.eatSymbol ready (fun later leads open_ => ?_) fun _ => ?_)
  · refine .bind (spec leads.ready) fun type second further read => ?_
    refine .bind (.expectSymbol further.ready) fun _ last onward close => ?_
    refine .spanFrom fun span => .pure onward.ready ?_
    rw [TypeExpr.shape_withSpan, open_]
    refine ⟨read.grammatical, fun depth positive closed => ?_⟩
    simp [closes, angleChange?] at closed
  · refine .bind (yields_typeSegment ready) ?_
    rintro first later leads ⟨named, kinds⟩
    refine .inspect (.bind (yields_moreSegments _ leads.ready) ?_)
    intro more second further others
    have segments := others.cons named
    rw [← kinds] at segments
    refine .eatSymbol further.ready (fun third onward less => ?_) fun _ => ?_
    · refine .bind (.inspect (yields_separatedTypes spec _ onward.ready)) ?_
      intro types fourth leads arguments
      refine .bind (yields_expectClosingAngle leads.ready) ?_
      intro _ last onward close
      refine .continued rfl onward.ready.leads ?_
      refine .spanFrom fun span =>
        .pure onward.ready ⟨?_, fun depth positive closed => ?_⟩
      · refine ⟨by simp, segments.names, ?_⟩
        simpa using arguments.grammatical
      · obtain ⟨neutral, open_⟩ := segments.bare depth positive closed
        rw [less, closes_open positive] at open_
        obtain ⟨bare, inside⟩ := arguments.bare _ (by omega) open_
        refine ⟨?_, rfl, close depth positive inside⟩
        simpa [TypeExpr.shape, TypeShape.isBare, bare] using neutral
    · refine .continued rfl further.ready.leads ?_
      refine .spanFrom fun span =>
        .pure further.ready ⟨?_, fun depth positive closed => ?_⟩
      · exact ⟨by simp, segments.names, trivial⟩
      · obtain ⟨neutral, onward⟩ := segments.bare depth positive closed
        refine ⟨?_, rfl, onward⟩
        simpa [TypeExpr.shape, TypeShape.isBare, TypeShape.areBare]
          using neutral

end

theorem yields_arraySuffixes {start : Span} :
    ∀ (bound : Nat) {state : State} {type : TypeExpr}
      {before : List TokenKind}, state.Ready →
      PlainTypeRead type.shape before state.kinds →
        Yields state (arraySuffixes start bound type) fun type later =>
          PlainTypeRead type.shape before later.kinds
  | 0, _, _, _, ready, read => .pure ready read
  | bound + 1, state, type, before, ready, read => by
      refine .inspect (.inspect (.ite (fun both => ?_) fun _ => ?_))
      · simp only [Bool.and_eq_true, isSymbol_iff] at both
        refine .advanceTwice ready both.1 nofun both.2 nofun ?_
        intro later leads kinds
        refine yields_arraySuffixes bound leads.ready
          ⟨read.grammatical, fun depth positive closed => ?_⟩
        obtain ⟨bare, notNullable, onward⟩ := read.bare depth positive closed
        rw [kinds, closes_neutral rfl positive,
          closes_neutral rfl positive] at onward
        refine ⟨?_, rfl, onward⟩
        simp [TypeExpr.shape, TypeShape.isBare, bare, notNullable]
      · exact .pure ready read

theorem yields_typeStep {nested : Parse TypeExpr} [Accounts nested]
    (spec : ∀ {state : State}, state.Ready →
      Yields state nested fun type later =>
        TypeRead type.shape state.kinds later.kinds)
    (ready : state.Ready) :
    Yields state (typeStep nested) fun type later =>
      TypeRead type.shape state.kinds later.kinds := by
  refine .inspect (.bind (yields_primaryType spec ready) ?_)
  intro type later leads read
  refine .inspect (.bind (yields_arraySuffixes _ leads.ready read) ?_)
  intro type second further read
  refine .inspect (.inspect (.ite (fun both => ?_) fun other => ?_))
  · simp only [Bool.and_eq_true, isSymbol_iff, isNullWord,
      isKeyword_iff] at both
    refine .advanceTwice further.ready both.1 nofun both.2 nofun ?_
    intro last onward kinds
    refine .spanFrom fun span =>
      .pure onward.ready ⟨read.grammatical, nofun, ?_⟩
    intro depth positive closed
    obtain ⟨bare, _, open_⟩ := read.bare depth positive closed
    rw [kinds, closes_neutral rfl positive,
      closes_neutral rfl positive] at open_
    exact ⟨bare, open_⟩
  · refine .pure further.ready ⟨read.grammatical, fun _ starts => ?_, ?_⟩
    · refine other ?_
      unfold StartsNullable at starts
      split at starts
      · next rest kinds =>
          have first := State.current_eq further.ready
          have next := State.lookAhead_eq further.ready 1
          rw [kinds] at first next
          simp [first, next, TokenKind.isSymbol, TokenKind.isKeyword,
            isNullWord]
      · exact starts.elim
    · intro depth positive closed
      obtain ⟨bare, _, onward⟩ := read.bare depth positive closed
      exact ⟨bare, onward⟩

theorem yields_typeAt :
    ∀ (bound : Nat) {state : State}, state.Ready →
      Yields state (typeAt bound) fun type later =>
        TypeRead type.shape state.kinds later.kinds
  | 0, _, _ => .failHere
  | bound + 1, _, ready => yields_typeStep (yields_typeAt bound) ready

theorem yields_typeExpr (ready : state.Ready) :
    Yields state typeExpr fun type later =>
      TypeRead type.shape state.kinds later.kinds :=
  .inspect (yields_typeAt _ ready)

end

end Grammar

end PluginSurface
