import PluginSurface.Proofs.Grammar.TokenOrder

/-!
# Where parsers place what they read

A production has a start, the span of the token at which it began, and gives its
result the span from there to the token that was consumed last. `Places` says of
a parser that what it reads stands between the two and nests, and that it may go
on from a tidy state. It composes along `>>=`: what is known of earlier results
is known of later states, because tokens are only consumed and nodes only added.
-/

namespace PluginSurface.Grammar

open Parse

variable {Result Next : Type}

/-! ## What is known of a state -/

/-- A span that starts no earlier than a given one and comes no later than the
last consumed token. -/
structure Placed (start span : Span) (state : State) : Prop where
  behind : start.start ≤ span.start
  forward : span.start ≤ span.stop
  passed : span ≤ state.previous

/-- Something that may be known about a state. -/
inductive Fact where
  | placed (span : Span)
  /-- A part nests and stands in front of the state. -/
  | sits (part : Part)
  /-- An expression has a span. -/
  | spans (id : ExprId) (span : Span)
  /-- One expression stops no later than another one. -/
  | stops (first second : ExprId)

def Fact.Holds (start : Span) (state : State) : Fact → Prop
  | .placed span => Placed start span state
  | .sits part =>
      part.Nests state.arena ∧ Placed start (part.span state.arena) state
  | .spans id span =>
      state.arena.Has (.expr id) ∧ (state.arena.expr id).span = span
  | .stops first second =>
      state.arena.Has (.expr first) ∧ state.arena.Has (.expr second) ∧
        (state.arena.expr first).span.stop ≤
          (state.arena.expr second).span.stop

section

variable {start own span : Span} {state later : State} {fact : Fact}

theorem Placed.onto (placed : Placed start span state)
    (onto : state.Onto later) : Placed start span later :=
  { placed with passed := placed.passed.trans onto.previous }

theorem Placed.widen (placed : Placed own span state)
    (le : start.start ≤ own.start) : Placed start span state :=
  { placed with behind := le.trans placed.behind }

/-- What is known stays known. -/
theorem Fact.Holds.onto (holds : fact.Holds start state)
    (onto : state.Onto later) : fact.Holds start later := by
  cases fact with
  | placed span => exact Placed.onto holds onto
  | sits part =>
      obtain ⟨nests, placed⟩ := holds
      refine ⟨nests.extends onto.arena, ?_⟩
      rw [Part.span_extends nests.stored onto.arena]
      exact placed.onto onto
  | spans id span =>
      obtain ⟨stored, same⟩ := holds
      refine ⟨onto.arena.has stored, ?_⟩
      rw [onto.arena.expr_eq stored]
      exact same
  | stops first second =>
      obtain ⟨firstStored, secondStored, le⟩ := holds
      refine ⟨onto.arena.has firstStored, onto.arena.has secondStored, ?_⟩
      rw [onto.arena.expr_eq firstStored, onto.arena.expr_eq secondStored]
      exact le

theorem Fact.Holds.widen (holds : fact.Holds own state)
    (le : start.start ≤ own.start) : fact.Holds start state := by
  cases fact with
  | placed span => exact Placed.widen holds le
  | sits part => exact ⟨holds.1, holds.2.widen le⟩
  | spans id span => exact holds
  | stops first second => exact holds

end

/-- A tidy state at or behind the token at which a production began, with what
is known about it. -/
structure State.Knows (state : State) (start : Span) (facts : List Fact) :
    Prop where
  tidy : state.Tidy
  forward : start.start ≤ start.stop
  begun : start ≤ state.current.span
  facts : ∀ fact ∈ facts, fact.Holds start state

namespace State.Knows

variable {state later : State} {start : Span} {facts : List Fact}

theorem onto (knows : state.Knows start facts) (onto : state.Onto later) :
    later.Knows start facts where
  tidy := onto.tidy
  forward := knows.forward
  begun := knows.begun.trans onto.current
  facts fact member := (knows.facts fact member).onto onto

theorem subset (knows : state.Knows start facts) {fewer : List Fact}
    (known : fewer ⊆ facts) : state.Knows start fewer :=
  { knows with facts := fun fact member => knows.facts fact (known member) }

theorem append (knows : state.Knows start facts) {more : List Fact}
    (holds : ∀ fact ∈ more, fact.Holds start state) :
    state.Knows start (more ++ facts) :=
  { knows with facts := List.forall_mem_append.mpr ⟨holds, knows.facts⟩ }

theorem cons (knows : state.Knows start facts) {fact : Fact}
    (holds : fact.Holds start state) : state.Knows start (fact :: facts) :=
  { knows with facts := List.forall_mem_cons.mpr ⟨holds, knows.facts⟩ }

theorem placed (knows : state.Knows start facts) {span : Span}
    (member : .placed span ∈ facts) : Placed start span state :=
  knows.facts _ member

theorem sits (knows : state.Knows start facts) {part : Part}
    (member : .sits part ∈ facts) :
    part.Nests state.arena ∧ Placed start (part.span state.arena) state :=
  knows.facts _ member

/-- Once a token was consumed, the first one was. -/
theorem started (knows : state.Knows start facts) (onto : state.Onto later)
    (shorter : later.rest.length < state.rest.length) :
    Placed start start later where
  behind := le_refl _
  forward := knows.forward
  passed := knows.begun.trans (onto.taken shorter)

end State.Knows

/-- A production may begin at the token at the front. -/
theorem State.Tidy.begins {state : State} (tidy : state.Tidy) :
    state.Knows state.current.span [] where
  tidy := tidy
  forward := tidy.current_forward
  begun := le_refl _
  facts := List.forall_mem_nil _

/-! ## Parsers -/

/-- From a state of which the facts in `needs` are known, the parser goes on to
a tidy one, and of its result the facts in `holds` are known. -/
def PlacesIn (state : State) (start : Span) (needs : List Fact)
    (parser : Parse Result) (holds : Result → List Fact) : Prop :=
  state.Knows start needs →
    state.Onto (parser state).2 ∧
      ∀ result ∈ (parser state).1, ∀ fact ∈ holds result,
        fact.Holds start (parser state).2

def Places (start : Span) (needs : List Fact) (parser : Parse Result)
    (holds : Result → List Fact) : Prop :=
  ∀ state, PlacesIn state start needs parser holds

/-- Nothing is known of a result. -/
@[simp]
def noFacts (_ : Result) : List Fact :=
  []

/-- A result that is a part, or makes one, sits. -/
@[simp]
def sitsAs (part : Result → Part) (result : Result) : List Fact :=
  [.sits (part result)]

/-- All parts that a result is made of sit. -/
@[simp]
def sitAll (parts : Result → List Part) (result : Result) : List Fact :=
  (parts result).map Fact.sits

/-- A part that may be there sits. -/
@[simp]
def optionally (part : Result → Part) (result : Option Result) : List Fact :=
  result.toList.map (Fact.sits ∘ part)

@[simp]
theorem flatMap_sitsAs (part : Result → Part) (results : List Result) :
    results.flatMap (sitsAs part) = results.map (Fact.sits ∘ part) :=
  List.map_eq_flatMap.symm

theorem flatMap_sitAll (parts : Result → List Part) (results : List Result) :
    results.flatMap (sitAll parts) =
      (results.flatMap parts).map Fact.sits :=
  List.map_flatMap.symm

/-- A parser that takes the token at the front or leaves the state as it is, and
tells which of the two it did. -/
def Eats (eat : Parse Bool) : Prop :=
  ∀ state, eat state = (some false, state) ∨
    eat state = (some true, state.advance) ∧ state.current.kind ≠ .endOfFile

namespace Places

variable {start : Span} {needs : List Fact}

/-! ### Composition -/

/-- What a parser does not need may be known as well. -/
theorem uses {used : List Fact} {parser : Parse Result}
    {holds : Result → List Fact} (places : Places start used parser holds)
    (known : used ⊆ needs) : Places start needs parser holds :=
  fun state knows => places state (knows.subset known)

theorem pure {result : Result} {holds : Result → List Fact}
    (known : holds result ⊆ needs) :
    Places start needs (Pure.pure result) holds := by
  intro state knows
  refine ⟨.refl knows.tidy, ?_⟩
  rintro _ ⟨⟩ fact member
  exact knows.facts fact (known member)

theorem skip {result : Result} : Places start needs (Pure.pure result) noFacts :=
  pure (List.nil_subset _)

theorem empty {holds : Result → List Fact} :
    Places start needs (Pure.pure []) fun results => results.flatMap holds :=
  pure (List.nil_subset _)

/-- The first parser relies on a part of what is known. -/
theorem bindIn {state : State} {used : List Fact} {parser : Parse Result}
    {next : Result → Parse Next} {holds : Result → List Fact}
    {after : Next → List Fact} (first : PlacesIn state start used parser holds)
    (known : used ⊆ needs)
    (second : ∀ result, Places start (holds result ++ needs) (next result)
      after) :
    PlacesIn state start needs (parser >>= next) after := by
  intro knows
  obtain ⟨onto, held⟩ := first (knows.subset known)
  rcases parsed : parser state with ⟨_ | result, middle⟩
  · have unfolded : (parser >>= next) state = (none, middle) := by
      simp only [Bind.bind, parsed]
    rw [parsed] at onto
    rw [unfolded]
    exact ⟨onto, nofun⟩
  · have unfolded : (parser >>= next) state = next result middle := by
      simp only [Bind.bind, parsed]
    rw [parsed] at onto held
    rw [unfolded]
    have knowsMore := (knows.onto onto).append (held result rfl)
    obtain ⟨further, heldAfter⟩ := second result middle knowsMore
    exact ⟨onto.trans further, heldAfter⟩

theorem bindUsing {used : List Fact} {parser : Parse Result}
    {next : Result → Parse Next} {holds : Result → List Fact}
    {after : Next → List Fact} (first : Places start used parser holds)
    (known : used ⊆ needs)
    (second : ∀ result, Places start (holds result ++ needs) (next result)
      after) :
    Places start needs (parser >>= next) after :=
  fun state => bindIn (first state) known second

theorem bind {parser : Parse Result} {next : Result → Parse Next}
    {holds : Result → List Fact} {after : Next → List Fact}
    (first : Places start [] parser holds)
    (second : ∀ result, Places start (holds result ++ needs) (next result)
      after) :
    Places start needs (parser >>= next) after :=
  bindUsing first (List.nil_subset _) second

theorem pureBind {result : Result} {next : Result → Parse Next}
    {after : Next → List Fact} (second : Places start needs (next result) after) :
    Places start needs (Pure.pure result >>= next) after :=
  second

/-- Behind a parser that takes a token, the start is passed. -/
theorem bindTaking {parser : Parse Result} {next : Result → Parse Next}
    {holds : Result → List Fact} {after : Next → List Fact}
    (takes : Takes parser) (first : Places start [] parser holds)
    (second : ∀ result, Places start
      (.placed start :: (holds result ++ needs)) (next result) after) :
    Places start needs (parser >>= next) after := by
  have taking : Places start [] parser fun result =>
      .placed start :: holds result := by
    intro state knows
    obtain ⟨onto, held⟩ := first state knows
    refine ⟨onto, fun result given => List.forall_mem_cons.mpr ⟨?_, ?_⟩⟩
    · have ran : parser state = (some result, (parser state).2) :=
        Prod.ext given rfl
      have shorter := takes state knows.tidy.ends result _ ran
      exact knows.started onto shorter
    · exact held result given
  exact bind taking second

theorem ite {condition : Prop} [Decidable condition]
    {whenTrue whenFalse : Parse Result} {holds : Result → List Fact}
    (left : Places start needs whenTrue holds)
    (right : Places start needs whenFalse holds) :
    Places start needs (if condition then whenTrue else whenFalse) holds := by
  split
  · exact left
  · exact right

/-- A parser of whose result nothing is known. -/
theorem quiet {parser : Parse Result}
    (onto : ∀ state : State, state.Tidy → state.Onto (parser state).2) :
    Places start needs parser noFacts :=
  fun state knows =>
    ⟨onto state knows.tidy, fun _ _ => List.forall_mem_nil _⟩

theorem inspect {view : State → Result} :
    Places start needs (Parse.inspect view) noFacts :=
  quiet fun _ => .refl

/-- What comes after a look at the state may depend on what was seen. -/
theorem look {view : State → Result} {next : Result → Parse Next}
    {after : Next → List Fact}
    (second : ∀ state, PlacesIn state start needs (next (view state)) after) :
    Places start needs (Parse.inspect view >>= next) after :=
  second

theorem report {fault : SyntaxFault} {span : Span} :
    Places start needs (Grammar.report fault span) noFacts :=
  quiet fun _ tidy => tidy.onto_report fault span

theorem fail {fault : TokenKind → SyntaxFault} {holds : Result → List Fact} :
    Places start needs (failHere fault) holds :=
  fun _ knows => ⟨knows.tidy.onto_report _ _, nofun⟩

theorem failAt {fault : SyntaxFault} {span : Span}
    {holds : Result → List Fact} :
    Places start needs (Grammar.failAt fault span) holds :=
  fun _ knows => ⟨knows.tidy.onto_report _ _, nofun⟩

theorem attempt {parser : Parse Result} {holds : Result → List Fact}
    (places : Places start needs parser holds) :
    Places start needs (Parse.attempt parser) fun result =>
      result.toList.flatMap holds := by
  intro state knows
  obtain ⟨onto, held⟩ := places state knows
  refine ⟨onto, ?_⟩
  rintro _ ⟨⟩ fact member
  obtain ⟨result, given, isFact⟩ := List.mem_flatMap.mp member
  exact held result (Option.mem_toList.mp given) fact isFact

theorem discard {parser : Parse Result} {holds : Result → List Fact}
    (places : Places start [] parser holds) :
    Places start needs (Functor.discard parser) noFacts :=
  bind places fun _ => skip

/-! ### Other starts -/

/-- A production that begins at the token at the front. -/
theorem fresh {next : Span → Parse Result} {holds : Result → List Fact}
    (inner : ∀ own, Places own [] (next own) holds) :
    Places start needs (currentSpan >>= next) holds := by
  intro state knows
  obtain ⟨onto, held⟩ := inner _ state knows.tidy.begins
  refine ⟨onto, fun result given fact member => ?_⟩
  exact (held result given fact member).widen knows.begun.1

/-- A production that goes on behind an expression starts where it does. -/
theorem anchored (id : ExprId) {parser : Parse Result}
    {holds : Result → List Fact} (sits : .sits (.expr id) ∈ needs)
    (inner : ∀ own, Places own
      [.sits (.expr id), .spans id own, .placed own] parser holds) :
    Places start needs parser holds := by
  intro state knows
  obtain ⟨nests, placed⟩ := knows.sits sits
  let own := (state.arena.expr id).span
  have itself : Placed own own state :=
    ⟨le_refl _, placed.forward, placed.passed⟩
  have begins : state.Knows own
      [.sits (.expr id), .spans id own, .placed own] := by
    constructor
    case tidy => exact knows.tidy
    case forward => exact placed.forward
    case begun => exact placed.passed.trans knows.tidy.previous_le_current
    case facts =>
      simp only [List.forall_mem_cons]
      exact ⟨⟨nests, itself⟩, ⟨nests.stored, rfl⟩, itself,
        List.forall_mem_nil _⟩
  obtain ⟨onto, held⟩ := inner own state begins
  refine ⟨onto, fun result given fact member => ?_⟩
  exact (held result given fact member).widen placed.behind

/-! ### Spans of expressions -/

theorem spanOf {id : ExprId} {next : Span → Parse Next}
    {after : Next → List Fact} (sits : .sits (.expr id) ∈ needs)
    (second : ∀ span, Places start (.spans id span :: .placed span :: needs)
      (next span) after) :
    Places start needs (Grammar.spanOf id >>= next) after := by
  intro state knows
  obtain ⟨nests, placed⟩ := knows.sits sits
  have isPlaced : Fact.Holds start state (.placed _) := placed
  exact second _ state ((knows.cons isPlaced).cons ⟨nests.stored, rfl⟩)

theorem exprAt {id : ExprId} {next : Located Expr → Parse Next}
    {after : Next → List Fact} (sits : .sits (.expr id) ∈ needs)
    (second : ∀ found, Places start
      (.spans id found.span :: .placed found.span :: needs) (next found)
      after) :
    Places start needs (Grammar.exprAt id >>= next) after := by
  intro state knows
  obtain ⟨nests, placed⟩ := knows.sits sits
  have isPlaced : Fact.Holds start state (.placed _) := placed
  exact second _ state ((knows.cons isPlaced).cons ⟨nests.stored, rfl⟩)

/-- The span of an expression is what it is known to be. -/
theorem knownSpan {id : ExprId} (span : Span) {next : Span → Parse Next}
    {after : Next → List Fact} (spans : .spans id span ∈ needs)
    (second : Places start needs (next span) after) :
    Places start needs (Grammar.spanOf id >>= next) after := by
  intro state knows
  obtain ⟨-, same⟩ : state.arena.Has (.expr id) ∧ _ := knows.facts _ spans
  have places := second state knows
  rw [← same] at places
  exact places

/-- What is read from the token at the front on stops no earlier than what was
read before. -/
theorem bindBehind (first : ExprId) {parser : Parse ExprId}
    {next : ExprId → Parse Next} {after : Next → List Fact}
    (sits : .sits (.expr first) ∈ needs)
    (inner : ∀ own, Places own [] parser (sitsAs Part.expr))
    (second : ∀ id, Places start
      (.stops first id :: .sits (.expr id) :: needs) (next id) after) :
    Places start needs (parser >>= next) after := by
  have behind : Places start needs parser fun id =>
      [.stops first id, .sits (.expr id)] := by
    intro state knows
    obtain ⟨nests, placed⟩ := knows.sits sits
    obtain ⟨onto, held⟩ := inner _ state knows.tidy.begins
    refine ⟨onto, fun id given => ?_⟩
    obtain ⟨innerNests, innerPlaced⟩ :
        Fact.Holds state.current.span (parser state).2 (.sits (.expr id)) :=
      held id given _ List.mem_cons_self
    have order : ((parser state).2.arena.expr first).span.stop ≤
        ((parser state).2.arena.expr id).span.stop := by
      rw [onto.arena.expr_eq nests.stored]
      exact placed.passed.2.trans (knows.tidy.previous_le_front.trans
        (innerPlaced.behind.trans innerPlaced.forward))
    simp only [List.forall_mem_cons]
    exact ⟨⟨onto.arena.has nests.stored, innerNests.stored, order⟩,
      ⟨innerNests, innerPlaced.widen knows.begun.1⟩, List.forall_mem_nil _⟩
  exact bindUsing behind (List.Subset.refl needs) second

/-! ### Tokens that may be there -/

/-- If a token is taken, the start is passed. -/
theorem ifEats {eat : Parse Bool} (eats : Eats eat)
    {whenTaken whenLeft : Parse Result} {holds : Result → List Fact}
    (taken : Places start (.placed start :: needs) whenTaken holds)
    (left : Places start needs whenLeft holds) :
    Places start needs
      (eat >>= fun found => if found then whenTaken else whenLeft) holds := by
  intro state knows
  rcases eats state with same | ⟨same, notEnd⟩
  · have unfolded : (eat >>= fun found =>
        if found then whenTaken else whenLeft) state = whenLeft state := by
      simp only [Bind.bind, same]
      rfl
    rw [unfolded]
    exact left state knows
  · have unfolded : (eat >>= fun found =>
        if found then whenTaken else whenLeft) state =
          whenTaken state.advance := by
      simp only [Bind.bind, same]
      rfl
    rw [unfolded]
    have onto := knows.tidy.onto_advance
    have shorter := State.length_advance_lt knows.tidy.ends notEnd
    have passed : Fact.Holds start state.advance (.placed start) :=
      knows.started onto shorter
    obtain ⟨further, held⟩ := taken _ ((knows.onto onto).cons passed)
    exact ⟨onto.trans further, held⟩

theorem eats {eat : Parse Bool} (eats : Eats eat) :
    Places start needs eat noFacts := by
  refine quiet fun state tidy => ?_
  rcases eats state with same | ⟨same, -⟩
  · rw [same]
    exact .refl tidy
  · rw [same]
    exact tidy.onto_advance

end Places

/-! ### Parts that are put together -/

/-- The facts tell the span of a part. -/
inductive Spanned (facts : List Fact) : Part → Span → Prop where
  | name {name : Name} (sits : .sits (.name name) ∈ facts) :
      Spanned facts (.name name) name.span
  | type {type : TypeExpr} (sits : .sits (.type type) ∈ facts) :
      Spanned facts (.type type) type.span
  | expr {id : ExprId} {span : Span} (sits : .sits (.expr id) ∈ facts)
      (spans : .spans id span ∈ facts) : Spanned facts (.expr id) span

section

variable {start : Span} {needs : List Fact} {state : State}

theorem Spanned.holds {part : Part} {span : Span}
    (spanned : Spanned needs part span) (knows : state.Knows start needs) :
    part.Nests state.arena ∧ part.span state.arena = span ∧
      Placed start span state := by
  cases spanned with
  | name sits => exact ⟨(knows.sits sits).1, rfl, (knows.sits sits).2⟩
  | type sits => exact ⟨(knows.sits sits).1, rfl, (knows.sits sits).2⟩
  | expr sits spans =>
      obtain ⟨nests, placed⟩ := knows.sits sits
      obtain ⟨-, same⟩ : state.arena.Has (.expr _) ∧ _ := knows.facts _ spans
      exact ⟨nests, same, same ▸ placed⟩

theorem Spanned.placed {part : Part} {span : Span}
    (spanned : Spanned needs part span) (state : State)
    (knows : state.Knows start needs) : Placed start span state :=
  (spanned.holds knows).2.2

/-- A span that is put together of two stands where the two stand. -/
theorem Placed.merge {left right : Span} (isLeft : Placed start left state)
    (isRight : Placed start right state) :
    Placed start (left.merge right) state where
  behind := Position.le_earlier isLeft.behind isRight.behind
  forward := (left.merge_contains_left right).1.trans
    (isLeft.forward.trans (left.merge_contains_left right).2)
  passed := ⟨(left.merge_contains_left right).1.trans isLeft.passed.1,
    Position.later_le isLeft.passed.2 isRight.passed.2⟩

/-- The span from the start to the last consumed token. -/
theorem State.Knows.whole (knows : state.Knows start needs)
    (begun : .placed start ∈ needs) :
    Placed start (start.merge state.previous) state := by
  refine (knows.placed begun).merge ?_
  exact ⟨(knows.placed begun).passed.1, knows.tidy.previous, le_refl _⟩

theorem State.Knows.whole_contains (knows : state.Knows start needs)
    {part : Part} (sits : .sits part ∈ needs) :
    (start.merge state.previous).Contains (part.span state.arena) := by
  have placed := (knows.sits sits).2
  exact ⟨(Position.earlier_le_left _ _).trans placed.behind,
    placed.passed.2.trans (Position.right_le_later _ _)⟩

/-- What may be inside a part with a span: it is contained there and nests. -/
def Encloses (state : State) (span : Span) (parts : List Part) : Prop :=
  ∀ inner ∈ parts,
    span.Contains (inner.span state.arena) ∧ inner.Nests state.arena

theorem State.Knows.encloses (knows : state.Knows start needs)
    {parts : List Part} (known : parts.map Fact.sits ⊆ needs) :
    Encloses state (start.merge state.previous) parts := by
  intro inner member
  have sits := known (List.mem_map_of_mem member)
  exact ⟨knows.whole_contains sits, (knows.sits sits).1⟩

/-- The state with a node more is gone on to. -/
theorem onto_addExpr (tidy : state.Tidy) {node : Expr} {span : Span}
    (encloses : Encloses state span node.inside) :
    state.Onto (addExpr node span state).2 where
  tidy := { tidy with
    nested := tidy.nested.addExpr (Arena.nests_addExpr
      (fun inner member => (encloses inner member).1)
      fun inner member => (encloses inner member).2) }
  arena := state.arena.extends_addExpr node span
  previous := le_refl _
  current := le_refl _
  taken shorter := absurd shorter (Nat.lt_irrefl _)

theorem onto_addStmt (tidy : state.Tidy) {node : Stmt} {span : Span}
    (encloses : Encloses state span node.inside) :
    state.Onto (addStmt node span state).2 where
  tidy := { tidy with
    nested := tidy.nested.addStmt (Arena.nests_addStmt
      (fun inner member => (encloses inner member).1)
      fun inner member => (encloses inner member).2) }
  arena := state.arena.extends_addStmt node span
  previous := le_refl _
  current := le_refl _
  taken shorter := absurd shorter (Nat.lt_irrefl _)

namespace Places

theorem addExprIn {node : Expr} {span : Span}
    (placed : state.Knows start needs → Placed start span state)
    (encloses : state.Knows start needs → Encloses state span node.inside) :
    PlacesIn state start needs (addExpr node span) (sitsAs Part.expr) := by
  intro knows
  let id := (state.arena.addExpr node span).1
  have onto := onto_addExpr knows.tidy (encloses knows)
  have nests : (Part.expr id).Nests (addExpr node span state).2.arena :=
    onto.tidy.nested.exprs id (state.arena.has_addExpr node span)
  have isPlaced : Placed start
      ((Part.expr id).span (addExpr node span state).2.arena)
      (addExpr node span state).2 := by
    have added := state.arena.expr_addExpr node span
    have same : (Part.expr id).span (addExpr node span state).2.arena = span :=
      congrArg Located.span added
    rw [same]
    exact (placed knows).onto onto
  refine ⟨onto, ?_⟩
  rintro _ ⟨⟩ fact member
  cases List.mem_singleton.mp member
  exact ⟨nests, isPlaced⟩

theorem addStmtIn {node : Stmt} {span : Span}
    (placed : state.Knows start needs → Placed start span state)
    (encloses : state.Knows start needs → Encloses state span node.inside) :
    PlacesIn state start needs (addStmt node span) (sitsAs Part.stmt) := by
  intro knows
  let id := (state.arena.addStmt node span).1
  have onto := onto_addStmt knows.tidy (encloses knows)
  have nests : (Part.stmt id).Nests (addStmt node span state).2.arena :=
    onto.tidy.nested.stmts id (state.arena.has_addStmt node span)
  have isPlaced : Placed start
      ((Part.stmt id).span (addStmt node span state).2.arena)
      (addStmt node span state).2 := by
    have added := state.arena.stmt_addStmt node span
    have same : (Part.stmt id).span (addStmt node span state).2.arena = span :=
      congrArg Located.span added
    rw [same]
    exact (placed knows).onto onto
  refine ⟨onto, ?_⟩
  rintro _ ⟨⟩ fact member
  cases List.mem_singleton.mp member
  exact ⟨nests, isPlaced⟩

/-- An expression with the span from the start on. -/
theorem wholeExpr {node : Expr} (begun : .placed start ∈ needs)
    (known : node.inside.map Fact.sits ⊆ needs) :
    Places start needs (spanFrom start >>= fun span => addExpr node span)
      (sitsAs Part.expr) :=
  fun state => @addExprIn start needs state node (start.merge state.previous)
    (fun knows => knows.whole begun) fun knows => knows.encloses known

/-- A parser may go on with an expression that has the span from the start
on. -/
theorem wholeExprThen {node : Expr} {next : ExprId → Parse Next}
    {after : Next → List Fact} (begun : .placed start ∈ needs)
    (known : node.inside.map Fact.sits ⊆ needs)
    (second : ∀ id, Places start (.sits (.expr id) :: needs) (next id) after) :
    Places start needs
      (spanFrom start >>= fun span => addExpr node span >>= next) after := by
  have composed : Places start needs
      ((spanFrom start >>= fun span => addExpr node span) >>= next) after :=
    bindUsing (wholeExpr begun known) (List.Subset.refl needs) second
  exact composed

theorem wholeStmt {node : Stmt} (begun : .placed start ∈ needs)
    (known : node.inside.map Fact.sits ⊆ needs) :
    Places start needs (spanFrom start >>= fun span => addStmt node span)
      (sitsAs Part.stmt) :=
  fun state => @addStmtIn start needs state node (start.merge state.previous)
    (fun knows => knows.whole begun) fun knows => knows.encloses known

/-- A part with the span from the start on. -/
theorem wholeOf {build : Span → Result} {part : Result → Part}
    (begun : .placed start ∈ needs)
    (own : ∀ span arena, (part (build span)).span arena = span)
    (stored : ∀ span arena, (part (build span)).IsStored arena)
    (encloses : ∀ span state, state.Knows start needs →
      Encloses state (start.merge state.previous)
        ((part (build span)).inside state.arena)) :
    Places start needs (spanFrom start >>= fun span => Pure.pure (build span))
      (sitsAs part) := by
  intro state knows
  let span := start.merge state.previous
  have enclosed := encloses span state knows
  have same := own span state.arena
  have nests : (part (build span)).Nests state.arena := by
    refine .intro (stored _ _) (fun inner member => ?_) fun inner member =>
      (enclosed inner member).2
    rw [same]
    exact (enclosed inner member).1
  have isPlaced : Placed start ((part (build span)).span state.arena) state := by
    rw [same]
    exact knows.whole begun
  refine ⟨.refl knows.tidy, ?_⟩
  rintro _ ⟨⟩ fact member
  cases List.mem_singleton.mp member
  exact ⟨nests, isPlaced⟩

theorem whole {build : Span → Result} {part : Result → Part}
    (begun : .placed start ∈ needs)
    (own : ∀ span arena, (part (build span)).span arena = span)
    (stored : ∀ span arena, (part (build span)).IsStored arena)
    (known : ∀ span arena,
      ((part (build span)).inside arena).map Fact.sits ⊆ needs) :
    Places start needs (spanFrom start >>= fun span => Pure.pure (build span))
      (sitsAs part) :=
  wholeOf begun own stored fun span state knows =>
    knows.encloses (known span state.arena)

/-- A parser may go on with a part that has the span from the start on. -/
theorem wholeThen (part : Result → Part) {build : Span → Result}
    {next : Result → Parse Next} {after : Next → List Fact}
    (begun : .placed start ∈ needs)
    (own : ∀ span arena, (part (build span)).span arena = span)
    (stored : ∀ span arena, (part (build span)).IsStored arena)
    (known : ∀ span arena,
      ((part (build span)).inside arena).map Fact.sits ⊆ needs)
    (second : ∀ result, Places start (.sits (part result) :: needs)
      (next result) after) :
    Places start needs (spanFrom start >>= fun span => next (build span))
      after := by
  have composed : Places start needs
      ((spanFrom start >>= fun span => Pure.pure (build span)) >>= next)
      after :=
    bindUsing (whole begun own stored known) (List.Subset.refl needs) second
  exact composed

/-- An expression from the start of one span to the stop of another one. -/
theorem joined {node : Expr} {left right : Span}
    (isLeft : ∀ state : State, state.Knows start needs → Placed start left state)
    (isRight : ∀ state : State, state.Knows start needs →
      Placed start right state)
    (known : ∀ inner ∈ node.inside,
      Spanned needs inner left ∨ Spanned needs inner right) :
    Places start needs (addExpr node (left.merge right)) (sitsAs Part.expr) := by
  intro state
  refine addExprIn (fun knows => (isLeft state knows).merge (isRight state knows))
    fun knows inner member => ?_
  rcases known inner member with spanned | spanned
  · obtain ⟨nests, same, -⟩ := spanned.holds knows
    exact ⟨same ▸ left.merge_contains_left right, nests⟩
  · obtain ⟨nests, same, -⟩ := spanned.holds knows
    exact ⟨same ▸ left.merge_contains_right right, nests⟩

/-- An expression of two parts. -/
theorem joinedOf {node : Expr} {first second : Part} {left right : Span}
    (isFirst : Spanned needs first left) (isSecond : Spanned needs second right)
    (inside : node.inside = [first, second]) :
    Places start needs (addExpr node (left.merge right)) (sitsAs Part.expr) := by
  refine joined isFirst.placed isSecond.placed ?_
  rw [inside]
  exact List.forall_mem_cons.mpr
    ⟨.inl isFirst, List.forall_mem_singleton.mpr (.inr isSecond)⟩

/-- An expression of one part, from the start on. -/
theorem joinedStart {node : Expr} {operand : Part} {right : Span}
    (begun : .placed start ∈ needs) (isOperand : Spanned needs operand right)
    (inside : node.inside = [operand]) :
    Places start needs (addExpr node (start.merge right)) (sitsAs Part.expr) := by
  refine joined (fun _ knows => knows.placed begun) isOperand.placed ?_
  rw [inside]
  exact List.forall_mem_singleton.mpr (.inr isOperand)

/-- An expression of two parts with a third one in between, the first of which
starts where the whole does. -/
theorem joinedAround {node : Expr} {first middle last : ExprId} {right : Span}
    (isFirst : Spanned needs (.expr first) start)
    (isMiddle : .sits (.expr middle) ∈ needs)
    (isLast : Spanned needs (.expr last) right)
    (order : .stops middle last ∈ needs)
    (inside : node.inside = [.expr first, .expr middle, .expr last]) :
    Places start needs (addExpr node (start.merge right)) (sitsAs Part.expr) := by
  refine fun state => addExprIn (fun knows => ?isPlaced) fun knows => ?encloses
  case isPlaced =>
    exact (isFirst.placed state knows).merge (isLast.placed state knows)
  case encloses =>
    obtain ⟨firstNests, firstSame, -⟩ := isFirst.holds knows
    obtain ⟨middleNests, middlePlaced⟩ := knows.sits isMiddle
    obtain ⟨lastNests, lastSame, -⟩ := isLast.holds knows
    obtain ⟨-, -, stops⟩ := knows.facts _ order
    have lastContained := start.merge_contains_right right
    rw [← lastSame] at lastContained ⊢
    have contained : (start.merge ((Part.expr last).span state.arena)).Contains
        ((Part.expr middle).span state.arena) :=
      ⟨(Position.earlier_le_left _ _).trans middlePlaced.behind,
        stops.trans lastContained.2⟩
    rw [inside]
    simp only [Encloses, List.forall_mem_cons]
    refine ⟨⟨?_, firstNests⟩, ⟨contained, middleNests⟩,
      ⟨lastContained, lastNests⟩, List.forall_mem_nil _⟩
    rw [firstSame]
    exact start.merge_contains_left _

end Places

end

end PluginSurface.Grammar
