import PluginSurface.Proofs.Grammar.Yields

/-!
# What parsers give

A parser that meets the tokens it calls for gives a result and reports no fault.
What is known of the tokens that are left is enough to tell how it goes on.
-/

namespace PluginSurface.Grammar

variable {Result Next : Type}

/-! ## States -/

/-- A state that a parser leads to without reporting a fault. -/
structure State.Reaches (state later : State) : Prop
    extends State.Leads state later where
  silent : later.diagnostics = state.diagnostics

theorem State.Ready.reaches {state : State} (ready : state.Ready) :
    state.Reaches state :=
  ⟨ready.leads, rfl⟩

theorem State.Reaches.trans {state later last : State}
    (first : state.Reaches later) (second : later.Reaches last) :
    state.Reaches last :=
  ⟨first.toLeads.trans second.toLeads, second.silent.trans first.silent⟩

theorem State.Ready.reaches_advance {state : State} (ready : state.Ready) :
    state.Reaches state.advance := by
  refine ⟨ready.advance, ?_⟩
  unfold State.advance
  split <;> rfl

section

variable {state : State} {kind : TokenKind} {rest : List TokenKind}

theorem State.Ready.current_kind (ready : state.Ready)
    (kinds : state.kinds = kind :: rest) : state.current.kind = kind := by
  rw [State.current_eq ready, kinds]
  rfl

theorem State.kinds_advance (kinds : state.kinds = kind :: rest) :
    state.advance.kinds = rest := by
  unfold State.kinds State.advance at *
  cases tokens : state.rest with
  | nil =>
      rw [tokens] at kinds
      cases kinds
  | cons token others =>
      rw [tokens, List.map_cons] at kinds
      exact (List.cons.inj kinds).2

theorem State.Ready.lookAhead_one {next : TokenKind} (ready : state.Ready)
    (kinds : state.kinds = kind :: next :: rest) :
    state.lookAhead 1 = next := by
  rw [State.lookAhead_eq ready, kinds]
  rfl

theorem State.Ready.isSymbol_current (ready : state.Ready) (mark : Symbol) :
    state.current.kind.isSymbol mark = true ↔
      state.kinds.head? = some (.symbol mark) := by
  rw [isSymbol_iff, State.current_eq ready]
  cases state.kinds with
  | nil => simp
  | cons kind rest => simp

theorem State.Ready.isKeyword_current (ready : state.Ready) (word : Keyword) :
    state.current.kind.isKeyword word = true ↔
      state.kinds.head? = some (.keyword word) := by
  rw [isKeyword_iff, State.current_eq ready]
  cases state.kinds with
  | nil => simp
  | cons kind rest => simp

end

/-! ## Composition -/

/-- A parser gives a result, of which something holds, and reports no fault. -/
def Gives (state : State) (parser : Parse Result)
    (holds : Result → State → Prop) : Prop :=
  ∃ result later, parser state = (some result, later) ∧
    state.Reaches later ∧ holds result later

namespace Gives

variable {state : State} {parser : Parse Result} {next : Result → Parse Next}
  {holds : Result → State → Prop} {after : Next → State → Prop}
  {kind : TokenKind} {rest : List TokenKind}

theorem pure {result : Result} (ready : state.Ready)
    (known : holds result state) :
    Gives state (Pure.pure result) holds :=
  ⟨result, state, rfl, ready.reaches, known⟩

theorem imp (gives : Gives state parser holds)
    {weaker : Result → State → Prop}
    (implies : ∀ result later, state.Reaches later → holds result later →
      weaker result later) : Gives state parser weaker := by
  obtain ⟨result, later, given, reaches, known⟩ := gives
  exact ⟨result, later, given, reaches, implies result later reaches known⟩

/-- A parser goes on in a state that it reaches. -/
theorem continued {later : State} {next whole : Parse Next}
    (same : whole state = next later) (reaches : state.Reaches later)
    (gives : Gives later next after) : Gives state whole after := by
  obtain ⟨result, last, given, further, known⟩ := gives
  exact ⟨result, last, same.trans given, reaches.trans further, known⟩

theorem bind_eq {result : Result} {later : State}
    (given : parser state = (some result, later)) :
    (parser >>= next) state = next result later := by
  simp only [Bind.bind, given]

theorem bind (first : Gives state parser holds)
    (second : ∀ result later, state.Reaches later → holds result later →
      Gives later (next result) after) :
    Gives state (parser >>= next) after := by
  obtain ⟨result, later, given, reaches, known⟩ := first
  exact continued (bind_eq given) reaches (second result later reaches known)

theorem inspect {view : State → Result}
    (second : Gives state (next (view state)) after) :
    Gives state (Parse.inspect view >>= next) after :=
  second

theorem attempt (gives : Gives state parser holds) :
    Gives state (Parse.attempt parser) fun result later =>
      ∃ found, result = some found ∧ holds found later := by
  obtain ⟨result, later, given, reaches, known⟩ := gives
  refine ⟨some result, later, ?_, reaches, result, rfl, known⟩
  simp only [Parse.attempt, given]

theorem isTrue {condition : Prop} [Decidable condition]
    {whenTrue whenFalse : Parse Result} (holds_ : condition)
    (gives : Gives state whenTrue holds) :
    Gives state (if condition then whenTrue else whenFalse) holds := by
  rw [if_pos holds_]
  exact gives

theorem isFalse {condition : Prop} [Decidable condition]
    {whenTrue whenFalse : Parse Result} (fails : ¬ condition)
    (gives : Gives state whenFalse holds) :
    Gives state (if condition then whenTrue else whenFalse) holds := by
  rw [if_neg fails]
  exact gives

theorem spanFrom {start : Span} {next : Span → Parse Next}
    (second : ∀ span, Gives state (next span) after) :
    Gives state (Grammar.spanFrom start >>= next) after :=
  second _

theorem addExpr {node : Expr} {span : Span} {tree : ExprTree}
    (ready : state.Ready) (depicts : state.arena.Depicts node tree) :
    Gives state (Grammar.addExpr node span) fun id later =>
      later.arena.Depicts id tree ∧ later.kinds = state.kinds := by
  have children : ∀ child ∈ node.children, state.arena.Has (.expr child) :=
    fun child member => depicts.stored _ (List.mem_map_of_mem member)
  refine ⟨_, _, rfl, ⟨⟨⟨?_, ready.lexed, ready.finish⟩, ?_, rfl,
    Nat.le_refl _⟩, rfl⟩, ?_, rfl⟩
  · exact ready.closed.addExpr children span
  · exact state.arena.extends_addExpr node span
  · exact ready.closed.depicts_addExpr depicts span

theorem addStmt {node : Stmt} {span : Span} {tree : StmtTree}
    (ready : state.Ready) (depicts : state.arena.Depicts node tree) :
    Gives state (Grammar.addStmt node span) fun id later =>
      later.arena.Depicts id tree ∧ later.kinds = state.kinds := by
  refine ⟨_, _, rfl, ⟨⟨⟨?_, ready.lexed, ready.finish⟩, ?_, rfl,
    Nat.le_refl _⟩, rfl⟩, ?_, rfl⟩
  · exact ready.closed.addStmt depicts.stored span
  · exact state.arena.extends_addStmt node span
  · exact ready.closed.depicts_addStmt depicts span

/-! ## Tokens -/

theorem current {next : TokenKind → Parse Next} (ready : state.Ready)
    (kinds : state.kinds = kind :: rest)
    (second : Gives state (next kind) after) :
    Gives state (currentKind >>= next) after := by
  refine .inspect ?_
  rw [ready.current_kind kinds]
  exact second

theorem advance {next : Unit → Parse Next} (ready : state.Ready)
    (kinds : state.kinds = kind :: rest)
    (second : ∀ later, state.Reaches later → later.kinds = rest →
      Gives later (next ()) after) :
    Gives state (Grammar.advance >>= next) after := by
  have unfolded : (Grammar.advance >>= next) state = next () state.advance :=
    rfl
  exact continued unfolded ready.reaches_advance
    (second _ ready.reaches_advance (State.kinds_advance kinds))

theorem eatSymbol {mark : Symbol} {next : Bool → Parse Next}
    (ready : state.Ready) (kinds : state.kinds = .symbol mark :: rest)
    (second : ∀ later, state.Reaches later → later.kinds = rest →
      Gives later (next true) after) :
    Gives state (Grammar.eatSymbol mark >>= next) after := by
  have found := (ready.isSymbol_current mark).mpr (by rw [kinds]; rfl)
  have unfolded : (Grammar.eatSymbol mark >>= next) state =
      next true state.advance := by
    simp [Grammar.eatSymbol, atSymbol, Parse.inspect, Bind.bind, found,
      Grammar.advance, Pure.pure]
  exact continued unfolded ready.reaches_advance
    (second _ ready.reaches_advance (State.kinds_advance kinds))

theorem leaveSymbol {mark : Symbol} {next : Bool → Parse Next}
    (ready : state.Ready) (other : state.kinds.head? ≠ some (.symbol mark))
    (second : Gives state (next false) after) :
    Gives state (Grammar.eatSymbol mark >>= next) after := by
  have missing := mt (ready.isSymbol_current mark).mp other
  have unfolded : (Grammar.eatSymbol mark >>= next) state =
      next false state := by
    simp [Grammar.eatSymbol, atSymbol, Parse.inspect, Bind.bind, missing,
      Pure.pure]
  exact continued unfolded ready.reaches second

theorem eatKeyword {word : Keyword} {next : Bool → Parse Next}
    (ready : state.Ready) (kinds : state.kinds = .keyword word :: rest)
    (second : ∀ later, state.Reaches later → later.kinds = rest →
      Gives later (next true) after) :
    Gives state (Grammar.eatKeyword word >>= next) after := by
  have found := (ready.isKeyword_current word).mpr (by rw [kinds]; rfl)
  have unfolded : (Grammar.eatKeyword word >>= next) state =
      next true state.advance := by
    simp [Grammar.eatKeyword, atKeyword, Parse.inspect, Bind.bind, found,
      Grammar.advance, Pure.pure]
  exact continued unfolded ready.reaches_advance
    (second _ ready.reaches_advance (State.kinds_advance kinds))

theorem leaveKeyword {word : Keyword} {next : Bool → Parse Next}
    (ready : state.Ready) (other : state.kinds.head? ≠ some (.keyword word))
    (second : Gives state (next false) after) :
    Gives state (Grammar.eatKeyword word >>= next) after := by
  have missing := mt (ready.isKeyword_current word).mp other
  have unfolded : (Grammar.eatKeyword word >>= next) state =
      next false state := by
    simp [Grammar.eatKeyword, atKeyword, Parse.inspect, Bind.bind, missing,
      Pure.pure]
  exact continued unfolded ready.reaches second

theorem expectSymbol {mark : Symbol} (ready : state.Ready)
    (kinds : state.kinds = .symbol mark :: rest) :
    Gives state (Grammar.expectSymbol mark) fun _ later =>
      later.kinds = rest := by
  have found := (ready.isSymbol_current mark).mpr (by rw [kinds]; rfl)
  exact .inspect (.isTrue found ⟨(), _, rfl, ready.reaches_advance,
    State.kinds_advance kinds⟩)

theorem expectKeyword {word : Keyword} (ready : state.Ready)
    (kinds : state.kinds = .keyword word :: rest) :
    Gives state (Grammar.expectKeyword word) fun _ later =>
      later.kinds = rest := by
  have found := (ready.isKeyword_current word).mpr (by rw [kinds]; rfl)
  exact .inspect (.isTrue found ⟨(), _, rfl, ready.reaches_advance,
    State.kinds_advance kinds⟩)

end Gives

/-! ## Names -/

section

variable {state : State} {kind : TokenKind} {rest : List TokenKind}

theorem gives_takeName {text : String} (ready : state.Ready)
    (kinds : state.kinds = kind :: rest) :
    Gives state (takeName text) fun name later =>
      name.text = text ∧ later.kinds = rest :=
  .inspect (.advance ready kinds fun _ reaches onward =>
    .pure reaches.ready ⟨rfl, onward⟩)

/-- A word is a reserved word or the name it looks like. -/
theorem ofWord_cases (text : String) :
    (∃ word, Keyword.ofText? text = some word ∧ word.text = text ∧
      TokenKind.ofWord text = .keyword word) ∨
      Keyword.ofText? text = none ∧
        TokenKind.ofWord text = .identifier text := by
  cases found : Keyword.ofText? text with
  | some word =>
      have same := List.find?_some found
      exact .inl ⟨word, rfl, beq_iff_eq.mp same, by rw [TokenKind.ofWord, found]⟩
  | none => exact .inr ⟨rfl, by rw [TokenKind.ofWord, found]⟩

theorem gives_expectIdentifier {text : String} (ready : state.Ready)
    (named : isName text = true)
    (kinds : state.kinds = .ofWord text :: rest) :
    Gives state expectIdentifier fun name later =>
      name.text = text ∧ later.kinds = rest := by
  rcases ofWord_cases text with ⟨word, found, same, reserved⟩ | ⟨_, plain⟩
  · rw [reserved] at kinds
    have contextual : word.isContextual = true := by
      simpa [isName, found] using (Bool.and_eq_true_iff.mp named).2
    refine .current ready kinds (.isTrue contextual ?_)
    rw [same]
    exact gives_takeName ready kinds
  · rw [plain] at kinds
    exact .current ready kinds (gives_takeName ready kinds)

theorem gives_expectPropertyName {text : String} (ready : state.Ready)
    (kinds : state.kinds = .ofWord text :: rest) :
    Gives state expectPropertyName fun name later =>
      name.text = text ∧ later.kinds = rest := by
  rcases ofWord_cases text with ⟨word, _, same, reserved⟩ | ⟨_, plain⟩
  · rw [reserved] at kinds
    refine .current ready kinds ?_
    rw [← same]
    exact gives_takeName ready kinds
  · rw [plain] at kinds
    exact .current ready kinds (gives_takeName ready kinds)

theorem gives_expectString {content : String} (ready : state.Ready)
    (kinds : state.kinds = .string content :: rest) :
    Gives state expectString fun result later =>
      result = content ∧ later.kinds = rest :=
  .current ready kinds (.advance ready kinds fun _ reaches onward =>
    .pure reaches.ready ⟨rfl, onward⟩)

end

/-! ## Lists -/

section

variable {Part Node Tree : Type} [Depicted Node Tree]

/-- What a parser is to know of the tokens of a part, in front of others, to
give its tree. -/
structure PartSpec (Part Node Tree : Type) [Depicted Node Tree] where
  item : Parse Node
  kinds : Part → List TokenKind
  tree : Part → Tree
  depth : Nat
  /-- The parser need only read so many tokens. -/
  limit : Nat

namespace PartSpec

variable (spec : PartSpec Part Node Tree)

def Reads (part : Part) (rest : List TokenKind) : Prop :=
  ∀ ⦃state : State⦄, state.Ready → state.depth = spec.depth →
    state.kinds = spec.kinds part ++ rest → state.kinds.length < spec.limit →
      Gives state spec.item fun node later =>
        later.arena.Depicts node (spec.tree part) ∧ later.kinds = rest

def ReadsAll : List Part → List TokenKind → Prop
  | [], _ => True
  | part :: others, after =>
      spec.Reads part (followed (others.map spec.kinds) after) ∧
        ReadsAll others after

/-- A part starts with a token that ends no list. -/
def Opens (closing : Symbol) (part : Part) : Prop :=
  ∃ kind ∈ (spec.kinds part).head?,
    kind ≠ .symbol closing ∧ kind ≠ .endOfFile

theorem readsAll_of_forall {parts : List Part} {closing : Symbol}
    {after : List TokenKind}
    (reads : ∀ part ∈ parts, ∀ rest : List TokenKind,
      rest.head? = some .comma ∨ rest.head? = some (.symbol closing) →
        spec.Reads part rest) :
    spec.ReadsAll parts (.symbol closing :: after) := by
  induction parts with
  | nil => trivial
  | cons part others inductionHypothesis =>
      obtain ⟨first, later⟩ := List.forall_mem_cons.mp reads
      refine ⟨first _ ?_, inductionHypothesis later⟩
      cases others with
      | nil => exact .inr rfl
      | cons next others => exact .inl rfl

variable {spec}

theorem gives_itemsUntil {parts : List Part} {closing : Symbol}
    {rest : List TokenKind} (notComma : closing ≠ .comma)
    (opens : ∀ part ∈ parts, spec.Opens closing part)
    (reads : spec.ReadsAll parts (.symbol closing :: rest)) {bound : Nat}
    {state : State} (ready : state.Ready) (same : state.depth = spec.depth)
    (kinds : state.kinds =
      joinedKinds (parts.map spec.kinds) ++ .symbol closing :: rest)
    (enough : state.kinds.length < spec.limit)
    (more : parts.length < bound) :
    Gives state (itemsUntil closing spec.item bound) fun nodes later =>
      later.arena.Depicts nodes (parts.map spec.tree) ∧
        later.kinds = .symbol closing :: rest := by
  obtain ⟨bound, rfl⟩ := Nat.exists_eq_succ_of_ne_zero (Nat.ne_zero_of_lt more)
  induction parts generalizing bound state with
  | nil =>
      refine .inspect (.inspect (.isTrue ?_ (.pure ready ⟨.nil, kinds⟩)))
      rw [ready.current_kind kinds]
      simp [TokenKind.isSymbol]
  | cons part others inductionHypothesis =>
      obtain ⟨opened, othersOpen⟩ := List.forall_mem_cons.mp opens
      rw [List.map_cons, joinedKinds_cons_append] at kinds
      obtain ⟨kind, head, notClosing, notEnd⟩ := opened
      have first : state.current.kind = kind := by
        rw [State.current_eq ready, kinds, List.head?_append,
          Option.mem_def.mp head]
        rfl
      refine .inspect (.inspect (.isFalse ?_ ?_))
      · rw [first]
        cases kind <;>
          simp_all [TokenKind.isSymbol, TokenKind.isEndOfFile]
      refine .bind (reads.1 ready same kinds enough) ?_
      rintro node later reaches ⟨depicts, onward⟩
      cases others with
      | nil =>
          refine .leaveSymbol reaches.ready ?_
            (.pure reaches.ready ⟨depicts.cons .nil, onward⟩)
          rw [onward]
          simpa [followed] using notComma
      | cons next others =>
          refine .eatSymbol reaches.ready onward fun second further comma => ?_
          have fewer : second.kinds.length < spec.limit := by
            have shorter := (reaches.trans further).shorter
            rw [State.kinds_length] at enough ⊢
            omega
          have sameAfter : second.depth = spec.depth :=
            further.depth.trans (reaches.depth.trans same)
          obtain ⟨bound, rfl⟩ := Nat.exists_eq_succ_of_ne_zero
            (Nat.ne_zero_of_lt (Nat.lt_of_succ_lt_succ more))
          refine .bind (inductionHypothesis othersOpen reads.2 further.ready
            sameAfter comma fewer bound (Nat.lt_of_succ_lt_succ more)) ?_
          rintro nodes last final ⟨othersDepict, ended⟩
          have stored := depicts.extends
            (further.toLeads.trans final.toLeads).extended reaches.ready.closed
          exact .pure final.ready ⟨stored.cons othersDepict, ended⟩

theorem length_le_joinedKinds {parts : List (List TokenKind)}
    (opens : ∀ part ∈ parts, part ≠ []) :
    parts.length ≤ (joinedKinds parts).length := by
  induction parts using joinedKinds.induct with
  | case1 => exact Nat.le_refl _
  | case2 part =>
      exact List.length_pos_iff.mpr (opens part (List.mem_singleton_self _))
  | case3 part next rest inductionHypothesis =>
      obtain ⟨first, later⟩ := List.forall_mem_cons.mp opens
      have others := inductionHypothesis later
      simp only [joinedKinds, List.length_cons, List.length_append] at others ⊢
      omega

variable (spec)

theorem gives_listUntil {parts : List Part} {closing : Symbol}
    {rest : List TokenKind} (notComma : closing ≠ .comma)
    (opens : ∀ part ∈ parts, spec.Opens closing part)
    (reads : spec.ReadsAll parts (.symbol closing :: rest))
    {state : State} (ready : state.Ready) (same : state.depth = spec.depth)
    (kinds : state.kinds =
      joinedKinds (parts.map spec.kinds) ++ .symbol closing :: rest)
    (enough : state.kinds.length < spec.limit) :
    Gives state (listUntil closing spec.item) fun nodes later =>
      later.arena.Depicts nodes (parts.map spec.tree) ∧ later.kinds = rest := by
  have some_kind : ∀ part ∈ parts.map spec.kinds, part ≠ [] := by
    intro part member
    obtain ⟨original, inParts, rfl⟩ := List.mem_map.mp member
    obtain ⟨kind, head, _⟩ := opens original inParts
    exact List.ne_nil_of_mem (List.mem_of_mem_head? head)
  have bound : parts.length < state.rest.length + 1 := by
    have shorter := length_le_joinedKinds some_kind
    rw [List.length_map] at shorter
    rw [← State.kinds_length, kinds, List.length_append]
    omega
  refine .inspect (.bind (gives_itemsUntil notComma opens reads ready same kinds
    enough bound) ?_)
  rintro nodes later reaches ⟨depicts, onward⟩
  refine .bind (.expectSymbol reaches.ready onward) ?_
  intro _ last further ended
  exact .pure further.ready
    ⟨depicts.extends further.extended reaches.ready.closed, ended⟩

end PartSpec

end

end PluginSurface.Grammar
