import PluginSurface.Proofs.Grammar.Composition
import PluginSurface.Proofs.Grammar.Faults
import PluginSurface.Proofs.Syntax.Depiction

/-!
# What parsers yield

A parser that reports no fault gives a result, and something is known of the
result and of the state it leaves. This composes along `>>=`, because a fault
that a step reports is still there at the end.
-/

namespace PluginSurface.Grammar

variable {Result Next : Type}

/-! ## States -/

namespace State

/-- What the tokens are that are left. -/
def kinds (state : State) : List TokenKind :=
  state.rest.map Token.kind

/-- What holds before and after every step: the arena is closed, and the tokens
are those of a text without faults. -/
structure Ready (state : State) : Prop where
  closed : state.arena.Closed
  lexed : ∀ token ∈ state.rest, token.kind.IsLexed
  finish : state.finish.kind = .endOfFile

/-- A state that a parser leads to: nodes are added, and tokens are used up. -/
structure Leads (state later : State) : Prop where
  ready : later.Ready
  extended : state.arena.Extends later.arena
  depth : later.depth = state.depth
  shorter : later.rest.length ≤ state.rest.length

variable {state later : State}

theorem Ready.leads (ready : state.Ready) : state.Leads state :=
  ⟨ready, .refl _, rfl, Nat.le_refl _⟩

theorem Leads.trans {last : State} (first : state.Leads later)
    (second : later.Leads last) : state.Leads last where
  ready := second.ready
  extended := first.extended.trans second.extended
  depth := second.depth.trans first.depth
  shorter := Nat.le_trans second.shorter first.shorter

/-- A token other than the end of the file stands at the front of those that
are left. -/
theorem Ready.kinds_eq (ready : state.Ready) {kind : TokenKind}
    (found : state.current.kind = kind) (notEnd : kind ≠ .endOfFile) :
    state.kinds = kind :: state.advance.kinds := by
  unfold kinds advance
  cases rest : state.rest with
  | nil =>
      rw [current, rest, List.head?_nil, Option.getD_none, ready.finish] at found
      exact absurd found.symm notEnd
  | cons token others =>
      rw [current, rest, List.head?_cons, Option.getD_some] at found
      rw [List.map_cons, found]

theorem Ready.advance (ready : state.Ready) : state.Leads state.advance := by
  unfold State.advance
  cases rest : state.rest with
  | nil => exact ready.leads
  | cons token others =>
      refine ⟨⟨ready.closed, fun token member => ?_, ready.finish⟩, .refl _,
        rfl, ?_⟩
      · exact ready.lexed token (rest ▸ List.mem_cons_of_mem _ member)
      · simp [rest]

theorem Ready.isLexed (ready : state.Ready) : state.current.kind.IsLexed := by
  unfold current
  cases rest : state.rest with
  | nil => simp [ready.finish, TokenKind.IsLexed]
  | cons token others =>
      exact ready.lexed token (rest ▸ List.mem_cons_self)

theorem kinds_length : state.kinds.length = state.rest.length :=
  List.length_map _

theorem current_eq (ready : state.Ready) :
    state.current.kind = state.kinds.head?.getD .endOfFile := by
  unfold current kinds
  cases state.rest with
  | nil => exact ready.finish
  | cons token others => rfl

theorem lookAhead_eq (ready : state.Ready) (distance : Nat) :
    state.lookAhead distance =
      (state.kinds[distance]?).getD .endOfFile := by
  unfold lookAhead kinds
  rw [List.getElem?_map]
  cases state.rest[distance]? with
  | none => exact ready.finish
  | some token => rfl

end State

/-! ## Composition -/

/-- Unless a fault is reported, a parser gives a result of which something
holds. -/
def Yields (state : State) (parser : Parse Result)
    (after : Result → State → Prop) : Prop :=
  (parser state).2.Faulty ∨
    ∃ result, (parser state).1 = some result ∧
      state.Leads (parser state).2 ∧ after result (parser state).2

namespace Yields

variable {state : State} {parser : Parse Result} {next : Result → Parse Next}
  {holds : Result → State → Prop} {after : Next → State → Prop}

theorem pure {result : Result} (ready : state.Ready)
    (known : holds result state) :
    Yields state (Pure.pure result) holds :=
  .inr ⟨result, rfl, ready.leads, known⟩

theorem failHere {fault : TokenKind → SyntaxFault} :
    Yields state (failHere fault : Parse Result) holds :=
  .inl (state.faulty_report _ _)

theorem failAt {fault : SyntaxFault} {span : Span} :
    Yields state (failAt fault span : Parse Result) holds :=
  .inl (state.faulty_report _ _)

theorem imp (yields : Yields state parser holds)
    {weaker : Result → State → Prop}
    (implies : ∀ result later, state.Leads later → holds result later →
      weaker result later) : Yields state parser weaker := by
  rcases yields with isFaulty | ⟨result, given, leads, known⟩
  · exact .inl isFaulty
  · exact .inr ⟨result, given, leads, implies result _ leads known⟩

/-- A parser goes on in a state that it leads to. -/
theorem continued {later : State} {next : Parse Next} {whole : Parse Next}
    (same : whole state = next later) (leads : state.Leads later)
    (yields : Yields later next after) : Yields state whole after := by
  unfold Yields
  rw [same]
  rcases yields with isFaulty | ⟨result, given, further, known⟩
  · exact .inl isFaulty
  · exact .inr ⟨result, given, leads.trans further, known⟩

theorem bind [keeps : ∀ result, Keeps (next result)]
    (first : Yields state parser holds)
    (second : ∀ result later, state.Leads later → holds result later →
      Yields later (next result) after) :
    Yields state (parser >>= next) after := by
  rcases parsed : parser state with ⟨result, later⟩
  rcases first with isFaulty | ⟨found, given, leads, known⟩
  · rw [parsed] at isFaulty
    cases result with
    | none =>
        refine .inl ?_
        simp only [Bind.bind, parsed]
        exact isFaulty
    | some result =>
        refine .inl ?_
        simp only [Bind.bind, parsed]
        exact (keeps result).keeps later isFaulty
  · rw [parsed] at given leads known
    cases given
    have unfolded : (parser >>= next) state = next found later := by
      simp only [Bind.bind, parsed]
    exact continued unfolded leads (second found later leads known)

theorem inspect {view : State → Result}
    (second : Yields state (next (view state)) after) :
    Yields state (Parse.inspect view >>= next) after :=
  second

theorem attempt (yields : Yields state parser holds) :
    Yields state (Parse.attempt parser) fun result later =>
      ∃ found, result = some found ∧ holds found later := by
  rcases yields with isFaulty | ⟨result, given, leads, known⟩
  · exact .inl isFaulty
  · exact .inr ⟨some result, congrArg some given, leads, result, rfl, known⟩

theorem discard (yields : Yields state parser holds) :
    Yields state (Functor.discard parser) fun _ later =>
      ∃ result, holds result later := by
  change Yields state (parser >>= fun _ => Pure.pure ()) _
  exact bind yields fun result _ leads known =>
    .pure leads.ready ⟨result, known⟩

theorem ite {condition : Prop} [Decidable condition]
    {whenTrue whenFalse : Parse Result}
    (left : condition → Yields state whenTrue holds)
    (right : ¬ condition → Yields state whenFalse holds) :
    Yields state (if condition then whenTrue else whenFalse) holds := by
  split
  · exact left ‹_›
  · exact right ‹_›

theorem spanFrom {start : Span} {next : Span → Parse Next}
    (second : ∀ span, Yields state (next span) after) :
    Yields state (Grammar.spanFrom start >>= next) after :=
  second _

theorem addExpr {node : Expr} {span : Span} {tree : ExprTree}
    (ready : state.Ready) (depicts : state.arena.Depicts node tree) :
    Yields state (Grammar.addExpr node span) fun id later =>
      later.arena.Depicts id tree ∧ later.kinds = state.kinds := by
  have children : ∀ child ∈ node.children, state.arena.Has (.expr child) :=
    fun child member => depicts.stored _ (List.mem_map_of_mem member)
  refine .inr ⟨_, rfl, ⟨⟨?_, ready.lexed, ready.finish⟩, ?_, rfl,
    Nat.le_refl _⟩, ?_, rfl⟩
  · exact ready.closed.addExpr children span
  · exact state.arena.extends_addExpr node span
  · exact ready.closed.depicts_addExpr depicts span

theorem addStmt {node : Stmt} {span : Span} {tree : StmtTree}
    (ready : state.Ready) (depicts : state.arena.Depicts node tree) :
    Yields state (Grammar.addStmt node span) fun id later =>
      later.arena.Depicts id tree ∧ later.kinds = state.kinds := by
  refine .inr ⟨_, rfl, ⟨⟨?_, ready.lexed, ready.finish⟩, ?_, rfl,
    Nat.le_refl _⟩, ?_, rfl⟩
  · exact ready.closed.addStmt depicts.stored span
  · exact state.arena.extends_addStmt node span
  · exact ready.closed.depicts_addStmt depicts span

/-! ## Tokens -/

theorem advance {next : Unit → Parse Next} {kind : TokenKind}
    (ready : state.Ready) (found : state.current.kind = kind)
    (notEnd : kind ≠ .endOfFile)
    (second : ∀ later, state.Leads later →
      state.kinds = kind :: later.kinds → Yields later (next ()) after) :
    Yields state (Grammar.advance >>= next) after := by
  have unfolded : (Grammar.advance >>= next) state = next () state.advance :=
    rfl
  exact continued unfolded ready.advance
    (second _ ready.advance (ready.kinds_eq found notEnd))

theorem eatSymbol {mark : Symbol} {next : Bool → Parse Next}
    (ready : state.Ready)
    (eaten : ∀ later, state.Leads later →
      state.kinds = .symbol mark :: later.kinds →
        Yields later (next true) after)
    (other : state.current.kind ≠ .symbol mark →
      Yields state (next false) after) :
    Yields state (Grammar.eatSymbol mark >>= next) after := by
  cases found : state.current.kind.isSymbol mark with
  | true =>
      have unfolded : (Grammar.eatSymbol mark >>= next) state =
          next true state.advance := by
        simp [Grammar.eatSymbol, atSymbol, Parse.inspect, Bind.bind, found,
          Grammar.advance, Pure.pure]
      exact continued unfolded ready.advance (eaten _ ready.advance
        (ready.kinds_eq (isSymbol_iff.mp found) (by simp)))
  | false =>
      have unfolded : (Grammar.eatSymbol mark >>= next) state =
          next false state := by
        simp [Grammar.eatSymbol, atSymbol, Parse.inspect, Bind.bind, found,
          Pure.pure]
      refine continued unfolded ready.leads (other fun same => ?_)
      rw [isSymbol_iff.mpr same] at found
      cases found

theorem eatKeyword {word : Keyword} {next : Bool → Parse Next}
    (ready : state.Ready)
    (eaten : ∀ later, state.Leads later →
      state.kinds = .keyword word :: later.kinds →
        Yields later (next true) after)
    (other : state.current.kind ≠ .keyword word →
      Yields state (next false) after) :
    Yields state (Grammar.eatKeyword word >>= next) after := by
  cases found : state.current.kind.isKeyword word with
  | true =>
      have unfolded : (Grammar.eatKeyword word >>= next) state =
          next true state.advance := by
        simp [Grammar.eatKeyword, atKeyword, Parse.inspect, Bind.bind, found,
          Grammar.advance, Pure.pure]
      exact continued unfolded ready.advance (eaten _ ready.advance
        (ready.kinds_eq (isKeyword_iff.mp found) (by simp)))
  | false =>
      have unfolded : (Grammar.eatKeyword word >>= next) state =
          next false state := by
        simp [Grammar.eatKeyword, atKeyword, Parse.inspect, Bind.bind, found,
          Pure.pure]
      refine continued unfolded ready.leads (other fun same => ?_)
      rw [isKeyword_iff.mpr same] at found
      cases found

theorem eatIdentifier {name : String} {next : Bool → Parse Next}
    (ready : state.Ready)
    (second : ∀ later isEaten, state.Leads later →
      Yields later (next isEaten) after) :
    Yields state (Grammar.eatIdentifier name >>= next) after := by
  cases found : state.current.kind.isIdentifier name with
  | true =>
      have unfolded : (Grammar.eatIdentifier name >>= next) state =
          next true state.advance := by
        simp [Grammar.eatIdentifier, currentKind, Parse.inspect, Bind.bind,
          found, Grammar.advance, Pure.pure]
      exact continued unfolded ready.advance (second _ true ready.advance)
  | false =>
      have unfolded : (Grammar.eatIdentifier name >>= next) state =
          next false state := by
        simp [Grammar.eatIdentifier, currentKind, Parse.inspect, Bind.bind,
          found, Pure.pure]
      exact continued unfolded ready.leads (second _ false ready.leads)

theorem expectSymbol {mark : Symbol} (ready : state.Ready) :
    Yields state (Grammar.expectSymbol mark) fun _ later =>
      state.kinds = .symbol mark :: later.kinds := by
  refine .inspect (.ite (fun found => ?_) fun _ => .failHere)
  exact .inr ⟨(), rfl, ready.advance,
    ready.kinds_eq (isSymbol_iff.mp found) nofun⟩

theorem expectKeyword {word : Keyword} (ready : state.Ready) :
    Yields state (Grammar.expectKeyword word) fun _ later =>
      state.kinds = .keyword word :: later.kinds := by
  refine .inspect (.ite (fun found => ?_) fun _ => .failHere)
  exact .inr ⟨(), rfl, ready.advance,
    ready.kinds_eq (isKeyword_iff.mp found) nofun⟩

end Yields

/-! ## Names -/

theorem ofText?_text (word : Keyword) :
    Keyword.ofText? word.text = some word := by
  cases word <;> rfl

theorem ofWord_text (word : Keyword) :
    TokenKind.ofWord word.text = .keyword word := by
  rw [TokenKind.ofWord, ofText?_text]

theorem isWord_text (word : Keyword) : Scan.isWord word.text = true := by
  cases word <;> decide

theorem isName_text {word : Keyword} (contextual : word.isContextual = true) :
    isName word.text = true := by
  simp [isName, isWord_text, ofText?_text, contextual]

theorem isWord_of_isName {text : String} (named : isName text = true) :
    Scan.isWord text = true := by
  simp only [isName, Bool.and_eq_true] at named
  exact named.1

section

variable {state : State}

theorem yields_takeName {text : String} {kind : TokenKind}
    (ready : state.Ready) (found : state.current.kind = kind)
    (notEnd : kind ≠ .endOfFile) :
    Yields state (takeName text) fun name later =>
      name.text = text ∧ state.kinds = kind :: later.kinds :=
  .inspect (.advance ready found notEnd fun _ leads kinds =>
    .pure leads.ready ⟨rfl, kinds⟩)

theorem yields_expectIdentifier (ready : state.Ready) :
    Yields state expectIdentifier fun name later =>
      isName name.text = true ∧
        state.kinds = .ofWord name.text :: later.kinds := by
  refine .inspect ?_
  have lexed := ready.isLexed
  split
  · next name found =>
      rw [found] at lexed
      refine (yields_takeName ready found (by simp)).imp ?_
      rintro taken later _ ⟨rfl, kinds⟩
      refine ⟨by simp [isName, lexed.1, lexed.2], ?_⟩
      rw [TokenKind.ofWord, lexed.2]
      exact kinds
  · next word found =>
      refine .ite (fun contextual => ?_) fun _ => .failHere
      refine (yields_takeName ready found (by simp)).imp ?_
      rintro taken later _ ⟨same, kinds⟩
      rw [same, ofWord_text]
      exact ⟨isName_text contextual, kinds⟩
  · exact .failHere

theorem yields_expectPropertyName (ready : state.Ready) :
    Yields state expectPropertyName fun name later =>
      Scan.isWord name.text = true ∧
        state.kinds = .ofWord name.text :: later.kinds := by
  refine .inspect ?_
  have lexed := ready.isLexed
  split
  · next name found =>
      rw [found] at lexed
      refine (yields_takeName ready found (by simp)).imp ?_
      rintro taken later _ ⟨rfl, kinds⟩
      refine ⟨lexed.1, ?_⟩
      rw [TokenKind.ofWord, lexed.2]
      exact kinds
  · next word found =>
      refine (yields_takeName ready found (by simp)).imp ?_
      rintro taken later _ ⟨same, kinds⟩
      rw [same, ofWord_text]
      exact ⟨isWord_text word, kinds⟩
  · exact .failHere

theorem yields_expectString (ready : state.Ready) :
    Yields state expectString fun _ _ => True := by
  refine .inspect ?_
  split
  · next content found =>
      exact .advance ready found (by simp) fun _ leads _ =>
        .pure leads.ready trivial
  · exact .failHere

end

/-! ## Lists -/

section

variable {Node Tree : Type} [Depicted Node Tree] {item : Parse Node}
  [Accounts item] {holds : Tree → Prop} {depth : Nat}

theorem yields_itemsUntil {closing : Symbol}
    (spec : ∀ state : State, state.Ready → state.depth = depth →
      Yields state item fun node later =>
        ∃ tree, later.arena.Depicts node tree ∧ holds tree) :
    ∀ (bound : Nat) {state : State}, state.Ready → state.depth = depth →
      Yields state (itemsUntil closing item bound) fun nodes later =>
        ∃ trees, later.arena.Depicts nodes trees ∧ ∀ tree ∈ trees, holds tree
  | 0, _, _, _ => .failHere
  | bound + 1, state, ready, same => by
      refine .inspect (.inspect (.ite (fun _ => ?_) fun _ => ?_))
      · exact .pure ready ⟨[], .nil, by simp⟩
      refine .bind (spec state ready same) fun node later leads known => ?_
      obtain ⟨tree, depicts, held⟩ := known
      refine .eatSymbol leads.ready (fun second further _ => ?_) fun _ => ?_
      · have equal : second.depth = depth :=
          further.depth.trans (leads.depth.trans same)
        refine .bind (yields_itemsUntil spec bound further.ready equal) ?_
        rintro nodes last onward ⟨trees, others, all⟩
        have first := depicts.extends
          (further.extended.trans onward.extended) leads.ready.closed
        exact .pure onward.ready ⟨tree :: trees, first.cons others,
          List.forall_mem_cons.mpr ⟨held, all⟩⟩
      · exact .pure leads.ready ⟨[tree], depicts.cons .nil, by simpa using held⟩

theorem yields_listUntil {closing : Symbol}
    (spec : ∀ state : State, state.Ready → state.depth = depth →
      Yields state item fun node later =>
        ∃ tree, later.arena.Depicts node tree ∧ holds tree)
    {state : State} (ready : state.Ready) (same : state.depth = depth) :
    Yields state (listUntil closing item) fun nodes later =>
      ∃ trees, later.arena.Depicts nodes trees ∧
        ∀ tree ∈ trees, holds tree := by
  refine .inspect ?_
  refine .bind (yields_itemsUntil spec _ ready same) fun nodes later leads => ?_
  rintro ⟨trees, depicts, all⟩
  refine .bind (.expectSymbol leads.ready) fun _ last onward _ => ?_
  exact .pure onward.ready
    ⟨trees, depicts.extends onward.extended leads.ready.closed, all⟩

end

end PluginSurface.Grammar
