import PluginSurface.Proofs.Grammar.Settling

/-!
# Tokens as units

A closing angle may be taken off a token of several. So what a parser of types
reads is not counted in tokens but in units: a `>` and what is left behind it are
units of their own. What a parser reads when it gives a result, and where it
comes to when it meets certain units, are told in units.
-/

namespace PluginSurface.Grammar

variable {Result Next : Type}

/-! ## Angles one by one -/

/-- A token as a closing angle is taken off it: its first `>` is a unit of its
own, and so is each one that is left. -/
def unitsOf : TokenKind → List TokenKind
  | .symbol .doubleGreater => [.symbol .greater, .symbol .greater]
  | .symbol .tripleGreater =>
      [.symbol .greater, .symbol .greater, .symbol .greater]
  | .symbol .greaterEqual => [.symbol .greater, .symbol .equal]
  | kind => [kind]

def units (tokens : List Token) : List TokenKind :=
  tokens.flatMap fun token => unitsOf token.kind

abbrev State.units (state : State) : List TokenKind :=
  Grammar.units state.rest

theorem unitsOf_split {mark half : Symbol}
    (splits : afterAngle? mark = some half) :
    unitsOf (.symbol mark) = .symbol .greater :: unitsOf (.symbol half) := by
  cases mark <;> cases splits <;> rfl

theorem unitsOf_cases (kind : TokenKind) :
    unitsOf kind = [kind] ∨
      ∃ mark half, kind = .symbol mark ∧ afterAngle? mark = some half := by
  cases kind with
  | symbol mark =>
      cases splits : afterAngle? mark with
      | none =>
          left
          cases mark <;> first | rfl | cases splits
      | some half => exact .inr ⟨mark, half, rfl, splits⟩
  | _ => exact .inl rfl

section

variable {state : State} {unit : TokenKind} {more : List TokenKind}

/-- What is no closing angle stands in front as a token. -/
theorem State.front_of_units (front : state.units = unit :: more)
    (other : unit ≠ .symbol .greater) :
    ∃ token rest, state.rest = token :: rest ∧ token.kind = unit ∧
      Grammar.units rest = more := by
  cases found : state.rest with
  | nil => simp [State.units, Grammar.units, found] at front
  | cons token rest =>
      rw [State.units, found] at front
      change unitsOf token.kind ++ Grammar.units rest = unit :: more at front
      rcases unitsOf_cases token.kind with whole | ⟨mark, half, same, splits⟩
      · rw [whole] at front
        obtain ⟨rfl, rfl⟩ := List.cons.inj front
        exact ⟨token, rest, rfl, rfl, rfl⟩
      · rw [same, unitsOf_split splits] at front
        exact absurd (List.cons.inj front).1.symm other

theorem State.current_of_units (front : state.units = unit :: more)
    (other : unit ≠ .symbol .greater) : state.current.kind = unit := by
  obtain ⟨token, rest, found, kind, _⟩ := state.front_of_units front other
  simp [State.current, found, kind]

theorem State.units_advance (front : state.units = unit :: more)
    (other : unit ≠ .symbol .greater) :
    state.advance.units = more ∧
      state.advance.rest.length < state.rest.length := by
  obtain ⟨token, rest, found, _, units⟩ := state.front_of_units front other
  simp [State.advance, State.units, found, units]

theorem State.units_of_current (ends : state.Ends) {kind : TokenKind}
    (found : state.current.kind = kind) (notEnd : kind ≠ .endOfFile)
    (whole : unitsOf kind = [kind]) :
    state.units = kind :: state.advance.units := by
  obtain ⟨rest, front⟩ := state.front_of_ne_end ends (found ▸ notEnd)
  rw [State.units, State.units, State.advance, front]
  change unitsOf state.current.kind ++ Grammar.units rest = _
  rw [found, whole]
  rfl

theorem State.head_units (ends : state.Ends) {kind : TokenKind}
    (found : state.current.kind = kind) (notEnd : kind ≠ .endOfFile)
    (whole : unitsOf kind = [kind]) : state.units.head? = some kind := by
  rw [state.units_of_current ends found notEnd whole]
  rfl

theorem State.lookAhead_one {token : Token} {rest : List Token}
    (found : state.rest = token :: rest) :
    state.lookAhead 1 = state.advance.current.kind := by
  simp [State.lookAhead, State.advance, State.current, found,
    List.head?_eq_getElem?]

theorem State.lookAhead_of_units {first second : TokenKind}
    (front : state.units = first :: second :: more)
    (other : first ≠ .symbol .greater) (alsoOther : second ≠ .symbol .greater) :
    state.lookAhead 1 = second := by
  obtain ⟨token, rest, found, _, _⟩ := state.front_of_units front other
  rw [State.lookAhead_one found]
  exact State.current_of_units (state.units_advance front other).1 alsoOther

end

/-! ## Reading units

What a parser reads when it gives a result, and where it arrives if it meets
certain units. -/

/-- A parser that gives a result in a state has read certain units. -/
def ReadsWord (state : State) (parser : Parse Result)
    (spells : List TokenKind → Prop) : Prop :=
  state.Ends → ∀ result later, parser state = (some result, later) →
    ∃ word, state.units = word ++ later.units ∧ spells word

namespace ReadsWord

variable {state : State} {spells : List TokenKind → Prop}

theorem pure {result : Result} (empty : spells []) :
    ReadsWord state (Pure.pure result : Parse Result) spells := by
  rintro ends _ _ ⟨⟩
  exact ⟨[], rfl, empty⟩

theorem fails {parser : Parse Result} (fails : (parser state).1 = none) :
    ReadsWord state parser spells := by
  intro ends result later ran
  rw [ran] at fails
  cases fails

theorem failHere {fault : TokenKind → SyntaxFault} :
    ReadsWord state (Grammar.failHere fault : Parse Result) spells :=
  fails rfl

theorem inspect {view : State → Result} {next : Result → Parse Next}
    (second : ReadsWord state (next (view state)) spells) :
    ReadsWord state (Parse.inspect view >>= next) spells :=
  second

theorem bind {parser : Parse Result} {next : Result → Parse Next}
    [Steady parser] {first : List TokenKind → Prop}
    (parsed : ReadsWord state parser first)
    (second : ∀ result later word, first word →
      ReadsWord later (next result) fun rest => spells (word ++ rest)) :
    ReadsWord state (parser >>= next) spells := by
  intro ends result last ran
  obtain ⟨found, later, before, behind⟩ := bind_eq_some ran
  obtain ⟨word, split, read⟩ := parsed ends found later before
  have passes := Steady.of_state before
  obtain ⟨rest, others, whole⟩ :=
    second found later word read (passes.ends ends) result last behind
  exact ⟨word ++ rest, by rw [split, others, List.append_assoc], whole⟩

theorem imp {parser : Parse Result} {weaker : List TokenKind → Prop}
    (parsed : ReadsWord state parser spells)
    (implies : ∀ word, spells word → weaker word) :
    ReadsWord state parser weaker := by
  intro ends result later ran
  obtain ⟨word, split, read⟩ := parsed ends result later ran
  exact ⟨word, split, implies word read⟩

theorem advance {kind : TokenKind} (found : state.current.kind = kind)
    (notEnd : kind ≠ .endOfFile) (whole : unitsOf kind = [kind]) :
    ReadsWord state Grammar.advance (· = [kind]) := by
  rintro ends _ _ ⟨⟩
  exact ⟨[kind], state.units_of_current ends found notEnd whole, rfl⟩

theorem advanceThen {next : Unit → Parse Next} {kind : TokenKind}
    (found : state.current.kind = kind) (notEnd : kind ≠ .endOfFile)
    (whole : unitsOf kind = [kind])
    (second : ReadsWord state.advance (next ())
      fun rest => spells (kind :: rest)) :
    ReadsWord state (Grammar.advance >>= next) spells := by
  intro ends result last ran
  obtain ⟨rest, others, read⟩ :=
    second (state.passes_advance.ends ends) result last ran
  refine ⟨kind :: rest, ?_, read⟩
  rw [state.units_of_current ends found notEnd whole, others, List.cons_append]

theorem advanceTwice {next : Unit → Parse Next} {first second : TokenKind}
    (found : state.current.kind = first) (notEnd : first ≠ .endOfFile)
    (whole : unitsOf first = [first]) (behind : state.lookAhead 1 = second)
    (alsoNotEnd : second ≠ .endOfFile) (alsoWhole : unitsOf second = [second])
    (further : ReadsWord state.advance.advance (next ())
      fun rest => spells (first :: second :: rest)) :
    ReadsWord state (Grammar.advance >>= fun _ => Grammar.advance >>= next)
      spells := by
  intro ends
  obtain ⟨rest, front⟩ := state.front_of_ne_end ends (found ▸ notEnd)
  have next : state.advance.current.kind = second :=
    (State.lookAhead_one front).symm.trans behind
  exact advanceThen found notEnd whole
    (advanceThen next alsoNotEnd alsoWhole further) ends

theorem eatSymbol {mark : Symbol} {next : Bool → Parse Next}
    (whole : unitsOf (.symbol mark) = [.symbol mark])
    (taken : ReadsWord state.advance (next true)
      fun rest => spells (.symbol mark :: rest))
    (kept : ReadsWord state (next false) spells) :
    ReadsWord state (eatSymbol mark >>= next) spells := by
  intro ends
  rw [eatSymbol_bind]
  split
  · next found =>
      have step : ReadsWord state (Grammar.advance >>= fun _ => next true)
          spells := .advanceThen (isSymbol_iff.mp found) nofun whole taken
      exact step ends
  · exact kept ends

theorem expectSymbol {mark : Symbol}
    (whole : unitsOf (.symbol mark) = [.symbol mark]) :
    ReadsWord state (expectSymbol mark) (· = [.symbol mark]) := by
  refine .inspect ?_
  split
  · next found => exact .advance (isSymbol_iff.mp found) nofun whole
  · exact .failHere

end ReadsWord

/-- A parser gives a result in a state and comes to certain units. -/
def Arrives (state : State) (parser : Parse Result)
    (tail : List TokenKind) : Prop :=
  ∃ result later, parser state = (some result, later) ∧ later.units = tail

namespace Arrives

variable {state : State} {tail more : List TokenKind}

theorem pure {result : Result} (here : state.units = tail) :
    Arrives state (Pure.pure result : Parse Result) tail :=
  ⟨result, state, rfl, here⟩

theorem inspect {view : State → Result} {next : Result → Parse Next}
    (second : Arrives state (next (view state)) tail) :
    Arrives state (Parse.inspect view >>= next) tail :=
  second

theorem bind {parser : Parse Result} {next : Result → Parse Next}
    [Steady parser] (first : Arrives state parser more)
    (second : ∀ result later, state.Passes later → later.units = more →
      Arrives later (next result) tail) :
    Arrives state (parser >>= next) tail := by
  obtain ⟨found, later, ran, units⟩ := first
  obtain ⟨result, last, onward, there⟩ :=
    second found later (Steady.of_state ran) units
  refine ⟨result, last, ?_, there⟩
  simp only [Bind.bind, ran, onward]

theorem advance {unit : TokenKind} {next : Unit → Parse Next}
    (front : state.units = unit :: more) (other : unit ≠ .symbol .greater)
    (second : ∀ later, state.Passes later →
      later.rest.length < state.rest.length → later.units = more →
        Arrives later (next ()) tail) :
    Arrives state (Grammar.advance >>= next) tail := by
  obtain ⟨units, shorter⟩ := state.units_advance front other
  exact second _ state.passes_advance shorter units

theorem eatSymbol {mark : Symbol} {next : Bool → Parse Next}
    (front : state.units = .symbol mark :: more) (other : mark ≠ .greater)
    (second : ∀ later, state.Passes later →
      later.rest.length < state.rest.length → later.units = more →
        Arrives later (next true) tail) :
    Arrives state (eatSymbol mark >>= next) tail := by
  have found := state.current_of_units front (by simpa using other)
  obtain ⟨units, shorter⟩ := state.units_advance front (by simpa using other)
  unfold Arrives
  rw [eatSymbol_bind, if_pos (isSymbol_iff.mpr found)]
  exact second _ state.passes_advance shorter units

theorem leaveSymbol {mark : Symbol} {next : Bool → Parse Next}
    (ends : state.Ends) (whole : unitsOf (.symbol mark) = [.symbol mark])
    (absent : state.units.head? ≠ some (.symbol mark))
    (second : Arrives state (next false) tail) :
    Arrives state (Grammar.eatSymbol mark >>= next) tail := by
  have missing : ¬ state.current.kind.isSymbol mark = true := fun found =>
    absent (state.head_units ends (isSymbol_iff.mp found) nofun whole)
  unfold Arrives
  rw [eatSymbol_bind, if_neg missing]
  exact second

theorem expectSymbol {mark : Symbol} (front : state.units = .symbol mark :: more)
    (other : mark ≠ .greater) : Arrives state (expectSymbol mark) more := by
  have found := state.current_of_units front (by simpa using other)
  refine .inspect ?_
  rw [if_pos (isSymbol_iff.mpr found)]
  exact ⟨_, _, rfl, (state.units_advance front (by simpa using other)).1⟩

end Arrives

/-! ## The closing angle -/

theorem readsWord_splitAngle {state : State} {mark half : Symbol}
    (found : state.current.kind = .symbol mark)
    (splits : afterAngle? mark = some half) :
    ReadsWord state (splitAngle half) (· = [.symbol .greater]) := by
  intro ends result later ran
  obtain ⟨rest, front⟩ := state.front_of_ne_end ends (by simp [found])
  rw [splitAngle, front] at ran
  cases ran
  refine ⟨_, ?_, rfl⟩
  rw [State.units, front]
  change unitsOf state.current.kind ++ units rest = _
  rw [found, unitsOf_split splits]
  rfl

theorem readsWord_expectClosingAngle {state : State} :
    ReadsWord state expectClosingAngle (· = [.symbol .greater]) := by
  refine .inspect ?_
  split
  · next mark found =>
      split
      · next half splits => exact readsWord_splitAngle found splits
      · exact .expectSymbol rfl
  · exact .expectSymbol rfl

theorem arrives_splitAngle {state : State} {token : Token} {rest : List Token}
    (found : state.rest = token :: rest) (half : Symbol) :
    Arrives state (splitAngle half) (unitsOf (.symbol half) ++ units rest) := by
  unfold Arrives splitAngle
  rw [found]
  exact ⟨(), _, rfl, rfl⟩

theorem arrives_expectClosingAngle {state : State} {more : List TokenKind}
    (front : state.units = .symbol .greater :: more) :
    Arrives state expectClosingAngle more := by
  cases found : state.rest with
  | nil => simp [State.units, units, found] at front
  | cons token rest =>
      have current : state.current = token := by simp [State.current, found]
      rw [State.units, found] at front
      change unitsOf token.kind ++ units rest = _ at front
      refine .inspect ?_
      rw [current]
      rcases unitsOf_cases token.kind with whole | ⟨mark, half, same, splits⟩
      · rw [whole] at front
        obtain ⟨same, rfl⟩ := List.cons.inj front
        rw [same]
        refine .inspect ?_
        rw [if_pos (by simp [current, same, TokenKind.isSymbol])]
        exact ⟨_, _, rfl, by simp [State.units, State.advance, found]⟩
      · rw [same, unitsOf_split splits] at front
        rw [same]
        dsimp only
        rw [splits, ← (List.cons.inj front).2]
        exact arrives_splitAngle found half

end PluginSurface.Grammar
