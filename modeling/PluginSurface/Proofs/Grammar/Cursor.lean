import PluginSurface.Proofs.Grammar.Steps

/-!
# A place among the tokens

A parser goes through a list of tokens that ends in the end of the file. Whether
it succeeds or fails, it only moves its place forward, takes a `>` off a symbol
at its place at most, and leaves the depth of nesting as it was. So its place
stays within the list, and what it looks at are tokens of the list.
-/

namespace PluginSurface.Grammar

variable {Result Next : Type}

/-! ## States that are passed to -/

/-- A state that a parser passes to. -/
structure State.Passes (state later : State) : Prop where
  onward : Onward state.previous state.rest later.previous later.rest
  depth : later.depth = state.depth
  finish : later.finish = state.finish

namespace State.Passes

variable {state later : State}

theorem trans {last : State} (first : state.Passes later)
    (second : later.Passes last) : state.Passes last :=
  ⟨first.onward.trans second.onward, second.depth.trans first.depth,
    second.finish.trans first.finish⟩

theorem length_le (passes : state.Passes later) :
    later.rest.length ≤ state.rest.length :=
  passes.onward.length_le

end State.Passes

/-! ## Parsers -/

/-- A parser that passes from a state to the one it leaves. -/
def SteadyIn (state : State) (parser : Parse Result) : Prop :=
  state.Passes (parser state).2

/-- A parser that passes from every state to the one it leaves. -/
class Steady (parser : Parse Result) : Prop where
  passes : ∀ state, SteadyIn state parser

namespace Steady

theorem of_state {parser : Parse Result} {state later : State}
    {result : Option Result} [steady : Steady parser]
    (ran : parser state = (result, later)) : state.Passes later := by
  have passes := steady.passes state
  rwa [SteadyIn, ran] at passes

end Steady

/-- Passing is a relation that every step keeps to. -/
def passing : StepRelation where
  Holds := State.Passes
  trans := State.Passes.trans
  move _ _ _ onward := ⟨onward, rfl, rfl⟩
  report _ _ _ := ⟨.refl _ _, rfl, rfl⟩
  store _ _ := ⟨.refl _ _, rfl, rfl⟩
  deepen passes := ⟨passes.onward, rfl, passes.finish⟩

instance steady_of_follows {parser : Parse Result}
    [follows : Follows passing parser] : Steady parser :=
  ⟨follows.holds⟩

instance (priority := low) follows_of_steady {parser : Parse Result}
    [steady : Steady parser] : Follows passing parser :=
  ⟨steady.passes⟩

theorem Steady.bind {parser : Parse Result} {next : Result → Parse Next}
    [Steady parser] (second : ∀ result, Steady (next result)) :
    Steady (parser >>= next) :=
  inferInstance

theorem State.passes_advance (state : State) : state.Passes state.advance :=
  (follows_advance : Follows passing Grammar.advance).holds state

/-! ## Places -/

/-- The tokens in front of a place and those from it on make up a list that ends
in the end of the file, and the last span that was passed is that of the token in
front of the place. -/
structure Stands (front : List Token) (previous : Span) (rest : List Token)
    (finish : Token) : Prop where
  last : (front ++ rest).getLast? = some finish
  ends : finish.kind = .endOfFile
  previous : previous = (front.getLast?.map Token.span).getD (.point .first)

/-- A state stands behind tokens that were passed. -/
abbrev State.Behind (state : State) (front : List Token) : Prop :=
  Stands front state.previous state.rest state.finish

namespace Stands

variable {front rest left : List Token} {previous last : Span}
  {token finish : Token}

theorem take (stands : Stands front previous (token :: rest) finish) :
    Stands (front ++ [token]) token.span rest finish where
  last := by simpa using stands.last
  ends := stands.ends
  previous := by simp

/-- The end of the file is not split, so a token that is split is not the last
one. -/
theorem split (stands : Stands front previous (token :: rest) finish)
    (notEnd : token.kind ≠ .endOfFile) (half : Token) :
    Stands front previous (half :: rest) finish where
  last := by
    have last := stands.last
    cases rest with
    | nil =>
        rw [List.getLast?_concat] at last
        exact absurd (Option.some.inj last ▸ stands.ends) notEnd
    | cons next rest => simpa using last
  ends := stands.ends
  previous := stands.previous

/-- Moving onward, a place moves forward in a list that stays as long. -/
theorem onward (stands : Stands front previous rest finish)
    (moved : Onward previous rest last left) :
    ∃ passed, Stands passed last left finish ∧
      front.length ≤ passed.length ∧
      passed.length + left.length = front.length + rest.length := by
  induction moved generalizing front with
  | refl => exact ⟨front, stands, Nat.le_refl _, rfl⟩
  | take _ inductionHypothesis =>
      obtain ⟨passed, reached, forward, same⟩ := inductionHypothesis stands.take
      simp only [List.length_append, List.length_cons, List.length_nil]
        at forward same ⊢
      exact ⟨passed, reached, by omega, by omega⟩
  | split found _ _ inductionHypothesis =>
      obtain ⟨passed, reached, forward, same⟩ :=
        inductionHypothesis (stands.split (by simp [found]) _)
      exact ⟨passed, reached, forward, same⟩

end Stands

theorem behind_initialState (source : SourceText) (tokens : List Token) :
    (initialState source tokens).Behind [] where
  last := by
    change (completed tokens).getLast? = some (finishOf tokens)
    unfold completed
    cases found : tokens.getLast? with
    | none => rfl
    | some token =>
        dsimp only
        split
        · next isEnd => rw [found, finishOf, found]; simp [isEnd]
        · simp
  ends := kind_finishOf tokens
  previous := rfl

/-- What a parser looks at in a state are tokens of the list it goes through:
the token at its place, or the last one; one further on, or the last one; the
span in front of its place; and a token that it splits. -/
structure State.LooksWithin (state : State) (tokens : List Token)
    (place : Nat) : Prop where
  current : tokens[min place (tokens.length - 1)]? = some state.current
  lookAhead : ∀ distance,
    (tokens[min (place + distance) (tokens.length - 1)]?).map Token.kind =
      some (state.lookAhead distance)
  previous : 0 < place →
    (tokens[place - 1]?).map Token.span = some state.previous
  split : ∀ mark half, state.current.kind = .symbol mark →
    afterAngle? mark = some half → tokens[place]? = some state.current

namespace State.Behind

variable {state : State} {front : List Token}

theorem getElem?_min (behind : state.Behind front) (distance : Nat) :
    (front ++ state.rest)[min (front.length + distance)
        ((front ++ state.rest).length - 1)]? =
      some (state.rest[distance]?.getD state.finish) := by
  have last := behind.last
  rw [List.getLast?_eq_getElem?] at last
  rw [List.length_append] at last ⊢
  rcases Nat.lt_or_ge distance state.rest.length with inside | outside
  · rw [Nat.min_eq_left (by omega), List.getElem?_append_right (by omega)]
    simp [inside]
  · rw [Nat.min_eq_right (by omega), last]
    simp [outside]

theorem looksWithin (behind : state.Behind front) :
    state.LooksWithin (front ++ state.rest) front.length where
  current := by
    have found := behind.getElem?_min 0
    rwa [Nat.add_zero, ← List.head?_eq_getElem?] at found
  lookAhead distance := by rw [behind.getElem?_min]; rfl
  previous positive := by
    rw [List.getElem?_append_left (by omega), behind.previous,
      ← List.getLast?_eq_getElem?]
    cases found : front.getLast? with
    | none => simp [List.getLast?_eq_none_iff.mp found] at positive
    | some token => rfl
  split mark half found _ := by
    cases rest : state.rest with
    | nil =>
        rw [State.current, rest, List.head?_nil, Option.getD_none, behind.ends]
          at found
        cases found
    | cons token others => simp [State.current, rest]

theorem of_passes {later : State} (behind : state.Behind front)
    (passes : state.Passes later) :
    ∃ passed, later.Behind passed ∧ front.length ≤ passed.length ∧
      (passed ++ later.rest).length = (front ++ state.rest).length := by
  obtain ⟨passed, reached, forward, same⟩ := behind.onward passes.onward
  refine ⟨passed, ?_, forward, ?_⟩
  · rw [State.Behind, passes.finish]
    exact reached
  · rw [List.length_append, List.length_append, same]

end State.Behind

end PluginSurface.Grammar
