import PluginSurface.Proofs.Grammar.Steps

/-!
# Faults stay

A parser may report a fault and go on, but a fault that was reported is never
taken back. What a program is made of is known only if no fault was reported, so
this carries what is known at the end of a run back to its steps. A step that
does not account for the tokens that it takes keeps faults all the same.
-/

namespace PluginSurface.Grammar

variable {Result Next : Type}

def State.Faulty (state : State) : Prop :=
  state.diagnostics.hasErrors = true

/-- A parser after which a fault that was reported before it is still there. -/
class Keeps (parser : Parse Result) : Prop where
  keeps : ∀ state : State, state.Faulty → (parser state).2.Faulty

theorem State.faulty_report (state : State) (fault : SyntaxFault)
    (span : Span) : (state.report fault span).Faulty := by
  simp [Faulty, report, Diagnostics.push, Diagnostics.hasErrors]

/-- A parser that accounts for what it does takes back no error. -/
instance (priority := low) keeps_of_accounts {parser : Parse Result}
    [inner : Accounts parser] : Keeps parser where
  keeps state faulty := by
    have grows := (inner.accounted state).grows
    have before : 0 < state.errors := of_decide_eq_true faulty
    exact decide_eq_true (Nat.lt_of_lt_of_le before grows)

/-- No step takes back a fault. -/
def keeping : StepRelation where
  Holds state later := state.Faulty → later.Faulty
  trans first second faulty := second (first faulty)
  move _ _ _ _ faulty := faulty
  report state fault span _ := state.faulty_report fault span
  store _ _ faulty := faulty
  deepen keeps := keeps

instance keeps_of_follows {parser : Parse Result}
    [follows : Follows keeping parser] : Keeps parser :=
  ⟨follows.holds⟩

instance (priority := low) follows_of_keeps {parser : Parse Result}
    [keeps : Keeps parser] : Follows keeping parser :=
  ⟨keeps.keeps⟩

theorem Keeps.bind {parser : Parse Result} {next : Result → Parse Next}
    [Keeps parser] (second : ∀ result, Keeps (next result)) :
    Keeps (parser >>= next) :=
  inferInstance

end PluginSurface.Grammar
