import PluginSurface.Json.Value

/-!
Places in a source text. Lines and columns count from one and a column is a
character. Positions are ordered as they come in the text, and a span runs from
its start to its end position.
-/

namespace PluginSurface

/-- A line and a column, both counted from one. A build keeps them in 32 bits.
They have no bound here, and what is proved of them holds of lines and columns
below `2 ^ 32`. -/
structure Position where
  line : Nat
  column : Nat
deriving DecidableEq, Inhabited

namespace Position

/-- One position comes no later in the text than another. -/
protected def le (left right : Position) : Prop :=
  left.line < right.line ∨
    left.line = right.line ∧ left.column ≤ right.column

instance : LE Position := ⟨Position.le⟩

instance (left right : Position) : Decidable (left ≤ right) :=
  inferInstanceAs
    (Decidable
      (left.line < right.line ∨
        left.line = right.line ∧ left.column ≤ right.column))

def earlier (left right : Position) : Position :=
  if left ≤ right then left else right

def later (left right : Position) : Position :=
  if left ≤ right then right else left

def first : Position :=
  ⟨1, 1⟩

def after (position : Position) (char : Char) : Position :=
  if char = '\n' then ⟨position.line + 1, 1⟩
  else ⟨position.line, position.column + 1⟩

end Position

/-- A stretch of a source text, between positions that a build keeps in 32 bits
and that have no bound here. -/
structure Span where
  start : Position
  stop : Position
deriving DecidableEq, Inhabited

namespace Span

/-- The span of no width at a position. -/
def point (position : Position) : Span :=
  ⟨position, position⟩

def merge (left right : Span) : Span :=
  ⟨left.start.earlier right.start, left.stop.later right.stop⟩

def Contains (outer inner : Span) : Prop :=
  outer.start ≤ inner.start ∧ inner.stop ≤ outer.stop

instance (outer inner : Span) : Decidable (outer.Contains inner) :=
  inferInstanceAs (Decidable (_ ∧ _))

def text (span : Span) : String :=
  toString span.start.line ++ ":" ++ toString span.start.column

/-- The four numbers of a span under the names they have in documents. -/
def members (span : Span) : List (String × Json) :=
  [("line", Json.ofNat span.start.line),
    ("column", Json.ofNat span.start.column),
    ("end_line", Json.ofNat span.stop.line),
    ("end_column", Json.ofNat span.stop.column)]

end Span

end PluginSurface
