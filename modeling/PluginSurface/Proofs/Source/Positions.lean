import Mathlib.Data.List.DropRight
import Mathlib.Data.List.Induction
import Mathlib.Order.Basic
import PluginSurface.Syntax.Scan

/-!
# Positions counted from the characters before them

The line and the column behind some text are the numbers of line feeds and of
characters since the last one. They are strictly ordered along a text, so that a
span stands for the characters between two places and a line for the characters
around one.
-/

namespace PluginSurface

namespace Position

/-- Positions are ordered by their lines and then by their columns. -/
instance : Preorder Position where
  lt left right :=
    left.line < right.line ∨
      left.line = right.line ∧ left.column < right.column
  le_refl position := .inr ⟨rfl, Nat.le_refl _⟩
  le_trans first second third := by
    change _ ∨ _ → _ ∨ _ → _ ∨ _
    omega
  lt_iff_le_not_ge left right := by
    change _ ∨ _ ↔ (_ ∨ _) ∧ ¬(_ ∨ _)
    omega

/-- The position behind some text. -/
def behind (before : List Char) : Position :=
  ⟨1 + before.count '\n', 1 + (before.rtakeWhile (· ≠ '\n')).length⟩

theorem lt_after (position : Position) (char : Char) :
    position < position.after char := by
  unfold after
  split
  · exact .inl (Nat.lt_succ_self _)
  · exact .inr ⟨rfl, Nat.lt_succ_self _⟩

theorem behind_append_singleton (before : List Char) (char : Char) :
    behind (before ++ [char]) = (behind before).after char := by
  by_cases isFeed : char = '\n'
  · subst isFeed
    simp [behind, after, Nat.add_assoc]
  · simp [behind, after, isFeed, Nat.add_assoc]

theorem behind_append (before more : List Char) :
    behind (before ++ more) = (behind before).advance more := by
  induction more using List.reverseRecOn with
  | nil => simp [advance]
  | append_singleton more last inductionHypothesis =>
      rw [← List.append_assoc, behind_append_singleton, inductionHypothesis]
      simp [advance]

theorem behind_lt_append (before : List Char) {more : List Char}
    (nonempty : more ≠ []) : behind before < behind (before ++ more) := by
  induction more using List.reverseRecOn with
  | nil => exact absurd rfl nonempty
  | append_singleton more last inductionHypothesis =>
      have step := lt_after (behind (before ++ more)) last
      rw [← List.append_assoc, behind_append_singleton]
      rcases eq_or_ne more [] with rfl | further
      · simpa using step
      · exact (inductionHypothesis further).trans step

theorem behind_le_append (before more : List Char) :
    behind before ≤ behind (before ++ more) := by
  rcases eq_or_ne more [] with rfl | nonempty
  · simp
  · exact (behind_lt_append before nonempty).le

/-- A place in a text, seen from a position before it. -/
def IsWithin (position : Position) (chars : List Char) (place : Position) :
    Prop :=
  ∃ taken, taken <+: chars ∧ place = position.advance taken

theorem IsWithin.start (position : Position) (chars : List Char) :
    position.IsWithin chars position :=
  ⟨[], List.nil_prefix, rfl⟩

theorem IsWithin.behind {position place : Position} {rest : List Char}
    (front : List Char) (within : (position.advance front).IsWithin rest place) :
    position.IsWithin (front ++ rest) place := by
  obtain ⟨taken, isPrefix, same⟩ := within
  refine ⟨front ++ taken, List.prefix_append_right_inj front |>.mpr isPrefix, ?_⟩
  simpa [advance] using same

/-! ### The earlier and the later one of two positions -/

section

variable {left right place : Position}

theorem le_of_not_le (not : ¬left ≤ right) : right ≤ left := by
  change ¬(_ ∨ _) at not
  change _ ∨ _
  omega

theorem earlier_le_left (left right : Position) :
    left.earlier right ≤ left := by
  unfold earlier
  split
  · exact le_refl left
  · exact le_of_not_le ‹_›

theorem earlier_le_right (left right : Position) :
    left.earlier right ≤ right := by
  unfold earlier
  split
  · assumption
  · exact le_refl right

theorem le_earlier (first : place ≤ left) (second : place ≤ right) :
    place ≤ left.earlier right := by
  unfold earlier
  split
  · exact first
  · exact second

theorem left_le_later (left right : Position) : left ≤ left.later right := by
  unfold later
  split
  · assumption
  · exact le_refl left

theorem right_le_later (left right : Position) : right ≤ left.later right := by
  unfold later
  split
  · exact le_refl right
  · exact le_of_not_le ‹_›

theorem later_le (first : left ≤ place) (second : right ≤ place) :
    left.later right ≤ place := by
  unfold later
  split
  · exact second
  · exact first

end

end Position

/-! ## Spans -/

namespace Span

/-- A span comes no later than another one if it neither starts nor stops
behind it. -/
instance : Preorder Span where
  le left right := left.start ≤ right.start ∧ left.stop ≤ right.stop
  le_refl span := ⟨le_refl _, le_refl _⟩
  le_trans _ _ _ first second :=
    ⟨first.1.trans second.1, first.2.trans second.2⟩

theorem Contains.trans {outer middle inner : Span}
    (first : outer.Contains middle) (second : middle.Contains inner) :
    outer.Contains inner :=
  ⟨first.1.trans second.1, second.2.trans first.2⟩

theorem merge_contains_left (left right : Span) :
    (left.merge right).Contains left :=
  ⟨Position.earlier_le_left _ _, Position.left_le_later _ _⟩

theorem merge_contains_right (left right : Span) :
    (left.merge right).Contains right :=
  ⟨Position.earlier_le_right _ _, Position.right_le_later _ _⟩

/-- Whether a span reaches over a position. -/
def Covers (span : Span) (position : Position) : Prop :=
  span.start ≤ position ∧ position ≤ span.stop

instance (span : Span) (position : Position) :
    Decidable (span.Covers position) :=
  inferInstanceAs (Decidable (_ ∧ _))

end Span

/-- The characters of a text that stands behind another one, each with its
position. -/
def placedBehind (before chars : List Char) : List (Position × Char) :=
  chars.mapIdx fun index char =>
    (Position.behind (before ++ chars.take index), char)

/-- The characters of a text, each with its position. -/
def placed (text : List Char) : List (Position × Char) :=
  placedBehind [] text

/-- The characters of a text that a span covers. -/
def Span.coveredText (span : Span) (text : List Char) : List Char :=
  ((placed text).filter fun place => span.Covers place.1).map Prod.snd

theorem placedBehind_append (before chars more : List Char) :
    placedBehind before (chars ++ more) =
      placedBehind before chars ++ placedBehind (before ++ chars) more := by
  unfold placedBehind
  rw [List.mapIdx_append]
  congr 1
  · refine List.mapIdx_eq_mapIdx_iff.mpr fun index inside => ?_
    rw [List.take_append_of_le_length (Nat.le_of_lt inside)]
  · refine List.mapIdx_eq_mapIdx_iff.mpr fun index inside => ?_
    rw [Nat.add_comm, List.take_length_add_append, List.append_assoc]

theorem map_snd_placedBehind (before chars : List Char) :
    (placedBehind before chars).map Prod.snd = chars := by
  refine List.ext_getElem (by simp [placedBehind]) fun index _ _ => ?_
  simp [placedBehind]

/-- Characters stand between the places before and behind them. -/
theorem bounds_of_mem_placedBehind {before chars : List Char}
    {place : Position × Char} (member : place ∈ placedBehind before chars) :
    .behind before ≤ place.1 ∧ place.1 < .behind (before ++ chars) := by
  obtain ⟨index, inside, rfl⟩ := List.mem_mapIdx.mp member
  refine ⟨Position.behind_le_append _ _, ?_⟩
  have further : chars.drop index ≠ [] := by simpa using inside
  have whole : before ++ chars = before ++ chars.take index ++
      chars.drop index := by simp
  rw [whole]
  exact Position.behind_lt_append _ further

/-- A span from the first to the last of some characters reaches over the
positions from the first one on, up to those behind. -/
theorem Span.covers_of_mem {before chars : List Char} {last : Char}
    {place : Position × Char}
    (member : place ∈ placedBehind before (chars ++ [last])) :
    (⟨.behind before, .behind (before ++ chars)⟩ : Span).Covers place.1 := by
  refine ⟨(bounds_of_mem_placedBehind member).1, ?_⟩
  rw [placedBehind_append, List.mem_append] at member
  rcases member with inChars | isLast
  · exact (bounds_of_mem_placedBehind inChars).2.le
  · cases List.mem_singleton.mp isLast
    simp

/-- A span from the first to the last of some characters covers just these. -/
theorem Span.coveredText_eq (before chars more : List Char) (last : Char) :
    (⟨.behind before, .behind (before ++ chars)⟩ : Span).coveredText
      (before ++ (chars ++ [last]) ++ more) = chars ++ [last] := by
  have earlier : (placedBehind [] before).filter (fun place =>
      (⟨.behind before, .behind (before ++ chars)⟩ : Span).Covers place.1) =
        [] := by
    refine List.filter_eq_nil_iff.mpr fun place member covers => ?_
    have reaches := (of_decide_eq_true covers).1
    exact reaches.not_gt (bounds_of_mem_placedBehind member).2
  have inside : (placedBehind before (chars ++ [last])).filter (fun place =>
      (⟨.behind before, .behind (before ++ chars)⟩ : Span).Covers place.1) =
        placedBehind before (chars ++ [last]) :=
    List.filter_eq_self.mpr fun place member =>
      decide_eq_true (covers_of_mem member)
  have later : (placedBehind (before ++ (chars ++ [last])) more).filter
      (fun place =>
        (⟨.behind before, .behind (before ++ chars)⟩ : Span).Covers place.1) =
        [] := by
    refine List.filter_eq_nil_iff.mpr fun place member covers => ?_
    have reaches := (of_decide_eq_true covers).2
    have behindLast := Position.behind_lt_append (before ++ chars)
      (List.cons_ne_nil last [])
    rw [List.append_assoc] at behindLast
    exact reaches.not_gt
      (behindLast.trans_le (bounds_of_mem_placedBehind member).1)
  rw [coveredText, placed, placedBehind_append, placedBehind_append]
  rw [List.nil_append, List.nil_append, List.filter_append, List.filter_append,
    earlier, inside, later, List.nil_append, List.append_nil,
    map_snd_placedBehind]

/-! ## Lines -/

/-- The line that some text ends on and another one goes on with, without the
carriage returns at its end. -/
def lineAround (before rest : List Char) : String :=
  String.ofList <|
    (before.rtakeWhile (· ≠ '\n') ++ rest.takeWhile (· ≠ '\n')).rdropWhile
      (· = '\r')

theorem splitAtMark_append (mark : Char) (before rest : List Char) :
    splitAtMark mark (before ++ mark :: rest) =
      splitAtMark mark before ++ splitAtMark mark rest := by
  induction before with
  | nil => simp [splitAtMark]
  | cons char before inductionHypothesis =>
      rw [List.cons_append, splitAtMark, splitAtMark, inductionHypothesis]
      by_cases isMark : char = mark
      · simp [isMark]
      · cases parts : splitAtMark mark before with
        | nil => exact absurd parts (splitAtMark_ne_nil mark before)
        | cons part others => simp [isMark]

theorem length_splitAtMark (mark : Char) (chars : List Char) :
    (splitAtMark mark chars).length = chars.count mark + 1 := by
  induction chars with
  | nil => rfl
  | cons char chars inductionHypothesis =>
      rw [splitAtMark]
      by_cases isMark : char = mark
      · simp [isMark, inductionHypothesis]
      · cases parts : splitAtMark mark chars with
        | nil => exact absurd parts (splitAtMark_ne_nil mark chars)
        | cons part others =>
            rw [parts] at inductionHypothesis
            simpa [isMark] using inductionHypothesis

theorem head?_splitAtMark (mark : Char) (chars : List Char) :
    (splitAtMark mark chars).head? = some (chars.takeWhile (· ≠ mark)) := by
  induction chars with
  | nil => rfl
  | cons char chars inductionHypothesis =>
      rw [splitAtMark]
      by_cases isMark : char = mark
      · simp [isMark]
      · cases parts : splitAtMark mark chars with
        | nil => exact absurd parts (splitAtMark_ne_nil mark chars)
        | cons part others =>
            rw [parts] at inductionHypothesis
            simpa [isMark] using inductionHypothesis

theorem getElem?_splitAtMark (mark : Char) (before rest : List Char) :
    (splitAtMark mark (before ++ mark :: rest))[before.count mark + 1]? =
      some (rest.takeWhile (· ≠ mark)) := by
  rw [splitAtMark_append, ← length_splitAtMark,
    List.getElem?_append_right (Nat.le_refl _), Nat.sub_self,
    ← List.head?_eq_getElem?, head?_splitAtMark]

theorem splitAtMark_around (mark : Char) (before rest : List Char) :
    (splitAtMark mark (before ++ rest))[before.count mark]? =
      some (before.rtakeWhile (· ≠ mark) ++ rest.takeWhile (· ≠ mark)) := by
  induction before using List.reverseRecOn generalizing rest with
  | nil => simp [← List.head?_eq_getElem?, head?_splitAtMark]
  | append_singleton before last inductionHypothesis =>
      rw [List.append_assoc, List.singleton_append]
      by_cases isMark : last = mark
      · subst isMark
        simpa using getElem?_splitAtMark last before rest
      · simpa [isMark] using inductionHypothesis (last :: rest)

/-- A line is found by the number that its positions have. -/
theorem SourceText.lineText_behind {source : SourceText}
    {before rest : List Char} (divided : source.text.toList = before ++ rest) :
    source.lineText (Position.behind before).line = lineAround before rest := by
  have found := splitAtMark_around '\n' before rest
  rw [lineText, Position.behind, Nat.add_comm, line?, lines,
    List.getElem?_map, divided, found]
  rfl

end PluginSurface
