/-!
Characters divided at a mark.
-/

namespace PluginSurface

/-- The parts between the marks of a text. There is one more part than there
are marks. -/
def splitAtMark (mark : Char) : List Char → List (List Char)
  | [] => [[]]
  | char :: rest =>
      if char = mark then [] :: splitAtMark mark rest
      else
        match splitAtMark mark rest with
        | [] => [[char]]
        | part :: parts => (char :: part) :: parts

def joinWithMark (mark : Char) : List (List Char) → List Char
  | [] => []
  | [part] => part
  | part :: next :: parts => part ++ mark :: joinWithMark mark (next :: parts)

theorem splitAtMark_ne_nil (mark : Char) (chars : List Char) :
    splitAtMark mark chars ≠ [] := by
  cases chars with
  | nil => simp [splitAtMark]
  | cons char rest =>
      simp only [splitAtMark]
      split
      · simp
      · split <;> simp

/-- Joining the parts of a text gives the text. -/
theorem joinWithMark_splitAtMark (mark : Char) (chars : List Char) :
    joinWithMark mark (splitAtMark mark chars) = chars := by
  induction chars with
  | nil => rfl
  | cons char rest step =>
      have nonempty := splitAtMark_ne_nil mark rest
      cases parts : splitAtMark mark rest with
      | nil => exact absurd parts nonempty
      | cons part others =>
          rw [parts] at step
          by_cases same : char = mark
          · simp [splitAtMark, same, parts, joinWithMark, step]
          · cases others <;>
              simp_all [splitAtMark, joinWithMark]

end PluginSurface
