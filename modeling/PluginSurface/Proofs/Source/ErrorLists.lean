import Mathlib.Data.List.TakeDrop
import PluginSurface.Source.Diagnostic

/-!
# Lists of errors that are kept in part

A list of diagnostics keeps the first errors that were reported and counts all of
them. So it is known by all that was reported, and putting one list behind
another puts what was reported for the one behind what was for the other, even
where errors had been left out of either.
-/

namespace PluginSurface

namespace Diagnostics

section

variable (errors warnings : List Diagnostic)

/-- What is kept of errors and warnings that were reported. -/
def recording : Diagnostics :=
  ⟨errors.take storedLimit, warnings, errors.length, warnings.length⟩

@[simp]
theorem errors_recording :
    (recording errors warnings).errors = errors.take storedLimit :=
  rfl

@[simp]
theorem warnings_recording : (recording errors warnings).warnings = warnings :=
  rfl

@[simp]
theorem errorCount_recording :
    (recording errors warnings).errorCount = errors.length :=
  rfl

@[simp]
theorem warningCount_recording :
    (recording errors warnings).warningCount = warnings.length :=
  rfl

variable {errors warnings} in
theorem hasErrors_recording :
    (recording errors warnings).hasErrors = true ↔ errors ≠ [] := by
  rw [hasErrors, decide_eq_true_iff, errorCount_recording,
    List.length_pos_iff]

/-- An error is kept if there is room for it behind those that are kept. -/
theorem push_recording (error : Diagnostic) :
    (recording errors warnings).push error =
      recording (errors ++ [error]) warnings := by
  simp only [push, recording, List.length_take, List.length_append,
    List.length_singleton, mk.injEq, and_true]
  by_cases room : errors.length < storedLimit
  · have isRoom : min storedLimit errors.length < storedLimit := by omega
    have all : (errors ++ [error]).length ≤ storedLimit := by
      rw [List.length_append, List.length_singleton]
      omega
    rw [if_pos isRoom, List.take_of_length_le (Nat.le_of_lt room),
      List.take_of_length_le all]
  · have isFull : ¬min storedLimit errors.length < storedLimit := by omega
    rw [if_neg isFull, List.take_append_of_le_length (Nat.le_of_not_lt room)]

theorem foldl_push_recording (more : List Diagnostic) :
    more.foldl push (recording errors warnings) =
      recording (errors ++ more) warnings := by
  induction more generalizing errors with
  | nil => rw [List.foldl_nil, List.append_nil]
  | cons error more inductionHypothesis =>
      rw [List.foldl_cons, push_recording, inductionHypothesis,
        List.append_assoc, List.singleton_append]

theorem pushWarning_recording (warning : Diagnostic) :
    (recording errors warnings).pushWarning warning =
      recording errors (warnings ++ [warning]) := by
  simp [pushWarning, recording]

theorem foldl_pushWarning_recording (more : List Diagnostic) :
    more.foldl pushWarning (recording errors warnings) =
      recording errors (warnings ++ more) := by
  induction more generalizing warnings with
  | nil => rw [List.foldl_nil, List.append_nil]
  | cons warning more inductionHypothesis =>
      rw [List.foldl_cons, pushWarning_recording, inductionHypothesis,
        List.append_assoc, List.singleton_append]

/-- Errors behind those that a list kept have no room in a list behind it. -/
theorem take_append_take (limit : Nat) (front back : List Diagnostic) :
    (front ++ back.take limit).take limit = (front ++ back).take limit := by
  rw [List.take_append, List.take_append, List.take_take,
    Nat.min_eq_left (Nat.sub_le _ _)]

theorem extend_recording (moreErrors moreWarnings : List Diagnostic) :
    (recording errors warnings).extend (recording moreErrors moreWarnings) =
      recording (errors ++ moreErrors) (warnings ++ moreWarnings) := by
  have counted : (errors ++ moreErrors.take storedLimit).length +
      (moreErrors.length - (moreErrors.take storedLimit).length) =
        (errors ++ moreErrors).length := by
    simp only [List.length_append, List.length_take]
    omega
  simp only [extend, errors_recording, warnings_recording,
    errorCount_recording, warningCount_recording, foldl_push_recording,
    take_append_take, counted]
  exact foldl_pushWarning_recording (errors ++ moreErrors) warnings moreWarnings

end

/-! ## Collections -/

/-- How a list of diagnostics comes about from the empty one. -/
inductive Collection where
  | empty
  | push (collection : Collection) (error : Diagnostic)
  | pushWarning (collection : Collection) (warning : Diagnostic)
  | extend (collection other : Collection)

namespace Collection

def diagnostics : Collection → Diagnostics
  | empty => Diagnostics.empty
  | push collection error => collection.diagnostics.push error
  | pushWarning collection warning =>
      collection.diagnostics.pushWarning warning
  | extend collection other => collection.diagnostics.extend other.diagnostics

/-- All errors that were reported, whether they are kept or not. -/
def errors : Collection → List Diagnostic
  | empty => []
  | push collection error => collection.errors ++ [error]
  | pushWarning collection _ => collection.errors
  | extend collection other => collection.errors ++ other.errors

def warnings : Collection → List Diagnostic
  | empty => []
  | push collection _ => collection.warnings
  | pushWarning collection warning => collection.warnings ++ [warning]
  | extend collection other => collection.warnings ++ other.warnings

theorem diagnostics_eq_recording (collection : Collection) :
    collection.diagnostics =
      recording collection.errors collection.warnings := by
  induction collection with
  | empty => rfl
  | push collection error inductionHypothesis =>
      rw [diagnostics, inductionHypothesis, push_recording]
      rfl
  | pushWarning collection warning inductionHypothesis =>
      rw [diagnostics, inductionHypothesis, pushWarning_recording]
      rfl
  | extend collection other ofCollection ofOther =>
      rw [diagnostics, ofCollection, ofOther, extend_recording]
      rfl

theorem extend_assoc (first second third : Collection) :
    (first.diagnostics.extend second.diagnostics).extend third.diagnostics =
      first.diagnostics.extend
        (second.diagnostics.extend third.diagnostics) := by
  simp only [diagnostics_eq_recording, extend_recording, List.append_assoc]

/-- Putting a list behind another reports one by one what was reported for it. -/
theorem extend_eq_foldl (first second : Collection) :
    first.diagnostics.extend second.diagnostics =
      second.warnings.foldl Diagnostics.pushWarning
        (second.errors.foldl Diagnostics.push first.diagnostics) := by
  simp only [diagnostics_eq_recording, extend_recording, foldl_push_recording,
    foldl_pushWarning_recording]

end Collection

end Diagnostics

end PluginSurface
