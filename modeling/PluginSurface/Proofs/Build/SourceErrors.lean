import Mathlib.Algebra.GroupWithZero.Nat
import PluginSurface.Build.Session
import PluginSurface.Proofs.Grammar.Steps
import PluginSurface.Proofs.Source.ErrorLists

/-!
# Errors in the sources of a build

Scanning and parsing report errors one by one, so what is found to be wrong with
a source is a record of errors. A build that fails has put the records of its
sources one behind another, and so keeps the first errors in the order of the
sources and counts those of all.
-/

namespace PluginSurface

/-! ## Reports -/

/-- Diagnostics that others become when errors are reported. -/
def Diagnostics.Grows (before after : Diagnostics) : Prop :=
  ∃ errors : List Diagnostic, after = errors.foldl push before

namespace Diagnostics.Grows

variable {before between after : Diagnostics}

theorem refl (diagnostics : Diagnostics) : diagnostics.Grows diagnostics :=
  ⟨[], rfl⟩

theorem trans (first : before.Grows between) (second : between.Grows after) :
    before.Grows after := by
  obtain ⟨errors, rfl⟩ := first
  obtain ⟨more, rfl⟩ := second
  exact ⟨errors ++ more, List.foldl_append.symm⟩

end Diagnostics.Grows

namespace Scan

theorem grows_report (source : SourceText) (diagnostics : Diagnostics)
    (faults : List (SyntaxFault × Span)) :
    diagnostics.Grows (report source diagnostics faults) := by
  apply Exists.intro (faults.map fun fault => fault.1.diagnostic source fault.2)
  rw [report, List.foldl_map]

theorem grows_scanFrom (source : SourceText) (bound : Nat)
    (position : Position) (chars : List Char) (diagnostics : Diagnostics) :
    diagnostics.Grows
      (scanFrom source bound position chars diagnostics).diagnostics := by
  induction bound generalizing position chars diagnostics with
  | zero => exact .refl diagnostics
  | succ bound inductionHypothesis =>
      unfold scanFrom
      extract_lets trivia reported
      have atTrivia : diagnostics.Grows reported := by
        unfold reported
        split
        · exact grows_report source diagnostics _
        · exact .refl diagnostics
      apply atTrivia.trans
      split
      · exact .refl reported
      split
      · exact .refl reported
      · next char rest _ _ =>
          extract_lets lexeme found next remaining
          apply (grows_report source reported lexeme.faults).trans
          split
          · exact inductionHypothesis next remaining found
          · change found.Grows (if found.isFull then finish next found
              else scanFrom source bound next remaining found).diagnostics
            split
            · exact .refl found
            · exact inductionHypothesis next remaining found

end Scan

namespace Grammar

/-- Parsers report errors, and do nothing else to those reported before. -/
def reporting : StepRelation where
  Holds state later := state.diagnostics.Grows later.diagnostics
  trans first second := first.trans second
  move state _ _ _ := .refl state.diagnostics
  report state fault span := ⟨[fault.diagnostic state.source span], rfl⟩
  store state _ := .refl state.diagnostics
  deepen grows := grows

theorem grows_parse {source : SourceText} {kind : SourceKind}
    {tokens : List Token} {found : Diagnostics}
    (fails : parse source kind tokens = .error found) :
    Diagnostics.empty.Grows found := by
  have grows := (inferInstance : Follows reporting items).holds
    (initialState source tokens)
  unfold parse at fails
  split at fails
  next ran =>
    rw [FollowsIn, ran] at grows
    split at fails
    · cases fails
    · cases fails
      exact grows

end Grammar

/-! ## Sources -/

/-- What is found to be wrong with a source. -/
def BuildSource.diagnostics (source : BuildSource) : Diagnostics :=
  match source.source.parse source.kind with
  | .ok _ => .empty
  | .error found => found

theorem BuildSource.grows_diagnostics (source : BuildSource) :
    Diagnostics.empty.Grows source.diagnostics := by
  unfold diagnostics
  split
  · exact .refl .empty
  · next found fails =>
      unfold SourceText.parse at fails
      dsimp only at fails
      split at fails
      · cases fails
        exact Scan.grows_scanFrom source.source _ _ _ _
      · exact Grammar.grows_parse fails

/-! ## Builds -/

namespace Build

theorem diagnostics_parseAll (sources : List BuildSource)
    (diagnostics : Diagnostics) :
    (parseAll sources diagnostics).2 =
      sources.foldl (fun found source => found.extend source.diagnostics)
        diagnostics := by
  induction sources generalizing diagnostics with
  | nil => rfl
  | cons source sources inductionHypothesis =>
      rw [List.foldl_cons, ← inductionHypothesis]
      obtain ⟨text, kind⟩ := source
      cases parsed : text.parse kind with
      | ok program =>
          have nothing : BuildSource.diagnostics ⟨text, kind⟩ = .empty := by
            simp only [BuildSource.diagnostics, parsed]
          have same : diagnostics.extend .empty = diagnostics := rfl
          rw [nothing, same]
          simp only [parseAll, parsed]
      | error found =>
          have all : BuildSource.diagnostics ⟨text, kind⟩ = found := by
            simp only [BuildSource.diagnostics, parsed]
          rw [all]
          simp only [parseAll, parsed]

/-- The records of sources add up to a record of all that was reported. -/
theorem diagnostics_parseAll_recording
    {reported : BuildSource → List Diagnostic}
    (recorded : ∀ source : BuildSource,
      source.diagnostics = .recording (reported source) [])
    (sources : List BuildSource) :
    (parseAll sources .empty).2 =
      .recording (sources.flatMap reported) [] := by
  have further (errors : List Diagnostic) :
      sources.foldl (fun found source => found.extend source.diagnostics)
          (Diagnostics.recording errors []) =
        .recording (errors ++ sources.flatMap reported) [] := by
    induction sources generalizing errors with
    | nil => simp
    | cons source sources inductionHypothesis =>
        rw [List.foldl_cons, recorded, Diagnostics.extend_recording,
          List.append_nil, inductionHypothesis, List.flatMap_cons,
          List.append_assoc]
  exact (diagnostics_parseAll sources .empty).trans (further [])

theorem fails_transform_iff (build : Build) (sources : List BuildSource)
    (diagnostics : Diagnostics) :
    (build.transform sources).1 = .error (.source diagnostics) ↔
      diagnostics = (parseAll sources .empty).2 ∧
        diagnostics.hasErrors = true := by
  unfold transform
  dsimp only
  generalize (parseAll sources .empty).2 = found
  split
  · next faulty =>
      constructor
      · intro same
        cases same
        exact ⟨rfl, faulty⟩
      · rintro ⟨rfl, -⟩
        rfl
  · next clean =>
      constructor
      · intro same
        split at same <;> cases same
      · rintro ⟨rfl, faulty⟩
        exact absurd faulty clean

/-- Lists of errors keep the first twenty and count all, whichever way they are
put together. So does a build that fails, over the errors that were reported for
its sources. -/
theorem errors_kept_and_counted :
    (∀ collection : Diagnostics.Collection,
      collection.diagnostics.errors = collection.errors.take 20 ∧
        collection.diagnostics.errorCount = collection.errors.length) ∧
    (∀ first second third : Diagnostics.Collection,
      (first.diagnostics.extend second.diagnostics).extend third.diagnostics =
        first.diagnostics.extend
          (second.diagnostics.extend third.diagnostics)) ∧
    (∀ first second : Diagnostics.Collection,
      first.diagnostics.extend second.diagnostics =
        second.warnings.foldl Diagnostics.pushWarning
          (second.errors.foldl Diagnostics.push first.diagnostics)) ∧
    ∃ reported : BuildSource → List Diagnostic,
      (∀ source,
        source.diagnostics = (reported source).foldl Diagnostics.push .empty) ∧
      ∀ (build : Build) (sources : List BuildSource)
          (diagnostics : Diagnostics),
        (build.transform sources).1 = .error (.source diagnostics) ↔
          sources.flatMap reported ≠ [] ∧
            diagnostics.errors = (sources.flatMap reported).take 20 ∧
            diagnostics.errorCount =
              (sources.map fun source => source.diagnostics.errorCount).sum ∧
            diagnostics.warnings = [] ∧ diagnostics.warningCount = 0 := by
  refine ⟨fun collection => ?_, Diagnostics.Collection.extend_assoc,
    Diagnostics.Collection.extend_eq_foldl, ?_⟩
  · rw [collection.diagnostics_eq_recording]
    exact ⟨rfl, rfl⟩
  · choose reported pushed using BuildSource.grows_diagnostics
    have recorded (source : BuildSource) :
        source.diagnostics = .recording (reported source) [] :=
      (pushed source).trans (Diagnostics.foldl_push_recording [] [] _)
    refine ⟨reported, pushed, fun build sources diagnostics => ?_⟩
    have counted :
        (sources.map fun source => source.diagnostics.errorCount).sum =
          (sources.flatMap reported).length := by
      simp only [recorded, Diagnostics.errorCount_recording, List.length_flatMap]
    rw [fails_transform_iff, diagnostics_parseAll_recording recorded, counted]
    constructor
    · rintro ⟨rfl, faulty⟩
      exact ⟨Diagnostics.hasErrors_recording.mp faulty, rfl, rfl, rfl, rfl⟩
    · rintro ⟨nonempty, errors, errorCount, warnings, warningCount⟩
      have same : diagnostics = .recording (sources.flatMap reported) [] := by
        cases diagnostics
        simp only at errors errorCount warnings warningCount
        rw [errors, errorCount, warnings, warningCount]
        rfl
      exact ⟨same, same ▸ Diagnostics.hasErrors_recording.mpr nonempty⟩

end Build

end PluginSurface
