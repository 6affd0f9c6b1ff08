import PluginSurface.Build.Workspace

/-!
# Workspaces

A question changes a workspace in one way only: the manifest that it would
assemble is kept, and one identity is used up. A transformation clears all else,
so what a workspace answers depends on its last transformation.
-/

namespace PluginSurface

namespace Workspace

/-! ## Questions -/

/-- The manifest that questions are answered with. -/
def current (workspace : Workspace) : Manifest :=
  workspace.assembled.getD workspace.assemble

/-- What a question returns if it is answered with a manifest. -/
def answerWith (workspace : Workspace) (manifest : Manifest) :
    BuildQuery → Except BuildError BuildAnswer
  | .maskedSources => .ok (.maskedSources workspace.ownTexts)
  | .manifest => .ok (.manifest manifest)
  | .embed module => workspace.embed manifest module
  | .report => .ok (workspace.report manifest)

/-- Workspaces that differ at most in whether their manifest is kept. -/
structure Alike (first second : Workspace) : Prop where
  settings : first.settings = second.settings
  revision : first.revision = second.revision
  context : first.context = second.context
  parsed : first.parsed = second.parsed
  programs : first.programs = second.programs
  isTransformed : first.isTransformed = second.isTransformed
  current : first.current = second.current

theorem Alike.refl (workspace : Workspace) : workspace.Alike workspace :=
  ⟨rfl, rfl, rfl, rfl, rfl, rfl, rfl⟩

theorem Alike.answerWith {first second : Workspace}
    (alike : first.Alike second) (manifest : Manifest) (query : BuildQuery) :
    first.answerWith manifest query = second.answerWith manifest query := by
  cases query <;>
    simp only [Workspace.answerWith, ownTexts, embed, report, alike.settings,
      alike.context, alike.programs]

theorem ensureManifest_transformed {workspace : Workspace}
    (transformed : workspace.isTransformed = true) :
    workspace.ensureManifest.1 = .ok workspace.current ∧
      workspace.Alike workspace.ensureManifest.2 := by
  have ensured : workspace.ensureTransformed = .ok () := if_pos transformed
  unfold ensureManifest current
  rw [ensured]
  cases found : workspace.assembled with
  | some manifest => exact ⟨rfl, .refl workspace⟩
  | none =>
      refine ⟨rfl, rfl, rfl, rfl, rfl, rfl, rfl, ?_⟩
      simp [current, found]

theorem ask_transformed {workspace : Workspace}
    (transformed : workspace.isTransformed = true) (query : BuildQuery) :
    (workspace.ask query).1 = workspace.answerWith workspace.current query ∧
      workspace.Alike (workspace.ask query).2 := by
  obtain ⟨isCurrent, alike⟩ := ensureManifest_transformed transformed
  have ensured : workspace.ensureTransformed = .ok () := if_pos transformed
  cases query with
  | maskedSources =>
      refine ⟨?_, .refl workspace⟩
      simp only [ask, ensured]
      rfl
  | manifest | embed module | report =>
      refine ⟨?_, alike⟩
      simp only [ask, isCurrent]
      rfl

theorem ask_untransformed {workspace : Workspace}
    (untransformed : workspace.isTransformed = false) (query : BuildQuery) :
    workspace.ask query = (.error .notTransformed, workspace) := by
  have refused : workspace.ensureTransformed = .error .notTransformed :=
    if_neg (Bool.eq_false_iff.mp untransformed)
  cases query <;> simp only [ask, ensureManifest, refused] <;> rfl

/-- Questions are all answered with one manifest, whatever was asked before. -/
theorem answers_transformed {workspace : Workspace}
    (transformed : workspace.isTransformed = true)
    (queries : List BuildQuery) :
    workspace.answers (queries.map .ask) =
      queries.map (workspace.answerWith workspace.current) := by
  induction queries generalizing workspace with
  | nil => rfl
  | cons query rest inductionHypothesis =>
      obtain ⟨answered, alike⟩ := ask_transformed transformed query
      have later := inductionHypothesis (alike.isTransformed ▸ transformed)
      rw [List.map_cons, List.map_cons, ← answered]
      refine congrArg (_ :: ·) (later.trans ?_)
      refine List.map_congr_left fun other _ => ?_
      rw [← alike.current, ← alike.answerWith]

theorem answers_untransformed {workspace : Workspace}
    (untransformed : workspace.isTransformed = false)
    (queries : List BuildQuery) :
    workspace.answers (queries.map .ask) =
      queries.map fun _ => .error .notTransformed := by
  induction queries with
  | nil => rfl
  | cons query rest inductionHypothesis =>
      simp only [List.map_cons, answers, call,
        ask_untransformed untransformed, inductionHypothesis]

/-! ## Transformations -/

/-- Nothing of a workspace outlasts a transformation but what it was started
with and the identities that are left. -/
theorem call_transform_eq (workspace : Workspace)
    (sources : List BuildSource) :
    workspace.call (.transform sources) =
      (start workspace.settings workspace.revision
        workspace.identities).call (.transform sources) := rfl

/-- Whether questions are answered is decided by the last transformation. -/
theorem isTransformed_call (workspace : Workspace)
    (sources : List BuildSource) :
    (workspace.call (.transform sources)).2.isTransformed =
      (workspace.call (.transform sources)).1.isOk := by
  unfold call transform
  dsimp only
  split
  · rfl
  · split <;> rfl

/-- What calls leave as it is: a workspace keeps what it was started with, and
uses up identities in their order. -/
structure Continues (workspace later : Workspace) : Prop where
  settings : later.settings = workspace.settings
  revision : later.revision = workspace.revision
  identities : ∃ drawn, later.identities =
    fun index => workspace.identities (index + drawn)

theorem Continues.refl (workspace : Workspace) :
    workspace.Continues workspace :=
  ⟨rfl, rfl, 0, rfl⟩

theorem Continues.trans {workspace later last : Workspace}
    (first : workspace.Continues later) (second : later.Continues last) :
    workspace.Continues last := by
  obtain ⟨drawn, identities⟩ := first.identities
  obtain ⟨further, lastIdentities⟩ := second.identities
  refine ⟨second.settings.trans first.settings,
    second.revision.trans first.revision, further + drawn, ?_⟩
  simp only [lastIdentities, identities, Nat.add_assoc]

theorem continues_ensureManifest (workspace : Workspace) :
    workspace.Continues workspace.ensureManifest.2 := by
  unfold ensureManifest
  split
  · exact .refl workspace
  · split
    · exact .refl workspace
    · exact ⟨rfl, rfl, 1, rfl⟩

theorem continues_call (workspace : Workspace) (call : BuildCall) :
    workspace.Continues (workspace.call call).2 := by
  match call with
  | .transform sources =>
      unfold Workspace.call transform
      dsimp only
      split
      · exact ⟨rfl, rfl, 0, rfl⟩
      · split <;> exact ⟨rfl, rfl, 0, rfl⟩
  | .ask .maskedSources => exact .refl workspace
  | .ask .manifest | .ask (.embed _) | .ask .report =>
      exact continues_ensureManifest workspace

theorem continues_after (workspace : Workspace) (calls : List BuildCall) :
    workspace.Continues (workspace.after calls) := by
  induction calls generalizing workspace with
  | nil => exact .refl workspace
  | cons call rest inductionHypothesis =>
      exact (continues_call workspace call).trans (inductionHypothesis _)

/-- After any calls, a transformation and the questions that follow it are
answered as by a workspace that does this transformation only. If it succeeds,
all questions are answered with one manifest. If it fails, and before the first
one, all of them are refused. -/
theorem answers_follow_last_transformation (settings : Settings)
    (revision : Option Revision) (identities : Nat → BuildIdentity)
    (earlier : List BuildCall) (sources : List BuildSource)
    (queries : List BuildQuery) :
    let begun := start settings revision identities
    let reached := begun.after earlier
    let fresh := start settings revision reached.identities
    let done := reached.call (.transform sources)
    let alone := fresh.call (.transform sources)
    (∃ drawn, reached.identities = fun index => identities (index + drawn)) ∧
      begun.answers (queries.map .ask) =
        (queries.map fun _ => .error .notTransformed) ∧
      done.1 = alone.1 ∧
      done.2.answers (queries.map .ask) =
        (queries.map fun query => (alone.2.ask query).1) ∧
      match done.1 with
      | .ok _ =>
          ∃ manifest, done.2.answers (queries.map .ask) =
            queries.map (alone.2.answerWith manifest)
      | .error _ =>
          done.2.answers (queries.map .ask) =
            queries.map fun _ => .error .notTransformed := by
  intro begun reached fresh done alone
  have continues := continues_after begun earlier
  have same : done = alone := by
    have cleared := call_transform_eq reached sources
    rwa [continues.settings, continues.revision] at cleared
  have isTransformed := isTransformed_call fresh sources
  change alone.2.isTransformed = alone.1.isOk at isTransformed
  rw [same]
  refine ⟨continues.identities, answers_untransformed rfl queries, rfl, ?_⟩
  clear_value alone
  obtain ⟨_ | _, after⟩ := alone
  · have refused := answers_untransformed isTransformed queries
    refine ⟨refused.trans (List.map_congr_left fun query _ => ?_), refused⟩
    rw [ask_untransformed isTransformed]
  · have answered := answers_transformed isTransformed queries
    refine ⟨answered.trans (List.map_congr_left fun query _ => ?_),
      after.current, answered⟩
    rw [(ask_transformed isTransformed query).1]

end Workspace

/-! ## Builds without a kept manifest -/

namespace Build

/-- A call to a build that assembles its manifest whenever it needs it. -/
def call (build : Build) :
    BuildCall → Except BuildError BuildAnswer × Build
  | .transform sources =>
      let (result, after) := build.transform sources
      (result.map fun transformed => .transformed transformed.programs, after)
  | .ask .maskedSources =>
      (build.maskedSources.map .maskedSources, build)
  | .ask .manifest => (build.manifest.map .manifest, build)
  | .ask (.embed module) =>
      ((build.embed module).map fun (module, summary) =>
        .embedded module summary, build)
  | .ask .report => (build.report.map .report, build)

def answers (build : Build) :
    List BuildCall → List (Except BuildError BuildAnswer)
  | [] => []
  | call :: rest =>
      let (answer, after) := build.call call
      answer :: after.answers rest

/-- A workspace and a build that hold the same programs, and a manifest that is
the same whether or not it has been kept. -/
structure Reflects (build : Build) (workspace : Workspace) : Prop where
  settings : build.settings = workspace.settings
  revision : build.revision = workspace.revision
  identities : workspace.identities = fun _ => build.identity
  context : build.context = workspace.context
  transformed : build.ensureTransformed =
    workspace.ensureTransformed.map fun () =>
      ⟨workspace.parsed, workspace.programs⟩
  current : workspace.isTransformed = true →
    build.manifest = .ok workspace.current

variable {build : Build} {workspace : Workspace}

/-- A question changes nothing that a build reflects, as all identities are the
same. -/
theorem Reflects.continued (reflects : build.Reflects workspace)
    {later : Workspace} (alike : workspace.Alike later)
    (continues : workspace.Continues later) : build.Reflects later where
  settings := reflects.settings.trans alike.settings
  revision := reflects.revision.trans alike.revision
  identities := by
    obtain ⟨drawn, identities⟩ := continues.identities
    rw [identities, reflects.identities]
  context := reflects.context.trans alike.context
  transformed := by
    rw [reflects.transformed, alike.parsed, alike.programs]
    simp only [Workspace.ensureTransformed, alike.isTransformed]
  current transformed :=
    alike.current ▸ reflects.current (alike.isTransformed ▸ transformed)

theorem reflects_ask (reflects : build.Reflects workspace)
    (query : BuildQuery) :
    (build.call (.ask query)).1 = (workspace.ask query).1 ∧
      build.Reflects (workspace.ask query).2 := by
  have continues := Workspace.continues_call workspace (.ask query)
  cases transformed : workspace.isTransformed with
  | true =>
      obtain ⟨answered, alike⟩ := Workspace.ask_transformed transformed query
      refine ⟨?_, reflects.continued alike continues⟩
      have manifest := reflects.current transformed
      rw [answered]
      cases query with
      | maskedSources =>
          simp only [call, maskedSources, reflects.transformed,
            Workspace.ensureTransformed, if_pos transformed]
          rfl
      | manifest =>
          simp only [call, manifest]
          rfl
      | embed module =>
          simp only [call, embed, manifest, reflects.settings]
          change Except.map _ (Except.mapError _ _) = workspace.embed _ _
          unfold Workspace.embed
          generalize Manifest.embed _ _ _ = embedded
          rcases embedded with _ | ⟨_, _⟩ <;> rfl
      | report =>
          simp only [call, report, manifest, reflects.settings,
            reflects.context]
          rfl
  | false =>
      rw [Workspace.ask_untransformed transformed]
      refine ⟨?_, reflects⟩
      have refused : build.ensureTransformed = .error .notTransformed := by
        rw [reflects.transformed, Workspace.ensureTransformed, transformed]
        rfl
      cases query <;>
        simp only [call, maskedSources, manifest, embed, report, refused] <;>
        rfl

/-- A transformation that fails leaves a build and a workspace without
programs. -/
theorem Reflects.cleared (reflects : build.Reflects workspace)
    (context : MaskingContext) :
    Reflects { build with context := context, transformed := none }
      { workspace.clear with context := context } where
  settings := reflects.settings
  revision := reflects.revision
  identities := reflects.identities
  context := rfl
  transformed := rfl
  current transformed := by cases transformed

theorem reflects_transform (reflects : build.Reflects workspace)
    (sources : List BuildSource) :
    (build.call (.transform sources)).1 =
        (workspace.call (.transform sources)).1 ∧
      (build.call (.transform sources)).2.Reflects
        (workspace.call (.transform sources)).2 := by
  have sameMasking (programs : List Program) :
      workspace.clear.context.maskAnew programs = maskSources programs := rfl
  unfold call Workspace.call Build.transform Workspace.transform
  simp only [sameMasking]
  split
  · exact ⟨rfl, reflects.cleared .empty⟩
  · generalize maskSources _ = masking
    obtain ⟨error | programs, context⟩ := masking
    · exact ⟨rfl, reflects.cleared context⟩
    · refine ⟨rfl, reflects.settings, reflects.revision, reflects.identities,
        rfl, rfl, fun _ => ?_⟩
      simp only [manifest, Workspace.current, Workspace.assemble,
        Workspace.clear, reflects.settings, reflects.revision,
        reflects.identities]
      rfl

theorem answers_eq_of_reflects (reflects : build.Reflects workspace)
    (calls : List BuildCall) :
    workspace.answers calls = build.answers calls := by
  induction calls generalizing build workspace with
  | nil => rfl
  | cons call rest inductionHypothesis =>
      have step : (build.call call).1 = (workspace.call call).1 ∧
          (build.call call).2.Reflects (workspace.call call).2 := by
        cases call with
        | transform sources => exact reflects_transform reflects sources
        | ask query =>
            obtain ⟨same, still⟩ := reflects_ask reflects query
            exact ⟨same, by cases query <;> exact still⟩
      simp only [Workspace.answers, answers, step.1,
        inductionHypothesis step.2]

/-- Keeping the manifest cannot be noticed if all manifests of a build have one
identity. -/
theorem answers_eq (settings : Settings) (revision : Option Revision)
    (identity : BuildIdentity) (calls : List BuildCall) :
    (Workspace.start settings revision fun _ => identity).answers calls =
      (start settings revision identity).answers calls :=
  answers_eq_of_reflects
    ⟨rfl, rfl, rfl, rfl, rfl, fun transformed => by cases transformed⟩ calls

end Build

end PluginSurface
