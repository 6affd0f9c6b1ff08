import PluginSurface.Proofs.Surface.Manifest
import PluginSurface.Proofs.Wasm.Framing

/-!
# Embedding touches only its own section

`Attached` says what the sections of a module are once a custom section has been
put into it; a walk over the sections that writes each of them once gives the
same. The main result is that the module which `embed` gives is read as sections
that are `Attached`, that the manifest is told by the new one, that all sections
under other names are still there in their order, and that embedding once more
overwrites.
-/

namespace PluginSurface

open Leb128 (Bytes)

namespace Wasm

/-- A custom section takes the place of the first section with its name, and all
later ones are gone; without such a section it stands at the end. -/
inductive Attached (custom : Custom) : List Section → List Section → Prop
  | replaced {before later : List Section} {first : Section}
      (others : ∀ sec ∈ before, sec.isNamed custom.name = false)
      (named : first.isNamed custom.name = true) :
      Attached custom (before ++ first :: later)
        (before ++ custom.toSection ::
          later.filter fun sec => !sec.isNamed custom.name)
  | added {sections : List Section}
      (others : ∀ sec ∈ sections, sec.isNamed custom.name = false) :
      Attached custom sections (sections ++ [custom.toSection])

/-- The sections that are not custom sections with a name. -/
def otherSections (name : String) (sections : List Section) : List Section :=
  sections.filter fun sec => !sec.isNamed name

variable {custom : Custom}

theorem attach_eq_of_first {before later : List Section} {first : Section}
    (others : ∀ sec ∈ before, sec.isNamed custom.name = false)
    (named : first.isNamed custom.name = true) :
    attach custom (before ++ first :: later) =
      before ++ custom.toSection :: otherSections custom.name later := by
  have passed : ∀ sec ∈ before, (!sec.isNamed custom.name) = true := by
    intro sec member
    rw [others sec member, Bool.not_false]
  have dropped : (first :: later).dropWhile
      (fun sec => !sec.isNamed custom.name) = first :: later := by
    simp [named]
  have taken : (first :: later).takeWhile
      (fun sec => !sec.isNamed custom.name) = [] := by
    simp [named]
  rw [attach, List.dropWhile_append_of_pos passed, dropped,
    List.takeWhile_append_of_pos passed, taken, List.append_nil]
  rfl

theorem attach_eq_of_absent {sections : List Section}
    (others : ∀ sec ∈ sections, sec.isNamed custom.name = false) :
    attach custom sections = sections ++ [custom.toSection] := by
  have nothing : sections.dropWhile
      (fun sec => !sec.isNamed custom.name) = [] := by
    have passed : ∀ sec ∈ sections, (!sec.isNamed custom.name) = true := by
      intro sec member
      rw [others sec member, Bool.not_false]
    rw [← List.append_nil sections, List.dropWhile_append_of_pos passed,
      List.dropWhile_nil]
  rw [attach, nothing]

/-- Sections have a first one with a name, or none. -/
theorem exists_first_or_absent (name : String) (sections : List Section) :
    (∃ before first later, sections = before ++ first :: later ∧
        (∀ sec ∈ before, sec.isNamed name = false) ∧
          first.isNamed name = true) ∨
      ∀ sec ∈ sections, sec.isNamed name = false := by
  cases found : sections.find? (Section.isNamed name) with
  | none =>
      right
      intro sec member
      simpa using List.find?_eq_none.mp found sec member
  | some first =>
      left
      obtain ⟨named, before, later, split, others⟩ :=
        List.find?_eq_some_iff_append.mp found
      exact ⟨before, first, later, split,
        fun sec member => by simpa using others sec member, named⟩

/-! ## One section after the other -/

/-- What has been written of a module, and whether a custom section stands in
it for the first section with its name. -/
structure Rewritten where
  sections : List Section
  isReplaced : Bool

namespace Rewritten

/-- Writes the next section of a module. The first section with the name of the
custom one gives way to it, and all later ones are passed over. -/
def next (custom : Custom) (written : Rewritten) (sec : Section) : Rewritten :=
  if sec.isNamed custom.name then
    if written.isReplaced then written
    else ⟨written.sections ++ [custom.toSection], true⟩
  else { written with sections := written.sections ++ [sec] }

/-- Adds the custom section at the end unless it stands in the module. -/
def finish (custom : Custom) (written : Rewritten) : List Section :=
  if written.isReplaced then written.sections
  else written.sections ++ [custom.toSection]

theorem next_of_named {written : Rewritten} {sec : Section}
    (named : sec.isNamed custom.name = true) :
    written.next custom sec =
      if written.isReplaced then written
      else ⟨written.sections ++ [custom.toSection], true⟩ :=
  if_pos named

theorem next_of_other {written : Rewritten} {sec : Section}
    (other : sec.isNamed custom.name = false) :
    written.next custom sec =
      ⟨written.sections ++ [sec], written.isReplaced⟩ :=
  if_neg (by simp [other])

/-- As long as no section has the name, all of them are copied. -/
theorem foldl_next_of_absent {sections : List Section} (written : Rewritten)
    (others : ∀ sec ∈ sections, sec.isNamed custom.name = false) :
    sections.foldl (next custom) written =
      ⟨written.sections ++ sections, written.isReplaced⟩ := by
  induction sections generalizing written with
  | nil => rw [List.foldl_nil, List.append_nil]
  | cons first rest inductionHypothesis =>
      obtain ⟨other, others⟩ := List.forall_mem_cons.mp others
      rw [List.foldl_cons, next_of_other other, inductionHypothesis _ others,
        List.append_assoc, List.singleton_append]

/-- Once the custom section stands in the module, sections with its name are
passed over. -/
theorem foldl_next_of_replaced (before later : List Section) :
    later.foldl (next custom) ⟨before, true⟩ =
      ⟨before ++ otherSections custom.name later, true⟩ := by
  induction later generalizing before with
  | nil => rw [List.foldl_nil, otherSections, List.filter_nil, List.append_nil]
  | cons first rest inductionHypothesis =>
      rw [List.foldl_cons]
      cases named : first.isNamed custom.name with
      | true =>
          rw [next_of_named named, if_pos rfl, inductionHypothesis]
          simp [otherSections, named]
      | false =>
          rw [next_of_other named, inductionHypothesis]
          simp [otherSections, named]

end Rewritten

/-- Attaching a custom section goes over the sections once, and it has replaced
one exactly if one of them has its name. -/
theorem attach_eq_foldl (custom : Custom) (sections : List Section) :
    attach custom sections =
        (sections.foldl (Rewritten.next custom) ⟨[], false⟩).finish custom ∧
      sections.any (Section.isNamed custom.name) =
        (sections.foldl (Rewritten.next custom) ⟨[], false⟩).isReplaced := by
  rcases exists_first_or_absent custom.name sections with
    ⟨before, first, later, rfl, others, named⟩ | others
  · have run : (before ++ first :: later).foldl (Rewritten.next custom)
        ⟨[], false⟩ =
          ⟨before ++ [custom.toSection] ++ otherSections custom.name later,
            true⟩ := by
      rw [List.foldl_append, Rewritten.foldl_next_of_absent _ others,
        List.foldl_cons, Rewritten.next_of_named named]
      exact Rewritten.foldl_next_of_replaced _ later
    rw [run, attach_eq_of_first others named]
    refine ⟨?_, ?_⟩
    · rw [Rewritten.finish, if_pos rfl, List.append_assoc,
        List.singleton_append]
    · exact List.any_eq_true.mpr
        ⟨first, List.mem_append_right _ List.mem_cons_self, named⟩
  · rw [Rewritten.foldl_next_of_absent _ others, attach_eq_of_absent others]
    refine ⟨rfl, ?_⟩
    exact List.any_eq_false.mpr fun sec member => by simp [others sec member]

/-! ## What attaching leaves -/

theorem attached_attach (custom : Custom) (sections : List Section) :
    Attached custom sections (attach custom sections) := by
  rcases exists_first_or_absent custom.name sections with
    ⟨before, first, later, rfl, others, named⟩ | others
  · rw [attach_eq_of_first others named]
    exact .replaced others named
  · rw [attach_eq_of_absent others]
    exact .added others

theorem Attached.otherSections_eq {sections attached : List Section}
    (named : custom.toSection.isNamed custom.name = true)
    (attaches : Attached custom sections attached) :
    otherSections custom.name attached =
      otherSections custom.name sections := by
  cases attaches with
  | replaced others firstNamed =>
      simp [otherSections, List.filter_append, named, firstNamed]
  | added others =>
      simp [otherSections, List.filter_append, named]

/-- A custom section overwrites one of its name that was put in before. -/
theorem attach_attach {again : Custom} {sections : List Section}
    (named : custom.toSection.isNamed custom.name = true)
    (same : again.name = custom.name) :
    attach again (attach custom sections) = attach again sections := by
  rcases exists_first_or_absent custom.name sections with
    ⟨before, first, later, rfl, others, firstNamed⟩ | others
  · have kept : otherSections custom.name (otherSections custom.name later) =
        otherSections custom.name later := by
      simp [otherSections]
    rw [attach_eq_of_first others firstNamed]
    rw [← same] at others named firstNamed kept ⊢
    rw [attach_eq_of_first others named, attach_eq_of_first others firstNamed,
      kept]
  · rw [attach_eq_of_absent others]
    rw [← same] at others named
    rw [attach_eq_of_first others named, attach_eq_of_absent others]
    rfl

theorem Attached.mem_toSection {sections attached : List Section}
    (attaches : Attached custom sections attached) :
    custom.toSection ∈ attached := by
  cases attaches <;> simp

/-- The first section with the name is the one that was put in. -/
theorem Attached.find?_isNamed {sections attached : List Section}
    (named : custom.toSection.isNamed custom.name = true)
    (attaches : Attached custom sections attached) :
    attached.find? (Section.isNamed custom.name) = some custom.toSection := by
  cases attaches with
  | replaced others _ | added others =>
      rw [List.find?_append, List.find?_eq_none.mpr, Option.none_or,
        List.find?_cons_of_pos named]
      intro sec member
      simp [others sec member]

end Wasm

namespace Manifest

variable {manifest : Manifest} {sectionName : String} {input output : Bytes}
  {summary : EmbedSummary}

/-- What embedding a manifest has found and what it has made of it. -/
theorem embed_ok (embeds : manifest.embed sectionName input =
      .ok (output, summary)) :
    sectionName ≠ "" ∧ ∃ version sections,
      Wasm.read? input = some (.module version, ⟨sections, true⟩) ∧
        output =
          Wasm.encode (Wasm.attach ⟨sectionName, manifest.payload⟩ sections) ∧
        Wasm.isValidModule output = true ∧
        summary.isReplaced =
          sections.any (Wasm.Section.isNamed sectionName) := by
  unfold embed at embeds
  by_cases nameless : sectionName = ""
  · simp [nameless, throw, throwThe, MonadExceptOf.throw] at embeds
    cases embeds
  refine ⟨nameless, ?_⟩
  simp only [nameless, if_false] at embeds
  split at embeds
  · cases embeds
  · cases embeds
  · rename_i version sections read
    obtain ⟨sections, isComplete⟩ := sections
    cases isComplete with
    | false => cases embeds
    | true =>
        by_cases valid : Wasm.isValidModule (Wasm.encode
          (Wasm.attach ⟨sectionName, manifest.payload⟩ sections)) = true
        · simp [valid] at embeds
          cases embeds
          exact ⟨version, sections, read, rfl, valid, rfl⟩
        · simp [valid] at embeds
          cases embeds

theorem embed_eq_of_read? (nonempty : sectionName ≠ "") {version : Nat}
    {sections : List Wasm.Section}
    (read : Wasm.read? input = some (.module version, ⟨sections, true⟩)) :
    (manifest.embed sectionName input).map Prod.fst =
      if Wasm.isValidModule (Wasm.encode
          (Wasm.attach ⟨sectionName, manifest.payload⟩ sections)) then
        .ok (Wasm.encode
          (Wasm.attach ⟨sectionName, manifest.payload⟩ sections))
      else .error .invalid := by
  unfold embed
  by_cases valid : Wasm.isValidModule (Wasm.encode
      (Wasm.attach ⟨sectionName, manifest.payload⟩ sections)) = true
  · simp only [nonempty, if_false, read, valid]
    rfl
  · rw [Bool.not_eq_true] at valid
    simp only [nonempty, if_false, read, valid]
    rfl

/-- Embedding a manifest puts it into the section with the name, from which it
can be read, and leaves all other sections as they are. Embedding once more
overwrites. -/
theorem embed_attaches {version : Nat} {sections : Wasm.Sections}
    (read : Wasm.read? input = some (.module version, sections))
    (embeds : manifest.embed sectionName input = .ok (output, summary)) :
    sections.isComplete = true ∧
      ∃ attached, Wasm.read? output = some (.module 1, ⟨attached, true⟩) ∧
        Wasm.Attached ⟨sectionName, manifest.payload⟩ sections.items attached ∧
        (Wasm.Custom.toSection ⟨sectionName, manifest.payload⟩).custom? =
          some ⟨sectionName, manifest.payload⟩ ∧
        manifest.IsToldBy manifest.payload ∧
        Wasm.otherSections sectionName attached =
          Wasm.otherSections sectionName sections.items ∧
        (summary.isReplaced = true ↔
          ∃ sec ∈ sections.items, sec.isNamed sectionName = true) ∧
        ∀ further : Manifest,
          (further.embed sectionName output).map Prod.fst =
            (further.embed sectionName input).map Prod.fst := by
  obtain ⟨nonempty, _, items, sameRead, rfl, valid, replaced⟩ := embed_ok embeds
  cases read.symm.trans sameRead
  have readAgain := Wasm.read?_encode_of_isValidModule valid
  have attaches := Wasm.attached_attach ⟨sectionName, manifest.payload⟩ items
  have framed := Wasm.isFramed_of_read? readAgain attaches.mem_toSection
  have named := Wasm.Custom.isNamed_toSection framed
  refine ⟨rfl, _, readAgain, attaches, ?_, manifest.isToldBy_payload,
    attaches.otherSections_eq named, ?_, fun further => ?_⟩
  · exact Wasm.Custom.ofBody?_toSection framed
  · rw [replaced, List.any_eq_true]
  · have overwrites :
        Wasm.attach ⟨sectionName, further.payload⟩
            (Wasm.attach ⟨sectionName, manifest.payload⟩ items) =
          Wasm.attach ⟨sectionName, further.payload⟩ items :=
      Wasm.attach_attach named rfl
    rw [embed_eq_of_read? nonempty readAgain, embed_eq_of_read? nonempty read,
      overwrites]

/-! ## A module with two sections of a name -/

namespace Sample

def emptyManifest : Manifest :=
  ⟨"b", "t", "p", "l", none, [], []⟩

/-- Two sections under the name around another one. -/
def module : Bytes :=
  Wasm.encode
    [Wasm.Custom.toSection ⟨"meta", [1]⟩, Wasm.Custom.toSection ⟨"other", []⟩,
      Wasm.Custom.toSection ⟨"meta", [2]⟩]

end Sample

theorem exists_embedded
    (accepted : (manifest.embed sectionName input).isOk = true) :
    ∃ output summary,
      manifest.embed sectionName input = .ok (output, summary) := by
  generalize manifest.embed sectionName input = result at accepted ⊢
  rcases result with _ | ⟨output, summary⟩
  · cases accepted
  · exact ⟨output, summary, rfl⟩

/-- The first of two sections is replaced and the second one is gone. -/
theorem embed_attaches_of_twice :
    ∃ version sections output summary,
      Wasm.read? Sample.module = some (.module version, sections) ∧
      Sample.emptyManifest.embed "meta" Sample.module = .ok (output, summary) ∧
      sections.isComplete = true ∧
      ∃ attached, Wasm.read? output = some (.module 1, ⟨attached, true⟩) ∧
        Wasm.Attached ⟨"meta", Sample.emptyManifest.payload⟩ sections.items
          attached ∧
        (Wasm.Custom.toSection ⟨"meta", Sample.emptyManifest.payload⟩).custom? =
          some ⟨"meta", Sample.emptyManifest.payload⟩ ∧
        Sample.emptyManifest.IsToldBy Sample.emptyManifest.payload ∧
        Wasm.otherSections "meta" attached =
          Wasm.otherSections "meta" sections.items ∧
        (summary.isReplaced = true ↔
          ∃ sec ∈ sections.items, sec.isNamed "meta" = true) ∧
        ∀ further : Manifest,
          (further.embed "meta" output).map Prod.fst =
            (further.embed "meta" Sample.module).map Prod.fst := by
  have accepted :
      (Sample.emptyManifest.embed "meta" Sample.module).isOk = true := by
    decide +kernel
  obtain ⟨output, summary, embeds⟩ := exists_embedded accepted
  obtain ⟨-, version, sections, read, -⟩ := embed_ok embeds
  exact ⟨version, _, output, summary, read, embeds, embed_attaches read embeds⟩

end Manifest

end PluginSurface
