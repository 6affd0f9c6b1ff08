import PluginSurface.Proofs.Source.Positions
import PluginSurface.Resolve.ModuleScope

/-!
# Relative specifiers

A relative specifier goes up from the directory of the module that writes it and
then down to another module. Segments that mean to stay may be put in anywhere
behind the first one. The specifier of a module leads to the path that the file
of the module is known by, as long as nothing stands behind its `.ts`.
-/

namespace PluginSurface

/-! ## Paths divided at slashes -/

theorem not_mem_of_mem_splitAtMark {mark : Char} {chars part : List Char}
    (member : part ∈ splitAtMark mark chars) : mark ∉ part := by
  induction chars generalizing part with
  | nil =>
      simp [splitAtMark] at member
      simp [member]
  | cons char chars inductionHypothesis =>
      rw [splitAtMark] at member
      by_cases isMark : char = mark
      · rw [if_pos isMark] at member
        rcases List.mem_cons.mp member with rfl | further
        · exact List.not_mem_nil
        · exact inductionHypothesis further
      · rw [if_neg isMark] at member
        cases parts : splitAtMark mark chars with
        | nil =>
            simp [parts] at member
            simp [member, Ne.symm isMark]
        | cons first others =>
            simp only [parts, List.mem_cons] at member inductionHypothesis
            rcases member with rfl | further
            · have := inductionHypothesis (.inl rfl)
              simp [this, Ne.symm isMark]
            · exact inductionHypothesis (.inr further)

theorem splitAtMark_of_not_mem {mark : Char} {part : List Char}
    (absent : mark ∉ part) : splitAtMark mark part = [part] := by
  induction part with
  | nil => rfl
  | cons char part inductionHypothesis =>
      obtain ⟨notMark, further⟩ := not_or.mp (mt List.mem_cons.mpr absent)
      rw [splitAtMark, if_neg (Ne.symm notMark), inductionHypothesis further]

/-- Parts that are joined are found again. -/
theorem splitAtMark_joinWithMark {mark : Char} {parts : List (List Char)}
    (nonempty : parts ≠ []) (absent : ∀ part ∈ parts, mark ∉ part) :
    splitAtMark mark (joinWithMark mark parts) = parts := by
  induction parts with
  | nil => exact absurd rfl nonempty
  | cons part parts inductionHypothesis =>
      obtain ⟨notInPart, further⟩ := List.forall_mem_cons.mp absent
      cases parts with
      | nil => exact splitAtMark_of_not_mem notInPart
      | cons next parts =>
          rw [joinWithMark, splitAtMark_append, splitAtMark_of_not_mem notInPart,
            inductionHypothesis (List.cons_ne_nil _ _) further]
          rfl

theorem joinWithMark_concat (mark : Char) {parts : List (List Char)}
    (nonempty : parts ≠ []) (last : List Char) :
    joinWithMark mark (parts ++ [last]) =
      joinWithMark mark parts ++ mark :: last := by
  induction parts with
  | nil => exact absurd rfl nonempty
  | cons part parts inductionHypothesis =>
      cases parts with
      | nil => rfl
      | cons next parts =>
          have further := inductionHypothesis (List.cons_ne_nil _ _)
          rw [List.cons_append] at further
          rw [List.cons_append, List.cons_append, joinWithMark, further,
            joinWithMark, List.append_assoc, List.cons_append]

theorem not_mem_joinWithMark {char mark : Char} {parts : List (List Char)}
    (differs : char ≠ mark) (absent : ∀ part ∈ parts, char ∉ part) :
    char ∉ joinWithMark mark parts := by
  fun_induction joinWithMark mark parts with
  | case1 => exact List.not_mem_nil
  | case2 part => exact absent part List.mem_cons_self
  | case3 part next parts inductionHypothesis =>
      obtain ⟨notInPart, further⟩ := List.forall_mem_cons.mp absent
      simp [notInPart, differs, inductionHypothesis further]

/-- A text goes on within its last part. -/
theorem splitAtMark_append_of_not_mem {mark : Char} {chars more last : List Char}
    {initial : List (List Char)}
    (divided : splitAtMark mark chars = initial ++ [last])
    (absent : mark ∉ more) :
    splitAtMark mark (chars ++ more) = initial ++ [last ++ more] := by
  have joined : chars ++ more =
      joinWithMark mark (initial ++ [last ++ more]) := by
    rw [← joinWithMark_splitAtMark mark chars, divided]
    cases initial with
    | nil => rfl
    | cons first initial =>
        rw [joinWithMark_concat _ (List.cons_ne_nil _ _),
          joinWithMark_concat _ (List.cons_ne_nil _ _), List.append_assoc]
        rfl
  rw [joined]
  refine splitAtMark_joinWithMark (by simp) fun part member => ?_
  have known {part : List Char} (member : part ∈ initial ++ [last]) :
      mark ∉ part := not_mem_of_mem_splitAtMark (divided ▸ member)
  rcases List.mem_append.mp member with inInitial | isLast
  · exact known (List.mem_append_left _ inInitial)
  · rw [List.mem_singleton.mp isLast, List.mem_append, not_or]
    exact ⟨known (List.mem_append_right _ List.mem_cons_self), absent⟩

namespace ModulePath

/-! ## Steps between directories -/

/-- A segment of the path of a module. -/
structure IsName (segment : List Char) : Prop where
  nonempty : segment ≠ []
  noSlash : '/' ∉ segment
  noBackslash : '\\' ∉ segment
  notCurrent : segment ≠ ['.']
  notParent : segment ≠ ['.', '.']

instance (segment : List Char) : Decidable (IsName segment) :=
  decidable_of_iff
    (segment ≠ [] ∧ '/' ∉ segment ∧ '\\' ∉ segment ∧ segment ≠ ['.'] ∧
      segment ≠ ['.', '.'])
    ⟨fun ⟨nonempty, noSlash, noBackslash, notCurrent, notParent⟩ =>
      ⟨nonempty, noSlash, noBackslash, notCurrent, notParent⟩,
    fun isName => ⟨isName.nonempty, isName.noSlash, isName.noBackslash,
      isName.notCurrent, isName.notParent⟩⟩

/-- A segment that means to stay in a directory. -/
def Stays (segment : List Char) : Prop :=
  segment = [] ∨ segment = ['.']

/-- Segments among which, or behind which, others are put that mean to stay. -/
inductive Padded : List (List Char) → List (List Char) → Prop where
  | nil : Padded [] []
  | keep (segment : List Char) {plain padded : List (List Char)}
      (further : Padded plain padded) :
      Padded (segment :: plain) (segment :: padded)
  | stay {segment : List Char} {plain padded : List (List Char)}
      (stays : Stays segment) (further : Padded plain padded) :
      Padded plain (segment :: padded)

theorem step_of_stays {segment : List Char} (stays : Stays segment)
    (directory : List (List Char)) : step directory segment = directory :=
  if_pos stays

theorem step_name {segment : List Char} (isName : IsName segment)
    (directory : List (List Char)) :
    step directory segment = directory ++ [segment] := by
  have moves : ¬(segment = [] ∨ segment = ['.']) :=
    not_or.mpr ⟨isName.nonempty, isName.notCurrent⟩
  rw [step, if_neg moves, if_neg isName.notParent]

theorem foldl_step_names {names : List (List Char)}
    (areNames : ∀ name ∈ names, IsName name) (directory : List (List Char)) :
    names.foldl step directory = directory ++ names := by
  induction names generalizing directory with
  | nil => simp
  | cons name names inductionHypothesis =>
      obtain ⟨isName, further⟩ := List.forall_mem_cons.mp areNames
      rw [List.foldl_cons, step_name isName, inductionHypothesis further,
        List.append_assoc, List.singleton_append]

/-- Each step up leaves one directory. -/
theorem foldl_step_parents (common climbed : List (List Char)) :
    (List.replicate climbed.length ['.', '.']).foldl step (common ++ climbed) =
      common := by
  induction climbed using List.reverseRecOn with
  | nil => simp
  | append_singleton climbed last inductionHypothesis =>
      have up : step (common ++ (climbed ++ [last])) ['.', '.'] =
          common ++ climbed := by
        rw [← List.append_assoc]
        simp [step]
      rw [List.length_append, List.length_singleton, List.replicate_succ,
        List.foldl_cons, up, inductionHypothesis]

theorem foldl_step_padded {plain padded : List (List Char)}
    (isPadded : Padded plain padded) (directory : List (List Char)) :
    padded.foldl step directory = plain.foldl step directory := by
  induction isPadded generalizing directory with
  | nil => rfl
  | keep segment _ inductionHypothesis =>
      exact inductionHypothesis (step directory segment)
  | stay stays _ inductionHypothesis =>
      rw [List.foldl_cons, step_of_stays stays, inductionHypothesis]

/-- What stands last among padded segments stays, or stood last before. -/
theorem Padded.concat {plain front : List (List Char)} {last : List Char}
    (padded : Padded plain (front ++ [last])) :
    Stays last ∧ Padded plain front ∨
      ∃ initial, plain = initial ++ [last] ∧ Padded initial front := by
  induction front generalizing plain with
  | nil =>
      cases padded with
      | keep _ further =>
          cases further
          exact .inr ⟨[], rfl, .nil⟩
      | stay stays further =>
          cases further
          exact .inl ⟨stays, .nil⟩
  | cons segment front inductionHypothesis =>
      cases padded with
      | keep _ further =>
          rcases inductionHypothesis further with
            ⟨stays, inFront⟩ | ⟨initial, rfl, inFront⟩
          · exact .inl ⟨stays, .keep segment inFront⟩
          · exact .inr ⟨segment :: initial, rfl, .keep segment inFront⟩
      | stay stays further =>
          rcases inductionHypothesis further with
            ⟨lastStays, inFront⟩ | ⟨initial, rfl, inFront⟩
          · exact .inl ⟨lastStays, .stay stays inFront⟩
          · exact .inr ⟨initial, rfl, .stay stays inFront⟩

theorem Padded.append {plain padded : List (List Char)}
    (isPadded : Padded plain padded) (last : List Char) :
    Padded (plain ++ [last]) (padded ++ [last]) := by
  induction isPadded with
  | nil => exact .keep last .nil
  | keep segment _ inductionHypothesis => exact .keep segment inductionHypothesis
  | stay stays _ inductionHypothesis => exact .stay stays inductionHypothesis

theorem Padded.ne_nil {plain padded : List (List Char)}
    (isPadded : Padded plain padded) (nonempty : plain ≠ []) :
    padded ≠ [] := by
  rintro rfl
  cases isPadded
  exact nonempty rfl

theorem Padded.noSlash {plain padded : List (List Char)}
    (isPadded : Padded plain padded) (absent : ∀ part ∈ plain, '/' ∉ part) :
    ∀ part ∈ padded, '/' ∉ part := by
  induction isPadded with
  | nil => exact absent
  | keep segment _ inductionHypothesis =>
      obtain ⟨notInSegment, further⟩ := List.forall_mem_cons.mp absent
      exact List.forall_mem_cons.mpr
        ⟨notInSegment, inductionHypothesis further⟩
  | stay stays _ inductionHypothesis =>
      refine List.forall_mem_cons.mpr ⟨?_, inductionHypothesis absent⟩
      rcases stays with rfl | rfl <;> decide

/-! ## Extensions -/

/-- The extension of a file. -/
def extension : List Char :=
  ".ts".toList

theorem withoutExtension_append (path : List Char) :
    withoutExtension (path ++ extension) = path := by
  have isSuffix : ".ts".toList.isSuffixOf (path ++ extension) = true :=
    List.isSuffixOf_iff_suffix.mpr (List.suffix_append _ _)
  rw [withoutExtension, if_pos isSuffix]
  simp [extension]

theorem withoutExtension_of_bare {path : List Char}
    (bare : ¬extension <:+ path) : withoutExtension path = path :=
  if_neg (mt List.isSuffixOf_iff_suffix.mp bare)

/-- Whether a path has an extension is told by its last segment. -/
theorem extension_suffix_join (front : List (List Char)) (last : List Char) :
    extension <:+ joinWithMark '/' (front ++ [last]) ↔ extension <:+ last := by
  cases front with
  | nil => rfl
  | cons first front =>
      rw [joinWithMark_concat _ (List.cons_ne_nil _ _)]
      constructor
      · intro isSuffix
        have behind := List.suffix_append (joinWithMark '/' (first :: front))
          ('/' :: last)
        rcases List.suffix_or_suffix_of_suffix isSuffix behind with
          inside | outside
        · rcases List.suffix_cons_iff.mp inside with same | inLast
          · cases same
          · exact inLast
        · have slash : '/' ∈ extension := outside.mem List.mem_cons_self
          exact absurd slash (by decide)
      · intro isSuffix
        exact (isSuffix.trans (List.suffix_cons _ _)).trans
          (List.suffix_append _ _)

theorem not_extension_suffix_of_stays {segment : List Char}
    (stays : Stays segment) : ¬extension <:+ segment := by
  rcases stays with rfl | rfl <;> decide

/-! ## Specifiers -/

/-- How a specifier goes up from a directory. -/
def upward : Nat → List Char
  | 0 => "./".toList
  | depth + 1 => (List.replicate (depth + 1) "../".toList).flatten

/-- The specifier that goes up some directories and down to a module. -/
def specifierTo (depth : Nat) (target : List (List Char)) : List Char :=
  upward depth ++ joinWithMark '/' target

/-- A specifier in which segments that stay are put in behind the first one. -/
def IsPadded (plain specifier : List Char) : Prop :=
  ∃ first rest longer, splitAtMark '/' plain = first :: rest ∧
    Padded rest longer ∧ specifier = joinWithMark '/' (first :: longer)

/-- The segments of a specifier with which it goes up. -/
def parents : Nat → List (List Char)
  | 0 => [['.']]
  | depth + 1 => List.replicate (depth + 1) ['.', '.']

theorem splitAtMark_parents (depth : Nat) (rest : List Char) :
    splitAtMark '/' ((List.replicate depth "../".toList).flatten ++ rest) =
      List.replicate depth ['.', '.'] ++ splitAtMark '/' rest := by
  induction depth with
  | zero => rfl
  | succ depth inductionHypothesis =>
      rw [List.replicate_succ, List.replicate_succ, List.flatten_cons,
        List.append_assoc, List.cons_append, ← inductionHypothesis]
      rfl

theorem splitAtMark_specifierTo (depth : Nat) (target : List (List Char)) :
    splitAtMark '/' (specifierTo depth target) =
      parents depth ++ splitAtMark '/' (joinWithMark '/' target) := by
  cases depth with
  | zero => rfl
  | succ depth => exact splitAtMark_parents (depth + 1) _

theorem foldl_step_specifierTo {target : List (List Char)}
    (areNames : ∀ name ∈ target, IsName name)
    (common climbed : List (List Char)) :
    (splitAtMark '/' (specifierTo climbed.length target)).foldl step
      (common ++ climbed) = common ++ target := by
  have up : (parents climbed.length).foldl step (common ++ climbed) =
      common := by
    cases climbed with
    | nil => simp [parents, step]
    | cons name climbed => exact foldl_step_parents common (name :: climbed)
  rw [splitAtMark_specifierTo, List.foldl_append, up]
  by_cases isHere : target = []
  · subst isHere
    simp [joinWithMark, splitAtMark, step]
  · rw [splitAtMark_joinWithMark isHere fun name member =>
      (areNames name member).noSlash]
    exact foldl_step_names areNames common

/-- A path is relative if its first segment is a dot or two and others follow. -/
theorem isRelative_iff {path : List Char} :
    isRelative path = true ↔ ∃ first rest, splitAtMark '/' path = first :: rest ∧
      rest ≠ [] ∧ (first = ['.'] ∨ first = ['.', '.']) := by
  simp only [isRelative, Bool.or_eq_true, List.isPrefixOf_iff_prefix]
  constructor
  · rintro (⟨more, rfl⟩ | ⟨more, rfl⟩)
    · exact ⟨['.'], splitAtMark '/' more, splitAtMark_append '/' ['.'] more,
        splitAtMark_ne_nil _ _, .inl rfl⟩
    · exact ⟨['.', '.'], splitAtMark '/' more,
        splitAtMark_append '/' ['.', '.'] more, splitAtMark_ne_nil _ _, .inr rfl⟩
  · rintro ⟨first, rest, divided, nonempty, dots⟩
    rw [← joinWithMark_splitAtMark '/' path, divided]
    cases rest with
    | nil => exact absurd rfl nonempty
    | cons second rest =>
        rcases dots with rfl | rfl
        · exact .inl ⟨joinWithMark '/' (second :: rest), rfl⟩
        · exact .inr ⟨joinWithMark '/' (second :: rest), rfl⟩

section

variable {plain specifier : List Char}

/-- The segments of a padded specifier are those of the plain one, padded. -/
theorem IsPadded.splitAtMark_eq (padded : IsPadded plain specifier) :
    ∃ first rest longer, splitAtMark '/' plain = first :: rest ∧
      Padded rest longer ∧ splitAtMark '/' specifier = first :: longer := by
  obtain ⟨first, rest, longer, divided, isPadded, rfl⟩ := padded
  have noSlash : ∀ part ∈ first :: rest, '/' ∉ part := fun part member =>
    not_mem_of_mem_splitAtMark (divided ▸ member)
  obtain ⟨notInFirst, notInRest⟩ := List.forall_mem_cons.mp noSlash
  refine ⟨first, rest, longer, divided, isPadded, ?_⟩
  exact splitAtMark_joinWithMark (List.cons_ne_nil _ _)
    (List.forall_mem_cons.mpr ⟨notInFirst, isPadded.noSlash notInRest⟩)

theorem IsPadded.isRelative (padded : IsPadded plain specifier)
    (relative : isRelative plain = true) : isRelative specifier = true := by
  obtain ⟨first, rest, longer, divided, isPadded, dividedToo⟩ :=
    padded.splitAtMark_eq
  obtain ⟨_, _, same, nonempty, dots⟩ := isRelative_iff.mp relative
  cases divided.symm.trans same
  exact isRelative_iff.mpr
    ⟨first, longer, dividedToo, isPadded.ne_nil nonempty, dots⟩

theorem IsPadded.foldl_step (padded : IsPadded plain specifier)
    (directory : List (List Char)) :
    (splitAtMark '/' specifier).foldl step directory =
      (splitAtMark '/' plain).foldl step directory := by
  obtain ⟨first, rest, longer, divided, isPadded, dividedToo⟩ :=
    padded.splitAtMark_eq
  rw [divided, dividedToo, List.foldl_cons, List.foldl_cons,
    foldl_step_padded isPadded]

/-- No extension is put in behind a specifier. -/
theorem IsPadded.bare (padded : IsPadded plain specifier)
    (relative : ModulePath.isRelative plain = true)
    (bare : ¬extension <:+ plain) : ¬extension <:+ specifier := by
  obtain ⟨first, rest, longer, divided, isPadded, dividedToo⟩ :=
    padded.splitAtMark_eq
  obtain ⟨_, _, same, nonempty, -⟩ := isRelative_iff.mp relative
  cases divided.symm.trans same
  obtain ⟨front, last, rfl⟩ := (List.eq_nil_or_concat' longer).resolve_left
    (isPadded.ne_nil nonempty)
  rw [← joinWithMark_splitAtMark '/' specifier, dividedToo, ← List.cons_append,
    extension_suffix_join]
  rcases isPadded.concat with ⟨stays, -⟩ | ⟨initial, rfl, -⟩
  · exact not_extension_suffix_of_stays stays
  · rwa [← joinWithMark_splitAtMark '/' plain, divided, ← List.cons_append,
      extension_suffix_join] at bare

/-- If a specifier with an extension still ends in it, nothing was put in behind
it. -/
theorem IsPadded.exists_append
    (padded : IsPadded (plain ++ extension) specifier)
    (relative : ModulePath.isRelative plain = true)
    (ends : extension <:+ specifier) :
    ∃ path, specifier = path ++ extension ∧ IsPadded plain path := by
  obtain ⟨first, others, plainDivided, nonempty, -⟩ := isRelative_iff.mp relative
  obtain ⟨initial, last, rfl⟩ := (List.eq_nil_or_concat' others).resolve_left
    nonempty
  rw [← List.cons_append] at plainDivided
  have dividedBehind : splitAtMark '/' (plain ++ extension) =
      first :: (initial ++ [last ++ extension]) :=
    splitAtMark_append_of_not_mem plainDivided (by decide)
  obtain ⟨_, _, longer, divided, isPadded, rfl⟩ := padded
  cases dividedBehind.symm.trans divided
  obtain ⟨front, final, rfl⟩ := (List.eq_nil_or_concat' longer).resolve_left
    (isPadded.ne_nil (by simp))
  rw [← List.cons_append, extension_suffix_join] at ends
  rcases isPadded.concat with ⟨stays, -⟩ | ⟨kept, same, inFront⟩
  · exact absurd ends (not_extension_suffix_of_stays stays)
  · obtain ⟨rfl, sameLast⟩ := List.append_inj' same rfl
    cases List.singleton_inj.mp sameLast
    refine ⟨joinWithMark '/' (first :: (front ++ [last])), ?_,
      first, _, _, plainDivided, inFront.append last, rfl⟩
    rw [← List.cons_append, ← List.cons_append,
      joinWithMark_concat _ (List.cons_ne_nil _ _),
      joinWithMark_concat _ (List.cons_ne_nil _ _), List.append_assoc,
      List.cons_append]

end

/-! ## Where specifiers lead -/

theorem isRelative_specifierTo (depth : Nat) (target : List (List Char)) :
    isRelative (specifierTo depth target) = true := by
  cases depth <;> simp [isRelative, specifierTo, upward, List.replicate_succ]

/-- The specifier of a module has an extension only if the module's path does. -/
theorem bare_specifierTo (depth : Nat) {common target : List (List Char)}
    (areNames : ∀ name ∈ target, IsName name)
    (bare : ¬extension <:+ joinWithMark '/' (common ++ target)) :
    ¬extension <:+ specifierTo depth target := by
  rw [← joinWithMark_splitAtMark '/' (specifierTo depth target),
    splitAtMark_specifierTo]
  cases List.eq_nil_or_concat' target with
  | inl isHere =>
      subst isHere
      apply mt (extension_suffix_join (parents depth) []).mp
      exact not_extension_suffix_of_stays (.inl rfl)
  | inr divided =>
      obtain ⟨initial, last, rfl⟩ := divided
      rw [← List.append_assoc, extension_suffix_join] at bare
      rwa [splitAtMark_joinWithMark (by simp) fun name member =>
          (areNames name member).noSlash,
        ← List.append_assoc, extension_suffix_join]

/-- A relative specifier is followed from the directory of its module. -/
theorem resolve_relative {directory : List (List Char)} {file path : List Char}
    {specifier : String}
    (areNames : ∀ name ∈ directory ++ [file], IsName name)
    (means : withoutExtension specifier.toList = path)
    (relative : isRelative path = true) :
    resolve (ofSegments (directory ++ [file])) specifier =
      ofSegments ((splitAtMark '/' path).foldl step directory) := by
  have start : (segments (ofSegments (directory ++ [file]))).dropLast =
      directory := by
    rw [segments, ofSegments, String.toList_ofList,
      splitAtMark_joinWithMark (by simp) fun name member =>
        (areNames name member).noSlash,
      List.dropLast_concat]
  rw [resolve, means, start, if_pos relative]

/-- A segment with an extension is the name of a file. -/
theorem step_extension (directory : List (List Char)) (stem : List Char) :
    step directory (stem ++ extension) = directory ++ [stem ++ extension] := by
  have long : 3 ≤ (stem ++ extension).length := by
    simp [extension]
  have moves : ¬(stem ++ extension = [] ∨ stem ++ extension = ['.']) := by
    rintro (same | same) <;> simp [same] at long
  have enters : stem ++ extension ≠ ['.', '.'] := by
    intro same
    simp [same] at long
  rw [step, if_neg moves, if_neg enters]

/-- A specifier that goes on with an extension leads to a path that ends in it. -/
theorem extension_suffix_foldl_step (path : List Char)
    (directory : List (List Char)) :
    extension <:+ joinWithMark '/'
      ((splitAtMark '/' (path ++ extension)).foldl step directory) := by
  obtain ⟨initial, last, divided⟩ := (List.eq_nil_or_concat' _).resolve_left
    (splitAtMark_ne_nil '/' path)
  rw [splitAtMark_append_of_not_mem divided (by decide), List.foldl_append,
    List.foldl_cons, List.foldl_nil, step_extension, extension_suffix_join]
  exact List.suffix_append last extension

/-! ## Names of files -/

/-- A path as it is written with any of its slashes turned around. -/
def SpelledAs (path written : List Char) : Prop :=
  List.Forall₂ (fun char spelled => spelled = char ∨ char = '/' ∧ spelled = '\\')
    path written

theorem SpelledAs.slashed {path written : List Char}
    (spelled : SpelledAs path written) (noBackslash : '\\' ∉ path) :
    (written.map fun char => if char = '\\' then '/' else char) = path := by
  induction spelled with
  | nil => rfl
  | cons same _ inductionHypothesis =>
      obtain ⟨notHere, further⟩ := not_or.mp (mt List.mem_cons.mpr noBackslash)
      rw [List.map_cons, inductionHypothesis further]
      rcases same with rfl | ⟨rfl, rfl⟩
      · rw [if_neg (Ne.symm notHere)]
      · rfl

/-- The path of a module starts with a name, so nothing is dropped from it. -/
theorem dropCurrentDirectory_join {names : List (List Char)}
    (areNames : ∀ name ∈ names, IsName name) :
    dropCurrentDirectory (joinWithMark '/' names ++ extension) =
      joinWithMark '/' names ++ extension := by
  cases names with
  | nil => rfl
  | cons name names =>
      have isName := areNames name List.mem_cons_self
      obtain ⟨more, joined⟩ :
          ∃ more, joinWithMark '/' (name :: names) = name ++ more := by
        cases names with
        | nil => exact ⟨[], (List.append_nil name).symm⟩
        | cons next names => exact ⟨_, rfl⟩
      rw [joined]
      match name, isName with
      | [], isName => exact absurd rfl isName.nonempty
      | [char], isName =>
          have notDot : char ≠ '.' := fun isDot =>
            isName.notCurrent (isDot ▸ rfl)
          simp [dropCurrentDirectory, notDot]
      | char :: second :: name, isName =>
          have notSlash : second ≠ '/' := fun isSlash =>
            isName.noSlash (by simp [isSlash])
          simp [dropCurrentDirectory, notSlash]

theorem modulePath_of_spelled {names : List (List Char)} {fileName : String}
    (areNames : ∀ name ∈ names, IsName name)
    (spelled : SpelledAs (joinWithMark '/' names ++ extension) fileName.toList ∨
      SpelledAs ("./".toList ++ (joinWithMark '/' names ++ extension))
        fileName.toList) :
    modulePath fileName = ofSegments names := by
  have noBackslash : '\\' ∉ joinWithMark '/' names ++ extension := by
    have differs : '\\' ≠ '/' := by decide
    rw [List.mem_append, not_or]
    exact ⟨not_mem_joinWithMark differs fun name member =>
      (areNames name member).noBackslash, by decide⟩
  have trimmed : dropCurrentDirectory (fileName.toList.map fun char =>
      if char = '\\' then '/' else char) = joinWithMark '/' names ++ extension := by
    cases spelled with
    | inl spelled =>
        rw [spelled.slashed noBackslash, dropCurrentDirectory_join areNames]
    | inr spelled =>
        have stillNone :
            '\\' ∉ "./".toList ++ (joinWithMark '/' names ++ extension) := by
          rw [List.mem_append, not_or]
          exact ⟨by decide, noBackslash⟩
        rw [spelled.slashed stillNone]
        exact dropCurrentDirectory_join areNames
  exact congrArg String.ofList
    ((congrArg withoutExtension trimmed).trans (withoutExtension_append _))

/-! ## Modules and the specifiers that lead to them -/

/-- Between modules that have the first part of their paths in common, the
specifier that goes up from the one and down to the other leads to it, however
many segments that stay are put in, and so it does with an extension behind it.
Where such segments are put in after the extension was written, the specifier
leads there exactly if the extension still stands at its end. The path is also
that of every file that is named after the module. -/
theorem resolve_reaches (common climbed target : List (List Char))
    (file : List Char)
    (fromNames : ∀ name ∈ common ++ climbed ++ [file], IsName name)
    (toNames : ∀ name ∈ common ++ target, IsName name)
    (bare : ¬extension <:+ joinWithMark '/' (common ++ target)) :
    let origin := ofSegments (common ++ climbed ++ [file])
    let reached := ofSegments (common ++ target)
    let plain := specifierTo climbed.length target
    (∀ specifier : String, IsPadded plain specifier.toList →
      resolve origin specifier = reached ∧
        resolve origin (specifier ++ ".ts") = reached) ∧
    (∀ specifier : String, IsPadded (plain ++ extension) specifier.toList →
      (resolve origin specifier = reached ↔ extension <:+ specifier.toList)) ∧
    ∀ fileName : String,
      SpelledAs (joinWithMark '/' (common ++ target) ++ extension)
          fileName.toList ∨
        SpelledAs
          ("./".toList ++ (joinWithMark '/' (common ++ target) ++ extension))
          fileName.toList →
      modulePath fileName = reached := by
  intro origin reached plain
  have targetNames : ∀ name ∈ target, IsName name := fun name member =>
    toNames name (List.mem_append_right _ member)
  have relative : isRelative plain = true := isRelative_specifierTo _ _
  have plainBare : ¬extension <:+ plain := bare_specifierTo _ targetNames bare
  -- Whatever is written, the path without its extension is what is followed.
  have reaches {specifier : String} {path : List Char}
      (padded : IsPadded plain path)
      (means : withoutExtension specifier.toList = path) :
      resolve origin specifier = reached := by
    rw [resolve_relative fromNames means (padded.isRelative relative),
      padded.foldl_step, foldl_step_specifierTo targetNames]
  refine ⟨fun specifier padded => ⟨?_, ?_⟩, fun specifier padded => ?_,
    fun fileName spelled => modulePath_of_spelled toNames spelled⟩
  · exact reaches padded
      (withoutExtension_of_bare (padded.bare relative plainBare))
  · apply reaches padded
    rw [String.toList_append]
    exact withoutExtension_append _
  · by_cases ends : extension <:+ specifier.toList
    · obtain ⟨path, written, paddedPath⟩ := padded.exists_append relative ends
      apply iff_of_true (reaches paddedPath _) ends
      rw [written, withoutExtension_append]
    · apply iff_of_false _ ends
      intro leads
      have relativeToo : isRelative (plain ++ extension) = true := by
        simp only [isRelative, Bool.or_eq_true, List.isPrefixOf_iff_prefix]
          at relative ⊢
        exact relative.imp (·.trans (List.prefix_append _ _))
          (·.trans (List.prefix_append _ _))
      rw [resolve_relative fromNames (withoutExtension_of_bare ends)
        (padded.isRelative relativeToo), padded.foldl_step] at leads
      exact bare (String.ofList_injective leads ▸
        extension_suffix_foldl_step plain (common ++ climbed))

/-- From a module in a directory beside it, a module is reached with a segment
that stays in between, and by a file name with its slashes turned around. -/
theorem resolve_reaches_models :
    resolve "assembly/api/index" ".././models" = "assembly/models" ∧
      resolve "assembly/api/index" ".././models.ts" = "assembly/models" ∧
      modulePath ".\\assembly/models.ts" = "assembly/models" := by
  have reaches := resolve_reaches ["assembly".toList] ["api".toList]
    ["models".toList] "index".toList (by decide) (by decide) (by decide)
  have padded : Padded ["models".toList] [['.'], "models".toList] :=
    .stay (.inr rfl) (.keep _ .nil)
  obtain ⟨bare, extended⟩ := reaches.1 ".././models"
    ⟨['.', '.'], _, _, rfl, padded, rfl⟩
  have spelled : SpelledAs "./assembly/models.ts".toList
      ".\\assembly/models.ts".toList := by
    unfold SpelledAs
    decide
  exact ⟨bare, extended, reaches.2.2 ".\\assembly/models.ts" (.inr spelled)⟩

/-- A slash behind an extension keeps it from being dropped, so the file is taken
for a module of its own. -/
theorem resolve_behind_extension :
    (∀ name ∈ ["index".toList, "a".toList], IsName name) ∧
      ¬extension <:+ "a".toList ∧
      IsPadded (specifierTo 0 ["a".toList] ++ extension) "./a.ts/".toList ∧
      resolve (ofSegments ["index".toList]) "./a.ts/" = "a.ts" ∧
      ofSegments ["a".toList] ≠ "a.ts" := by
  have padded : Padded ["a.ts".toList] ["a.ts".toList, []] :=
    .keep _ (.stay (.inl rfl) .nil)
  exact ⟨by decide, by decide, ⟨['.'], _, _, rfl, padded, rfl⟩, by decide,
    by decide⟩

end ModulePath

end PluginSurface
