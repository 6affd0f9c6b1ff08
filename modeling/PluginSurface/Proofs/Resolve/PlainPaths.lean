import PluginSurface.Proofs.Resolve.Paths

/-!
# Types that their paths tell apart

The path of a type is read back from its end: the marks of arrays, maps and
nullable types stand behind the paths of what they are made of, and the path of
a class has no such marks. A class with the path of a built-in type is the one
thing that its path does not tell.
-/

namespace PluginSurface

/-! ## Marks -/

/-- The marks that paths of types are put together with. -/
def isPathMark (char : Char) : Bool :=
  char = '<' || char = '>' || char = ',' || char = '|'

/-- A text without marks. -/
def IsPlain (text : String) : Prop :=
  ∀ char ∈ text.toList, isPathMark char = false

instance (text : String) : Decidable (IsPlain text) :=
  List.decidableBAll _ text.toList

theorem IsPlain.append {left right : String} (plain : IsPlain left)
    (rightPlain : IsPlain right) : IsPlain (left ++ right) := by
  intro char member
  rw [String.toList_append] at member
  rcases List.mem_append.mp member with inLeft | inRight
  · exact plain char inLeft
  · exact rightPlain char inRight

theorem isPlain_of_isWord {word : String} (isWord : Scan.isWord word = true) :
    IsPlain word := by
  intro char member
  by_contra isMark
  rw [Bool.not_eq_false] at isMark
  have marks : char = '<' ∨ char = '>' ∨ char = ',' ∨ char = '|' := by
    simpa [isPathMark, or_assoc] using isMark
  have isPart := Scan.isWordPart_of_isWord isWord char member
  rcases marks with rfl | rfl | rfl | rfl <;> exact absurd isPart (by decide)

/-- A text is split at its last mark in one way only. -/
theorem split_at_last_mark {front other plain otherPlain : List Char}
    (isPlain : ∀ char ∈ plain, isPathMark char = false)
    (isOtherPlain : ∀ char ∈ otherPlain, isPathMark char = false)
    (ends : ∀ char ∈ front.getLast?, isPathMark char = true)
    (otherEnds : ∀ char ∈ other.getLast?, isPathMark char = true)
    (same : front ++ plain = other ++ otherPlain) :
    front = other ∧ plain = otherPlain := by
  -- What one front has over the other would be plain and end in a mark.
  have noMore {shorter longer middle : List Char}
      (longerEnds : ∀ char ∈ longer.getLast?, isPathMark char = true)
      (isLonger : longer = shorter ++ middle)
      (middlePlain : ∀ char ∈ middle, isPathMark char = false) :
      middle = [] := by
    by_contra nonempty
    have last : middle.getLast nonempty ∈ longer.getLast? := by
      rw [isLonger, List.getLast?_append_of_ne_nil _ nonempty,
        List.getLast?_eq_getLast_of_ne_nil nonempty]
      rfl
    have isMark := longerEnds _ last
    rw [middlePlain _ (List.getLast_mem nonempty)] at isMark
    cases isMark
  rcases List.append_eq_append_iff.mp same with
    ⟨middle, isOther, rest⟩ | ⟨middle, isFront, rest⟩
  · have none := noMore otherEnds isOther fun char member =>
      isPlain char (rest ▸ List.mem_append_left _ member)
    subst none
    exact ⟨by simpa using isOther.symm, by simpa using rest⟩
  · have none := noMore ends isFront fun char member =>
      isOtherPlain char (rest ▸ List.mem_append_left _ member)
    subst none
    exact ⟨by simpa using isFront, by simpa using rest.symm⟩

/-! ## Paths of single types -/

/-- A path that only a class can have. -/
structure IsOwnPath (path : String) : Prop where
  plain : IsPlain path
  nested : '/' ∈ path.toList
  notString : path ≠ DataType.string.path
  notDate : path ≠ DataType.date.path

namespace DataType

/-- The paths of the classes in a type. -/
def classPaths : DataType → List String
  | .array element => element.classPaths
  | .map key value => key.classPaths ++ value.classPaths
  | .class path => [path]
  | .nullable inner => inner.classPaths
  | _ => []

/-- No class in a type has the path of another type. -/
def HasOwnPaths (type : DataType) : Prop :=
  ∀ path ∈ type.classPaths, IsOwnPath path

/-- A type that is not made of others. -/
def isSingle : DataType → Bool
  | .array _ | .map .. | .nullable _ => false
  | _ => true

theorem primitive_text_injective {kind other : Primitive}
    (same : kind.text = other.text) : kind = other := by
  have readsBack (kind : Primitive) :
      Primitive.ofText? kind.text = some kind := by
    cases kind <;> decide
  have read := readsBack kind
  rw [same, readsBack other] at read
  exact (Option.some.inj read).symm

theorem primitive_path_ne {kind : Primitive} {path : String}
    (nested : '/' ∈ path.toList) : kind.text ≠ path := by
  rintro rfl
  revert nested
  cases kind <;> decide

theorem path_of_single {type : DataType} (isSingle : type.isSingle = true)
    (own : type.HasOwnPaths) : IsPlain type.path ∧ type.path.toList ≠ [] := by
  cases type with
  | primitive kind => cases kind <;> decide
  | string => decide
  | date => decide
  | «class» path =>
      have isOwn := own path List.mem_cons_self
      exact ⟨isOwn.plain, List.ne_nil_of_mem isOwn.nested⟩
  | _ => cases isSingle

theorem eq_of_single {type other : DataType} (isSingle : type.isSingle = true)
    (otherSingle : other.isSingle = true) (own : type.HasOwnPaths)
    (otherOwn : other.HasOwnPaths) (same : type.path = other.path) :
    type = other := by
  have ofClass {path : String} (own : (DataType.class path).HasOwnPaths) :=
    own path List.mem_cons_self
  cases type with
  | primitive kind =>
      cases other with
      | primitive other => exact congrArg _ (primitive_text_injective same)
      | string => exact absurd same (primitive_path_ne (by decide))
      | date => exact absurd same (primitive_path_ne (by decide))
      | «class» path =>
          exact absurd same (primitive_path_ne (ofClass otherOwn).nested)
      | _ => cases otherSingle
  | string =>
      cases other with
      | primitive other => exact absurd same.symm (primitive_path_ne (by decide))
      | string => rfl
      | date => exact absurd same (by decide)
      | «class» path => exact absurd same.symm (ofClass otherOwn).notString
      | _ => cases otherSingle
  | date =>
      cases other with
      | primitive other => exact absurd same.symm (primitive_path_ne (by decide))
      | string => exact absurd same (by decide)
      | date => rfl
      | «class» path => exact absurd same.symm (ofClass otherOwn).notDate
      | _ => cases otherSingle
  | «class» path =>
      have isOwn := ofClass own
      cases other with
      | primitive other =>
          exact absurd same.symm (primitive_path_ne isOwn.nested)
      | string => exact absurd same isOwn.notString
      | date => exact absurd same isOwn.notDate
      | «class» other => exact congrArg _ same
      | _ => cases otherSingle
  | _ => cases isSingle

/-! ## Paths of all types -/

/-- What stands in front of the path of a part: nothing, or what ends where a
part begins. -/
def OpensPart (front : List Char) : Prop :=
  ∀ char ∈ front.getLast?, char = '<' ∨ char = ','

theorem OpensPart.isPathMark {front : List Char} (opens : OpensPart front) :
    ∀ char ∈ front.getLast?, isPathMark char = true := by
  intro char isLast
  rcases opens char isLast with rfl | rfl <;> rfl

theorem OpensPart.concat (front : List Char) {char : Char}
    (opens : char = '<' ∨ char = ',') : OpensPart (front ++ [char]) := by
  intro last isLast
  rw [List.getLast?_concat] at isLast
  cases isLast
  exact opens

theorem toList_path_array (element : DataType) :
    (DataType.array element).path.toList =
      "~lib/array/Array".toList ++ ['<'] ++ element.path.toList ++ ['>'] := by
  have opening : "~lib/array/Array<".toList =
      "~lib/array/Array".toList ++ ['<'] := by decide
  have closing : ">".toList = ['>'] := by decide
  have whole : (DataType.array element).path =
      "~lib/array/Array<" ++ element.path ++ ">" := rfl
  rw [whole, String.toList_append, String.toList_append, opening, closing]

theorem toList_path_map (key value : DataType) :
    (DataType.map key value).path.toList =
      "~lib/map/Map".toList ++ ['<'] ++ key.path.toList ++ [','] ++
        value.path.toList ++ ['>'] := by
  have opening : "~lib/map/Map<".toList = "~lib/map/Map".toList ++ ['<'] := by
    decide
  have comma : ",".toList = [','] := by decide
  have closing : ">".toList = ['>'] := by decide
  have whole : (DataType.map key value).path =
      "~lib/map/Map<" ++ key.path ++ "," ++ value.path ++ ">" := rfl
  rw [whole, String.toList_append, String.toList_append,
    String.toList_append, String.toList_append, opening, comma, closing]

theorem toList_path_nullable (inner : DataType) :
    (DataType.nullable inner).path.toList =
      inner.path.toList ++ ['|'] ++ ['n', 'u', 'l', 'l'] := by
  have mark : "|null".toList = ['|'] ++ ['n', 'u', 'l', 'l'] := by decide
  have whole : (DataType.nullable inner).path = inner.path ++ "|null" := rfl
  rw [whole, String.toList_append, mark, List.append_assoc]

/-- Where the path of a type is split at its last mark. -/
def pathStem : DataType → List Char
  | .nullable inner => inner.path.toList ++ ['|']
  | .array element => (DataType.array element).path.toList
  | .map key value => (DataType.map key value).path.toList
  | _ => []

/-- What stands behind the last mark of the path of a type. -/
def pathTail : DataType → List Char
  | .nullable _ => ['n', 'u', 'l', 'l']
  | .array _ | .map .. => []
  | type => type.path.toList

theorem pathStem_append_pathTail (type : DataType) :
    type.pathStem ++ type.pathTail = type.path.toList := by
  cases type with
  | nullable inner => exact (toList_path_nullable inner).symm
  | array element => exact List.append_nil _
  | map key value => exact List.append_nil _
  | _ => exact List.nil_append _

theorem isPlain_pathTail {type : DataType} (own : type.HasOwnPaths) :
    ∀ char ∈ type.pathTail, isPathMark char = false := by
  cases type with
  | nullable inner =>
      show ∀ char ∈ ['n', 'u', 'l', 'l'], isPathMark char = false
      simp [isPathMark]
  | array element => nofun
  | map key value => nofun
  | _ => exact (path_of_single rfl own).1

theorem isPathMark_of_concat {chars : List Char} {mark : Char}
    (isMark : isPathMark mark = true) :
    ∀ char ∈ (chars ++ [mark]).getLast?, isPathMark char = true := by
  intro char isLast
  rw [List.getLast?_concat] at isLast
  cases isLast
  exact isMark

theorem ends_pathStem {front : List Char} (opens : OpensPart front)
    (type : DataType) :
    ∀ char ∈ (front ++ type.pathStem).getLast?, isPathMark char = true := by
  cases type with
  | nullable inner =>
      rw [pathStem, ← List.append_assoc]
      exact isPathMark_of_concat rfl
  | array element =>
      rw [pathStem, toList_path_array, ← List.append_assoc]
      exact isPathMark_of_concat rfl
  | map key value =>
      rw [pathStem, toList_path_map, ← List.append_assoc]
      exact isPathMark_of_concat rfl
  | _ =>
      show ∀ char ∈ (front ++ []).getLast?, isPathMark char = true
      rw [List.append_nil]
      exact opens.isPathMark

section

variable {type other : DataType} {front otherFront : List Char}

theorem split_path (own : type.HasOwnPaths) (otherOwn : other.HasOwnPaths)
    (opens : OpensPart front) (otherOpens : OpensPart otherFront)
    (same : front ++ type.path.toList = otherFront ++ other.path.toList) :
    front ++ type.pathStem = otherFront ++ other.pathStem ∧
      type.pathTail = other.pathTail := by
  rw [← pathStem_append_pathTail, ← pathStem_append_pathTail,
    ← List.append_assoc, ← List.append_assoc] at same
  exact split_at_last_mark (isPlain_pathTail own) (isPlain_pathTail otherOwn)
    (ends_pathStem opens type) (ends_pathStem otherOpens other) same

theorem not_opensPart_of_bar (chars : List Char) :
    ¬ OpensPart (chars ++ ['|']) := by
  intro opens
  have isLast : '|' ∈ (chars ++ ['|']).getLast? := by
    rw [List.getLast?_concat]
    rfl
  exact absurd (opens '|' isLast) (by decide)

/-- The path of a single type is read back. -/
theorem single_read_back (isSingle : type.isSingle = true)
    (own : type.HasOwnPaths) (otherOwn : other.HasOwnPaths)
    (opens : OpensPart front) (otherOpens : OpensPart otherFront)
    (same : front ++ type.path.toList = otherFront ++ other.path.toList) :
    type = other ∧ front = otherFront := by
  have ⟨stems, tails⟩ := split_path own otherOwn opens otherOpens same
  have stem : type.pathStem = [] := by
    cases type <;> first | rfl | cases isSingle
  have tail : type.pathTail = type.path.toList := by
    cases type <;> first | rfl | cases isSingle
  have nonempty := (path_of_single isSingle own).2
  rw [stem, List.append_nil] at stems
  rw [tail] at tails
  cases other with
  | array element => exact absurd tails nonempty
  | map key value => exact absurd tails nonempty
  | nullable inner =>
      rw [stems, pathStem, ← List.append_assoc] at opens
      exact absurd opens (not_opensPart_of_bar _)
  | _ =>
      have fronts : front = otherFront := stems.trans (List.append_nil _)
      have paths := String.toList_inj.mp tails
      exact ⟨eq_of_single isSingle rfl own otherOwn paths, fronts⟩

end

/-- A type and what stands in front of it are read back from its path. -/
theorem path_read_back {type other : DataType} {front otherFront : List Char}
    (own : type.HasOwnPaths) (otherOwn : other.HasOwnPaths)
    (opens : OpensPart front) (otherOpens : OpensPart otherFront)
    (same : front ++ type.path.toList = otherFront ++ other.path.toList) :
    type = other ∧ front = otherFront := by
  induction type generalizing other front otherFront with
  | array element inductionHypothesis =>
      cases other with
      | array other =>
          rw [toList_path_array, toList_path_array] at same
          simp only [← List.append_assoc] at same
          have isOwn : other.HasOwnPaths := otherOwn
          have ⟨sameElement, fronts⟩ := inductionHypothesis own isOwn
            (.concat _ (.inl rfl)) (.concat _ (.inl rfl))
            (List.append_cancel_right same)
          exact ⟨congrArg _ sameElement,
            List.append_cancel_right (List.append_cancel_right fronts)⟩
      | map key value =>
          rw [toList_path_array, toList_path_map] at same
          simp only [← List.append_assoc] at same
          have isOwn : value.HasOwnPaths := fun path member =>
            otherOwn path (List.mem_append_right _ member)
          have ⟨_, fronts⟩ := inductionHypothesis own isOwn
            (.concat _ (.inl rfl)) (.concat _ (.inr rfl))
            (List.append_cancel_right same)
          have lasts := congrArg List.getLast? fronts
          rw [List.getLast?_concat, List.getLast?_concat] at lasts
          exact absurd lasts (by decide)
      | nullable inner =>
          exact nomatch (split_path own otherOwn opens otherOpens same).2
      | _ =>
          have ⟨same, fronts⟩ := single_read_back rfl otherOwn own otherOpens
            opens same.symm
          exact ⟨same.symm, fronts.symm⟩
  | map key value keyHypothesis valueHypothesis =>
      have keyOwn : key.HasOwnPaths := fun path member =>
        own path (List.mem_append_left _ member)
      have valueOwn : value.HasOwnPaths := fun path member =>
        own path (List.mem_append_right _ member)
      cases other with
      | array other =>
          rw [toList_path_array, toList_path_map] at same
          simp only [← List.append_assoc] at same
          have isOwn : other.HasOwnPaths := otherOwn
          have ⟨_, fronts⟩ := valueHypothesis valueOwn isOwn
            (.concat _ (.inr rfl)) (.concat _ (.inl rfl))
            (List.append_cancel_right same)
          have lasts := congrArg List.getLast? fronts
          rw [List.getLast?_concat, List.getLast?_concat] at lasts
          exact absurd lasts (by decide)
      | map otherKey otherValue =>
          rw [toList_path_map, toList_path_map] at same
          simp only [← List.append_assoc] at same
          have isKeyOwn : otherKey.HasOwnPaths := fun path member =>
            otherOwn path (List.mem_append_left _ member)
          have isValueOwn : otherValue.HasOwnPaths := fun path member =>
            otherOwn path (List.mem_append_right _ member)
          have ⟨sameValue, fronts⟩ := valueHypothesis valueOwn isValueOwn
            (.concat _ (.inr rfl)) (.concat _ (.inr rfl))
            (List.append_cancel_right same)
          have ⟨sameKey, openings⟩ := keyHypothesis keyOwn isKeyOwn
            (.concat _ (.inl rfl)) (.concat _ (.inl rfl))
            (List.append_cancel_right fronts)
          rw [sameKey, sameValue]
          exact ⟨rfl, List.append_cancel_right
            (List.append_cancel_right openings)⟩
      | nullable inner =>
          exact nomatch (split_path own otherOwn opens otherOpens same).2
      | _ =>
          have ⟨same, fronts⟩ := single_read_back rfl otherOwn own otherOpens
            opens same.symm
          exact ⟨same.symm, fronts.symm⟩
  | nullable inner inductionHypothesis =>
      cases other with
      | nullable other =>
          rw [toList_path_nullable, toList_path_nullable] at same
          simp only [← List.append_assoc] at same
          have isOwn : other.HasOwnPaths := otherOwn
          have ⟨sameInner, fronts⟩ := inductionHypothesis own isOwn opens
            otherOpens
            (List.append_cancel_right (List.append_cancel_right same))
          exact ⟨congrArg _ sameInner, fronts⟩
      | array element =>
          exact nomatch (split_path own otherOwn opens otherOpens same).2
      | map key value =>
          exact nomatch (split_path own otherOwn opens otherOpens same).2
      | _ =>
          have ⟨same, fronts⟩ := single_read_back rfl otherOwn own otherOpens
            opens same.symm
          exact ⟨same.symm, fronts.symm⟩
  | _ => exact single_read_back rfl own otherOwn opens otherOpens same

theorem eq_of_path_eq {type other : DataType} (own : type.HasOwnPaths)
    (otherOwn : other.HasOwnPaths) (same : type.path = other.path) :
    type = other := by
  have opens : OpensPart [] := by
    intro char isLast
    cases isLast
  have alone : [] ++ type.path.toList = [] ++ other.path.toList := by
    rw [same]
  exact (path_read_back own otherOwn opens opens alone).1

end DataType

end PluginSurface
