import Mathlib.Data.List.Nodup
import Mathlib.Data.List.Forall2
import Mathlib.Logic.Relation
import PluginSurface.Proofs.Resolve.Paths

/-!
# Tables of types

Types are met from a stack on, each path once. Whatever stands on the stack,
and whatever hangs on a type that is listed, is listed itself, if not under the
same type then under the same path.
-/

namespace PluginSurface.Declarations

variable {declarations : Declarations}

/-! ## Discovery -/

/-- A type leads to those it is made of and to those of its fields. -/
def Leads (declarations : Declarations) (type part : DataType) : Prop :=
  part ∈ type.children ++ declarations.fieldTypes type

/-- A type is held in place, or its path is among others. Being nullable does
not count. -/
def Covered (paths : List String) (type : DataType) : Prop :=
  type.bare.isPrimitive = true ∨ type.bare.path ∈ paths

theorem Covered.mono {smaller larger : List String} {type : DataType}
    (covered : Covered smaller type)
    (subset : ∀ path ∈ smaller, path ∈ larger) : Covered larger type :=
  covered.imp_right (subset _)

/-- What is listed from a stack on, when some paths have been seen. -/
structure Discovers (declarations : Declarations) (seen : List String)
    (stack listed : List DataType) : Prop where
  roots : ∀ type ∈ stack, Covered (seen ++ listed.map DataType.path) type
  parts : ∀ type ∈ listed, ∀ part, declarations.Leads type part →
    Covered (seen ++ listed.map DataType.path) part
  fresh : ∀ type ∈ listed, type.path ∉ seen
  distinct : (listed.map DataType.path).Nodup
  reached : ∀ type ∈ listed, ∃ root ∈ stack,
    Relation.ReflTransGen declarations.Leads root type
  bare : ∀ type ∈ listed, type.bare = type

/-- A type on the stack that adds nothing to what the rest lists. -/
theorem Discovers.skip {seen : List String} {first : DataType}
    {rest listed : List DataType}
    (discovers : declarations.Discovers seen rest listed)
    (covered : Covered (seen ++ listed.map DataType.path) first) :
    declarations.Discovers seen (first :: rest) listed :=
  { discovers with
    roots := List.forall_mem_cons.mpr ⟨covered, discovers.roots⟩
    reached := fun type member =>
      have ⟨root, onStack, reaches⟩ := discovers.reached type member
      ⟨root, List.mem_cons_of_mem _ onStack, reaches⟩ }

theorem Discovers.nullable {seen : List String} {inner : DataType}
    {rest listed : List DataType}
    (discovers : declarations.Discovers seen (inner :: rest) listed) :
    declarations.Discovers seen (.nullable inner :: rest) listed := by
  have ⟨covered, others⟩ := List.forall_mem_cons.mp discovers.roots
  refine { discovers with
    roots := List.forall_mem_cons.mpr ⟨covered, others⟩
    reached := fun type member => ?_ }
  obtain ⟨root, onStack, reaches⟩ := discovers.reached type member
  rcases List.mem_cons.mp onStack with rfl | inRest
  · exact ⟨.nullable root, List.mem_cons_self,
      .head (List.mem_append_left _ List.mem_cons_self) reaches⟩
  · exact ⟨root, List.mem_cons_of_mem _ inRest, reaches⟩

theorem Discovers.expand {seen : List String} {type : DataType}
    {rest listed : List DataType} (isBare : type.bare = type)
    (new : type.path ∉ seen)
    (discovers : declarations.Discovers (type.path :: seen)
      (type.children ++ declarations.fieldTypes type ++ rest) listed) :
    declarations.Discovers seen (type :: rest) (type :: listed) := by
  have same (path : String)
      (member : path ∈ type.path :: seen ++ listed.map DataType.path) :
      path ∈ seen ++ (type :: listed).map DataType.path := by
    simp only [List.cons_append, List.mem_cons, List.mem_append,
      List.map_cons] at member ⊢
    tauto
  have roots := List.forall_mem_append.mp discovers.roots
  constructor
  · refine List.forall_mem_cons.mpr ⟨.inr ?_, fun other member =>
      (roots.2 other member).mono same⟩
    simp [isBare]
  · exact List.forall_mem_cons.mpr
      ⟨fun part leads => (roots.1 part leads).mono same,
        fun other member part leads =>
          (discovers.parts other member part leads).mono same⟩
  · exact List.forall_mem_cons.mpr ⟨new, fun other member isSeen =>
      discovers.fresh other member (List.mem_cons_of_mem _ isSeen)⟩
  · refine List.nodup_cons.mpr ⟨fun again => ?_, discovers.distinct⟩
    obtain ⟨other, member, same⟩ := List.mem_map.mp again
    exact discovers.fresh other member (same ▸ List.mem_cons_self)
  · refine List.forall_mem_cons.mpr
      ⟨⟨type, List.mem_cons_self, .refl⟩, fun other member => ?_⟩
    obtain ⟨root, onStack, reaches⟩ := discovers.reached other member
    rcases List.mem_append.mp onStack with isPart | inRest
    · exact ⟨type, List.mem_cons_self, .head isPart reaches⟩
    · exact ⟨root, List.mem_cons_of_mem _ inRest, reaches⟩
  · exact List.forall_mem_cons.mpr ⟨isBare, discovers.bare⟩

theorem discovers_discover (declarations : Declarations) (seen : List String)
    (stack : List DataType) :
    declarations.Discovers seen stack (declarations.discover seen stack) := by
  induction seen, stack using discover.induct declarations with
  | case1 seen =>
      unfold discover
      exact ⟨nofun, nofun, nofun, .nil, nofun, nofun⟩
  | case2 seen kind rest inductionHypothesis =>
      unfold discover
      exact inductionHypothesis.skip (.inl rfl)
  | case3 seen inner rest inductionHypothesis =>
      unfold discover
      exact inductionHypothesis.nullable
  | case4 seen type rest notPrimitive notNullable known inductionHypothesis =>
      have isBare : type.bare = type := by
        cases type <;> first | rfl | (exact (notNullable _ rfl).elim)
      rw [discover.eq_4 _ _ _ _ notPrimitive notNullable, if_pos known]
      refine inductionHypothesis.skip (.inr ?_)
      rw [isBare]
      exact List.mem_append_left _ known
  | case5 seen type rest notPrimitive notNullable new inductionHypothesis =>
      have isBare : type.bare = type := by
        cases type <;> first | rfl | (exact (notNullable _ rfl).elim)
      rw [discover.eq_4 _ _ _ _ notPrimitive notNullable, if_neg new]
      exact inductionHypothesis.expand isBare new

/-! ## Definitions -/

/-- Definitions are made one for each type. -/
theorem forall₂_defineAll (declarations : Declarations) (next : Nat)
    (listed : List DataType) :
    List.Forall₂ (fun type definition =>
        ∃ id, definition = declarations.define id type)
      listed (declarations.defineAll next listed) := by
  induction listed generalizing next with
  | nil => exact .nil
  | cons type rest inductionHypothesis =>
      unfold defineAll
      split
      · next same =>
          cases same
      · next same =>
          cases same
          exact .cons ⟨_, rfl⟩ (inductionHypothesis _)
      · next same =>
          cases same
          exact .cons ⟨_, rfl⟩ (inductionHypothesis _)

theorem map_path_defineAll (declarations : Declarations) (next : Nat)
    (listed : List DataType) :
    (declarations.defineAll next listed).map TypeDefinition.path =
      listed.map DataType.path := by
  have pairs := declarations.forall₂_defineAll next listed
  generalize declarations.defineAll next listed = definitions at pairs
  induction pairs with
  | nil => rfl
  | cons pair _ inductionHypothesis =>
      obtain ⟨id, rfl⟩ := pair
      exact congrArg (_ :: ·) inductionHypothesis

/-- The numbers of the definitions that are not of the text type. -/
def otherIds (listed : List DataType) (definitions : List TypeDefinition) :
    List Nat :=
  ((listed.zip definitions).filter fun entry => entry.1 ≠ .string).map
    fun entry => entry.2.id

theorem defineAll_string (next : Nat) (rest : List DataType) :
    declarations.defineAll next (.string :: rest) =
      declarations.define stringId .string ::
        declarations.defineAll next rest :=
  rfl

theorem defineAll_other {type : DataType} (other : type ≠ .string)
    (next : Nat) (rest : List DataType) :
    declarations.defineAll next (type :: rest) =
      declarations.define next type ::
        declarations.defineAll (next + 1) rest :=
  defineAll.eq_3 declarations next type rest fun same => other same

theorem otherIds_defineAll (declarations : Declarations) (next : Nat)
    (listed : List DataType) :
    otherIds listed (declarations.defineAll next listed) =
      List.range' next (listed.countP fun type => type ≠ .string) := by
  induction listed generalizing next with
  | nil => rfl
  | cons type rest inductionHypothesis =>
      by_cases isString : type = .string
      · subst isString
        have same := inductionHypothesis next
        unfold otherIds at same ⊢
        rw [defineAll_string, List.zip_cons_cons,
          List.filter_cons_of_neg (by simp), same,
          List.countP_cons_of_neg (by simp)]
      · have same := inductionHypothesis (next + 1)
        unfold otherIds at same ⊢
        rw [defineAll_other isString, List.zip_cons_cons,
          List.filter_cons_of_pos (by simpa using isString), List.map_cons,
          same, List.countP_cons_of_pos (by simpa using isString),
          List.range'_succ]
        rfl

/-- A definition has the number of the text type, which is listed then, or one
that was free. -/
theorem id_of_mem_defineAll {next : Nat} {listed : List DataType}
    {definition : TypeDefinition}
    (member : definition ∈ declarations.defineAll next listed) :
    (definition.id = stringId ∧ .string ∈ listed) ∨ next ≤ definition.id := by
  induction listed generalizing next with
  | nil => cases member
  | cons type rest inductionHypothesis =>
      by_cases isString : type = .string
      · subst isString
        rw [defineAll_string] at member
        rcases List.mem_cons.mp member with rfl | inRest
        · exact .inl ⟨rfl, List.mem_cons_self⟩
        · exact (inductionHypothesis inRest).imp_left fun known =>
            ⟨known.1, List.mem_cons_of_mem _ known.2⟩
      · rw [defineAll_other isString] at member
        rcases List.mem_cons.mp member with rfl | inRest
        · exact .inr (Nat.le_refl _)
        · rcases inductionHypothesis inRest with known | high
          · exact .inl ⟨known.1, List.mem_cons_of_mem _ known.2⟩
          · exact .inr (Nat.le_of_succ_le high)

theorem nodup_map_id_defineAll {next : Nat} {listed : List DataType}
    (high : stringId < next) (distinct : listed.Nodup) :
    ((declarations.defineAll next listed).map TypeDefinition.id).Nodup := by
  induction listed generalizing next with
  | nil => exact .nil
  | cons type rest inductionHypothesis =>
      have ⟨notInRest, restDistinct⟩ := List.nodup_cons.mp distinct
      by_cases isString : type = .string
      · subst isString
        rw [defineAll_string, List.map_cons]
        refine List.nodup_cons.mpr ⟨fun again => ?_,
          inductionHypothesis high restDistinct⟩
        obtain ⟨definition, member, same⟩ := List.mem_map.mp again
        rcases id_of_mem_defineAll member with known | free
        · exact notInRest known.2
        · have isStringId : definition.id = stringId := same
          omega
      · rw [defineAll_other isString, List.map_cons]
        refine List.nodup_cons.mpr ⟨fun again => ?_,
          inductionHypothesis (by omega) restDistinct⟩
        obtain ⟨definition, member, same⟩ := List.mem_map.mp again
        have isNext : definition.id = next := same
        rcases id_of_mem_defineAll member with known | free
        · omega
        · omega

/-- Types of fields that a definition tells are those that its type leads
to. -/
theorem exists_leads_of_mem_fields {id : Nat} {type : DataType}
    {fields : List Field}
    (tells : (declarations.define id type).fields = some fields)
    {field : Field} (member : field ∈ fields) :
    ∃ part, declarations.Leads type part ∧ field.type = part.ref := by
  cases type with
  | «class» path =>
      cases found : declarations.layout? path with
      | none => simp [define, found] at tells
      | some layout =>
          simp only [define, found, Option.map_some, Option.some.injEq]
            at tells
          subst tells
          obtain ⟨placed, inLayout, rfl⟩ := List.mem_map.mp member
          refine ⟨placed.type, List.mem_append_right _ ?_, rfl⟩
          simp only [fieldTypes, found, Option.map_some, Option.getD_some]
          exact List.mem_map_of_mem inLayout
  | _ => simp [define] at tells

/-! ## Termination -/

/-- The classes that a class extends, if they are found in some steps. -/
def ancestryWithin (declarations : Declarations) :
    Nat → String → List String → Option (List ClassEntry)
  | 0, _, _ => none
  | steps + 1, path, seen =>
      match declarations.classes.find? path with
      | none => some []
      | some entry =>
          if path ∈ seen then some []
          else
            match entry.decl.base.map
                (declarations.resolve entry.modulePath) with
            | some (.class base) =>
                (declarations.ancestryWithin steps base (path :: seen)).map
                  (entry :: ·)
            | _ => some [entry]

/-- Every step but the last meets a class that was not met before. -/
theorem ancestryWithin_eq {steps : Nat} {path : String} {seen : List String}
    (enough : unseenCount declarations.classes.keys seen < steps) :
    declarations.ancestryWithin steps path seen =
      some (declarations.ancestry path seen) := by
  induction steps generalizing path seen with
  | zero => exact absurd enough (Nat.not_lt_zero _)
  | succ steps inductionHypothesis =>
      unfold ancestryWithin
      split
      · next missing => rw [ancestry_of_missing missing]
      · next entry found =>
          split
          · next known => rw [ancestry_of_seen known]
          · next new =>
              have fewer := unseenCount_cons_lt (mem_keys_of_find? found) new
              rw [ancestry_of_new found new]
              generalize entry.decl.base.map _ = base
              cases base with
              | none => rfl
              | some type =>
                  cases type with
                  | «class» base =>
                      dsimp only
                      rw [inductionHypothesis (by omega)]
                      rfl
                  | _ => rfl

/-- The types that are listed from a stack on, if the stack is empty after some
steps. -/
def discoverWithin (declarations : Declarations) :
    Nat → List String → List DataType → Option (List DataType)
  | 0, _, _ => none
  | _ + 1, _, [] => some []
  | steps + 1, seen, .primitive _ :: rest =>
      declarations.discoverWithin steps seen rest
  | steps + 1, seen, .nullable inner :: rest =>
      declarations.discoverWithin steps seen (inner :: rest)
  | steps + 1, seen, type :: rest =>
      if type.path ∈ seen then declarations.discoverWithin steps seen rest
      else
        (declarations.discoverWithin steps (type.path :: seen)
          (type.children ++ declarations.fieldTypes type ++ rest)).map
          (type :: ·)

theorem exists_discoverWithin (declarations : Declarations)
    (seen : List String) (stack : List DataType) :
    ∃ steps, declarations.discoverWithin steps seen stack =
      some (declarations.discover seen stack) := by
  induction seen, stack using discover.induct declarations with
  | case1 seen => exact ⟨1, by rw [discoverWithin, discover]⟩
  | case2 seen kind rest inductionHypothesis =>
      obtain ⟨steps, ends⟩ := inductionHypothesis
      exact ⟨steps + 1, by rw [discoverWithin, discover, ends]⟩
  | case3 seen inner rest inductionHypothesis =>
      obtain ⟨steps, ends⟩ := inductionHypothesis
      exact ⟨steps + 1, by rw [discoverWithin, discover, ends]⟩
  | case4 seen type rest notPrimitive notNullable known inductionHypothesis =>
      obtain ⟨steps, ends⟩ := inductionHypothesis
      refine ⟨steps + 1, ?_⟩
      rw [discoverWithin.eq_5 _ _ _ _ _ notPrimitive notNullable,
        discover.eq_4 _ _ _ _ notPrimitive notNullable, if_pos known,
        if_pos known, ends]
  | case5 seen type rest notPrimitive notNullable new inductionHypothesis =>
      obtain ⟨steps, ends⟩ := inductionHypothesis
      refine ⟨steps + 1, ?_⟩
      rw [discoverWithin.eq_5 _ _ _ _ _ notPrimitive notNullable,
        discover.eq_4 _ _ _ _ notPrimitive notNullable, if_neg new,
        if_neg new, ends]
      rfl

end PluginSurface.Declarations
