import PluginSurface.Proofs.Resolve.Identity
import PluginSurface.Proofs.Resolve.Layout

/-!
# Layouts of derived classes

A class has the fields of the classes that it extends, the furthest first, and
then its own. Classes that extend each other in a circle are met once each, and
a class outside such a circle begins with all that its base consists of.
-/

namespace PluginSurface

namespace Declarations

variable {declarations : Declarations}

/-! ## Chains of bases -/

/-- A declared class extends another one. -/
def Extends (declarations : Declarations) (path base : String) : Prop :=
  declarations.classes.contains base = true ∧
    ∃ entry, declarations.classes.find? path = some entry ∧
      entry.decl.base.map (declarations.resolve entry.modulePath) =
        some (.class base)

/-- The fields that a class declares itself, with the types they have. -/
def fieldsOf (declarations : Declarations) (path : String) :
    List (String × DataType) :=
  ((declarations.classes.find? path).map declarations.ownFields).getD []

/-- A class and those that it extends, each after the one that extends it, when
some classes have been met. The chain ends at a class that extends none, or
one that has been met. -/
structure IsBaseChain (declarations : Declarations) (met : List String)
    (path : String) (chain : List String) : Prop where
  first : chain.head? = some path
  linked : chain.IsChain declarations.Extends
  distinct : chain.Nodup
  new : ∀ class_ ∈ chain, class_ ∉ met
  ends : ∀ last ∈ chain.getLast?, ∀ base, declarations.Extends last base →
    base ∈ met ∨ base ∈ chain

theorem IsBaseChain.single {met : List String} {path : String}
    (new : path ∉ met)
    (ends : ∀ base, declarations.Extends path base → base ∈ path :: met) :
    declarations.IsBaseChain met path [path] where
  first := rfl
  linked := .singleton path
  distinct := List.nodup_singleton path
  new := by simpa using new
  ends last isLast base extend := by
    cases isLast
    rcases List.mem_cons.mp (ends base extend) with rfl | known
    · exact .inr List.mem_cons_self
    · exact .inl known

theorem IsBaseChain.cons {met : List String} {path base : String}
    {chain : List String} (new : path ∉ met)
    (extend : declarations.Extends path base)
    (isChain : declarations.IsBaseChain (path :: met) base chain) :
    declarations.IsBaseChain met path (path :: chain) := by
  cases chain with
  | nil => cases isChain.first
  | cons head rest =>
      cases isChain.first
      constructor
      · rfl
      · exact .cons_cons extend isChain.linked
      · refine List.nodup_cons.mpr ⟨fun again => ?_, isChain.distinct⟩
        exact isChain.new path again List.mem_cons_self
      · refine List.forall_mem_cons.mpr ⟨new, fun class_ member known => ?_⟩
        exact isChain.new class_ member (List.mem_cons_of_mem _ known)
      · intro last isLast other further
        rw [List.getLast?_cons_cons] at isLast
        rcases isChain.ends last isLast other further with known | inChain
        · rcases List.mem_cons.mp known with rfl | earlier
          · exact .inr List.mem_cons_self
          · exact .inl earlier
        · exact .inr (List.mem_cons_of_mem _ inChain)

/-- What a class extends is the class its base is resolved to, if that is
declared. -/
theorem extends_iff {path base : String} {entry : ClassEntry}
    (found : declarations.classes.find? path = some entry) :
    declarations.Extends path base ↔
      declarations.classes.contains base = true ∧
        entry.decl.base.map (declarations.resolve entry.modulePath) =
          some (.class base) := by
  constructor
  · rintro ⟨declared, other, same, isBase⟩
    cases found.symm.trans same
    exact ⟨declared, isBase⟩
  · exact fun ⟨declared, isBase⟩ => ⟨declared, entry, found, isBase⟩

theorem ancestry_of_undeclared {path : String} {met : List String}
    (undeclared : ¬ declarations.classes.contains path = true) :
    declarations.ancestry path met = [] := by
  apply ancestry_of_missing
  rwa [Dict.contains_eq, Bool.not_eq_true, Option.isSome_eq_false_iff,
    Option.isNone_iff_eq_none] at undeclared

/-- The classes met on the way up from a declared class make up a chain. -/
theorem exists_isBaseChain {path : String} {met : List String}
    (declared : declarations.classes.contains path = true)
    (new : path ∉ met) :
    ∃ chain, declarations.IsBaseChain met path chain ∧
      chain.map declarations.classes.find? =
        (declarations.ancestry path met).map some := by
  induction path, met using ancestry.induct declarations with
  | case1 path met missing =>
      rw [Dict.contains_eq, missing] at declared
      cases declared
  | case2 path met entry found known => exact absurd known new
  | case3 path met entry found _ inductionHypothesis =>
      rw [ancestry_of_new found new]
      by_cases climbs : ∃ base, declarations.Extends path base ∧
          base ∉ path :: met
      · obtain ⟨base, extend, baseNew⟩ := climbs
        obtain ⟨baseDeclared, isBase⟩ := (extends_iff found).mp extend
        obtain ⟨chain, isChain, same⟩ :=
          inductionHypothesis base baseDeclared baseNew
        refine ⟨path :: chain, isChain.cons new extend, ?_⟩
        rw [isBase]
        simp only [List.map_cons, found, same]
      · push Not at climbs
        refine ⟨[path], .single new climbs, ?_⟩
        split
        · next base isBase =>
            -- The base is declared nowhere, or it has been met.
            by_cases baseDeclared : declarations.classes.contains base = true
            · have known := climbs base
                ((extends_iff found).mpr ⟨baseDeclared, isBase⟩)
              rw [ancestry_of_seen known]
              simp [found]
            · rw [ancestry_of_undeclared baseDeclared]
              simp [found]
        · simp [found]

theorem flatMap_ownFields {chain : List String} {entries : List ClassEntry}
    (same : chain.map declarations.classes.find? = entries.map some) :
    entries.reverse.flatMap declarations.ownFields =
      chain.reverse.flatMap declarations.fieldsOf := by
  let fields (found : Option ClassEntry) :=
    (found.map declarations.ownFields).getD []
  calc
    entries.reverse.flatMap declarations.ownFields =
        (entries.map some).reverse.flatMap fields := by
      rw [← List.map_reverse, List.flatMap_map]
      rfl
    _ = (chain.map declarations.classes.find?).reverse.flatMap fields := by
      rw [same]
    _ = chain.reverse.flatMap declarations.fieldsOf := by
      rw [← List.map_reverse, List.flatMap_map]
      rfl

/-! ## Circles -/

/-- Classes that are not come to do not matter to the way up. -/
theorem ancestry_congr {path : String} {met known : List String}
    (agree : ∀ class_, Relation.ReflTransGen declarations.Extends path class_ →
      (class_ ∈ met ↔ class_ ∈ known)) :
    declarations.ancestry path met = declarations.ancestry path known := by
  induction path, met using ancestry.induct declarations generalizing known with
  | case1 path met missing =>
      rw [ancestry_of_missing missing, ancestry_of_missing missing]
  | case2 path met entry found isMet =>
      rw [ancestry_of_seen isMet, ancestry_of_seen ((agree path .refl).mp isMet)]
  | case3 path met entry found new inductionHypothesis =>
      rw [ancestry_of_new found new,
        ancestry_of_new found (mt (agree path .refl).mpr new)]
      congr 1
      split
      · next base isBase =>
          by_cases declared : declarations.classes.contains base = true
          · apply inductionHypothesis base
            intro class_ reached
            have extend := (extends_iff found).mpr ⟨declared, isBase⟩
            have same := agree class_ (.head extend reached)
            simp only [List.mem_cons, same]
          · rw [ancestry_of_undeclared declared,
              ancestry_of_undeclared declared]
      · rfl

/-! ## Layouts -/

/-- A declared class is laid out from the front to the back of its chain. -/
theorem layout?_of_declared {path : String}
    (declared : declarations.classes.contains path = true) :
    declarations.layout? path =
      some ⟨placeFields 0 ((declarations.ancestry path []).reverse.flatMap
        declarations.ownFields)⟩ := by
  obtain ⟨entry, found⟩ := Option.isSome_iff_exists.mp declared
  unfold layout?
  rw [ancestry_of_new found List.not_mem_nil]

/-- A class that does not extend itself over others begins as the class it
extends. -/
theorem fields_isPrefix_of_extends {path base : String}
    (extend : declarations.Extends path base)
    (noCircle : ¬ Relation.TransGen declarations.Extends path path)
    {layout : ClassLayout}
    (isLaidOut : declarations.layout? path = some layout) :
    ∃ inherited, declarations.layout? base = some inherited ∧
      inherited.fields <+: layout.fields := by
  obtain ⟨baseDeclared, entry, found, isBase⟩ := extend
  have declared : declarations.classes.contains path = true :=
    Option.isSome_iff_exists.mpr ⟨entry, found⟩
  refine ⟨_, layout?_of_declared baseDeclared, ?_⟩
  -- The class itself is not come to from its base.
  have sameBases : declarations.ancestry base [path] =
      declarations.ancestry base [] := by
    apply ancestry_congr
    intro class_ reached
    have other : class_ ≠ path := by
      rintro rfl
      exact noCircle (.head' ⟨baseDeclared, entry, found, isBase⟩ reached)
    simp [other]
  rw [layout?_of_declared declared, ancestry_of_new found List.not_mem_nil,
    isBase] at isLaidOut
  cases isLaidOut
  dsimp only
  rw [sameBases, List.reverse_cons, List.flatMap_append]
  exact placeFields_isPrefix 0 _ _

/-- How a declared class is laid out: its fields are those along the chain of
its bases, the furthest first, each as near to the field before it as it can
lie, and nothing more than is needed lies behind the last of them. -/
structure LaysOut (declarations : Declarations) (path : String)
    (layout : ClassLayout) : Prop where
  /-- The way up ends, with a step for each declared class at most. -/
  ends : ∀ steps > declarations.classes.length,
    declarations.ancestryWithin steps path [] =
      some (declarations.ancestry path [])
  fields : ∃ chain, declarations.IsBaseChain [] path chain ∧
    layout.fields.map PlacedField.declared =
      chain.reverse.flatMap declarations.fieldsOf
  natural : LieNaturally 0 layout.fields
  alignment : IsGreatest {alignment | alignment = 1 ∨
    ∃ field ∈ layout.fields, alignment = field.type.slot.alignment}
    layout.alignment
  size : IsLeast (alignedFrom layout.stop layout.alignment) layout.size
  /-- A class outside a circle begins as the class it extends. -/
  inherits : ∀ base, declarations.Extends path base →
    ¬ Relation.TransGen declarations.Extends path path →
    ∃ inherited, declarations.layout? base = some inherited ∧
      inherited.fields <+: layout.fields
  /-- Offsets and the size come out the same in words of 32 bits. -/
  words : layout.size < 2 ^ 32 →
    (placeWords 0 layout.types).1.map UInt32.toNat =
        layout.fields.map PlacedField.offset ∧
      (alignUpWord (placeWords 0 layout.types).2
        (.ofNat layout.alignment)).toNat = layout.size

theorem unseenCount_nil_le (declarations : Declarations) :
    unseenCount declarations.classes.keys [] ≤ declarations.classes.length := by
  have fewer := List.length_filter_le (fun path => path ∉ ([] : List String))
    declarations.classes.keys
  rwa [Dict.keys, List.length_map] at fewer

theorem exists_laysOut {path : String}
    (declared : declarations.classes.contains path = true) :
    ∃ layout, declarations.layout? path = some layout ∧
      declarations.LaysOut path layout := by
  have isLaidOut := layout?_of_declared declared
  refine ⟨_, isLaidOut, ?_⟩
  obtain ⟨chain, isChain, same⟩ :=
    exists_isBaseChain declared List.not_mem_nil
  constructor
  · intro steps enough
    apply ancestryWithin_eq
    exact Nat.lt_of_le_of_lt declarations.unseenCount_nil_le enough
  · refine ⟨chain, isChain, ?_⟩
    rw [map_declared_placeFields, flatMap_ownFields same]
  · exact lieNaturally_placeFields 0 _
  · exact ClassLayout.isGreatest_alignment _
  · exact ClassLayout.isLeast_size _
  · intro base extend noCircle
    exact fields_isPrefix_of_extends extend noCircle isLaidOut
  · exact words_of_size_lt rfl

theorem contains_of_declared {programs : List Program} {program : Program}
    {decl : ClassDecl} (member : program ∈ programs)
    (declares : decl ∈ program.classes) :
    (ofPrograms programs).classes.contains
      (program.path ++ "/" ++ decl.name.text) = true := by
  have entry : (program.path ++ "/" ++ decl.name.text,
        (⟨program.path, decl⟩ : ClassEntry)) ∈
      programs.flatMap classEntries :=
    List.mem_flatMap.mpr ⟨program, member, List.mem_map_of_mem declares⟩
  exact Dict.contains_ofEntries_of_mem entry

/-- Every class that programs declare is laid out naturally. -/
theorem declared_class_laysOut {programs : List Program} {program : Program}
    {decl : ClassDecl} (member : program ∈ programs)
    (declares : decl ∈ program.classes) :
    ∃ layout,
      (ofPrograms programs).layout? (program.path ++ "/" ++ decl.name.text) =
        some layout ∧
      (ofPrograms programs).LaysOut
        (program.path ++ "/" ++ decl.name.text) layout := by
  apply exists_laysOut
  exact contains_of_declared member declares

end Declarations

namespace Sample

/-- A class that extends another one. -/
def derivedProgram : Program :=
  programOf ⟨"assembly/index.ts",
    "class A \x7b flag: bool; size: i64; \x7d
     class B extends A \x7b name: string; \x7d"⟩

end Sample

theorem declared_class_laysOut_of_derived :
    ∃ layout,
      (Declarations.ofPrograms [Sample.derivedProgram]).layout?
        "assembly/index/B" = some layout ∧
      layout.fields.map PlacedField.offset = [0, 8, 16] ∧
      (Declarations.ofPrograms [Sample.derivedProgram]).LaysOut
        "assembly/index/B" layout := by
  have facts : (∃ decl ∈ Sample.derivedProgram.classes,
        Sample.derivedProgram.path ++ "/" ++ decl.name.text =
          "assembly/index/B") ∧
      ((Declarations.ofPrograms [Sample.derivedProgram]).layout?
        "assembly/index/B").map
          (fun layout => layout.fields.map PlacedField.offset) =
        some [0, 8, 16] := by
    decide +kernel
  obtain ⟨⟨decl, declares, path⟩, offsets⟩ := facts
  have laidOut := Declarations.declared_class_laysOut
    (List.mem_singleton_self Sample.derivedProgram) declares
  rw [path] at laidOut
  obtain ⟨layout, found, laysOut⟩ := laidOut
  rw [found] at offsets
  exact ⟨layout, found, Option.some.inj offsets, laysOut⟩

end PluginSurface
