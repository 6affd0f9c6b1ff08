import PluginSurface.Grammar.Program
import PluginSurface.Proofs.Dict
import PluginSurface.Resolve.Declarations

/-!
# Classes under several names

A class that a module imports is the class that another module declares, under
whatever name it is imported. Names of built-in types come first: neither a
class nor an import changes what they mean.
-/

namespace PluginSurface

/-! ## Built-in types -/

/-- The built-in type that a name without type arguments means. -/
def DataType.builtIn? (name : String) : Option DataType :=
  match Primitive.ofText? name with
  | some kind => some (.primitive kind)
  | none =>
      if name = "string" ∨ name = "String" then some .string
      else if name = "Date" then some .date
      else none

theorem DataType.ne_class_of_builtIn? {name path : String} {type : DataType}
    (isBuiltIn : builtIn? name = some type) : type ≠ .class path := by
  rintro rfl
  unfold builtIn? at isBuiltIn
  split at isBuiltIn
  · cases isBuiltIn
  · split at isBuiltIn
    · cases isBuiltIn
    · split at isBuiltIn <;> cases isBuiltIn

namespace Declarations

/-- A name alone means a built-in type, if there is one, and otherwise a
class. -/
theorem named_alone (declarations : Declarations) (modulePath name : String) :
    declarations.named modulePath [name] [] =
      (DataType.builtIn? name).getD
        (.class (declarations.classPath modulePath [name])) := by
  unfold named DataType.builtIn?
  dsimp only
  cases Primitive.ofText? name with
  | some kind => rfl
  | none =>
      dsimp only
      by_cases isText : name = "string" ∨ name = "String"
      · rw [if_pos isText]
        rcases isText with rfl | rfl <;> rfl
      · rw [if_neg isText]
        by_cases isDate : name = "Date"
        · subst isDate
          rfl
        · rw [if_neg isDate]
          push Not at isText
          split <;> simp_all

theorem resolve_alone (declarations : Declarations) (modulePath : String)
    {type : TypeExpr} {name : String}
    (isName : type.shape = .named [name] []) :
    declarations.resolve modulePath type =
      (DataType.builtIn? name).getD
        (.class (declarations.classPath modulePath [name])) := by
  rw [resolve, isName, resolveShape, resolveShapes, named_alone]

end Declarations

/-! ## Imports -/

/-- An import binds a local name. -/
def ImportDecl.Binds (decl : ImportDecl) (name : String) : Prop :=
  (∃ whole ∈ decl.namespaceName, whole.text = name) ∨
    ∃ member ∈ decl.members, member.localName.text = name

/-- A member of an import is the last one in a program to bind a local
name. -/
structure Program.BindsLast (program : Program) (name : String)
    (decl : ImportDecl) (member : ImportMember) : Prop where
  binds : member.localName.text = name
  inDecl : ∃ front back, decl.members = front ++ member :: back ∧
    ∀ other ∈ back, other.localName.text ≠ name
  inProgram : ∃ earlier later, program.imports = earlier ++ decl :: later ∧
    ∀ other ∈ later, ¬ other.Binds name

namespace ModuleScope

theorem binds_of_mem_importBindings {origin : String} {decl : ImportDecl}
    {entry : String × Binding} (isBound : entry ∈ importBindings origin decl) :
    decl.Binds entry.1 := by
  rcases List.mem_append.mp isBound with isWhole | isMember
  · obtain ⟨whole, isName, rfl⟩ := List.mem_map.mp isWhole
    exact .inl ⟨whole, Option.mem_toList.mp isName, rfl⟩
  · obtain ⟨member, inMembers, rfl⟩ := List.mem_map.mp isMember
    exact .inr ⟨member, inMembers, rfl⟩

/-- What an import binds behind its last member of a name does not have the
name. -/
theorem exists_split_importBindings (origin : String) {name : String}
    {decl : ImportDecl} {member : ImportMember} {front back : List ImportMember}
    (members : decl.members = front ++ member :: back)
    (last : ∀ other ∈ back, other.localName.text ≠ name) :
    ∃ before behind, importBindings origin decl =
        before ++ (member.localName.text,
          .imported (ModulePath.resolve origin decl.source)
            member.importedName.text) :: behind ∧
      ∀ entry ∈ behind, entry.1 ≠ name := by
  unfold importBindings
  dsimp only
  rw [members, List.map_append, List.map_cons, ← List.append_assoc]
  refine ⟨_, _, rfl, ?_⟩
  intro entry isBehind
  obtain ⟨other, inBack, rfl⟩ := List.mem_map.mp isBehind
  exact last other inBack

/-- The last import of a name says what it stands for, unless a class hides
it. -/
theorem find?_of_bindsLast {program : Program} {name : String}
    {decl : ImportDecl} {member : ImportMember}
    (bindsLast : program.BindsLast name decl member)
    (notHidden : ∀ class_ ∈ program.classes, class_.name.text ≠ name) :
    (ofProgram program).find? name =
      some (.imported (ModulePath.resolve program.path decl.source)
        member.importedName.text) := by
  obtain ⟨front, back, members, lastMember⟩ := bindsLast.inDecl
  obtain ⟨earlier, later, imports, lastImport⟩ := bindsLast.inProgram
  obtain ⟨before, behind, bindings, lastBinding⟩ :=
    exists_split_importBindings program.path members lastMember
  rw [bindsLast.binds] at bindings
  unfold find? ofProgram
  dsimp only
  rw [imports, List.flatMap_append, List.flatMap_cons, bindings,
    List.append_assoc, List.append_assoc, List.append_assoc,
    List.cons_append, ← List.append_assoc]
  apply Dict.find?_ofEntries_last
  intro entry isBehind
  rcases List.mem_append.mp isBehind with inImport | further
  · exact lastBinding entry inImport
  · rcases List.mem_append.mp further with inLater | isClass
    · obtain ⟨other, isOther, binds⟩ := List.mem_flatMap.mp inLater
      rintro rfl
      exact lastImport other isOther (binds_of_mem_importBindings binds)
    · obtain ⟨class_, isDeclared, rfl⟩ := List.mem_map.mp isClass
      exact notHidden class_ isDeclared

/-- A class that a program declares is found under its name. -/
theorem find?_of_declared {program : Program} {class_ : ClassDecl}
    (declares : class_ ∈ program.classes) :
    (ofProgram program).find? class_.name.text = some .declared := by
  let entries := program.classes.map fun class_ =>
    (class_.name.text, Binding.declared)
  have declared : (class_.name.text, Binding.declared) ∈ entries :=
    List.mem_map_of_mem declares
  have known := Dict.contains_ofEntries_of_mem declared
  obtain ⟨binding, found⟩ := Option.isSome_iff_exists.mp known
  have isDeclared : binding = .declared := by
    obtain ⟨_, _, same⟩ :=
      List.mem_map.mp (Dict.mem_of_mem_ofEntries (Dict.mem_of_find? found))
    exact (Prod.mk.inj same).2.symm
  subst isDeclared
  unfold find? ofProgram
  dsimp only
  rw [Dict.find?_ofEntries_append, found, Option.some_or]

end ModuleScope

/-! ## One class, two names -/

/-- A program imports a class under a local name from another program that
declares it, and nothing in it hides the import. -/
structure SharesClass (programs : List Program) (importer declarer : Program)
    (localName className : String) : Prop where
  distinct : (programs.map Program.path).Nodup
  hasImporter : importer ∈ programs
  hasDeclarer : declarer ∈ programs
  declares : ∃ class_ ∈ declarer.classes, class_.name.text = className
  imports : ∃ decl member, importer.BindsLast localName decl member ∧
    member.importedName.text = className ∧
    ModulePath.resolve importer.path decl.source = declarer.path
  notHidden : ∀ class_ ∈ importer.classes, class_.name.text ≠ localName

namespace Declarations

/-- Programs with different paths keep their scopes. -/
theorem find?_scopes_ofPrograms {programs : List Program}
    (distinct : (programs.map Program.path).Nodup) {program : Program}
    (member : program ∈ programs) :
    (ofPrograms programs).scopes.find? program.path =
      some (ModuleScope.ofProgram program) := by
  obtain ⟨front, back, rfl⟩ := List.append_of_mem member
  unfold ofPrograms
  dsimp only
  rw [List.map_append, List.map_cons]
  apply Dict.find?_ofEntries_last
  intro entry isBehind
  obtain ⟨other, inBack, rfl⟩ := List.mem_map.mp isBehind
  rw [List.map_append, List.map_cons] at distinct
  have separate := (List.nodup_cons.mp (List.nodup_append.mp distinct).2.1).1
  exact fun same => separate (same ▸ List.mem_map_of_mem inBack)

variable {programs : List Program} {importer declarer : Program}
  {localName className : String}

theorem classPath_of_shared
    (shares : SharesClass programs importer declarer localName className) :
    (ofPrograms programs).classPath importer.path [localName] =
        declarer.path ++ "/" ++ className ∧
      (ofPrograms programs).classPath declarer.path [className] =
        declarer.path ++ "/" ++ className := by
  obtain ⟨decl, member, bindsLast, isClass, fromDeclarer⟩ := shares.imports
  obtain ⟨class_, declared, named⟩ := shares.declares
  have imported := ModuleScope.find?_of_bindsLast bindsLast shares.notHidden
  have known := ModuleScope.find?_of_declared declared
  rw [fromDeclarer, isClass] at imported
  rw [named] at known
  have importerScope :=
    find?_scopes_ofPrograms shares.distinct shares.hasImporter
  have declarerScope :=
    find?_scopes_ofPrograms shares.distinct shares.hasDeclarer
  have samePath : (ModuleScope.ofProgram declarer).path = declarer.path := rfl
  constructor
  · simp [classPath, importerScope, ModuleScope.qualify, imported]
  · simp [classPath, declarerScope, ModuleScope.qualify, known, samePath]

/-- The local name of an imported class and the name it is declared under mean
one type, with the path of the declaration, unless one of the names is that of a
built-in type: such a name means that type. -/
theorem shared_class_has_one_identity
    (shares : SharesClass programs importer declarer localName className)
    (imported declared : TypeExpr)
    (isLocal : imported.shape = .named [localName] [])
    (isClass : declared.shape = .named [className] []) :
    let class_ := DataType.class (declarer.path ++ "/" ++ className)
    let there := (ofPrograms programs).resolve importer.path imported
    let here := (ofPrograms programs).resolve declarer.path declared
    there = (DataType.builtIn? localName).getD class_ ∧
      here = (DataType.builtIn? className).getD class_ ∧
      (there = here ↔
        DataType.builtIn? localName = DataType.builtIn? className) := by
  intro class_ there here
  have ⟨localPath, classPath⟩ := classPath_of_shared shares
  have isThere : there = (DataType.builtIn? localName).getD class_ :=
    (resolve_alone _ _ isLocal).trans (by rw [localPath])
  have isHere : here = (DataType.builtIn? className).getD class_ :=
    (resolve_alone _ _ isClass).trans (by rw [classPath])
  refine ⟨isThere, isHere, ?_⟩
  rw [isThere, isHere]
  constructor
  · intro same
    cases localType : DataType.builtIn? localName with
    | none =>
        cases classType : DataType.builtIn? className with
        | none => rfl
        | some type =>
            rw [localType, classType] at same
            exact absurd same.symm (DataType.ne_class_of_builtIn? classType)
    | some type =>
        cases classType : DataType.builtIn? className with
        | none =>
            rw [localType, classType] at same
            exact absurd same (DataType.ne_class_of_builtIn? localType)
        | some other =>
            rw [localType, classType] at same
            exact congrArg some same
  · intro same
    rw [same]

end Declarations

/-! ## Samples -/

/-- A program whose only import is one member, which another program declares
as a class. -/
def Program.OnlyImports (importer declarer : Program)
    (source localName className : String) : Prop :=
  importer.imports.map (fun decl => (decl.source, decl.members.map fun member =>
    (member.localName.text, member.importedName.text))) =
      [(source, [(localName, className)])] ∧
    ModulePath.resolve importer.path source = declarer.path ∧
    importer.path ≠ declarer.path ∧
    (∃ class_ ∈ declarer.classes, class_.name.text = className) ∧
    ∀ class_ ∈ importer.classes, class_.name.text ≠ localName

theorem Program.OnlyImports.sharesClass {importer declarer : Program}
    {source localName className : String}
    (onlyImports : importer.OnlyImports declarer source localName className) :
    SharesClass [importer, declarer] importer declarer localName
      className := by
  obtain ⟨only, fromDeclarer, different, declares, notHidden⟩ := onlyImports
  obtain ⟨decl, imports, isDecl⟩ := List.map_eq_singleton_iff.mp only
  obtain ⟨isSource, isMembers⟩ := Prod.mk.inj isDecl
  obtain ⟨member, members, isMember⟩ := List.map_eq_singleton_iff.mp isMembers
  obtain ⟨isLocal, isImported⟩ := Prod.mk.inj isMember
  have bindsLast : importer.BindsLast localName decl member :=
    ⟨isLocal, ⟨[], [], members, nofun⟩, ⟨[], [], imports, nofun⟩⟩
  constructor
  · simpa using different
  · exact List.mem_cons_self
  · exact List.mem_cons_of_mem _ List.mem_cons_self
  · exact declares
  · exact ⟨decl, member, bindsLast, isImported, isSource ▸ fromDeclarer⟩
  · exact notHidden

namespace Sample

/-- The program of a source without faults. -/
def programOf (source : SourceText) : Program :=
  match source.parse .user with
  | .ok program => program
  | .error _ => default

def pointImporter : Program :=
  programOf ⟨"assembly/index.ts", "import \x7b Point as P \x7d from \"./m\";"⟩

def pointDeclarer : Program :=
  programOf ⟨"assembly/m.ts", "export class Point \x7b x: i32; \x7d"⟩

def dateImporter : Program :=
  programOf ⟨"assembly/index.ts", "import \x7b Date as D \x7d from \"./m\";"⟩

def dateDeclarer : Program :=
  programOf ⟨"assembly/m.ts", "export class Date \x7b x: i32; \x7d"⟩

end Sample

theorem shared_class_has_one_identity_of_point :
    SharesClass [Sample.pointImporter, Sample.pointDeclarer]
        Sample.pointImporter Sample.pointDeclarer "P" "Point" ∧
      (Declarations.ofPrograms
          [Sample.pointImporter, Sample.pointDeclarer]).resolve
        Sample.pointImporter.path (.simple "P" default) =
          .class "assembly/m/Point" := by
  have only : Sample.pointImporter.OnlyImports Sample.pointDeclarer
      "./m" "P" "Point" := by
    unfold Program.OnlyImports
    decide +kernel
  have shares := only.sharesClass
  have ⟨isClass, _⟩ := Declarations.shared_class_has_one_identity shares
    (.simple "P" default) (.simple "Point" default) rfl rfl
  have path : Sample.pointDeclarer.path = "assembly/m" := by decide +kernel
  have notBuiltIn : DataType.builtIn? "P" = none := by decide
  rw [notBuiltIn, path] at isClass
  exact ⟨shares, isClass⟩

/-- A class with the name of a built-in type is imported as a class, but means
the built-in type where it is declared. -/
theorem date_has_two_identities :
    SharesClass [Sample.dateImporter, Sample.dateDeclarer]
        Sample.dateImporter Sample.dateDeclarer "D" "Date" ∧
      (Declarations.ofPrograms
          [Sample.dateImporter, Sample.dateDeclarer]).resolve
        Sample.dateImporter.path (.simple "D" default) =
          .class "assembly/m/Date" ∧
      (Declarations.ofPrograms
          [Sample.dateImporter, Sample.dateDeclarer]).resolve
        Sample.dateDeclarer.path (.simple "Date" default) = .date := by
  have only : Sample.dateImporter.OnlyImports Sample.dateDeclarer
      "./m" "D" "Date" := by
    unfold Program.OnlyImports
    decide +kernel
  exact ⟨only.sharesClass, by decide +kernel, by decide +kernel⟩

end PluginSurface
