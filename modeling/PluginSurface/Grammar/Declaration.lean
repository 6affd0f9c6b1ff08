import PluginSurface.Grammar.Statement

/-!
Parsing declarations: functions, classes, variables, imports and export lists.
-/

namespace PluginSurface.Grammar

open Parse

/-- Words that introduce declarations of the larger language, none of which is
supported. -/
def unsupportedWords : List String :=
  ["type", "interface", "enum", "namespace", "abstract", "default"]

/-! ## Decorators -/

/-- A decorator after its `@`. -/
def decoratorFrom (start : Span) : Parse Decorator := do
  let name ← expectPropertyName
  let arguments ← if ← eatSymbol .openParen then decoratorArguments else pure []
  return ⟨name, arguments, ← spanFrom start⟩

def decoratorsAt : Nat → Parse (List Decorator)
  | 0 => failHere .expectedIdentifier
  | bound + 1 => do
      let start ← currentSpan
      if ← eatSymbol .atSign then
        let first ← decoratorFrom start
        let rest ← decoratorsAt bound
        return first :: rest
      else return []

def decorators : Parse (List Decorator) := do
  decoratorsAt (← stepBound)

/-- The contents of string literals, or the span of the first expression that
is none. -/
def stringContents (arena : Arena) : List ExprId → Except Span (List String)
  | [] => .ok []
  | id :: rest =>
      match arena.expr id with
      | ⟨.literal (.string content), _⟩ =>
          (stringContents arena rest).map (content :: ·)
      | ⟨_, span⟩ => .error span

/-- The host name that the first `@external` decorator gives. A malformed one is
reported and gives none. -/
def externalName (decorators : List Decorator) :
    Parse (Option ExternalName) := do
  match decorators.find? fun decorator => decorator.name.text == "external" with
  | none => return none
  | some decorator =>
      let arena ← inspect State.arena
      match stringContents arena decorator.arguments with
      | .error span =>
          report .externalArgument span
          return none
      | .ok [name] => return some ⟨none, name⟩
      | .ok [moduleName, name] => return some ⟨some moduleName, name⟩
      | .ok _ =>
          report (.externalArity decorator.arguments.length) decorator.span
          return none

/-! ## Functions -/

/-- A modifier of a parameter, unless it is the parameter's name. -/
def parameterModifier : Parse Bool := do
  let next ← inspect fun state => state.lookAhead 1
  match ← currentKind with
  | .keyword .publicWord | .keyword .privateWord | .keyword .readonlyWord =>
      return !(next.isSymbol .colon || next.isSymbol .comma)
  | _ => return false

def skipParameterModifiers : Nat → Parse Unit
  | 0 => pure ()
  | bound + 1 => do
      if ← parameterModifier then
        advance
        skipParameterModifiers bound

def parameter : Parse Param := do
  let start ← currentSpan
  skipParameterModifiers (← stepBound)
  let name ← expectIdentifier
  if ← atSymbol .question then
    failHere fun _ => .optionalParameter name.text
  else if ← eatSymbol .colon then
    let type ← typeExpr
    let initializer ← optionalInitializer
    return ⟨name, type, initializer, ← spanFrom start⟩
  else failAt (.untypedParameter name.text) name.span

def parameters : Parse (List Param) := do
  expectSymbol .openParen
  listUntil .closeParen parameter

/-- A type parameter, which is read and dropped. -/
def typeParameter : Parse Unit := do
  discard expectIdentifier
  if ← eatIdentifier "extends" then discard typeExpr

def skipTypeParameters : Parse Unit := do
  if ← eatSymbol .less then
    discard (separated typeParameter)
    expectClosingAngle

/-- A body, or a semicolon in its place. -/
def optionalBody : Parse (Option Block) := do
  if ← atSymbol .openBrace then
    let body ← block
    return some body
  else
    optionalSemicolon
    return none

def functionDecl (decorators : List Decorator) (isExported isDeclared : Bool)
    (start : Span) : Parse FunctionDecl := do
  expectKeyword .functionWord
  let name ← expectIdentifier
  skipTypeParameters
  let params ← parameters
  let returnType ← optionalType
  let body ← optionalBody
  if isDeclared && body.isSome then
    report (.declaredBody name.text) name.span
  let external ← externalName decorators
  return ⟨name, decorators, external, isExported, isDeclared, params,
    returnType, body, ← spanFrom start⟩

/-! ## Classes -/

/-- What a member adds to its class. Static fields add nothing. -/
inductive Member where
  | field (decl : FieldDecl)
  | method (decl : FunctionDecl)
  | static

def Member.field? : Member → Option FieldDecl
  | .field decl => some decl
  | _ => none

def Member.method? : Member → Option FunctionDecl
  | .method decl => some decl
  | _ => none

/-- A word that may stand before a member's name. -/
def isMemberModifier : TokenKind → Bool
  | .keyword .publicWord | .keyword .privateWord
  | .keyword .readonlyWord => true
  | .identifier word =>
      word == "static" || word == "protected" || word == "get" || word == "set"
  | _ => false

/-- A token that follows a member's name, so that the word before it is the
name and no modifier. -/
def followsMemberName : TokenKind → Bool
  | .symbol .openParen | .symbol .colon | .symbol .equal | .symbol .bang
  | .symbol .question | .symbol .semicolon | .symbol .less => true
  | _ => false

/-- Skips modifiers and tells whether one of them is `static`. -/
def memberModifiers : Nat → Parse Bool
  | 0 => pure false
  | bound + 1 => do
      let kind ← currentKind
      let next ← inspect fun state => state.lookAhead 1
      if isMemberModifier kind && !followsMemberName next then
        advance
        let isStatic ← memberModifiers bound
        return kind.isIdentifier "static" || isStatic
      else return false

def methodFrom (start : Span) (decorators : List Decorator) (name : Name) :
    Parse FunctionDecl := do
  skipTypeParameters
  let params ← parameters
  let returnType ← optionalType
  let body ← optionalBody
  return ⟨name, decorators, none, false, false, params, returnType, body,
    ← spanFrom start⟩

def fieldFrom (start : Span) (name : Name) : Parse FieldDecl := do
  unless ← eatSymbol .bang do
    discard (eatSymbol .question)
  if ← eatSymbol .colon then
    let type ← typeExpr
    let initializer ← optionalInitializer
    optionalSemicolon
    return ⟨name, type, initializer, ← spanFrom start⟩
  else failAt (.untypedField name.text) name.span

def classMember : Parse Member := do
  let start ← currentSpan
  let decorators ← decorators
  let isStatic ← memberModifiers (← stepBound)
  let name ← expectPropertyName
  if (← atSymbol .openParen) || (← atSymbol .less) then
    let decl ← methodFrom start decorators name
    return .method decl
  else
    let decl ← fieldFrom start name
    return if isStatic then .static else .field decl

/-- Skips to after a semicolon or a block, or to the brace that closes the
class. -/
def memberBoundary : Nat → Span → List Token → Span × List Token
  | _, previous, [] => (previous, [])
  | depth, previous, token :: rest =>
      if token.kind.isEndOfFile then (previous, token :: rest)
      else if token.kind.isSymbol .semicolon && depth = 0 then
        (token.span, rest)
      else if token.kind.isSymbol .openBrace then
        memberBoundary (depth + 1) token.span rest
      else if token.kind.isSymbol .closeBrace then
        match depth with
        | 0 => (previous, token :: rest)
        | 1 => (token.span, rest)
        | depth + 1 => memberBoundary depth token.span rest
      else memberBoundary depth token.span rest

def skipMember : Parse Unit :=
  skipBy (memberBoundary 0)

def membersUntilBrace : Nat → Parse (List Member)
  | 0 => pure []
  | bound + 1 => do
      if (← atSymbol .closeBrace) || (← atEnd) then return []
      else if ← eatSymbol .semicolon then membersUntilBrace bound
      else if ← isFull then return []
      else
        match ← attempt classMember with
        | some first =>
            let rest ← membersUntilBrace bound
            return first :: rest
        | none =>
            skipMember
            membersUntilBrace bound

def optionalBase : Parse (Option TypeExpr) := do
  if ← eatIdentifier "extends" then
    let type ← typeExpr
    return some type
  else return none

def classDecl (decorators : List Decorator) (isExported : Bool) (start : Span) :
    Parse ClassDecl := do
  expectKeyword .classWord
  let name ← expectIdentifier
  skipTypeParameters
  let base ← optionalBase
  if ← eatIdentifier "implements" then discard (separated typeExpr)
  expectSymbol .openBrace
  let members ← membersUntilBrace (← stepBound)
  expectSymbol .closeBrace
  return ⟨name, decorators, isExported, base,
    members.filterMap Member.field?, members.filterMap Member.method?,
    ← spanFrom start⟩

/-! ## Variables, imports and exports -/

def variableDecl (kind : BindingKind) (decorators : List Decorator)
    (isExported : Bool) (start : Span) : Parse VariableDecl := do
  advance
  let name ← expectIdentifier
  let type ← optionalType
  let value ← optionalInitializer
  optionalSemicolon
  return ⟨kind, name, type, value, isExported, decorators, ← spanFrom start⟩

/-- An optional `as name`. -/
def optionalRename : Parse (Option Name) := do
  if ← eatKeyword .asWord then
    let name ← expectIdentifier
    return some name
  else return none

def exportMember : Parse ExportMember := do
  let localName ← expectIdentifier
  let exportedName ← optionalRename
  return ⟨localName, exportedName⟩

def exportDecl (start : Span) : Parse ExportDecl := do
  expectSymbol .openBrace
  let members ← listUntil .closeBrace exportMember
  let source ←
    if ← eatKeyword .fromWord then do
      let source ← expectString
      pure (some source)
    else pure none
  optionalSemicolon
  return ⟨members, source, ← spanFrom start⟩

def importMember : Parse ImportMember := do
  let importedName ← expectIdentifier
  let localName ← optionalRename
  return ⟨importedName, localName.getD importedName⟩

/-- What an import names: nothing, a namespace or members. -/
def importNames : Parse (Option Name × List ImportMember) := do
  match ← currentKind with
  | .string _ => return (none, [])
  | .symbol .star =>
      advance
      expectKeyword .asWord
      let name ← expectIdentifier
      return (some name, [])
  | _ =>
      expectSymbol .openBrace
      let members ← listUntil .closeBrace importMember
      return (none, members)

def importDecl (start : Span) : Parse ImportDecl := do
  expectKeyword .importWord
  let (namespaceName, members) ← importNames
  if namespaceName.isSome || !members.isEmpty || (← atKeyword .fromWord) then
    expectKeyword .fromWord
  let source ← expectString
  optionalSemicolon
  return ⟨members, namespaceName, source, ← spanFrom start⟩

/-! ## Items -/

/-- A declaration after its decorators, `export` and `declare`. -/
def declarationItem (decorators : List Decorator) (isExported isDeclared : Bool)
    (start : Span) : Parse Item := do
  match ← currentKind with
  | .keyword .functionWord =>
      let function ← functionDecl decorators isExported isDeclared start
      return .function function
  | .keyword .classWord =>
      let class_ ← classDecl decorators isExported start
      return .class class_
  | .keyword .letWord =>
      let variable_ ← variableDecl .letBinding decorators isExported start
      return .variable variable_
  | .keyword .constWord =>
      let variable_ ← variableDecl .constBinding decorators isExported start
      return .variable variable_
  | .keyword .varWord =>
      let variable_ ← variableDecl .varBinding decorators isExported start
      return .variable variable_
  | .keyword .importWord =>
      if isExported || isDeclared then failHere .expectedDeclaration
      else
        let importList ← importDecl start
        return .importList importList
  | .identifier word =>
      if unsupportedWords.contains word then
        failHere fun _ => .unsupportedDeclaration word
      else failHere .expectedDeclaration
  | .symbol .star =>
      if isExported then failHere fun _ => .exportAll
      else failHere .expectedDeclaration
  | _ => failHere .expectedDeclaration

def item : Parse Item := do
  let start ← currentSpan
  let decorators ← decorators
  let isExported ← eatKeyword .exportWord
  if isExported && (← atSymbol .openBrace) then
    let exportList ← exportDecl start
    return .exportList exportList
  else
    let isDeclared ← eatKeyword .declareWord
    declarationItem decorators isExported isDeclared start

/-- Words and symbols that start an item which a reader can go on from. -/
def startsItem : TokenKind → Bool
  | .keyword .exportWord | .keyword .importWord | .keyword .functionWord
  | .keyword .classWord | .keyword .declareWord | .symbol .atSign => true
  | _ => false

/-- Skips to after a semicolon or a block, or to the start of an item. -/
def itemBoundary : Nat → Span → List Token → Span × List Token
  | _, previous, [] => (previous, [])
  | depth, previous, token :: rest =>
      if token.kind.isEndOfFile then (previous, token :: rest)
      else if token.kind.isSymbol .openBrace then
        itemBoundary (depth + 1) token.span rest
      else if token.kind.isSymbol .closeBrace then
        match depth with
        | 0 => itemBoundary 0 token.span rest
        | 1 => (token.span, rest)
        | depth + 1 => itemBoundary depth token.span rest
      else if depth = 0 && token.kind.isSymbol .semicolon then
        (token.span, rest)
      else if depth = 0 && startsItem token.kind then (previous, token :: rest)
      else itemBoundary depth token.span rest

def skipItem : Parse Unit :=
  skipBy (itemBoundary 0)

/-- The items up to the end of the tokens. -/
def itemsToEnd : Nat → Parse (List Item)
  | 0 => pure []
  | bound + 1 => do
      if (← atEnd) || (← isFull) then return []
      else if ← eatSymbol .semicolon then itemsToEnd bound
      else
        match ← attempt item with
        | some first =>
            let rest ← itemsToEnd bound
            return first :: rest
        | none =>
            skipItem
            itemsToEnd bound

def items : Parse (List Item × Span) := do
  let start ← currentSpan
  let items ← itemsToEnd (← stepBound)
  return (items, ← spanFrom start)

end PluginSurface.Grammar
