import PluginSurface.Source.Span

/-!
Type annotations as they are written.
-/

namespace PluginSurface

/-- A name and where it is written. -/
structure Name where
  text : String
  span : Span
deriving DecidableEq, Inhabited

/-- A type annotation: a dotted name with type arguments, an array or a
nullable type. -/
inductive TypeExpr where
  | named (segments : List Name) (arguments : List TypeExpr) (span : Span)
  | array (element : TypeExpr) (span : Span)
  | nullable (inner : TypeExpr) (span : Span)
deriving Inhabited

namespace TypeExpr

def span : TypeExpr → Span
  | named _ _ span => span
  | array _ span => span
  | nullable _ span => span

/-- The same annotation over another stretch of text. -/
def withSpan (type : TypeExpr) (span : Span) : TypeExpr :=
  match type with
  | named segments arguments _ => named segments arguments span
  | array element _ => array element span
  | nullable inner _ => nullable inner span

def simple (name : String) (span : Span) : TypeExpr :=
  named [⟨name, span⟩] [] span

def baseName? : TypeExpr → Option String
  | named segments _ _ => segments.getLast?.map Name.text
  | _ => none

end TypeExpr

/-- A type annotation without the places where its parts are written. -/
inductive TypeShape where
  | named (segments : List String) (arguments : List TypeShape)
  | array (element : TypeShape)
  | nullable (inner : TypeShape)
deriving Inhabited

namespace TypeShape

def isNullable : TypeShape → Bool
  | nullable _ => true
  | _ => false

mutual

/-- The text of a type. An array of a nullable type has the nullable type in
parentheses. -/
def text : TypeShape → String
  | named segments arguments =>
      String.intercalate "." segments ++
        match arguments with
        | [] => ""
        | arguments => "<" ++ String.intercalate ", " (texts arguments) ++ ">"
  | array element =>
      if element.isNullable then "(" ++ element.text ++ ")[]"
      else element.text ++ "[]"
  | nullable inner => inner.text ++ " | null"

def texts : List TypeShape → List String
  | [] => []
  | type :: rest => type.text :: texts rest

end

end TypeShape

namespace TypeExpr

mutual

def shape : TypeExpr → TypeShape
  | named segments arguments _ =>
      .named (segments.map Name.text) (shapes arguments)
  | array element _ => .array element.shape
  | nullable inner _ => .nullable inner.shape

def shapes : List TypeExpr → List TypeShape
  | [] => []
  | type :: rest => type.shape :: shapes rest

end

def text (type : TypeExpr) : String :=
  type.shape.text

end TypeExpr

end PluginSurface
