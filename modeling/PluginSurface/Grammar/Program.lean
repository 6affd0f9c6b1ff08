import PluginSurface.Grammar.Declaration
import PluginSurface.Syntax.Scan

/-!
From tokens and from text to programs.
-/

namespace PluginSurface

namespace Grammar

/-- The token that stands after the last one: the end of the file, at the last
token if the tokens do not end in one. -/
def finishOf (tokens : List Token) : Token :=
  match tokens.getLast? with
  | some token =>
      if token.kind.isEndOfFile then token else ⟨.endOfFile, token.span⟩
  | none => ⟨.endOfFile, .point .first⟩

/-- Tokens that end in the end of the file. -/
def completed (tokens : List Token) : List Token :=
  match tokens.getLast? with
  | some token =>
      if token.kind.isEndOfFile then tokens else tokens ++ [finishOf tokens]
  | none => [finishOf tokens]

def initialState (source : SourceText) (tokens : List Token) : State where
  source := source
  rest := completed tokens
  finish := finishOf tokens
  previous := .point .first
  diagnostics := .empty
  arena := .empty
  depth := 0

/-- The program that tokens make up, or what is wrong with them. -/
def parse (source : SourceText) (kind : SourceKind) (tokens : List Token) :
    Except Diagnostics Program :=
  match items (initialState source tokens) with
  | (result, state) =>
      match state.diagnostics.hasErrors, result with
      | false, some (items, span) =>
          .ok ⟨modulePath source.name, kind, items, state.arena, span⟩
      | _, _ => .error state.diagnostics

end Grammar

/-- The program that a source text holds, or what is wrong with it. A text with
faulty tokens is not parsed. -/
def SourceText.parse (source : SourceText) (kind : SourceKind) :
    Except Diagnostics Program :=
  let scanned := source.scan
  if scanned.diagnostics.hasErrors then .error scanned.diagnostics
  else Grammar.parse source kind scanned.tokens

end PluginSurface
