import QueryFusion.Error

/-!
# Tokens of source units

Positions, tokens and diagnostics. Lines and columns count from one.
-/

namespace QueryFusion.Script

/-- A place in a source text. -/
structure Position where
  line : Nat
  column : Nat
  deriving DecidableEq, Inhabited

namespace Position

/-- The first place of a text. -/
def first : Position :=
  ⟨1, 1⟩

/-- The place after a character; the character that ends an input takes no room. -/
def after (position : Position) (c : Char) : Position :=
  if c = '\n' then ⟨position.line + 1, 1⟩
  else if c = '\x00' then position
  else ⟨position.line, position.column + 1⟩

/-- The place after some text. -/
def afterAll (position : Position) (text : List Char) : Position :=
  text.foldl after position

/-- Places add up over the parts of a text. -/
theorem afterAll_append (position : Position) (first second : List Char) :
    position.afterAll (first ++ second) = (position.afterAll first).afterAll second := by
  simp [afterAll]

/-- The text of a place. -/
def text (position : Position) : String :=
  "line " ++ toString position.line ++ ", column " ++ toString position.column

end Position

/-- The class of a token. -/
inductive TokenKind
  | endOfInput
  | identifier
  | keyword
  /-- An integer, with its suffix if it has one. -/
  | integer
  | float
  /-- A quoted text with its escapes resolved. -/
  | string
  | operator
  | punctuator
  deriving DecidableEq, Inhabited

/-- The name of a class of tokens. -/
def TokenKind.text : TokenKind → String
  | endOfInput => "EOF"
  | identifier => "IDENTIFIER"
  | keyword => "KEYWORD"
  | integer => "INTEGER"
  | float => "FLOAT"
  | string => "STRING"
  | operator => "OPERATOR"
  | punctuator => "PUNCTUATOR"

/-- A token with the place of its first character. -/
structure Token where
  kind : TokenKind
  literal : String
  position : Position
  deriving DecidableEq, Inhabited

namespace Token

/-- The token that ends every token list. -/
def endAt (position : Position) : Token :=
  ⟨.endOfInput, "", position⟩

/-- The token ends the list. -/
def isEnd (token : Token) : Bool :=
  token.kind == .endOfInput

/-- The token is this keyword. -/
def isKeyword (token : Token) (word : String) : Bool :=
  token.kind == .keyword && token.literal == word

/-- The token is this operator. -/
def isOperator (token : Token) (symbol : String) : Bool :=
  token.kind == .operator && token.literal == symbol

/-- The token is this punctuator. -/
def isPunctuator (token : Token) (symbol : String) : Bool :=
  token.kind == .punctuator && token.literal == symbol

/-- The text of a token in a diagnostic. -/
def text (token : Token) : String :=
  match token.kind with
  | .endOfInput => "end of input"
  | .keyword => "keyword '" ++ token.literal ++ "'"
  | _ => "'" ++ token.literal ++ "'"

end Token

/-- The reserved words. -/
def keywords : List String :=
  ["module", "import", "unit", "extends", "field", "new", "fn", "let", "if", "else", "while",
   "continue", "break", "return", "this", "super", "true", "false", "null", "as"]

/-- A word is reserved. -/
def isKeyword (word : String) : Bool :=
  keywords.contains word

/-- The operators of two characters. -/
def doubleOperators : List (Char × Char) :=
  [('=', '='), ('!', '='), ('<', '='), ('>', '='), ('&', '&'), ('|', '|'), ('-', '>')]

/-- The operators of one character. -/
def singleOperators : List Char :=
  ['+', '-', '*', '/', '%', '!', '<', '>', '=', '?']

/-- The punctuators. -/
def punctuators : List Char :=
  ['(', ')', '\x7b', '\x7d', '[', ']', ';', ',', '.', ':']

/-- What is wrong with a source text, and where. -/
structure Diagnostic where
  message : String
  position : Position
  deriving DecidableEq, Inhabited

namespace Diagnostic

/-- The text of a diagnostic. -/
def text (diagnostic : Diagnostic) : String :=
  diagnostic.message ++ " at " ++ diagnostic.position.text

/-- Removes the return character that a line break may carry. -/
def dropReturn (line : List Char) : List Char :=
  if line.getLast? = some '\r' then line.dropLast else line

/-- The lines of a text; `line` holds the current one, the last character first. The end of the text
ends a line only if there is something on it. -/
def linesFrom (line : List Char) : List Char → List (List Char)
  | [] => if line.isEmpty then [] else [line.reverse]
  | c :: rest =>
    if c = '\n' then dropReturn line.reverse :: linesFrom [] rest else linesFrom (c :: line) rest

/-- The line of a source text that a diagnostic is about. -/
def line? (diagnostic : Diagnostic) (source : String) : Option String :=
  match diagnostic.position.line with
  | 0 => none
  | number + 1 => (linesFrom [] source.toList)[number]?.map String.ofList

/-- The diagnostic with its source line and a mark under the column. -/
def render (diagnostic : Diagnostic) (source : String) : String :=
  match diagnostic.line? source with
  | none => diagnostic.text
  | some line =>
    diagnostic.text ++ "\n" ++ line ++ "\n" ++
      String.ofList (List.replicate (diagnostic.position.column - 1) ' ' ++ ['^'])

/-- The error of a unit that was rejected. -/
def toError (diagnostic : Diagnostic) (unitName source : String) : Error :=
  .compilation unitName diagnostic.message diagnostic.position.line diagnostic.position.column
    source

end Diagnostic

end QueryFusion.Script
