import QueryFusion.Script.Token
import QueryFusion.Text.Blank
import QueryFusion.Text.Letter

/-!
# From source text to tokens

Tokens are separated by blanks and by comments, which start with two slashes and run to the end of
the line. A word is as long as possible, and so is an operator. The null character ends the input
unless it stands in a quoted text.
-/

namespace QueryFusion.Script

/-- What is left of a source text, and where it starts. -/
structure Rest where
  chars : List Char
  position : Position
  deriving DecidableEq, Inhabited

namespace Rest

/-- The whole of a source text. -/
def ofSource (source : String) : Rest :=
  ⟨source.toList, .first⟩

/-- The rest after some of its first characters. -/
def skip (rest : Rest) (count : Nat) : Rest :=
  ⟨rest.chars.drop count, rest.position.afterAll (rest.chars.take count)⟩

/-- Skipping in two steps is skipping at once. -/
theorem skip_skip (rest : Rest) (first second : Nat) :
    (rest.skip first).skip second = rest.skip (first + second) := by
  simp only [skip, List.drop_drop, Rest.mk.injEq, true_and]
  rw [← Position.afterAll_append, List.take_add]

end Rest

/-- Skips blanks and comments. -/
def skipBlanks (inComment : Bool) : List Char → Position → Rest
  | [], position => ⟨[], position⟩
  | c :: rest, position =>
    if inComment then
      if c = '\n' then skipBlanks false rest (position.after c)
      else if c = '\x00' then ⟨c :: rest, position⟩
      else skipBlanks true rest (position.after c)
    else if Text.isBlank c then skipBlanks false rest (position.after c)
    else if c = '/' ∧ rest.head? = some '/' then skipBlanks true rest (position.after c)
    else ⟨c :: rest, position⟩

/-! ## Quoted texts -/

/-- A hexadecimal digit. -/
def isHexDigit (c : Char) : Bool :=
  c.isDigit || ('a' ≤ c && c ≤ 'f') || ('A' ≤ c && c ≤ 'F')

/-- Value of a hexadecimal digit. -/
def hexDigitValue (c : Char) : Nat :=
  if c.isDigit then c.toNat - '0'.toNat
  else if 'a' ≤ c then c.toNat - 'a'.toNat + 10
  else c.toNat - 'A'.toNat + 10

/-- Value of a string of hexadecimal digits. -/
def hexValue (digits : List Char) : Nat :=
  digits.foldl (fun value digit => 16 * value + hexDigitValue digit) 0

/-- What a single character after a backslash stands for. -/
def escaped? : Char → Option Char
  | 'n' => some '\n'
  | 'r' => some '\r'
  | 't' => some '\t'
  | '0' => some '\x00'
  | '"' => some '"'
  | '\\' => some '\\'
  | _ => none

/-- Where in a quoted text the lexer is. -/
inductive Quoted
  | plain
  /-- Behind a backslash. -/
  | escape
  /-- Behind the letter of a code point escape, which stands at `start`. -/
  | opening (start : Position)
  /-- Among the digits of a code point escape, read so far in order. -/
  | digits (start : Position) (read : List Char)

/-- The error of a quoted text that ends too early. -/
def Quoted.endError (quoteStart position : Position) : Quoted → Diagnostic
  | plain => ⟨"unterminated string literal", quoteStart⟩
  | escape => ⟨"unknown escape '\\\x00'", position⟩
  | opening _ => ⟨"expected '\x7b' after '\\u'", position⟩
  | digits start _ => ⟨"malformed unicode escape", start⟩

/-- Reads a quoted text from behind its opening quote; `taken` holds its characters so far, the last
one first. -/
def readQuoted (quoteStart : Position) :
    Quoted → List Char → List Char → Position → Except Diagnostic (String × Rest)
  | state, _, [], position => .error (state.endError quoteStart position)
  | .plain, taken, c :: rest, position =>
    if c = '"' then .ok (String.ofList taken.reverse, ⟨rest, position.after c⟩)
    else if c = '\n' then .error ⟨"unterminated string literal", quoteStart⟩
    else if c = '\\' then readQuoted quoteStart .escape taken rest (position.after c)
    else readQuoted quoteStart .plain (c :: taken) rest (position.after c)
  | .escape, taken, c :: rest, position =>
    if c = 'u' then readQuoted quoteStart (.opening position) taken rest (position.after c)
    else
      match escaped? c with
      | some plain => readQuoted quoteStart .plain (plain :: taken) rest (position.after c)
      | none => .error ⟨"unknown escape '\\" ++ String.singleton c ++ "'", position⟩
  | .opening start, taken, c :: rest, position =>
    if c = '\x7b' then readQuoted quoteStart (.digits start []) taken rest (position.after c)
    else .error ⟨"expected '\x7b' after '\\u'", position⟩
  | .digits start read, taken, c :: rest, position =>
    if isHexDigit c ∧ read.length < 6 then
      readQuoted quoteStart (.digits start (read ++ [c])) taken rest (position.after c)
    else if c = '\x7d' ∧ read ≠ [] then
      if Nat.isValidChar (hexValue read) then
        readQuoted quoteStart .plain (Char.ofNat (hexValue read) :: taken) rest (position.after c)
      else .error ⟨"invalid code point '" ++ String.ofList read ++ "'", start⟩
    else .error ⟨"malformed unicode escape", start⟩

/-! ## Numbers -/

/-- A fraction: a point with at least one digit behind it. -/
def fractionOf (chars : List Char) : List Char :=
  match chars with
  | '.' :: c :: rest => if c.isDigit then '.' :: (c :: rest).takeWhile Char.isDigit else []
  | _ => []

/-- The sign of an exponent, if it has one. -/
def signOf (chars : List Char) : List Char :=
  match chars with
  | c :: _ => if c = '+' ∨ c = '-' then [c] else []
  | [] => []

/-- An exponent as it is written, or nothing; none when its digits are missing. -/
def exponentOf (chars : List Char) : Option (List Char) :=
  match chars with
  | c :: rest =>
    if c = 'e' ∨ c = 'E' then
      let sign := signOf rest
      let digits := (rest.drop sign.length).takeWhile Char.isDigit
      if digits = [] then none else some (c :: sign ++ digits)
    else some []
  | [] => some []

/-- Reads a number: digits, a fraction, an exponent and a suffix. The exponent mark is always kept
in lower case and the suffix of a double is dropped. -/
def readNumber (start : Rest) : Except Diagnostic (Token × Rest) :=
  let whole := start.chars.takeWhile Char.isDigit
  let behindWhole := start.chars.drop whole.length
  let fraction := fractionOf behindWhole
  let behindFraction := behindWhole.drop fraction.length
  match exponentOf behindFraction with
  | none => .error ⟨"malformed exponent", start.position⟩
  | some exponent =>
    let behindExponent := behindFraction.drop exponent.length
    let isFloat := fraction ≠ [] ∨ exponent ≠ []
    let mark : Char := behindExponent.headD '\x00'
    let isLong := mark = 'L' ∧ ¬isFloat
    let hasSuffix := isLong ∨ mark = 'D'
    let size := whole.length + fraction.length + exponent.length + (if hasSuffix then 1 else 0)
    let rest := start.skip size
    let written := whole ++ fraction ++
      (match exponent with
       | [] => []
       | _ :: digits => 'e' :: digits)
    let next : Char := rest.chars.headD '\x00'
    if Text.isLetterOrDigit next ∨ next = '_' then
      .error ⟨"invalid suffix '" ++ String.singleton next ++ "' on numeric literal", start.position⟩
    else if isLong then
      .ok (⟨.integer, String.ofList (written ++ ['L']), start.position⟩, rest)
    else if isFloat ∨ mark = 'D' then
      .ok (⟨.float, String.ofList written, start.position⟩, rest)
    else .ok (⟨.integer, String.ofList written, start.position⟩, rest)

/-! ## Tokens -/

/-- A character of a word behind the first. -/
def isWordChar (c : Char) : Bool :=
  Text.isLetterOrDigit c || c == '_'

/-- Reads a word. -/
def readWord (start : Rest) : Token × Rest :=
  let word := start.chars.takeWhile isWordChar
  let text := String.ofList word
  (⟨if isKeyword text then .keyword else .identifier, text, start.position⟩, start.skip word.length)

/-- The operator at the start of some characters, as long as possible. -/
def operatorOf? (chars : List Char) : Option (List Char) :=
  match chars with
  | [] => none
  | [c] => if singleOperators.contains c then some [c] else none
  | c :: next :: _ =>
    if doubleOperators.contains (c, next) then some [c, next]
    else if singleOperators.contains c then some [c]
    else none

/-- Reads the token at the start of a text without leading blanks. -/
def readToken (start : Rest) : Except Diagnostic (Token × Rest) :=
  match start.chars with
  | [] => .ok (.endAt start.position, start)
  | c :: rest =>
    if c = '\x00' then .ok (.endAt start.position, start)
    else if c = '"' then do
      let (text, behind) ← readQuoted start.position .plain [] rest (start.position.after c)
      .ok (⟨.string, text, start.position⟩, behind)
    else if c.isDigit then readNumber start
    else if Text.isLetter c ∨ c = '_' then .ok (readWord start)
    else if punctuators.contains c then
      .ok (⟨.punctuator, String.singleton c, start.position⟩, start.skip 1)
    else
      match operatorOf? start.chars with
      | some symbol =>
        .ok (⟨.operator, String.ofList symbol, start.position⟩, start.skip symbol.length)
      | none => .error ⟨"unexpected character '" ++ String.singleton c ++ "'", start.position⟩

/-- The next token behind blanks and comments. -/
def nextToken (rest : Rest) : Except Diagnostic (Token × Rest) :=
  readToken (skipBlanks false rest.chars rest.position)

/-- Reads tokens up to the end of the input. Every other token takes at least one character, so the
number of characters bounds the number of steps. -/
def tokensFrom : Nat → Rest → Except Diagnostic (List Token)
  | 0, rest => .ok [.endAt rest.position]
  | fuel + 1, rest => do
    let (token, behind) ← nextToken rest
    if token.isEnd then .ok [token]
    else do
      let tokens ← tokensFrom fuel behind
      .ok (token :: tokens)

/-- The tokens of a source text; the last one, and only that, is the end of the input. -/
def tokenize (source : String) : Except Diagnostic (List Token) :=
  let rest := Rest.ofSource source
  tokensFrom (rest.chars.length + 1) rest

end QueryFusion.Script
