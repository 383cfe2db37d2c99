import QueryFusion.Decimal.Digits
import QueryFusion.Script.Lexer
import QueryFusion.Script.Tree
import QueryFusion.Value.Arithmetic

/-!
# From tokens to syntax trees

Recursive descent over the token list. From the weakest binding up: the conditional, `||`, `&&`,
equality, order, sums, products, unary operators, and last member access, calls and casts. Binary
operators associate to the left. A minus in front of a number belongs to the number, so that the
least integers can be written.

Each reader is written once, with its calls of other readers, and of itself, answered by readers
that are given. The descent lets them call each other as often as it has fuel, and the deepest ones
call readers that read nothing. Between two tokens it makes a bounded number of calls, so a multiple
of the number of tokens is enough fuel.
-/

namespace QueryFusion.Script

/-- Reads something from the front of a token list and leaves the tokens behind it. -/
abbrev Reader (α : Type) : Type :=
  List Token → Except Diagnostic (α × List Token)

/-- The next token; token lists end with the end of the input. -/
def current (tokens : List Token) : Token :=
  tokens.headD (.endAt .first)

/-- The tokens behind the next one; nothing lies behind the end of the input. -/
def behind (tokens : List Token) : List Token :=
  if (current tokens).isEnd then tokens else tokens.tail

/-- The error of a token that does not fit. -/
def unexpected (expected : String) (tokens : List Token) : Diagnostic :=
  let token := current tokens
  ⟨"expected " ++ expected ++ ", found " ++ token.text, token.position⟩

/-- Reads a token of a kind given by a test. -/
def expect (test : Token → Bool) (expected : String) (tokens : List Token) :
    Except Diagnostic (Position × List Token) :=
  if test (current tokens) then .ok ((current tokens).position, behind tokens)
  else .error (unexpected expected tokens)

/-- Reads a punctuator. -/
def expectPunctuator (symbol : String) : List Token → Except Diagnostic (Position × List Token) :=
  expect (fun token => token.isPunctuator symbol) ("'" ++ symbol ++ "'")

/-- Reads an operator. -/
def expectOperator (symbol : String) : List Token → Except Diagnostic (Position × List Token) :=
  expect (fun token => token.isOperator symbol) ("'" ++ symbol ++ "'")

/-- Reads a keyword. -/
def expectKeyword (word : String) : List Token → Except Diagnostic (Position × List Token) :=
  expect (fun token => token.isKeyword word) ("'" ++ word ++ "'")

/-- Reads an identifier. -/
def expectIdentifier (tokens : List Token) : Except Diagnostic ((String × Position) × List Token) :=
  let token := current tokens
  if token.kind = .identifier then .ok ((token.literal, token.position), behind tokens)
  else .error (unexpected "identifier" tokens)

/-- Reads the parts of a dotted name behind the first. -/
def dottedTail (name : String) : List Token → Except Diagnostic (String × List Token)
  | [] => .ok (name, [])
  | token :: rest =>
    if token.isPunctuator "." then
      match rest with
      | part :: more =>
        if part.kind = .identifier then dottedTail (name ++ "." ++ part.literal) more
        else .error (unexpected "identifier" (part :: more))
      | [] => .error (unexpected "identifier" [])
    else .ok (name, token :: rest)

/-- Reads a dotted name. -/
def parseDotted (tokens : List Token) : Except Diagnostic ((String × Position) × List Token) := do
  let ((first, position), rest) ← expectIdentifier tokens
  let (name, rest) ← dottedTail first rest
  .ok ((name, position), rest)

/-- Reads a type. -/
def parseType (tokens : List Token) : Except Diagnostic (TypeName × List Token) := do
  let ((name, position), rest) ← expectIdentifier tokens
  if (current rest).isOperator "<" then do
    let ((argument, _), rest) ← parseDotted (behind rest)
    let (_, rest) ← expectOperator ">" rest
    .ok (⟨name, some argument, position⟩, rest)
  else .ok (⟨name, none, position⟩, rest)

/-- Reads a field. -/
def parseField (tokens : List Token) : Except Diagnostic (FieldDecl × List Token) := do
  let position := (current tokens).position
  let ((name, _), rest) ← expectIdentifier (behind tokens)
  let (_, rest) ← expectPunctuator ":" rest
  let (type, rest) ← parseType rest
  let (_, rest) ← expectPunctuator ";" rest
  .ok (⟨name, type, position⟩, rest)

/-- Reads a keyword that is a statement by itself. -/
def parseWord (statement : Position → Stmt) (tokens : List Token) :
    Except Diagnostic (Stmt × List Token) := do
  let (_, rest) ← expectPunctuator ";" (behind tokens)
  .ok (statement (current tokens).position, rest)

/-! ## Numbers -/

/-- The double of a number without its sign. -/
def doubleOf (negative : Bool) (literal : List Char) : Double :=
  let whole := literal.takeWhile Char.isDigit
  let behindWhole := literal.drop whole.length
  let fraction :=
    match behindWhole with
    | '.' :: rest => rest.takeWhile Char.isDigit
    | _ => []
  let behindFraction :=
    match behindWhole with
    | '.' :: rest => rest.drop fraction.length
    | other => other
  let exponent : Int :=
    match behindFraction with
    | 'e' :: '-' :: digits => -(Decimal.valueOf digits : Int)
    | 'e' :: '+' :: digits => Decimal.valueOf digits
    | 'e' :: digits => Decimal.valueOf digits
    | _ => 0
  Decimal.toDouble negative (Decimal.valueOf (whole ++ fraction)) (exponent - fraction.length)

/-- The integer of a number without its sign. -/
def signedValue (negative : Bool) (digits : List Char) : Int :=
  if negative then -(Decimal.valueOf digits : Int) else Decimal.valueOf digits

/-- The expression of a numeric token, with the sign in front of it. -/
def numberOf (token : Token) (negative : Bool) (position : Position) : Except Diagnostic Term :=
  let sign := if negative then "-" else ""
  let chars := token.literal.toList
  if token.kind = .float then .ok (.double position (doubleOf negative chars))
  else if chars.getLast? = some 'L' then
    match int64? (signedValue negative chars.dropLast) with
    | some number => .ok (.bigInt position number)
    | none =>
      .error
        ⟨"BigInt literal " ++ sign ++ String.ofList chars.dropLast ++ " out of range", position⟩
  else
    match int32? (signedValue negative chars) with
    | some number => .ok (.int position number)
    | none => .error ⟨"Int literal " ++ sign ++ token.literal ++ " out of range", position⟩

/-- The token is a number. -/
def isNumber (token : Token) : Bool :=
  token.kind == .integer || token.kind == .float

/-! ## Terms and assignments -/

/-- The binary operators of each level, the weakest level first. -/
def binaryLevels : List (List BinaryOp) :=
  [[.or], [.and], [.equal, .notEqual], [.less, .lessOrEqual, .greater, .greaterOrEqual],
   [.add, .subtract], [.multiply, .divide, .remainder]]

/-- The operator of a level that the token is. -/
def operatorAt? (level : Nat) (token : Token) : Option BinaryOp :=
  (binaryLevels.getD level []).find? fun op => token.isOperator op.symbol

/-- The expression of a token that is one by itself. -/
def atom? (token : Token) : Option Term :=
  match token.kind with
  | .string => some (.text token.position token.literal)
  | .identifier => some (.name token.position token.literal)
  | .keyword =>
    if token.literal = "true" then some (.boolean token.position true)
    else if token.literal = "false" then some (.boolean token.position false)
    else if token.literal = "null" then some (.null token.position)
    else if token.literal = "this" then some (.this token.position)
    else none
  | _ => none

/-- The assignment to an expression. -/
def assignment (position : Position) (target value : Term) : Except Diagnostic Stmt :=
  match target with
  | .member _ (.this _) field => .ok (.setField position field value)
  | .name _ name => .ok (.setLocal position name value)
  | other => .error ⟨"invalid assignment target", other.position⟩

/-! ## Readers that call others -/

/-- A reader for each part of the grammar that calls others. -/
structure Descent where
  expression : Reader Term
  binary : Nat → Reader Term
  binaryTail : Nat → Term → Reader Term
  unary : Reader Term
  suffixed : Term → Reader Term
  primary : Reader Term
  ints : List Int32 → Reader (List Int32)
  arguments : Reader (List Term)
  argumentList : Reader (List Term)
  block : Reader (List Stmt)
  statements : Reader (List Stmt)
  statement : Reader Stmt
  choice : Reader Stmt
  params : Reader (List Param)
  members : UnitDecl → Reader UnitDecl
  imports : Reader (List Import)

namespace Descent

variable (below : Descent)

/-! ### Expressions -/

/-- Reads an expression. -/
def readExpression : Reader Term := fun tokens => do
  let (condition, rest) ← below.binary 0 tokens
  if (current rest).isOperator "?" then do
    let position := (current rest).position
    let (thenValue, rest) ← below.expression (behind rest)
    let (_, rest) ← expectPunctuator ":" rest
    let (elseValue, rest) ← below.expression rest
    .ok (.conditional position condition thenValue elseValue, rest)
  else .ok (condition, rest)

/-- Reads operands of a level joined by its operators. -/
def readBinary (level : Nat) : Reader Term := fun tokens =>
  if level < binaryLevels.length then do
    let (left, rest) ← below.binary (level + 1) tokens
    below.binaryTail level left rest
  else below.unary tokens

/-- Reads the operators of a level with their right operands. -/
def readBinaryTail (level : Nat) (left : Term) : Reader Term := fun tokens =>
  match operatorAt? level (current tokens) with
  | none => .ok (left, tokens)
  | some op => do
    let (right, rest) ← below.binary (level + 1) (behind tokens)
    below.binaryTail level (.binary (current tokens).position op left right) rest

/-- Reads unary operators and their operand. -/
def readUnary : Reader Term := fun tokens => do
  let token := current tokens
  if token.isOperator "!" then do
    let (operand, rest) ← below.unary (behind tokens)
    .ok (.not token.position operand, rest)
  else if token.isOperator "-" then
    let rest := behind tokens
    if isNumber (current rest) then do
      let number ← numberOf (current rest) true token.position
      below.suffixed number (behind rest)
    else do
      let (operand, rest) ← below.unary rest
      .ok (.negate token.position operand, rest)
  else do
    let (operand, rest) ← below.primary tokens
    below.suffixed operand rest

/-- Reads member accesses, calls and casts behind an expression. -/
def readSuffixed (operand : Term) : Reader Term := fun tokens =>
  let token := current tokens
  if token.isPunctuator "." then do
    let ((name, _), rest) ← expectIdentifier (behind tokens)
    if (current rest).isPunctuator "(" then do
      let (arguments, rest) ← below.arguments rest
      below.suffixed (.call token.position operand name arguments) rest
    else below.suffixed (.member token.position operand name) rest
  else if token.isKeyword "as" then do
    let (type, rest) ← parseType (behind tokens)
    below.suffixed (.cast token.position operand type) rest
  else .ok (operand, tokens)

/-- Reads an expression without operators around it. -/
def readPrimary : Reader Term := fun tokens =>
  let token := current tokens
  if isNumber token then do
    let number ← numberOf token false token.position
    .ok (number, behind tokens)
  else if token.isPunctuator "(" then do
    let (inner, rest) ← below.expression (behind tokens)
    let (_, rest) ← expectPunctuator ")" rest
    .ok (inner, rest)
  else if token.isPunctuator "[" then
    if (current (behind tokens)).isPunctuator "]" then
      .ok (.ints token.position [], behind (behind tokens))
    else do
      let (numbers, rest) ← below.ints [] (behind tokens)
      .ok (.ints token.position numbers, rest)
  else
    match atom? token with
    | some term => .ok (term, behind tokens)
    | none => .error (unexpected "expression" tokens)

/-- Reads the numbers of an array from behind its opening bracket; `taken` holds those before, the
last one first. -/
def readInts (taken : List Int32) : Reader (List Int32) := fun tokens => do
  let negative := (current tokens).isOperator "-"
  let tokens := if negative then behind tokens else tokens
  let token := current tokens
  if token.kind ≠ .integer then .error (unexpected "integer" tokens)
  else do
    match ← numberOf token negative token.position with
    | .int _ number =>
      let rest := behind tokens
      if (current rest).isPunctuator "," then below.ints (number :: taken) (behind rest)
      else do
        let (_, rest) ← expectPunctuator "]" rest
        .ok ((number :: taken).reverse, rest)
    | _ => .error ⟨"array elements must be Int literals", token.position⟩

/-- Reads arguments in parentheses. -/
def readArguments : Reader (List Term) := fun tokens => do
  let (_, rest) ← expectPunctuator "(" tokens
  if (current rest).isPunctuator ")" then .ok ([], behind rest)
  else do
    let (arguments, rest) ← below.argumentList rest
    let (_, rest) ← expectPunctuator ")" rest
    .ok (arguments, rest)

/-- Reads arguments separated by commas. -/
def readArgumentList : Reader (List Term) := fun tokens => do
  let (argument, rest) ← below.expression tokens
  if (current rest).isPunctuator "," then do
    let (arguments, rest) ← below.argumentList (behind rest)
    .ok (argument :: arguments, rest)
  else .ok ([argument], rest)

/-! ### Statements -/

/-- Reads a statement that is an expression or an assignment. -/
def readSimple : Reader Stmt := fun tokens => do
  let position := (current tokens).position
  let (target, rest) ← below.expression tokens
  if (current rest).isOperator "=" then do
    let (value, rest) ← below.expression (behind rest)
    let (_, rest) ← expectPunctuator ";" rest
    let statement ← assignment position target value
    .ok (statement, rest)
  else do
    let (_, rest) ← expectPunctuator ";" rest
    .ok (.perform position target, rest)

/-- Reads the declaration of a local. -/
def readDeclaration : Reader Stmt := fun tokens => do
  let position := (current tokens).position
  let ((name, _), rest) ← expectIdentifier (behind tokens)
  let (_, rest) ← expectPunctuator ":" rest
  let (type, rest) ← parseType rest
  let (_, rest) ← expectOperator "=" rest
  let (value, rest) ← below.expression rest
  let (_, rest) ← expectPunctuator ";" rest
  .ok (.declare position name type value, rest)

/-- Reads the end of a routine. -/
def readReturn : Reader Stmt := fun tokens => do
  let position := (current tokens).position
  let rest := behind tokens
  if (current rest).isPunctuator ";" then .ok (.finish position, behind rest)
  else do
    let (value, rest) ← below.expression rest
    let (_, rest) ← expectPunctuator ";" rest
    .ok (.answer position value, rest)

/-- Reads a block in braces. -/
def readBlock : Reader (List Stmt) := fun tokens => do
  let (_, rest) ← expectPunctuator "\x7b" tokens
  below.statements rest

/-- Reads statements up to the closing brace. -/
def readStatements : Reader (List Stmt) := fun tokens =>
  if (current tokens).isPunctuator "\x7d" then .ok ([], behind tokens)
  else if (current tokens).isEnd then .error (unexpected "'\x7d'" tokens)
  else do
    let (statement, rest) ← below.statement tokens
    let (statements, rest) ← below.statements rest
    .ok (statement :: statements, rest)

/-- Reads a statement. -/
def readStatement : Reader Stmt := fun tokens =>
  let token := current tokens
  if token.isKeyword "let" then below.readDeclaration tokens
  else if token.isKeyword "if" then below.choice tokens
  else if token.isKeyword "while" then do
    let (condition, rest) ← below.expression (behind tokens)
    let (body, rest) ← below.block rest
    .ok (.loop token.position condition body, rest)
  else if token.isKeyword "continue" then parseWord .proceed tokens
  else if token.isKeyword "break" then parseWord .leave tokens
  else if token.isKeyword "return" then below.readReturn tokens
  else if token.isKeyword "super" then do
    let (arguments, rest) ← below.arguments (behind tokens)
    let (_, rest) ← expectPunctuator ";" rest
    .ok (.construct token.position arguments, rest)
  else below.readSimple tokens

/-- Reads a conditional statement. -/
def readChoice : Reader Stmt := fun tokens => do
  let (position, rest) ← expectKeyword "if" tokens
  let (condition, rest) ← below.expression rest
  let (thenBlock, rest) ← below.block rest
  if (current rest).isKeyword "else" then
    let rest := behind rest
    if (current rest).isKeyword "if" then do
      let (nested, rest) ← below.choice rest
      .ok (.choose position condition thenBlock [nested], rest)
    else do
      let (elseBlock, rest) ← below.block rest
      .ok (.choose position condition thenBlock elseBlock, rest)
  else .ok (.branch position condition thenBlock, rest)

/-! ### Units -/

/-- Reads parameters separated by commas. -/
def readParams : Reader (List Param) := fun tokens => do
  let ((name, position), rest) ← expectIdentifier tokens
  let (_, rest) ← expectPunctuator ":" rest
  let (type, rest) ← parseType rest
  if (current rest).isPunctuator "," then do
    let (params, rest) ← below.params (behind rest)
    .ok (⟨name, type, position⟩ :: params, rest)
  else .ok ([⟨name, type, position⟩], rest)

/-- Reads the block of a routine. -/
def readBody (name : String) (position : Position) (params : List Param)
    (returnType : Option TypeName) : Reader RoutineDecl := fun tokens => do
  let (body, rest) ← below.block tokens
  .ok (⟨name, params, returnType, body, position⟩, rest)

/-- Reads a routine from behind its parameters. -/
def readResult (name : String) (position : Position) (params : List Param) : Reader RoutineDecl :=
  fun tokens => do
    let (_, rest) ← expectPunctuator ")" tokens
    if (current rest).isOperator "->" then do
      let (type, rest) ← parseType (behind rest)
      below.readBody name position params (some type) rest
    else below.readBody name position params none rest

/-- Reads a routine. -/
def readRoutine : Reader RoutineDecl := fun tokens => do
  let (position, rest) ← expectKeyword "fn" tokens
  let ((name, _), rest) ← expectIdentifier rest
  let (_, rest) ← expectPunctuator "(" rest
  if (current rest).isPunctuator ")" then below.readResult name position [] rest
  else do
    let (params, rest) ← below.params rest
    below.readResult name position params rest

/-- Reads a constructor. -/
def readConstructor : Reader ConstructorDecl := fun tokens => do
  let position := (current tokens).position
  let (_, rest) ← expectPunctuator "(" (behind tokens)
  let (_, rest) ← expectPunctuator ")" rest
  let (body, rest) ← below.block rest
  .ok (⟨body, position⟩, rest)

/-- Reads the members of a unit up to the closing brace. -/
def readMembers (unit : UnitDecl) : Reader UnitDecl := fun tokens =>
  let token := current tokens
  if token.isPunctuator "\x7d" then .ok (unit, behind tokens)
  else if token.isKeyword "field" then do
    let (field, rest) ← parseField tokens
    below.members { unit with fields := unit.fields ++ [field] } rest
  else if token.isKeyword "new" then do
    let (constructor, rest) ← below.readConstructor tokens
    below.members { unit with constructors := unit.constructors ++ [constructor] } rest
  else if token.isKeyword "fn" then do
    let (routine, rest) ← below.readRoutine tokens
    below.members { unit with routines := unit.routines ++ [routine] } rest
  else .error (unexpected "'field', 'new', 'fn' or '\x7d'" tokens)

/-- Reads a unit. -/
def readUnit : Reader UnitDecl := fun tokens => do
  let (position, rest) ← expectKeyword "unit" tokens
  let ((name, _), rest) ← expectIdentifier rest
  let (_, rest) ← expectKeyword "extends" rest
  let ((base, _), rest) ← expectIdentifier rest
  let (_, rest) ← expectPunctuator "\x7b" rest
  below.members ⟨name, base, [], [], [], position⟩ rest

/-- Reads imports as long as there are some. -/
def readImports : Reader (List Import) := fun tokens =>
  if (current tokens).isKeyword "import" then do
    let ((moduleName, position), rest) ← parseDotted (behind tokens)
    let (_, rest) ← expectPunctuator ";" rest
    let (imports, rest) ← below.imports rest
    .ok (⟨moduleName, position⟩ :: imports, rest)
  else .ok ([], tokens)

/-- Reads a whole source unit. -/
def readSourceUnit : Reader SourceUnit := fun tokens => do
  let (_, rest) ← expectKeyword "module" tokens
  let ((moduleName, _), rest) ← parseDotted rest
  let (_, rest) ← expectPunctuator ";" rest
  let (imports, rest) ← below.imports rest
  let (unit, rest) ← below.readUnit rest
  if (current rest).isEnd then .ok (⟨moduleName, imports, unit⟩, rest)
  else .error (unexpected "end of input" rest)

/-! ### Depth -/

/-- The readers whose calls are answered by the given ones. -/
def deeper : Descent where
  expression := below.readExpression
  binary := below.readBinary
  binaryTail := below.readBinaryTail
  unary := below.readUnary
  suffixed := below.readSuffixed
  primary := below.readPrimary
  ints := below.readInts
  arguments := below.readArguments
  argumentList := below.readArgumentList
  block := below.readBlock
  statements := below.readStatements
  statement := below.readStatement
  choice := below.readChoice
  params := below.readParams
  members := below.readMembers
  imports := below.readImports

/-- Reads nothing. -/
def unread {α : Type} (expected : String) : Reader α :=
  fun tokens => .error (unexpected expected tokens)

/-- The readers without fuel. -/
def exhausted : Descent where
  expression := unread "expression"
  binary _ := unread "expression"
  binaryTail _ _ := unread "expression"
  unary := unread "expression"
  suffixed _ := unread "expression"
  primary := unread "expression"
  ints _ := unread "integer"
  arguments := unread "expression"
  argumentList := unread "expression"
  block := unread "'\x7d'"
  statements := unread "'\x7d'"
  statement := unread "expression"
  choice := unread "expression"
  params := unread "identifier"
  members _ := unread "'field', 'new', 'fn' or '\x7d'"
  imports tokens := .ok ([], tokens)

end Descent

/-- The readers with some fuel. -/
def descent (fuel : Nat) : Descent :=
  Nat.repeat Descent.deeper fuel .exhausted

/-- One more unit of fuel is one more call. -/
theorem descent_succ (fuel : Nat) : descent (fuel + 1) = (descent fuel).deeper :=
  rfl

section Succ

variable (fuel : Nat)

theorem descent_expression : (descent (fuel + 1)).expression = (descent fuel).readExpression :=
  rfl

theorem descent_binary : (descent (fuel + 1)).binary = (descent fuel).readBinary :=
  rfl

theorem descent_binaryTail : (descent (fuel + 1)).binaryTail = (descent fuel).readBinaryTail :=
  rfl

theorem descent_unary : (descent (fuel + 1)).unary = (descent fuel).readUnary :=
  rfl

theorem descent_suffixed : (descent (fuel + 1)).suffixed = (descent fuel).readSuffixed :=
  rfl

theorem descent_primary : (descent (fuel + 1)).primary = (descent fuel).readPrimary :=
  rfl

theorem descent_ints : (descent (fuel + 1)).ints = (descent fuel).readInts :=
  rfl

theorem descent_arguments : (descent (fuel + 1)).arguments = (descent fuel).readArguments :=
  rfl

theorem descent_argumentList :
    (descent (fuel + 1)).argumentList = (descent fuel).readArgumentList :=
  rfl

theorem descent_block : (descent (fuel + 1)).block = (descent fuel).readBlock :=
  rfl

theorem descent_statements : (descent (fuel + 1)).statements = (descent fuel).readStatements :=
  rfl

theorem descent_statement : (descent (fuel + 1)).statement = (descent fuel).readStatement :=
  rfl

theorem descent_choice : (descent (fuel + 1)).choice = (descent fuel).readChoice :=
  rfl

theorem descent_params : (descent (fuel + 1)).params = (descent fuel).readParams :=
  rfl

theorem descent_members : (descent (fuel + 1)).members = (descent fuel).readMembers :=
  rfl

theorem descent_imports : (descent (fuel + 1)).imports = (descent fuel).readImports :=
  rfl

end Succ

/-! ## Texts -/

/-- Reads an expression. -/
def parseExpression (fuel : Nat) : Reader Term :=
  (descent fuel).expression

/-- Reads a statement. -/
def parseStatement (fuel : Nat) : Reader Stmt :=
  (descent fuel).statement

/-- Reads a routine. -/
def parseRoutine (fuel : Nat) : Reader RoutineDecl :=
  (descent fuel).readRoutine

/-- Reads a constructor. -/
def parseConstructor (fuel : Nat) : Reader ConstructorDecl :=
  (descent fuel).readConstructor

/-- Reads a whole source unit. -/
def parseSourceUnit (fuel : Nat) : Reader SourceUnit :=
  (descent fuel).readSourceUnit

/-- Enough fuel for every descent over some tokens. -/
def fuelFor (tokens : List Token) : Nat :=
  16 * tokens.length + 16

/-- The syntax tree of a source text. -/
def parse (source : String) : Except Diagnostic SourceUnit := do
  let tokens ← tokenize source
  let (unit, _) ← parseSourceUnit (fuelFor tokens) tokens
  .ok unit

/-- The expression at the start of a source text. -/
def parseTerm (source : String) : Except Diagnostic Term := do
  let tokens ← tokenize source
  let (term, _) ← parseExpression (fuelFor tokens) tokens
  .ok term

end QueryFusion.Script
