import QueryFusion.Proofs.Script.Scanning
import QueryFusion.Script.Parser

/-!
# What the parser takes

The parser takes tokens from the front, and an integer only when its number has room in its type or
a minus sign stands in front of it. A source text is accepted only when all of its tokens are taken,
so no text with an integer out of range behind anything else is accepted.
-/

namespace QueryFusion.Script

/-! ## Integers without room -/

/-- An integer without the suffix of the long ones that has no room in its type. -/
def Token.Wide (token : Token) : Prop :=
  token.kind = .integer ∧ token.literal.toList.getLast? ≠ some 'L' ∧
    int32? (Decimal.valueOf token.literal.toList) = none

/-- Only integers are. -/
theorem Token.not_wide {token : Token} (kind : token.kind ≠ .integer) : ¬ token.Wide :=
  fun wide => kind wide.1

/-- Integers out of range stand behind a minus sign only. -/
inductive Ranged : List Token → Prop
  | nil : Ranged []
  | plain {token : Token} {tokens : List Token} (fits : ¬ token.Wide) (rest : Ranged tokens) :
    Ranged (token :: tokens)
  | negative {minus number : Token} {tokens : List Token} (sign : minus.isOperator "-" = true)
    (rest : Ranged tokens) : Ranged (minus :: number :: tokens)

namespace Ranged

variable {tokens others : List Token}

/-- Tokens one after another. -/
theorem append (first : Ranged tokens) (second : Ranged others) : Ranged (tokens ++ others) := by
  induction first with
  | nil => exact second
  | plain fits _ step => exact .plain fits step
  | negative sign _ step => exact .negative sign step

/-- One token that is no integer out of range. -/
theorem single {token : Token} (fits : ¬ token.Wide) : Ranged [token] :=
  .plain fits .nil

/-- An integer out of range stands behind nothing but a minus sign. -/
theorem not_wide : ∀ (before : List Token) {front token : Token} {after : List Token},
    front.isOperator "-" = false → Ranged (before ++ front :: token :: after) → ¬ token.Wide
  | [], front, token, after, other, ranged => by
    cases ranged with
    | plain _ rest =>
      cases rest with
      | plain fits => exact fits
      | negative sign =>
        intro wide
        simp [Token.isOperator, wide.1] at sign
    | negative sign =>
      rw [other] at sign
      cases sign
  | [_], front, token, after, other, ranged => by
    cases ranged with
    | plain _ rest => exact not_wide [] other rest
    | negative _ rest =>
      cases rest with
      | plain fits => exact fits
      | negative sign =>
        intro wide
        simp [Token.isOperator, wide.1] at sign
  | _ :: next :: before, front, token, after, other, ranged => by
    cases ranged with
    | plain _ rest => exact not_wide (next :: before) other rest
    | negative _ rest => exact not_wide before other rest

end Ranged

/-! ## Taking tokens -/

/-- The rest is what remains of the tokens when some without integers out of range are taken. -/
def Taken (tokens rest : List Token) : Prop :=
  ∃ used, tokens = used ++ rest ∧ Ranged used

namespace Taken

variable {tokens middle rest : List Token}

/-- Nothing is taken. -/
theorem refl (tokens : List Token) : Taken tokens tokens :=
  ⟨[], rfl, .nil⟩

/-- More is taken. -/
theorem trans (first : Taken tokens middle) (second : Taken middle rest) : Taken tokens rest := by
  obtain ⟨used, rfl, ranged⟩ := first
  obtain ⟨more, rfl, also⟩ := second
  exact ⟨used ++ more, (List.append_assoc _ _ _).symm, ranged.append also⟩

/-- The next token is taken, unless it ends the input. -/
theorem next (fits : ¬ (current tokens).Wide) : Taken tokens (behind tokens) := by
  unfold behind
  split
  · exact refl tokens
  · cases tokens with
    | nil => exact refl []
    | cons token rest => exact ⟨[token], rfl, .single fits⟩

/-- A number is taken with the minus sign in front of it. -/
theorem negative (sign : (current tokens).isOperator "-" = true) :
    Taken tokens (behind (behind tokens)) := by
  have inner : (current tokens).isEnd = false := by
    simp only [Token.isOperator, Bool.and_eq_true, beq_iff_eq] at sign
    simp [Token.isEnd, sign.1]
  cases tokens with
  | nil => cases sign
  | cons minus others =>
    have first : behind (minus :: others) = others := by simp [behind, inner]
    have plain : Taken (minus :: others) others := by
      refine ⟨[minus], rfl, .single (Token.not_wide ?_)⟩
      simp only [Token.isOperator, Bool.and_eq_true, beq_iff_eq, current, List.headD_cons] at sign
      simp [sign.1]
    rw [first]
    unfold behind
    split
    · exact plain
    · cases others with
      | nil => exact plain
      | cons number more => exact ⟨[minus, number], rfl, .negative sign .nil⟩

end Taken

/-- What is read is taken from the tokens. -/
def Takes {α : Type} (outcome : Except Diagnostic (α × List Token)) (tokens : List Token) : Prop :=
  ∀ result rest, outcome = .ok (result, rest) → Taken tokens rest

namespace Takes

variable {α β : Type} {tokens rest : List Token}

/-- Nothing is read. -/
theorem error (diagnostic : Diagnostic) :
    Takes (.error diagnostic : Except Diagnostic (α × List Token)) tokens :=
  fun _ _ never => nomatch never

/-- The end of reading. -/
theorem ok (result : α) (taken : Taken tokens rest) : Takes (.ok (result, rest)) tokens := by
  rintro _ _ ⟨⟩
  exact taken

/-- One reads behind another. -/
theorem bind {first : Except Diagnostic (α × List Token)}
    {next : α × List Token → Except Diagnostic (β × List Token)} (here : Takes first tokens)
    (behind : ∀ result rest, Takes (next (result, rest)) rest) : Takes (first >>= next) tokens := by
  intro result rest read
  obtain ⟨⟨value, middle⟩, before, after⟩ := bind_eq_ok_iff.1 read
  exact (here value middle before).trans (behind value middle result rest after)

/-- Reading goes on with what is left. -/
theorem after {outcome : Except Diagnostic (α × List Token)} (taken : Taken tokens rest)
    (here : Takes outcome rest) : Takes outcome tokens :=
  fun result last read => taken.trans (here result last read)

/-- A part that reads nothing. -/
theorem pass {γ : Type} {first : Except Diagnostic γ}
    {next : γ → Except Diagnostic (β × List Token)}
    (behind : ∀ result, first = .ok result → Takes (next result) tokens) :
    Takes (first >>= next) tokens := by
  intro result rest read
  obtain ⟨value, before, after⟩ := bind_eq_ok_iff.1 read
  exact behind value before result rest after

end Takes

/-! ## Single tokens -/

section Tokens

variable {tokens : List Token}

/-- A punctuator is no integer. -/
theorem Taken.punctuator {symbol : String} (found : (current tokens).isPunctuator symbol = true) :
    Taken tokens (behind tokens) := by
  refine .next (Token.not_wide fun kind => ?_)
  simp [Token.isPunctuator, kind] at found

/-- An operator is no integer. -/
theorem Taken.operator {symbol : String} (found : (current tokens).isOperator symbol = true) :
    Taken tokens (behind tokens) := by
  refine .next (Token.not_wide fun kind => ?_)
  simp [Token.isOperator, kind] at found

/-- A keyword is no integer. -/
theorem Taken.keyword {word : String} (found : (current tokens).isKeyword word = true) :
    Taken tokens (behind tokens) := by
  refine .next (Token.not_wide fun kind => ?_)
  simp [Token.isKeyword, kind] at found

/-- A punctuator that is expected. -/
theorem takes_punctuator (symbol : String) (tokens : List Token) :
    Takes (expectPunctuator symbol tokens) tokens := by
  unfold expectPunctuator expect
  split
  · rename_i found
    exact .ok _ (.punctuator found)
  · exact .error _

/-- An operator that is expected. -/
theorem takes_operator (symbol : String) (tokens : List Token) :
    Takes (expectOperator symbol tokens) tokens := by
  unfold expectOperator expect
  split
  · rename_i found
    exact .ok _ (.operator found)
  · exact .error _

/-- A keyword that is expected. -/
theorem takes_keyword (word : String) (tokens : List Token) :
    Takes (expectKeyword word tokens) tokens := by
  unfold expectKeyword expect
  split
  · rename_i found
    exact .ok _ (.keyword found)
  · exact .error _

/-- An identifier that is expected. -/
theorem takes_identifier (tokens : List Token) : Takes (expectIdentifier tokens) tokens := by
  unfold expectIdentifier
  dsimp only
  split
  · rename_i kind
    exact .ok _ (.next (Token.not_wide (by simp [kind])))
  · exact .error _

/-- The parts of a dotted name behind the first. -/
theorem takes_dottedTail (name : String) (tokens : List Token) :
    Takes (dottedTail name tokens) tokens := by
  fun_induction dottedTail name tokens with
  | case1 name => exact .ok _ (.refl _)
  | case2 name token point part more kind step =>
    have dot : ¬ token.Wide := by
      refine Token.not_wide fun integer => ?_
      simp [Token.isPunctuator, integer] at point
    have named : ¬ part.Wide := Token.not_wide (by simp [kind])
    exact .after ⟨[token, part], rfl, .plain dot (.single named)⟩ step
  | case3 => exact .error _
  | case4 => exact .error _
  | case5 name token rest => exact .ok _ (.refl _)

/-- A dotted name. -/
theorem takes_dotted (tokens : List Token) : Takes (parseDotted tokens) tokens := by
  unfold parseDotted
  refine (takes_identifier tokens).bind ?_
  rintro ⟨first, position⟩ rest
  exact (takes_dottedTail first rest).bind fun _ _ => .ok _ (.refl _)

/-- A type. -/
theorem takes_type (tokens : List Token) : Takes (parseType tokens) tokens := by
  unfold parseType
  refine (takes_identifier tokens).bind ?_
  rintro ⟨name, position⟩ rest
  dsimp only
  split
  · rename_i opens
    refine .after (.operator opens) ((takes_dotted _).bind ?_)
    rintro ⟨argument, place⟩ rest
    exact (takes_operator ">" rest).bind fun _ _ => .ok _ (.refl _)
  · exact .ok _ (.refl _)

/-- A number without a minus sign in front has room. -/
theorem Taken.number {token : Token} {position : Position} {term : Term}
    (read : numberOf token false position = .ok term) : ¬ token.Wide := by
  rintro ⟨integer, short, out⟩
  have whole : token.kind ≠ .float := by simp [integer]
  simp only [numberOf, whole, short, if_false, signedValue, Bool.false_eq_true, out] at read
  cases read

/-- A field. -/
theorem takes_field (found : (current tokens).isKeyword "field" = true) :
    Takes (parseField tokens) tokens := by
  unfold parseField
  refine .after (.keyword found) ((takes_identifier _).bind ?_)
  rintro ⟨name, position⟩ rest
  refine (takes_punctuator ":" rest).bind fun _ rest => ?_
  refine (takes_type rest).bind fun _ rest => ?_
  exact (takes_punctuator ";" rest).bind fun _ _ => .ok _ (.refl _)

/-- A keyword that is a statement by itself. -/
theorem takes_word {word : String} (statement : Position → Stmt)
    (found : (current tokens).isKeyword word = true) :
    Takes (parseWord statement tokens) tokens := by
  unfold parseWord
  exact .after (.keyword found) ((takes_punctuator ";" _).bind fun _ _ => .ok _ (.refl _))

end Tokens

/-! ## Readers -/

/-- What the reader reads is taken from its tokens. -/
def Taking {α : Type} (reader : Reader α) : Prop :=
  ∀ tokens, Takes (reader tokens) tokens

/-- What the readers of a descent read is taken from their tokens. -/
structure TakesAll (descent : Descent) : Prop where
  expression : Taking descent.expression
  binary : ∀ level, Taking (descent.binary level)
  binaryTail : ∀ level left, Taking (descent.binaryTail level left)
  unary : Taking descent.unary
  suffixed : ∀ operand, Taking (descent.suffixed operand)
  primary : Taking descent.primary
  ints : ∀ taken, Taking (descent.ints taken)
  arguments : Taking descent.arguments
  argumentList : Taking descent.argumentList
  block : Taking descent.block
  statements : Taking descent.statements
  statement : Taking descent.statement
  choice : Taking descent.choice
  params : Taking descent.params
  members : ∀ unit, Taking (descent.members unit)
  imports : Taking descent.imports

/-- What is an expression by itself is no integer. -/
theorem not_wide_of_atom? {token : Token} {term : Term} (found : atom? token = some term) :
    ¬ token.Wide := by
  rintro ⟨integer, -⟩
  simp [atom?, integer] at found

namespace TakesAll

variable {below : Descent}

/-! ### Expressions -/

/-- A conditional, or what stands in its place. -/
theorem readExpression (takes : TakesAll below) : Taking below.readExpression := by
  intro tokens
  unfold Descent.readExpression
  refine (takes.binary 0 tokens).bind fun condition rest => ?_
  dsimp only
  split
  · rename_i question
    refine .after (.operator question) ((takes.expression _).bind fun thenValue rest => ?_)
    refine (takes_punctuator ":" rest).bind fun _ rest => ?_
    exact (takes.expression rest).bind fun _ _ => .ok _ (.refl _)
  · exact .ok _ (.refl _)

/-- Operands of a level. -/
theorem readBinary (takes : TakesAll below) (level : Nat) : Taking (below.readBinary level) := by
  intro tokens
  unfold Descent.readBinary
  split
  · exact (takes.binary _ tokens).bind fun left rest => takes.binaryTail level left rest
  · exact takes.unary tokens

/-- The operators of a level. -/
theorem readBinaryTail (takes : TakesAll below) (level : Nat) (left : Term) :
    Taking (below.readBinaryTail level left) := by
  intro tokens
  unfold Descent.readBinaryTail
  split
  · exact .ok _ (.refl _)
  · rename_i op found
    have sign : (current tokens).isOperator op.symbol = true := by
      simpa using List.find?_some found
    refine .after (.operator sign) ((takes.binary _ _).bind fun right rest => ?_)
    exact takes.binaryTail level _ rest

/-- Unary operators. A minus sign takes the number behind it along. -/
theorem readUnary (takes : TakesAll below) : Taking below.readUnary := by
  intro tokens
  unfold Descent.readUnary
  dsimp only
  split
  · rename_i bang
    exact .after (.operator bang) ((takes.unary _).bind fun _ _ => .ok _ (.refl _))
  · split
    · rename_i minus
      split
      · refine .pass fun number _ => ?_
        exact .after (.negative minus) (takes.suffixed number _)
      · exact .after (.operator minus) ((takes.unary _).bind fun _ _ => .ok _ (.refl _))
    · exact (takes.primary tokens).bind fun operand rest => takes.suffixed operand rest

/-- Member accesses, calls and casts. -/
theorem readSuffixed (takes : TakesAll below) (operand : Term) :
    Taking (below.readSuffixed operand) := by
  intro tokens
  unfold Descent.readSuffixed
  dsimp only
  split
  · rename_i point
    refine .after (.punctuator point) ((takes_identifier _).bind ?_)
    rintro ⟨name, position⟩ rest
    dsimp only
    split
    · exact (takes.arguments rest).bind fun _ rest => takes.suffixed _ rest
    · exact takes.suffixed _ rest
  · split
    · rename_i cast
      exact .after (.keyword cast) ((takes_type _).bind fun _ rest => takes.suffixed _ rest)
    · exact .ok _ (.refl _)

/-- Expressions without operators around them. -/
theorem readPrimary (takes : TakesAll below) : Taking below.readPrimary := by
  intro tokens
  unfold Descent.readPrimary
  dsimp only
  split
  · refine .pass fun number read => ?_
    exact .ok _ (.next (Taken.number read))
  · split
    · rename_i opens
      refine .after (.punctuator opens) ((takes.expression _).bind fun inner rest => ?_)
      exact (takes_punctuator ")" rest).bind fun _ _ => .ok _ (.refl _)
    · split
      · rename_i opens
        split
        · rename_i closes
          exact .ok _ ((Taken.punctuator opens).trans (.punctuator closes))
        · exact .after (.punctuator opens) ((takes.ints [] _).bind fun _ _ => .ok _ (.refl _))
      · split
        · rename_i found
          exact .ok _ (.next (not_wide_of_atom? found))
        · exact .error _

/-- The numbers of an array. -/
theorem readInts (takes : TakesAll below) (taken : List Int32) : Taking (below.readInts taken) := by
  intro tokens
  have further : ∀ (number : Int32) (rest : List Token),
      Takes (if (current rest).isPunctuator "," then below.ints (number :: taken) (behind rest)
        else do
          let closed ← expectPunctuator "]" rest
          .ok ((number :: taken).reverse, closed.2)) rest := by
    intro number rest
    split
    · rename_i comma
      exact .after (.punctuator comma) (takes.ints _ _)
    · exact (takes_punctuator "]" rest).bind fun _ _ => .ok _ (.refl _)
  unfold Descent.readInts
  cases sign : (current tokens).isOperator "-" with
  | true =>
    simp only [if_true]
    split
    · exact .error _
    · refine .pass fun term read => ?_
      split
      · exact .after (.negative sign) (further _ _)
      · exact .error _
  | false =>
    simp only [Bool.false_eq_true, if_false]
    split
    · exact .error _
    · refine .pass fun term read => ?_
      split
      · exact .after (.next (Taken.number read)) (further _ _)
      · exact .error _

/-- Arguments in parentheses. -/
theorem readArguments (takes : TakesAll below) : Taking below.readArguments := by
  intro tokens
  unfold Descent.readArguments
  refine (takes_punctuator "(" tokens).bind fun _ rest => ?_
  dsimp only
  split
  · rename_i closes
    exact .ok _ (.punctuator closes)
  · refine (takes.argumentList rest).bind fun _ rest => ?_
    exact (takes_punctuator ")" rest).bind fun _ _ => .ok _ (.refl _)

/-- Arguments with commas between them. -/
theorem readArgumentList (takes : TakesAll below) : Taking below.readArgumentList := by
  intro tokens
  unfold Descent.readArgumentList
  refine (takes.expression tokens).bind fun argument rest => ?_
  dsimp only
  split
  · rename_i comma
    exact .after (.punctuator comma) ((takes.argumentList _).bind fun _ _ => .ok _ (.refl _))
  · exact .ok _ (.refl _)

/-! ### Statements -/

/-- A statement that is an expression or an assignment. -/
theorem readSimple (takes : TakesAll below) : Taking below.readSimple := by
  intro tokens
  unfold Descent.readSimple
  refine (takes.expression tokens).bind fun target rest => ?_
  dsimp only
  split
  · rename_i equals
    refine .after (.operator equals) ((takes.expression _).bind fun value rest => ?_)
    refine (takes_punctuator ";" rest).bind fun _ rest => ?_
    exact .pass fun _ _ => .ok _ (.refl _)
  · exact (takes_punctuator ";" rest).bind fun _ _ => .ok _ (.refl _)

/-- The declaration of a local. -/
theorem readDeclaration (takes : TakesAll below) {tokens : List Token}
    (found : (current tokens).isKeyword "let" = true) :
    Takes (below.readDeclaration tokens) tokens := by
  unfold Descent.readDeclaration
  refine .after (.keyword found) ((takes_identifier _).bind ?_)
  rintro ⟨name, position⟩ rest
  refine (takes_punctuator ":" rest).bind fun _ rest => ?_
  refine (takes_type rest).bind fun _ rest => ?_
  refine (takes_operator "=" rest).bind fun _ rest => ?_
  refine (takes.expression rest).bind fun _ rest => ?_
  exact (takes_punctuator ";" rest).bind fun _ _ => .ok _ (.refl _)

/-- The end of a routine. -/
theorem readReturn (takes : TakesAll below) {tokens : List Token}
    (found : (current tokens).isKeyword "return" = true) :
    Takes (below.readReturn tokens) tokens := by
  unfold Descent.readReturn
  refine .after (.keyword found) ?_
  dsimp only
  split
  · rename_i ends
    exact .ok _ (.punctuator ends)
  · refine (takes.expression _).bind fun _ rest => ?_
    exact (takes_punctuator ";" rest).bind fun _ _ => .ok _ (.refl _)

/-- A block in braces. -/
theorem readBlock (takes : TakesAll below) : Taking below.readBlock := by
  intro tokens
  unfold Descent.readBlock
  exact (takes_punctuator _ tokens).bind fun _ rest => takes.statements rest

/-- Statements up to the closing brace. -/
theorem readStatements (takes : TakesAll below) : Taking below.readStatements := by
  intro tokens
  unfold Descent.readStatements
  split
  · rename_i closes
    exact .ok _ (.punctuator closes)
  · split
    · exact .error _
    · refine (takes.statement tokens).bind fun _ rest => ?_
      exact (takes.statements rest).bind fun _ _ => .ok _ (.refl _)

/-- A statement. -/
theorem readStatement (takes : TakesAll below) : Taking below.readStatement := by
  intro tokens
  unfold Descent.readStatement
  dsimp only
  split
  · exact takes.readDeclaration ‹_›
  split
  · exact takes.choice tokens
  split
  · rename_i loops
    refine .after (.keyword loops) ((takes.expression _).bind fun _ rest => ?_)
    exact (takes.block rest).bind fun _ _ => .ok _ (.refl _)
  split
  · exact takes_word _ ‹_›
  split
  · exact takes_word _ ‹_›
  split
  · exact takes.readReturn ‹_›
  split
  · rename_i constructs
    refine .after (.keyword constructs) ((takes.arguments _).bind fun _ rest => ?_)
    exact (takes_punctuator ";" rest).bind fun _ _ => .ok _ (.refl _)
  · exact takes.readSimple tokens

/-- A conditional statement. -/
theorem readChoice (takes : TakesAll below) : Taking below.readChoice := by
  intro tokens
  unfold Descent.readChoice
  refine (takes_keyword "if" tokens).bind fun _ rest => ?_
  refine (takes.expression rest).bind fun _ rest => ?_
  refine (takes.block rest).bind fun _ rest => ?_
  dsimp only
  split
  · rename_i otherwise
    refine .after (.keyword otherwise) ?_
    split
    · exact (takes.choice _).bind fun _ _ => .ok _ (.refl _)
    · exact (takes.block _).bind fun _ _ => .ok _ (.refl _)
  · exact .ok _ (.refl _)

/-! ### Units -/

/-- Parameters with commas between them. -/
theorem readParams (takes : TakesAll below) : Taking below.readParams := by
  intro tokens
  unfold Descent.readParams
  refine (takes_identifier tokens).bind ?_
  rintro ⟨name, position⟩ rest
  refine (takes_punctuator ":" rest).bind fun _ rest => ?_
  refine (takes_type rest).bind fun _ rest => ?_
  dsimp only
  split
  · rename_i comma
    exact .after (.punctuator comma) ((takes.params _).bind fun _ _ => .ok _ (.refl _))
  · exact .ok _ (.refl _)

/-- The block of a routine. -/
theorem readBody (takes : TakesAll below) (name : String) (position : Position)
    (params : List Param) (returnType : Option TypeName) :
    Taking (below.readBody name position params returnType) := by
  intro tokens
  unfold Descent.readBody
  exact (takes.block tokens).bind fun _ _ => .ok _ (.refl _)

/-- A routine from behind its parameters. -/
theorem readResult (takes : TakesAll below) (name : String) (position : Position)
    (params : List Param) : Taking (below.readResult name position params) := by
  intro tokens
  unfold Descent.readResult
  refine (takes_punctuator ")" tokens).bind fun _ rest => ?_
  dsimp only
  split
  · rename_i arrow
    refine .after (.operator arrow) ((takes_type _).bind fun type rest => ?_)
    exact takes.readBody _ _ _ _ rest
  · exact takes.readBody _ _ _ _ rest

/-- A routine. -/
theorem readRoutine (takes : TakesAll below) : Taking below.readRoutine := by
  intro tokens
  unfold Descent.readRoutine
  refine (takes_keyword "fn" tokens).bind fun _ rest => ?_
  refine (takes_identifier rest).bind ?_
  rintro ⟨name, position⟩ rest
  refine (takes_punctuator "(" rest).bind fun _ rest => ?_
  dsimp only
  split
  · exact takes.readResult _ _ _ rest
  · exact (takes.params rest).bind fun params rest => takes.readResult _ _ params rest

/-- A constructor. -/
theorem readConstructor (takes : TakesAll below) {tokens : List Token}
    (found : (current tokens).isKeyword "new" = true) :
    Takes (below.readConstructor tokens) tokens := by
  unfold Descent.readConstructor
  refine .after (.keyword found) ((takes_punctuator "(" _).bind fun _ rest => ?_)
  refine (takes_punctuator ")" rest).bind fun _ rest => ?_
  exact (takes.block rest).bind fun _ _ => .ok _ (.refl _)

/-- The members of a unit. -/
theorem readMembers (takes : TakesAll below) (unit : UnitDecl) :
    Taking (below.readMembers unit) := by
  intro tokens
  unfold Descent.readMembers
  dsimp only
  split
  · rename_i closes
    exact .ok _ (.punctuator closes)
  split
  · exact (takes_field ‹_›).bind fun _ rest => takes.members _ rest
  split
  · exact (takes.readConstructor ‹_›).bind fun _ rest => takes.members _ rest
  split
  · exact (takes.readRoutine tokens).bind fun _ rest => takes.members _ rest
  · exact .error _

/-- A unit. -/
theorem readUnit (takes : TakesAll below) : Taking below.readUnit := by
  intro tokens
  unfold Descent.readUnit
  refine (takes_keyword "unit" tokens).bind fun _ rest => ?_
  refine (takes_identifier rest).bind ?_
  rintro ⟨name, position⟩ rest
  refine (takes_keyword "extends" rest).bind fun _ rest => ?_
  refine (takes_identifier rest).bind ?_
  rintro ⟨base, place⟩ rest
  exact (takes_punctuator _ rest).bind fun _ rest => takes.members _ rest

/-- The imports. -/
theorem readImports (takes : TakesAll below) : Taking below.readImports := by
  intro tokens
  unfold Descent.readImports
  split
  · rename_i found
    refine .after (.keyword found) ((takes_dotted _).bind ?_)
    rintro ⟨moduleName, position⟩ rest
    refine (takes_punctuator ";" rest).bind fun _ rest => ?_
    exact (takes.imports rest).bind fun _ _ => .ok _ (.refl _)
  · exact .ok _ (.refl _)

/-! ### Every depth -/

/-- Readers whose calls take what they read take it too. -/
theorem deeper (takes : TakesAll below) : TakesAll below.deeper where
  expression := takes.readExpression
  binary := takes.readBinary
  binaryTail := takes.readBinaryTail
  unary := takes.readUnary
  suffixed := takes.readSuffixed
  primary := takes.readPrimary
  ints := takes.readInts
  arguments := takes.readArguments
  argumentList := takes.readArgumentList
  block := takes.readBlock
  statements := takes.readStatements
  statement := takes.readStatement
  choice := takes.readChoice
  params := takes.readParams
  members := takes.readMembers
  imports := takes.readImports

/-- Without fuel nothing is taken. -/
theorem exhausted : TakesAll .exhausted where
  expression _ := .error _
  binary _ _ := .error _
  binaryTail _ _ _ := .error _
  unary _ := .error _
  suffixed _ _ := .error _
  primary _ := .error _
  ints _ _ := .error _
  arguments _ := .error _
  argumentList _ := .error _
  block _ := .error _
  statements _ := .error _
  statement _ := .error _
  choice _ := .error _
  params _ := .error _
  members _ _ := .error _
  imports _ := .ok _ (.refl _)

/-- With any fuel what is read is taken. -/
theorem descent (fuel : Nat) : TakesAll (descent fuel) := by
  induction fuel with
  | zero => exact exhausted
  | succ fuel takes => exact takes.deeper

end TakesAll

/-- Behind the module and the imports, a source unit is the declaration of its unit, and nothing
follows. -/
theorem unit_of_parseSourceUnit {fuel : Nat} {tokens rest : List Token} {unit : SourceUnit}
    (read : parseSourceUnit fuel tokens = .ok (unit, rest)) :
    ∃ middle, Taken tokens middle ∧ (descent fuel).readUnit middle = .ok (unit.unit, rest) ∧
      (current rest).isEnd = true := by
  unfold parseSourceUnit Descent.readSourceUnit at read
  obtain ⟨⟨_, first⟩, word, read⟩ := bind_eq_ok_iff.1 read
  obtain ⟨⟨⟨moduleName, place⟩, second⟩, dotted, read⟩ := bind_eq_ok_iff.1 read
  obtain ⟨⟨_, third⟩, ended, read⟩ := bind_eq_ok_iff.1 read
  obtain ⟨⟨imports, fourth⟩, imported, read⟩ := bind_eq_ok_iff.1 read
  obtain ⟨⟨unit, fifth⟩, declared, read⟩ := bind_eq_ok_iff.1 read
  dsimp only at read
  split at read
  · rename_i ends
    cases read
    have taken : Taken tokens fourth :=
      (takes_keyword _ _ _ _ word).trans <| (takes_dotted _ _ _ dotted).trans <|
        (takes_punctuator _ _ _ _ ended).trans <| (TakesAll.descent fuel).imports _ _ _ imported
    exact ⟨fourth, taken, declared, ends⟩
  · cases read

/-- A source unit is read to the end of its tokens. -/
theorem taken_of_parseSourceUnit {fuel : Nat} {tokens rest : List Token} {unit : SourceUnit}
    (read : parseSourceUnit fuel tokens = .ok (unit, rest)) :
    Taken tokens rest ∧ (current rest).isEnd = true := by
  obtain ⟨middle, taken, declared, ends⟩ := unit_of_parseSourceUnit read
  exact ⟨taken.trans ((TakesAll.descent fuel).readUnit _ _ _ declared), ends⟩

/-! ## Texts -/

/-- Only the last token of a text ends the input. -/
theorem not_isEnd_of_tokensFrom {fuel : Nat} {rest : Rest} {before after : List Token}
    {token : Token} (read : tokensFrom fuel rest = .ok (before ++ token :: after))
    (more : after ≠ []) :
    token.isEnd = false := by
  induction fuel generalizing rest before with
  | zero =>
    simp only [tokensFrom, Except.ok.injEq] at read
    have length := congrArg List.length read
    have : 0 < after.length := List.length_pos_iff.2 more
    simp only [List.length_append, List.length_cons, List.length_nil] at length
    omega
  | succ fuel step =>
    rw [tokensFrom] at read
    obtain ⟨⟨first, behind⟩, -, read⟩ := bind_eq_ok_iff.1 read
    dsimp only at read
    split at read
    · cases before with
      | nil =>
        simp only [List.nil_append, Except.ok.injEq, List.cons.injEq] at read
        exact absurd read.2.symm more
      | cons other others =>
        simp only [List.cons_append, Except.ok.injEq, List.cons.injEq] at read
        have length := congrArg List.length read.2
        simp at length
    · rename_i inner
      obtain ⟨tokens, further, read⟩ := bind_eq_ok_iff.1 read
      cases before with
      | nil =>
        simp only [List.nil_append, Except.ok.injEq, List.cons.injEq] at read
        exact read.1 ▸ Bool.eq_false_iff.2 inner
      | cons other others =>
        simp only [List.cons_append, Except.ok.injEq, List.cons.injEq] at read
        exact step (read.2 ▸ further)

/-- An integer out of range stands behind another token than a minus sign. -/
def Overflows (tokens : List Token) : Prop :=
  ∃ (before : List Token) (front token : Token) (after : List Token),
    tokens = before ++ front :: token :: after ∧
    front.isOperator "-" = false ∧ token.Wide

namespace Overflows

variable {tokens : List Token}

/-- More tokens in front. -/
theorem prepend (before : List Token) (overflows : Overflows tokens) :
    Overflows (before ++ tokens) := by
  obtain ⟨first, front, token, after, rfl, other, wide⟩ := overflows
  exact ⟨before ++ first, front, token, after, (List.append_assoc _ _ _).symm, other, wide⟩

/-- More tokens behind. -/
theorem append (overflows : Overflows tokens) (behind : List Token) :
    Overflows (tokens ++ behind) := by
  obtain ⟨before, front, token, after, rfl, other, wide⟩ := overflows
  exact ⟨before, front, token, after ++ behind, by simp, other, wide⟩

/-- The places of the tokens do not matter. -/
theorem of_bare (overflows : Overflows (tokens.map Token.bare)) : Overflows tokens := by
  obtain ⟨_, _, _, _, same, other, wide⟩ := overflows
  obtain ⟨before, _, rfl, rfl, behind⟩ := List.map_eq_append_iff.1 same
  obtain ⟨front, _, rfl, rfl, further⟩ := List.map_eq_cons_iff.1 behind
  obtain ⟨token, after, rfl, rfl, rfl⟩ := List.map_eq_cons_iff.1 further
  exact ⟨before, front, token, after, rfl, other, wide⟩

end Overflows

/-- An accepted text has integers out of range behind minus signs only. -/
theorem not_overflows_of_parse {source : String} {unit : SourceUnit} {tokens : List Token}
    (accepted : parse source = .ok unit) (read : tokenize source = .ok tokens) :
    ¬ Overflows tokens := by
  rintro ⟨before, front, token, after, rfl, other, wide⟩
  unfold parse at accepted
  rw [read, ok_bind] at accepted
  obtain ⟨⟨result, rest⟩, parsed, -⟩ := bind_eq_ok_iff.1 accepted
  obtain ⟨⟨used, same, ranged⟩, ends⟩ := taken_of_parseSourceUnit parsed
  have last : Ranged rest := by
    cases rest with
    | nil => exact .nil
    | cons token others =>
      replace ends : token.isEnd = true := ends
      cases others with
      | nil =>
        refine .single (Token.not_wide fun integer => ?_)
        simp [Token.isEnd, integer] at ends
      | cons next more =>
        have inner := not_isEnd_of_tokensFrom (same ▸ read) (List.cons_ne_nil next more)
        rw [ends] at inner
        cases inner
  have whole := ranged.append last
  rw [← same] at whole
  exact whole.not_wide before other wide

/-- A text that spells an integer out of range is not accepted. -/
theorem Overflows.rejected {source : String} {tokens : List Token} (overflows : Overflows tokens)
    (spells : Spells source.toList [] tokens) (unit : SourceUnit) : parse source ≠ .ok unit := by
  intro accepted
  obtain ⟨placed, next, rfl, read⟩ := spells.tokenize_eq
  exact not_overflows_of_parse accepted read (overflows.of_bare.append _)

end QueryFusion.Script
