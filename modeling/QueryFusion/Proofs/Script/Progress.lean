import QueryFusion.Proofs.Script.Confinement
import QueryFusion.Proofs.Script.Pieces

/-!
# Reading always moves on

A call of the lexer that finds a token takes the characters of the token, so a text has finitely
many tokens, and only the last one is the end of the input. On such a list the parser moves forward,
stays in front of the end, and comes to an answer at a depth that the number of tokens bounds.
-/

namespace QueryFusion.Script

/-! ## Characters -/

/-- A call of the lexer fails, finds the end of the input, or takes characters from the front. -/
inductive Advances (rest : Rest) : Except Diagnostic (Token × Rest) → Prop
  | failed (diagnostic : Diagnostic) : Advances rest (.error diagnostic)
  | ended {token : Token} {behind : Rest} (ends : token.isEnd = true) :
    Advances rest (.ok (token, behind))
  | took {token : Token} {behind : Rest} {taken : List Char} (some : taken ≠ [])
    (chars : rest.chars = taken ++ behind.chars) : Advances rest (.ok (token, behind))

/-- A token is found behind blanks and comments, and its spelling is not empty. -/
theorem advances_nextToken (rest : Rest) : Advances rest (nextToken rest) := by
  cases next : nextToken rest with
  | error diagnostic => exact .failed diagnostic
  | ok result =>
    obtain ⟨token, behind⟩ := result
    obtain ⟨⟨gaps, follow⟩, -⟩ := skipBlanks_gaps rest.chars rest.position
    rcases lexed_of_readToken next with ⟨rfl, -⟩ | ⟨text, lexed⟩
    · exact .ended rfl
    · have chars : rest.chars = textOf gaps ++ text ++ behind.chars := by
        rw [List.append_assoc, ← lexed.chars]
        exact follow.shape
      exact .took (List.append_ne_nil_of_right_ne_nil _ lexed.lexeme.ne_nil) chars

/-- What the calls of the lexer give one after another: the first error, or the tokens up to the
first end of the input. -/
inductive Lexes : Rest → Except Diagnostic (List Token) → Prop
  | failed {rest : Rest} {diagnostic : Diagnostic} (next : nextToken rest = .error diagnostic) :
    Lexes rest (.error diagnostic)
  | ended {rest behind : Rest} {token : Token} (next : nextToken rest = .ok (token, behind))
    (ends : token.isEnd = true) : Lexes rest (.ok [token])
  | more {rest behind : Rest} {token : Token} {outcome : Except Diagnostic (List Token)}
    (next : nextToken rest = .ok (token, behind)) (inner : token.isEnd = false)
    (further : Lexes behind outcome) : Lexes rest (outcome.map (token :: ·))

/-- The calls come to an end, as every token leaves fewer characters. -/
theorem lexes_tokens (rest : Rest) : Lexes rest rest.tokens := by
  cases next : nextToken rest with
  | error diagnostic =>
    rw [Rest.tokens, tokensFrom, next]
    exact .failed next
  | ok result =>
    obtain ⟨token, behind⟩ := result
    cases ends : token.isEnd with
    | true =>
      rw [Rest.tokens, tokensFrom, next]
      simp only [ok_bind, ends, if_true]
      exact .ended next ends
    | false =>
      have shorter := nextToken_length next ends
      rw [Rest.tokens_cons next ends]
      exact .more next ends (lexes_tokens behind)
termination_by rest.chars.length

/-- Only the last token of a text is the end of the input. -/
theorem closed_of_tokenize {source : String} {tokens : List Token}
    (read : tokenize source = .ok tokens) : Closed tokens := by
  obtain ⟨inner, last, rfl, ends, plain⟩ := tokensFrom_ends read
  exact Closed.append plain (.last ends)

/-! ## Tokens -/

variable {tokens : List Token}

/-- Readers that call each other deep enough read the same as those with fuel for the tokens,
whatever the deepest ones do, and whatever stands behind the end. -/
theorem readSourceUnit_eq (closed : Closed tokens) (extra : List Token) (cutoff : Descent)
    {depth : Nat} (deep : fuelFor tokens ≤ depth) :
    (Descent.deeper^[depth] cutoff).readSourceUnit (tokens ++ extra) =
      carry extra (parseSourceUnit (fuelFor tokens) tokens) := by
  obtain ⟨more, rfl⟩ := Nat.exists_eq_add_of_le deep
  rw [Function.iterate_add_apply]
  have agree := AgreeUpTo.descent extra (Descent.deeper^[more] cutoff) (fuelFor tokens)
  exact (agree.readSourceUnit tokens closed).agrees (by rw [fuelFor]; omega)

/-- All fuel together is that many calls. -/
theorem descent_eq (fuel : Nat) : descent fuel = Descent.deeper^[fuel] .exhausted := by
  induction fuel with
  | zero => rfl
  | succ fuel step => rw [descent_succ, step, Function.iterate_succ_apply']

/-- The fuel for the tokens is enough: more of it changes nothing. -/
theorem parseSourceUnit_eq (closed : Closed tokens) {fuel : Nat} (enough : fuelFor tokens ≤ fuel) :
    parseSourceUnit fuel tokens = parseSourceUnit (fuelFor tokens) tokens := by
  have same := readSourceUnit_eq closed [] .exhausted enough
  rwa [← descent_eq, carry_nil, List.append_nil] at same

/-- Reading from the tokens moves forward and stays in front of their end: each part that is read
takes at least one token, and the whole is read alike whatever lies deeper than the fuel or behind
the end. -/
structure Progresses (tokens : List Token) : Prop where
  statement : ∀ fuel statement rest,
    parseStatement fuel tokens = .ok (statement, rest) → Passed 1 tokens rest
  expression : ∀ fuel term rest,
    parseExpression fuel tokens = .ok (term, rest) → Passed 1 tokens rest
  type : ∀ type rest, parseType tokens = .ok (type, rest) → Passed 1 tokens rest
  field : ∀ field rest, parseField tokens = .ok (field, rest) → Passed 1 tokens rest
  constructor : ∀ fuel constructor rest,
    parseConstructor fuel tokens = .ok (constructor, rest) → Passed 1 tokens rest
  routine : ∀ fuel routine rest,
    parseRoutine fuel tokens = .ok (routine, rest) → Passed 1 tokens rest
  sourceUnit : ∀ (extra : List Token) (cutoff : Descent) (depth : Nat), fuelFor tokens ≤ depth →
    (Descent.deeper^[depth] cutoff).readSourceUnit (tokens ++ extra) =
      carry extra (parseSourceUnit (fuelFor tokens) tokens)

/-- Lexing and parsing make progress. Every call of the lexer fails, ends or takes characters, so
the tokens of a text are all there after finitely many calls and close with their only end. On every
such list reading progresses. -/
theorem reading_progresses :
    (∀ rest, Advances rest (nextToken rest)) ∧
      (∀ source, Lexes (.ofSource source) (tokenize source)) ∧
      (∀ source tokens, tokenize source = .ok tokens → Closed tokens) ∧
      ∀ tokens, Closed tokens → Progresses tokens := by
  refine ⟨advances_nextToken, fun source => lexes_tokens (.ofSource source),
    fun _ _ => closed_of_tokenize, fun tokens closed => ?_⟩
  have agree : ∀ fuel, AgreeUpTo [] fuel (descent fuel) (Descent.deeper^[fuel] .exhausted) :=
    AgreeUpTo.descent [] .exhausted
  have type : Confined 1 True [] tokens (parseType tokens) (parseType (tokens ++ [])) :=
    confined_type closed
  have field : Confined 1 True [] tokens (parseField tokens) (parseField (tokens ++ [])) :=
    confined_field closed
  exact {
    statement := fun fuel => ((agree fuel).statement tokens closed).moves
    expression := fun fuel => ((agree fuel).expression tokens closed).moves
    type := type.moves
    field := field.moves
    constructor := fun fuel => ((agree fuel).readConstructor tokens closed).moves
    routine := fun fuel => ((agree fuel).readRoutine tokens closed).moves
    sourceUnit := fun extra cutoff _ => readSourceUnit_eq closed extra cutoff }

end QueryFusion.Script
