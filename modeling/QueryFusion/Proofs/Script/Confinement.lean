import Mathlib.Logic.Function.Iterate
import QueryFusion.Proofs.Outcome
import QueryFusion.Script.Parser

/-!
# The descent stays within its tokens

In a token list only the last token is the end of the input. Every reader that succeeds leaves a
later part of such a list with the end still in it. None looks behind the end, so tokens that stand
there change nothing. None calls others without end: with every call the length of what is left goes
down, or it stays and the rank of the reader goes down. So calls that lie deeper than both allow are
never made, and it does not matter how they would be answered.
-/

namespace QueryFusion.Script

/-! ## Token lists -/

/-- The last token, and no other one, is the end of the input. -/
inductive Closed : List Token → Prop
  | last {token : Token} (ends : token.isEnd = true) : Closed [token]
  | cons {token : Token} {rest : List Token} (inner : token.isEnd = false) (closed : Closed rest) :
    Closed (token :: rest)

namespace Closed

variable {tokens : List Token}

/-- Tokens within the input in front of its end. -/
theorem append {inner rest : List Token} (plain : ∀ token ∈ inner, token.isEnd = false)
    (closed : Closed rest) : Closed (inner ++ rest) := by
  induction inner with
  | nil => exact closed
  | cons token inner step =>
    exact .cons (plain token List.mem_cons_self)
      (step fun other inside => plain other (List.mem_cons_of_mem token inside))

/-- The next token does not depend on what stands behind the end. -/
theorem current_append (closed : Closed tokens) (extra : List Token) :
    current (tokens ++ extra) = current tokens := by
  cases closed <;> rfl

/-- What stands behind the end stays there when a token is taken. -/
theorem behind_append (closed : Closed tokens) (extra : List Token) :
    behind (tokens ++ extra) = behind tokens ++ extra := by
  cases closed with
  | last ends => simp [behind, current, ends]
  | cons inner closed => simp [behind, current, inner]

/-- A token that does not fit is reported whatever stands behind the end. -/
theorem unexpected_append (closed : Closed tokens) (expected : String) (extra : List Token) :
    unexpected expected (tokens ++ extra) = unexpected expected tokens := by
  simp only [unexpected, closed.current_append]

/-- The end is still there behind the next token. -/
theorem behind (closed : Closed tokens) : Closed (behind tokens) := by
  cases closed with
  | last ends => simpa [Script.behind, current, ends] using Closed.last ends
  | cons inner closed => simpa [Script.behind, current, inner] using closed

end Closed

/-- The rest is a later part of the tokens, at least so many tokens on, and the end is still in
it. -/
structure Passed (least : Nat) (tokens rest : List Token) : Prop where
  closed : Closed rest
  suffix : rest <:+ tokens
  shorter : rest.length + least ≤ tokens.length

namespace Passed

variable {least more : Nat} {tokens middle rest : List Token}

/-- Nothing is taken. -/
theorem refl (closed : Closed tokens) : Passed 0 tokens tokens :=
  ⟨closed, List.suffix_refl tokens, Nat.le_refl _⟩

/-- More is taken. -/
theorem trans (first : Passed (more + least) tokens middle) (second : Passed 0 middle rest) :
    Passed least tokens rest :=
  ⟨second.closed, second.suffix.trans first.suffix, by
    have := first.shorter
    have := second.shorter
    omega⟩

/-- A part further on is a later part. -/
theorem weaken (passed : Passed 1 tokens rest) : Passed 0 tokens rest :=
  ⟨passed.closed, passed.suffix, by have := passed.shorter; omega⟩

/-- A token within the input is taken. -/
theorem next (closed : Closed tokens) (inner : (current tokens).isEnd = false) :
    Passed 1 tokens (behind tokens) := by
  refine ⟨closed.behind, ?_, ?_⟩
  all_goals
    cases closed with
    | last ends =>
      rw [current, List.headD_cons, ends] at inner
      cases inner
    | cons _ closed => simp [behind, inner]

/-- A token is taken, unless the input has ended. -/
theorem behind (closed : Closed tokens) : Passed 0 tokens (behind tokens) := by
  cases ends : (current tokens).isEnd with
  | true =>
    rw [Script.behind, ends]
    exact .refl closed
  | false => exact (Passed.next closed ends).weaken

end Passed

/-! ## Confined outcomes -/

/-- The outcome with more tokens behind what is left. -/
def carry {α : Type} (extra : List Token) :
    Except Diagnostic (α × List Token) → Except Diagnostic (α × List Token)
  | .ok (value, rest) => .ok (value, rest ++ extra)
  | .error diagnostic => .error diagnostic

/-- Nothing is put behind what is left. -/
theorem carry_nil {α : Type} (outcome : Except Diagnostic (α × List Token)) :
    carry [] outcome = outcome := by
  cases outcome with
  | error diagnostic => rfl
  | ok result => rw [carry, List.append_nil]

/-- Two outcomes of reading the same tokens, the second time with others behind their end and with
other readers for what lies deep. A success leaves a later part of the tokens, and when nothing deep
is reached, the others are not noticed. -/
structure Confined {α : Type} (least : Nat) (enough : Prop) (extra tokens : List Token)
    (first second : Except Diagnostic (α × List Token)) : Prop where
  moves : ∀ value rest, first = .ok (value, rest) → Passed least tokens rest
  agrees : enough → second = carry extra first

namespace Confined

variable {α β γ : Type} {least more : Nat} {enough : Prop} {extra tokens rest : List Token}
variable {first second : Except Diagnostic (α × List Token)}

/-- Reading fails. -/
theorem error (diagnostic : Diagnostic) :
    Confined least enough extra tokens (.error diagnostic : Except Diagnostic (α × List Token))
      (.error diagnostic) :=
  ⟨fun _ _ => nofun, fun _ => rfl⟩

/-- The end of reading. -/
theorem ok (value : α) (passed : Passed least tokens rest) :
    Confined least enough extra tokens (.ok (value, rest)) (.ok (value, rest ++ extra)) := by
  refine ⟨?_, fun _ => rfl⟩
  rintro _ _ ⟨⟩
  exact passed

/-- One reads behind another. The first may take more than is asked for: behind it nothing more need
be taken. -/
theorem bind {next other : α × List Token → Except Diagnostic (β × List Token)}
    (here : Confined (more + least) enough extra tokens first second)
    (further : ∀ value rest, Closed rest → rest.length + (more + least) ≤ tokens.length →
      Confined 0 enough extra rest (next (value, rest)) (other (value, rest ++ extra))) :
    Confined least enough extra tokens (first >>= next) (second >>= other) := by
  cases first with
  | error diagnostic =>
    refine ⟨fun _ _ => nofun, fun fits => ?_⟩
    rw [here.agrees fits]
    rfl
  | ok result =>
    obtain ⟨value, rest⟩ := result
    have passed := here.moves value rest rfl
    have behind := further value rest passed.closed passed.shorter
    refine ⟨fun _ _ read => passed.trans (behind.moves _ _ read), fun fits => ?_⟩
    rw [here.agrees fits]
    exact behind.agrees fits

/-- A part that reads nothing. -/
theorem pass {value : Except Diagnostic γ} {next other : γ → Except Diagnostic (α × List Token)}
    (further : ∀ result, Confined least enough extra tokens (next result) (other result)) :
    Confined least enough extra tokens (value >>= next) (value >>= other) := by
  cases value with
  | error diagnostic => exact .error diagnostic
  | ok result => exact further result

/-- Reading goes on with what is left. -/
theorem after (passed : Passed (more + least) tokens rest)
    (further : Closed rest → rest.length + (more + least) ≤ tokens.length →
      Confined 0 enough extra rest first second) :
    Confined least enough extra tokens first second := by
  have here := further passed.closed passed.shorter
  exact ⟨fun _ _ read => passed.trans (here.moves _ _ read), here.agrees⟩

/-- What is skipped need not be counted. -/
theorem skip (passed : Passed 0 tokens rest)
    (further : Closed rest → rest.length ≤ tokens.length →
      Confined least enough extra rest first second) :
    Confined least enough extra tokens first second := by
  have here := further passed.closed passed.shorter
  refine ⟨fun _ _ read => ?_, here.agrees⟩
  have last := here.moves _ _ read
  exact ⟨last.closed, last.suffix.trans passed.suffix, Nat.le_trans last.shorter passed.shorter⟩

/-- Reading that takes a token need not take one. -/
theorem weaken (here : Confined 1 enough extra tokens first second) :
    Confined 0 enough extra tokens first second :=
  ⟨fun value rest read => (here.moves value rest read).weaken, here.agrees⟩

/-- Both sides of a choice. -/
theorem ite {condition : Prop} [Decidable condition]
    {third fourth : Except Diagnostic (α × List Token)}
    (yes : condition → Confined least enough extra tokens first second)
    (no : ¬ condition → Confined least enough extra tokens third fourth) :
    Confined least enough extra tokens (if condition then first else third)
      (if condition then second else fourth) := by
  split
  · exact yes ‹_›
  · exact no ‹_›

end Confined

/-! ## Single tokens -/

section Tokens

variable {enough : Prop} {extra tokens : List Token}

/-- A punctuator does not end the input. -/
theorem Token.inner_of_isPunctuator {token : Token} {symbol : String}
    (found : token.isPunctuator symbol = true) : token.isEnd = false := by
  simp only [isPunctuator, Bool.and_eq_true, beq_iff_eq] at found
  simp [isEnd, found.1]

/-- An operator does not end the input. -/
theorem Token.inner_of_isOperator {token : Token} {symbol : String}
    (found : token.isOperator symbol = true) : token.isEnd = false := by
  simp only [isOperator, Bool.and_eq_true, beq_iff_eq] at found
  simp [isEnd, found.1]

/-- A keyword does not end the input. -/
theorem Token.inner_of_isKeyword {token : Token} {word : String}
    (found : token.isKeyword word = true) : token.isEnd = false := by
  simp only [isKeyword, Bool.and_eq_true, beq_iff_eq] at found
  simp [isEnd, found.1]

/-- A token that is expected takes itself. -/
theorem confined_expect (closed : Closed tokens) {test : Token → Bool} (expected : String)
    (inner : ∀ token, test token = true → token.isEnd = false) :
    Confined 1 enough extra tokens (expect test expected tokens)
      (expect test expected (tokens ++ extra)) := by
  simp only [expect, closed.current_append, closed.behind_append, closed.unexpected_append]
  exact .ite (fun found => .ok _ (.next closed (inner _ found))) fun _ => .error _

/-- A punctuator that is expected. -/
theorem confined_punctuator (closed : Closed tokens) (symbol : String) :
    Confined 1 enough extra tokens (expectPunctuator symbol tokens)
      (expectPunctuator symbol (tokens ++ extra)) :=
  confined_expect closed _ fun _ => Token.inner_of_isPunctuator

/-- An operator that is expected. -/
theorem confined_operator (closed : Closed tokens) (symbol : String) :
    Confined 1 enough extra tokens (expectOperator symbol tokens)
      (expectOperator symbol (tokens ++ extra)) :=
  confined_expect closed _ fun _ => Token.inner_of_isOperator

/-- A keyword that is expected. -/
theorem confined_keyword (closed : Closed tokens) (word : String) :
    Confined 1 enough extra tokens (expectKeyword word tokens)
      (expectKeyword word (tokens ++ extra)) :=
  confined_expect closed _ fun _ => Token.inner_of_isKeyword

/-- An identifier that is expected. -/
theorem confined_identifier (closed : Closed tokens) :
    Confined 1 enough extra tokens (expectIdentifier tokens)
      (expectIdentifier (tokens ++ extra)) := by
  simp only [expectIdentifier, closed.current_append, closed.behind_append,
    closed.unexpected_append]
  refine .ite (fun found => .ok _ (.next closed ?_)) fun _ => .error _
  simp [Token.isEnd, found]

/-- A dotted name goes on behind a dot. -/
theorem dottedTail_step (name : String) (tokens : List Token) :
    dottedTail name tokens =
      if (current tokens).isPunctuator "." then do
        let ((part, _), rest) ← expectIdentifier (behind tokens)
        dottedTail (name ++ "." ++ part) rest
      else .ok (name, tokens) := by
  cases tokens with
  | nil => rfl
  | cons token rest =>
    rw [dottedTail.eq_def]
    refine ite_congr rfl (fun dot => ?_) fun _ => rfl
    have inner : token.isEnd = false := Token.inner_of_isPunctuator dot
    have taken : behind (token :: rest) = rest := by simp [behind, current, inner]
    rw [taken]
    cases rest with
    | nil => rfl
    | cons part more =>
      by_cases named : part.kind = .identifier
      · simp [expectIdentifier, behind, current, Token.isEnd, named]
      · simp [expectIdentifier, current, named]

/-- The parts of a dotted name behind the first. -/
theorem confined_dottedTail {tokens : List Token} (closed : Closed tokens) (name : String) :
    Confined 0 enough extra tokens (dottedTail name tokens)
      (dottedTail name (tokens ++ extra)) := by
  rw [dottedTail_step, dottedTail_step name (tokens ++ extra), closed.current_append,
    closed.behind_append]
  refine .ite (fun dot => ?_) fun _ => .ok _ (.refl closed)
  refine .after (.next closed (Token.inner_of_isPunctuator dot)) fun closed shorter => ?_
  -- The dot and the part behind it are taken, so fewer tokens are left for the other parts.
  exact (confined_identifier closed).bind fun part rest closed further =>
    confined_dottedTail closed _
termination_by tokens.length

/-- A dotted name. -/
theorem confined_dotted (closed : Closed tokens) :
    Confined 1 enough extra tokens (parseDotted tokens) (parseDotted (tokens ++ extra)) := by
  unfold parseDotted
  refine (confined_identifier closed).bind fun first rest closed _ => ?_
  exact (confined_dottedTail closed first.1).bind fun _ _ closed _ => .ok _ (.refl closed)

/-- A type. -/
theorem confined_type (closed : Closed tokens) :
    Confined 1 enough extra tokens (parseType tokens) (parseType (tokens ++ extra)) := by
  unfold parseType
  refine (confined_identifier closed).bind fun name rest closed _ => ?_
  simp only [closed.current_append, closed.behind_append]
  refine .ite (fun _ => ?_) fun _ => .ok _ (.refl closed)
  refine .after (.behind closed) fun closed _ => ?_
  refine (confined_dotted closed).bind fun argument rest closed _ => ?_
  exact (confined_operator closed ">").bind fun _ _ closed _ => .ok _ (.refl closed)

/-- A keyword that is a statement by itself. -/
theorem confined_word (closed : Closed tokens) (statement : Position → Stmt) :
    Confined 1 enough extra tokens (parseWord statement tokens)
      (parseWord statement (tokens ++ extra)) := by
  simp only [parseWord, closed.current_append, closed.behind_append]
  refine .skip (.behind closed) fun closed _ => ?_
  exact (confined_punctuator closed ";").bind fun _ _ closed _ => .ok _ (.refl closed)

/-- A field. -/
theorem confined_field (closed : Closed tokens) :
    Confined 1 enough extra tokens (parseField tokens) (parseField (tokens ++ extra)) := by
  simp only [parseField, closed.current_append, closed.behind_append]
  refine .skip (.behind closed) fun closed _ => ?_
  refine (confined_identifier closed).bind fun name rest closed _ => ?_
  refine (confined_punctuator closed ":").bind fun _ rest closed _ => ?_
  refine (confined_type closed).bind fun type rest closed _ => ?_
  exact (confined_punctuator closed ";").bind fun _ _ closed _ => .ok _ (.refl closed)

end Tokens

/-! ## Descents -/

/-- The two readers are confined to every token list, and alike as soon as the size is enough for
its length and the rank of the readers. Sixteen is more than every rank: a token that is taken makes
room for a call of any reader. -/
def Agree {α : Type} (rank least size : Nat) (extra : List Token) (first second : Reader α) :
    Prop :=
  ∀ tokens, Closed tokens → Confined least (16 * tokens.length + rank ≤ size) extra tokens
    (first tokens) (second (tokens ++ extra))

/-- Readers that agree, on tokens that are known to be short enough. -/
theorem Agree.at {α : Type} {rank least size : Nat} {extra tokens : List Token} {enough : Prop}
    {first second : Reader α} (agree : Agree rank least size extra first second)
    (closed : Closed tokens) (fits : enough → 16 * tokens.length + rank ≤ size) :
    Confined least enough extra tokens (first tokens) (second (tokens ++ extra)) :=
  ⟨(agree tokens closed).moves, fun enough => (agree tokens closed).agrees (fits enough)⟩

/-- A reader that reads nothing agrees with any other one where nothing is short enough. -/
theorem Agree.of_error {α : Type} {rank least : Nat} {extra : List Token}
    (diagnostic : List Token → Diagnostic) (second : Reader α) (ranked : 0 < rank) :
    Agree rank least 0 extra (fun tokens => .error (diagnostic tokens)) second :=
  fun _ _ => ⟨fun _ _ => nofun, fun fits => by omega⟩

/-- Two descents agree up to a size. A reader that calls another on the same tokens has the greater
rank. -/
structure AgreeUpTo (extra : List Token) (size : Nat) (first second : Descent) : Prop where
  expression : Agree 10 1 size extra first.expression second.expression
  binary : ∀ level, Agree (3 + (6 - level)) 1 size extra (first.binary level) (second.binary level)
  binaryTail : ∀ level left,
    Agree 1 0 size extra (first.binaryTail level left) (second.binaryTail level left)
  unary : Agree 2 1 size extra first.unary second.unary
  suffixed : ∀ operand, Agree 1 0 size extra (first.suffixed operand) (second.suffixed operand)
  primary : Agree 1 1 size extra first.primary second.primary
  ints : ∀ taken, Agree 1 1 size extra (first.ints taken) (second.ints taken)
  arguments : Agree 1 1 size extra first.arguments second.arguments
  argumentList : Agree 11 1 size extra first.argumentList second.argumentList
  block : Agree 1 1 size extra first.block second.block
  statements : Agree 12 1 size extra first.statements second.statements
  statement : Agree 11 1 size extra first.statement second.statement
  choice : Agree 1 1 size extra first.choice second.choice
  params : Agree 1 1 size extra first.params second.params
  members : ∀ unit, Agree 1 1 size extra (first.members unit) (second.members unit)
  imports : Agree 1 0 size extra first.imports second.imports

namespace AgreeUpTo

variable {extra : List Token} {size : Nat} {first second : Descent}

/-! ### Expressions -/

/-- A conditional, or what stands in its place. -/
theorem readExpression (below : AgreeUpTo extra size first second) :
    Agree 10 1 (size + 1) extra first.readExpression second.readExpression := by
  intro tokens closed
  unfold Descent.readExpression
  refine ((below.binary 0).at closed (by omega)).bind fun condition rest closed shorter => ?_
  simp only [closed.current_append, closed.behind_append]
  refine .ite (fun asked => ?_) fun _ => .ok _ (.refl closed)
  refine .after (.next closed (Token.inner_of_isOperator asked)) fun closed taken => ?_
  refine (below.expression.at closed (by omega)).bind fun thenValue rest closed further => ?_
  refine (confined_punctuator closed ":").bind fun _ rest closed colon => ?_
  exact (below.expression.at closed (by omega)).bind fun _ _ closed _ => .ok _ (.refl closed)

/-- Operands of a level. Below the tightest level stand the unary operators. -/
theorem readBinary (below : AgreeUpTo extra size first second) (level : Nat) :
    Agree (3 + (6 - level)) 1 (size + 1) extra (first.readBinary level)
      (second.readBinary level) := by
  intro tokens closed
  unfold Descent.readBinary
  -- The levels are called on the same tokens one below the other, so each of them has a rank.
  have levels : binaryLevels.length = 6 := rfl
  rw [levels]
  refine .ite (fun loose => ?_) fun _ => below.unary.at closed (by omega)
  refine ((below.binary (level + 1)).at closed (by omega)).bind fun left rest closed shorter => ?_
  exact (below.binaryTail level left).at closed (by omega)

/-- The operators of a level. -/
theorem readBinaryTail (below : AgreeUpTo extra size first second) (level : Nat) (left : Term) :
    Agree 1 0 (size + 1) extra (first.readBinaryTail level left)
      (second.readBinaryTail level left) := by
  intro tokens closed
  simp only [Descent.readBinaryTail, closed.current_append, closed.behind_append]
  cases found : operatorAt? level (current tokens) with
  | none => exact .ok _ (.refl closed)
  | some op =>
    have sign : (current tokens).isOperator op.symbol = true := by
      simpa using List.find?_some found
    refine .after (.next closed (Token.inner_of_isOperator sign)) fun closed taken => ?_
    refine ((below.binary (level + 1)).at closed (by omega)).bind fun right rest closed further =>
      ?_
    exact (below.binaryTail level _).at closed (by omega)

/-- Unary operators. A minus sign takes the number behind it along. -/
theorem readUnary (below : AgreeUpTo extra size first second) :
    Agree 2 1 (size + 1) extra first.readUnary second.readUnary := by
  intro tokens closed
  simp only [Descent.readUnary, closed.current_append, closed.behind_append,
    closed.behind.current_append, closed.behind.behind_append]
  refine .ite (fun bang => ?_) fun _ => .ite (fun minus => ?_) fun _ => ?_
  · refine .after (.next closed (Token.inner_of_isOperator bang)) fun closed taken => ?_
    exact (below.unary.at closed (by omega)).bind fun _ _ closed _ => .ok _ (.refl closed)
  · refine .after (.next closed (Token.inner_of_isOperator minus)) fun closed taken => ?_
    refine .ite (fun _ => .pass fun number => ?_) fun _ => ?_
    · refine .after (.behind closed) fun closed further => ?_
      exact (below.suffixed number).at closed (by omega)
    · exact (below.unary.at closed (by omega)).bind fun _ _ closed _ => .ok _ (.refl closed)
  · refine (below.primary.at closed (by omega)).bind fun operand rest closed shorter => ?_
    exact (below.suffixed operand).at closed (by omega)

/-- Member accesses, calls and casts. -/
theorem readSuffixed (below : AgreeUpTo extra size first second) (operand : Term) :
    Agree 1 0 (size + 1) extra (first.readSuffixed operand) (second.readSuffixed operand) := by
  intro tokens closed
  simp only [Descent.readSuffixed, closed.current_append, closed.behind_append]
  refine .ite (fun point => ?_) fun _ => .ite (fun cast => ?_) fun _ => .ok _ (.refl closed)
  · refine .after (.next closed (Token.inner_of_isPunctuator point)) fun closed taken => ?_
    refine (confined_identifier closed).bind fun name rest closed named => ?_
    simp only [closed.current_append]
    refine .ite (fun _ => ?_) fun _ => (below.suffixed _).at closed (by omega)
    refine (below.arguments.at closed (by omega)).bind fun arguments rest closed further => ?_
    exact (below.suffixed _).at closed (by omega)
  · refine .after (.next closed (Token.inner_of_isKeyword cast)) fun closed taken => ?_
    refine (confined_type closed).bind fun type rest closed typed => ?_
    exact (below.suffixed _).at closed (by omega)

/-- What is an expression by itself does not end the input. -/
theorem inner_of_atom? {token : Token} {term : Term} (found : atom? token = some term) :
    token.isEnd = false := by
  cases kind : token.kind with
  | endOfInput => simp [atom?, kind] at found
  | _ => simp [Token.isEnd, kind]

/-- A number does not end the input. -/
theorem inner_of_isNumber {token : Token} (number : isNumber token = true) :
    token.isEnd = false := by
  cases kind : token.kind with
  | endOfInput => simp [isNumber, kind] at number
  | _ => simp [Token.isEnd, kind]

/-- Expressions without operators around them. -/
theorem readPrimary (below : AgreeUpTo extra size first second) :
    Agree 1 1 (size + 1) extra first.readPrimary second.readPrimary := by
  intro tokens closed
  simp only [Descent.readPrimary, closed.current_append, closed.behind_append,
    closed.behind.current_append, closed.behind.behind_append, closed.unexpected_append]
  refine .ite (fun number => .pass fun _ => .ok _ (.next closed (inner_of_isNumber number)))
    fun _ => .ite (fun opens => ?_) fun _ => .ite (fun opens => ?_) fun _ => ?_
  · refine .after (.next closed (Token.inner_of_isPunctuator opens)) fun closed taken => ?_
    refine (below.expression.at closed (by omega)).bind fun inner rest closed further => ?_
    exact (confined_punctuator closed ")").bind fun _ _ closed _ => .ok _ (.refl closed)
  · refine .after (.next closed (Token.inner_of_isPunctuator opens)) fun closed taken => ?_
    refine .ite (fun _ => .ok _ (.behind closed)) fun _ => ?_
    exact ((below.ints []).at closed (by omega)).bind fun _ _ closed _ => .ok _ (.refl closed)
  · cases found : atom? (current tokens) with
    | none => exact .error _
    | some term => exact .ok _ (.next closed (inner_of_atom? found))

/-- The numbers of an array. -/
theorem readInts (below : AgreeUpTo extra size first second) (taken : List Int32) :
    Agree 1 1 (size + 1) extra (first.readInts taken) (second.readInts taken) := by
  intro tokens closed
  -- A minus sign is taken before the number is looked at; both start from what is left then.
  have signed : ∃ start, Passed 0 tokens start ∧
      (if (current tokens).isOperator "-" then behind tokens else tokens) = start ∧
      (if (current tokens).isOperator "-" then behind (tokens ++ extra) else tokens ++ extra) =
        start ++ extra := by
    cases (current tokens).isOperator "-" with
    | true => exact ⟨_, .behind closed, rfl, closed.behind_append extra⟩
    | false => exact ⟨_, .refl closed, rfl, rfl⟩
  obtain ⟨start, passed, here, there⟩ := signed
  simp only [Descent.readInts, closed.current_append, here, there]
  refine .skip passed fun closed shorter => ?_
  simp only [closed.current_append, closed.behind_append, closed.unexpected_append,
    closed.behind.current_append, closed.behind.behind_append]
  refine .ite (fun _ => .error _) fun integer => .pass fun term => ?_
  have inner : (current start).isEnd = false := by simp [Token.isEnd, not_not.1 integer]
  cases term with
  | int _ number =>
    refine .after (.next closed inner) fun closed taken => .ite (fun _ => ?_) fun _ => ?_
    · refine .skip (.behind closed) fun closed further => ?_
      exact .weaken ((below.ints _).at closed (by omega))
    · exact (confined_punctuator closed "]").bind fun _ _ closed _ => .ok _ (.refl closed)
  | _ => exact .error _

/-- Arguments in parentheses. -/
theorem readArguments (below : AgreeUpTo extra size first second) :
    Agree 1 1 (size + 1) extra first.readArguments second.readArguments := by
  intro tokens closed
  unfold Descent.readArguments
  refine (confined_punctuator closed "(").bind fun _ rest closed opened => ?_
  simp only [closed.current_append, closed.behind_append]
  refine .ite (fun _ => .ok _ (.behind closed)) fun _ => ?_
  refine (below.argumentList.at closed (by omega)).bind fun arguments rest closed further => ?_
  exact (confined_punctuator closed ")").bind fun _ _ closed _ => .ok _ (.refl closed)

/-- Arguments with commas between them. -/
theorem readArgumentList (below : AgreeUpTo extra size first second) :
    Agree 11 1 (size + 1) extra first.readArgumentList second.readArgumentList := by
  intro tokens closed
  unfold Descent.readArgumentList
  refine (below.expression.at closed (by omega)).bind fun argument rest closed shorter => ?_
  simp only [closed.current_append, closed.behind_append]
  refine .ite (fun comma => ?_) fun _ => .ok _ (.refl closed)
  refine .after (.next closed (Token.inner_of_isPunctuator comma)) fun closed taken => ?_
  exact (below.argumentList.at closed (by omega)).bind fun _ _ closed _ => .ok _ (.refl closed)

/-! ### Statements -/

/-- A statement that is an expression or an assignment. -/
theorem readSimple (below : AgreeUpTo extra size first second) :
    Agree 10 1 size extra first.readSimple second.readSimple := by
  intro tokens closed
  simp only [Descent.readSimple, closed.current_append]
  refine (below.expression.at closed (by omega)).bind fun target rest closed shorter => ?_
  simp only [closed.current_append, closed.behind_append]
  refine .ite (fun _ => ?_) fun _ => ?_
  · refine .after (.behind closed) fun closed taken => ?_
    refine (below.expression.at closed (by omega)).bind fun value rest closed further => ?_
    refine (confined_punctuator closed ";").bind fun _ rest closed ended => ?_
    exact .pass fun _ => .ok _ (.refl closed)
  · exact (confined_punctuator closed ";").bind fun _ _ closed _ => .ok _ (.refl closed)

/-- The declaration of a local. -/
theorem readDeclaration (below : AgreeUpTo extra size first second) :
    Agree 10 1 size extra first.readDeclaration second.readDeclaration := by
  intro tokens closed
  simp only [Descent.readDeclaration, closed.current_append, closed.behind_append]
  refine .skip (.behind closed) fun closed taken => ?_
  refine (confined_identifier closed).bind fun name rest closed named => ?_
  refine (confined_punctuator closed ":").bind fun _ rest closed colon => ?_
  refine (confined_type closed).bind fun type rest closed typed => ?_
  refine (confined_operator closed "=").bind fun _ rest closed equals => ?_
  refine (below.expression.at closed (by omega)).bind fun value rest closed further => ?_
  exact (confined_punctuator closed ";").bind fun _ _ closed _ => .ok _ (.refl closed)

/-- The end of a routine. -/
theorem readReturn (below : AgreeUpTo extra size first second) :
    Agree 10 1 size extra first.readReturn second.readReturn := by
  intro tokens closed
  simp only [Descent.readReturn, closed.current_append, closed.behind_append,
    closed.behind.current_append, closed.behind.behind_append]
  refine .skip (.behind closed) fun closed taken => ?_
  refine .ite (fun ends => .ok _ (.next closed (Token.inner_of_isPunctuator ends))) fun _ => ?_
  refine (below.expression.at closed (by omega)).bind fun value rest closed further => ?_
  exact (confined_punctuator closed ";").bind fun _ _ closed _ => .ok _ (.refl closed)

/-- A block in braces. -/
theorem readBlock (below : AgreeUpTo extra size first second) :
    Agree 1 1 (size + 1) extra first.readBlock second.readBlock := by
  intro tokens closed
  unfold Descent.readBlock
  refine (confined_punctuator closed _).bind fun _ rest closed opened => ?_
  exact .weaken (below.statements.at closed (by omega))

/-- Statements up to the closing brace. -/
theorem readStatements (below : AgreeUpTo extra size first second) :
    Agree 12 1 (size + 1) extra first.readStatements second.readStatements := by
  intro tokens closed
  simp only [Descent.readStatements, closed.current_append, closed.behind_append,
    closed.unexpected_append]
  refine .ite (fun closes => .ok _ (.next closed (Token.inner_of_isPunctuator closes)))
    fun _ => .ite (fun _ => .error _) fun _ => ?_
  refine (below.statement.at closed (by omega)).bind fun statement rest closed shorter => ?_
  exact (below.statements.at closed (by omega)).bind fun _ _ closed _ => .ok _ (.refl closed)

/-- Every kind of statement. -/
theorem readStatement (below : AgreeUpTo extra size first second) :
    Agree 11 1 (size + 1) extra first.readStatement second.readStatement := by
  intro tokens closed
  simp only [Descent.readStatement, closed.current_append, closed.behind_append]
  -- The keywords are asked for in turn, and an expression is read when it is none of them.
  refine .ite (fun _ => below.readDeclaration.at closed (by omega)) fun _ =>
    .ite (fun _ => below.choice.at closed (by omega)) fun _ =>
    .ite (fun loops => ?_) fun _ =>
    .ite (fun _ => confined_word closed _) fun _ =>
    .ite (fun _ => confined_word closed _) fun _ =>
    .ite (fun _ => below.readReturn.at closed (by omega)) fun _ =>
    .ite (fun constructs => ?_) fun _ => below.readSimple.at closed (by omega)
  · refine .after (.next closed (Token.inner_of_isKeyword loops)) fun closed taken => ?_
    refine (below.expression.at closed (by omega)).bind fun condition rest closed shorter => ?_
    exact (below.block.at closed (by omega)).bind fun _ _ closed _ => .ok _ (.refl closed)
  · refine .after (.next closed (Token.inner_of_isKeyword constructs)) fun closed taken => ?_
    refine (below.arguments.at closed (by omega)).bind fun arguments rest closed shorter => ?_
    exact (confined_punctuator closed ";").bind fun _ _ closed _ => .ok _ (.refl closed)

/-- Conditional statements. -/
theorem readChoice (below : AgreeUpTo extra size first second) :
    Agree 1 1 (size + 1) extra first.readChoice second.readChoice := by
  intro tokens closed
  unfold Descent.readChoice
  refine (confined_keyword closed "if").bind fun position rest closed opened => ?_
  refine (below.expression.at closed (by omega)).bind fun condition rest closed shorter => ?_
  refine (below.block.at closed (by omega)).bind fun thenBlock rest closed further => ?_
  simp only [closed.current_append, closed.behind_append, closed.behind.current_append]
  refine .ite (fun _ => ?_) fun _ => .ok _ (.refl closed)
  refine .skip (.behind closed) fun closed taken => .ite (fun _ => ?_) fun _ => ?_
  · exact (below.choice.at closed (by omega)).bind fun _ _ closed _ => .ok _ (.refl closed)
  · exact (below.block.at closed (by omega)).bind fun _ _ closed _ => .ok _ (.refl closed)

/-! ### Units -/

/-- Parameters with commas between them. -/
theorem readParams (below : AgreeUpTo extra size first second) :
    Agree 1 1 (size + 1) extra first.readParams second.readParams := by
  intro tokens closed
  unfold Descent.readParams
  refine (confined_identifier closed).bind fun name rest closed named => ?_
  refine (confined_punctuator closed ":").bind fun _ rest closed colon => ?_
  refine (confined_type closed).bind fun type rest closed typed => ?_
  simp only [closed.current_append, closed.behind_append]
  refine .ite (fun _ => ?_) fun _ => .ok _ (.refl closed)
  refine .skip (.behind closed) fun closed taken => ?_
  exact (below.params.at closed (by omega)).bind fun _ _ closed _ => .ok _ (.refl closed)

/-- The block of a routine. -/
theorem readBody (below : AgreeUpTo extra size first second) (name : String) (position : Position)
    (params : List Param) (returnType : Option TypeName) :
    Agree 1 1 size extra (first.readBody name position params returnType)
      (second.readBody name position params returnType) := by
  intro tokens closed
  unfold Descent.readBody
  exact (below.block.at closed (by omega)).bind fun _ _ closed _ => .ok _ (.refl closed)

/-- A routine from behind its parameters. -/
theorem readResult (below : AgreeUpTo extra size first second) (name : String) (position : Position)
    (params : List Param) :
    Agree 0 1 size extra (first.readResult name position params)
      (second.readResult name position params) := by
  intro tokens closed
  unfold Descent.readResult
  refine (confined_punctuator closed ")").bind fun _ rest closed closes => ?_
  simp only [closed.current_append, closed.behind_append]
  refine .ite (fun _ => ?_) fun _ => .weaken ((below.readBody _ _ _ _).at closed (by omega))
  refine .skip (.behind closed) fun closed taken => ?_
  refine (confined_type closed).bind fun type rest closed typed => ?_
  exact .weaken ((below.readBody _ _ _ _).at closed (by omega))

/-- A routine. -/
theorem readRoutine (below : AgreeUpTo extra size first second) :
    Agree 0 1 size extra first.readRoutine second.readRoutine := by
  intro tokens closed
  unfold Descent.readRoutine
  refine (confined_keyword closed "fn").bind fun position rest closed opened => ?_
  refine (confined_identifier closed).bind fun name rest closed named => ?_
  refine (confined_punctuator closed "(").bind fun _ rest closed shorter => ?_
  simp only [closed.current_append]
  refine .ite (fun _ => .weaken ((below.readResult _ _ _).at closed (by omega))) fun _ => ?_
  refine (below.params.at closed (by omega)).bind fun params rest closed further => ?_
  exact .weaken ((below.readResult _ _ _).at closed (by omega))

/-- A constructor. -/
theorem readConstructor (below : AgreeUpTo extra size first second) :
    Agree 0 1 size extra first.readConstructor second.readConstructor := by
  intro tokens closed
  simp only [Descent.readConstructor, closed.current_append, closed.behind_append]
  refine .skip (.behind closed) fun closed taken => ?_
  refine (confined_punctuator closed "(").bind fun _ rest closed opened => ?_
  refine (confined_punctuator closed ")").bind fun _ rest closed shorter => ?_
  exact (below.block.at closed (by omega)).bind fun _ _ closed _ => .ok _ (.refl closed)

/-- The members of a unit up to the closing brace. -/
theorem readMembers (below : AgreeUpTo extra size first second) (unit : UnitDecl) :
    Agree 1 1 (size + 1) extra (first.readMembers unit) (second.readMembers unit) := by
  intro tokens closed
  simp only [Descent.readMembers, closed.current_append, closed.behind_append,
    closed.unexpected_append]
  refine .ite (fun closes => .ok _ (.next closed (Token.inner_of_isPunctuator closes))) fun _ =>
    .ite (fun _ => ?_) fun _ => .ite (fun _ => ?_) fun _ => .ite (fun _ => ?_) fun _ => .error _
  · refine (confined_field closed).bind fun field rest closed shorter => ?_
    exact .weaken ((below.members _).at closed (by omega))
  · refine (below.readConstructor.at closed (by omega)).bind fun _ rest closed shorter => ?_
    exact .weaken ((below.members _).at closed (by omega))
  · refine (below.readRoutine.at closed (by omega)).bind fun routine rest closed shorter => ?_
    exact .weaken ((below.members _).at closed (by omega))

/-- A unit. -/
theorem readUnit (below : AgreeUpTo extra size first second) :
    Agree 0 1 size extra first.readUnit second.readUnit := by
  intro tokens closed
  unfold Descent.readUnit
  refine (confined_keyword closed "unit").bind fun position rest closed opened => ?_
  refine (confined_identifier closed).bind fun name rest closed named => ?_
  refine (confined_keyword closed "extends").bind fun _ rest closed extended => ?_
  refine (confined_identifier closed).bind fun base rest closed based => ?_
  refine (confined_punctuator closed _).bind fun _ rest closed shorter => ?_
  exact .weaken ((below.members _).at closed (by omega))

/-- Imports as long as there are some. -/
theorem readImports (below : AgreeUpTo extra size first second) :
    Agree 1 0 (size + 1) extra first.readImports second.readImports := by
  intro tokens closed
  simp only [Descent.readImports, closed.current_append, closed.behind_append]
  refine .ite (fun found => ?_) fun _ => .ok _ (.refl closed)
  refine .after (.next closed (Token.inner_of_isKeyword found)) fun closed taken => ?_
  refine (confined_dotted closed).bind fun name rest closed named => ?_
  refine (confined_punctuator closed ";").bind fun _ rest closed ended => ?_
  exact (below.imports.at closed (by omega)).bind fun _ _ closed _ => .ok _ (.refl closed)

/-- A whole source unit. -/
theorem readSourceUnit (below : AgreeUpTo extra size first second) :
    Agree 0 1 size extra first.readSourceUnit second.readSourceUnit := by
  intro tokens closed
  unfold Descent.readSourceUnit
  refine (confined_keyword closed "module").bind fun _ rest closed opened => ?_
  refine (confined_dotted closed).bind fun name rest closed named => ?_
  refine (confined_punctuator closed ";").bind fun _ rest closed ended => ?_
  refine (below.imports.at closed (by omega)).bind fun imports rest closed shorter => ?_
  refine (below.readUnit.at closed (by omega)).bind fun unit rest closed further => ?_
  simp only [closed.current_append, closed.unexpected_append]
  exact .ite (fun _ => .ok _ (.refl closed)) fun _ => .error _

/-! ### Every depth -/

/-- Descents whose calls agree up to a size agree up to the next one. -/
theorem deeper (below : AgreeUpTo extra size first second) :
    AgreeUpTo extra (size + 1) first.deeper second.deeper where
  expression := below.readExpression
  binary := below.readBinary
  binaryTail := below.readBinaryTail
  unary := below.readUnary
  suffixed := below.readSuffixed
  primary := below.readPrimary
  ints := below.readInts
  arguments := below.readArguments
  argumentList := below.readArgumentList
  block := below.readBlock
  statements := below.readStatements
  statement := below.readStatement
  choice := below.readChoice
  params := below.readParams
  members := below.readMembers
  imports := below.readImports

/-- Without fuel nothing is read, and no size is small enough to agree on. -/
theorem exhausted (extra : List Token) (cutoff : Descent) :
    AgreeUpTo extra 0 .exhausted cutoff where
  expression := .of_error _ _ (by omega)
  binary _ := .of_error _ _ (by omega)
  binaryTail _ _ := .of_error _ _ (by omega)
  unary := .of_error _ _ (by omega)
  suffixed _ := .of_error _ _ (by omega)
  primary := .of_error _ _ (by omega)
  ints _ := .of_error _ _ (by omega)
  arguments := .of_error _ _ (by omega)
  argumentList := .of_error _ _ (by omega)
  block := .of_error _ _ (by omega)
  statements := .of_error _ _ (by omega)
  statement := .of_error _ _ (by omega)
  choice := .of_error _ _ (by omega)
  params := .of_error _ _ (by omega)
  members _ := .of_error _ _ (by omega)
  imports tokens closed := by
    refine ⟨?_, fun fits => by omega⟩
    rintro _ _ ⟨⟩
    exact .refl closed

/-- With fuel for some size, what lies deeper is not reached up to that size. -/
theorem descent (extra : List Token) (cutoff : Descent) (fuel : Nat) :
    AgreeUpTo extra fuel (descent fuel) (Descent.deeper^[fuel] cutoff) := by
  induction fuel with
  | zero => exact exhausted extra cutoff
  | succ fuel below =>
    rw [descent_succ, Function.iterate_succ_apply']
    exact below.deeper

end AgreeUpTo

end QueryFusion.Script
