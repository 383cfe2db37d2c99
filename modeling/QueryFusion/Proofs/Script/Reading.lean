import QueryFusion.Proofs.Script.Places
import QueryFusion.Proofs.Script.Printing

/-!
# Reading expressions back

The tokens of a printed expression are read as that expression, whatever their places, as long as
what follows does not bind to it. The fuel of the parser is enough: between two tokens the descent
takes at most one step on each of its levels.
-/

namespace QueryFusion.Script

open Descent

/-! ## Tokens in their places -/

/-- The token in another place. -/
def Token.at (token : Token) (place : Position) : Token :=
  { token with position := place }

section At

variable {token : Token} {place : Position}

@[simp] theorem Token.kind_at : (token.at place).kind = token.kind :=
  rfl

@[simp] theorem Token.literal_at : (token.at place).literal = token.literal :=
  rfl

@[simp] theorem Token.position_at : (token.at place).position = place :=
  rfl

@[simp] theorem Token.isOperator_at (symbol : String) :
    (token.at place).isOperator symbol = token.isOperator symbol :=
  rfl

@[simp] theorem Token.isPunctuator_at (symbol : String) :
    (token.at place).isPunctuator symbol = token.isPunctuator symbol :=
  rfl

@[simp] theorem Token.isKeyword_at (word : String) :
    (token.at place).isKeyword word = token.isKeyword word :=
  rfl

@[simp] theorem Token.isEnd_at : (token.at place).isEnd = token.isEnd :=
  rfl

@[simp] theorem isNumber_at : isNumber (token.at place) = isNumber token :=
  rfl

@[simp] theorem operatorAt?_at (level : Nat) :
    operatorAt? level (token.at place) = operatorAt? level token :=
  rfl

end At

/-- The tokens are those given, in some places. -/
def Placed (placed tokens : List Token) : Prop :=
  placed.map Token.bare = tokens

namespace Placed

variable {placed tokens others : List Token} {plain : Token}

/-- Places do not change the number of tokens. -/
theorem length_eq (same : Placed placed tokens) : placed.length = tokens.length := by
  rw [← same, List.length_map]

/-- No tokens are in no places. -/
theorem of_nil (same : Placed placed []) : placed = [] :=
  List.map_eq_nil_iff.1 same

/-- The first of the tokens. -/
theorem of_cons (same : Placed placed (plain :: tokens)) :
    ∃ place rest, placed = plain.at place :: rest ∧ Placed rest tokens := by
  obtain ⟨token, rest, rfl, here, others⟩ := List.map_eq_cons_iff.1 same
  refine ⟨token.position, rest, ?_, others⟩
  rw [← here]
  rfl

/-- The only token. -/
theorem of_singleton (same : Placed placed [plain]) : ∃ place, placed = [plain.at place] := by
  obtain ⟨place, rest, rfl, none⟩ := same.of_cons
  rw [none.of_nil]
  exact ⟨place, rfl⟩

/-- The two parts of the tokens. -/
theorem of_append (same : Placed placed (tokens ++ others)) :
    ∃ first second, placed = first ++ second ∧ Placed first tokens ∧ Placed second others :=
  List.map_eq_append_iff.1 same

end Placed

/-- The first token is the next one. -/
@[simp] theorem current_cons (token : Token) (rest : List Token) :
    current (token :: rest) = token :=
  rfl

/-- Behind a token that does not end the input stand the others. -/
@[simp] theorem behind_cons (token : Token) (rest : List Token) :
    behind (token :: rest) = if token.isEnd then token :: rest else rest :=
  rfl

/-- A token of a kind that is expected is read. -/
theorem expect_cons {test : Token → Bool} {token : Token} (fits : test token = true)
    (inner : token.isEnd = false) (expected : String) (rest : List Token) :
    expect test expected (token :: rest) = .ok (token.position, rest) := by
  simp [expect, fits, inner]

/-- A punctuator that is expected is read. -/
@[simp] theorem expectPunctuator_mark (symbol : String) (place : Position) (rest : List Token) :
    expectPunctuator symbol ((Token.mark symbol).at place :: rest) = .ok (place, rest) :=
  expect_cons (by simp [Token.isPunctuator]) rfl _ rest

/-- An operator that is expected is read. -/
@[simp] theorem expectOperator_sign (symbol : String) (place : Position) (rest : List Token) :
    expectOperator symbol ((Token.sign symbol).at place :: rest) = .ok (place, rest) :=
  expect_cons (by simp [Token.isOperator]) rfl _ rest

/-- A keyword that is expected is read. -/
@[simp] theorem expectKeyword_reserved (word : String) (place : Position) (rest : List Token) :
    expectKeyword word ((Token.reserved word).at place :: rest) = .ok (place, rest) :=
  expect_cons (by simp [Token.isKeyword]) rfl _ rest

/-- A name is read. -/
@[simp] theorem expectIdentifier_named (name : String) (place : Position) (rest : List Token) :
    expectIdentifier ((Token.named name).at place :: rest) = .ok ((name, place), rest) :=
  rfl

/-! ## What may follow -/

/-- The token binds less tightly than the level to what stands before it. -/
structure Stops (level : Nat) (token : Token) : Prop where
  point : token.isPunctuator "." = false
  opening : token.isPunctuator "(" = false
  cast : token.isKeyword "as" = false
  operators : ∀ other, level ≤ other + 1 → operatorAt? other token = none
  question : level = 0 → token.isOperator "?" = false

/-- An operator of a level is one of that level. -/
theorem operatorAt?_eq_some {level : Nat} {token : Token} {op : BinaryOp}
    (found : operatorAt? level token = some op) :
    op.level = level + 1 ∧ token.isOperator op.symbol = true := by
  unfold operatorAt? at found
  have written := List.find?_some found
  have member := List.mem_of_find?_eq_some found
  refine ⟨?_, written⟩
  match level with
  | 0 | 1 | 2 | 3 | 4 | 5 =>
    simp only [binaryLevels, List.getD_cons_zero, List.getD_cons_succ, List.mem_cons,
      List.not_mem_nil, or_false] at member
    rcases member with rfl | rfl | rfl | rfl <;> rfl
  | more + 6 => simp [binaryLevels] at member

/-- An operator is found on its level. -/
theorem operatorAt?_sign (op : BinaryOp) :
    operatorAt? (op.level - 1) (.sign op.symbol) = some op := by
  cases op <;> decide

/-- Binary operators bind less tightly than unary ones. -/
theorem BinaryOp.level_lt (op : BinaryOp) : op.level < 7 := by
  cases op <;> decide

/-- Operators are told apart by their signs. -/
theorem BinaryOp.symbol_inj {first second : BinaryOp} (same : first.symbol = second.symbol) :
    first = second := by
  revert same
  cases first <;> cases second <;> decide

namespace Stops

/-- What is no operator stops, except for a point, an opening parenthesis and a cast. -/
theorem of_kind {token : Token} (other : token.kind ≠ .operator)
    (point : token.isPunctuator "." = false) (opening : token.isPunctuator "(" = false)
    (cast : token.isKeyword "as" = false) (level : Nat) : Stops level token := by
  have none : ∀ symbol, token.isOperator symbol = false := by
    intro symbol
    simp [Token.isOperator, other]
  refine ⟨point, opening, cast, fun level _ => ?_, fun _ => none "?"⟩
  cases found : operatorAt? level token with
  | none => rfl
  | some op =>
    have sign := (operatorAt?_eq_some found).2
    rw [none] at sign
    cases sign

/-- A punctuator stops, except for a point and an opening parenthesis. -/
theorem mark (symbol : String) (other : symbol ∉ [".", "("]) (level : Nat) (place : Position) :
    Stops level ((Token.mark symbol).at place) := by
  simp only [List.mem_cons, List.not_mem_nil, or_false, not_or] at other
  exact of_kind (by simp) (by simp [Token.isPunctuator, other.1])
    (by simp [Token.isPunctuator, other.2]) rfl level

/-- An operator stops what binds more tightly. -/
theorem sign (op : BinaryOp) {level : Nat} (tighter : op.level < level) :
    Stops level (.sign op.symbol) := by
  refine ⟨rfl, rfl, rfl, fun other above => ?_, fun zero => by omega⟩
  cases found : operatorAt? other (.sign op.symbol) with
  | none => rfl
  | some read =>
    obtain ⟨same, written⟩ := operatorAt?_eq_some found
    have sign : op.symbol = read.symbol := by simpa [Token.isOperator] using written
    rw [← BinaryOp.symbol_inj sign] at same
    omega

/-- A sign that is no operator stops; a question mark goes on with whole expressions only. -/
theorem other_sign {symbol : String} {level : Nat} (none : ∀ op : BinaryOp, op.symbol ≠ symbol)
    (question : level = 0 → symbol ≠ "?") : Stops level (.sign symbol) := by
  refine ⟨rfl, rfl, rfl, fun other _ => ?_, fun zero => ?_⟩
  · cases found : operatorAt? other (.sign symbol) with
    | none => rfl
    | some op =>
      have written := (operatorAt?_eq_some found).2
      have same : symbol = op.symbol := by simpa [Token.isOperator] using written
      exact absurd same.symm (none op)
  · simp [Token.isOperator, question zero]

/-- A question mark stops all but whole expressions. -/
theorem question_sign {level : Nat} (inner : 0 < level) : Stops level (.sign "?") :=
  other_sign (by intro op; cases op <;> decide) (by omega)

/-- What stops whole expressions does not go on with the argument of a type. -/
theorem less {token : Token} (stops : Stops 0 token) : token.isOperator "<" = false := by
  have none := stops.operators 3 (by omega)
  rw [operatorAt?, List.find?_eq_none] at none
  exact Bool.eq_false_iff.2 (none .less (by decide))

/-- What stops a level stops those that bind more tightly. -/
theorem mono {token : Token} {level more : Nat} (stops : Stops level token)
    (tighter : level ≤ more) :
    Stops more token :=
  ⟨stops.point, stops.opening, stops.cast,
    fun other above => stops.operators other (Nat.le_trans tighter above),
    fun zero => stops.question (by omega)⟩

/-- The place of a token does not matter. -/
theorem placed {token : Token} {level : Nat} (stops : Stops level token) (place : Position) :
    Stops level (token.at place) :=
  ⟨stops.point, stops.opening, stops.cast, stops.operators, stops.question⟩

end Stops

/-! ## Names and types -/

/-- The parts behind the first one, each with a point before it, are read up to something else. -/
theorem dottedTail_eq {placed rest : List Token} {name : String} {parts : List String}
    (same : Placed placed (parts.flatMap fun part => [.mark ".", .named part]))
    (stops : (current rest).isPunctuator "." = false) :
    dottedTail name (placed ++ rest) = .ok (String.intercalate "." (name :: parts), rest) := by
  induction parts generalizing name placed with
  | nil =>
    rw [same.of_nil, List.nil_append]
    cases rest with
    | nil => simp [dottedTail]
    | cons token rest =>
      rw [current_cons] at stops
      unfold dottedTail
      simp [stops]
  | cons part parts step =>
    obtain ⟨here, more, rfl, after⟩ := Placed.of_cons same
    obtain ⟨there, behind, rfl, others⟩ := Placed.of_cons after
    have joined : String.intercalate "." ((name ++ "." ++ part) :: parts) =
        String.intercalate "." (name :: part :: parts) := by
      rw [← String.toList_inj]
      cases parts <;> simp
    rw [← joined, ← step others]
    simp [dottedTail, Token.isPunctuator]

/-- Things with a token between them are the first one, and the others behind that token each. -/
theorem separated_cons (separator : Token) (first : List Token) (others : List (List Token)) :
    separated separator (first :: others) = first ++ others.flatMap (separator :: ·) := by
  unfold separated
  induction others generalizing first with
  | nil => simp
  | cons second others step => simp [step second]

/-- A dotted name is read. -/
theorem parseDotted_eq {placed rest : List Token} {name : String}
    (same : Placed placed (dottedTokens name))
    (stops : (current rest).isPunctuator "." = false) :
    ∃ place, parseDotted (placed ++ rest) = .ok ((name, place), rest) := by
  have somePart : dottedParts name ≠ [] := by simp [dottedParts, segmentsOf_ne_nil]
  obtain ⟨first, parts, shape⟩ := List.exists_cons_of_ne_nil somePart
  have whole := Prints.intercalate_dottedParts name
  rw [shape] at whole
  rw [dottedTokens, shape, List.map_cons, separated_cons, List.flatMap_map] at same
  obtain ⟨place, more, rfl, others⟩ := Placed.of_cons same
  refine ⟨place, ?_⟩
  have behind := @dottedTail_eq more rest first parts others stops
  rw [whole] at behind
  rw [parseDotted, List.cons_append, expectIdentifier_named, ok_bind]
  simp [behind]

/-- A type is read. -/
theorem parseType_eq {placed rest : List Token} {type : TypeName}
    (same : Placed placed type.tokens)
    (stops : type.argument = none → (current rest).isOperator "<" = false) :
    ∃ read, type.Alike read ∧ parseType (placed ++ rest) = .ok (read, rest) := by
  unfold TypeName.tokens at same
  cases known : type.argument with
  | none =>
    rw [known] at same
    obtain ⟨place, rfl⟩ := Placed.of_singleton same
    exact ⟨⟨type.name, none, place⟩, ⟨rfl, known⟩, by simp [parseType, stops known]⟩
  | some argument =>
    rw [known] at same
    obtain ⟨here, more, rfl, others⟩ := Placed.of_cons same
    obtain ⟨there, further, rfl, inside⟩ := Placed.of_cons others
    obtain ⟨inner, closing, rfl, dotted, last⟩ := Placed.of_append inside
    obtain ⟨place, rfl⟩ := last.of_singleton
    obtain ⟨start, read⟩ := @parseDotted_eq inner ((Token.sign ">").at place :: rest)
      argument dotted rfl
    refine ⟨⟨type.name, some argument, here⟩, ⟨rfl, known⟩, ?_⟩
    simp [parseType, Token.isOperator, Token.isEnd, read]

/-! ## Levels of the descent -/

/-- Reads what binds as tightly as the level, or more. -/
def parseAt (fuel : Nat) : Nat → List Token → Except Diagnostic (Term × List Token)
  | 0 => (descent fuel).expression
  | level + 1 => (descent fuel).binary level

/-- No operator is tried behind the last level. -/
theorem binary_last (fuel : Nat) (tokens : List Token) :
    (descent (fuel + 1)).binary 6 tokens = (descent fuel).unary tokens := by
  rw [descent_binary, readBinary, if_neg (by simp [binaryLevels])]

/-- One level down, when nothing of that level follows. -/
theorem parseAt_of_succ {fuel level : Nat} {tokens rest : List Token} {term : Term}
    (read : parseAt fuel (level + 1) tokens = .ok (term, rest)) (below : level < 7)
    (someFuel : 0 < fuel) (stops : Stops level (current rest)) :
    parseAt (fuel + 1) level tokens = .ok (term, rest) := by
  obtain ⟨less, rfl⟩ : ∃ less, fuel = less + 1 := ⟨fuel - 1, by omega⟩
  cases level with
  | zero =>
    have read : (descent (less + 1)).binary 0 tokens = .ok (term, rest) := read
    show (descent (less + 1 + 1)).expression tokens = .ok (term, rest)
    rw [descent_expression, readExpression, read]
    simp [stops.question rfl]
  | succ level =>
    have read : (descent (less + 1)).binary (level + 1) tokens = .ok (term, rest) := read
    show (descent (less + 1 + 1)).binary level tokens = .ok (term, rest)
    rw [descent_binary, readBinary, if_pos (by simp [binaryLevels]; omega), read, ok_bind]
    simp only [descent_binaryTail, readBinaryTail, stops.operators level (Nat.le_refl _)]

/-- The token ends what stands before it, also a type without an argument: the sign `<` would open
the argument. -/
def EndsType (typed : Bool) (token : Token) : Prop :=
  typed = true → token.isOperator "<" = false

/-- The tokens are read as the expression on a level of the descent. -/
def ReadsAt (typed : Bool) (level : Nat) (tokens : List Token) (term : Term) : Prop :=
  ∀ (placed rest : List Token) (fuel : Nat), Placed placed tokens → Stops level (current rest) →
    EndsType typed (current rest) → 16 * placed.length ≤ fuel + level → ∃ read, term.Alike read ∧
      parseAt fuel level (placed ++ rest) = .ok (read, rest)

/-- The tokens are read as a left operand, behind which the operators of a level are read. -/
def ReadsLeft (typed : Bool) (level : Nat) (tokens : List Token) (term : Term) : Prop :=
  ∀ (placed rest : List Token) (fuel : Nat), Placed placed tokens →
    Stops (level + 2) (current rest) → EndsType typed (current rest) →
    16 * placed.length ≤ fuel + level + 1 → ∃ left read, term.Alike read ∧
      fuel ≤ left + placed.length ∧
      (descent fuel).binary level (placed ++ rest) = (descent left).binaryTail level read rest

/-- The tokens are read as the expression before anything that may follow it: a member, a call of
one, or a cast of it as well. -/
def ReadsTight (typed : Bool) (tokens : List Token) (term : Term) : Prop :=
  ∀ (placed rest : List Token) (fuel : Nat), Placed placed tokens →
    (current rest).isPunctuator "(" = false → EndsType typed (current rest) →
    16 * placed.length ≤ fuel + 8 → ∃ left read, term.Alike read ∧
      fuel ≤ left + placed.length ∧ (descent fuel).unary
        (placed ++ rest) = (descent left).suffixed read rest

/-- An expression may start with the token. -/
def Token.opens (token : Token) : Bool :=
  match token.kind with
  | .integer | .float | .string | .identifier => true
  | .keyword => token.literal ∈ ["true", "false", "null", "this"]
  | .operator => token.literal ∈ ["!", "-"]
  | .punctuator => token.literal ∈ ["(", "["]
  | .endOfInput => false

/-- An expression starts with no other punctuator. -/
theorem Token.isPunctuator_of_opens {token : Token} (opens : token.opens = true) {symbol : String}
    (other : symbol ∉ ["(", "["]) : token.isPunctuator symbol = false := by
  rw [Token.isPunctuator, Bool.and_eq_false_iff, beq_eq_false_iff_ne, beq_eq_false_iff_ne]
  by_cases mark : token.kind = .punctuator
  · refine .inr fun same => other ?_
    rw [Token.opens, mark, same] at opens
    simpa using opens
  · exact .inl mark

/-- An expression starts with no other keyword. -/
theorem Token.isKeyword_of_opens {token : Token} (opens : token.opens = true) {word : String}
    (other : word ∉ ["true", "false", "null", "this"]) : token.isKeyword word = false := by
  rw [Token.isKeyword, Bool.and_eq_false_iff, beq_eq_false_iff_ne, beq_eq_false_iff_ne]
  by_cases reserved : token.kind = .keyword
  · refine .inr fun same => other ?_
    rw [Token.opens, reserved, same] at opens
    simpa using opens
  · exact .inl reserved

/-- The tokens are read as the expression by what binds as tightly as the level. If they are typed,
they end with a type without an argument. -/
structure ReadsBefore (typed : Bool) (level : Nat) (tokens : List Token) (term : Term) : Prop where
  opens : tokens.head?.any Token.opens = true
  reads : if level < 8 then ReadsAt typed level tokens term else ReadsTight typed tokens term
  left : ∀ below, level = below + 1 → below < 6 → ReadsLeft typed below tokens term

/-- The tokens are read as the expression, whatever sign follows. -/
abbrev Reads : Nat → List Token → Term → Prop :=
  ReadsBefore false

namespace ReadsBefore

variable {typed : Bool} {level bound : Nat} {tokens : List Token} {term : Term}

/-- An expression has a first token. -/
theorem cons (reads : ReadsBefore typed level tokens term) :
    ∃ first others, tokens = first :: others ∧ first.opens = true := by
  have opens := reads.opens
  cases tokens with
  | nil => cases opens
  | cons first others => exact ⟨first, others, rfl, opens⟩

/-- Some token is placed. -/
theorem length_pos {placed : List Token} (reads : ReadsBefore typed level tokens term)
    (same : Placed placed tokens) : 0 < placed.length := by
  obtain ⟨first, others, rfl, -⟩ := reads.cons
  rw [same.length_eq]
  exact Nat.succ_pos _

/-- More tokens start with the same one. -/
theorem opens_append (reads : ReadsBefore typed level tokens term) (more : List Token) :
    (tokens ++ more).head?.any Token.opens = true := by
  obtain ⟨first, others, rfl, opens⟩ := reads.cons
  exact opens

/-- Tokens read on a level. -/
theorem loose (reads : ReadsBefore typed level tokens term) (below : level < 8) :
    ReadsAt typed level tokens term := by
  have known := reads.reads
  rwa [if_pos below] at known

/-- Tokens read before anything. -/
theorem tight (reads : ReadsBefore typed 8 tokens term) : ReadsTight typed tokens term := by
  have known := reads.reads
  rwa [if_neg (Nat.lt_irrefl 8)] at known

/-- What is read before any sign is read before those that may follow a type. -/
theorem weaken (reads : Reads level tokens term) : ReadsBefore typed level tokens term := by
  have free : ∀ token, EndsType false token := fun _ never => nomatch never
  refine ⟨reads.opens, ?_, fun below same bound placed rest fuel given stops _ =>
    reads.left below same bound placed rest fuel given stops (free _)⟩
  have known := reads.reads
  split_ifs at known ⊢
  · exact fun placed rest fuel given stops _ => known placed rest fuel given stops (free _)
  · exact fun placed rest fuel given apart _ => known placed rest fuel given apart (free _)

/-- A whole expression is never read before a sign that goes on with it. -/
theorem closed (reads : ReadsBefore typed 0 tokens term) : Reads 0 tokens term := by
  refine ⟨reads.opens, ?_, fun below same => by omega⟩
  rw [if_pos (by omega)]
  exact fun placed rest fuel given stops _ =>
    reads.loose (by omega) placed rest fuel given stops fun _ => stops.less

/-- Tokens read before anything are so because of how the first of them are read. -/
theorem intro_tight (opens : tokens.head?.any Token.opens = true)
    (tight : ReadsTight typed tokens term) : ReadsBefore typed 8 tokens term :=
  ⟨opens, by rwa [if_neg (Nat.lt_irrefl 8)], fun below same bound => by omega⟩

/-- Tokens read on a level without operators of its own. -/
theorem intro_loose (opens : tokens.head?.any Token.opens = true) (edge : level = 0 ∨ level = 7)
    (loose : ReadsAt typed level tokens term) : ReadsBefore typed level tokens term :=
  ⟨opens, by rwa [if_pos (by omega)], fun below same bound => by omega⟩

/-- Tokens read as a left operand are read on their level, when nothing of that level follows. -/
theorem intro_left (opens : tokens.head?.any Token.opens = true) (below : level < 6)
    (left : ReadsLeft typed level tokens term) : ReadsBefore typed (level + 1) tokens term := by
  refine ⟨opens, ?_, fun other same _ => Nat.succ.inj same ▸ left⟩
  rw [if_pos (by omega)]
  intro placed rest fuel same stops follows enough
  have someToken : 0 < placed.length := by
    cases tokens with
    | nil => cases opens
    | cons first others =>
      rw [same.length_eq]
      exact Nat.succ_pos _
  obtain ⟨more, read, alike, bounded, parsed⟩ :=
    left placed rest fuel same (stops.mono (Nat.le_succ _)) follows enough
  obtain ⟨less, rfl⟩ : ∃ less, more = less + 1 := ⟨more - 1, by omega⟩
  refine ⟨read, alike, ?_⟩
  show (descent fuel).binary level (placed ++ rest) = .ok (read, rest)
  rw [parsed, descent_binaryTail, readBinaryTail, stops.operators level (Nat.le_refl _)]

/-- What is read before anything is read where nothing follows. -/
theorem of_tight (reads : ReadsBefore typed 8 tokens term) : ReadsBefore typed 7 tokens term := by
  refine intro_loose reads.opens (.inr rfl) fun placed rest fuel same stops follows enough => ?_
  have someToken := reads.length_pos same
  obtain ⟨less, rfl⟩ : ∃ less, fuel = less + 1 := ⟨fuel - 1, by omega⟩
  obtain ⟨left, read, alike, bounded, parsed⟩ :=
    reads.tight placed rest less same stops.opening follows (by omega)
  obtain ⟨few, rfl⟩ : ∃ few, left = few + 1 := ⟨left - 1, by omega⟩
  refine ⟨read, alike, ?_⟩
  show (descent (less + 1)).binary 6 (placed ++ rest) = .ok (read, rest)
  rw [binary_last, parsed, descent_suffixed, readSuffixed]
  simp [stops.point, stops.cast]

/-- What is read on a level is read one level down, and a left operand there. -/
theorem of_succ (reads : ReadsBefore typed (level + 1) tokens term) (below : level < 7) :
    ReadsBefore typed level tokens term := by
  cases level with
  | zero =>
    refine intro_loose reads.opens (.inl rfl) fun placed rest fuel same stops follows enough => ?_
    have someToken := reads.length_pos same
    obtain ⟨less, rfl⟩ : ∃ less, fuel = less + 1 := ⟨fuel - 1, by omega⟩
    obtain ⟨read, alike, parsed⟩ := reads.loose (by omega) placed rest less same
      (stops.mono (Nat.le_succ 0)) follows (by omega)
    exact ⟨read, alike, parseAt_of_succ parsed below (by omega) stops⟩
  | succ level =>
    refine intro_left reads.opens (by omega) fun placed rest fuel same stops follows enough => ?_
    have someToken := reads.length_pos same
    obtain ⟨less, rfl⟩ : ∃ less, fuel = less + 1 := ⟨fuel - 1, by omega⟩
    obtain ⟨read, alike, parsed⟩ := reads.loose (by omega) placed rest less same stops follows
      (by omega)
    have parsed : (descent less).binary (level + 1) (placed ++ rest) = .ok (read, rest) := parsed
    refine ⟨less, read, alike, by omega, ?_⟩
    rw [descent_binary, readBinary, if_pos (by simp [binaryLevels]; omega), parsed]
    rfl

/-- What is read on a level is read on all that bind less tightly. -/
theorem of_le (reads : ReadsBefore typed level tokens term) (looser : bound ≤ level)
    (known : level ≤ 8) : ReadsBefore typed bound tokens term := by
  induction level with
  | zero =>
    obtain rfl : bound = 0 := by omega
    exact reads
  | succ level step =>
    by_cases same : bound = level + 1
    · exact same ▸ reads
    · refine step ?_ (by omega) (by omega)
      by_cases last : level = 7
      · subst last
        exact reads.of_tight
      · exact reads.of_succ (by omega)

/-- An expression that starts with a token of its own kind is read before anything. -/
theorem of_primary {tokens : List Token} {term : Term} {first : Token} {others : List Token}
    (shape : tokens = first :: others) (opens : first.opens = true)
    (notNot : first.isOperator "!" = false) (notMinus : first.isOperator "-" = false)
    (primary : ∀ placed rest fuel, Placed placed tokens → 16 * placed.length ≤ fuel + 9 →
      ∃ read, term.Alike read ∧ (descent fuel).primary (placed ++ rest) = .ok (read, rest)) :
    Reads 8 tokens term := by
  refine intro_tight (by simpa [shape] using opens) fun placed rest fuel same _ _ enough => ?_
  have positive : 0 < placed.length := by simp [same.length_eq, shape]
  obtain ⟨less, rfl⟩ : ∃ less, fuel = less + 1 := ⟨fuel - 1, by omega⟩
  obtain ⟨read, alike, parsed⟩ := primary placed rest less same (by omega)
  refine ⟨less, read, alike, by omega, ?_⟩
  rw [shape] at same
  obtain ⟨place, more, rfl, -⟩ := same.of_cons
  rw [descent_unary, readUnary, parsed]
  simp [notNot, notMinus]

/-- A whole expression is read before what stops it. -/
theorem expression (reads : ReadsBefore typed 0 tokens term) {placed : List Token} {next : Token}
    {fuel : Nat} (same : Placed placed tokens) (stops : Stops 0 next)
    (enough : 16 * placed.length ≤ fuel) (rest : List Token) : ∃ read, term.Alike read ∧
      (descent fuel).expression (placed ++ next :: rest) = .ok (read, next :: rest) :=
  reads.loose (by omega) placed (next :: rest) fuel same stops (fun _ => stops.less) enough

/-- An expression in parentheses is read before anything. -/
theorem parens (reads : ReadsBefore typed 0 tokens term) :
    Reads 8 (Token.mark "(" :: tokens ++ [Token.mark ")"]) term := by
  refine of_primary rfl rfl rfl rfl fun placed rest fuel same enough => ?_
  have same : Placed placed (.mark "(" :: (tokens ++ [Token.mark ")"])) := same
  obtain ⟨place, more, rfl, others⟩ := same.of_cons
  obtain ⟨inner, closing, rfl, inside, last⟩ := others.of_append
  obtain ⟨there, rfl⟩ := last.of_singleton
  simp only [List.length_cons, List.length_append, List.length_nil] at enough
  obtain ⟨less, rfl⟩ : ∃ less, fuel = less + 1 := ⟨fuel - 1, by omega⟩
  obtain ⟨read, alike, parsed⟩ :=
    reads.expression inside (.mark ")" (by decide) 0 there) (by omega : _ ≤ less) rest
  refine ⟨read, alike, ?_⟩
  rw [descent_primary, readPrimary]
  simp [isNumber, Token.isPunctuator, Token.isEnd, parsed]

/-- An expression in parentheses, where they are needed, is read on the level that asks for them.
Behind a parenthesis any sign may follow. -/
theorem enclosed (reads : ReadsBefore typed level tokens term) (known : level ≤ 8)
    (asked : bound ≤ 8) :
    ReadsBefore (typed && bound ≤ level) bound (encloseTokens bound level tokens) term := by
  unfold encloseTokens
  split
  · rename_i tighter
    rw [decide_eq_true tighter, Bool.and_true]
    exact reads.of_le tighter known
  · exact ((reads.of_le (Nat.zero_le level) known).parens.of_le asked (Nat.le_refl 8)).weaken

/-- A number is read before anything, with the sign in front of it. -/
theorem number {token : Token} {negative : Bool} (numeric : isNumber token = true)
    (known : ∀ here there, ∃ read, term.Alike read ∧
      numberOf (token.at there) negative here = .ok read) :
    Reads 8 ((if negative then [Token.sign "-"] else []) ++ [token]) term := by
  have inner : token.kind ≠ .endOfInput := by
    revert numeric
    unfold isNumber
    cases token.kind <;> decide
  have plain : ∀ symbol, token.isOperator symbol = false := by
    intro symbol
    revert numeric
    unfold isNumber Token.isOperator
    cases token.kind <;> simp
  have opens : token.opens = true := by
    revert numeric
    unfold isNumber Token.opens
    cases token.kind <;> simp
  cases negative with
  | false =>
    refine of_primary rfl opens (plain "!") (plain "-") fun placed rest fuel same enough => ?_
    obtain ⟨there, rfl⟩ := Placed.of_singleton same
    rw [List.length_singleton] at enough
    obtain ⟨less, rfl⟩ : ∃ less, fuel = less + 1 := ⟨fuel - 1, by omega⟩
    obtain ⟨read, alike, found⟩ := known there there
    refine ⟨read, alike, ?_⟩
    simp [descent_primary, readPrimary, Token.isEnd, numeric, found, inner]
  | true =>
    refine intro_tight rfl fun placed rest fuel same _ _ enough => ?_
    obtain ⟨here, more, rfl, others⟩ := Placed.of_cons same
    obtain ⟨there, rfl⟩ := others.of_singleton
    rw [List.length_cons, List.length_singleton] at enough
    obtain ⟨less, rfl⟩ : ∃ less, fuel = less + 1 := ⟨fuel - 1, by omega⟩
    obtain ⟨read, alike, found⟩ := known here there
    refine ⟨less, read, alike, by simp, ?_⟩
    simp [descent_unary, readUnary, Token.isOperator, Token.isEnd, numeric, found, inner]

/-- The digits of a number and its sign are its value. -/
theorem signedValue_toDigits (number : Int) :
    signedValue (decide (number < 0)) (Nat.toDigits 10 number.natAbs) = number := by
  unfold signedValue
  rw [valueOf_toDigits]
  by_cases below : number < 0
  · rw [if_pos (by simpa using below)]
    omega
  · rw [if_neg (by simpa using below)]
    omega

/-- The value of an integer with its sign. -/
theorem numberOf_integer (number : Int32) (here there : Position) :
    numberOf (Token.at ⟨.integer, String.ofList (Nat.toDigits 10 number.toInt.natAbs ++ []), .first⟩
      there) (decide (number.toInt < 0)) here = .ok (.int here number) := by
  have digits := isDigits_toDigits number.toInt.natAbs
  have last : (Nat.toDigits 10 number.toInt.natAbs).getLast? ≠ some 'L' := by
    intro found
    have member := List.mem_of_getLast? found
    simp only [isDigits, Bool.and_eq_true, List.all_eq_true] at digits
    have digit := digits.2 'L' member
    revert digit
    decide
  simp only [numberOf, Token.kind_at, Token.literal_at, String.toList_ofList, List.append_nil]
  rw [if_neg (by decide), if_neg last, signedValue_toDigits, int32?_toInt]

/-- An integer. -/
theorem integer (place : Position) (number : Int32) :
    Reads 8 (integerTokens number.toInt []) (.int place number) :=
  ReadsBefore.number rfl fun here there =>
    ⟨.int here number, .int, numberOf_integer number here there⟩

/-- A long integer. -/
theorem long (place : Position) (number : Int64) :
    Reads 8 (integerTokens number.toInt ['L']) (.bigInt place number) := by
  refine ReadsBefore.number rfl fun here there => ⟨.bigInt here number, .bigInt, ?_⟩
  simp only [numberOf, Token.kind_at, Token.literal_at, String.toList_ofList,
    List.getLast?_append, List.getLast?_singleton, List.dropLast_concat]
  rw [if_neg (by decide), if_pos (by simp), signedValue_toDigits, int64?_toInt]

/-- A finite double. -/
theorem double (place : Position) {number : Double} (finite : number.isFinite = true) :
    Reads 8 (doubleTokens number) (.double place number) := by
  refine ReadsBefore.number rfl fun here there => ⟨.double here number, .double, ?_⟩
  simp only [numberOf, Token.kind_at, Token.literal_at, String.toList_ofList, if_true]
  rw [Numeral.doubleOf_literal finite]

/-- One token that is an expression by itself. -/
theorem atom {token : Token} (opens : token.opens = true) (plain : token.kind ≠ .operator)
    (other : isNumber token = false) (mark : token.kind ≠ .punctuator)
    (known : ∀ place, ∃ read, term.Alike read ∧ atom? (token.at place) = some read) :
    Reads 8 [token] term := by
  have none : ∀ symbol, token.isOperator symbol = false := by
    intro symbol
    simp [Token.isOperator, plain]
  refine of_primary rfl opens (none "!") (none "-") fun placed rest fuel same enough => ?_
  obtain ⟨place, rfl⟩ := Placed.of_singleton same
  rw [List.length_singleton] at enough
  obtain ⟨less, rfl⟩ : ∃ less, fuel = less + 1 := ⟨fuel - 1, by omega⟩
  obtain ⟨read, alike, found⟩ := known place
  have inner : token.kind ≠ .endOfInput := by
    intro ends
    rw [Token.opens, ends] at opens
    cases opens
  refine ⟨read, alike, ?_⟩
  simp [descent_primary, readPrimary, other, Token.isPunctuator, mark, found, Token.isEnd, inner]

/-- One number of an array, and what follows it. -/
theorem ints_number {number : Int32} {taken : List Int32} {placed : List Token}
    {token : Token} {negative : Bool} (integer : token.kind = .integer)
    (known : ∀ here there, numberOf (token.at there) negative here = .ok (.int here number))
    (same : Placed placed ((if negative then [Token.sign "-"] else []) ++ [token])) (fuel : Nat)
    (rest : List Token) :
    (descent (fuel + 1)).ints taken (placed ++ rest) =
      if (current rest).isPunctuator "," then (descent fuel).ints (number :: taken) (behind rest)
      else expectPunctuator "]" rest >>= fun read => .ok ((number :: taken).reverse, read.2) := by
  cases negative with
  | false =>
    have plain : token.isOperator "-" = false := by simp [Token.isOperator, integer]
    obtain ⟨there, rfl⟩ := Placed.of_singleton same
    simp [descent_ints, readInts, plain, Token.isEnd, integer, known]
  | true =>
    obtain ⟨here, more, rfl, others⟩ := Placed.of_cons same
    obtain ⟨there, rfl⟩ := Placed.of_singleton others
    simp [descent_ints, readInts, Token.isOperator, Token.isEnd, integer, known]

/-- Numbers with commas between them, up to the closing bracket. -/
theorem ints_eq {first : Int32} {others taken : List Int32} {placed rest : List Token}
    {place : Position} {fuel : Nat}
    (same : Placed placed (integerTokens first.toInt [] ++
      others.flatMap fun number => .mark "," :: integerTokens number.toInt []))
    (enough : placed.length ≤ fuel) :
    (descent fuel).ints taken (placed ++ (Token.mark "]").at place :: rest) =
      .ok (taken.reverse ++ first :: others, rest) := by
  induction others generalizing first taken placed fuel with
  | nil =>
    rw [List.flatMap_nil, List.append_nil] at same
    have someToken := (integer .first first).length_pos same
    obtain ⟨less, rfl⟩ : ∃ less, fuel = less + 1 := ⟨fuel - 1, by omega⟩
    rw [ints_number rfl (numberOf_integer first) same]
    simp [Token.isPunctuator]
  | cons second others step =>
    obtain ⟨front, back, rfl, number, numbers⟩ := same.of_append
    obtain ⟨comma, more, rfl, further⟩ := Placed.of_cons numbers
    have someToken := (integer .first first).length_pos number
    rw [List.length_append, List.length_cons] at enough
    obtain ⟨less, rfl⟩ : ∃ less, fuel = less + 1 := ⟨fuel - 1, by omega⟩
    have later := @step second (first :: taken) more less further (by omega)
    rw [List.append_assoc, ints_number rfl (numberOf_integer first) number]
    simp [Token.isPunctuator, Token.isEnd, later]

/-- Arguments with commas between them, up to the closing parenthesis. -/
theorem argumentList_eq {lists : List (List Token)} {terms : List Term}
    (each : List.Forall₂ (Reads 0) lists terms) (present : lists ≠ []) {placed : List Token}
    {fuel : Nat} (same : Placed placed (separated (.mark ",") lists))
    (enough : 16 * placed.length < fuel) (place : Position) (rest : List Token) :
    ∃ reads, Term.AllAlike terms reads ∧
      (descent fuel).argumentList (placed ++ (Token.mark ")").at place :: rest) =
        .ok (reads, (Token.mark ")").at place :: rest) := by
  induction each generalizing placed fuel with
  | nil => exact absurd rfl present
  | @cons tokens term lists terms head tail step =>
    obtain ⟨less, rfl⟩ : ∃ less, fuel = less + 1 := ⟨fuel - 1, by omega⟩
    rw [separated_cons] at same
    obtain ⟨front, back, rfl, first, others⟩ := same.of_append
    rw [List.length_append] at enough
    cases tail with
    | nil =>
      rw [List.flatMap_nil] at others
      obtain ⟨read, alike, parsed⟩ := head.expression first (.mark ")" (by decide) 0 place)
        (by omega : _ ≤ less) rest
      refine ⟨[read], .cons alike .nil, ?_⟩
      rw [others.of_nil, List.append_nil, descent_argumentList, readArgumentList, parsed]
      simp [Token.isPunctuator]
    | @cons second next moreLists more following further =>
      rw [List.flatMap_cons] at others
      obtain ⟨comma, behind, rfl, after⟩ := Placed.of_cons others
      rw [List.length_cons] at enough
      obtain ⟨reads, alikes, rests⟩ := @step (by simp) behind less
        (by rwa [separated_cons]) (by omega)
      obtain ⟨read, alike, parsed⟩ := head.expression first (.mark "," (by decide) 0 comma)
        (by omega : _ ≤ less) (behind ++ (Token.mark ")").at place :: rest)
      refine ⟨read :: reads, .cons alike alikes, ?_⟩
      rw [List.append_assoc, List.cons_append, descent_argumentList, readArgumentList, parsed]
      simp [Token.isPunctuator, Token.isEnd, rests]

/-- Arguments in parentheses. -/
theorem arguments_eq {lists : List (List Token)} {terms : List Term}
    (each : List.Forall₂ (Reads 0) lists terms) {placed : List Token} {fuel : Nat}
    (same : Placed placed (separated (.mark ",") lists))
    (enough : 16 * placed.length + 1 < fuel) (here there : Position) (rest : List Token) :
    ∃ reads, Term.AllAlike terms reads ∧
      (descent fuel).arguments
      ((Token.mark "(").at here :: (placed ++ (Token.mark ")").at there :: rest)) =
        .ok (reads, rest) := by
  obtain ⟨less, rfl⟩ : ∃ less, fuel = less + 1 := ⟨fuel - 1, by omega⟩
  cases each with
  | nil =>
    rw [Placed.of_nil same]
    exact ⟨[], .nil, by simp [descent_arguments, readArguments, Token.isPunctuator, Token.isEnd]⟩
  | @cons tokens term lists terms head tail =>
    obtain ⟨reads, alikes, parsed⟩ := argumentList_eq (.cons head tail) (by simp) same
      (by omega : _ < less) there rest
    obtain ⟨first, others, rfl, opens⟩ := head.cons
    have inner := Token.isPunctuator_of_opens opens (by decide : ")" ∉ ["(", "["])
    rw [separated_cons] at same
    obtain ⟨place, more, rfl, -⟩ := Placed.of_cons same
    refine ⟨reads, alikes, ?_⟩
    rw [List.cons_append] at parsed
    simp [descent_arguments, readArguments, inner, parsed]

/-! ## Forms of expressions -/

variable {place : Position}

/-- A member of what is read before anything. -/
theorem member (reads : ReadsBefore typed 8 tokens term) (field : String) :
    Reads 8 (tokens ++ [Token.mark ".", Token.named field]) (.member place term field) := by
  refine intro_tight (reads.opens_append _) fun placed rest fuel same apart _ enough => ?_
  obtain ⟨front, back, rfl, inside, behind⟩ := same.of_append
  obtain ⟨here, more, rfl, last⟩ := Placed.of_cons behind
  obtain ⟨there, rfl⟩ := last.of_singleton
  have someToken := reads.length_pos inside
  rw [List.length_append, List.length_cons, List.length_singleton] at enough ⊢
  obtain ⟨left, read, alike, bounded, parsed⟩ := reads.tight front
    ((Token.mark ".").at here :: (Token.named field).at there :: rest) fuel inside rfl
    (fun _ => rfl) (by omega)
  obtain ⟨less, rfl⟩ : ∃ less, left = less + 1 := ⟨left - 1, by omega⟩
  refine ⟨less, .member here read field, .member alike, by omega, ?_⟩
  have point : (Token.mark ".").isPunctuator "." = true := rfl
  rw [List.append_assoc, List.cons_append, List.singleton_append, parsed, descent_suffixed,
    readSuffixed]
  simp [point, Token.isEnd, apart]

/-- A call of a method of what is read before anything. -/
theorem call (reads : ReadsBefore typed 8 tokens term) (method : String) {lists : List (List Token)}
    {terms : List Term} (each : List.Forall₂ (Reads 0) lists terms) :
    Reads 8 (tokens ++ Token.mark "." :: .named method :: .mark "(" :: separated
      (Token.mark ",") lists ++ [Token.mark ")"]) (.call place term method terms) := by
  rw [List.append_assoc]
  refine intro_tight (reads.opens_append _) fun placed rest fuel same _ _ enough => ?_
  obtain ⟨front, back, rfl, inside, behind⟩ := same.of_append
  obtain ⟨here, more, rfl, after⟩ := Placed.of_cons behind
  obtain ⟨there, further, rfl, parts⟩ := Placed.of_cons after
  obtain ⟨opening, inner, rfl, others⟩ := Placed.of_cons parts
  obtain ⟨arguments, closing, rfl, given, last⟩ := Placed.of_append others
  obtain ⟨ending, rfl⟩ := last.of_singleton
  have someToken := reads.length_pos inside
  simp only [List.length_append, List.length_cons, List.length_nil] at enough ⊢
  obtain ⟨left, read, alike, bounded, parsed⟩ := reads.tight front
    ((Token.mark ".").at here :: (Token.named method).at there :: (Token.mark "(").at opening ::
      (arguments ++ (Token.mark ")").at ending :: rest)) fuel inside rfl (fun _ => rfl) (by omega)
  obtain ⟨less, rfl⟩ : ∃ less, left = less + 1 := ⟨left - 1, by omega⟩
  obtain ⟨values, alikes, listed⟩ := arguments_eq each given (by omega : _ < less) opening
    ending rest
  refine ⟨less, .call here read method values, .call alike alikes, by omega, ?_⟩
  have point : (Token.mark ".").isPunctuator "." = true := rfl
  have parens : (Token.mark "(").isPunctuator "(" = true := rfl
  have same : front ++ (Token.mark ".").at here :: (Token.named method).at there ::
      (Token.mark "(").at opening :: (arguments ++ [(Token.mark ")").at ending]) ++ rest =
      front ++ (Token.mark ".").at here :: (Token.named method).at there ::
        (Token.mark "(").at opening :: (arguments ++ (Token.mark ")").at ending :: rest) := by
    simp
  rw [same, parsed, descent_suffixed, readSuffixed]
  simp [point, parens, Token.isEnd, listed]

/-- A cast of what is read before anything. -/
theorem cast (reads : ReadsBefore typed 8 tokens term) (type : TypeName) :
    ReadsBefore type.argument.isNone 8 (tokens ++ Token.reserved "as" :: type.tokens)
      (.cast place term type) := by
  refine intro_tight (reads.opens_append _) fun placed rest fuel same _ follows enough => ?_
  obtain ⟨front, _, rfl, inside, behind⟩ := same.of_append
  obtain ⟨here, written, rfl, named⟩ := Placed.of_cons behind
  have someToken := reads.length_pos inside
  simp only [List.length_append, List.length_cons] at enough ⊢
  obtain ⟨left, read, alike, bounded, parsed⟩ := reads.tight front
    ((Token.reserved "as").at here :: (written ++ rest)) fuel inside rfl (fun _ => rfl) (by omega)
  obtain ⟨less, rfl⟩ : ∃ less, left = less + 1 := ⟨left - 1, by omega⟩
  obtain ⟨target, targets, resolved⟩ := @parseType_eq written rest type named
    fun none => follows (by simp [none])
  have noPoint : (Token.reserved "as").isPunctuator "." = false := rfl
  have isCast : (Token.reserved "as").isKeyword "as" = true := rfl
  refine ⟨less, .cast here read target, .cast alike targets, by omega, ?_⟩
  rw [List.append_assoc, List.cons_append, parsed, descent_suffixed, readSuffixed]
  simp [noPoint, isCast, Token.isEnd, resolved]

/-- The operand of a sign. -/
theorem operand (reads : ReadsBefore typed 7 tokens term) {inner rest : List Token} {fuel : Nat}
    (inside : Placed inner tokens) (stops : Stops 7 (current rest))
    (follows : EndsType typed (current rest)) (enough : 16 * inner.length ≤ fuel + 8) :
    ∃ read, term.Alike read ∧ (descent fuel).unary (inner ++ rest) = .ok (read, rest) := by
  obtain ⟨read, alike, parsed⟩ := reads.loose (by omega) inner rest (fuel + 1) inside stops follows
    (by omega)
  exact ⟨read, alike, (binary_last fuel _).symm.trans parsed⟩

/-- A negation. -/
theorem not (reads : ReadsBefore typed 7 tokens term) :
    ReadsBefore typed 7 (.sign "!" :: tokens) (.not place term) := by
  refine intro_loose rfl (.inr rfl) fun placed rest fuel same stops follows enough => ?_
  obtain ⟨here, inner, rfl, inside⟩ := same.of_cons
  have someToken := reads.length_pos inside
  rw [List.length_cons] at enough
  obtain ⟨less, rfl⟩ : ∃ less, fuel = less + 1 + 1 := ⟨fuel - 2, by omega⟩
  obtain ⟨read, alike, parsed⟩ := reads.operand inside stops follows
    (by omega : 16 * inner.length ≤ less + 8)
  refine ⟨.not here read, .not alike, ?_⟩
  refine (binary_last (less + 1) _).trans ?_
  rw [List.cons_append, descent_unary, readUnary]
  simp [Token.isOperator, Token.isEnd, parsed]

/-- A change of sign, when the sign is not that of a number. -/
theorem negate (reads : ReadsBefore typed 7 tokens term)
    (plain : tokens.head?.any isNumber = false) :
    ReadsBefore typed 7 (.sign "-" :: tokens) (.negate place term) := by
  refine intro_loose rfl (.inr rfl) fun placed rest fuel same stops follows enough => ?_
  obtain ⟨here, inner, rfl, inside⟩ := same.of_cons
  have someToken := reads.length_pos inside
  rw [List.length_cons] at enough
  obtain ⟨less, rfl⟩ : ∃ less, fuel = less + 1 + 1 := ⟨fuel - 2, by omega⟩
  obtain ⟨read, alike, parsed⟩ := reads.operand inside stops follows
    (by omega : 16 * inner.length ≤ less + 8)
  obtain ⟨first, others, rfl, -⟩ := reads.cons
  obtain ⟨there, more, rfl, -⟩ := Placed.of_cons inside
  have other : isNumber first = false := plain
  rw [List.cons_append] at parsed
  refine ⟨.negate here read, .negate alike, ?_⟩
  refine (binary_last (less + 1) _).trans ?_
  rw [List.cons_append, List.cons_append, descent_unary, readUnary]
  simp [Token.isOperator, Token.isEnd, other, parsed]

/-- A binary operator behind a left operand that binds as tightly and before a right operand that
binds more tightly. The sign `<` does not stand behind a type without an argument. -/
theorem binary (op : BinaryOp) {others : List Token} {other : Term} {ended : Bool}
    (first : ReadsBefore ended op.level tokens term)
    (second : ReadsBefore typed (op.level + 1) others other)
    (apart : op = .less → ended = false) :
    ReadsBefore typed op.level (tokens ++ Token.sign op.symbol :: others)
      (.binary place op term other) := by
  obtain ⟨level, same_level⟩ : ∃ level, op.level = level + 1 := by
    cases op <;> exact ⟨_, rfl⟩
  have below := op.level_lt
  have known := operatorAt?_sign op
  have between : Stops (level + 2) (.sign op.symbol) := .sign op (by omega)
  have unopened : EndsType ended (.sign op.symbol) := by
    intro typed
    have other : op ≠ .less := by
      rintro rfl
      exact absurd typed (by simp [apart])
    cases op <;> first | rfl | exact absurd rfl other
  rw [same_level] at first second below known ⊢
  refine intro_left (first.opens_append _)
    (by omega) fun placed rest fuel same stops follows enough => ?_
  obtain ⟨front, back, rfl, left, behind⟩ := same.of_append
  obtain ⟨here, after, rfl, right⟩ := Placed.of_cons behind
  have someLeft := first.length_pos left
  simp only [List.length_append, List.length_cons] at enough ⊢
  obtain ⟨more, leftRead, leftAlike, bounded, leftParsed⟩ := first.left level rfl (by omega) front
    ((Token.sign op.symbol).at here :: (after ++ rest)) fuel left (between.placed here) unopened
    (by omega)
  obtain ⟨less, rfl⟩ : ∃ less, more = less + 1 := ⟨more - 1, by omega⟩
  obtain ⟨rightRead, rightAlike, rightParsed⟩ := second.loose (by omega) after rest less right stops
    follows (by omega)
  have rightParsed : (descent less).binary (level + 1) (after ++ rest) = .ok (rightRead, rest) :=
    rightParsed
  have known : operatorAt? level (.sign op.symbol) = some op := known
  refine ⟨less, .binary here op leftRead rightRead, .binary leftAlike rightAlike, by omega, ?_⟩
  rw [List.append_assoc, List.cons_append, leftParsed, descent_binaryTail, readBinaryTail]
  simp [known, Token.isEnd, rightParsed]

/-- A conditional. Its branches are whole expressions. -/
theorem conditional {thenTokens elseTokens : List Token} {thenValue elseValue : Term}
    {ended closing : Bool} (test : ReadsBefore ended 1 tokens term)
    (first : ReadsBefore closing 0 thenTokens thenValue)
    (second : ReadsBefore typed 0 elseTokens elseValue) :
    Reads 0 (tokens ++ Token.sign "?" :: thenTokens ++ Token.mark ":" :: elseTokens)
      (.conditional place term thenValue elseValue) := by
  rw [List.append_assoc, List.cons_append]
  refine intro_loose (test.opens_append _) (.inl rfl) fun placed rest fuel same stops _ enough => ?_
  obtain ⟨front, back, rfl, condition, behind⟩ := same.of_append
  obtain ⟨here, more, rfl, both⟩ := Placed.of_cons behind
  obtain ⟨middle, last, rfl, chosen, remaining⟩ := both.of_append
  obtain ⟨there, after, rfl, otherwise⟩ := Placed.of_cons remaining
  have someLeft := test.length_pos condition
  simp only [List.length_append, List.length_cons] at enough
  obtain ⟨less, rfl⟩ : ∃ less, fuel = less + 1 := ⟨fuel - 1, by omega⟩
  obtain ⟨testRead, testAlike, testParsed⟩ := test.loose (by omega) front
    ((Token.sign "?").at here :: (middle ++ (Token.mark ":").at there :: (after ++ rest))) less
    condition ((Stops.question_sign Nat.one_pos).placed here) (fun _ => rfl) (by omega)
  obtain ⟨thenRead, thenAlike, thenParsed⟩ := first.expression chosen
    (.mark ":" (by decide) 0 there) (by omega : _ ≤ less) (after ++ rest)
  obtain ⟨elseRead, elseAlike, elseParsed⟩ :=
    second.loose (by omega) after rest less otherwise stops (fun _ => stops.less) (by omega)
  have testParsed : (descent less).binary 0 (front ++ _) = .ok (testRead, _) := testParsed
  have elseParsed : (descent less).expression (after ++ rest) = .ok (elseRead, rest) := elseParsed
  refine ⟨.conditional here testRead thenRead elseRead, .conditional testAlike thenAlike elseAlike,
    ?_⟩
  show (descent (less + 1)).expression _ = _
  have same : front ++ (Token.sign "?").at here :: (middle ++ (Token.mark ":").at there :: after) ++
      rest = front ++ (Token.sign "?").at here :: (middle ++ (Token.mark ":").at there ::
        (after ++ rest)) := by
    simp
  rw [same, descent_expression, readExpression, testParsed]
  simp [Token.isOperator, Token.isEnd, thenParsed, elseParsed]

/-- An array of numbers. -/
theorem ints (numbers : List Int32) :
    Reads 8 (Token.mark "[" :: separated (Token.mark ",")
      (numbers.map fun number => integerTokens number.toInt []) ++ [Token.mark "]"])
      (.ints place numbers) := by
  refine of_primary rfl rfl rfl rfl fun placed rest fuel same enough => ?_
  obtain ⟨opening, more, rfl, others⟩ := Placed.of_cons same
  obtain ⟨inner, closing, rfl, inside, last⟩ := Placed.of_append others
  obtain ⟨ending, rfl⟩ := last.of_singleton
  simp only [List.length_append, List.length_cons, List.length_nil] at enough
  obtain ⟨less, rfl⟩ : ∃ less, fuel = less + 1 := ⟨fuel - 1, by omega⟩
  refine ⟨.ints opening numbers, .ints, ?_⟩
  cases numbers with
  | nil =>
    rw [Placed.of_nil inside, descent_primary, readPrimary]
    simp [isNumber, Token.isPunctuator, Token.isEnd]
  | cons number numbers =>
    rw [List.map_cons, separated_cons, List.flatMap_map] at inside
    have listed := @ints_eq number numbers [] inner rest ending less inside (by omega)
    obtain ⟨first, others, shape, opens⟩ := (integer .first number).cons
    have apart := Token.isPunctuator_of_opens opens (by decide : "]" ∉ ["(", "["])
    rw [shape] at inside
    obtain ⟨there, further, rfl, -⟩ := Placed.of_cons inside
    have opening : (Token.mark "[").isPunctuator "[" = true := rfl
    have other : (Token.mark "[").isPunctuator "(" = false := rfl
    rw [List.cons_append] at listed
    rw [descent_primary, readPrimary]
    simp [isNumber, opening, other, Token.isEnd, apart, listed]

end ReadsBefore

/-! ## Every printed expression is read -/

/-- Expressions bind on one of the levels. -/
theorem Term.level_le (term : Term) : term.level ≤ 8 := by
  unfold Term.level
  split
  · omega
  · rename_i op _ _
    have below := op.level_lt
    omega
  · omega
  · omega
  · omega

mutual

/-- The tokens of an expression are read as the expression. -/
theorem Term.reads {term : Term} (writable : term.Writable) :
    Reads term.level term.tokens term := by
  match term with
  | .int place number => exact .integer place number
  | .bigInt place number => exact .long place number
  | .double place number => exact .double place writable
  | .text place content =>
    exact .atom rfl (by simp) rfl (by simp) fun here => ⟨.text here content, .text, rfl⟩
  | .boolean place truth =>
    cases truth
    · exact .atom rfl (by simp) rfl (by simp) fun here => ⟨.boolean here false, .boolean, rfl⟩
    · exact .atom rfl (by simp) rfl (by simp) fun here => ⟨.boolean here true, .boolean, rfl⟩
  | .null place => exact .atom rfl (by simp) rfl (by simp) fun here => ⟨.null here, .null, rfl⟩
  | .ints place numbers => exact .ints numbers
  | .name place word =>
    exact .atom rfl (by simp) rfl (by simp) fun here => ⟨.name here word, .name, rfl⟩
  | .this place => exact .atom rfl (by simp) rfl (by simp) fun here => ⟨.this here, .this, rfl⟩
  | .not place operand =>
    have inner : Reads operand.level operand.tokens operand := Term.reads writable
    exact .not (inner.enclosed operand.level_le (by omega))
  | .negate place operand =>
    have inner : Reads operand.level operand.tokens operand := Term.reads writable
    exact (inner.of_le (Nat.zero_le _) operand.level_le).parens.of_tight.negate rfl
  | .binary place op left right =>
    have bound : op.level + 1 ≤ 8 := Nat.le_succ_of_le op.level_lt
    have first : Reads (op.level + 1) _ left :=
      (Term.reads writable.1).enclosed left.level_le bound
    have second : Reads (op.level + 1) _ right :=
      (Term.reads writable.2).enclosed right.level_le bound
    exact .binary op (first.of_le (Nat.le_succ _) bound) second fun _ => rfl
  | .conditional place condition thenValue elseValue =>
    have operand : ∀ {term : Term}, Reads term.level term.tokens term → ∀ bound ≤ 7,
        Reads bound (encloseTokens 7 term.level term.tokens) term := fun reads bound asked =>
      (reads.enclosed (Term.level_le _) (by omega)).of_le asked (by omega)
    exact .conditional (operand (Term.reads writable.1) 1 (by omega))
      (operand (Term.reads writable.2.1) 0 (by omega))
        (operand (Term.reads writable.2.2) 0 (by omega))
  | .member place target field =>
    exact .member ((Term.reads writable.1).enclosed target.level_le (Nat.le_refl 8)) field
  | .call place target method arguments =>
    exact .call ((Term.reads writable.1).enclosed target.level_le (Nat.le_refl 8)) method
      (Term.reads_all writable.2.2)
  | .cast place operand type =>
    have inner := (Term.reads writable.1).enclosed operand.level_le (Nat.le_refl 8)
    exact ((inner.cast type).of_le (Nat.zero_le 8) (Nat.le_refl 8)).parens

/-- The tokens of expressions are read as the expressions. -/
theorem Term.reads_all {terms : List Term} (writable : Term.AllWritable terms) :
    List.Forall₂ (Reads 0) (Term.tokenLists terms) terms := by
  match terms with
  | [] => exact .nil
  | term :: rest =>
    exact .cons ((Term.reads writable.1).of_le (Nat.zero_le _) term.level_le)
      (Term.reads_all writable.2)

end

end QueryFusion.Script
