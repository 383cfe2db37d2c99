import QueryFusion.Proofs.Script.Reading

/-!
# Reading statements back

The tokens of statements are read as those statements, whatever their places. What follows a
conditional without a second branch must not be taken for one.
-/

namespace QueryFusion.Script

open Descent

mutual

/-- The tokens of a statement. -/
def Stmt.tokens : Stmt → List Token
  | .declare _ name type value =>
    .reserved "let" :: .named name :: .mark ":" :: type.tokens ++ .sign "=" :: value.tokens ++
      [Token.mark ";"]
  | .setField _ field value =>
    .reserved "this" :: .mark "." :: .named field :: .sign "=" :: value.tokens ++ [Token.mark ";"]
  | .setLocal _ name value => .named name :: .sign "=" :: value.tokens ++ [Token.mark ";"]
  | .branch _ condition thenBlock =>
    .reserved "if" :: .mark "(" :: condition.tokens ++ .mark ")" :: .mark "\x7b" ::
      stmtTokens thenBlock ++ [Token.mark "\x7d"]
  | .choose _ condition thenBlock elseBlock =>
    .reserved "if" :: .mark "(" :: condition.tokens ++ .mark ")" :: .mark "\x7b" ::
      stmtTokens thenBlock ++ .mark "\x7d" :: .reserved "else" :: .mark "\x7b" ::
      stmtTokens elseBlock ++ [Token.mark "\x7d"]
  | .loop _ condition body =>
    .reserved "while" :: .mark "(" :: condition.tokens ++ .mark ")" :: .mark "\x7b" ::
      stmtTokens body ++ [Token.mark "\x7d"]
  | .proceed _ => [.reserved "continue", .mark ";"]
  | .leave _ => [.reserved "break", .mark ";"]
  | .finish _ => [.reserved "return", .mark ";"]
  | .answer _ value => .reserved "return" :: value.tokens ++ [Token.mark ";"]
  | .construct _ arguments =>
    .reserved "super" :: .mark "(" :: separated (.mark ",") (Term.tokenLists arguments) ++
      [Token.mark ")", Token.mark ";"]
  | .perform _ value => value.tokens ++ [Token.mark ";"]

/-- The tokens of statements one after another. -/
def stmtTokens : List Stmt → List Token
  | [] => []
  | statement :: rest => statement.tokens ++ stmtTokens rest

end

mutual

/-- The names and expressions in the statement can be written. -/
def Stmt.Writable : Stmt → Prop
  | .declare _ name type value => isName name = true ∧ type.Writable ∧ value.Writable
  | .setField _ name value | .setLocal _ name value => isName name = true ∧ value.Writable
  | .answer _ value | .perform _ value => value.Writable
  | .branch _ condition thenBlock => condition.Writable ∧ AllWritable thenBlock
  | .choose _ condition thenBlock elseBlock =>
    condition.Writable ∧ AllWritable thenBlock ∧ AllWritable elseBlock
  | .loop _ condition body => condition.Writable ∧ AllWritable body
  | .proceed _ | .leave _ | .finish _ => True
  | .construct _ arguments => Term.AllWritable arguments

/-- All of the statements can be written. -/
def Stmt.AllWritable : List Stmt → Prop
  | [] => True
  | statement :: rest => statement.Writable ∧ AllWritable rest

end

/-! ## What a statement starts with -/

/-- A statement may start with the token. -/
def Token.begins (token : Token) : Bool :=
  token.opens || (token.kind == .keyword &&
    token.literal ∈ ["let", "if", "while", "continue", "break", "return", "super"])

/-- A statement neither closes a block nor goes on with a conditional. -/
theorem Token.begins_cases {token : Token} (begins : token.begins = true) :
    token.isPunctuator "\x7d" = false ∧ token.isEnd = false ∧ token.isKeyword "else" = false := by
  unfold Token.begins at begins
  rw [Bool.or_eq_true] at begins
  rcases begins with opens | reserved
  · refine ⟨Token.isPunctuator_of_opens opens (by decide), ?_,
      Token.isKeyword_of_opens opens (by decide)⟩
    unfold Token.isEnd
    cases kind : token.kind <;> first | rfl | skip
    rw [Token.opens, kind] at opens
    cases opens
  · rw [Bool.and_eq_true, beq_iff_eq, decide_eq_true_iff] at reserved
    obtain ⟨keyword, member⟩ := reserved
    refine ⟨by simp [Token.isPunctuator, keyword], by simp [Token.isEnd, keyword], ?_⟩
    rw [Token.isKeyword, Bool.and_eq_false_iff]
    right
    rw [beq_eq_false_iff_ne]
    rintro same
    rw [same] at member
    revert member
    decide

/-- Every statement starts so. -/
theorem Stmt.cons {statement : Stmt} (writable : statement.Writable) :
    ∃ first others, statement.tokens = first :: others ∧ first.begins = true := by
  have opening : ∀ {first : Token}, first.opens = true → first.begins = true := by
    intro first opens
    simp [Token.begins, opens]
  match statement with
  | .perform _ value =>
    have readable : Reads value.level value.tokens value := Term.reads writable
    obtain ⟨first, others, shape, opens⟩ := readable.cons
    exact ⟨first, others ++ [Token.mark ";"], by rw [Stmt.tokens, shape]; rfl, opening opens⟩
  | .setField .. | .setLocal .. => exact ⟨_, _, rfl, opening rfl⟩
  | .declare .. | .branch .. | .choose .. | .loop .. | .proceed .. | .leave .. | .finish ..
  | .answer .. | .construct .. => exact ⟨_, _, rfl, rfl⟩

/-! ## Forms of statements -/

/-- The tokens are read as the statement, before anything but a second branch. -/
def ReadsStmt (tokens : List Token) (statement : Stmt) : Prop :=
  ∀ (placed rest : List Token) (fuel : Nat), Placed placed tokens →
    (current rest).isKeyword "else" = false → 16 * placed.length ≤ fuel →
      ∃ read, statement.Alike read ∧ (descent fuel).statement (placed ++ rest) = .ok (read, rest)

/-- The tokens are read as the statements, and then what follows them. -/
def ReadsStmts (tokens : List Token) (statements : List Stmt) : Prop :=
  ∀ (placed rest : List Token) (fuel : Nat), Placed placed tokens →
    (current rest).isKeyword "else" = false → 16 * placed.length < fuel →
      ∃ left reads, Stmt.AllAlike statements reads ∧ fuel ≤ left + placed.length ∧
        (descent fuel).statements (placed ++ rest) =
          ((descent left).statements rest).map fun others => (reads ++ others.1, others.2)

/-- An equals sign stops every expression. -/
theorem Stops.equals (level : Nat) (place : Position) : Stops level ((Token.sign "=").at place) :=
  (other_sign (by intro op; cases op <;> decide) (fun _ => by decide)).placed place

/-- A token before others is not the last one of a list. -/
theorem Placed.length_pos_of_cons {placed tokens : List Token} {first : Token}
    (same : Placed placed (first :: tokens)) : 0 < placed.length := by
  rw [same.length_eq]
  exact Nat.succ_pos _

section Forms

variable {place : Position} {condition value : Term} {tokens : List Token}

/-- The declaration of a local. -/
theorem ReadsStmt.declare {name : String} {type : TypeName} (reads : Reads 0 tokens value) :
    ReadsStmt (Token.reserved "let" :: .named name :: .mark ":" :: type.tokens ++
      Token.sign "=" :: tokens ++ [Token.mark ";"]) (.declare place name type value) := by
  intro placed rest fuel same _ enough
  rw [List.append_assoc] at same
  obtain ⟨start, _, rfl, naming⟩ := Placed.of_cons same
  obtain ⟨here, _, rfl, marking⟩ := Placed.of_cons naming
  obtain ⟨colon, _, rfl, typing⟩ := Placed.of_cons marking
  obtain ⟨written, _, rfl, typed, setting⟩ := Placed.of_append typing
  obtain ⟨equals, _, rfl, valuing⟩ := Placed.of_cons setting
  obtain ⟨inner, _, rfl, valued, last⟩ := Placed.of_append valuing
  obtain ⟨ending, rfl⟩ := last.of_singleton
  simp only [List.length_cons, List.length_append] at enough
  obtain ⟨less, rfl⟩ : ∃ less, fuel = less + 1 := ⟨fuel - 1, by omega⟩
  obtain ⟨target, types, resolved⟩ := @parseType_eq written
    ((Token.sign "=").at equals :: (inner ++ (Token.mark ";").at ending :: rest)) type typed
    fun _ => rfl
  obtain ⟨read, alike, parsed⟩ := reads.expression valued (.mark ";" (by decide) 0 ending)
    (by omega : _ ≤ less) rest
  refine ⟨.declare start name target read, .declare types alike, ?_⟩
  rw [descent_statement, readStatement]
  simp [Token.isKeyword, readDeclaration, Token.isEnd, resolved, parsed]

/-- An assignment to what can be assigned to. -/
theorem readSimple_assignment {target : Term} {names : List Token}
    {statement : Position → Term → Stmt} {placed : List Token} {fuel : Nat}
    (front : Reads 0 names target) (reads : Reads 0 tokens value)
    (known : ∀ read position value, target.Alike read →
      assignment position read value = .ok (statement position value))
    (same : Placed placed (names ++ Token.sign "=" :: tokens ++ [Token.mark ";"]))
    (enough : 16 * placed.length ≤ fuel + 1) (rest : List Token) :
    ∃ place read, value.Alike read ∧
      (descent fuel).readSimple (placed ++ rest) = .ok (statement place read, rest) := by
  refine ⟨(current (placed ++ rest)).position, ?_⟩
  rw [List.append_assoc] at same
  obtain ⟨left, _, rfl, named, setting⟩ := Placed.of_append same
  obtain ⟨equals, _, rfl, valuing⟩ := Placed.of_cons setting
  obtain ⟨inner, _, rfl, valued, last⟩ := Placed.of_append valuing
  obtain ⟨ending, rfl⟩ := last.of_singleton
  simp only [List.length_cons, List.length_append] at enough
  obtain ⟨first, firstAlike, firstParsed⟩ := front.expression named (Stops.equals 0 equals)
    (by omega : _ ≤ fuel) (inner ++ (Token.mark ";").at ending :: rest)
  obtain ⟨read, alike, parsed⟩ := reads.expression valued (.mark ";" (by decide) 0 ending)
    (by omega : _ ≤ fuel) rest
  have joined : left ++ (Token.sign "=").at equals :: (inner ++ [(Token.mark ";").at ending]) ++
      rest = left ++ (Token.sign "=").at equals ::
        (inner ++ (Token.mark ";").at ending :: rest) := by
    simp
  rw [joined, readSimple]
  refine ⟨read, alike, ?_⟩
  simp [firstParsed, Token.isOperator, Token.isEnd, parsed, known first _ read firstAlike]

/-- A statement that starts like an expression is an assignment or a call. -/
theorem statement_of_opens {first : Token} (opens : first.opens = true) (place : Position)
    (rest : List Token) (fuel : Nat) :
    (descent (fuel + 1)).statement (first.at place :: rest) =
      (descent fuel).readSimple (first.at place :: rest) := by
  have other : ∀ word, word ∉ ["true", "false", "null", "this"] →
      first.isKeyword word = false := fun word apart => Token.isKeyword_of_opens opens apart
  rw [descent_statement, readStatement]
  simp [other "let" (by decide), other "if" (by decide), other "while" (by decide),
    other "continue" (by decide), other "break" (by decide), other "return" (by decide),
    other "super" (by decide)]

/-- An assignment is a statement. -/
theorem ReadsStmt.assign (statement : Position → Term → Stmt) {target : Term} {names : List Token}
    (front : Reads 0 names target) (reads : Reads 0 tokens value)
    (known : ∀ read position value, target.Alike read →
      assignment position read value = .ok (statement position value))
    (alikes : ∀ here read, value.Alike read → (statement place value).Alike (statement here read)) :
    ReadsStmt (names ++ Token.sign "=" :: tokens ++ [Token.mark ";"]) (statement place value) := by
  intro placed rest fuel same _ enough
  obtain ⟨first, others, written, opens⟩ := front.cons
  have shape : names ++ Token.sign "=" :: tokens ++ [Token.mark ";"] =
      first :: (others ++ Token.sign "=" :: tokens ++ [Token.mark ";"]) := by
    rw [written]
    rfl
  have someToken := Placed.length_pos_of_cons (shape ▸ same)
  obtain ⟨less, rfl⟩ : ∃ less, fuel = less + 1 := ⟨fuel - 1, by omega⟩
  obtain ⟨here, read, alike, parsed⟩ :=
    readSimple_assignment front reads known same (by omega : _ ≤ less + 1) rest
  refine ⟨statement here read, alikes here read alike, ?_⟩
  obtain ⟨start, more, rfl, -⟩ := Placed.of_cons (shape ▸ same)
  rw [List.cons_append, statement_of_opens opens]
  exact parsed

/-- An assignment to a field of the unit itself. -/
theorem ReadsStmt.setField {field : String} {names : List Token} {here there : Position}
    (front : Reads 0 names (.member here (.this there) field)) (reads : Reads 0 tokens value) :
    ReadsStmt (names ++ Token.sign "=" :: tokens ++ [Token.mark ";"])
      (.setField place field value) := by
  refine ReadsStmt.assign (fun place value => .setField place field value) front reads ?_
    fun here read alike => .setField alike
  intro read position value alike
  cases alike with
  | member inner =>
    cases inner
    rfl

/-- An assignment to a local. -/
theorem ReadsStmt.setLocal {name : String} {names : List Token} {here : Position}
    (front : Reads 0 names (.name here name)) (reads : Reads 0 tokens value) :
    ReadsStmt (names ++ Token.sign "=" :: tokens ++ [Token.mark ";"])
      (.setLocal place name value) := by
  refine ReadsStmt.assign (fun place value => .setLocal place name value) front reads ?_
    fun here read alike => .setLocal alike
  intro read position value alike
  cases alike
  rfl

/-- An expression that is evaluated for its effect. -/
theorem ReadsStmt.perform (reads : Reads 0 tokens value) :
    ReadsStmt (tokens ++ [Token.mark ";"]) (.perform place value) := by
  intro placed rest fuel same _ enough
  obtain ⟨inner, _, rfl, valued, last⟩ := Placed.of_append same
  obtain ⟨ending, rfl⟩ := last.of_singleton
  rw [List.length_append, List.length_singleton] at enough
  obtain ⟨less, rfl⟩ : ∃ less, fuel = less + 1 := ⟨fuel - 1, by omega⟩
  obtain ⟨read, alike, parsed⟩ := reads.expression valued (.mark ";" (by decide) 0 ending)
    (by omega : _ ≤ less) rest
  obtain ⟨first, others, written, opens⟩ := reads.cons
  rw [written] at valued
  obtain ⟨start, more, rfl, -⟩ := Placed.of_cons valued
  refine ⟨.perform start read, .perform alike, ?_⟩
  rw [List.append_assoc, List.singleton_append, List.cons_append,
    statement_of_opens opens, readSimple, ← List.cons_append, parsed]
  simp [Token.isOperator]

/-- The end of a routine with a value. -/
theorem ReadsStmt.answer (reads : Reads 0 tokens value) :
    ReadsStmt (Token.reserved "return" :: tokens ++ [Token.mark ";"]) (.answer place value) := by
  intro placed rest fuel same _ enough
  obtain ⟨here, _, rfl, valuing⟩ := Placed.of_cons same
  obtain ⟨inner, _, rfl, valued, last⟩ := Placed.of_append valuing
  obtain ⟨ending, rfl⟩ := last.of_singleton
  simp only [List.length_cons, List.length_append] at enough
  obtain ⟨less, rfl⟩ : ∃ less, fuel = less + 1 := ⟨fuel - 1, by omega⟩
  obtain ⟨read, alike, parsed⟩ := reads.expression valued (.mark ";" (by decide) 0 ending)
    (by omega : _ ≤ less) rest
  obtain ⟨first, others, written, opens⟩ := reads.cons
  have apart := Token.isPunctuator_of_opens opens (by decide : ";" ∉ ["(", "["])
  rw [written] at valued
  obtain ⟨start, more, rfl, -⟩ := Placed.of_cons valued
  refine ⟨.answer here read, .answer alike, ?_⟩
  rw [List.cons_append] at parsed
  rw [descent_statement, readStatement]
  simp [Token.isKeyword, readReturn, Token.isEnd, apart, parsed]

/-- The call of the constructor of the base. -/
theorem ReadsStmt.construct {lists : List (List Token)} {arguments : List Term}
    (each : List.Forall₂ (Reads 0) lists arguments) :
    ReadsStmt (Token.reserved "super" :: .mark "(" :: separated (Token.mark ",") lists ++
      [Token.mark ")", Token.mark ";"]) (.construct place arguments) := by
  intro placed rest fuel same _ enough
  obtain ⟨here, _, rfl, opening⟩ := Placed.of_cons same
  obtain ⟨start, _, rfl, listing⟩ := Placed.of_cons opening
  obtain ⟨inner, _, rfl, given, closing⟩ := Placed.of_append listing
  obtain ⟨there, _, rfl, last⟩ := Placed.of_cons closing
  obtain ⟨ending, rfl⟩ := last.of_singleton
  simp only [List.length_cons, List.length_append] at enough
  obtain ⟨less, rfl⟩ : ∃ less, fuel = less + 1 := ⟨fuel - 1, by omega⟩
  obtain ⟨reads, alikes, parsed⟩ := ReadsBefore.arguments_eq each given
    (by omega : _ < less) start there ((Token.mark ";").at ending :: rest)
  refine ⟨.construct here reads, .construct alikes, ?_⟩
  rw [descent_statement, readStatement]
  simp [Token.isKeyword, Token.isEnd, parsed]

end Forms

/-- A word that is a statement by itself. -/
theorem ReadsStmt.word {place : Position} :
    ReadsStmt (Stmt.tokens (.proceed place)) (.proceed place) ∧
      ReadsStmt (Stmt.tokens (.leave place)) (.leave place) ∧
      ReadsStmt (Stmt.tokens (.finish place)) (.finish place) := by
  refine ⟨?_, ?_, ?_⟩
  all_goals
    intro placed rest fuel same _ enough
    obtain ⟨here, _, rfl, last⟩ := Placed.of_cons same
    obtain ⟨ending, rfl⟩ := last.of_singleton
    simp only [List.length_cons, List.length_nil] at enough
    obtain ⟨less, rfl⟩ : ∃ less, fuel = less + 1 := ⟨fuel - 1, by omega⟩
  · exact ⟨.proceed here, .proceed,
      by simp [descent_statement, readStatement, Token.isKeyword, parseWord, Token.isEnd]⟩
  · exact ⟨.leave here, .leave, by simp [descent_statement, readStatement, Token.isKeyword,
      parseWord, Token.isEnd]⟩
  · exact ⟨.finish here, .finish,
      by simp [descent_statement, readStatement, Token.isKeyword, readReturn, Token.isPunctuator,
        Token.isEnd]⟩

/-! ## Blocks -/

/-- No statements. -/
theorem ReadsStmts.nil : ReadsStmts [] [] := by
  intro placed rest fuel same _ _
  rw [same.of_nil, List.nil_append]
  refine ⟨fuel, [], .nil, Nat.le_refl fuel, ?_⟩
  cases (descent fuel).statements rest <;> rfl

/-- One statement before others. -/
theorem ReadsStmts.cons {statement : Stmt} {statements : List Stmt} {first : Token}
    {tokens others : List Token} (begins : first.begins = true)
    (head : ReadsStmt (first :: tokens) statement)
    (next : ∀ second, others.head? = some second → second.begins = true)
    (tail : ReadsStmts others statements) :
    ReadsStmts (first :: tokens ++ others) (statement :: statements) := by
  intro placed rest fuel same apart enough
  obtain ⟨front, back, rfl, here, behind⟩ := Placed.of_append same
  rw [List.length_append] at enough ⊢
  have someToken : 0 < front.length := by
    rw [here.length_eq]
    exact Nat.succ_pos _
  obtain ⟨less, rfl⟩ : ∃ less, fuel = less + 1 := ⟨fuel - 1, by omega⟩
  have single : (current (back ++ rest)).isKeyword "else" = false := by
    cases others with
    | nil =>
      rw [behind.of_nil]
      exact apart
    | cons second others =>
      obtain ⟨place, more, rfl, -⟩ := Placed.of_cons behind
      exact (Token.begins_cases (next second rfl)).2.2
  obtain ⟨read, alike, parsed⟩ := head front (back ++ rest) less here single (by omega)
  obtain ⟨left, reads, alikes, bounded, later⟩ := tail back rest less behind apart (by omega)
  refine ⟨left, read :: reads, .cons alike alikes, by omega, ?_⟩
  obtain ⟨place, more, rfl, -⟩ := Placed.of_cons here
  obtain ⟨notClosing, notEnd, -⟩ := Token.begins_cases begins
  rw [List.cons_append] at parsed
  rw [List.append_assoc, List.cons_append, descent_statements, readStatements]
  simp only [current_cons, Token.isPunctuator_at, notClosing, Token.isEnd_at, notEnd, parsed,
    ok_bind, later, Bool.false_eq_true, if_false]
  cases (descent left).statements rest <;> rfl

/-- A block in braces. -/
theorem ReadsStmts.block {statements : List Stmt} {tokens placed : List Token} {fuel : Nat}
    (reads : ReadsStmts tokens statements) (same : Placed placed tokens)
    (enough : 16 * placed.length + 1 < fuel) (here there : Position) (rest : List Token) :
    ∃ read, Stmt.AllAlike statements read ∧
      (descent fuel).block
      ((Token.mark "\x7b").at here :: (placed ++ (Token.mark "\x7d").at there :: rest)) =
        .ok (read, rest) := by
  obtain ⟨less, rfl⟩ : ∃ less, fuel = less + 1 := ⟨fuel - 1, by omega⟩
  obtain ⟨left, read, alike, bounded, parsed⟩ := reads placed
    ((Token.mark "\x7d").at there :: rest) less same rfl (by omega)
  obtain ⟨few, rfl⟩ : ∃ few, left = few + 1 := ⟨left - 1, by omega⟩
  refine ⟨read, alike, ?_⟩
  rw [descent_block, readBlock, expectPunctuator_mark, ok_bind]
  simp only [parsed]
  rw [descent_statements, readStatements]
  simp [Token.isPunctuator, Token.isEnd, Except.map]

section Blocks

variable {place : Position} {condition : Term} {test tokens otherTokens : List Token}
  {thenBlock elseBlock body : List Stmt}

/-- A conditional without a second branch. -/
theorem ReadsStmt.branch (reads : Reads 0 test condition) (block : ReadsStmts tokens thenBlock) :
    ReadsStmt (Token.reserved "if" :: test ++ Token.mark "\x7b" :: (tokens ++ [Token.mark "\x7d"]))
      (.branch place condition thenBlock) := by
  intro placed rest fuel same apart enough
  obtain ⟨here, _, rfl, parts⟩ := Placed.of_cons same
  obtain ⟨tested, _, rfl, testing, blocking⟩ := Placed.of_append parts
  obtain ⟨opening, _, rfl, inside⟩ := Placed.of_cons blocking
  obtain ⟨inner, _, rfl, body, last⟩ := Placed.of_append inside
  obtain ⟨closing, rfl⟩ := last.of_singleton
  simp only [List.length_cons, List.length_append] at enough
  obtain ⟨less, rfl⟩ : ∃ less, fuel = less + 1 + 1 := ⟨fuel - 2, by omega⟩
  obtain ⟨read, readAlike, readParsed⟩ := reads.expression testing
    (.mark "\x7b" (by decide) 0 opening) (by omega : _ ≤ less)
    (inner ++ (Token.mark "\x7d").at closing :: rest)
  obtain ⟨reads, alikes, parsed⟩ := block.block body (by omega : _ < less) opening closing rest
  refine ⟨.branch here read reads, .branch readAlike alikes, ?_⟩
  have isIf : (Token.reserved "if").isKeyword "if" = true := rfl
  have isNoLet : (Token.reserved "if").isKeyword "let" = false := rfl
  rw [descent_statement, readStatement]
  simp [isIf, isNoLet, descent_choice, readChoice, readParsed, parsed, apart]

/-- A conditional with two branches. -/
theorem ReadsStmt.choose (reads : Reads 0 test condition) (first : ReadsStmts tokens thenBlock)
    (second : ReadsStmts otherTokens elseBlock) :
    ReadsStmt (Token.reserved "if" :: test ++ Token.mark "\x7b" :: (tokens ++ Token.mark "\x7d" ::
      .reserved "else" :: .mark "\x7b" :: (otherTokens ++ [Token.mark "\x7d"])))
      (.choose place condition thenBlock elseBlock) := by
  intro placed rest fuel same _ enough
  obtain ⟨here, _, rfl, parts⟩ := Placed.of_cons same
  obtain ⟨tested, _, rfl, testing, blocking⟩ := Placed.of_append parts
  obtain ⟨opening, _, rfl, inside⟩ := Placed.of_cons blocking
  obtain ⟨inner, _, rfl, body, after⟩ := Placed.of_append inside
  obtain ⟨closing, _, rfl, choosing⟩ := Placed.of_cons after
  obtain ⟨there, _, rfl, secondBlock⟩ := Placed.of_cons choosing
  obtain ⟨reopening, _, rfl, further⟩ := Placed.of_cons secondBlock
  obtain ⟨others, _, rfl, otherBody, last⟩ := Placed.of_append further
  obtain ⟨ending, rfl⟩ := last.of_singleton
  simp only [List.length_cons, List.length_append] at enough
  obtain ⟨less, rfl⟩ : ∃ less, fuel = less + 1 + 1 := ⟨fuel - 2, by omega⟩
  obtain ⟨elseReads, elseAlikes, elseParsed⟩ := second.block otherBody (by omega : _ < less)
    reopening ending rest
  obtain ⟨thenReads, thenAlikes, thenParsed⟩ := first.block body (by omega : _ < less) opening
    closing ((Token.reserved "else").at there :: (Token.mark "\x7b").at reopening ::
      (others ++ (Token.mark "\x7d").at ending :: rest))
  obtain ⟨read, readAlike, readParsed⟩ := reads.expression testing
    (.mark "\x7b" (by decide) 0 opening) (by omega : _ ≤ less)
    (inner ++ (Token.mark "\x7d").at closing :: (Token.reserved "else").at there ::
      (Token.mark "\x7b").at reopening :: (others ++ (Token.mark "\x7d").at ending :: rest))
  refine ⟨.choose here read thenReads elseReads, .choose readAlike thenAlikes elseAlikes, ?_⟩
  rw [descent_statement, readStatement]
  simp [Token.isKeyword, descent_choice, readChoice, readParsed, thenParsed, elseParsed,
    Token.isEnd]

/-- A conditional whose second branch is a conditional, without braces around that. -/
theorem ReadsStmt.chain {nested : Stmt} (reads : Reads 0 test condition)
    (first : ReadsStmts tokens thenBlock)
    (second : ReadsStmt (.reserved "if" :: otherTokens) nested) :
    ReadsStmt (Token.reserved "if" :: test ++ Token.mark "\x7b" :: (tokens ++ Token.mark "\x7d" ::
      .reserved "else" :: .reserved "if" :: otherTokens))
      (.choose place condition thenBlock [nested]) := by
  intro placed rest fuel same apart enough
  obtain ⟨here, _, rfl, parts⟩ := Placed.of_cons same
  obtain ⟨tested, _, rfl, testing, blocking⟩ := Placed.of_append parts
  obtain ⟨opening, _, rfl, inside⟩ := Placed.of_cons blocking
  obtain ⟨inner, _, rfl, body, after⟩ := Placed.of_append inside
  obtain ⟨closing, _, rfl, choosing⟩ := Placed.of_cons after
  obtain ⟨there, others, rfl, chained⟩ := Placed.of_cons choosing
  have someToken := chained.length_pos_of_cons
  simp only [List.length_cons, List.length_append] at enough
  obtain ⟨less, rfl⟩ : ∃ less, fuel = less + 1 + 1 := ⟨fuel - 2, by omega⟩
  obtain ⟨elseRead, elseAlike, elseParsed⟩ := second others rest (less + 1) chained apart (by omega)
  obtain ⟨start, more, rfl, -⟩ := Placed.of_cons chained
  obtain ⟨thenReads, thenAlikes, thenParsed⟩ := first.block body (by omega : _ < less) opening
    closing ((Token.reserved "else").at there :: (Token.reserved "if").at start :: (more ++ rest))
  obtain ⟨read, readAlike, readParsed⟩ := reads.expression testing
    (.mark "\x7b" (by decide) 0 opening) (by omega : _ ≤ less)
    (inner ++ (Token.mark "\x7d").at closing :: (Token.reserved "else").at there ::
      (Token.reserved "if").at start :: (more ++ rest))
  -- a statement that starts with the keyword is read as a conditional
  have nestedParsed : (descent less).choice ((Token.reserved "if").at start :: (more ++ rest)) =
      .ok (elseRead, rest) := by
    rw [List.cons_append, descent_statement, readStatement] at elseParsed
    simpa [Token.isKeyword] using elseParsed
  refine ⟨.choose here read thenReads [elseRead], .choose readAlike thenAlikes
    (.cons elseAlike .nil), ?_⟩
  rw [descent_statement, readStatement]
  simp [Token.isKeyword, descent_choice, readChoice, readParsed, thenParsed, nestedParsed,
    Token.isEnd]

/-- A loop. -/
theorem ReadsStmt.loop (reads : Reads 0 test condition) (block : ReadsStmts tokens body) :
    ReadsStmt
      (Token.reserved "while" :: test ++ Token.mark "\x7b" :: (tokens ++ [Token.mark "\x7d"]))
      (.loop place condition body) := by
  intro placed rest fuel same _ enough
  obtain ⟨here, _, rfl, parts⟩ := Placed.of_cons same
  obtain ⟨tested, _, rfl, testing, blocking⟩ := Placed.of_append parts
  obtain ⟨opening, _, rfl, inside⟩ := Placed.of_cons blocking
  obtain ⟨inner, _, rfl, within, last⟩ := Placed.of_append inside
  obtain ⟨closing, rfl⟩ := last.of_singleton
  simp only [List.length_cons, List.length_append] at enough
  obtain ⟨less, rfl⟩ : ∃ less, fuel = less + 1 := ⟨fuel - 1, by omega⟩
  obtain ⟨read, readAlike, readParsed⟩ := reads.expression testing
    (.mark "\x7b" (by decide) 0 opening) (by omega : _ ≤ less)
    (inner ++ (Token.mark "\x7d").at closing :: rest)
  obtain ⟨reads, alikes, parsed⟩ := block.block within (by omega : _ < less) opening closing rest
  refine ⟨.loop here read reads, .loop readAlike alikes, ?_⟩
  rw [descent_statement, readStatement]
  simp [Token.isKeyword, Token.isEnd, readParsed, parsed]

end Blocks

/-! ## Every written statement is read -/

/-- A whole expression. -/
theorem Term.expression {term : Term} (writable : term.Writable) : Reads 0 term.tokens term :=
  (Term.reads writable).of_le (Nat.zero_le _) term.level_le

/-- A condition in parentheses. -/
theorem Term.condition {term : Term} (writable : term.Writable) :
    Reads 0 (.mark "(" :: term.tokens ++ [Token.mark ")"]) term :=
  (Term.expression writable).parens.of_le (Nat.zero_le 8) (Nat.le_refl 8)

/-- Statements start so one after another. -/
theorem Stmt.begins_all {statements : List Stmt} (writable : Stmt.AllWritable statements)
    (second : Token) (found : (stmtTokens statements).head? = some second) :
    second.begins = true := by
  cases statements with
  | nil => cases found
  | cons statement rest =>
    obtain ⟨first, others, shape, begins⟩ := Stmt.cons writable.1
    rw [stmtTokens, shape] at found
    cases found
    exact begins

mutual

/-- The tokens of a statement are read as the statement. -/
theorem Stmt.reads {statement : Stmt} (writable : statement.Writable) :
    ReadsStmt statement.tokens statement := by
  match statement with
  | .declare _ name type value => exact .declare (Term.expression writable.2.2)
  | .setField place field value =>
    have target : (Term.member place (.this place) field).Writable := ⟨trivial, writable.1⟩
    exact .setField (Term.expression target) (Term.expression writable.2)
  | .setLocal place name value =>
    have target : (Term.name place name).Writable := writable.1
    exact .setLocal (Term.expression target) (Term.expression writable.2)
  | .branch place condition thenBlock =>
    have block : ReadsStmts (stmtTokens thenBlock) thenBlock := Stmt.reads_all writable.2
    have read : ReadsStmt _ (.branch place condition thenBlock) :=
      .branch (Term.condition writable.1) block
    simpa [Stmt.tokens] using read
  | .choose place condition thenBlock elseBlock =>
    have first : ReadsStmts (stmtTokens thenBlock) thenBlock := Stmt.reads_all writable.2.1
    have second : ReadsStmts (stmtTokens elseBlock) elseBlock := Stmt.reads_all writable.2.2
    have read : ReadsStmt _ (.choose place condition thenBlock elseBlock) :=
      .choose (Term.condition writable.1) first second
    simpa [Stmt.tokens] using read
  | .loop place condition body =>
    have block : ReadsStmts (stmtTokens body) body := Stmt.reads_all writable.2
    have read : ReadsStmt _ (.loop place condition body) :=
      .loop (Term.condition writable.1) block
    simpa [Stmt.tokens] using read
  | .proceed _ => exact ReadsStmt.word.1
  | .leave _ => exact ReadsStmt.word.2.1
  | .finish _ => exact ReadsStmt.word.2.2
  | .answer _ value => exact .answer (Term.expression writable)
  | .construct _ arguments => exact .construct (Term.reads_all writable)
  | .perform _ value => exact .perform (Term.expression writable)

/-- The tokens of statements are read as the statements. -/
theorem Stmt.reads_all {statements : List Stmt} (writable : Stmt.AllWritable statements) :
    ReadsStmts (stmtTokens statements) statements := by
  match statements with
  | [] => exact .nil
  | statement :: rest =>
    have head : ReadsStmt statement.tokens statement := Stmt.reads writable.1
    have tail : ReadsStmts (stmtTokens rest) rest := Stmt.reads_all writable.2
    obtain ⟨first, others, shape, begins⟩ := Stmt.cons writable.1
    rw [stmtTokens, shape]
    rw [shape] at head
    exact .cons begins head (Stmt.begins_all writable.2) tail

end

end QueryFusion.Script
