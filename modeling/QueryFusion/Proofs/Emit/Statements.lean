import QueryFusion.Proofs.Emit.Lines

/-!
# Emitted statements

Each form of a statement has its lines: one for a statement without a block, and an opening line,
the lines of the block and a closing line for the others. What they write is read as the statement.
-/

namespace QueryFusion.Script

/-- The tokens of statements behind others. -/
theorem stmtTokens_append (first second : List Stmt) :
    stmtTokens (first ++ second) = stmtTokens first ++ stmtTokens second := by
  induction first with
  | nil => rfl
  | cons statement rest step =>
    rw [List.cons_append, stmtTokens, stmtTokens, step, List.append_assoc]

/-- Statements can be written when each of them can. -/
theorem allWritable_iff {statements : List Stmt} :
    Stmt.AllWritable statements ↔ ∀ statement ∈ statements, statement.Writable := by
  induction statements with
  | nil => simp [Stmt.AllWritable]
  | cons statement rest step => rw [Stmt.AllWritable, step, List.forall_mem_cons]

end QueryFusion.Script

namespace QueryFusion.Emit

open Script (Token Spells Prints Stmt Term TypeName isName stmtTokens)

namespace Yields

variable {commands others : List Command} {statement : Stmt} {statements more : List Stmt}

/-- A statement before others. -/
theorem cons (first : Yields commands statement.tokens) (rest : Yields others (stmtTokens more)) :
    Yields (commands ++ others) (stmtTokens (statement :: more)) :=
  first.append rest

/-- One statement. -/
theorem single (only : Yields commands statement.tokens) :
    Yields commands (stmtTokens [statement]) := by
  have none : Yields [] (stmtTokens []) := nil
  have spelled := only.cons none
  rwa [List.append_nil] at spelled

/-- Statements before others. -/
theorem block (first : Yields commands (stmtTokens statements))
    (rest : Yields others (stmtTokens more)) :
    Yields (commands ++ others) (stmtTokens (statements ++ more)) := by
  rw [Script.stmtTokens_append]
  exact first.append rest

/-- A line that ends with a semicolon. -/
theorem ended {text : String} {tokens : List Token} (prints : Prints text tokens) :
    Yields (lineOf (text ++ ";")) (tokens ++ [Token.mark ";"]) := by
  refine line fun tail _ => ?_
  have ending : Spells [';'] tail [.mark ";"] := Spells.cons_mark rfl (by decide) .nil
  rw [String.toList_append]
  exact prints.before ending rfl

/-- The value behind an equals sign. -/
theorem spells_value {text : String} {tokens : List Token} (prints : Prints text tokens)
    (tail : List Char) : Spells (' ' :: '=' :: ' ' :: (text.toList ++ [';'])) tail
      (Token.sign "=" :: (tokens ++ [Token.mark ";"])) := by
  have ending : Spells [';'] tail [.mark ";"] := Spells.cons_mark rfl (by decide) .nil
  have valued := prints.before ending rfl
  have apart : ∀ behind next, (' ' :: behind).head? = some next →
      ('=', next) ∉ Script.doubleOperators := by
    rintro behind next begins
    obtain rfl : ' ' = next := by simpa using begins
    decide
  exact Spells.cons_blank (Spells.cons_sign rfl (by decide) (by decide) (apart _) valued.cons_blank)

/-- The declaration of a local with any text as its value. -/
theorem declared {name text : String} {type : TypeName} {tokens : List Token}
    (named : isName name = true) (typed : type.Writable) (prints : Prints text tokens) :
    Yields (lineOf ("let " ++ name ++ ": " ++ type.text ++ " = " ++ text ++ ";"))
      (Token.reserved "let" :: .named name :: .mark ":" :: (type.tokens ++
        Token.sign "=" :: (tokens ++ [Token.mark ";"]))) := by
  refine line fun tail _ => ?_
  have written := (Prints.type typed).before (spells_value prints tail) rfl
  have colon : Spells (':' :: ' ' :: _) tail (.mark ":" :: _) :=
    Spells.cons_mark rfl (by decide) written.cons_blank
  have word : Prints "let" [.reserved "let"] := .keyword (by decide) (by decide)
  have spelled := word.before ((Prints.name named).before colon rfl).cons_blank rfl
  simpa using spelled

/-- The declaration of a local. -/
theorem declare {name : String} {type : TypeName} {value : Term} (named : isName name = true)
    (typed : type.Writable) (writable : value.Writable) :
    Yields (lineOf ("let " ++ name ++ ": " ++ type.text ++ " = " ++ value.source ++ ";"))
      (Stmt.tokens (.declare .first name type value)) := by
  have line := declared named typed (Term.prints writable)
  simpa [Stmt.tokens] using line

/-- An assignment to a field. -/
theorem setField {field : String} {value : Term} (named : isName field = true)
    (writable : value.Writable) :
    Yields (lineOf ("this." ++ field ++ " = " ++ value.source ++ ";"))
      (Stmt.tokens (.setField .first field value)) := by
  refine line fun tail _ => ?_
  have target : (Term.member .first (.this .first) field).Writable := ⟨trivial, named⟩
  have spelled := (Term.prints target).before (spells_value (Term.prints writable) tail) rfl
  simpa [Stmt.tokens, Term.source, Term.tokens, Script.enclose, Script.encloseTokens, Term.level]
    using spelled

/-- An expression that is evaluated for its effect. -/
theorem perform {value : Term} (writable : value.Writable) :
    Yields (lineOf (value.source ++ ";")) (Stmt.tokens (.perform .first value)) :=
  ended (Term.prints writable)

/-- The end of a routine with a value. -/
theorem answer {value : Term} (writable : value.Writable) :
    Yields (lineOf ("return " ++ value.source ++ ";")) (Stmt.tokens (.answer .first value)) := by
  refine line fun tail _ => ?_
  have ending : Spells [';'] tail [.mark ";"] := Spells.cons_mark rfl (by decide) .nil
  have valued := (Term.prints writable).before ending rfl
  have word : Prints "return" [.reserved "return"] := .keyword (by decide) (by decide)
  simpa [Stmt.tokens] using word.before valued.cons_blank rfl

/-- The next round of a loop. -/
theorem proceed : Yields (lineOf "continue;") (Stmt.tokens (.proceed .first)) := by
  have word : Prints "continue" [.reserved "continue"] := .keyword (by decide) (by decide)
  have text : "continue;" = "continue" ++ ";" := by decide
  rw [text]
  exact ended word

/-- The brace that closes a block. -/
theorem closing : Yields (lineOf "\x7d") [.mark "\x7d"] :=
  line fun _ _ => Spells.cons_mark rfl (by decide) .nil

/-- A block behind a condition: the opening line, the block and the closing line. -/
theorem guarded {word : String} {condition : Term} {tokens : List Token}
    (reserved : Script.isKeyword word = true) (valid : Script.isWord word.toList = true)
    (writable : condition.Writable) (body : Yields commands tokens) :
    Yields (lineOf (word ++ " (" ++ condition.source ++ ") \x7b") ++ [Command.indent] ++ commands ++
        Command.dedent :: lineOf "\x7d")
      (Token.reserved word :: .mark "(" :: condition.tokens ++ Token.mark ")" :: .mark "\x7b" ::
        tokens ++ [Token.mark "\x7d"]) := by
  have opening : Yields (lineOf (word ++ " (" ++ condition.source ++ ") \x7b"))
      (.reserved word :: .mark "(" :: (condition.tokens ++ [Token.mark ")", .mark "\x7b"])) := by
    refine line fun tail _ => ?_
    have brace : Spells ['\x7b'] tail [.mark "\x7b"] := Spells.cons_mark rfl (by decide) .nil
    have closing : Spells [')', ' ', '\x7b'] tail [.mark ")", .mark "\x7b"] :=
      Spells.cons_mark rfl (by decide) brace.cons_blank
    have tested := (Term.prints writable).before closing rfl
    have paren : Spells ('(' :: _) tail (.mark "(" :: _) := Spells.cons_mark rfl (by decide) tested
    have keyword : Prints word [.reserved word] := .keyword reserved valid
    simpa using keyword.before paren.cons_blank rfl
  have whole := ((opening.append indent).append body).append (dedent.append closing)
  simpa [List.append_assoc] using whole

/-- A conditional without a second branch. -/
theorem branch {condition : Term} (writable : condition.Writable)
    (body : Yields commands (stmtTokens statements)) :
    Yields (lineOf ("if (" ++ condition.source ++ ") \x7b") ++ [Command.indent] ++ commands ++
        Command.dedent :: lineOf "\x7d") (Stmt.tokens (.branch .first condition statements)) := by
  rw [Stmt.tokens]
  exact @guarded commands "if" condition _ (by decide) (by decide) writable body

/-- A loop. -/
theorem loop {condition : Term} (writable : condition.Writable)
    (body : Yields commands (stmtTokens statements)) :
    Yields (lineOf ("while (" ++ condition.source ++ ") \x7b") ++ [Command.indent] ++ commands ++
        Command.dedent :: lineOf "\x7d") (Stmt.tokens (.loop .first condition statements)) := by
  rw [Stmt.tokens]
  exact @guarded commands "while" condition _ (by decide) (by decide) writable body

end Yields

namespace Shows

variable {wide many : Prop} {commands others : List Command} {statements more : List Stmt}

/-- Statements before others. -/
theorem block (first : Shows wide commands (stmtTokens statements))
    (rest : Shows many others (stmtTokens more)) :
    Shows (wide ∨ many) (commands ++ others) (stmtTokens (statements ++ more)) := by
  rw [Script.stmtTokens_append]
  exact first.append rest

/-- A loop. -/
theorem loop {condition : Term} (writable : condition.Writable)
    (body : Shows wide commands (stmtTokens statements)) :
    Shows wide
      (lineOf ("while (" ++ condition.source ++ ") \x7b") ++ [Command.indent] ++ commands ++
        Command.dedent :: lineOf "\x7d") (stmtTokens [.loop .first condition statements]) where
  yields fits := (Yields.loop writable (body.yields fits)).single
  overflows many := by
    obtain ⟨tokens, yields, overflows⟩ := body.overflows many
    refine ⟨_, @Yields.guarded commands "while" condition _ (by decide) (by decide) writable yields,
      ?_⟩
    have inner := (overflows.append [.mark "\x7d"]).prepend (.reserved "while" :: .mark "(" ::
      condition.tokens ++ [Token.mark ")", .mark "\x7b"])
    simpa using inner

end Shows

end QueryFusion.Emit
