import QueryFusion.Proofs.Emit.Units

/-!
# Reading fully bracketed texts back

A text can leave nothing to precedence: every operand, and the target of every member and call,
stands in parentheses, and so does every expression with an operator. Such a text may carry more
parentheses, and may write a conditional as the second branch of another one with braces or without.
However it is written, it is read as the tree it was written from.
-/

namespace QueryFusion.Script

/-- A way to write bracketed texts. -/
structure Style where
  /-- How many pairs of parentheses stand around an expression beyond those it must have. -/
  pairs : Term → Nat
  /-- A conditional that makes up a whole second branch stands there without braces. -/
  chains : Stmt → Bool

/-- The expression has an operator of its own: a sign, a condition or a cast. -/
def Term.isCompound : Term → Bool
  | .not .. | .negate .. | .binary .. | .conditional .. | .cast .. => true
  | _ => false

/-- The statement is a conditional. -/
def Stmt.isConditional : Stmt → Bool
  | .branch .. | .choose .. => true
  | _ => false

/-- A text in so many pairs of parentheses. -/
def inParens : Nat → String → String
  | 0, text => text
  | count + 1, text => "(" ++ inParens count text ++ ")"

/-- Tokens in so many pairs of parentheses. -/
def inParensTokens : Nat → List Token → List Token
  | 0, tokens => tokens
  | count + 1, tokens => .mark "(" :: inParensTokens count tokens ++ [Token.mark ")"]

/-- Texts on lines of their own, each behind the end of the line before it. -/
def below : List String → String
  | [] => ""
  | text :: rest => "\n" ++ text ++ below rest

/-- Texts in braces, behind a blank. -/
def braced (texts : List String) : String :=
  " \x7b" ++ below texts ++ "\n\x7d"

namespace Style

/-- The pairs of parentheses around an expression that is no operand. -/
def outer (style : Style) (term : Term) : Nat :=
  if term.isCompound then style.pairs term + 1 else style.pairs term

/-! ## Texts -/

mutual

/-- The text of an expression within its outermost parentheses. -/
def bare (style : Style) : Term → String
  | .not _ operand => "!" ++ inParens (style.pairs operand + 1) (style.bare operand)
  | .negate _ operand => "-" ++ inParens (style.pairs operand + 1) (style.bare operand)
  | .binary _ op left right =>
    inParens (style.pairs left + 1) (style.bare left) ++ " " ++ op.symbol ++ " " ++
      inParens (style.pairs right + 1) (style.bare right)
  | .conditional _ condition thenValue elseValue =>
    inParens (style.pairs condition + 1) (style.bare condition) ++ " ? " ++
      inParens (style.pairs thenValue + 1) (style.bare thenValue) ++ " : " ++
      inParens (style.pairs elseValue + 1) (style.bare elseValue)
  | .member _ target field => inParens (style.pairs target + 1) (style.bare target) ++ "." ++ field
  | .call _ target method arguments =>
    inParens (style.pairs target + 1) (style.bare target) ++ "." ++ method ++ "(" ++
      String.intercalate ", " (style.wholes arguments) ++ ")"
  | .cast _ operand type =>
    inParens (style.pairs operand + 1) (style.bare operand) ++ " as " ++ type.text
  | term => term.source

/-- The texts of several expressions. -/
def wholes (style : Style) : List Term → List String
  | [] => []
  | term :: rest => inParens (style.outer term) (style.bare term) :: style.wholes rest

end

/-- The text of an expression that is no operand. -/
def whole (style : Style) (term : Term) : String :=
  inParens (style.outer term) (style.bare term)

/-- The statements are one conditional, which stands without braces. -/
def chained (style : Style) : List Stmt → Bool
  | [nested] => nested.isConditional && style.chains nested
  | _ => false

mutual

/-- The text of a statement. -/
def stmt (style : Style) : Stmt → String
  | .declare _ name type value =>
    "let " ++ name ++ ": " ++ type.text ++ " = " ++ style.whole value ++ ";"
  | .setField place field value =>
    style.whole (.member place (.this place) field) ++ " = " ++ style.whole value ++ ";"
  | .setLocal place name value =>
    style.whole (.name place name) ++ " = " ++ style.whole value ++ ";"
  | .branch _ condition thenBlock =>
    "if " ++ style.whole condition ++ braced (style.stmts thenBlock)
  | .choose _ condition thenBlock elseBlock =>
    "if " ++ style.whole condition ++ braced (style.stmts thenBlock) ++ " else" ++
      if style.chained elseBlock then below (style.stmts elseBlock)
      else braced (style.stmts elseBlock)
  | .loop _ condition body =>
    "while " ++ style.whole condition ++ braced (style.stmts body)
  | .proceed _ => "continue;"
  | .leave _ => "break;"
  | .finish _ => "return;"
  | .answer _ value => "return " ++ style.whole value ++ ";"
  | .construct _ arguments => "super(" ++ String.intercalate ", " (style.wholes arguments) ++ ");"
  | .perform _ value => style.whole value ++ ";"

/-- The texts of several statements. -/
def stmts (style : Style) : List Stmt → List String
  | [] => []
  | statement :: rest => style.stmt statement :: style.stmts rest

end

/-- The text of the type of a result, if there is one. -/
def result : Option TypeName → String
  | some type => " -> " ++ type.text
  | none => ""

/-- The text of a member of a unit. -/
def member (style : Style) : Member → String
  | .field decl => "field " ++ decl.name ++ ": " ++ decl.type.text ++ ";"
  | .constructor decl => "new()" ++ braced (style.stmts decl.body)
  | .routine decl =>
    "fn " ++ decl.name ++ "(" ++
      String.intercalate ", "
        (decl.params.map fun param => param.name ++ ": " ++ param.type.text) ++
      ")" ++ result decl.returnType ++ braced (style.stmts decl.body)

/-- The text of a source unit. -/
def source (style : Style) (source : SourceUnit) : String :=
  "module " ++ source.moduleName ++ ";" ++
    below (source.imports.map fun entry => "import " ++ entry.moduleName ++ ";") ++
    "\nunit " ++ source.unit.name ++ " extends " ++ source.unit.base ++
    braced (source.unit.members.map style.member)

/-! ## Tokens -/

mutual

/-- The tokens of an expression within its outermost parentheses. -/
def bareTokens (style : Style) : Term → List Token
  | .not _ operand =>
    .sign "!" :: inParensTokens (style.pairs operand + 1) (style.bareTokens operand)
  | .negate _ operand =>
    .sign "-" :: inParensTokens (style.pairs operand + 1) (style.bareTokens operand)
  | .binary _ op left right =>
    inParensTokens (style.pairs left + 1) (style.bareTokens left) ++
      .sign op.symbol :: inParensTokens (style.pairs right + 1) (style.bareTokens right)
  | .conditional _ condition thenValue elseValue =>
    inParensTokens (style.pairs condition + 1) (style.bareTokens condition) ++
      .sign "?" :: inParensTokens (style.pairs thenValue + 1) (style.bareTokens thenValue) ++
      .mark ":" :: inParensTokens (style.pairs elseValue + 1) (style.bareTokens elseValue)
  | .member _ target field =>
    inParensTokens (style.pairs target + 1) (style.bareTokens target) ++
      [Token.mark ".", Token.named field]
  | .call _ target method arguments =>
    inParensTokens (style.pairs target + 1) (style.bareTokens target) ++
      .mark "." :: .named method :: .mark "(" ::
        separated (.mark ",") (style.wholeTokenLists arguments) ++ [Token.mark ")"]
  | .cast _ operand type =>
    inParensTokens (style.pairs operand + 1) (style.bareTokens operand) ++
      .reserved "as" :: type.tokens
  | term => term.tokens

/-- The tokens of several expressions. -/
def wholeTokenLists (style : Style) : List Term → List (List Token)
  | [] => []
  | term :: rest => inParensTokens (style.outer term) (style.bareTokens term) ::
    style.wholeTokenLists rest

end

/-- The tokens of an expression that is no operand. -/
def wholeTokens (style : Style) (term : Term) : List Token :=
  inParensTokens (style.outer term) (style.bareTokens term)

mutual

/-- The tokens of a statement. -/
def stmtTokens (style : Style) : Stmt → List Token
  | .declare _ name type value =>
    .reserved "let" :: .named name :: .mark ":" :: type.tokens ++
      .sign "=" :: style.wholeTokens value ++ [Token.mark ";"]
  | .setField place field value =>
    style.wholeTokens (.member place (.this place) field) ++
      .sign "=" :: style.wholeTokens value ++ [Token.mark ";"]
  | .setLocal place name value =>
    style.wholeTokens (.name place name) ++ .sign "=" :: style.wholeTokens value ++ [Token.mark ";"]
  | .branch _ condition thenBlock =>
    .reserved "if" :: style.wholeTokens condition ++
      .mark "\x7b" :: (style.tokensOf thenBlock ++ [Token.mark "\x7d"])
  | .choose _ condition thenBlock elseBlock =>
    .reserved "if" :: style.wholeTokens condition ++
      .mark "\x7b" :: (style.tokensOf thenBlock ++ .mark "\x7d" :: .reserved "else" ::
        if style.chained elseBlock then style.tokensOf elseBlock
        else .mark "\x7b" :: (style.tokensOf elseBlock ++ [Token.mark "\x7d"]))
  | .loop _ condition body =>
    .reserved "while" :: style.wholeTokens condition ++
      .mark "\x7b" :: (style.tokensOf body ++ [Token.mark "\x7d"])
  | .proceed _ => [.reserved "continue", .mark ";"]
  | .leave _ => [.reserved "break", .mark ";"]
  | .finish _ => [.reserved "return", .mark ";"]
  | .answer _ value => .reserved "return" :: style.wholeTokens value ++ [Token.mark ";"]
  | .construct _ arguments =>
    .reserved "super" :: .mark "(" :: separated (.mark ",") (style.wholeTokenLists arguments) ++
      [Token.mark ")", Token.mark ";"]
  | .perform _ value => style.wholeTokens value ++ [Token.mark ";"]

/-- The tokens of statements one after another. -/
def tokensOf (style : Style) : List Stmt → List Token
  | [] => []
  | statement :: rest => style.stmtTokens statement ++ style.tokensOf rest

end

end Style

/-! ## Parentheses -/

section Parens

variable {text : String} {tokens : List Token} {term : Term}

/-- A text in parentheses is read as the tokens in parentheses. -/
theorem Prints.inParens (prints : Prints text tokens) (count : Nat) :
    Prints (inParens count text) (inParensTokens count tokens) := by
  induction count with
  | zero => exact prints
  | succ count step => exact fun tail _ => step.parens tail

/-- Tokens in parentheses are read before anything. -/
theorem Reads.operand (reads : Reads 0 tokens term) (count : Nat) :
    Reads 8 (inParensTokens (count + 1) tokens) term := by
  induction count with
  | zero => exact reads.parens
  | succ count step => exact (step.of_le (Nat.zero_le 8) (Nat.le_refl 8)).parens

/-- Tokens in parentheses, or without them, are read as a whole expression. -/
theorem Reads.inParens (reads : Reads 0 tokens term) (count : Nat) :
    Reads 0 (inParensTokens count tokens) term := by
  cases count with
  | zero => exact reads
  | succ count => exact (reads.operand count).of_le (Nat.zero_le 8) (Nat.le_refl 8)

/-- A text in parentheses starts with one. -/
theorem Prints.Starts.inParens (count : Nat) (text : String) :
    Prints.Starts (Script.inParens (count + 1) text) :=
  ((Prints.Starts.known (by decide)).append _).append _

end Parens

/-! ## Expressions -/

namespace Style

variable (style : Style)

mutual

/-- The text of an expression is read as its tokens. -/
theorem prints_bare {term : Term} (writable : term.Writable) :
    Prints (style.bare term) (style.bareTokens term) := by
  match term with
  | .int .. | .bigInt .. | .double .. | .text .. | .boolean .. | .null .. | .ints .. | .name ..
  | .this .. => exact Term.prints writable
  | .not _ operand =>
    have inner : Prints (style.bare operand) (style.bareTokens operand) := prints_bare writable
    exact .unary rfl (by decide) (.inParens _ _) (inner.inParens _)
  | .negate _ operand =>
    have inner : Prints (style.bare operand) (style.bareTokens operand) := prints_bare writable
    exact .unary rfl (by decide) (.inParens _ _) (inner.inParens _)
  | .binary _ op left right =>
    exact .binary op ((prints_bare writable.1).inParens _) ((prints_bare writable.2).inParens _)
  | .conditional _ condition thenValue elseValue =>
    exact .conditional ((prints_bare writable.1).inParens _) ((prints_bare writable.2.1).inParens _)
      ((prints_bare writable.2.2).inParens _)
  | .member _ target field => exact ((prints_bare writable.1).inParens _).member writable.2
  | .call _ target method arguments =>
    exact ((prints_bare writable.1).inParens _).called writable.2.1 (prints_wholes writable.2.2)
  | .cast _ operand type => exact ((prints_bare writable.1).inParens _).cast writable.2

/-- The texts of expressions are read as their tokens. -/
theorem prints_wholes {terms : List Term} (writable : Term.AllWritable terms) :
    List.Forall₂ Prints (style.wholes terms) (style.wholeTokenLists terms) := by
  match terms with
  | [] => exact .nil
  | term :: rest =>
    exact .cons ((prints_bare writable.1).inParens (style.outer term)) (prints_wholes writable.2)

end

/-- The text of an expression that is no operand is read as its tokens. -/
theorem prints_whole {term : Term} (writable : term.Writable) :
    Prints (style.whole term) (style.wholeTokens term) :=
  (style.prints_bare writable).inParens (style.outer term)

mutual

/-- The tokens of an expression are read as the expression. -/
theorem reads_bare {term : Term} (writable : term.Writable) :
    Reads 0 (style.bareTokens term) term := by
  match term with
  | .int .. | .bigInt .. | .double .. | .text .. | .boolean .. | .null .. | .ints .. | .name ..
  | .this .. => exact Term.expression writable
  | .not _ operand =>
    have inner : Reads 0 (style.bareTokens operand) operand := reads_bare writable
    exact (inner.operand _).of_tight.not.of_le (Nat.zero_le 7) (by decide)
  | .negate _ operand =>
    have inner : Reads 0 (style.bareTokens operand) operand := reads_bare writable
    exact ((inner.operand _).of_tight.negate rfl).of_le (Nat.zero_le 7) (by decide)
  | .binary _ op left right =>
    have bound : op.level + 1 ≤ 8 := Nat.le_succ_of_le op.level_lt
    have first := ((reads_bare writable.1).operand (style.pairs left)).of_le
      (Nat.le_of_succ_le bound) (Nat.le_refl 8)
    have second := ((reads_bare writable.2).operand (style.pairs right)).of_le bound (Nat.le_refl 8)
    exact (first.binary op second fun _ => rfl).of_le (Nat.zero_le _) (by omega)
  | .conditional _ condition thenValue elseValue =>
    exact .conditional (((reads_bare writable.1).operand _).of_le (by decide) (Nat.le_refl 8))
      ((reads_bare writable.2.1).inParens _) ((reads_bare writable.2.2).inParens _)
  | .member _ target field =>
    exact (((reads_bare writable.1).operand _).member field).of_le (Nat.zero_le 8) (Nat.le_refl 8)
  | .call _ target method arguments =>
    exact (((reads_bare writable.1).operand _).call method (reads_wholes writable.2.2)).of_le
      (Nat.zero_le 8) (Nat.le_refl 8)
  | .cast _ operand type =>
    exact ((((reads_bare writable.1).operand _).cast type).of_le (Nat.zero_le 8)
      (Nat.le_refl 8)).closed

/-- The tokens of expressions are read as the expressions. -/
theorem reads_wholes {terms : List Term} (writable : Term.AllWritable terms) :
    List.Forall₂ (Reads 0) (style.wholeTokenLists terms) terms := by
  match terms with
  | [] => exact .nil
  | term :: rest =>
    exact .cons ((reads_bare writable.1).inParens (style.outer term)) (reads_wholes writable.2)

end

/-- The tokens of an expression that is no operand are read as the expression. -/
theorem reads_whole {term : Term} (writable : term.Writable) :
    Reads 0 (style.wholeTokens term) term :=
  (style.reads_bare writable).inParens (style.outer term)

end Style

/-! ## Statements -/

/-- The text is read as the tokens, whatever stands behind it. -/
def Writes (text : String) (tokens : List Token) : Prop :=
  ∀ tail, Spells text.toList tail tokens

namespace Writes

variable {text : String} {tokens others : List Token}

/-- A line before others. -/
theorem cons {texts : List String} (first : Writes text tokens)
    (rest : Writes (below texts) others) :
    Writes (below (text :: texts)) (tokens ++ others) := by
  intro tail
  have lines := (first ((below texts).toList ++ tail)).append (rest tail)
  have newLine : Spells ['\n'] (text.toList ++ (below texts).toList ++ tail) [] :=
    .blank (by decide)
  simpa [below] using newLine.append lines

/-- Lines one below the other. -/
theorem lines {α : Type} {write : α → String} {spell : α → List Token} {entries : List α}
    (each : ∀ entry ∈ entries, Writes (write entry) (spell entry)) :
    Writes (below (entries.map write)) (entries.flatMap spell) := by
  induction entries with
  | nil => exact fun _ => .nil
  | cons entry rest step =>
    rw [List.forall_mem_cons] at each
    exact each.1.cons (step each.2)

/-- A line break parts from a word. -/
theorem parts_below (text : String) (texts : List String) (tail : List Char) :
    parts ((below (text :: texts)).toList ++ tail) = true := by
  simp [below]
  rfl

/-- A text before another one. -/
theorem append {next : String} (first : Writes text tokens) (second : Writes next others) :
    Writes (text ++ next) (tokens ++ others) := by
  intro tail
  rw [String.toList_append]
  exact (first (next.toList ++ tail)).append (second tail)

/-- What follows the keyword of a second branch. -/
theorem otherwise (parted : ∀ tail, parts (text.toList ++ tail) = true)
    (rest : Writes text tokens) :
    Writes (" else" ++ text) (.reserved "else" :: tokens) := by
  intro tail
  have word : Prints "else" [.reserved "else"] := .keyword (by decide) (by decide)
  simpa using (word.before (rest tail) (parted tail)).cons_blank

/-- The end of a statement. -/
theorem semicolon : Writes ";" [.mark ";"] :=
  fun _ => Spells.cons_mark rfl (by decide) .nil

/-- Braces part from a word. -/
theorem parts_braced (texts : List String) (tail : List Char) :
    parts ((Script.braced texts).toList ++ tail) = true := by
  simp [Script.braced]
  rfl

/-- Lines in braces. -/
theorem braced {texts : List String} (inside : Writes (below texts) tokens) :
    Writes (braced texts) (Token.mark "\x7b" :: (tokens ++ [Token.mark "\x7d"])) := by
  intro tail
  have brace : Spells ['\x7d'] tail [.mark "\x7d"] := Spells.cons_mark rfl (by decide) .nil
  have newLine : Spells ['\n'] ('\x7d' :: tail) [] := .blank (by decide)
  have closing : Spells ['\n', '\x7d'] tail [.mark "\x7d"] := newLine.append brace
  have opening : Spells ('\x7b' :: _) tail (.mark "\x7b" :: _) :=
    Spells.cons_mark rfl (by decide) ((inside _).append closing)
  simpa [Script.braced] using opening.cons_blank

/-- A text that a semicolon ends. -/
theorem ended (text : String) {tokens : List Token} (prints : Prints text tokens) :
    Writes (text ++ ";") (tokens ++ [Token.mark ";"]) := by
  intro tail
  have ending : Spells [';'] tail [.mark ";"] := Spells.cons_mark rfl (by decide) .nil
  rw [String.toList_append]
  exact prints.before ending rfl

/-- An expression and a block behind a keyword. -/
theorem guarded (word : String) {behind : String} (reserved : isKeyword word = true)
    (valid : isWord word.toList = true) (prints : Prints text tokens)
    (parted : ∀ tail, parts (behind.toList ++ tail) = true) (rest : Writes behind others) :
    Writes (word ++ " " ++ text ++ behind) (.reserved word :: tokens ++ others) := by
  intro tail
  have guarding := prints.before (rest tail) (parted tail)
  rw [← String.toList_append] at guarding
  have spelled := Emit.Yields.spells_word reserved valid guarding
  rwa [← String.append_assoc] at spelled

end Writes

namespace Style

variable (style : Style)

/-- A chained block is a single conditional. -/
theorem chained_cases {statements : List Stmt} (chained : style.chained statements = true) :
    ∃ nested, statements = [nested] ∧ nested.isConditional = true := by
  unfold Style.chained at chained
  split at chained
  · exact ⟨_, rfl, (Bool.and_eq_true_iff.1 chained).1⟩
  · cases chained

mutual

/-- The text of a statement is read as its tokens. -/
theorem writes_stmt {statement : Stmt} (writable : statement.Writable) :
    Writes (style.stmt statement) (style.stmtTokens statement) := by
  match statement with
  | .declare _ name type value =>
    intro tail
    have written := (Prints.type writable.2.1).before
      (Emit.Yields.spells_value (style.prints_whole writable.2.2) tail) rfl
    have colon : Spells (':' :: ' ' :: _) tail (.mark ":" :: _) :=
      Spells.cons_mark rfl (by decide) written.cons_blank
    have word : Prints "let" [.reserved "let"] := .keyword (by decide) (by decide)
    have spelled := word.before ((Prints.name writable.1).before colon rfl).cons_blank rfl
    simpa [stmt, stmtTokens] using spelled
  | .setField place field value =>
    intro tail
    have target : (Term.member place (.this place) field).Writable := ⟨trivial, writable.1⟩
    have spelled := (style.prints_whole target).before
      (Emit.Yields.spells_value (style.prints_whole writable.2) tail) rfl
    simpa [stmt, stmtTokens] using spelled
  | .setLocal place name value =>
    intro tail
    have target : (Term.name place name).Writable := writable.1
    have spelled := (style.prints_whole target).before
      (Emit.Yields.spells_value (style.prints_whole writable.2) tail) rfl
    simpa [stmt, stmtTokens] using spelled
  | .branch _ condition thenBlock =>
    have block := (writes_stmts writable.2).braced
    exact .guarded "if" (by decide) (by decide) (style.prints_whole writable.1)
      (Writes.parts_braced _) block
  | .choose _ condition thenBlock elseBlock =>
    have second : Writes (" else" ++ if style.chained elseBlock then below (style.stmts elseBlock)
          else braced (style.stmts elseBlock))
        (.reserved "else" :: if style.chained elseBlock then style.tokensOf elseBlock
          else .mark "\x7b" :: (style.tokensOf elseBlock ++ [Token.mark "\x7d"])) := by
      have last := writes_stmts writable.2.2
      split
      · rename_i chained
        obtain ⟨nested, rfl, -⟩ := style.chained_cases chained
        exact .otherwise (Writes.parts_below _ _) last
      · exact .otherwise (Writes.parts_braced _) last.braced
    have blocks := (writes_stmts writable.2.1).braced.append second
    have parted : ∀ tail, parts ((braced (style.stmts thenBlock) ++ (" else" ++
        if style.chained elseBlock then below (style.stmts elseBlock)
        else braced (style.stmts elseBlock))).toList ++ tail) = true := by
      intro tail
      rw [String.toList_append, List.append_assoc]
      exact Writes.parts_braced _ _
    have spelled := Writes.guarded "if" (by decide) (by decide) (style.prints_whole writable.1)
      parted blocks
    simpa [stmt, stmtTokens, String.append_assoc] using spelled
  | .loop _ condition body =>
    have block := (writes_stmts writable.2).braced
    exact .guarded "while" (by decide) (by decide) (style.prints_whole writable.1)
      (Writes.parts_braced _) block
  | .proceed _ => exact .ended "continue" (.keyword (by decide) (by decide))
  | .leave _ => exact .ended "break" (.keyword (by decide) (by decide))
  | .finish _ => exact .ended "return" (.keyword (by decide) (by decide))
  | .answer _ value =>
    exact .guarded "return" (by decide) (by decide) (style.prints_whole writable)
      (fun _ => rfl) Writes.semicolon
  | .construct _ arguments =>
    intro tail
    have listed := Prints.listed (style.prints_wholes writable)
    have ending : Spells [';'] tail [.mark ";"] := Spells.cons_mark rfl (by decide) .nil
    have closing : Spells [')', ';'] tail [.mark ")", .mark ";"] :=
      Spells.cons_mark rfl (by decide) ending
    have opening : Spells ('(' :: _) tail (.mark "(" :: _) :=
      Spells.cons_mark rfl (by decide) (listed.before closing rfl)
    have word : Prints "super" [.reserved "super"] := .keyword (by decide) (by decide)
    simpa [stmt, stmtTokens] using word.before opening rfl
  | .perform _ value => exact .ended _ (style.prints_whole writable)

/-- The texts of statements are read as their tokens. -/
theorem writes_stmts {statements : List Stmt} (writable : Stmt.AllWritable statements) :
    Writes (below (style.stmts statements)) (style.tokensOf statements) := by
  match statements with
  | [] => exact fun _ => .nil
  | statement :: rest =>
    have head : Writes (style.stmt statement) (style.stmtTokens statement) := writes_stmt writable.1
    exact head.cons (writes_stmts writable.2)

end

/-- Every statement starts with a token that a statement may start with. -/
theorem stmtTokens_cons {statement : Stmt} (writable : statement.Writable) :
    ∃ first others, style.stmtTokens statement = first :: others ∧ first.begins = true := by
  have opening : ∀ {term : Term} {tokens : List Token}, Reads 0 tokens term → ∀ more,
      ∃ (first : Token) (others : List Token),
        tokens ++ more = first :: others ∧ first.begins = true := by
    intro term tokens reads more
    obtain ⟨first, others, rfl, opens⟩ := reads.cons
    exact ⟨first, others ++ more, rfl, by simp [Token.begins, opens]⟩
  cases statement with
  | perform _ value => exact opening (style.reads_whole writable) _
  | setField place field value =>
    have target : (Term.member place (.this place) field).Writable := ⟨trivial, writable.1⟩
    rw [stmtTokens, List.append_assoc]
    exact opening (style.reads_whole target) _
  | setLocal place name value =>
    have target : (Term.name place name).Writable := writable.1
    rw [stmtTokens, List.append_assoc]
    exact opening (style.reads_whole target) _
  | _ => exact ⟨_, _, rfl, rfl⟩

/-- A conditional starts with its keyword. -/
theorem stmtTokens_conditional {statement : Stmt} (conditional : statement.isConditional = true) :
    ∃ others, style.stmtTokens statement = .reserved "if" :: others := by
  cases statement with
  | branch place condition thenBlock => exact ⟨_, rfl⟩
  | choose place condition thenBlock elseBlock => exact ⟨_, rfl⟩
  | _ => cases conditional

mutual

/-- The tokens of a statement are read as the statement. -/
theorem reads_stmt {statement : Stmt} (writable : statement.Writable) :
    ReadsStmt (style.stmtTokens statement) statement := by
  match statement with
  | .declare _ name type value => exact .declare (style.reads_whole writable.2.2)
  | .setField place field value =>
    have target : (Term.member place (.this place) field).Writable := ⟨trivial, writable.1⟩
    exact .setField (style.reads_whole target) (style.reads_whole writable.2)
  | .setLocal place name value =>
    have target : (Term.name place name).Writable := writable.1
    exact .setLocal (style.reads_whole target) (style.reads_whole writable.2)
  | .branch _ condition thenBlock =>
    exact .branch (style.reads_whole writable.1) (reads_stmts writable.2)
  | .choose _ condition thenBlock elseBlock =>
    have tested := style.reads_whole writable.1
    have first : ReadsStmts (style.tokensOf thenBlock) thenBlock := reads_stmts writable.2.1
    rw [stmtTokens]
    split
    · rename_i chained
      obtain ⟨nested, rfl, conditional⟩ := style.chained_cases chained
      have second : ReadsStmt (style.stmtTokens nested) nested := reads_stmt writable.2.2.1
      obtain ⟨others, shape⟩ := style.stmtTokens_conditional conditional
      rw [tokensOf, tokensOf, List.append_nil, shape]
      rw [shape] at second
      exact .chain tested first second
    · exact .choose tested first (reads_stmts writable.2.2)
  | .loop _ condition body =>
    exact .loop (style.reads_whole writable.1) (reads_stmts writable.2)
  | .proceed _ => exact ReadsStmt.word.1
  | .leave _ => exact ReadsStmt.word.2.1
  | .finish _ => exact ReadsStmt.word.2.2
  | .answer _ value => exact .answer (style.reads_whole writable)
  | .construct _ arguments => exact .construct (style.reads_wholes writable)
  | .perform _ value => exact .perform (style.reads_whole writable)

/-- The tokens of statements are read as the statements. -/
theorem reads_stmts {statements : List Stmt} (writable : Stmt.AllWritable statements) :
    ReadsStmts (style.tokensOf statements) statements := by
  match statements with
  | [] => exact .nil
  | statement :: rest =>
    have head : ReadsStmt (style.stmtTokens statement) statement := reads_stmt writable.1
    have tail : ReadsStmts (style.tokensOf rest) rest := reads_stmts writable.2
    have next : ∀ second, (style.tokensOf rest).head? = some second → second.begins = true := by
      intro second found
      match rest, writable.2 with
      | [], _ => cases found
      | following :: more, others =>
        obtain ⟨first, behind, shape, begins⟩ := style.stmtTokens_cons others.1
        rw [tokensOf, shape] at found
        cases found
        exact begins
    obtain ⟨first, others, shape, begins⟩ := style.stmtTokens_cons writable.1
    rw [tokensOf, shape]
    rw [shape] at head
    exact .cons begins head next tail

end

/-! ## Units -/

/-- The type of a result, if there is one, is read as its tokens. -/
theorem prints_result {type : Option TypeName} (writable : ∀ written ∈ type, written.Writable) :
    Prints (result type) (resultTokens type) := by
  intro tail parted
  cases type with
  | none => exact .nil
  | some type =>
    have written := (Prints.type (writable type rfl) tail parted).cons_blank
    have arrow : Spells ("->".toList ++ (' ' :: type.text.toList)) tail
        (.sign "->" :: type.tokens) :=
      Spells.append_sign rfl (by simp) written
    simpa [result, resultTokens] using arrow.cons_blank

/-- The text of a member is read as its tokens. -/
theorem writes_member {member : Member} (writable : member.Writable) :
    Writes (style.member member) (member.tokensBy style.tokensOf) := by
  cases member with
  | field decl =>
    have typed := Emit.Yields.prints_typed writable.1 writable.2
    have written := Writes.guarded "field" (by decide) (by decide) typed (fun _ => rfl) .semicolon
    simpa [Style.member, Member.tokensBy, Member.tokens, String.append_assoc] using written
  | constructor decl =>
    intro tail
    have block := (style.writes_stmts writable).braced tail
    have closing : Spells (')' :: _) tail (.mark ")" :: _) := Spells.cons_mark rfl (by decide) block
    have opening : Spells ('(' :: _) tail (.mark "(" :: _) := Spells.cons_mark rfl
      (by decide) closing
    have word : Prints "new" [.reserved "new"] := .keyword (by decide) (by decide)
    simpa [Style.member, Member.tokensBy] using word.before opening rfl
  | routine decl =>
    obtain ⟨named, typed, answer, body⟩ := writable
    intro tail
    have block := (style.writes_stmts body).braced tail
    have resulting := (prints_result answer).before block (Writes.parts_braced _ _)
    rw [← String.toList_append] at resulting
    have header := Emit.Yields.spells_named named (Emit.Yields.spells_params typed resulting)
    have written := Emit.Yields.spells_word (by decide : isKeyword "fn" = true) (by decide) header
    simpa [Style.member, Member.tokensBy, String.append_assoc] using written

/-- The text of a source unit is read as its tokens. -/
theorem writes_source {source : SourceUnit} (writable : source.Writable) :
    Writes (style.source source) (source.tokensBy style.tokensOf) := by
  have members := (Writes.lines fun member inside => style.writes_member
    (writable.members member inside)).braced
  have imports :
    Writes (below (source.imports.map fun entry => "import " ++ entry.moduleName ++ ";"))
      (source.imports.flatMap Import.tokens) :=
    Writes.lines fun entry inside => Writes.guarded "import" (by decide) (by decide)
      (Prints.dotted (writable.imports entry inside)) (fun _ => rfl) .semicolon
  have heading : Writes ("\nunit " ++ (source.unit.name ++ (" extends " ++ (source.unit.base ++
      braced (source.unit.members.map style.member)))))
        (.reserved "unit" :: .named source.unit.name ::
        .reserved "extends" :: .named source.unit.base :: .mark "\x7b" ::
          (source.unit.members.flatMap (Member.tokensBy style.tokensOf) ++
            [Token.mark "\x7d"])) := by
    intro tail
    have based := (Prints.name writable.base).before (members tail) (Writes.parts_braced _ tail)
    rw [← String.toList_append] at based
    have extending := Emit.Yields.spells_word (by decide : isKeyword "extends" = true)
      (by decide) based
    have named := (Prints.name writable.name).before extending.cons_blank rfl
    have word : Prints "unit" [.reserved "unit"] := .keyword (by decide) (by decide)
    have newLine : ∀ behind, Spells ['\n'] behind [] := fun _ => .blank (by decide)
    simpa using (newLine _).append (word.before named.cons_blank rfl)
  have declared := Writes.guarded "module" (by decide) (by decide)
    (Prints.dotted writable.moduleName)
    (fun _ => by simp; rfl) (Writes.semicolon.append (imports.append heading))
  delta Style.source SourceUnit.tokensBy
  rw [show "module " = "module" ++ " " from rfl]
  simpa only [String.append_assoc, List.append_assoc, List.cons_append, List.nil_append]
    using declared

end Style

/-- However freely it is bracketed, the text of a source unit is read as that source unit. -/
theorem Style.parse_source (style : Style) {source : SourceUnit} (writable : source.Writable) :
    ∃ read, source.Alike read ∧ parse (style.source source) = .ok read := by
  refine parse_written (fun member inside => ?_) (style.writes_source writable [])
  have known := writable.members member inside
  cases member with
  | field decl => trivial
  | constructor decl => exact style.reads_stmts known
  | routine decl => exact style.reads_stmts known.2.2.2

/-- A unit whose constructor negates a literal and chains two conditionals. -/
def signUnit : SourceUnit :=
  ⟨"a.b", [⟨"c", .first⟩], ⟨"U", "B", [⟨"n", ⟨"List", some "q.P", .first⟩, .first⟩],
    [⟨[.setField .first "n" (.negate .first (.int .first 5)),
      .choose .first (.not .first (.name .first "x")) [.finish .first]
        [.branch .first (.binary .first .less (.int .first (-1)) (.name .first "x")) []]], .first⟩],
    [], .first⟩⟩

/-- With one more pair of parentheses everywhere, and the chain without braces, the unit is read. -/
theorem Style.parse_source_signUnit : signUnit.Writable ∧ ∃ read, signUnit.Alike read ∧
    parse (Style.source ⟨fun _ => 1, fun _ => true⟩ signUnit) = .ok read := by
  have writable : signUnit.Writable := by
    refine ⟨by decide, by decide, by decide, by decide, ?_⟩
    simp only [signUnit, UnitDecl.members, List.map_cons, List.map_nil, List.cons_append,
      List.nil_append, List.forall_mem_cons, List.not_mem_nil, false_implies,
        implies_true, and_true,
      Member.Writable, Stmt.AllWritable, Stmt.Writable, Term.Writable, TypeName.Writable, true_and]
    decide
  exact ⟨writable, Style.parse_source _ writable⟩

end QueryFusion.Script
