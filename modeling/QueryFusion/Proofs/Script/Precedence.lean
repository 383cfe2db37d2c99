import QueryFusion.Proofs.Script.Reading

/-!
# Precedence

An expression can be written with parentheses only where the order of the operators, and their
association to the left, ask for them. Such a text is read as the expression that it was written
from, with two exceptions. A minus sign before a number belongs to the number. And behind a cast to
a type without an argument the sign `<` is taken for the opening of one, although it should bind
less tightly than the cast.
-/

namespace QueryFusion.Script

/-! ## Doubles -/

/-- The literal of a double without its sign; an infinite one is too large for the format. -/
def Numeral.ofDouble (number : Double) : Numeral :=
  if number.isFinite then .ofDecimal (Decimal.shortest number) else ⟨['1'], [], some 309⟩

/-- The literal of a double is one. -/
theorem Numeral.ofDouble_valid (number : Double) : (ofDouble number).Valid := by
  unfold ofDouble
  split
  · exact ofDecimal_valid _
  · exact ⟨rfl, by simp, .inr rfl⟩

/-- What is neither finite nor without a value is infinite. -/
theorem Double.eq_infinity {number : Double} (valued : number.isNaN = false)
    (infinite : number.isFinite = false) : number = .infinity number.isNegative := by
  have field : number.magnitude / Double.twoTo 52 = 2047 := by
    simpa [Double.isFinite, Double.exponentField] using infinite
  have fraction : number.magnitude % Double.twoTo 52 = 0 := by
    simpa [Double.isNaN, Double.exponentField, field, Double.fraction] using valued
  have magnitude : number.magnitude = 2047 * Double.twoTo 52 := by
    have split := Nat.div_add_mod number.magnitude (Double.twoTo 52)
    rw [field, fraction] at split
    rw [← split, Nat.add_zero, Nat.mul_comm]
  rw [Double.infinity, ← magnitude, Double.ofMagnitude_eq]

/-- The literal of a double is read as the double. -/
theorem Numeral.doubleOf_ofDouble {number : Double} (valued : number.isNaN = false) :
    doubleOf number.isNegative (ofDouble number).chars = number := by
  unfold ofDouble
  split
  · rename_i finite
    exact doubleOf_literal finite
  · rename_i infinite
    have overflow : ∀ negative, doubleOf negative (chars ⟨['1'], [], some 309⟩) =
        Double.infinity negative := by
      decide +kernel
    rw [overflow, ← Double.eq_infinity valued (Bool.eq_false_iff.2 infinite)]

/-! ## Texts with few parentheses -/

mutual

/-- The text of an expression, with parentheses only where they are needed. -/
def Term.sparse : Term → String
  | .double _ number =>
    String.ofList ((if number.isNegative then ['-'] else []) ++ (Numeral.ofDouble number).chars)
  | .not _ operand => "!" ++ enclose 7 operand.level operand.sparse
  | .negate _ operand => "-" ++ enclose 7 operand.level operand.sparse
  | .binary _ op left right =>
    enclose op.level left.level left.sparse ++ " " ++ op.symbol ++ " " ++
      enclose (op.level + 1) right.level right.sparse
  | .conditional _ condition thenValue elseValue =>
    enclose 1 condition.level condition.sparse ++ " ? " ++ thenValue.sparse ++ " : " ++
      elseValue.sparse
  | .member _ target field => enclose 8 target.level target.sparse ++ "." ++ field
  | .call _ target method arguments =>
    enclose 8 target.level target.sparse ++ "." ++ method ++ "(" ++
      String.intercalate ", " (Term.sparseTexts arguments) ++ ")"
  | .cast _ operand type => enclose 8 operand.level operand.sparse ++ " as " ++ type.text
  | term => term.source

/-- The texts of several expressions. -/
def Term.sparseTexts : List Term → List String
  | [] => []
  | term :: rest => term.sparse :: Term.sparseTexts rest

end

mutual

/-- The tokens of an expression, with parentheses only where they are needed. -/
def Term.sparseTokens : Term → List Token
  | .double _ number =>
    (if number.isNegative then [.sign "-"] else []) ++
      [⟨.float, String.ofList (Numeral.ofDouble number).chars, .first⟩]
  | .not _ operand => .sign "!" :: encloseTokens 7 operand.level operand.sparseTokens
  | .negate _ operand => .sign "-" :: encloseTokens 7 operand.level operand.sparseTokens
  | .binary _ op left right =>
    encloseTokens op.level left.level left.sparseTokens ++
      .sign op.symbol :: encloseTokens (op.level + 1) right.level right.sparseTokens
  | .conditional _ condition thenValue elseValue =>
    encloseTokens 1 condition.level condition.sparseTokens ++
      .sign "?" :: thenValue.sparseTokens ++ .mark ":" :: elseValue.sparseTokens
  | .member _ target field =>
    encloseTokens 8 target.level target.sparseTokens ++ [Token.mark ".", Token.named field]
  | .call _ target method arguments =>
    encloseTokens 8 target.level target.sparseTokens ++
      .mark "." :: .named method :: .mark "(" ::
        separated (.mark ",") (Term.sparseTokenLists arguments) ++ [Token.mark ")"]
  | .cast _ operand type =>
    encloseTokens 8 operand.level operand.sparseTokens ++ .reserved "as" :: type.tokens
  | term => term.tokens

/-- The tokens of several expressions. -/
def Term.sparseTokenLists : List Term → List (List Token)
  | [] => []
  | term :: rest => term.sparseTokens :: Term.sparseTokenLists rest

end

/-- The text of the expression ends with a type without an argument. -/
def Term.endsTyped : Term → Bool
  | .not _ operand | .negate _ operand => operand.endsTyped && 7 ≤ operand.level
  | .binary _ op _ right => right.endsTyped && op.level + 1 ≤ right.level
  | .conditional _ _ _ elseValue => elseValue.endsTyped
  | .cast _ _ type => type.argument.isNone
  | _ => false

/-! ## Expressions that are read back -/

mutual

/-- The property holds for the expression and all of its parts. -/
def Term.Every (holds : Term → Prop) : Term → Prop
  | .not place operand => holds (.not place operand) ∧ operand.Every holds
  | .negate place operand => holds (.negate place operand) ∧ operand.Every holds
  | .binary place op left right =>
    holds (.binary place op left right) ∧ left.Every holds ∧ right.Every holds
  | .conditional place condition thenValue elseValue =>
    holds (.conditional place condition thenValue elseValue) ∧ condition.Every holds ∧
      thenValue.Every holds ∧ elseValue.Every holds
  | .member place target field => holds (.member place target field) ∧ target.Every holds
  | .call place target method arguments =>
    holds (.call place target method arguments) ∧ target.Every holds ∧
      Term.AllEvery holds arguments
  | .cast place operand type => holds (.cast place operand type) ∧ operand.Every holds
  | term => holds term

/-- The property holds for the expressions and all of their parts. -/
def Term.AllEvery (holds : Term → Prop) : List Term → Prop
  | [] => True
  | term :: rest => term.Every holds ∧ Term.AllEvery holds rest

end

/-- The names of an expression can be written, and so can its number. -/
def Term.Named : Term → Prop
  | .double _ number => number.isNaN = false
  | .name _ word => isName word = true
  | .member _ _ field => isName field = true
  | .call _ _ method _ => isName method = true
  | .cast _ _ type => type.Writable
  | _ => True

/-- A change of sign does not stand before a number. -/
def Term.SignApart : Term → Prop
  | .negate _ operand =>
    (encloseTokens 7 operand.level operand.sparseTokens).head?.any isNumber = false
  | _ => True

/-- The sign `<` does not stand behind a type without an argument. -/
def Term.TypeApart : Term → Prop
  | .binary _ op left _ => op = .less → (left.endsTyped && op.level ≤ left.level) = false
  | _ => True

/-- An expression can be written, and none of its signs goes on with what stands beside it. -/
structure Term.Plain (term : Term) : Prop where
  named : term.Named
  sign : term.SignApart
  type : term.TypeApart

/-! ## Spelling -/

namespace Term

/-- The text of an expression makes no operator in front of it longer. -/
theorem starts_sparse {term : Term} (plain : term.Every Plain) : Prints.Starts term.sparse := by
  match term with
  | .int .. | .bigInt .. | .text .. | .boolean .. | .null .. | .ints .. | .this .. =>
    exact Term.starts trivial
  | .name .. => exact Term.starts plain.named
  | .double _ number => exact Prints.starts_signed (Numeral.ofDouble_valid number).whole
  | .not _ operand =>
    rw [sparse]
    exact (Prints.Starts.known (by decide)).append _
  | .negate _ operand =>
    rw [sparse]
    exact (Prints.Starts.known (by decide)).append _
  | .binary _ op left right =>
    have first := (starts_sparse plain.2.1).enclosed op.level left.level
    rw [sparse]
    exact (((first.append _).append _).append _).append _
  | .conditional _ condition thenValue elseValue =>
    have first := (starts_sparse plain.2.1).enclosed 1 condition.level
    rw [sparse]
    exact (((first.append _).append _).append _).append _
  | .member _ target field =>
    have first := (starts_sparse plain.2).enclosed 8 target.level
    rw [sparse]
    exact (first.append _).append _
  | .call _ target method arguments =>
    have first := (starts_sparse plain.2.1).enclosed 8 target.level
    rw [sparse]
    exact ((((first.append _).append _).append _).append _).append _
  | .cast _ operand type =>
    have first := (starts_sparse plain.2).enclosed 8 operand.level
    rw [sparse]
    exact (first.append _).append _

mutual

/-- The text of an expression is read as its tokens. -/
theorem prints_sparse {term : Term} (plain : term.Every Plain) :
    Prints term.sparse term.sparseTokens := by
  match term with
  | .int .. | .bigInt .. | .text .. | .boolean .. | .null .. | .ints .. | .this .. =>
    exact Term.prints trivial
  | .name .. => exact Term.prints plain.named
  | .double _ number =>
    have valid := Numeral.ofDouble_valid number
    exact .signed valid.whole fun tail parted => valid.spells parted
  | .not _ operand =>
    exact .unary rfl (by decide) ((starts_sparse plain.2).enclosed _ _)
      ((prints_sparse plain.2).enclosed _ _)
  | .negate _ operand =>
    exact .unary rfl (by decide) ((starts_sparse plain.2).enclosed _ _)
      ((prints_sparse plain.2).enclosed _ _)
  | .binary _ op left right =>
    exact .binary op ((prints_sparse plain.2.1).enclosed _ _)
      ((prints_sparse plain.2.2).enclosed _ _)
  | .conditional _ condition thenValue elseValue =>
    exact .conditional ((prints_sparse plain.2.1).enclosed _ _) (prints_sparse plain.2.2.1)
      (prints_sparse plain.2.2.2)
  | .member _ target field => exact ((prints_sparse plain.2).enclosed _ _).member plain.1.named
  | .call _ target method arguments =>
    exact ((prints_sparse plain.2.1).enclosed _ _).called plain.1.named (prints_sparseAll plain.2.2)
  | .cast _ operand type => exact ((prints_sparse plain.2).enclosed _ _).cast plain.1.named

/-- The texts of expressions are read as their tokens. -/
theorem prints_sparseAll {terms : List Term} (plain : AllEvery Plain terms) :
    List.Forall₂ Prints (sparseTexts terms) (sparseTokenLists terms) := by
  match terms with
  | [] => exact .nil
  | term :: rest => exact .cons (prints_sparse plain.1) (prints_sparseAll plain.2)

end

/-! ## Reading -/

mutual

/-- The tokens of an expression are read as the expression. -/
theorem reads_sparse {term : Term} (plain : term.Every Plain) :
    ReadsBefore term.endsTyped term.level term.sparseTokens term := by
  match term with
  | .int .. | .bigInt .. | .text .. | .boolean .. | .null .. | .ints .. | .this .. =>
    exact Term.reads trivial
  | .name .. => exact Term.reads plain.named
  | .double place number =>
    refine ReadsBefore.number rfl fun here there => ⟨.double here number, .double, ?_⟩
    simp only [numberOf, Token.kind_at, Token.literal_at, String.toList_ofList, if_true]
    rw [Numeral.doubleOf_ofDouble plain.named]
  | .not place operand =>
    exact ((reads_sparse plain.2).enclosed operand.level_le (by omega)).not
  | .negate place operand =>
    exact ((reads_sparse plain.2).enclosed operand.level_le (by omega)).negate plain.1.sign
  | .binary place op left right =>
    have bound : op.level + 1 ≤ 8 := Nat.le_succ_of_le op.level_lt
    exact ((reads_sparse plain.2.1).enclosed left.level_le (Nat.le_of_succ_le bound)).binary op
      ((reads_sparse plain.2.2).enclosed right.level_le bound) plain.1.type
  | .conditional place condition thenValue elseValue =>
    have test := (reads_sparse plain.2.1).enclosed condition.level_le (by decide : 1 ≤ 8)
    have first := (reads_sparse plain.2.2.1).of_le (Nat.zero_le _) thenValue.level_le
    have second := (reads_sparse plain.2.2.2).of_le (Nat.zero_le _) elseValue.level_le
    exact (test.conditional first second).weaken
  | .member place target field =>
    exact ((reads_sparse plain.2).enclosed target.level_le (Nat.le_refl 8)).member field
  | .call place target method arguments =>
    exact ((reads_sparse plain.2.1).enclosed target.level_le (Nat.le_refl 8)).call method
      (reads_sparseAll plain.2.2)
  | .cast place operand type =>
    exact ((reads_sparse plain.2).enclosed operand.level_le (Nat.le_refl 8)).cast type

/-- The tokens of expressions are read as the expressions. -/
theorem reads_sparseAll {terms : List Term} (plain : AllEvery Plain terms) :
    List.Forall₂ (Reads 0) (sparseTokenLists terms) terms := by
  match terms with
  | [] => exact .nil
  | term :: rest =>
    exact .cons ((reads_sparse plain.1).of_le (Nat.zero_le _) term.level_le).closed
      (reads_sparseAll plain.2)

end

/-- An expression with parentheses only where they are needed spells its tokens, and a text with
these tokens, however they are spaced, is read to its end as the expression. -/
theorem parseExpression_sparse {term : Term} (plain : term.Every Plain) :
    (∃ tokens last, tokenize term.sparse = .ok (tokens ++ [Token.endAt last]) ∧
      Placed tokens term.sparseTokens) ∧
    ∀ source tokens last, tokenize source = .ok (tokens ++ [Token.endAt last]) →
      Placed tokens term.sparseTokens → ∃ read, term.Alike read ∧
        parseExpression (fuelFor (tokens ++ [Token.endAt last])) (tokens ++ [Token.endAt last]) =
          .ok (read, [.endAt last]) := by
  refine ⟨?_, fun source tokens last _ placed => ?_⟩
  · obtain ⟨placed, last, same, read⟩ := (prints_sparse plain [] rfl).tokenize_eq
    exact ⟨placed, last, read, same⟩
  · have whole := (reads_sparse plain).of_le (Nat.zero_le _) term.level_le
    refine whole.expression placed ?_ ?_ []
    · exact .of_kind (by simp [Token.endAt]) rfl rfl rfl 0
    · simp only [fuelFor, List.length_append, List.length_cons, List.length_nil]
      omega

/-- A conditional with operators of several levels, and a chain of differences. -/
def chain : Term :=
  .conditional .first
    (.binary .first .and (.not .first (.name .first "a"))
      (.binary .first .less
        (.binary .first .subtract
          (.binary .first .subtract (.name .first "b") (.int .first (-2)))
          (.binary .first .add (.name .first "c") (.negate .first (.name .first "d"))))
        (.member .first (.cast .first (.name .first "e") ⟨"Int", none, .first⟩) "f")))
    (.this .first) (.null .first)

example : chain.sparse = "!a && b - -2 - (c + -d) < e as Int.f ? this : null" := by
  decide +kernel

/-- All parts of the conditional can be written, and are read where they stand. -/
theorem chain_plain : chain.Every Plain := by
  have plain : ∀ term : Term, term.Plain ↔ term.Named ∧ term.SignApart ∧ term.TypeApart :=
    fun term => ⟨fun ⟨named, sign, type⟩ => ⟨named, sign, type⟩, fun ⟨named, sign, type⟩ =>
      ⟨named, sign, type⟩⟩
  simp only [chain, Every, plain, Named, SignApart, TypeApart, TypeName.Writable, reduceCtorEq,
    false_implies, implies_true, true_and, and_true]
  decide

/-- The conditional is read to its end from its text. -/
theorem parseExpression_sparse_chain : chain.Every Plain ∧ ∃ tokens last read,
    tokenize chain.sparse = .ok (tokens ++ [Token.endAt last]) ∧ chain.Alike read ∧
      parseExpression (fuelFor (tokens ++ [Token.endAt last])) (tokens ++ [Token.endAt last]) =
        .ok (read, [.endAt last]) := by
  obtain ⟨⟨tokens, last, text, placed⟩, reads⟩ := parseExpression_sparse chain_plain
  obtain ⟨read, alike, parsed⟩ := reads chain.sparse tokens last text placed
  exact ⟨chain_plain, tokens, last, read, text, alike, parsed⟩

/-- A cast that is compared: the parser takes the sign `<` for the opening of an argument. -/
theorem cast_before_less :
    let term : Term := .binary .first .less
      (.cast .first (.name .first "a") ⟨"Int", none, .first⟩) (.name .first "b")
    term.Every (fun part => part.Named ∧ part.SignApart) ∧ term.sparse = "a as Int < b" ∧
      ¬∃ read, term.Alike read ∧ parseTerm "a as Int < b" = .ok read := by
  refine ⟨?_, by decide +kernel, ?_⟩
  · simp only [Every, Named, SignApart, TypeName.Writable, reduceCtorEq, false_implies,
      implies_true, true_and, and_true]
    decide
  · rintro ⟨read, -, parsed⟩
    have fails : (parseTerm "a as Int < b").toOption.isNone = true := by decide +kernel
    rw [parsed] at fails
    cases fails

end Term

end QueryFusion.Script
