import QueryFusion.Proofs.Generate.Inlining
import QueryFusion.Proofs.Script.Reading
import QueryFusion.Proofs.Script.Rules

/-!
# Literals in source text

A constant with a literal survives the way through source text: the literal is read as one whole
expression, and the code of that expression is one instruction that pushes the constant. A text in
quotes is one token, whatever characters it has.
-/

namespace QueryFusion

/-- Every value but an object and a double that is no finite number can be written in source. -/
def Value.HasLiteral : Value → Prop
  | .double number => number.isFinite = true
  | .object .. => False
  | _ => True

namespace Script

/-- The expression stands for a constant. -/
def Term.IsConstant (value : Value) (term : Term) : Prop :=
  match value with
  | .null => ∃ place, term = .null place
  | .boolean truth => ∃ place, term = .boolean place truth
  | .int number => ∃ place, term = .int place number
  | .bigInt number => ∃ place, term = .bigInt place number
  | .double number => ∃ place, term = .double place number
  | .varchar content => ∃ place, term = .text place content
  | .object .. => False

/-- The place of a constant does not matter. -/
theorem Term.IsConstant.alike {value : Value} {term other : Term} (constant : term.IsConstant value)
    (alike : term.Alike other) : other.IsConstant value := by
  cases value with
  | object identity className fields => exact constant.elim
  | _ =>
    obtain ⟨place, rfl⟩ := constant
    cases alike
    exact ⟨_, rfl⟩

/-- Executing the instruction pushes the slot, wherever the unit has the constants. -/
def Pushes (constants : List Slot) (slot : Slot) (op : Op) : Prop :=
  ∀ (unit : CompiledUnit) (routineName : String) (frame : Frame) (memory : Memory),
    constants <+: unit.constants → execute unit routineName frame memory op =
      .ok (.proceed (frame.withStack (slot :: frame.stack)), memory)

/-- The last constant is pushed by its number. -/
theorem pushes_constant (constants : List Slot) (slot : Slot) :
    Pushes (constants ++ [slot]) slot (.const constants.length) := by
  rintro unit routineName frame memory ⟨more, whole⟩
  have found : unit.constants[constants.length]? = some slot := by
    simp [← whole]
  simp [execute, onStack, entryAt, found]

/-- The code of a constant is one instruction, which pushes it. -/
theorem Term.IsConstant.lowered {value : Value} {term : Term} (constant : term.IsConstant value)
    (scope : UnitScope) (locals : Locals) (start : Nat) (pools : Pools) :
    ∃ op after, lowerTerm scope locals start pools term = .ok ⟨valueType value, [op], after⟩ ∧
      Pushes after.constants (.value value) op := by
  cases value with
  | null =>
    obtain ⟨place, rfl⟩ := constant
    exact ⟨.pushNull, pools, by rw [lowerTerm]; rfl, fun _ _ _ _ _ => rfl⟩
  | boolean truth =>
    obtain ⟨place, rfl⟩ := constant
    refine ⟨if truth then .pushTrue else .pushFalse, pools, by rw [lowerTerm]; rfl, ?_⟩
    cases truth <;> exact fun _ _ _ _ _ => rfl
  | object identity className fields => exact constant.elim
  | _ =>
    obtain ⟨place, rfl⟩ := constant
    exact ⟨_, _, by rw [lowerTerm]; rfl, pushes_constant pools.constants _⟩

/-- The source is one expression and nothing else: the expression is read from its tokens up to the
end of the input, which comes once. -/
structure IsExpression (source : String) (tokens : List Token) (term : Term) : Prop where
  ends : ∃ ending, tokenize source = .ok (tokens ++ [Token.endAt ending]) ∧
    parseExpression (fuelFor (tokens ++ [Token.endAt ending])) (tokens ++ [Token.endAt ending]) =
      .ok (term, [.endAt ending])
  inner : ∀ token ∈ tokens, token.isEnd = false

/-- The source of an expression is that expression and nothing else. -/
theorem Term.isExpression {term : Term} (writable : term.Writable) :
    ∃ placed read, IsExpression term.source placed read ∧ Placed placed term.tokens ∧
      term.Alike read := by
  obtain ⟨placed, next, same, tokenized⟩ := (term.prints writable [] rfl).tokenize_eq
  have reads := (term.reads writable).of_le (Nat.zero_le _) term.level_le
  have stops : Stops 0 (Token.endAt next) := .of_kind (by simp [Token.endAt]) rfl rfl rfl 0
  have enough : 16 * placed.length ≤ fuelFor (placed ++ [Token.endAt next]) := by
    simp only [fuelFor, List.length_append, List.length_singleton]
    omega
  obtain ⟨read, alike, parsed⟩ := reads.expression same stops enough []
  refine ⟨placed, read, ⟨⟨next, tokenized, parsed⟩, ?_⟩, same, alike⟩
  obtain ⟨inner, last, split, -, plain⟩ := tokensFrom_ends tokenized
  rwa [(List.append_inj' split rfl).1]

end Script

namespace Generate

open Emit Script

/-- A constant with a literal, and no other one, has a source expression. -/
theorem constantTerm?_isSome_iff (value : Value) (type : DataType) :
    (constantTerm? value type).isSome = true ↔ value.HasLiteral := by
  cases value with
  | double number =>
    simp only [constantTerm?, Value.HasLiteral]
    split <;> simp_all
  | object identity className fields => simp [constantTerm?, Value.HasLiteral]
  | _ => simp [constantTerm?, Value.HasLiteral]

/-- The source expression of a constant stands for it, and can be written. -/
theorem constantTerm?_isConstant {value : Value} {type : DataType} {localType : LocalType}
    {term : Term} (found : constantTerm? value type = some (localType, term)) :
    term.IsConstant value ∧ term.Writable := by
  cases value with
  | double number =>
    simp only [constantTerm?] at found
    split at found
    · next finite =>
      cases found
      exact ⟨⟨_, rfl⟩, finite⟩
    · cases found
  | object identity className fields => cases found
  | _ =>
    cases found
    exact ⟨⟨_, rfl⟩, trivial⟩

/-- A text in quotes is one token, and nothing is left behind it. -/
theorem tokenize_textLiteral (content : String) : ∃ place ending,
    tokenize (textLiteral content) = .ok [⟨.string, content, place⟩, .endAt ending] := by
  obtain ⟨placed, read, whole, same, -⟩ :=
    Term.isExpression (show (Term.text .first content).Writable from trivial)
  obtain ⟨place, rfl⟩ := same.of_singleton
  obtain ⟨ending, tokenized, -⟩ := whole.ends
  exact ⟨place, ending, tokenized⟩

/-- Exactly the constants that can be written have a literal. It is read from source as one whole
expression whose code is one instruction, which pushes the constant at its own type; the literal of
a text is one token that holds the text. -/
theorem constantLiteral_pushes (value : Value) (type : DataType) :
    ((∃ localType text, constantLiteral value type = .ok (localType, text)) ↔ value.HasLiteral) ∧
    ∀ localType text, constantLiteral value type = .ok (localType, text) →
      (∃ tokens term, IsExpression text tokens term ∧
        ∀ (scope : UnitScope) (locals : Locals) (start : Nat) (pools : Pools), ∃ op after,
          lowerTerm scope locals start pools term = .ok ⟨valueType value, [op], after⟩ ∧
            Pushes after.constants (.value value) op) ∧
      ∀ content, value = .varchar content → ∃ place ending,
        tokenize text = .ok [⟨.string, content, place⟩, .endAt ending] := by
  cases found : constantTerm? value type with
  | none =>
    obtain ⟨message, refused⟩ := constantLiteral_error found
    have unwritten := constantTerm?_isSome_iff value type
    rw [found] at unwritten
    rw [refused]
    refine ⟨⟨?_, fun literal => absurd (unwritten.2 literal) (by decide)⟩, nofun⟩
    rintro ⟨_, _, ⟨⟩⟩
  | some written =>
    obtain ⟨writtenType, written⟩ := written
    have accepted := constantLiteral_eq found
    have literal := (constantTerm?_isSome_iff value type).1 (by rw [found]; rfl)
    refine ⟨⟨fun _ => literal, fun _ => ⟨_, _, accepted⟩⟩, fun localType text same => ?_⟩
    rw [accepted] at same
    cases same
    obtain ⟨constant, writable⟩ := constantTerm?_isConstant found
    obtain ⟨tokens, term, whole, -, alike⟩ := written.isExpression writable
    refine ⟨⟨tokens, term, whole, (constant.alike alike).lowered⟩, fun content same => ?_⟩
    subst same
    cases found
    exact tokenize_textLiteral content

/-- A text with a quote, a backslash, a line break, a null character and a control character; and
the least long integer, whose sign belongs to the number. -/
theorem constantLiteral_pushes_escapes :
    constantLiteral (.varchar "a\"\\\n\x00\x7fé") .varchar =
        .ok (.scalar .varchar, "\"a\\\"\\\\\\n\\0\\u\x7b7f\x7dé\"") ∧
      (∃ place ending, tokenize "\"a\\\"\\\\\\n\\0\\u\x7b7f\x7dé\"" =
        .ok [⟨.string, "a\"\\\n\x00\x7fé", place⟩, .endAt ending]) ∧
      constantLiteral (.bigInt (-9223372036854775808)) .bigInt =
        .ok (.scalar .bigInt, "-9223372036854775808L") ∧
      ∃ tokens term, IsExpression "-9223372036854775808L" tokens term ∧
        ∀ (scope : UnitScope) (locals : Locals) (start : Nat) (pools : Pools), ∃ op after,
          lowerTerm scope locals start pools term = .ok ⟨.bigInt, [op], after⟩ ∧
            Pushes after.constants (.value (.bigInt (-9223372036854775808))) op := by
  have text : constantLiteral (.varchar "a\"\\\n\x00\x7fé") .varchar =
      .ok (.scalar .varchar, "\"a\\\"\\\\\\n\\0\\u\x7b7f\x7dé\"") := by decide +kernel
  have least : constantLiteral (.bigInt (-9223372036854775808)) .bigInt =
      .ok (.scalar .bigInt, "-9223372036854775808L") := by decide +kernel
  exact ⟨text, ((constantLiteral_pushes _ _).2 _ _ text).2 _ rfl,
    least, ((constantLiteral_pushes _ _).2 _ _ least).1⟩

end Generate

end QueryFusion
