import Mathlib.Data.List.Forall2
import QueryFusion.Path
import QueryFusion.Proofs.Script.Numerals

/-!
# Printing expressions

Every expression has a source text, with parentheses where they are needed: around all operands that
bind less tightly, and around casts. The text of an expression whose names can be written spells the
tokens of the expression.
-/

namespace QueryFusion.Script

/-! ## Tokens without places -/

namespace Token

/-- A keyword. -/
abbrev reserved (word : String) : Token :=
  ⟨.keyword, word, .first⟩

/-- A name. -/
abbrev named (name : String) : Token :=
  ⟨.identifier, name, .first⟩

/-- An operator. -/
abbrev sign (symbol : String) : Token :=
  ⟨.operator, symbol, .first⟩

/-- A punctuator. -/
abbrev mark (symbol : String) : Token :=
  ⟨.punctuator, symbol, .first⟩

end Token

/-- The name can be written in source text. -/
def isName (name : String) : Bool :=
  isWord name.toList && !isKeyword name

/-- The tokens of several things, with the same token between any two. -/
def separated (separator : Token) (parts : List (List Token)) : List Token :=
  List.intercalate [separator] parts

/-- The tokens of a dotted name. -/
def dottedTokens (name : String) : List Token :=
  separated (.mark ".") ((dottedParts name).map fun part => [.named part])

/-- The tokens of a type. -/
def TypeName.tokens (type : TypeName) : List Token :=
  match type.argument with
  | some argument => .named type.name :: .sign "<" :: dottedTokens argument ++ [Token.sign ">"]
  | none => [.named type.name]

/-- The type can be written in source text. -/
def TypeName.Writable (type : TypeName) : Prop :=
  isName type.name = true ∧
    ∀ argument, type.argument = some argument → ∀ part ∈ dottedParts argument, isName part = true

/-! ## Expressions -/

/-- How tightly an operator binds. -/
def BinaryOp.level : BinaryOp → Nat
  | or => 1
  | and => 2
  | equal | notEqual => 3
  | less | lessOrEqual | greater | greaterOrEqual => 4
  | add | subtract => 5
  | multiply | divide | remainder => 6

/-- How tightly a printed expression binds. -/
def Term.level : Term → Nat
  | .conditional .. => 0
  | .binary _ op _ _ => op.level
  | .not .. | .negate .. => 7
  | _ => 8

/-- A text in parentheses unless it binds tightly enough. -/
def enclose (bound level : Nat) (text : String) : String :=
  if bound ≤ level then text else "(" ++ text ++ ")"

/-- Tokens in parentheses unless they bind tightly enough. -/
def encloseTokens (bound level : Nat) (tokens : List Token) : List Token :=
  if bound ≤ level then tokens else .mark "(" :: tokens ++ [Token.mark ")"]

/-- The tokens of an integer; a minus sign is a token of its own. -/
def integerTokens (number : Int) (suffix : List Char) : List Token :=
  (if decide (number < 0) then [.sign "-"] else []) ++
    [⟨.integer, String.ofList (Nat.toDigits 10 number.natAbs ++ suffix), .first⟩]

/-- The tokens of a double; a minus sign is a token of its own. -/
def doubleTokens (number : Double) : List Token :=
  (if number.isNegative then [.sign "-"] else []) ++
    [⟨.float, String.ofList (Numeral.ofDecimal (Decimal.shortest number)).chars, .first⟩]

mutual

/-- The source text of an expression. -/
def Term.source : Term → String
  | .int _ number => toString number.toInt
  | .bigInt _ number => toString number.toInt ++ "L"
  | .double _ number => Decimal.Layout.literal.render number
  | .text _ content => Text.quoted content
  | .boolean _ truth => if truth then "true" else "false"
  | .null _ => "null"
  | .ints _ numbers =>
    "[" ++ String.intercalate ", " (numbers.map fun number => toString number.toInt) ++ "]"
  | .name _ word => word
  | .this _ => "this"
  | .not _ operand => "!" ++ enclose 7 operand.level operand.source
  | .negate _ operand => "-(" ++ operand.source ++ ")"
  | .binary _ op left right =>
    enclose (op.level + 1) left.level left.source ++ " " ++ op.symbol ++ " " ++
      enclose (op.level + 1) right.level right.source
  | .conditional _ condition thenValue elseValue =>
    enclose 7 condition.level condition.source ++ " ? " ++
      enclose 7 thenValue.level thenValue.source ++ " : " ++
      enclose 7 elseValue.level elseValue.source
  | .member _ target field => enclose 8 target.level target.source ++ "." ++ field
  | .call _ target method arguments =>
    enclose 8 target.level target.source ++ "." ++ method ++ "(" ++
      String.intercalate ", " (Term.sources arguments) ++ ")"
  | .cast _ operand type =>
    "(" ++ enclose 8 operand.level operand.source ++ " as " ++ type.text ++ ")"

/-- The source texts of several expressions. -/
def Term.sources : List Term → List String
  | [] => []
  | term :: rest => term.source :: Term.sources rest

end

mutual

/-- The tokens of an expression. -/
def Term.tokens : Term → List Token
  | .int _ number => integerTokens number.toInt []
  | .bigInt _ number => integerTokens number.toInt ['L']
  | .double _ number => doubleTokens number
  | .text _ content => [⟨.string, content, .first⟩]
  | .boolean _ truth => [.reserved (if truth then "true" else "false")]
  | .null _ => [.reserved "null"]
  | .ints _ numbers =>
    .mark "[" :: separated (.mark ",") (numbers.map fun number => integerTokens number.toInt []) ++
      [Token.mark "]"]
  | .name _ word => [.named word]
  | .this _ => [.reserved "this"]
  | .not _ operand => .sign "!" :: encloseTokens 7 operand.level operand.tokens
  | .negate _ operand => .sign "-" :: .mark "(" :: operand.tokens ++ [Token.mark ")"]
  | .binary _ op left right =>
    encloseTokens (op.level + 1) left.level left.tokens ++
      .sign op.symbol :: encloseTokens (op.level + 1) right.level right.tokens
  | .conditional _ condition thenValue elseValue =>
    encloseTokens 7 condition.level condition.tokens ++
      .sign "?" :: encloseTokens 7 thenValue.level thenValue.tokens ++
      .mark ":" :: encloseTokens 7 elseValue.level elseValue.tokens
  | .member _ target field =>
    encloseTokens 8 target.level target.tokens ++ [Token.mark ".", Token.named field]
  | .call _ target method arguments =>
    encloseTokens 8 target.level target.tokens ++
      .mark "." :: .named method :: .mark "(" :: separated (.mark ",")
        (Term.tokenLists arguments) ++
      [Token.mark ")"]
  | .cast _ operand type =>
    .mark "(" :: encloseTokens 8 operand.level operand.tokens ++
      .reserved "as" :: type.tokens ++ [Token.mark ")"]

/-- The tokens of several expressions. -/
def Term.tokenLists : List Term → List (List Token)
  | [] => []
  | term :: rest => term.tokens :: Term.tokenLists rest

end

mutual

/-- The names in the expression can be written, and so can its numbers. -/
def Term.Writable : Term → Prop
  | .double _ number => number.isFinite = true
  | .name _ word => isName word = true
  | .not _ operand | .negate _ operand => operand.Writable
  | .binary _ _ left right => left.Writable ∧ right.Writable
  | .conditional _ condition thenValue elseValue =>
    condition.Writable ∧ thenValue.Writable ∧ elseValue.Writable
  | .member _ target field => target.Writable ∧ isName field = true
  | .call _ target method arguments =>
    target.Writable ∧ isName method = true ∧ Term.AllWritable arguments
  | .cast _ operand type => operand.Writable ∧ type.Writable
  | _ => True

/-- All of the expressions can be written. -/
def Term.AllWritable : List Term → Prop
  | [] => True
  | term :: rest => term.Writable ∧ Term.AllWritable rest

end

/-! ## Spelling -/

namespace Spells

variable {text tail : List Char} {tokens : List Token}

/-- A blank in front. -/
theorem cons_blank (rest : Spells text tail tokens) : Spells (' ' :: text) tail tokens := by
  have front : Spells [' '] (text ++ tail) [] := blank (by decide)
  exact front.append rest

/-- A punctuator in front. -/
theorem cons_mark {symbol : String} {c : Char} (same : symbol.toList = [c]) (mark : c ∈ punctuators)
    (rest : Spells text tail tokens) : Spells (c :: text) tail (.mark symbol :: tokens) := by
  have written : String.singleton c = symbol := by
    rw [← String.toList_inj, same]
    exact String.toList_singleton c
  have front : Spells [c] (text ++ tail) [.mark (String.singleton c)] := punctuator mark
  rw [written] at front
  exact front.append rest

/-- An operator in front. -/
theorem append_sign {symbol : String}
    (found : operatorOf? (symbol.toList ++ (text ++ tail)) = some symbol.toList)
    (code : (symbol.toList ++ (text ++ tail)).take 2 ≠ ['/', '/'])
    (rest : Spells text tail tokens) :
    Spells (symbol.toList ++ text) tail (.sign symbol :: tokens) := by
  have spelled := append (operator found code) rest
  rw [String.ofList_toList] at spelled
  exact spelled

/-- An operator of one character before one that does not make it longer. -/
theorem operatorOf?_single {c : Char} {rest : List Char} (single : c ∈ singleOperators)
    (apart : ∀ next, rest.head? = some next → (c, next) ∉ doubleOperators) :
    operatorOf? (c :: rest) = some [c] := by
  cases rest with
  | nil => simp [operatorOf?, single]
  | cons next others => simp [operatorOf?, single, apart next rfl]

/-- An operator of one character in front. -/
theorem cons_sign {symbol : String} {c : Char} (same : symbol.toList = [c])
    (single : c ∈ singleOperators) (code : c ≠ '/')
    (apart : ∀ next, (text ++ tail).head? = some next → (c, next) ∉ doubleOperators)
    (rest : Spells text tail tokens) : Spells (c :: text) tail (.sign symbol :: tokens) := by
  have found : operatorOf? (symbol.toList ++ (text ++ tail)) = some symbol.toList := by
    rw [same]
    exact operatorOf?_single single apart
  have spelled := append_sign found (by simp [same, code]) rest
  rw [same] at spelled
  exact spelled

end Spells

/-- Before anything that parts, the text spells the tokens. -/
def Prints (text : String) (tokens : List Token) : Prop :=
  ∀ tail, parts tail = true → Spells text.toList tail tokens

namespace Prints

/-- A name. -/
theorem name {name : String} (valid : isName name = true) : Prints name [.named name] := by
  intro tail parted
  simp only [isName, Bool.and_eq_true, Bool.not_eq_true'] at valid
  have spelled := Spells.word valid.1 parted
  rw [String.ofList_toList, valid.2] at spelled
  exact spelled

/-- A keyword. -/
theorem keyword {word : String} (reserved : isKeyword word = true)
    (valid : isWord word.toList = true) : Prints word [.reserved word] := by
  intro tail parted
  have spelled := Spells.word valid parted
  rw [String.ofList_toList, reserved] at spelled
  exact spelled

/-- A text before another one. -/
theorem before {text : String} {tokens others : List Token} {next tail : List Char}
    (prints : Prints text tokens) (rest : Spells next tail others)
    (parted : parts (next ++ tail) = true) : Spells (text.toList ++ next) tail (tokens ++ others) :=
  (prints (next ++ tail) parted).append rest

/-- A text in parentheses. -/
theorem parens {text : String} {tokens : List Token} (prints : Prints text tokens)
    (tail : List Char) :
    Spells ("(" ++ text ++ ")").toList tail (.mark "(" :: tokens ++ [Token.mark ")"]) := by
  have inner := prints (')' :: tail) rfl
  have closing : Spells [')'] tail [.mark ")"] := Spells.cons_mark rfl (by decide) .nil
  have spelled : Spells ('(' :: (text.toList ++ [')'])) tail
      (.mark "(" :: (tokens ++ [Token.mark ")"])) := Spells.cons_mark rfl (by decide)
        (inner.append closing)
  simpa using spelled

/-- A text that may stand in parentheses. -/
theorem enclosed {text : String} {tokens : List Token} (prints : Prints text tokens)
    (bound level : Nat) : Prints (enclose bound level text) (encloseTokens bound level tokens) := by
  intro tail parted
  unfold enclose encloseTokens
  split
  · exact prints tail parted
  · exact prints.parens tail

/-- Texts with the same text between any two. -/
theorem separated {separator : String} {sign : Token} {texts : List String}
    {tokens : List (List Token)} (each : List.Forall₂ Prints texts tokens)
    (between : ∀ tail, Spells separator.toList tail [sign])
    (parted : ∀ text ∈ texts, ∀ tail, parts (separator.toList ++ (text.toList ++ tail)) = true) :
    Prints (String.intercalate separator texts) (separated sign tokens) := by
  intro tail ends
  unfold Script.separated
  induction each with
  | nil => simpa using Spells.nil
  | @cons first firstTokens others otherTokens head rest step =>
    cases rest with
    | nil => simpa using head tail ends
    | @cons second secondTokens more moreTokens next further =>
      have later := step fun text inside => parted text (List.mem_cons_of_mem first inside)
      have start : ∃ behind, (String.intercalate separator (second :: more)).toList =
          second.toList ++ behind := by
        cases more with
        | nil => exact ⟨[], by simp⟩
        | cons third more => exact ⟨_, by simp [List.append_assoc]; rfl⟩
      obtain ⟨behind, shape⟩ := start
      have here := head (separator.toList ++ ((String.intercalate separator (second :: more)).toList
        ++ tail)) (by
          rw [shape, List.append_assoc]
          exact parted second (by simp) (behind ++ tail))
      rw [← List.append_assoc] at here
      have spelled := here.append ((between _).append later)
      simpa using spelled

/-- Texts with commas between them. -/
theorem listed {texts : List String} {tokens : List (List Token)}
    (each : List.Forall₂ Prints texts tokens) :
    Prints (String.intercalate ", " texts) (Script.separated (.mark ",") tokens) :=
  separated each (fun _ => Spells.cons_mark rfl (by decide) (Spells.cons_blank .nil))
    fun _ _ _ => rfl

/-- Digits behind a minus sign, or without one. -/
theorem signed {negative : Bool} {digits : List Char} {rest : List Char} {token : Token}
    (valid : isDigits digits = true)
    (spelled : ∀ tail, parts tail = true → Spells (digits ++ rest) tail [token]) :
    Prints (String.ofList ((if negative then ['-'] else []) ++ (digits ++ rest)))
      ((if negative then [Token.sign "-"] else []) ++ [token]) := by
  intro tail parted
  rw [String.toList_ofList]
  cases negative with
  | false => exact spelled tail parted
  | true =>
    obtain ⟨c, others, rfl, digit⟩ := Spells.digits_cons valid
    have other : c ≠ '>' := by
      rintro rfl
      revert digit
      decide
    refine Spells.cons_sign rfl (by decide) (by decide) ?_ (spelled tail parted)
    rintro next begins double
    obtain rfl : c = next := by simpa using begins
    exact other (by simpa [doubleOperators] using double)

/-- The text of an integer, its sign apart. -/
theorem toList_toString_signed (number : Int) : (toString number).toList =
    (if decide (number < 0) then ['-'] else []) ++ Nat.toDigits 10 number.natAbs := by
  rw [toList_toString]
  by_cases below : number < 0
  · have same : (-number).toNat = number.natAbs := by omega
    simp [below, Int.not_le.2 below, same]
  · have same : number.toNat = number.natAbs := by omega
    simp [below, Int.not_lt.1 below, same]

/-- An integer. -/
theorem integer (number : Int) : Prints (toString number) (integerTokens number []) := by
  have digits := isDigits_toDigits number.natAbs
  have text : toString number = String.ofList ((if decide (number < 0) then ['-'] else []) ++
      (Nat.toDigits 10 number.natAbs ++ [])) := by
    rw [← String.toList_inj, toList_toString_signed, String.toList_ofList, List.append_nil]
  rw [text]
  refine signed digits fun tail parted => ?_
  rw [List.append_nil]
  exact Spells.integer digits parted

/-- An integer with the suffix of the long ones. -/
theorem long (number : Int) : Prints (toString number ++ "L") (integerTokens number ['L']) := by
  have digits := isDigits_toDigits number.natAbs
  have text : toString number ++ "L" = String.ofList
      ((if decide (number < 0) then ['-'] else []) ++
        (Nat.toDigits 10 number.natAbs ++ ['L'])) := by
    rw [← String.toList_inj, String.toList_append, toList_toString_signed, String.toList_ofList,
      String.toList_ofList, List.append_assoc]
  rw [text]
  exact signed digits fun tail parted => Spells.long digits parted

/-- A finite double. -/
theorem double {number : Double} (finite : number.isFinite = true) :
    Prints (Decimal.Layout.literal.render number) (doubleTokens number) := by
  have valid := Numeral.ofDecimal_valid (Decimal.shortest number)
  have text : Decimal.Layout.literal.render number = String.ofList
      ((if number.isNegative then ['-'] else []) ++
        (Numeral.ofDecimal (Decimal.shortest number)).chars) := by
    rw [← String.toList_inj, Numeral.render_literal finite, String.toList_ofList]
  rw [text]
  exact signed valid.whole fun tail parted => valid.spells parted

/-- A name starts like a word. -/
theorem name_cons {name : String} (valid : isName name = true) :
    ∃ c rest, name.toList = c :: rest ∧ isWordStart c = true := by
  simp only [isName, isWord, Bool.and_eq_true] at valid
  obtain ⟨⟨starts, -⟩, -⟩ := valid
  cases shape : name.toList with
  | nil => simp [shape] at starts
  | cons c rest =>
    rw [shape, List.head?_cons, Option.any_some] at starts
    exact ⟨c, rest, rfl, starts⟩

/-- What stands behind a point parts, when it is a name. -/
theorem parts_point {name : String} (valid : isName name = true) (tail : List Char) :
    parts ('.' :: (name.toList ++ tail)) = true := by
  obtain ⟨c, rest, shape, starts⟩ := name_cons valid
  obtain ⟨-, -, -, notDigit, -⟩ := isWordStart_cases starts
  simp [parts, shape, notDigit]

/-- The parts of a dotted name, with points between them, make up the name. -/
theorem intercalate_dottedParts (name : String) :
    String.intercalate "." (dottedParts name) = name := by
  have same : (segmentsOf name.toList).map (String.toList ∘ String.ofList) =
      segmentsOf name.toList := by
    simp [Function.comp_def]
  rw [← String.toList_inj, String.toList_intercalate, dottedParts, List.map_map, same]
  exact intercalate_segmentsOf name.toList

/-- A dotted name. -/
theorem dotted {name : String} (valid : ∀ part ∈ dottedParts name, isName part = true) :
    Prints name (dottedTokens name) := by
  have point : ∀ tail, Spells ".".toList tail [.mark "."] := fun tail =>
    Spells.cons_mark rfl (by decide) .nil
  have each : List.Forall₂ Prints (dottedParts name)
      ((dottedParts name).map fun part => [.named part]) := by
    rw [List.forall₂_map_right_iff, List.forall₂_same]
    exact fun part inside => .name (valid part inside)
  have spelled := separated each point fun part inside tail => parts_point (valid part inside) tail
  rw [intercalate_dottedParts] at spelled
  exact spelled

/-- A dotted name starts like a word. -/
theorem dotted_cons {name : String} (valid : ∀ part ∈ dottedParts name, isName part = true) :
    ∃ c rest, name.toList = c :: rest ∧ isWordStart c = true := by
  have somePart : dottedParts name ≠ [] := by simp [dottedParts, segmentsOf_ne_nil]
  obtain ⟨first, others, shape⟩ := List.exists_cons_of_ne_nil somePart
  obtain ⟨c, rest, named, starts⟩ := name_cons (valid first (by simp [shape]))
  rw [← intercalate_dottedParts name, shape]
  cases others with
  | nil => exact ⟨c, rest, by simpa using named, starts⟩
  | cons second more => exact ⟨c, _, by simp [named]; rfl, starts⟩

/-- A type. -/
theorem type {type : TypeName} (writable : type.Writable) : Prints type.text type.tokens := by
  intro tail parted
  unfold TypeName.text TypeName.tokens
  cases known : type.argument with
  | none => exact Prints.name writable.1 tail parted
  | some argument =>
    have closing : Spells [ '>'] tail [.sign ">"] := by
      refine Spells.cons_sign rfl (by decide) (by decide) ?_ .nil
      rintro next begins double
      obtain ⟨rest, same⟩ := List.head?_eq_some_iff.1 begins
      obtain rfl : next = '=' := by simpa [doubleOperators] using double
      rw [List.nil_append] at same
      rw [same] at parted
      cases parted
    have inner := Prints.dotted (writable.2 argument known) ('>' :: tail) rfl
    obtain ⟨c, rest, shape, starts⟩ := dotted_cons (writable.2 argument known)
    have opening : Spells ('<' :: (argument.toList ++ ['>'])) tail
        (.sign "<" :: (dottedTokens argument ++ [Token.sign ">"])) := by
      refine Spells.cons_sign rfl (by decide) (by decide) ?_ (inner.append closing)
      rintro next begins double
      obtain rfl : next = '=' := by simpa [doubleOperators] using double
      obtain rfl : c = '=' := by simpa [shape] using begins
      revert starts
      decide
    have named := Prints.name writable.1 ('<' :: (argument.toList ++ ['>']) ++ tail) rfl
    simpa using named.append opening

/-- A binary operator with blanks around it. -/
theorem spaced (op : BinaryOp) {text tail : List Char} {tokens : List Token}
    (rest : Spells text tail tokens) :
    Spells (' ' :: (op.symbol.toList ++ ' ' :: text)) tail (.sign op.symbol :: tokens) := by
  have found : operatorOf? (op.symbol.toList ++ (' ' :: text ++ tail)) =
      some op.symbol.toList := by
    cases op <;> rfl
  have code : (op.symbol.toList ++ (' ' :: text ++ tail)).take 2 ≠ ['/', '/'] := by
    cases op <;> simp [BinaryOp.symbol]
  exact (Spells.append_sign found code rest.cons_blank).cons_blank

/-- A call of a method. -/
theorem called {target method : String} {tokens : List Token} {texts : List String}
    {arguments : List (List Token)} (prints : Prints target tokens) (named : isName method = true)
    (each : List.Forall₂ Prints texts arguments) :
    Prints (target ++ "." ++ method ++ "(" ++ String.intercalate ", " texts ++ ")")
      (tokens ++ Token.mark "." :: .named method :: .mark "(" ::
        Script.separated (Token.mark ",") arguments ++ [Token.mark ")"]) := by
  intro tail _
  have inner := Prints.listed each (')' :: tail) rfl
  have closing : Spells [')'] tail [.mark ")"] := Spells.cons_mark rfl (by decide) .nil
  have opening : Spells ('(' :: _) tail (.mark "(" :: _) :=
    Spells.cons_mark rfl (by decide) (inner.append closing)
  have word := (Prints.name named).before opening rfl
  have point : Spells ('.' :: _) tail (.mark "." :: _) := Spells.cons_mark rfl (by decide) word
  have parted : parts ('.' :: (method.toList ++
      '(' :: ((String.intercalate ", " texts).toList ++ [')'])) ++ tail) = true := by
    rw [List.cons_append, List.append_assoc]
    exact Prints.parts_point named _
  simpa using prints.before point parted

/-- The text starts with no character that makes an operator in front of it longer. -/
def Starts (text : String) : Prop :=
  ∃ c rest, text.toList = c :: rest ∧ c ≠ '=' ∧ c ≠ '>'

/-- How a known text starts. -/
theorem Starts.known {text : String}
    (starts : text.toList.head?.any (fun c => c != '=' && c != '>') = true) : Starts text := by
  cases shape : text.toList with
  | nil => simp [shape] at starts
  | cons c rest =>
    rw [shape, List.head?_cons, Option.any_some, Bool.and_eq_true, bne_iff_ne, bne_iff_ne] at starts
    exact ⟨c, rest, shape, starts⟩

/-- A text in front decides how a text starts. -/
theorem Starts.append {text : String} (starts : Starts text) (more : String) :
    Starts (text ++ more) := by
  obtain ⟨c, rest, shape, other⟩ := starts
  exact ⟨c, rest ++ more.toList, by simp [shape], other⟩

/-- A parenthesis is something else. -/
theorem Starts.enclosed {text : String} (starts : Starts text) (bound level : Nat) :
    Starts (enclose bound level text) := by
  unfold enclose
  split
  · exact starts
  · exact ((Starts.known (by decide)).append text).append ")"

/-- A word starts like one. -/
theorem starts_of_isWordStart {text : String}
    (starts : ∃ c rest, text.toList = c :: rest ∧ isWordStart c = true) : Starts text := by
  obtain ⟨c, rest, shape, letter⟩ := starts
  refine ⟨c, rest, shape, ?_, ?_⟩
  · rintro rfl
    revert letter
    decide
  · rintro rfl
    revert letter
    decide

/-- Digits start with a digit, or with their sign. -/
theorem starts_signed {negative : Bool} {digits rest : List Char} (valid : isDigits digits = true) :
    Starts (String.ofList ((if negative then ['-'] else []) ++ (digits ++ rest))) := by
  cases negative with
  | true => exact ⟨'-', _, String.toList_ofList, by decide⟩
  | false =>
    obtain ⟨c, others, rfl, digit⟩ := Spells.digits_cons valid
    refine ⟨c, _, String.toList_ofList, ?_, ?_⟩
    · rintro rfl
      revert digit
      decide
    · rintro rfl
      revert digit
      decide

/-- An integer starts with a digit or its sign. -/
theorem starts_integer (number : Int) : Starts (toString number) := by
  have text : toString number = String.ofList ((if decide (number < 0) then ['-'] else []) ++
      (Nat.toDigits 10 number.natAbs ++ [])) := by
    rw [← String.toList_inj, toList_toString_signed, String.toList_ofList, List.append_nil]
  rw [text]
  exact starts_signed (isDigits_toDigits number.natAbs)

/-! ### Forms of expressions -/

section Forms

variable {first second third : String} {tokens others more : List Token}

/-- A unary operator. -/
theorem unary {symbol : String} {c : Char} (same : symbol.toList = [c]) (sign : c ∈ ['!', '-'])
    (starts : Starts first) (prints : Prints first tokens) :
    Prints (symbol ++ first) (.sign symbol :: tokens) := by
  intro tail parted
  obtain ⟨d, rest, shape, equals, greater⟩ := starts
  have known : c ∈ singleOperators ∧ c ≠ '/' ∧ ∀ e, (c, e) ∈ doubleOperators → e ∈ ['=', '>'] := by
    simp only [List.mem_cons, List.not_mem_nil, or_false] at sign
    rcases sign with rfl | rfl <;> simp [singleOperators, doubleOperators]
  have apart : ∀ next, (first.toList ++ tail).head? = some next → (c, next) ∉ doubleOperators := by
    intro next begins double
    obtain rfl : d = next := by simpa [shape] using begins
    have either := known.2.2 d double
    simp [equals, greater] at either
  rw [String.toList_append, same]
  exact Spells.cons_sign same known.1 known.2.1 apart (prints tail parted)

/-- A binary operator between its operands. -/
theorem binary (op : BinaryOp) (left : Prints first tokens) (right : Prints second others) :
    Prints (first ++ " " ++ op.symbol ++ " " ++ second)
      (tokens ++ Token.sign op.symbol :: others) := by
  intro tail parted
  simpa using left.before (spaced op (right tail parted)) rfl

/-- A conditional. -/
theorem conditional (test : Prints first tokens) (chosen : Prints second others)
    (otherwise : Prints third more) :
    Prints (first ++ " ? " ++ second ++ " : " ++ third)
      (tokens ++ Token.sign "?" :: others ++ Token.mark ":" :: more) := by
  intro tail parted
  have colon : Spells (' ' :: ':' :: ' ' :: _) tail (.mark ":" :: _) :=
    Spells.cons_blank (Spells.cons_mark rfl (by decide) (otherwise tail parted).cons_blank)
  have apart : ∀ behind next, (' ' :: behind).head? = some next →
      ('?', next) ∉ doubleOperators := by
    rintro behind next begins
    obtain rfl : ' ' = next := by simpa using begins
    decide
  have question : Spells (' ' :: '?' :: ' ' :: _) tail (.sign "?" :: _) :=
    Spells.cons_blank
      (Spells.cons_sign rfl (by decide) (by decide) (apart _) (chosen.before colon rfl).cons_blank)
  simpa using test.before question rfl

/-- A member of an expression. -/
theorem member {field : String} (target : Prints first tokens) (named : isName field = true) :
    Prints (first ++ "." ++ field) (tokens ++ [Token.mark ".", Token.named field]) := by
  intro tail parted
  have point : Spells ('.' :: field.toList) tail [.mark ".", .named field] :=
    Spells.cons_mark rfl (by decide) (Prints.name named tail parted)
  simpa using target.before point (parts_point named tail)

/-- A cast of an expression. -/
theorem cast {type : TypeName} (operand : Prints first tokens) (writable : type.Writable) :
    Prints (first ++ " as " ++ type.text) (tokens ++ Token.reserved "as" :: type.tokens) := by
  intro tail parted
  have word : Prints "as" [.reserved "as"] := .keyword (by decide) (by decide)
  have typed := (word.before (Prints.type writable tail parted).cons_blank rfl).cons_blank
  simpa using operand.before typed rfl

end Forms

end Prints

/-- The text of an expression makes no operator in front of it longer. -/
theorem Term.starts {term : Term} (writable : term.Writable) : Prints.Starts term.source := by
  match term with
  | .int _ number => exact Prints.starts_integer number.toInt
  | .bigInt _ number => exact (Prints.starts_integer number.toInt).append "L"
  | .double _ number =>
    have valid := Numeral.ofDecimal_valid (Decimal.shortest number)
    have text : Decimal.Layout.literal.render number = String.ofList
        ((if number.isNegative then ['-'] else []) ++
          (Numeral.ofDecimal (Decimal.shortest number)).chars) := by
      rw [← String.toList_inj, Numeral.render_literal writable, String.toList_ofList]
    rw [Term.source, text]
    exact Prints.starts_signed valid.whole
  | .text _ content =>
    rw [Term.source, Text.quoted, Text.quotedWith]
    exact ((Prints.Starts.known (by decide)).append _).append _
  | .boolean _ truth =>
    rw [Term.source]
    cases truth <;> exact Prints.Starts.known (by decide)
  | .null _ =>
    rw [Term.source]
    exact Prints.Starts.known (by decide)
  | .ints _ numbers =>
    rw [Term.source]
    exact ((Prints.Starts.known (by decide)).append _).append _
  | .name _ word => exact Prints.starts_of_isWordStart (Prints.name_cons writable)
  | .this _ =>
    rw [Term.source]
    exact Prints.Starts.known (by decide)
  | .not _ operand =>
    rw [Term.source]
    exact (Prints.Starts.known (by decide)).append _
  | .negate _ operand =>
    rw [Term.source]
    exact ((Prints.Starts.known (by decide)).append _).append _
  | .binary _ op left right =>
    have first := (Term.starts writable.1).enclosed (op.level + 1) left.level
    rw [Term.source]
    exact ((first.append _).append _).append _ |>.append _
  | .conditional _ condition thenValue elseValue =>
    have first := (Term.starts writable.1).enclosed 7 condition.level
    rw [Term.source]
    exact ((first.append _).append _).append _ |>.append _
  | .member _ target field =>
    have first := (Term.starts writable.1).enclosed 8 target.level
    rw [Term.source]
    exact (first.append _).append _
  | .call _ target method arguments =>
    have first := (Term.starts writable.1).enclosed 8 target.level
    rw [Term.source]
    exact ((first.append _).append _).append _ |>.append _ |>.append _
  | .cast _ operand type =>
    rw [Term.source]
    exact (((Prints.Starts.known (by decide)).append _).append _).append _ |>.append _

mutual

/-- An expression is printed as its tokens. -/
theorem Term.prints {term : Term} (writable : term.Writable) : Prints term.source term.tokens := by
  match term with
  | .int _ number => exact .integer number.toInt
  | .bigInt _ number => exact .long number.toInt
  | .double _ number => exact .double writable
  | .text _ content => exact fun tail _ => .quoted content
  | .boolean _ truth =>
    rw [Term.source, Term.tokens]
    cases truth <;> exact .keyword (by decide) (by decide)
  | .null _ =>
    rw [Term.source, Term.tokens]
    exact .keyword (by decide) (by decide)
  | .ints _ numbers =>
    intro tail parted
    have each : List.Forall₂ Prints (numbers.map fun number => toString number.toInt)
        (numbers.map fun number => integerTokens number.toInt []) := by
      rw [List.forall₂_map_left_iff, List.forall₂_map_right_iff, List.forall₂_same]
      exact fun number _ => .integer number.toInt
    have inner := Prints.listed each (']' :: tail) rfl
    have closing : Spells [']'] tail [.mark "]"] := Spells.cons_mark rfl (by decide) .nil
    have spelled : Spells ('[' :: (_ ++ [']'])) tail (.mark "[" :: (_ ++ [Token.mark "]"])) :=
      Spells.cons_mark rfl (by decide) (inner.append closing)
    simpa [Term.source, Term.tokens] using spelled
  | .name _ word => exact .name writable
  | .this _ =>
    rw [Term.source, Term.tokens]
    exact .keyword (by decide) (by decide)
  | .not _ operand =>
    have inner : Prints operand.source operand.tokens := Term.prints writable
    have starts : Prints.Starts operand.source := Term.starts writable
    exact .unary rfl (by decide) (starts.enclosed _ _) (inner.enclosed _ _)
  | .negate _ operand =>
    have inner : Prints operand.source operand.tokens := Term.prints writable
    have whole : Prints ("(" ++ operand.source ++ ")")
        (.mark "(" :: operand.tokens ++ [Token.mark ")"]) :=
      fun tail _ => inner.parens tail
    have starts : Prints.Starts ("(" ++ operand.source ++ ")") :=
      ((Prints.Starts.known (by decide)).append _).append _
    have signed : Prints ("-" ++ _) (.sign "-" :: _) := .unary rfl (by decide) starts whole
    rw [← String.append_assoc, ← String.append_assoc] at signed
    exact signed
  | .binary _ op left right =>
    exact .binary op ((Term.prints writable.1).enclosed _ _) ((Term.prints writable.2).enclosed _ _)
  | .conditional _ condition thenValue elseValue =>
    exact .conditional ((Term.prints writable.1).enclosed _ _)
      ((Term.prints writable.2.1).enclosed _ _) ((Term.prints writable.2.2).enclosed _ _)
  | .member _ target field => exact ((Term.prints writable.1).enclosed _ _).member writable.2
  | .call _ target method arguments =>
    have first := (Term.prints writable.1).enclosed 8 target.level
    exact first.called writable.2.1 (Term.prints_all writable.2.2)
  | .cast _ operand type =>
    intro tail _
    have first := (Term.prints writable.1).enclosed 8 operand.level
    simpa [Term.source, Term.tokens] using (first.cast writable.2).parens tail

/-- Expressions are printed as their tokens. -/
theorem Term.prints_all {terms : List Term} (writable : Term.AllWritable terms) :
    List.Forall₂ Prints (Term.sources terms) (Term.tokenLists terms) := by
  match terms with
  | [] => exact .nil
  | term :: rest => exact .cons (Term.prints writable.1) (Term.prints_all writable.2)

end

end QueryFusion.Script
