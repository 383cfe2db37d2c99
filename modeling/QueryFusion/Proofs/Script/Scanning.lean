import Mathlib.Tactic.SplitIfs
import QueryFusion.Proofs.Outcome
import QueryFusion.Script.Lexer
import QueryFusion.Text.Quoted

/-!
# Texts and their tokens

A source text is read token by token, and every token takes at least one character, so the tokens of
a text do not depend on the fuel. A text that stands before another one spells tokens when these are
read first and the other text is read behind them. Texts that spell tokens are put together: from
words, signs, numbers and quoted texts, with blanks and comments between them.
-/

namespace QueryFusion.Script

/-! ## Progress -/

/-- Skipping blanks makes a text no longer. -/
theorem skipBlanks_length (inComment : Bool) (chars : List Char) (position : Position) :
    (skipBlanks inComment chars position).chars.length ≤ chars.length := by
  induction chars generalizing inComment position with
  | nil => simp [skipBlanks]
  | cons c rest step =>
    have further : ∀ inside, (skipBlanks inside rest (position.after c)).chars.length ≤
        rest.length + 1 :=
      fun inside => Nat.le_succ_of_le (step inside (position.after c))
    simp only [skipBlanks, List.length_cons]
    split_ifs
    · exact further false
    · simp
    · exact further true
    · exact further false
    · exact further true
    · simp

/-- A quoted text takes at least its closing quote. -/
theorem readQuoted_length {quoteStart position : Position} {state : Quoted}
    {taken chars : List Char} {text : String} {rest : Rest}
    (done : readQuoted quoteStart state taken chars position = .ok (text, rest)) :
    rest.chars.length < chars.length := by
  fun_induction readQuoted quoteStart state taken chars position with
  | case1 => cases done
  | case2 =>
    simp only [Except.ok.injEq, Prod.mk.injEq] at done
    obtain ⟨-, rfl⟩ := done
    simp
  | case3 => cases done
  | case4 _ _ _ _ _ step => exact Nat.lt_succ_of_lt (step done)
  | case5 _ _ _ _ _ _ _ step => exact Nat.lt_succ_of_lt (step done)
  | case6 _ _ _ step => exact Nat.lt_succ_of_lt (step done)
  | case7 _ _ _ _ _ _ _ step => exact Nat.lt_succ_of_lt (step done)
  | case8 => cases done
  | case9 _ _ _ _ step => exact Nat.lt_succ_of_lt (step done)
  | case10 => cases done
  | case11 _ _ _ _ _ _ _ step => exact Nat.lt_succ_of_lt (step done)
  | case12 _ _ _ _ _ _ _ _ _ step => exact Nat.lt_succ_of_lt (step done)
  | case13 => cases done
  | case14 => cases done

/-- A number takes at least its first digit. -/
theorem readNumber_length {start behind : Rest} {token : Token} {c : Char} {rest : List Char}
    (begins : start.chars = c :: rest) (digit : c.isDigit = true)
    (done : readNumber start = .ok (token, behind)) :
    behind.chars.length < start.chars.length := by
  have taken :
    ∀ size, (start.skip ((start.chars.takeWhile Char.isDigit).length + size)).chars.length
      < start.chars.length := by
    intro size
    simp only [Rest.skip, List.length_drop, begins, List.takeWhile_cons, digit, if_true,
      List.length_cons]
    omega
  unfold readNumber at done
  simp only at done
  split at done
  · cases done
  · split_ifs at done
    all_goals
      simp only [Except.ok.injEq, Prod.mk.injEq, Nat.add_assoc] at done
      obtain ⟨-, rfl⟩ := done
      exact taken _

/-- Every token but the end of the input takes at least one character. -/
theorem readToken_length {start behind : Rest} {token : Token}
    (done : readToken start = .ok (token, behind)) :
    token.isEnd = true ∨ behind.chars.length < start.chars.length := by
  unfold readToken at done
  split at done
  · simp only [Except.ok.injEq, Prod.mk.injEq] at done
    obtain ⟨rfl, -⟩ := done
    exact .inl rfl
  · rename_i c rest begins
    have dropped : ∀ size, (start.skip (size + 1)).chars.length < start.chars.length := by
      intro size
      simp only [Rest.skip, List.length_drop, begins, List.length_cons]
      omega
    split_ifs at done with ended quoted digit letter mark
    · simp only [Except.ok.injEq, Prod.mk.injEq] at done
      obtain ⟨rfl, -⟩ := done
      exact .inl rfl
    · rw [bind_eq_ok_iff] at done
      obtain ⟨⟨text, inner⟩, read, same⟩ := done
      simp only [Except.ok.injEq, Prod.mk.injEq] at same
      obtain ⟨-, rfl⟩ := same
      rw [begins]
      exact .inr (Nat.lt_succ_of_lt (readQuoted_length read))
    · exact .inr (readNumber_length begins digit done)
    · simp only [Except.ok.injEq, readWord, Prod.mk.injEq] at done
      obtain ⟨-, rfl⟩ := done
      have continues : isWordChar c = true := by
        rcases letter with letter | rfl
        · simp [isWordChar, Text.isLetterOrDigit_of_isLetter letter]
        · rfl
      rw [begins, List.takeWhile_cons, continues]
      exact .inr (begins ▸ dropped _)
    · simp only [Except.ok.injEq, Prod.mk.injEq] at done
      obtain ⟨-, rfl⟩ := done
      exact .inr (dropped 0)
    · split at done
      · rename_i symbol found
        simp only [Except.ok.injEq, Prod.mk.injEq] at done
        obtain ⟨-, rfl⟩ := done
        have some_char : symbol ≠ [] := by
          rintro rfl
          unfold operatorOf? at found
          split at found
          · cases found
          · split at found <;> cases found
          · split_ifs at found <;> cases found
        obtain ⟨first, others, rfl⟩ := List.exists_cons_of_ne_nil some_char
        exact .inr (dropped _)
      · cases done

/-- The next token takes at least one character, unless it is the end of the input. -/
theorem nextToken_length {rest behind : Rest} {token : Token}
    (next : nextToken rest = .ok (token, behind)) (inner : token.isEnd = false) :
    behind.chars.length < rest.chars.length := by
  have skipped := skipBlanks_length false rest.chars rest.position
  rcases readToken_length next with ended | shorter
  · rw [inner] at ended
    cases ended
  · exact Nat.lt_of_lt_of_le shorter skipped

/-- The last token is the end of the input, and no other one is. -/
theorem tokensFrom_ends {fuel : Nat} {rest : Rest} {tokens : List Token}
    (read : tokensFrom fuel rest = .ok tokens) :
    ∃ (inner : List Token) (last : Token), tokens = inner ++ [last] ∧ last.isEnd = true ∧
      ∀ token ∈ inner, token.isEnd = false := by
  induction fuel generalizing rest tokens with
  | zero =>
    cases read
    exact ⟨[], _, rfl, rfl, by simp⟩
  | succ fuel step =>
    rw [tokensFrom] at read
    obtain ⟨⟨token, behind⟩, -, read⟩ := bind_eq_ok_iff.1 read
    by_cases ended : token.isEnd = true
    · simp only [ended, if_true, Except.ok.injEq] at read
      exact ⟨[], token, read.symm, ended, by simp⟩
    · simp only [ended] at read
      obtain ⟨others, further, read⟩ := bind_eq_ok_iff.1 read
      cases read
      obtain ⟨inner, last, rfl, last_ends, plain⟩ := step further
      refine ⟨token :: inner, last, rfl, last_ends, ?_⟩
      simpa [Bool.eq_false_iff.2 ended] using plain

/-- The tokens of what is left of a text. -/
def Rest.tokens (rest : Rest) : Except Diagnostic (List Token) :=
  tokensFrom (rest.chars.length + 1) rest

/-- Two amounts of fuel that are enough give the same tokens. -/
theorem tokensFrom_eq_of_lt {fuel other : Nat} {rest : Rest} (enough : rest.chars.length < fuel)
    (alsoEnough : rest.chars.length < other) : tokensFrom fuel rest = tokensFrom other rest := by
  induction fuel generalizing other rest with
  | zero => cases enough
  | succ fuel step =>
    obtain ⟨other, rfl⟩ := Nat.exists_eq_succ_of_ne_zero (Nat.ne_zero_of_lt alsoEnough)
    simp only [tokensFrom]
    cases next : nextToken rest with
    | error diagnostic => rfl
    | ok result =>
      obtain ⟨token, behind⟩ := result
      simp only [ok_bind]
      split
      · rfl
      · rename_i inner
        have shorter := nextToken_length next (Bool.eq_false_iff.2 inner)
        rw [@step other behind (by omega) (by omega)]

/-- Enough fuel gives the tokens of a text. -/
theorem tokensFrom_eq {fuel : Nat} {rest : Rest} (enough : rest.chars.length < fuel) :
    tokensFrom fuel rest = rest.tokens :=
  tokensFrom_eq_of_lt enough (Nat.lt_succ_self _)

/-- A token stands before those of what lies behind it. -/
theorem Rest.tokens_cons {rest behind : Rest} {token : Token}
    (next : nextToken rest = .ok (token, behind)) (inner : token.isEnd = false) :
    rest.tokens = behind.tokens.map (token :: ·) := by
  have shorter := nextToken_length next inner
  rw [Rest.tokens, tokensFrom, next]
  simp only [ok_bind, inner, Bool.false_eq_true, if_false]
  rw [tokensFrom_eq shorter]
  cases behind.tokens <;> rfl

/-! ## Characters -/

/-- Ranges without a common code point have no common character. -/
theorem inRanges_eq_false {left right : List (Nat × Nat)}
    (apart : left.all (fun first => right.all fun second =>
      first.2 < second.1 || second.2 < first.1) = true)
    {c : Char} (inside : Text.inRanges left c = true) : Text.inRanges right c = false := by
  simp only [Text.inRanges, List.any_eq_true, Bool.and_eq_true, decide_eq_true_eq] at inside
  obtain ⟨first, mine, above, below⟩ := inside
  rw [Text.inRanges, List.any_eq_false]
  intro second theirs
  have disjoint := List.all_eq_true.1 (List.all_eq_true.1 apart first mine) second theirs
  simp only [Bool.or_eq_true, decide_eq_true_eq] at disjoint
  simp only [Bool.and_eq_true, decide_eq_true_eq]
  omega

/-- The letters of ASCII. -/
theorem isAlpha_iff {c : Char} : c.isAlpha = true ↔
    (0x41 ≤ c.toNat ∧ c.toNat ≤ 0x5a) ∨ 0x61 ≤ c.toNat ∧ c.toNat ≤ 0x7a := by
  have upper : c.isUpper = true ↔ 0x41 ≤ c.toNat ∧ c.toNat ≤ 0x5a := decide_eq_true_iff
  have lower : c.isLower = true ↔ 0x61 ≤ c.toNat ∧ c.toNat ≤ 0x7a :=
    Bool.and_eq_true_iff.trans (and_congr decide_eq_true_iff decide_eq_true_iff)
  exact Bool.or_eq_true_iff.trans (or_congr upper lower)

/-- A character that may start a word. -/
def isWordStart (c : Char) : Bool :=
  Text.isLetter c || c == '_'

/-- A character that starts a word lies among the letters, or is the underscore. -/
theorem inRanges_of_isWordStart {c : Char} (starts : isWordStart c = true) :
    Text.inRanges ((0x41, 0x5a) :: (0x5f, 0x5f) :: (0x61, 0x7a) :: Text.alphabeticRanges) c =
      true := by
  simp only [isWordStart, Bool.or_eq_true, beq_iff_eq] at starts
  rcases starts with letter | rfl
  · unfold Text.isLetter at letter
    simp only [Text.inRanges, List.any_cons, Bool.or_eq_true]
    split at letter
    · rw [isAlpha_iff] at letter
      simp only [Bool.and_eq_true, decide_eq_true_eq]
      omega
    · exact .inr (.inr (.inr letter))
  · rfl

/-- What starts a word is nothing that the lexer looks for first. -/
theorem isWordStart_cases {c : Char} (starts : isWordStart c = true) :
    c ≠ '\x00' ∧ c ≠ '"' ∧ c ≠ '/' ∧ c.isDigit = false ∧ Text.isBlank c = false ∧
      isWordChar c = true := by
  have inside := inRanges_of_isWordStart starts
  have other : ∀ d, isWordStart d = false → c ≠ d := by
    rintro d stops rfl
    rw [starts] at stops
    cases stops
  refine ⟨other _ (by decide), other _ (by decide), other _ (by decide), ?_, ?_, ?_⟩
  · have apart : Text.inRanges [(0x30, 0x39)] c = false :=
      inRanges_eq_false (by decide +kernel) inside
    simp only [Text.inRanges, List.any_cons, List.any_nil, Bool.or_false, Bool.and_eq_false_iff,
      decide_eq_false_iff_not] at apart
    rw [Bool.eq_false_iff]
    intro digit
    simp only [Char.isDigit, Bool.and_eq_true, decide_eq_true_eq, UInt32.le_iff_toNat_le,
      ge_iff_le] at digit
    have code : c.val.toNat = c.toNat := rfl
    have bounds : ('0'.val.toNat, '9'.val.toNat) = (0x30, 0x39) := by decide
    simp only [Prod.mk.injEq] at bounds
    omega
  · exact inRanges_eq_false (by decide +kernel) inside
  · simp only [isWordStart, Bool.or_eq_true, beq_iff_eq] at starts
    rcases starts with letter | rfl
    · simp [isWordChar, Text.isLetterOrDigit_of_isLetter letter]
    · rfl

/-! ## Spelling -/

/-- What may stand behind a word or a number without changing it. -/
def parts : List Char → Bool
  | [] => true
  | c :: rest =>
    if c = '.' then !(rest.head?.any Char.isDigit) else !isWordChar c && c != '='

/-- The text is a word. -/
def isWord (text : List Char) : Bool :=
  text.head?.any isWordStart && text.all isWordChar

/-- The text consists of digits, at least one. -/
def isDigits (text : List Char) : Bool :=
  !text.isEmpty && text.all Char.isDigit

/-- The text is a fraction, or nothing. -/
def isFraction : List Char → Bool
  | [] => true
  | c :: rest => c == '.' && isDigits rest

/-- The text is an exponent, or nothing. -/
def isExponent : List Char → Bool
  | [] => true
  | c :: rest => c == 'e' && isDigits (rest.drop (signOf rest).length)

/-- The token without its place. -/
def Token.bare (token : Token) : Token :=
  { token with position := .first }

/-- Before the tail, the text is read as the tokens, wherever it stands. -/
def Spells (text tail : List Char) (tokens : List Token) : Prop :=
  ∀ position, ∃ (placed : List Token) (next : Position), placed.map Token.bare = tokens ∧
    Rest.tokens ⟨text ++ tail, position⟩ = (Rest.tokens ⟨tail, next⟩).map (placed ++ ·)

namespace Spells

variable {text first second tail : List Char} {tokens others : List Token}

/-- No text spells no token. -/
theorem nil : Spells [] tail [] := by
  intro position
  refine ⟨[], position, rfl, ?_⟩
  rw [List.nil_append]
  cases Rest.tokens ⟨tail, position⟩ <;> rfl

/-- Texts that stand one behind the other. -/
theorem append (left : Spells first (second ++ tail) tokens) (right : Spells second tail others) :
    Spells (first ++ second) tail (tokens ++ others) := by
  intro position
  obtain ⟨placed, middle, rfl, read⟩ := left position
  obtain ⟨more, next, rfl, further⟩ := right middle
  refine ⟨placed ++ more, next, List.map_append, ?_⟩
  rw [List.append_assoc, read, further]
  cases Rest.tokens ⟨tail, next⟩ with
  | error diagnostic => rfl
  | ok last => simp [Except.map]

/-- A text that is read as one token. -/
theorem one {kind : TokenKind} {literal : String} (inner : kind ≠ .endOfInput)
    (read : ∀ position, ∃ next,
      nextToken ⟨text ++ tail, position⟩ = .ok (⟨kind, literal, position⟩, ⟨tail, next⟩)) :
    Spells text tail [⟨kind, literal, .first⟩] := by
  intro position
  obtain ⟨next, found⟩ := read position
  refine ⟨[⟨kind, literal, position⟩], next, rfl, ?_⟩
  rw [Rest.tokens_cons found (by simpa [Token.isEnd] using inner)]
  rfl

/-- A text that is skipped. -/
theorem skipped (read : ∀ position, ∃ next,
    nextToken ⟨text ++ tail, position⟩ = nextToken ⟨tail, next⟩) : Spells text tail [] := by
  intro position
  obtain ⟨next, same⟩ := read position
  refine ⟨[], next, rfl, ?_⟩
  have equal : Rest.tokens ⟨text ++ tail, position⟩ = Rest.tokens ⟨tail, next⟩ := by
    rw [Rest.tokens, Rest.tokens, tokensFrom, tokensFrom, same]
    cases found : nextToken ⟨tail, next⟩ with
    | error diagnostic => rfl
    | ok result =>
      obtain ⟨token, behind⟩ := result
      cases inner : token.isEnd with
      | true => simp [inner]
      | false =>
        have shorter := nextToken_length found inner
        simp only [ok_bind, inner, Bool.false_eq_true, if_false]
        rw [tokensFrom_eq shorter, tokensFrom_eq (by simp at shorter ⊢; omega)]
  rw [equal]
  cases Rest.tokens ⟨tail, next⟩ <;> rfl

/-- A blank. -/
theorem blank {c : Char} (blank : Text.isBlank c = true) : Spells [c] tail [] := by
  refine skipped fun position => ⟨position.after c, ?_⟩
  simp [nextToken, skipBlanks, blank]

/-- A comment, with the line break behind it. -/
theorem comment {line : List Char} (plain : ∀ c ∈ line, c ≠ '\n' ∧ c ≠ '\x00') :
    Spells ('/' :: '/' :: line ++ ['\n']) tail [] := by
  have ends : ∀ position, ∃ next, skipBlanks true (line ++ '\n' :: tail) position =
      skipBlanks false tail next := by
    induction line with
    | nil => exact fun position => ⟨position.after '\n', rfl⟩
    | cons c rest step =>
      intro position
      obtain ⟨next, same⟩ := step (fun d inside => plain d (List.mem_cons_of_mem c inside))
        (position.after c)
      obtain ⟨goes, last⟩ := plain c List.mem_cons_self
      refine ⟨next, ?_⟩
      simp only [List.cons_append, skipBlanks, if_true, goes, last, if_false, same]
  refine skipped fun position => ?_
  obtain ⟨next, same⟩ := ends ((position.after '/').after '/')
  refine ⟨next, ?_⟩
  have started : skipBlanks false ('/' :: '/' :: line ++ ['\n'] ++ tail) position =
      skipBlanks true (line ++ '\n' :: tail) ((position.after '/').after '/') := by
    have blank : Text.isBlank '/' = false := by decide
    simp [skipBlanks, blank]
  simp only [nextToken, started, same]

/-- The next token of a text that starts with neither a blank nor a comment. -/
theorem nextToken_eq {c : Char} {rest : List Char} {position : Position}
    (solid : Text.isBlank c = false) (code : c ≠ '/' ∨ rest.head? ≠ some '/') :
    nextToken ⟨c :: rest, position⟩ = readToken ⟨c :: rest, position⟩ := by
  have plain : ¬(c = '/' ∧ rest.head? = some '/') := by
    rcases code with other | other
    · exact fun both => other both.1
    · exact fun both => other both.2
  simp [nextToken, skipBlanks, solid, plain]

/-! ### Words and signs -/

/-- What parts is no part of a word. -/
theorem takeWhile_of_parts (parted : parts tail = true) : tail.takeWhile isWordChar = [] := by
  cases tail with
  | nil => rfl
  | cons c rest =>
    have stops : isWordChar c = false := by
      simp only [parts] at parted
      split at parted
      · rename_i dot
        rw [dot]
        decide
      · simp only [Bool.and_eq_true, Bool.not_eq_true'] at parted
        exact parted.1
    simp [stops]

/-- A word is read as a keyword or a name. -/
theorem word (valid : isWord text = true) (parted : parts tail = true) :
    Spells text tail
      [⟨if isKeyword (String.ofList text) then .keyword else .identifier, String.ofList text,
        .first⟩] := by
  obtain ⟨c, rest, rfl⟩ : ∃ c rest, text = c :: rest := by
    cases text with
    | nil => cases valid
    | cons c rest => exact ⟨c, rest, rfl⟩
  simp only [isWord, List.head?_cons, Option.any_some, Bool.and_eq_true, List.all_eq_true] at valid
  obtain ⟨starts, continues⟩ := valid
  obtain ⟨notEnd, notQuote, notSlash, notDigit, solid, -⟩ := isWordStart_cases starts
  have letter : Text.isLetter c = true ∨ c = '_' := by simpa [isWordStart] using starts
  have whole : (c :: (rest ++ tail)).takeWhile isWordChar = c :: rest := by
    rw [← List.cons_append, List.takeWhile_append_of_pos continues, takeWhile_of_parts parted,
      List.append_nil]
  refine one (by split <;> simp) fun position => ⟨position.afterAll (c :: rest), ?_⟩
  rw [List.cons_append, nextToken_eq solid (.inl notSlash)]
  simp only [readToken, notEnd, notQuote, notDigit, letter, if_true, if_false, Bool.false_eq_true,
    readWord, whole, Rest.skip]
  rw [← List.cons_append, List.drop_left, List.take_left]

/-- A punctuator. -/
theorem punctuator {c : Char} (mark : c ∈ punctuators) :
    Spells [c] tail [⟨.punctuator, String.singleton c, .first⟩] := by
  have shape : punctuators.all (fun d => decide (d ≠ '\x00' ∧ d ≠ '"' ∧ d ≠ '/' ∧
      d.isDigit = false ∧ isWordStart d = false ∧ Text.isBlank d = false)) = true := by decide
  obtain ⟨notEnd, notQuote, notSlash, notDigit, notWord, solid⟩ :=
    of_decide_eq_true (List.all_eq_true.1 shape c mark)
  have notLetter : ¬(Text.isLetter c = true ∨ c = '_') := by simpa [isWordStart] using notWord
  refine one (by decide) fun position => ⟨position.afterAll [c], ?_⟩
  rw [List.cons_append, List.nil_append, nextToken_eq solid (.inl notSlash)]
  simp only [readToken, notEnd, notQuote, notDigit, notLetter, if_false, Bool.false_eq_true,
    List.contains_iff_mem, mark, if_true, Rest.skip, List.drop_one, List.tail_cons]
  rfl

/-- An operator, before what does not make it a longer one. -/
theorem operator {symbol : List Char} (found : operatorOf? (symbol ++ tail) = some symbol)
    (code : (symbol ++ tail).take 2 ≠ ['/', '/']) :
    Spells symbol tail [⟨.operator, String.ofList symbol, .first⟩] := by
  have starts : ∃ c rest, symbol = c :: rest ∧
      c ∈ singleOperators ++ doubleOperators.map Prod.fst := by
    unfold operatorOf? at found
    split at found
    · cases found
    · split_ifs at found with single
      cases found
      exact ⟨_, _, rfl, List.mem_append_left _ (List.contains_iff_mem.1 single)⟩
    · split_ifs at found with double single
      · cases found
        exact ⟨_, _, rfl, List.mem_append_right _
          (List.mem_map_of_mem (List.contains_iff_mem.1 double))⟩
      · cases found
        exact ⟨_, _, rfl, List.mem_append_left _ (List.contains_iff_mem.1 single)⟩
  obtain ⟨c, rest, rfl, sign⟩ := starts
  have shape : (singleOperators ++ doubleOperators.map Prod.fst).all (fun d =>
      decide (d ≠ '\x00' ∧ d ≠ '"' ∧ d.isDigit = false ∧ isWordStart d = false ∧
        d ∉ punctuators ∧ Text.isBlank d = false)) = true := by
    decide
  obtain ⟨notEnd, notQuote, notDigit, notWord, notMark, solid⟩ :=
    of_decide_eq_true (List.all_eq_true.1 shape c sign)
  have notLetter : ¬(Text.isLetter c = true ∨ c = '_') := by simpa [isWordStart] using notWord
  have notComment : c ≠ '/' ∨ (rest ++ tail).head? ≠ some '/' := by
    by_cases slash : c = '/'
    · refine .inr fun next => code ?_
      obtain ⟨others, same⟩ := List.head?_eq_some_iff.1 next
      rw [List.cons_append, same, slash]
      rfl
    · exact .inl slash
  refine one (by decide) fun position => ⟨position.afterAll (c :: rest), ?_⟩
  rw [List.cons_append] at found ⊢
  rw [nextToken_eq solid notComment]
  simp only [readToken, notEnd, notQuote, notDigit, notLetter, if_false, Bool.false_eq_true,
    List.contains_iff_mem, notMark, found, Rest.skip]
  rw [← List.cons_append, List.drop_left, List.take_left]

/-! ### Quoted texts -/

/-- The digits of a code point escape, and the brace behind them. -/
theorem readQuoted_digits {quoteStart start : Position} {read digits taken rest : List Char}
    (short : (read ++ digits).length ≤ 6) (someDigit : read ++ digits ≠ [])
    (valid : ∀ c ∈ digits, isHexDigit c = true)
    (known : Nat.isValidChar (hexValue (read ++ digits))) (position : Position) :
    ∃ next, readQuoted quoteStart (.digits start read) taken (digits ++ '\x7d' :: rest) position =
      readQuoted quoteStart .plain (Char.ofNat (hexValue (read ++ digits)) :: taken) rest next := by
  induction digits generalizing read position with
  | nil =>
    rw [List.append_nil] at someDigit known ⊢
    have brace : isHexDigit '\x7d' = false := by decide
    refine ⟨position.after '\x7d', ?_⟩
    simp only [List.nil_append, readQuoted, brace, Bool.false_eq_true, false_and, if_false]
    rw [if_pos ⟨trivial, someDigit⟩, if_pos known]
  | cons c digits step =>
    have moved : read ++ c :: digits = read ++ [c] ++ digits := List.append_cons read c digits
    rw [moved] at short someDigit known ⊢
    have room : read.length < 6 := by
      simp only [List.length_append, List.length_cons, List.length_nil] at short
      omega
    simp only [List.cons_append, readQuoted]
    rw [if_pos ⟨valid c List.mem_cons_self, room⟩]
    exact step short someDigit (fun d inside => valid d (List.mem_cons_of_mem c inside)) known
      (position.after c)

/-- The digits of a control character. -/
theorem hexDigits_of_control : ∀ number < 160, (Nat.toDigits 16 number).length ≤ 6 ∧
    (Nat.toDigits 16 number).all isHexDigit = true ∧
    hexValue (Nat.toDigits 16 number) = number := by
  decide +kernel

/-- A character inside quotes is read back. -/
theorem readQuoted_char (quoteStart : Position) (taken rest : List Char) (c : Char)
    (position : Position) :
    ∃ next, readQuoted quoteStart .plain taken
        ((Text.quotedChar Text.isControl c).toList ++ rest) position =
      readQuoted quoteStart .plain (c :: taken) rest next := by
  unfold Text.quotedChar Text.shortEscape?
  by_cases quote : c = '"'
  · subst quote
    exact ⟨_, rfl⟩
  by_cases slash : c = '\\'
  · subst slash
    exact ⟨_, rfl⟩
  by_cases line : c = '\n'
  · subst line
    exact ⟨_, rfl⟩
  by_cases back : c = '\r'
  · subst back
    exact ⟨_, rfl⟩
  by_cases tab : c = '\t'
  · subst tab
    exact ⟨_, rfl⟩
  by_cases zero : c = '\x00'
  · subst zero
    exact ⟨_, rfl⟩
  simp only [quote, slash, line, back, tab, zero, if_false]
  by_cases control : Text.isControl c = true
  · rw [if_pos control]
    have small : c.toNat < 160 := by
      simp only [Text.isControl, Bool.or_eq_true, decide_eq_true_eq, Bool.and_eq_true] at control
      omega
    obtain ⟨short, valid, value⟩ := hexDigits_of_control c.toNat small
    obtain ⟨next, read⟩ := @readQuoted_digits quoteStart
      (position.after '\\') [] (Nat.toDigits 16 c.toNat) taken rest short
      Nat.toDigits_ne_nil (List.all_eq_true.1 valid) (by rw [List.nil_append, value]; exact c.valid)
      (((position.after '\\').after 'u').after '\x7b')
    refine ⟨next, ?_⟩
    rw [List.nil_append, value, Char.ofNat_toNat] at read
    rw [← read]
    simp only [Text.numberedChar, Text.hexText, String.toList_append, String.toList_ofList]
    simp [readQuoted]
  · rw [if_neg control]
    refine ⟨position.after c, ?_⟩
    simp [readQuoted, quote, slash, line]

/-- The characters of a quoted text, up to the closing quote. -/
theorem readQuoted_chars (quoteStart : Position) (rest chars taken : List Char)
    (position : Position) :
    ∃ next, readQuoted quoteStart .plain taken
        ((chars.map (Text.quotedChar Text.isControl)).flatMap String.toList ++ '"' :: rest)
        position = .ok (String.ofList (taken.reverse ++ chars), ⟨rest, next⟩) := by
  induction chars generalizing taken position with
  | nil => exact ⟨position.after '"', by simp [readQuoted]⟩
  | cons c chars step =>
    obtain ⟨middle, first⟩ := readQuoted_char quoteStart taken
      ((chars.map (Text.quotedChar Text.isControl)).flatMap String.toList ++ '"' :: rest) c position
    obtain ⟨next, others⟩ := step (c :: taken) middle
    refine ⟨next, ?_⟩
    rw [List.map_cons, List.flatMap_cons, List.append_assoc, first, others]
    simp

/-- A quoted text stands for the text itself. -/
theorem quoted (content : String) :
    Spells (Text.quoted content).toList tail [⟨.string, content, .first⟩] := by
  refine one (by decide) fun position => ?_
  obtain ⟨next, read⟩ := readQuoted_chars position tail content.toList [] (position.after '"')
  have shape : (Text.quoted content).toList ++ tail = '"' ::
      ((content.toList.map (Text.quotedChar Text.isControl)).flatMap String.toList ++
        '"' :: tail) := by
    simp [Text.quoted, Text.quotedWith]
  have solid : Text.isBlank '"' = false := by decide
  refine ⟨next, ?_⟩
  rw [shape, nextToken_eq solid (.inl (by decide))]
  simp [readToken, read]

/-! ### Numbers -/

/-- Digits start with a digit. -/
theorem digits_cons {digits : List Char} (valid : isDigits digits = true) :
    ∃ c rest, digits = c :: rest ∧ c.isDigit = true := by
  cases digits with
  | nil => cases valid
  | cons c rest =>
    simp only [isDigits, List.all_cons, Bool.and_eq_true] at valid
    exact ⟨c, rest, rfl, valid.2.1⟩

/-- Digits take the whole of their text before what is no digit. -/
theorem takeWhile_digits {digits rest : List Char} (valid : isDigits digits = true)
    (stops : rest.takeWhile Char.isDigit = []) :
    (digits ++ rest).takeWhile Char.isDigit = digits := by
  simp only [isDigits, Bool.and_eq_true, List.all_eq_true] at valid
  rw [List.takeWhile_append_of_pos valid.2, stops, List.append_nil]

/-- A digit is no other start of a token, and continues a word. -/
theorem isDigit_cases {c : Char} (digit : c.isDigit = true) :
    c ≠ '\x00' ∧ c ≠ '"' ∧ c ≠ '/' ∧ c ≠ '.' ∧ Text.isBlank c = false ∧ isWordChar c = true := by
  have other : ∀ d, d.isDigit = false → c ≠ d := by
    rintro d stops rfl
    rw [digit] at stops
    cases stops
  have code : c.val.toNat = c.toNat := rfl
  have bounds : ('0'.val.toNat, '9'.val.toNat) = (0x30, 0x39) := by decide
  have alphanumeric : c.isAlphanum = true := by simp [Char.isAlphanum, digit]
  simp only [Prod.mk.injEq] at bounds
  simp only [Char.isDigit, Bool.and_eq_true, decide_eq_true_eq, UInt32.le_iff_toNat_le,
    ge_iff_le] at digit
  have inside : Text.inRanges [(0x30, 0x39)] c = true := by
    simp only [Text.inRanges, List.any_cons, List.any_nil, Bool.or_false, Bool.and_eq_true,
      decide_eq_true_eq]
    omega
  refine ⟨other _ (by decide), other _ (by decide), other _ (by decide), other _ (by decide),
    inRanges_eq_false (by decide) inside, ?_⟩
  have small : c.toNat < 128 := by omega
  simp [isWordChar, Text.isLetterOrDigit, small, alphanumeric]

/-- What parts continues no number. -/
theorem number_of_parts (parted : parts tail = true) :
    isWordChar (tail.headD '\x00') = false ∧ tail.takeWhile Char.isDigit = [] ∧
      fractionOf tail = [] ∧ exponentOf tail = some [] := by
  cases tail with
  | nil => decide
  | cons c rest =>
    simp only [parts] at parted
    split at parted
    · rename_i dot
      subst dot
      refine ⟨by simp only [List.headD_cons]; decide, by simp, ?_, rfl⟩
      cases rest with
      | nil => rfl
      | cons d rest =>
        simp only [List.head?_cons, Option.any_some, Bool.not_eq_true'] at parted
        simp [fractionOf, parted]
    · rename_i other
      simp only [Bool.and_eq_true, Bool.not_eq_true'] at parted
      have notDigit : c.isDigit = false := by
        rw [Bool.eq_false_iff]
        intro digit
        have continues := (isDigit_cases digit).2.2.2.2.2
        rw [parted.1] at continues
        cases continues
      have notMark : ∀ d, isWordChar d = true → c ≠ d := by
        rintro d continues rfl
        rw [parted.1] at continues
        cases continues
      refine ⟨parted.1, by simp [notDigit], ?_, ?_⟩
      · unfold fractionOf
        split
        · simp_all
        · rfl
      · simp [exponentOf, notMark 'e' (by decide), notMark 'E' (by decide)]

/-- A text that starts with a digit is read as a number. -/
theorem nextToken_digit {c : Char} {rest : List Char} (digit : c.isDigit = true)
    (position : Position) :
    nextToken ⟨c :: rest, position⟩ = readNumber ⟨c :: rest, position⟩ := by
  obtain ⟨notEnd, notQuote, notSlash, -, solid, -⟩ := isDigit_cases digit
  rw [nextToken_eq solid (.inl notSlash)]
  simp [readToken, notEnd, notQuote, digit]

/-- A character that does not continue a word is no mark of a number. -/
theorem ne_of_isWordChar {c d : Char} (stops : isWordChar c = false)
    (continues : isWordChar d = true) : c ≠ d := by
  rintro rfl
  rw [stops] at continues
  cases continues

/-- An integer. -/
theorem integer {digits : List Char} (valid : isDigits digits = true)
    (parted : parts tail = true) :
    Spells digits tail [⟨.integer, String.ofList digits, .first⟩] := by
  obtain ⟨stops, noDigit, noFraction, noExponent⟩ := number_of_parts parted
  have whole := takeWhile_digits valid noDigit
  have notLong : tail.headD '\x00' ≠ 'L' := ne_of_isWordChar stops (by decide)
  have notDouble : tail.headD '\x00' ≠ 'D' := ne_of_isWordChar stops (by decide)
  have notUnderscore : tail.headD '\x00' ≠ '_' := ne_of_isWordChar stops (by decide)
  have notLetter : Text.isLetterOrDigit (tail.headD '\x00') = false := by
    simp only [isWordChar, Bool.or_eq_false_iff] at stops
    exact stops.1
  obtain ⟨c, rest, rfl, digit⟩ := digits_cons valid
  refine one (by decide) fun position => ⟨position.afterAll (c :: rest), ?_⟩
  rw [List.cons_append, nextToken_digit digit, ← List.cons_append]
  simp only [readNumber, whole, List.drop_left, noFraction, List.length_nil, List.drop_zero,
    noExponent, notLong, notDouble, ne_eq, not_true_eq_false, or_false, false_and, if_false,
    Nat.add_zero, Rest.skip, notLetter, notUnderscore, List.append_nil, Bool.false_eq_true,
    List.take_left]

/-- An integer with the suffix of the long ones. -/
theorem long {digits : List Char} (valid : isDigits digits = true) (parted : parts tail = true) :
    Spells (digits ++ ['L']) tail [⟨.integer, String.ofList (digits ++ ['L']), .first⟩] := by
  obtain ⟨stops, -, -, -⟩ := number_of_parts parted
  have whole : (digits ++ 'L' :: tail).takeWhile Char.isDigit = digits :=
    takeWhile_digits valid (by simp)
  have noFraction : fractionOf ('L' :: tail) = [] := rfl
  have noExponent : exponentOf ('L' :: tail) = some [] := rfl
  have notUnderscore : tail.headD '\x00' ≠ '_' := ne_of_isWordChar stops (by decide)
  have notLetter : Text.isLetterOrDigit (tail.headD '\x00') = false := by
    simp only [isWordChar, Bool.or_eq_false_iff] at stops
    exact stops.1
  obtain ⟨c, rest, rfl, digit⟩ := digits_cons valid
  refine one (by decide) fun position => ⟨position.afterAll (c :: rest ++ ['L']), ?_⟩
  rw [List.append_assoc, List.singleton_append, List.cons_append, nextToken_digit digit,
    ← List.cons_append]
  have behind : (c :: rest ++ 'L' :: tail).drop ((c :: rest).length + 1) = tail := by
    rw [← List.drop_drop, List.drop_left]
    rfl
  have before : (c :: rest ++ 'L' :: tail).take ((c :: rest).length + 1) = c :: rest ++ ['L'] := by
    rw [List.take_length_add_append]
    rfl
  simp only [readNumber, whole, List.drop_left, noFraction, List.length_nil, List.drop_zero,
    noExponent, List.headD_cons, ne_eq, not_true_eq_false, or_false, not_false_eq_true, and_self,
    true_or, if_true, Nat.add_zero, Rest.skip, behind, before, notLetter, notUnderscore,
      List.append_nil,
    Bool.false_eq_true, if_false]

/-- A fraction is read whole before what is no digit. -/
theorem fractionOf_eq {fraction rest : List Char} (valid : isFraction fraction = true)
    (stops : rest.takeWhile Char.isDigit = []) (none : fractionOf rest = []) :
    fractionOf (fraction ++ rest) = fraction := by
  cases fraction with
  | nil => exact none
  | cons c digits =>
    simp only [isFraction, Bool.and_eq_true, beq_iff_eq] at valid
    obtain ⟨rfl, valid⟩ := valid
    obtain ⟨d, others, rfl, digit⟩ := digits_cons valid
    have whole := takeWhile_digits valid stops
    rw [List.cons_append] at whole
    simp [fractionOf, digit, whole]

/-- An exponent is read whole before what is no digit. -/
theorem exponentOf_eq {exponent : List Char} (valid : isExponent exponent = true)
    (parted : parts tail = true) : exponentOf (exponent ++ tail) = some exponent := by
  obtain ⟨-, stops, -, none⟩ := number_of_parts parted
  cases exponent with
  | nil => exact none
  | cons c rest =>
    simp only [isExponent, Bool.and_eq_true, beq_iff_eq] at valid
    obtain ⟨rfl, valid⟩ := valid
    have sign : signOf (rest ++ tail) = signOf rest := by
      cases rest with
      | nil => cases valid
      | cons d others => rfl
    have signed : signOf rest ++ rest.drop (signOf rest).length = rest := by
      unfold signOf
      split
      · split <;> rfl
      · rfl
    have inside : (signOf rest).length ≤ rest.length := by
      rw [← congrArg List.length signed, List.length_append]
      exact Nat.le_add_right _ _
    have digits := takeWhile_digits valid stops
    have someDigit : rest.drop (signOf rest).length ≠ [] := by
      obtain ⟨d, others, shape, -⟩ := digits_cons valid
      rw [shape]
      exact List.cons_ne_nil _ _
    rw [← List.drop_append_of_le_length inside] at digits
    simp only [exponentOf, List.cons_append, true_or, if_true, sign, digits, someDigit, if_false,
      signed]

/-- A number with a fraction or an exponent. -/
theorem float {whole fraction exponent : List Char} (valid : isDigits whole = true)
    (fractional : isFraction fraction = true) (exponential : isExponent exponent = true)
    (shown : fraction ≠ [] ∨ exponent ≠ []) (parted : parts tail = true) :
    Spells (whole ++ (fraction ++ exponent)) tail
      [⟨.float, String.ofList (whole ++ fraction ++ exponent), .first⟩] := by
  obtain ⟨stops, noDigit, noFraction, -⟩ := number_of_parts parted
  have notLong : tail.headD '\x00' ≠ 'L' := ne_of_isWordChar stops (by decide)
  have notDouble : tail.headD '\x00' ≠ 'D' := ne_of_isWordChar stops (by decide)
  have notUnderscore : tail.headD '\x00' ≠ '_' := ne_of_isWordChar stops (by decide)
  have notLetter : Text.isLetterOrDigit (tail.headD '\x00') = false := by
    simp only [isWordChar, Bool.or_eq_false_iff] at stops
    exact stops.1
  have exponentStops : (exponent ++ tail).takeWhile Char.isDigit = [] ∧
      fractionOf (exponent ++ tail) = [] := by
    cases exponent with
    | nil => exact ⟨noDigit, noFraction⟩
    | cons c rest =>
      simp only [isExponent, Bool.and_eq_true, beq_iff_eq] at exponential
      obtain ⟨rfl, -⟩ := exponential
      exact ⟨by simp, rfl⟩
  have fractionStops : (fraction ++ (exponent ++ tail)).takeWhile Char.isDigit = [] := by
    cases fraction with
    | nil => exact exponentStops.1
    | cons c rest =>
      simp only [isFraction, Bool.and_eq_true, beq_iff_eq] at fractional
      obtain ⟨rfl, -⟩ := fractional
      simp
  have wholeRead := takeWhile_digits valid fractionStops
  have fractionRead := fractionOf_eq fractional exponentStops.1 exponentStops.2
  have exponentRead := exponentOf_eq exponential parted
  have marked : exponent = [] ∨ ∃ rest, exponent = 'e' :: rest := by
    cases exponent with
    | nil => exact .inl rfl
    | cons c rest =>
      simp only [isExponent, Bool.and_eq_true, beq_iff_eq] at exponential
      exact .inr ⟨rest, exponential.1 ▸ rfl⟩
  have size : whole.length + fraction.length + exponent.length + 0 =
      (whole ++ fraction ++ exponent).length := by
    simp [Nat.add_assoc]
  refine one (by decide) fun position =>
    ⟨position.afterAll (whole ++ fraction ++ exponent), ?_⟩
  have together : whole ++ (fraction ++ (exponent ++ tail)) =
      whole ++ fraction ++ exponent ++ tail := by
    simp
  obtain ⟨c, rest, shape, digit⟩ := digits_cons valid
  rw [List.append_assoc, List.append_assoc]
  have started : nextToken ⟨whole ++ (fraction ++ (exponent ++ tail)), position⟩ =
      readNumber ⟨whole ++ (fraction ++ (exponent ++ tail)), position⟩ := by
    rw [shape, List.cons_append, nextToken_digit digit]
  rw [started]
  simp only [readNumber, wholeRead, List.drop_left, fractionRead, exponentRead, notLong, notDouble,
    false_and, or_false, if_false, size, Rest.skip, shown, if_true, ne_eq]
  rw [together, List.drop_left, List.take_left]
  rcases marked with rfl | ⟨rest, rfl⟩
  · simp only [notLetter, notUnderscore, Bool.false_eq_true, or_self, if_false]
  · simp only [notLetter, notUnderscore, Bool.false_eq_true, or_self, if_false]

/-- A text alone has its tokens, in some places, and behind them the end. -/
theorem tokenize_eq {source : String} (spells : Spells source.toList [] tokens) :
    ∃ (placed : List Token) (last : Position), placed.map Token.bare = tokens ∧
      tokenize source = .ok (placed ++ [Token.endAt last]) := by
  obtain ⟨placed, last, same, read⟩ := spells .first
  have ended : Rest.tokens ⟨[], last⟩ = .ok [.endAt last] := rfl
  rw [List.append_nil, ended] at read
  exact ⟨placed, last, same, read⟩

end Spells

-- From here on texts are put together by the lemmas above, and what they spell is not looked into.
attribute [irreducible] Spells

end QueryFusion.Script
