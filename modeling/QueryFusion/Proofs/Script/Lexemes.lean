import Mathlib.Data.List.TakeWhile
import QueryFusion.Proofs.Script.Scanning

/-!
# Spellings of tokens

What a token looks like in a source text: a word, a sign, digits with a fraction and an exponent, or
a text in quotes. Every token that is read takes its spelling from the front of the text, and no
other character.
-/

namespace QueryFusion.Script

/-- What stands between quotes, and the text that it means. -/
inductive Quotes : List Char → List Char → Prop
  | nil : Quotes [] []
  | plain {c : Char} {written content : List Char} (quote : c ≠ '"') (line : c ≠ '\n')
      (slash : c ≠ '\\') (rest : Quotes written content) : Quotes (c :: written) (c :: content)
  | escape {letter c : Char} {written content : List Char} (known : escaped? letter = some c)
      (rest : Quotes written content) : Quotes ('\\' :: letter :: written) (c :: content)
  | code {digits written content : List Char} (someDigit : digits ≠ []) (short : digits.length ≤ 6)
      (valid : digits.all isHexDigit = true) (scalar : Nat.isValidChar (hexValue digits))
      (rest : Quotes written content) :
      Quotes ('\\' :: 'u' :: '\x7b' :: (digits ++ '\x7d' :: written))
        (Char.ofNat (hexValue digits) :: content)

/-- An exponent with its mark in lower case. -/
def lowerMark : List Char → List Char
  | [] => []
  | _ :: digits => 'e' :: digits

/-- An exponent as it may be written, or nothing. -/
def isWrittenExponent (exponent : List Char) : Bool :=
  exponent.head?.all (fun mark => mark == 'e' || mark == 'E') && isExponent (lowerMark exponent)

/-- The text is a spelling of a token of the kind with the literal. -/
inductive Lexeme : List Char → TokenKind → String → Prop
  | word {text : List Char} (valid : isWord text = true) :
      Lexeme text (if isKeyword (String.ofList text) then .keyword else .identifier)
        (String.ofList text)
  | punctuator {c : Char} (known : c ∈ punctuators) :
      Lexeme [c] .punctuator (String.singleton c)
  | single {c : Char} (known : c ∈ singleOperators) : Lexeme [c] .operator (String.ofList [c])
  | double {first second : Char} (known : (first, second) ∈ doubleOperators) :
      Lexeme [first, second] .operator (String.ofList [first, second])
  | integer {digits : List Char} (valid : isDigits digits = true) :
      Lexeme digits .integer (String.ofList digits)
  | long {digits : List Char} (valid : isDigits digits = true) :
      Lexeme (digits ++ ['L']) .integer (String.ofList (digits ++ ['L']))
  | float {whole fraction exponent suffix : List Char} (valid : isDigits whole = true)
      (fractional : isFraction fraction = true) (exponential : isWrittenExponent exponent = true)
      (marked : suffix = ['D'] ∨ suffix = [] ∧ (fraction ≠ [] ∨ exponent ≠ [])) :
      Lexeme (whole ++ fraction ++ exponent ++ suffix) .float
        (String.ofList (whole ++ fraction ++ lowerMark exponent))
  | quoted {written content : List Char} (means : Quotes written content) :
      Lexeme ('"' :: (written ++ ['"'])) .string (String.ofList content)

/-- No spelling starts with a blank. -/
theorem Lexeme.starts {text : List Char} {kind : TokenKind} {literal : String}
    (lexeme : Lexeme text kind literal) : ∃ c rest, text = c :: rest ∧ Text.isBlank c = false := by
  have digits : ∀ {digits}, isDigits digits = true → ∀ behind, ∃ c rest,
      digits ++ behind = c :: rest ∧ Text.isBlank c = false := by
    intro digits valid behind
    obtain ⟨c, rest, rfl, digit⟩ := Spells.digits_cons valid
    exact ⟨c, rest ++ behind, rfl, (Spells.isDigit_cases digit).2.2.2.2.1⟩
  cases lexeme with
  | word valid =>
    cases text with
    | nil => cases valid
    | cons c rest =>
      simp only [isWord, List.head?_cons, Option.any_some, Bool.and_eq_true] at valid
      exact ⟨c, rest, rfl, (isWordStart_cases valid.1).2.2.2.2.1⟩
  | punctuator known =>
    have solid : punctuators.all (!Text.isBlank ·) = true := by decide
    exact ⟨_, [], rfl, by simpa using List.all_eq_true.1 solid _ known⟩
  | single known =>
    have solid : singleOperators.all (!Text.isBlank ·) = true := by decide
    exact ⟨_, [], rfl, by simpa using List.all_eq_true.1 solid _ known⟩
  | double known =>
    have solid : doubleOperators.all (!Text.isBlank ·.1) = true := by decide
    exact ⟨_, _, rfl, by simpa using List.all_eq_true.1 solid _ known⟩
  | integer valid =>
    obtain ⟨c, rest, shape, solid⟩ := digits valid []
    exact ⟨c, rest, by rwa [List.append_nil] at shape, solid⟩
  | long valid => exact digits valid _
  | float valid =>
    simp only [List.append_assoc]
    exact digits valid _
  | quoted => exact ⟨'"', _, rfl, by decide⟩

/-- No spelling is empty. -/
theorem Lexeme.ne_nil {text : List Char} {kind : TokenKind} {literal : String}
    (lexeme : Lexeme text kind literal) : text ≠ [] := by
  obtain ⟨c, rest, rfl, -⟩ := lexeme.starts
  exact List.cons_ne_nil c rest

/-- The end of the input has no spelling. -/
theorem Lexeme.kind_ne {text : List Char} {kind : TokenKind} {literal : String}
    (lexeme : Lexeme text kind literal) : kind ≠ .endOfInput := by
  cases lexeme with
  | word => split <;> decide
  | punctuator | single | double | integer | long | float | quoted => decide

/-! ## Reading a spelling -/

/-- From the start the text is read as the token, and what is behind it is left. -/
structure Lexed (start : Rest) (text : List Char) (token : Token) (behind : Rest) : Prop where
  chars : start.chars = text ++ behind.chars
  position : behind.position = start.position.afterAll text
  place : token.position = start.position
  lexeme : Lexeme text token.kind token.literal

/-- What is skipped at the front of a text. -/
theorem Rest.skip_of_append {start : Rest} {text rest : List Char}
    (shape : start.chars = text ++ rest) :
    start.skip text.length = ⟨rest, start.position.afterAll text⟩ := by
  rw [skip, shape, List.drop_left, List.take_left]

/-- A token whose spelling is skipped. -/
theorem Lexed.of_skip {start : Rest} {text rest : List Char} {kind : TokenKind} {literal : String}
    (shape : start.chars = text ++ rest) (lexeme : Lexeme text kind literal) :
    Lexed start text ⟨kind, literal, start.position⟩ (start.skip text.length) := by
  rw [Rest.skip_of_append shape]
  exact ⟨shape, rfl, rfl, lexeme⟩

/-! ### Quoted texts -/

/-- What of an escape has been read. -/
def Quoted.begun : Quoted → List Char
  | .plain => []
  | .escape => ['\\']
  | .opening _ => ['\\', 'u']
  | .digits _ read => '\\' :: 'u' :: '\x7b' :: read

/-- The digits read so far are digits, and not too many. -/
def Quoted.Proper : Quoted → Prop
  | .digits _ read => read.all isHexDigit = true ∧ read.length ≤ 6
  | _ => True

/-- A quoted text is read up to its closing quote. -/
theorem quotes_of_readQuoted {quoteStart position : Position} {state : Quoted}
    {taken chars : List Char} {text : String} {behind : Rest} (proper : state.Proper)
    (done : readQuoted quoteStart state taken chars position = .ok (text, behind)) :
    ∃ written content, chars = written ++ '"' :: behind.chars ∧
      Quotes (state.begun ++ written) content ∧
      text = String.ofList (taken.reverse ++ content) ∧
      behind.position = position.afterAll (written ++ ['"']) := by
  fun_induction readQuoted quoteStart state taken chars position with
  | case1 => cases done
  | case2 taken rest position =>
    cases done
    exact ⟨[], [], rfl, .nil, by rw [List.append_nil], rfl⟩
  | case3 => cases done
  | case4 taken rest position line quote step =>
    obtain ⟨written, content, rfl, means, same, place⟩ := step trivial done
    exact ⟨'\\' :: written, content, rfl, means, same, place⟩
  | case5 taken c rest position quote line slash step =>
    obtain ⟨written, content, rfl, means, rfl, place⟩ := step trivial done
    exact ⟨c :: written, c :: content, rfl, .plain quote line slash means, by simp, place⟩
  | case6 taken rest position step =>
    obtain ⟨written, content, rfl, means, same, place⟩ := step trivial done
    exact ⟨'u' :: written, content, rfl, means, same, place⟩
  | case7 taken c rest position letter plain known step =>
    obtain ⟨written, content, rfl, means, rfl, place⟩ := step trivial done
    exact ⟨c :: written, plain :: content, rfl, .escape known means, by simp, place⟩
  | case8 => cases done
  | case9 taken start rest position step =>
    obtain ⟨written, content, rfl, means, same, place⟩ := step ⟨rfl, Nat.zero_le 6⟩ done
    exact ⟨'\x7b' :: written, content, rfl, means, same, place⟩
  | case10 => cases done
  | case11 start read taken c rest position digit step =>
    obtain ⟨valid, -⟩ := proper
    have more : (Quoted.digits start (read ++ [c])).Proper := by
      refine ⟨?_, by simpa using Nat.succ_le_of_lt digit.2⟩
      rw [List.all_append, valid, List.all_cons, digit.1]
      rfl
    obtain ⟨written, content, rfl, means, same, place⟩ := step more done
    refine ⟨c :: written, content, rfl, ?_, same, place⟩
    simpa [Quoted.begun] using means
  | case12 start read taken c rest position digit closes scalar step =>
    obtain ⟨written, content, rfl, means, rfl, place⟩ := step trivial done
    obtain ⟨rfl, someDigit⟩ := closes
    refine ⟨'\x7d' :: written, Char.ofNat (hexValue read) :: content, rfl, ?_, by simp, place⟩
    simpa [Quoted.begun] using Quotes.code someDigit proper.2 proper.1 scalar means
  | case13 => cases done
  | case14 => cases done

/-! ### Numbers -/

/-- A fraction stands at the front. -/
theorem fractionOf_spells (chars : List Char) :
    isFraction (fractionOf chars) = true ∧ fractionOf chars <+: chars := by
  unfold fractionOf
  split
  · rename_i c rest
    split
    · rename_i digit
      refine ⟨?_, List.cons_prefix_cons.2 ⟨rfl, List.takeWhile_prefix _⟩⟩
      simp [isFraction, isDigits, digit]
    · exact ⟨rfl, List.nil_prefix⟩
  · exact ⟨rfl, List.nil_prefix⟩

/-- A sign stands at the front. -/
theorem signOf_spells (chars : List Char) : signOf chars <+: chars := by
  unfold signOf
  split
  · split
    · exact List.cons_prefix_cons.2 ⟨rfl, List.nil_prefix⟩
    · exact List.nil_prefix
  · exact List.nil_prefix

/-- The sign of a text is that of its front, if digits stand behind it. -/
theorem signOf_append {chars digits : List Char} (valid : isDigits digits = true) :
    signOf (signOf chars ++ digits) = signOf chars := by
  obtain ⟨d, rest, rfl, digit⟩ := Spells.digits_cons valid
  have other : ∀ c, c.isDigit = false → d ≠ c := by
    rintro c stops rfl
    rw [digit] at stops
    cases stops
  have unsigned : signOf (d :: rest) = [] := by
    simp [signOf, other '+' (by decide), other '-' (by decide)]
  cases chars with
  | nil => exact unsigned
  | cons c chars =>
    by_cases sign : c = '+' ∨ c = '-'
    · simp only [signOf, sign, if_true, List.singleton_append]
    · simp only [signOf, sign, if_false, List.nil_append] at unsigned ⊢
      exact unsigned

/-- An exponent stands at the front. -/
theorem exponentOf_spells {chars exponent : List Char} (found : exponentOf chars = some exponent) :
    isWrittenExponent exponent = true ∧ exponent <+: chars := by
  unfold exponentOf at found
  split at found
  · rename_i c rest
    split at found
    · rename_i mark
      simp only at found
      split at found
      · cases found
      · rename_i someDigit
        cases found
        have split := List.prefix_iff_eq_append.1 (signOf_spells rest)
        generalize rest.drop (signOf rest).length = behind at someDigit split ⊢
        have valid : isDigits (behind.takeWhile Char.isDigit) = true := by
          simp [isDigits, someDigit]
        refine ⟨?_, List.cons_prefix_cons.2 ⟨rfl, ?_⟩⟩
        · have digits :
            isExponent ('e' :: (signOf rest ++ behind.takeWhile Char.isDigit)) = true := by
            rw [isExponent, signOf_append valid, List.drop_left, valid]
            rfl
          rcases mark with rfl | rfl <;> simpa [isWrittenExponent, lowerMark] using digits
        · have front : signOf rest ++ behind.takeWhile Char.isDigit <+: signOf rest ++ behind :=
            (List.prefix_append_right_inj _).2 (List.takeWhile_prefix _)
          rwa [split] at front
    · obtain rfl := Option.some.inj found
      exact ⟨rfl, List.nil_prefix⟩
  · obtain rfl := Option.some.inj found
    exact ⟨rfl, List.nil_prefix⟩

/-- A mark of a type behind a number is a suffix of it. -/
theorem suffix_spells (chars : List Char) (isFloat : Prop) [Decidable isFloat] :
    ∃ suffix more, chars = suffix ++ more ∧
      (if chars.headD '\x00' = 'L' ∧ ¬isFloat ∨ chars.headD '\x00' = 'D' then 1 else 0) =
        suffix.length ∧
      suffix = if chars.headD '\x00' = 'L' ∧ ¬isFloat then ['L']
        else if chars.headD '\x00' = 'D' then ['D'] else [] := by
  have begins : ∀ c, c ≠ '\x00' → chars.headD '\x00' = c → ∃ more, chars = [c] ++ more := by
    intro c other same
    cases chars with
    | nil => exact absurd same.symm other
    | cons d rest => exact ⟨rest, by rw [← same]; rfl⟩
  by_cases isLong : chars.headD '\x00' = 'L' ∧ ¬isFloat
  · obtain ⟨more, shape⟩ := begins 'L' (by decide) isLong.1
    exact ⟨['L'], more, shape, if_pos (.inl isLong), (if_pos isLong).symm⟩
  · by_cases isDouble : chars.headD '\x00' = 'D'
    · obtain ⟨more, shape⟩ := begins 'D' (by decide) isDouble
      exact ⟨['D'], more, shape, if_pos (.inr isDouble), by rw [if_neg isLong, if_pos isDouble]⟩
    · refine ⟨[], chars, rfl, if_neg (not_or.2 ⟨isLong, isDouble⟩), ?_⟩
      rw [if_neg isLong, if_neg isDouble]

/-- A number is read with its fraction, its exponent and its suffix. -/
theorem lexed_of_readNumber {start behind : Rest} {token : Token} {c : Char} {rest : List Char}
    (begins : start.chars = c :: rest) (digit : c.isDigit = true)
    (done : readNumber start = .ok (token, behind)) : ∃ text, Lexed start text token behind := by
  unfold readNumber at done
  simp only at done
  have wholeSplit :=
    List.prefix_iff_eq_append.1 (List.takeWhile_prefix (l := start.chars) Char.isDigit)
  have valid : isDigits (start.chars.takeWhile Char.isDigit) = true := by
    simp [isDigits, begins, digit]
  generalize start.chars.takeWhile Char.isDigit = whole at done wholeSplit valid
  generalize start.chars.drop whole.length = behindWhole at done wholeSplit
  obtain ⟨fractional, front⟩ := fractionOf_spells behindWhole
  have fractionSplit := List.prefix_iff_eq_append.1 front
  generalize fractionOf behindWhole = fraction at done fractional fractionSplit
  generalize behindWhole.drop fraction.length = behindFraction at done fractionSplit
  split at done
  · cases done
  · rename_i exponent found
    obtain ⟨exponential, inside⟩ := exponentOf_spells found
    have exponentSplit := List.prefix_iff_eq_append.1 inside
    generalize behindFraction.drop exponent.length = behindExponent at done exponentSplit
    have shape : start.chars = whole ++ fraction ++ exponent ++ behindExponent := by
      rw [← wholeSplit, ← fractionSplit, ← exponentSplit]
      simp only [List.append_assoc]
    obtain ⟨suffix, more, marked, length, suffixed⟩ :=
      suffix_spells behindExponent (fraction ≠ [] ∨ exponent ≠ [])
    have size : whole.length + fraction.length + exponent.length + suffix.length =
        (whole ++ fraction ++ exponent ++ suffix).length := by
      simp only [List.length_append]
    rw [marked, ← List.append_assoc] at shape
    rw [length, size] at done
    split_ifs at done with invalid isLong isFloat
    · rw [if_pos isLong] at suffixed
      obtain ⟨rfl, rfl⟩ : fraction = [] ∧ exponent = [] := by simpa using isLong.2
      subst suffixed
      cases done
      simp only [List.append_nil] at shape ⊢
      exact ⟨_, .of_skip shape (.long valid)⟩
    · rw [if_neg isLong] at suffixed
      cases done
      refine ⟨_, .of_skip shape (.float valid fractional exponential ?_)⟩
      rw [suffixed]
      split
      · exact .inl rfl
      · rename_i other
        exact .inr ⟨rfl, isFloat.resolve_right other⟩
    · rw [if_neg isLong, if_neg (not_or.1 isFloat).2] at suffixed
      obtain ⟨rfl, rfl⟩ : fraction = [] ∧ exponent = [] := by simpa using (not_or.1 isFloat).1
      subst suffixed
      cases done
      simp only [List.append_nil] at shape ⊢
      exact ⟨_, .of_skip shape (.integer valid)⟩

/-! ### Null characters -/

/-- Digits are no null characters. -/
theorem not_null_of_isDigits {digits : List Char} (valid : isDigits digits = true) :
    '\x00' ∉ digits := by
  intro null
  simp only [isDigits, Bool.and_eq_true, List.all_eq_true] at valid
  exact absurd (valid.2 _ null) (by decide)

/-- An exponent has no null characters. -/
theorem not_null_of_isWrittenExponent {exponent : List Char}
    (valid : isWrittenExponent exponent = true) : '\x00' ∉ exponent := by
  cases exponent with
  | nil => exact List.not_mem_nil
  | cons mark rest =>
    simp only [isWrittenExponent, lowerMark, isExponent, List.head?_cons, Option.all_some,
      Bool.and_eq_true, Bool.or_eq_true, beq_iff_eq] at valid
    obtain ⟨marked, -, digits⟩ := valid
    have signed : '\x00' ∉ signOf rest := by
      unfold signOf
      split
      · split_ifs with sign
        · rcases sign with rfl | rfl <;> decide
        · exact List.not_mem_nil
      · exact List.not_mem_nil
    rw [List.mem_cons, not_or]
    refine ⟨by rcases marked with rfl | rfl <;> decide, fun null => ?_⟩
    rw [← List.prefix_iff_eq_append.1 (signOf_spells rest), List.mem_append] at null
    exact null.elim signed (not_null_of_isDigits digits)

/-- A null character is spelled in quotes only. -/
theorem Lexeme.quote_of_null {text : List Char} {kind : TokenKind} {literal : String}
    (lexeme : Lexeme text kind literal) (null : '\x00' ∈ text) : '"' ∈ text := by
  cases lexeme with
  | word valid =>
    simp only [isWord, Bool.and_eq_true, List.all_eq_true] at valid
    exact absurd (valid.2 _ null) (by decide)
  | punctuator known =>
    obtain rfl := List.mem_singleton.1 null
    exact absurd known (by decide)
  | single known =>
    obtain rfl := List.mem_singleton.1 null
    exact absurd known (by decide)
  | @double first second known =>
    have both : ∀ pair ∈ doubleOperators, '\x00' ≠ pair.1 ∧ '\x00' ≠ pair.2 := by decide
    have apart := both _ known
    simp only [List.mem_cons, apart.1, apart.2, List.not_mem_nil, or_false] at null
  | integer valid => exact absurd null (not_null_of_isDigits valid)
  | long valid =>
    rw [List.mem_append] at null
    exact null.elim (absurd · (not_null_of_isDigits valid)) (absurd · (by decide))
  | @float whole fraction exponent suffix valid fractional exponential marked =>
    simp only [List.mem_append] at null
    rcases null with ((null | null) | null) | null
    · exact absurd null (not_null_of_isDigits valid)
    · cases fraction with
      | nil => cases null
      | cons c digits =>
        simp only [isFraction, Bool.and_eq_true, beq_iff_eq] at fractional
        obtain ⟨rfl, digits⟩ := fractional
        exact (List.mem_cons.1 null).elim (absurd · (by decide))
          (absurd · (not_null_of_isDigits digits))
    · exact absurd null (not_null_of_isWrittenExponent exponential)
    · rcases marked with rfl | ⟨rfl, -⟩ <;> exact absurd null (by decide)
  | quoted => exact List.mem_cons_self

/-! ### Tokens -/

/-- An operator stands at the front. -/
theorem operatorOf?_spells {chars symbol : List Char} (found : operatorOf? chars = some symbol) :
    Lexeme symbol .operator (String.ofList symbol) ∧ symbol <+: chars := by
  unfold operatorOf? at found
  split at found
  · cases found
  · split_ifs at found with single
    cases found
    exact ⟨.single (List.contains_iff_mem.1 single), List.prefix_rfl⟩
  · rename_i c next rest
    split_ifs at found with double single
    · cases found
      exact ⟨.double (List.contains_iff_mem.1 double), rest, rfl⟩
    · cases found
      exact ⟨.single (List.contains_iff_mem.1 single), next :: rest, rfl⟩

/-- Nothing more is read: the text has ended, or a null character stands where a token would. -/
def Cut (chars : List Char) : Prop :=
  chars = [] ∨ chars.head? = some '\x00'

/-- A token is read from its spelling, and the end where the text is cut. -/
theorem lexed_of_readToken {start behind : Rest} {token : Token}
    (done : readToken start = .ok (token, behind)) :
    token = .endAt start.position ∧ Cut start.chars ∨ ∃ text, Lexed start text token behind := by
  unfold readToken at done
  split at done
  · rename_i ended
    cases done
    exact .inl ⟨rfl, .inl ended⟩
  · rename_i c rest begins
    have front : start.chars = [c] ++ rest := begins
    split_ifs at done with ended quote digit letter mark
    · cases done
      exact .inl ⟨rfl, .inr (by rw [begins, ended]; rfl)⟩
    · rw [bind_eq_ok_iff] at done
      obtain ⟨⟨text, inner⟩, read, same⟩ := done
      cases same
      have plain : Quoted.plain.Proper := trivial
      obtain ⟨written, content, rfl, means, rfl, place⟩ := quotes_of_readQuoted plain read
      refine .inr ⟨'"' :: (written ++ ['"']), ?_, ?_, rfl, .quoted means⟩
      · rw [begins, quote]
        simp
      · rw [place, quote]
        rfl
    · exact .inr (lexed_of_readNumber begins digit done)
    · cases done
      have split := List.prefix_iff_eq_append.1
        (List.takeWhile_prefix (l := start.chars) isWordChar)
      have valid : isWord (start.chars.takeWhile isWordChar) = true := by
        have continues : isWordChar c = true := by
          rcases letter with letter | rfl
          · simp [isWordChar, Text.isLetterOrDigit_of_isLetter letter]
          · rfl
        have starts : isWordStart c = true := by simpa [isWordStart] using letter
        simp [isWord, begins, continues, starts]
      exact .inr ⟨_, .of_skip split.symm (.word valid)⟩
    · cases done
      exact .inr ⟨_, .of_skip front (.punctuator (List.contains_iff_mem.1 mark))⟩
    · split at done
      · rename_i symbol found
        cases done
        obtain ⟨lexeme, inside⟩ := operatorOf?_spells found
        exact .inr ⟨_, .of_skip (List.prefix_iff_eq_append.1 inside).symm lexeme⟩
      · cases done

end QueryFusion.Script
