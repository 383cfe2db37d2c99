import QueryFusion.Proofs.Script.Lexemes

/-!
# Texts in pieces

A source text falls into pieces: spellings of tokens, and between them blanks and comments. What the
lexer reads is cut into such pieces without a gap, up to the end of the text or to a null character
outside quotes, and its tokens are those of the pieces, in order and in their places.
-/

namespace QueryFusion.Script

/-- A part of a source text. -/
inductive TextPiece
  | blank (c : Char)
  /-- Two slashes and what stands behind them on their line. -/
  | comment (line : List Char)
  | lexeme (text : List Char) (token : Token)

namespace TextPiece

/-- The characters of a piece. -/
def text : TextPiece → List Char
  | blank c => [c]
  | comment line => '/' :: '/' :: line
  | lexeme text _ => text

/-- The token of a piece that is no gap. -/
def token? : TextPiece → Option Token
  | lexeme _ token => some token
  | _ => none

/-- A line ends here. -/
def endsLine : List Char → Bool
  | [] => true
  | c :: _ => c == '\n' || c == '\x00'

/-- The piece is what it is called, before what follows it. -/
def Proper (following : List Char) : TextPiece → Prop
  | blank c => Text.isBlank c = true
  | comment line => '\n' ∉ line ∧ '\x00' ∉ line ∧ endsLine following = true
  | lexeme text token => Lexeme text token.kind token.literal

end TextPiece

/-- The characters of pieces one after another. -/
def textOf (pieces : List TextPiece) : List Char :=
  pieces.flatMap TextPiece.text

/-- The tokens among pieces. -/
def tokensOf (pieces : List TextPiece) : List Token :=
  pieces.filterMap TextPiece.token?

/-- The pieces are what they are called, before what follows them. -/
inductive Tiles (following : List Char) : List TextPiece → Prop
  | nil : Tiles following []
  | cons {piece : TextPiece} {pieces : List TextPiece}
      (proper : piece.Proper (textOf pieces ++ following))
      (rest : Tiles following pieces) : Tiles following (piece :: pieces)

/-- The tokens among the pieces have the places where their spellings start. -/
def Stands : Position → List TextPiece → Prop
  | _, [] => True
  | place, piece :: rest =>
    (∀ token ∈ piece.token?, token.position = place) ∧ Stands (place.afterAll piece.text) rest

/-! ## Gaps -/

/-- The characters are blanks and comments, up to what is left behind them. -/
structure Gaps (chars : List Char) (position : Position) (gaps : List TextPiece) (behind : Rest) :
    Prop where
  shape : chars = textOf gaps ++ behind.chars
  position : behind.position = position.afterAll (textOf gaps)
  tokens : tokensOf gaps = []
  tiles : Tiles behind.chars gaps

namespace Gaps

variable {chars : List Char} {position : Position} {gaps : List TextPiece} {behind : Rest}

/-- No gap. -/
theorem nil (chars : List Char) (position : Position) : Gaps chars position [] ⟨chars, position⟩ :=
  ⟨rfl, rfl, rfl, .nil⟩

/-- A gap in front of others. -/
theorem cons (piece : TextPiece) (rest : Gaps chars (position.afterAll piece.text) gaps behind)
    (silent : piece.token? = none) (proper : piece.Proper chars) :
    Gaps (piece.text ++ chars) position (piece :: gaps) behind where
  shape := by
    rw [rest.shape, ← List.append_assoc]
    rfl
  position := by
    rw [rest.position, ← Position.afterAll_append]
    rfl
  tokens := (List.filterMap_cons_none silent).trans rest.tokens
  tiles := .cons (by rwa [← rest.shape]) rest.tiles

end Gaps

/-- Within a comment, the rest of its line and the gaps behind it are skipped. -/
structure InComment (chars line : List Char) (position : Position) (gaps : List TextPiece)
    (behind : Rest) : Prop where
  goes : '\n' ∉ line
  shows : '\x00' ∉ line
  further : ∃ others, chars = line ++ others ∧ TextPiece.endsLine others = true ∧
    Gaps others (position.afterAll line) gaps behind

/-- What the lexer skips is made of blanks and comments. -/
theorem skipBlanks_gaps (chars : List Char) (position : Position) :
    (∃ gaps, Gaps chars position gaps (skipBlanks false chars position)) ∧
      ∃ line gaps, InComment chars line position gaps (skipBlanks true chars position) := by
  induction chars generalizing position with
  | nil =>
    exact ⟨⟨[], .nil [] position⟩, [], [],
      ⟨List.not_mem_nil, List.not_mem_nil, [], rfl, rfl, .nil [] position⟩⟩
  | cons c rest step =>
    obtain ⟨⟨gaps, follow⟩, line, others, inside⟩ := step (position.after c)
    refine ⟨?_, ?_⟩
    · simp only [skipBlanks, Bool.false_eq_true, if_false]
      split_ifs with blank comment
      · exact ⟨.blank c :: gaps, follow.cons (.blank c) rfl blank⟩
      · obtain ⟨rfl, second⟩ := comment
        obtain ⟨goes, shows, behind, rfl, ends, gap⟩ := inside
        cases line with
        | nil =>
          -- The second slash would end the line of the comment.
          cases behind with
          | nil => cases second
          | cons d behind =>
            obtain rfl : d = '/' := by simpa using second
            cases ends
        | cons d line =>
          obtain rfl : d = '/' := by simpa using second
          rw [List.mem_cons, not_or] at goes shows
          exact ⟨.comment line :: others, gap.cons (.comment line) rfl ⟨goes.2, shows.2, ends⟩⟩
      · exact ⟨[], .nil _ position⟩
    · simp only [skipBlanks, if_true]
      split_ifs with line null
      · subst line
        have blank : Text.isBlank '\n' = true := by decide
        exact ⟨[], .blank '\n' :: gaps, List.not_mem_nil, List.not_mem_nil, _, rfl, rfl,
          follow.cons (.blank '\n') rfl blank⟩
      · subst null
        exact ⟨[], [], List.not_mem_nil, List.not_mem_nil, _, rfl, rfl, .nil _ position⟩
      · obtain ⟨goes, shows, behind, rfl, ends, gap⟩ := inside
        refine ⟨c :: _, others, ?_, ?_, behind, rfl, ends, gap⟩
        · exact List.not_mem_cons_of_ne_of_not_mem (Ne.symm line) goes
        · exact List.not_mem_cons_of_ne_of_not_mem (Ne.symm null) shows

/-! ## Tokens and gaps -/

section Append

variable {following : List Char} {first second : List TextPiece} {place : Position}

/-- The characters of pieces one after another. -/
@[simp] theorem textOf_append (first second : List TextPiece) :
    textOf (first ++ second) = textOf first ++ textOf second :=
  List.flatMap_append

@[simp] theorem textOf_cons (piece : TextPiece) (pieces : List TextPiece) :
    textOf (piece :: pieces) = piece.text ++ textOf pieces :=
  rfl

/-- The tokens among pieces one after another. -/
@[simp] theorem tokensOf_append (first second : List TextPiece) :
    tokensOf (first ++ second) = tokensOf first ++ tokensOf second :=
  List.filterMap_append

@[simp] theorem tokensOf_lexeme (text : List Char) (token : Token) (pieces : List TextPiece) :
    tokensOf (.lexeme text token :: pieces) = token :: tokensOf pieces :=
  rfl

/-- Pieces before others. -/
theorem Tiles.append (left : Tiles (textOf second ++ following) first)
    (right : Tiles following second) : Tiles following (first ++ second) := by
  induction left with
  | nil => exact right
  | @cons piece pieces proper rest step =>
    refine .cons ?_ step
    show piece.Proper (textOf (pieces ++ second) ++ following)
    rwa [textOf_append, List.append_assoc]

/-- The places of pieces before others. -/
theorem stands_append : Stands place (first ++ second) ↔
    Stands place first ∧ Stands (place.afterAll (textOf first)) second := by
  induction first generalizing place with
  | nil => exact (and_iff_right trivial).symm
  | cons piece pieces step =>
    rw [List.cons_append, Stands, step, Stands, textOf_cons, Position.afterAll_append, and_assoc]

/-- Gaps have no tokens that could stand in a wrong place. -/
theorem stands_of_tokensOf (silent : tokensOf first = []) : Stands place first := by
  induction first generalizing place with
  | nil => trivial
  | cons piece pieces step =>
    cases known : piece.token? with
    | none =>
      refine ⟨by simp [known], step ?_⟩
      rwa [tokensOf, List.filterMap_cons_none known] at silent
    | some token =>
      rw [tokensOf, List.filterMap_cons_some known] at silent
      cases silent

end Append

/-- What is left of a text is cut into pieces that start at its place. -/
structure Cuts (rest : Rest) (pieces : List TextPiece) (following : List Char)
    (tokens : List Token) :
    Prop where
  shape : rest.chars = textOf pieces ++ following
  tiles : Tiles following pieces
  stands : Stands rest.position pieces
  tokens : tokens = tokensOf pieces ++ [Token.endAt (rest.position.afterAll (textOf pieces))]
  cut : Cut following

/-- Gaps at the end of a text. -/
theorem Cuts.ended {rest behind : Rest} {gaps : List TextPiece}
    (follow : Gaps rest.chars rest.position gaps behind) (cut : Cut behind.chars) :
    Cuts rest gaps behind.chars [.endAt behind.position] where
  shape := follow.shape
  tiles := follow.tiles
  stands := stands_of_tokensOf follow.tokens
  tokens := by
    rw [follow.tokens, ← follow.position]
    rfl
  cut := cut

/-- Gaps and a token in front of pieces. -/
theorem Cuts.cons {rest start behind : Rest} {gaps pieces : List TextPiece}
    {text following : List Char} {token : Token} {tokens : List Token}
    (follow : Gaps rest.chars rest.position gaps start) (lexed : Lexed start text token behind)
    (cuts : Cuts behind pieces following tokens) :
    Cuts rest (gaps ++ .lexeme text token :: pieces) following (token :: tokens) where
  shape := by
    rw [follow.shape, lexed.chars, cuts.shape, textOf_append, textOf_cons]
    simp [TextPiece.text]
  tiles := by
    have shape : start.chars = textOf (.lexeme text token :: pieces) ++ following := by
      rw [lexed.chars, cuts.shape, textOf_cons, List.append_assoc]
      rfl
    have gap := follow.tiles
    rw [shape] at gap
    exact gap.append (.cons lexed.lexeme cuts.tiles)
  stands := by
    rw [stands_append, ← follow.position]
    refine ⟨stands_of_tokensOf follow.tokens, ?_, ?_⟩
    · rintro _ ⟨⟩
      exact lexed.place
    · have stands := cuts.stands
      rwa [lexed.position] at stands
  tokens := by
    rw [cuts.tokens, tokensOf_append, follow.tokens, List.nil_append, tokensOf_lexeme,
      textOf_append,
      textOf_cons, Position.afterAll_append, Position.afterAll_append, ← follow.position,
      lexed.position]
    rfl
  cut := cuts.cut

/-- The lexer cuts a text into pieces. -/
theorem cuts_of_tokensFrom {fuel : Nat} {rest : Rest} {tokens : List Token}
    (enough : rest.chars.length < fuel) (read : tokensFrom fuel rest = .ok tokens) :
    ∃ pieces following, Cuts rest pieces following tokens := by
  induction fuel generalizing rest tokens with
  | zero => cases enough
  | succ fuel step =>
    obtain ⟨⟨gaps, follow⟩, -⟩ := skipBlanks_gaps rest.chars rest.position
    rw [tokensFrom] at read
    obtain ⟨⟨token, behind⟩, next, read⟩ := bind_eq_ok_iff.1 read
    rcases lexed_of_readToken next with ⟨rfl, cut⟩ | ⟨text, lexed⟩
    · cases read
      exact ⟨gaps, _, .ended follow cut⟩
    · have inner : token.isEnd = false := by simpa [Token.isEnd] using lexed.lexeme.kind_ne
      simp only [inner, Bool.false_eq_true, if_false] at read
      obtain ⟨others, further, read⟩ := bind_eq_ok_iff.1 read
      cases read
      have shorter := nextToken_length next inner
      obtain ⟨pieces, following, cuts⟩ := step (by omega) further
      exact ⟨_, following, cuts.cons follow lexed⟩

/-- Every text that has tokens is cut into pieces, up to what is behind a null character. -/
theorem cuts_of_tokenize {source : String} {tokens : List Token}
    (read : tokenize source = .ok tokens) :
    ∃ pieces following, Cuts (.ofSource source) pieces following tokens :=
  cuts_of_tokensFrom (Nat.lt_succ_self _) read

end QueryFusion.Script
