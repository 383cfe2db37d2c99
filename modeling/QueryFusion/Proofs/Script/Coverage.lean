import QueryFusion.Proofs.Script.Consumption
import QueryFusion.Proofs.Script.Pieces

/-!
# Accepted texts in pieces

A unit is accepted when its tokens end with its closing brace. So every character of an accepted
text belongs to the spelling of one token, to a blank or to a comment, up to a null character
outside quotes: that one ends the input, and what is behind it is not looked at.
-/

namespace QueryFusion.Script

/-- The token closes a block or a unit. -/
def Token.isBrace (token : Token) : Bool :=
  token.isPunctuator "\x7d"

/-! ## The closing brace -/

/-- The last token before the rest is a closing brace. -/
def EndsBraced (tokens rest : List Token) : Prop :=
  ∃ inner brace, tokens = inner ++ brace :: rest ∧ brace.isBrace = true

/-- A closing brace that is taken. -/
theorem EndsBraced.behind {tokens : List Token} (closes : (current tokens).isBrace = true) :
    EndsBraced tokens (behind tokens) := by
  cases tokens with
  | nil => cases closes
  | cons brace rest =>
    have inner : brace.isEnd = false := by
      change (brace.kind == .punctuator && brace.literal == "\x7d") = true at closes
      rw [Bool.and_eq_true, beq_iff_eq] at closes
      simp [Token.isEnd, closes.1]
    refine ⟨[], brace, ?_, closes⟩
    change brace :: rest = brace :: if brace.isEnd then brace :: rest else rest
    rw [inner]
    rfl

/-- Tokens in front of others that end with a closing brace. -/
theorem EndsBraced.after {tokens middle rest : List Token} (taken : Taken tokens middle)
    (braced : EndsBraced middle rest) : EndsBraced tokens rest := by
  obtain ⟨used, rfl, -⟩ := taken
  obtain ⟨inner, brace, rfl, closes⟩ := braced
  exact ⟨used ++ inner, brace, (List.append_assoc _ _ _).symm, closes⟩

/-- The members of a unit end with its closing brace. -/
theorem endsBraced_of_members {declared : UnitDecl} {fuel : Nat} {tokens : List Token}
    {unit : UnitDecl} {rest : List Token}
    (read : (descent fuel).members declared tokens = .ok (unit, rest)) :
    EndsBraced tokens rest := by
  induction fuel generalizing declared tokens with
  | zero => cases read
  | succ fuel step =>
    have takes := TakesAll.descent fuel
    change (descent fuel).readMembers declared tokens = .ok (unit, rest) at read
    unfold Descent.readMembers at read
    dsimp only at read
    split at read
    · rename_i closes
      cases read
      exact .behind closes
    split at read
    · rename_i word
      obtain ⟨⟨field, middle⟩, first, read⟩ := bind_eq_ok_iff.1 read
      exact .after (takes_field word _ _ first) (step read)
    split at read
    · rename_i word
      obtain ⟨⟨constructor, middle⟩, first, read⟩ := bind_eq_ok_iff.1 read
      exact .after (takes.readConstructor word _ _ first) (step read)
    split at read
    · obtain ⟨⟨routine, middle⟩, first, read⟩ := bind_eq_ok_iff.1 read
      exact .after (takes.readRoutine tokens _ _ first) (step read)
    · cases read

/-- A unit ends with its closing brace. -/
theorem endsBraced_of_readUnit {fuel : Nat} {tokens rest : List Token} {unit : UnitDecl}
    (read : (descent fuel).readUnit tokens = .ok (unit, rest)) : EndsBraced tokens rest := by
  unfold Descent.readUnit at read
  obtain ⟨⟨_, first⟩, word, read⟩ := bind_eq_ok_iff.1 read
  obtain ⟨⟨⟨name, _⟩, second⟩, named, read⟩ := bind_eq_ok_iff.1 read
  obtain ⟨⟨_, third⟩, extending, read⟩ := bind_eq_ok_iff.1 read
  obtain ⟨⟨⟨base, _⟩, fourth⟩, based, read⟩ := bind_eq_ok_iff.1 read
  obtain ⟨⟨_, fifth⟩, opened, read⟩ := bind_eq_ok_iff.1 read
  have taken : Taken tokens fifth :=
    (takes_keyword _ _ _ _ word).trans <| (takes_identifier _ _ _ named).trans <|
      (takes_keyword _ _ _ _ extending).trans <| (takes_identifier _ _ _ based).trans <|
        takes_punctuator _ _ _ _ opened
  exact .after taken (endsBraced_of_members read)

/-- A source unit ends with the closing brace of its unit, and with it the input ends. -/
theorem endsBraced_of_parseSourceUnit {fuel : Nat} {tokens rest : List Token} {unit : SourceUnit}
    (read : parseSourceUnit fuel tokens = .ok (unit, rest)) :
    EndsBraced tokens rest ∧ (current rest).isEnd = true := by
  obtain ⟨middle, taken, declared, ends⟩ := unit_of_parseSourceUnit read
  exact ⟨.after taken (endsBraced_of_readUnit declared), ends⟩

/-! ## Pieces of an accepted text -/

/-- The spelling of a punctuator. -/
theorem Lexeme.eq_punctuator {text : List Char} {kind : TokenKind} {literal : String}
    (lexeme : Lexeme text kind literal) (mark : kind = .punctuator) :
    literal = String.ofList text := by
  cases lexeme with
  | word => split at mark <;> cases mark
  | punctuator => rfl
  | single | double | integer | long | float | quoted => cases mark

/-- The spelling of a closing brace. -/
theorem Lexeme.eq_brace {text : List Char} {token : Token}
    (lexeme : Lexeme text token.kind token.literal) (closes : token.isBrace = true) :
    text = ['\x7d'] ∧ token = ⟨.punctuator, "\x7d", token.position⟩ := by
  obtain ⟨kind, literal, place⟩ := token
  simp only [Token.isBrace, Token.isPunctuator, Bool.and_eq_true, beq_iff_eq] at closes
  obtain ⟨rfl, rfl⟩ := closes
  refine ⟨?_, rfl⟩
  have same : "\x7d".toList = (String.ofList text).toList :=
    congrArg String.toList (lexeme.eq_punctuator rfl)
  exact String.toList_ofList.symm.trans same.symm

/-- A token among the tokens of pieces is that of one of them, between the others. -/
theorem split_of_tokensOf {pieces : List TextPiece} {inner outer : List Token} {token : Token}
    (tokens : tokensOf pieces = inner ++ token :: outer) :
    ∃ before text after, pieces = before ++ .lexeme text token :: after ∧
      tokensOf before = inner ∧ tokensOf after = outer := by
  obtain ⟨front, others, rfl, first, rest⟩ := List.filterMap_eq_append_iff.1 tokens
  obtain ⟨gaps, piece, after, rfl, silent, here, last⟩ := List.filterMap_eq_cons_iff.1 rest
  cases piece with
  | blank => cases here
  | comment => cases here
  | lexeme text found =>
    obtain rfl := Option.some.inj here
    refine ⟨front ++ gaps, text, after, (List.append_assoc _ _ _).symm, ?_, last⟩
    have gap : tokensOf gaps = [] := List.filterMap_eq_nil_iff.2 silent
    rw [tokensOf_append, gap, List.append_nil]
    exact first

/-- A piece between others is what it is called. -/
theorem Tiles.proper {following : List Char} {before after : List TextPiece} {piece : TextPiece}
    (tiles : Tiles following (before ++ piece :: after)) :
    piece.Proper (textOf after ++ following) := by
  induction before with
  | nil =>
    cases tiles with
    | cons proper => exact proper
  | cons first before step =>
    cases tiles with
    | cons _ rest => exact step rest

/-- No token of pieces ends the input. -/
theorem Tiles.inner {following : List Char} {pieces : List TextPiece}
    (tiles : Tiles following pieces) {token : Token} (among : token ∈ tokensOf pieces) :
    token.isEnd = false := by
  obtain ⟨inner, outer, tokens⟩ := List.append_of_mem among
  obtain ⟨before, text, after, rfl, -⟩ := split_of_tokensOf tokens
  have lexeme : Lexeme text token.kind token.literal := tiles.proper
  simpa [Token.isEnd] using lexeme.kind_ne

/-- Only the last token ends the input, so nothing but that one is left behind a closing brace where
the input ends. -/
theorem eq_of_endsBraced {inner others rest : List Token} {brace : Token} {last : Position}
    (plain : ∀ token ∈ others, token.isEnd = false)
    (shape : inner ++ brace :: rest = others ++ [Token.endAt last]) (closes : brace.isBrace = true)
    (ends : (current rest).isEnd = true) :
    others = inner ++ [brace] ∧ rest = [Token.endAt last] := by
  obtain rfl | ⟨more, final, rfl⟩ := List.eq_nil_or_concat rest
  · obtain ⟨-, same⟩ := List.append_inj' shape rfl
    obtain rfl := List.singleton_inj.1 same
    cases closes
  · rw [List.concat_eq_append] at shape ends ⊢
    rw [← List.cons_append, ← List.append_assoc] at shape
    obtain ⟨rfl, same⟩ := List.append_inj' shape rfl
    cases more with
    | nil => exact ⟨rfl, same⟩
    | cons token more =>
      have inside := plain token (by simp)
      rw [show token.isEnd = true from ends] at inside
      cases inside

/-- An accepted text is cut into the tokens of its unit, the last of them its closing brace, with
blanks and comments between and behind them. Only what stands behind a null character outside quotes
is no part of them. -/
theorem accepted_in_pieces {source : String} {unit : SourceUnit}
    (accepted : parse source = .ok unit) :
    ∃ before place gaps hidden last,
      let brace : Token := ⟨.punctuator, "\x7d", place⟩
      let pieces := before ++ .lexeme ['\x7d'] brace :: gaps
      let tokens := tokensOf before ++ [brace, Token.endAt last]
      source.toList = textOf pieces ++ hidden ∧ Tiles hidden pieces ∧ Stands .first pieces ∧
        tokensOf gaps = [] ∧ Cut hidden ∧ tokenize source = .ok tokens ∧
          parseSourceUnit (fuelFor tokens) tokens = .ok (unit, [.endAt last]) := by
  unfold parse at accepted
  obtain ⟨tokens, read, accepted⟩ := bind_eq_ok_iff.1 accepted
  obtain ⟨⟨_, rest⟩, parsed, same⟩ := bind_eq_ok_iff.1 accepted
  cases same
  obtain ⟨pieces, hidden, cuts⟩ := cuts_of_tokenize read
  obtain ⟨⟨inner, brace, shape, closes⟩, ends⟩ := endsBraced_of_parseSourceUnit parsed
  have whole := cuts.tokens
  generalize Position.afterAll _ _ = last at whole
  obtain ⟨named, rfl⟩ := eq_of_endsBraced (fun _ => cuts.tiles.inner) (shape ▸ whole) closes ends
  obtain ⟨before, text, gaps, rfl, rfl, silent⟩ := split_of_tokensOf named
  have lexeme : Lexeme text brace.kind brace.literal := cuts.tiles.proper
  obtain ⟨rfl, placed⟩ := lexeme.eq_brace closes
  subst shape
  rw [placed] at cuts read parsed
  exact ⟨before, brace.position, gaps, hidden, last, cuts.shape, cuts.tiles, cuts.stands, silent,
    cuts.cut, read, parsed⟩

/-- A text with a remark behind its unit. -/
theorem accepted_in_pieces_remark : ∃ unit,
    parse "module a; unit B extends C \x7b \x7d // done" = .ok unit ∧
    ∃ before place gaps hidden last,
      let brace : Token := ⟨.punctuator, "\x7d", place⟩
      let pieces := before ++ .lexeme ['\x7d'] brace :: gaps
      let tokens := tokensOf before ++ [brace, Token.endAt last]
      "module a; unit B extends C \x7b \x7d // done".toList = textOf pieces ++ hidden ∧
        Tiles hidden pieces ∧ Stands .first pieces ∧ tokensOf gaps = [] ∧ Cut hidden ∧
          tokenize "module a; unit B extends C \x7b \x7d // done" = .ok tokens ∧
            parseSourceUnit (fuelFor tokens) tokens = .ok (unit, [.endAt last]) := by
  have fine : (parse "module a; unit B extends C \x7b \x7d // done").toOption.isSome = true := by
    decide +kernel
  obtain ⟨unit, accepted⟩ := Option.isSome_iff_exists.1 fine
  rw [toOption_eq_some_iff] at accepted
  exact ⟨unit, accepted, accepted_in_pieces accepted⟩

/-- Pieces with a null character have quotes around it. -/
theorem Tiles.quote_of_null {following : List Char} {pieces : List TextPiece}
    (tiles : Tiles following pieces) (null : '\x00' ∈ textOf pieces) : '"' ∈ textOf pieces := by
  induction tiles with
  | nil => cases null
  | @cons piece pieces proper rest step =>
    rw [textOf_cons, List.mem_append] at null ⊢
    refine null.elim (fun here => .inl ?_) (fun behind => .inr (step behind))
    cases piece with
    | blank c =>
      obtain rfl := List.mem_singleton.1 here
      have blank : Text.isBlank '\x00' = true := proper
      exact absurd blank (by decide)
    | comment line =>
      have plain : '\x00' ∉ '/' :: '/' :: line := by simpa using proper.2.1
      exact absurd here plain
    | lexeme text token =>
      have lexeme : Lexeme text token.kind token.literal := proper
      exact lexeme.quote_of_null here

/-- Behind a null character a word is left over: the text is accepted, and yet it does not fall into
pieces. -/
theorem not_in_pieces_of_null : ∃ unit,
    parse "module a; unit B extends C \x7b \x7d\x00 fn" = .ok unit ∧
      ¬∃ pieces, "module a; unit B extends C \x7b \x7d\x00 fn".toList = textOf pieces ∧
        Tiles [] pieces := by
  have fine : (parse "module a; unit B extends C \x7b \x7d\x00 fn").toOption.isSome = true := by
    decide +kernel
  obtain ⟨unit, accepted⟩ := Option.isSome_iff_exists.1 fine
  refine ⟨unit, toOption_eq_some_iff.1 accepted, ?_⟩
  rintro ⟨pieces, shape, tiles⟩
  have quote := tiles.quote_of_null (shape ▸ by decide)
  rw [← shape] at quote
  exact absurd quote (by decide)

end QueryFusion.Script
