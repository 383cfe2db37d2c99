import Mathlib.Data.List.Induction
import QueryFusion.Proofs.Script.Coverage

/-!
# Places and diagnostics

The lexer counts lines and columns while it reads. In a text without null characters its count is
exact: a token's line and column follow from the text before the token alone. So a diagnostic at a
token is rendered with the line of that token, and with a mark under its first character.
-/

namespace QueryFusion.Script

/-! ## Places in a text -/

/-- The part of the last line of a text, behind its last line break. -/
def lastLine (text : List Char) : List Char :=
  (text.reverse.takeWhile (· ≠ '\n')).reverse

/-- The place behind a text: its lines and the characters of the last one are counted from one. -/
def placeAfter (text : List Char) : Position :=
  ⟨1 + text.count '\n', 1 + (lastLine text).length⟩

/-- The one place lies before the other. -/
def Position.Before (first second : Position) : Prop :=
  first.line < second.line ∨ first.line = second.line ∧ first.column < second.column

namespace Position.Before

variable {first second third : Position}

theorem trans (left : first.Before second) (right : second.Before third) : first.Before third := by
  unfold Position.Before at *
  omega

/-- A character moves the place on. -/
theorem after (place : Position) {c : Char} (plain : c ≠ '\x00') :
    place.Before (place.after c) := by
  unfold Position.Before Position.after
  rw [if_neg plain]
  split_ifs
  · exact .inl (Nat.lt_succ_self _)
  · exact .inr ⟨rfl, Nat.lt_succ_self _⟩

/-- A text that is not empty moves the place on. -/
theorem afterAll (place : Position) {text : List Char} (plain : '\x00' ∉ text) (some : text ≠ []) :
    place.Before (place.afterAll text) := by
  induction text generalizing place with
  | nil => exact absurd rfl some
  | cons c rest step =>
    obtain ⟨first, others⟩ := not_or.1 (List.mem_cons.not.1 plain)
    have moved := after place (Ne.symm first)
    cases rest with
    | nil => exact moved
    | cons d rest => exact moved.trans (step (place.after c) others (List.cons_ne_nil d rest))

end Position.Before

/-- A character behind a text. -/
theorem lastLine_append_singleton (text : List Char) (c : Char) :
    lastLine (text ++ [c]) = if c = '\n' then [] else lastLine text ++ [c] := by
  unfold lastLine
  rw [List.reverse_append, List.reverse_singleton, List.singleton_append, List.takeWhile_cons]
  by_cases line : c = '\n' <;> simp [line]

/-- The lexer's count is exact as long as there are no null characters. -/
theorem afterAll_eq_placeAfter {text : List Char} (plain : '\x00' ∉ text) :
    Position.first.afterAll text = placeAfter text := by
  induction text using List.reverseRecOn with
  | nil => rfl
  | append_singleton text c step =>
    rw [List.mem_append, not_or, List.mem_singleton] at plain
    rw [Position.afterAll_append, step plain.1, placeAfter, placeAfter, lastLine_append_singleton]
    change (Position.mk _ _).after c = _
    rw [Position.after, if_neg (Ne.symm plain.2), List.count_append]
    by_cases line : c = '\n'
    · simp [line, Nat.add_assoc]
    · simp [line, Nat.add_assoc]

/-! ## Places of tokens -/

/-- No piece is empty. -/
theorem TextPiece.Proper.ne_nil {following : List Char} {piece : TextPiece}
    (proper : piece.Proper following) : piece.text ≠ [] := by
  cases piece with
  | blank c => exact List.cons_ne_nil c []
  | comment line => exact List.cons_ne_nil '/' _
  | lexeme text token =>
    have lexeme : Lexeme text token.kind token.literal := proper
    exact lexeme.ne_nil

/-- Tokens that stand where their spellings start stand one after another, and before the end. -/
theorem Stands.increasing {following : List Char} {pieces : List TextPiece} {place : Position}
    (stands : Stands place pieces) (tiles : Tiles following pieces)
    (plain : '\x00' ∉ textOf pieces) :
    let tokens := tokensOf pieces ++ [Token.endAt (place.afterAll (textOf pieces))]
    tokens.Pairwise (fun first second => first.position.Before second.position) ∧
      ∀ token ∈ tokens, token.position = place ∨ place.Before token.position := by
  induction pieces generalizing place with
  | nil =>
    refine ⟨List.pairwise_singleton _ _, fun token only => ?_⟩
    rw [List.mem_singleton.1 only]
    exact .inl rfl
  | cons piece pieces step =>
    obtain ⟨here, further⟩ := stands
    cases tiles with
    | cons proper rest =>
      rw [textOf_cons, List.mem_append, not_or] at plain
      have moved := Position.Before.afterAll place plain.1 proper.ne_nil
      obtain ⟨ordered, behind⟩ := step further rest plain.2
      rw [← Position.afterAll_append, ← textOf_cons] at ordered behind
      have later :
        ∀ token ∈ tokensOf pieces ++ [Token.endAt (place.afterAll (textOf (piece :: pieces)))],
          place.Before token.position := by
        intro token member
        rcases behind token member with same | after
        · exact same ▸ moved
        · exact moved.trans after
      cases known : piece.token? with
      | none =>
        have silent : tokensOf (piece :: pieces) = tokensOf pieces := List.filterMap_cons_none known
        rw [silent]
        exact ⟨ordered, fun token member => .inr (later token member)⟩
      | some first =>
        have front : tokensOf (piece :: pieces) = first :: tokensOf pieces :=
          List.filterMap_cons_some known
        have start : first.position = place := here first known
        rw [front, List.cons_append]
        refine ⟨.cons (fun token member => start ▸ later token member) ordered, ?_⟩
        rintro token (_ | ⟨_, member⟩)
        · exact .inl start
        · exact .inr (later token member)

/-! ## Lines of a text -/

/-- The part of the first line of a text, without its line break. -/
def firstLine (text : List Char) : List Char :=
  if '\n' ∈ text then Diagnostic.dropReturn (text.takeWhile (· ≠ '\n')) else text

/-- A return character at the end of a part of a line is that of the line. -/
theorem dropReturn_append (lead : List Char) {tail : List Char} (some : tail ≠ []) :
    Diagnostic.dropReturn (lead ++ tail) = lead ++ Diagnostic.dropReturn tail := by
  obtain rfl | ⟨inner, c, rfl⟩ := List.eq_nil_or_concat tail
  · exact absurd rfl some
  · unfold Diagnostic.dropReturn
    rw [List.concat_eq_append, ← List.append_assoc, List.getLast?_concat, List.getLast?_concat,
      List.dropLast_concat, List.dropLast_concat]
    split_ifs <;> simp

/-- The first line of a text, of which a part has been read already. -/
theorem linesFrom_head (line text : List Char) (some : text = [] → line ≠ []) :
    (Diagnostic.linesFrom line text)[0]? = .some (
      if '\n' ∈ text then
        Diagnostic.dropReturn (line.reverse ++ text.takeWhile (· ≠ '\n'))
      else line.reverse ++ text) := by
  induction text generalizing line with
  | nil => simp [Diagnostic.linesFrom, some rfl]
  | cons c rest step =>
    rw [Diagnostic.linesFrom]
    split_ifs with breaks inside inside
    · subst breaks
      simp
    · subst breaks
      simp at inside
    · rw [step _ (fun _ => List.cons_ne_nil c line), if_pos ((List.mem_cons.1 inside).resolve_left
        (Ne.symm breaks))]
      simp [breaks]
    · rw [step _ (fun _ => List.cons_ne_nil c line),
        if_neg (not_or.1 (List.mem_cons.not.1 inside)).2]
      simp

/-- The lines of a text in two parts: that on which the second one starts. -/
theorem linesFrom_append (line before after : List Char) (inside : '\n' ∉ line) :
    (Diagnostic.linesFrom line (before ++ after))[before.count '\n']? =
      (Diagnostic.linesFrom ((before.reverse ++ line).takeWhile (· ≠ '\n')) after)[0]? := by
  induction before generalizing line with
  | nil =>
    have whole : line.takeWhile (· ≠ '\n') = line := by
      rw [List.takeWhile_eq_self_iff]
      rintro c member
      have other : c ≠ '\n' := fun same => inside (same ▸ member)
      simpa using other
    simp only [List.reverse_nil, List.nil_append, List.count_nil, whole]
  | cons c before step =>
    rw [List.cons_append, Diagnostic.linesFrom]
    split_ifs with breaks
    · subst breaks
      have stops : (before.reverse ++ '\n' :: line).takeWhile (· ≠ '\n') =
          before.reverse.takeWhile (· ≠ '\n') := by
        rw [List.takeWhile_append]
        split_ifs with whole
        · rw [List.takeWhile_cons_of_neg (by simp), List.append_nil]
          exact (List.takeWhile_prefix _).eq_of_length whole |>.symm
        · rfl
      rw [List.count_cons_self, List.getElem?_cons_succ, step [] List.not_mem_nil, List.append_nil,
        List.reverse_cons, List.append_assoc, List.singleton_append, stops]
    · rw [List.count_cons_of_ne breaks, step (c :: line)
        (List.not_mem_cons_of_ne_of_not_mem (Ne.symm breaks) inside), List.reverse_cons,
        List.append_assoc, List.singleton_append]

/-! ## Diagnostics -/

/-- A diagnostic with a line and a mark under the first character of the second part of the line. -/
def Diagnostic.marked (diagnostic : Diagnostic) (lead tail : List Char) : String :=
  diagnostic.text ++ "\n" ++ String.ofList (lead ++ tail) ++ "\n" ++
    String.ofList (List.replicate lead.length ' ' ++ ['^'])

/-- A diagnostic at a place inside a line shows the line and marks the place. -/
theorem render_of_placeAfter {source : String} {before after : List Char} {diagnostic : Diagnostic}
    (shape : source.toList = before ++ after) (place : diagnostic.position = placeAfter before)
    (line : after = [] → lastLine before ≠ []) (inside : after.head? ≠ some '\n') :
    diagnostic.render source = diagnostic.marked (lastLine before) (firstLine after) := by
  have found : (Diagnostic.linesFrom [] source.toList)[before.count '\n']? =
      some (lastLine before ++ firstLine after) := by
    rw [shape, linesFrom_append [] before after List.not_mem_nil, List.append_nil,
      linesFrom_head _ _ (fun ends none => line ends (by rw [lastLine, none]; rfl))]
    change some (if '\n' ∈ after then Diagnostic.dropReturn (lastLine before ++ _) else
      lastLine before ++ after) = _
    unfold firstLine
    split_ifs with breaks
    · rw [dropReturn_append]
      cases after with
      | nil => cases breaks
      | cons c rest =>
        have other : c ≠ '\n' := fun same => inside (congrArg some same)
        simp [other]
    · rfl
  rw [Diagnostic.render, Diagnostic.line?, place]
  simp only [placeAfter, Nat.add_comm 1, found, Option.map_some, Nat.add_sub_cancel]
  rfl

/-- A character that is no part of a line break starts the first line. -/
theorem head?_firstLine {c : Char} (rest : List Char) (line : c ≠ '\n') (back : c ≠ '\x0d') :
    (firstLine (c :: rest)).head? = some c := by
  have whole : (c :: rest).takeWhile (· ≠ '\n') = [c] ++ rest.takeWhile (· ≠ '\n') := by
    simp [line]
  unfold firstLine
  rw [whole]
  split_ifs with breaks
  · cases rest.takeWhile (· ≠ '\n') with
    | nil => simp [Diagnostic.dropReturn, back]
    | cons d others =>
      rw [dropReturn_append _ (List.cons_ne_nil d others)]
      rfl
  · rfl

/-- The text falls into pieces with these tokens. Every token stands where its spelling starts, the
last one at the end, and each one behind those before it. A diagnostic at a token is rendered with
the token's line, and the mark stands under the first character of the token. -/
structure ExactPlaces (source : String) (tokens : List Token) (pieces : List TextPiece) : Prop where
  shape : source.toList = textOf pieces
  tiles : Tiles [] pieces
  ended : tokens = tokensOf pieces ++ [Token.endAt (placeAfter source.toList)]
  ordered : tokens.Pairwise fun first second => first.position.Before second.position
  placed : ∀ before text token after, pieces = before ++ TextPiece.lexeme text token :: after →
    token.position = placeAfter (textOf before)
  rendered : ∀ diagnostic, parse source = .error diagnostic →
    ∀ before text token after, pieces = before ++ TextPiece.lexeme text token :: after →
      diagnostic.position = token.position →
        diagnostic.render source =
            diagnostic.marked (lastLine (textOf before)) (firstLine (text ++ textOf after)) ∧
          ∃ c, text.head? = some c ∧ (firstLine (text ++ textOf after)).head? = some c
  renderedEnd : ∀ diagnostic, parse source = .error diagnostic →
    diagnostic.position = placeAfter source.toList → lastLine source.toList ≠ [] →
      diagnostic.render source = diagnostic.marked (lastLine source.toList) []

/-- A text without null characters is not cut before its end. -/
theorem Cut.eq_nil {chars : List Char} (cut : Cut chars) (plain : '\x00' ∉ chars) : chars = [] := by
  rcases cut with ended | null
  · exact ended
  · exact absurd (List.mem_of_mem_head? null) plain

/-- In a text without null characters all places are exact. -/
theorem exactPlaces_of_tokenize {source : String} {tokens : List Token}
    (plain : '\x00' ∉ source.toList) (read : tokenize source = .ok tokens) :
    ∃ pieces, ExactPlaces source tokens pieces := by
  obtain ⟨pieces, hidden, cuts⟩ := cuts_of_tokenize read
  have shape : source.toList = textOf pieces ++ hidden := cuts.shape
  obtain rfl : hidden = [] := cuts.cut.eq_nil fun null =>
    plain (shape ▸ List.mem_append_right _ null)
  rw [List.append_nil] at shape
  have last : (Rest.ofSource source).position.afterAll (textOf pieces) =
      placeAfter source.toList := by
    rw [← shape]
    exact afterAll_eq_placeAfter plain
  have ended := cuts.tokens
  rw [last] at ended
  have ordered := (cuts.stands.increasing cuts.tiles (shape ▸ plain)).1
  rw [last, ← ended] at ordered
  have placed : ∀ before text token after,
      pieces = before ++ TextPiece.lexeme text token :: after →
      token.position = placeAfter (textOf before) := by
    rintro before text token after rfl
    obtain ⟨-, here, -⟩ := stands_append.1 cuts.stands
    rw [here token rfl]
    refine afterAll_eq_placeAfter fun null => plain ?_
    rw [shape, textOf_append]
    exact List.mem_append_left _ null
  refine ⟨pieces, shape, cuts.tiles, ended, ordered, placed, ?_, ?_⟩
  · rintro diagnostic - before text token after rfl same
    have lexeme : Lexeme text token.kind token.literal := cuts.tiles.proper
    rw [textOf_append, textOf_cons] at shape
    obtain ⟨c, rest, rfl, solid⟩ := lexeme.starts
    have line : c ≠ '\n' := by
      rintro rfl
      exact absurd solid (by decide)
    have back : c ≠ '\x0d' := by
      rintro rfl
      exact absurd solid (by decide)
    refine ⟨?_, c, rfl, head?_firstLine _ line back⟩
    exact render_of_placeAfter shape (same.trans (placed _ _ _ _ rfl)) (fun none => nomatch none)
      (fun breaks => line (Option.some.inj breaks))
  · intro diagnostic _ same line
    have whole : source.toList = source.toList ++ [] := (List.append_nil _).symm
    have shown := render_of_placeAfter whole same (fun _ => line) (fun none => nomatch none)
    rwa [firstLine, if_neg List.not_mem_nil] at shown

/-- A number stands where the name of a unit should. -/
theorem exactPlaces_of_tokenize_unnamed : ∃ tokens pieces,
    tokenize "module a;\n  unit 1" = .ok tokens ∧
      ExactPlaces "module a;\n  unit 1" tokens pieces := by
  have fine : (tokenize "module a;\n  unit 1").toOption.isSome = true := by decide +kernel
  obtain ⟨tokens, read⟩ := Option.isSome_iff_exists.1 fine
  rw [toOption_eq_some_iff] at read
  obtain ⟨pieces, exact⟩ := exactPlaces_of_tokenize (by decide) read
  exact ⟨tokens, pieces, read, exact⟩

example : (parse "module a;\n  unit 1").toOption.isNone ∧
    (match parse "module a;\n  unit 1" with
      | .ok _ => ""
      | .error diagnostic => diagnostic.render "module a;\n  unit 1") =
      "expected identifier, found '1' at line 2, column 8\n  unit 1\n       ^" := by
  decide +kernel

end QueryFusion.Script
