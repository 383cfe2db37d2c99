import QueryFusion.Emit.Command
import QueryFusion.Proofs.Script.Consumption
import QueryFusion.Proofs.Script.ReadingBlocks

/-!
# Emitted lines

Commands that write whole lines can be read one after another: what they write from the start of a
line spells the same tokens wherever the line stands and whatever follows it. Indentation, empty
lines and comments spell nothing. A list with more elements than there are integers is numbered with
integers out of range, so its lines spell other tokens, which the parser does not take.
-/

namespace QueryFusion.Script

/-- Blanks spell nothing. -/
theorem Spells.blanks {text tail : List Char} (blank : ∀ c ∈ text, Text.isBlank c = true) :
    Spells text tail [] := by
  induction text with
  | nil => exact .nil
  | cons c rest step =>
    have first : Spells [c] (rest ++ tail) [] := .blank (blank c (by simp))
    exact first.append (step fun other inside => blank other (by simp [inside]))

end QueryFusion.Script

namespace QueryFusion.Emit

open Script (Token Spells Prints Stmt Overflows)

/-- From the start of a line, the commands write whole lines that spell the tokens. -/
def Yields (commands : List Command) (tokens : List Token) : Prop :=
  ∀ page : Page, page.atLineStart = true → ∃ text,
    (commands.foldl Page.apply page).text = page.text ++ text ∧
      (commands.foldl Page.apply page).atLineStart = true ∧
      ∀ tail, Spells text.toList tail tokens

/-- Indentation is made of blanks. -/
theorem indentation_blank (depth : Nat) :
    ∀ c ∈ (Page.indentation depth).toList, Text.isBlank c = true := by
  intro c inside
  rw [Page.indentation, String.toList_join, List.mem_flatMap] at inside
  obtain ⟨step, member, here⟩ := inside
  obtain ⟨-, rfl⟩ := List.mem_replicate.1 member
  obtain rfl : c = ' ' := by simpa [indentText] using here
  decide

namespace Yields

variable {commands others : List Command} {tokens more : List Token}

/-- No commands. -/
theorem nil : Yields [] [] :=
  fun page starts => ⟨"", by simp, starts, fun _ => by simpa using Spells.nil⟩

/-- Commands one after another. -/
theorem append (first : Yields commands tokens) (second : Yields others more) :
    Yields (commands ++ others) (tokens ++ more) := by
  intro page starts
  obtain ⟨text, written, ends, spells⟩ := first page starts
  obtain ⟨next, further, last, also⟩ := second _ ends
  rw [List.foldl_append]
  refine ⟨text ++ next, ?_, last, fun tail => ?_⟩
  · rw [further, written, String.append_assoc]
  · rw [String.toList_append]
    exact (spells _).append (also tail)

/-- What the commands render spells the tokens. -/
theorem render (yields : Yields commands tokens) :
    Spells (Emit.render commands).toList [] tokens := by
  obtain ⟨text, written, -, spells⟩ := yields .empty rfl
  have start : Page.empty.text = "" := rfl
  rw [start, String.empty_append] at written
  rw [Emit.render, written]
  exact spells []

/-- A change of the indentation. -/
theorem indent : Yields [.indent] [] :=
  fun page starts => ⟨"", by simp [Page.apply], starts, fun _ => by simpa using Spells.nil⟩

/-- A change of the indentation back. -/
theorem dedent : Yields [.dedent] [] :=
  fun page starts => ⟨"", by simp [Page.apply], starts, fun _ => by simpa using Spells.nil⟩

/-- An empty line. -/
theorem newLine : Yields [.newLine] [] :=
  fun page _ => ⟨"\n", by simp [Page.apply], by simp [Page.apply], fun _ => .blank (by decide)⟩

/-- A line whose text, with the end of the line behind it, spells the tokens. -/
theorem of_spells {text : String} (spells : ∀ tail, Spells (text.toList ++ ['\n']) tail tokens) :
    Yields (lineOf text) tokens := by
  intro page starts
  have written : ((lineOf text).foldl Page.apply page).text =
      page.text ++ ((if text.isEmpty then "" else Page.indentation page.depth) ++
        (text ++ "\n")) := by
    cases empty : text.isEmpty with
    | true =>
      obtain rfl : text = "" := by simpa using empty
      simp [lineOf, Page.apply]
    | false => simp [lineOf, Page.apply, starts, empty, String.append_assoc]
  refine ⟨_, written, by simp [lineOf, Page.apply], fun tail => ?_⟩
  have front : Spells (if text.isEmpty then "" else Page.indentation page.depth).toList
      ((text ++ "\n").toList ++ tail) [] := by
    refine .blanks fun c inside => ?_
    split at inside
    · simp at inside
    · exact indentation_blank page.depth c inside
  rw [String.toList_append]
  refine front.append ?_
  rw [String.toList_append]
  exact spells tail

/-- A line whose text spells the tokens. -/
theorem line {text : String} (prints : Prints text tokens) : Yields (lineOf text) tokens := by
  refine of_spells fun tail => ?_
  have ending : Spells ['\n'] tail [] := .blank (by decide)
  have spelled := (prints ('\n' :: tail) rfl).append ending
  rwa [List.append_nil] at spelled

/-- A comment spells nothing. -/
theorem comment {text : String} (plain : ∀ c ∈ text.toList, c ≠ '\n' ∧ c ≠ '\x00') :
    Yields (lineOf ("//" ++ text)) [] := by
  refine of_spells fun tail => ?_
  have spelled := @Spells.comment tail text.toList plain
  simpa using spelled

end Yields

/-- The commands spell the tokens, unless there is too much of something to number it: then what
they spell has an integer out of range. -/
structure Shows (wide : Prop) (commands : List Command) (tokens : List Token) : Prop where
  yields : ¬ wide → Yields commands tokens
  overflows : wide → ∃ spelled, Yields commands spelled ∧ Overflows spelled

namespace Shows

variable {wide more : Prop} {commands others : List Command} {tokens next : List Token}

/-- Commands that spell the tokens. -/
theorem of_yields (yields : Yields commands tokens) : Shows False commands tokens :=
  ⟨fun _ => yields, False.elim⟩

/-- Where nothing is too much, the commands spell the tokens. -/
theorem certain (shown : Shows False commands tokens) : Yields commands tokens :=
  shown.yields not_false

/-- The same in other words. -/
theorem congr (shown : Shows wide commands tokens) (same : wide ↔ more) :
    Shows more commands tokens :=
  ⟨fun fits => shown.yields (mt same.1 fits), fun many => shown.overflows (same.2 many)⟩

/-- The commands spell something. -/
theorem spelled (shown : Shows wide commands tokens) : ∃ spelled, Yields commands spelled := by
  by_cases many : wide
  · obtain ⟨spelled, yields, -⟩ := shown.overflows many
    exact ⟨spelled, yields⟩
  · exact ⟨tokens, shown.yields many⟩

/-- Commands one after another. -/
theorem append (first : Shows wide commands tokens) (second : Shows more others next) :
    Shows (wide ∨ more) (commands ++ others) (tokens ++ next) where
  yields := by
    intro fits
    rw [not_or] at fits
    exact (first.yields fits.1).append (second.yields fits.2)
  overflows := by
    rintro (many | many)
    · obtain ⟨spelled, yields, overflows⟩ := first.overflows many
      obtain ⟨others, also⟩ := second.spelled
      exact ⟨_, yields.append also, overflows.append others⟩
    · obtain ⟨spelled, yields⟩ := first.spelled
      obtain ⟨others, also, overflows⟩ := second.overflows many
      exact ⟨_, yields.append also, overflows.prepend spelled⟩

/-- Commands in front of others that spell their tokens. -/
theorem before (first : Shows wide commands tokens) (second : Yields others next) :
    Shows wide (commands ++ others) (tokens ++ next) :=
  (first.append (of_yields second)).congr (Iff.of_eq (or_false wide))

/-- Commands behind others that spell their tokens. -/
theorem behind (first : Yields commands tokens) (second : Shows more others next) :
    Shows more (commands ++ others) (tokens ++ next) :=
  ((of_yields first).append second).congr (Iff.of_eq (false_or more))

end Shows

end QueryFusion.Emit
