import QueryFusion.Text.Blank
import QueryFusion.Text.Formless
import QueryFusion.Text.Mark

/-!
# Quoted text

A text in double quotes. Quotes, backslashes and a few control characters have short escapes, and
some other characters are written as numbers. Source text numbers only control characters, which is
what the source language reads back; listings number whatever could not be told apart by eye.
-/

namespace QueryFusion.Text

/-- A number in base sixteen. -/
def hexText (number : Nat) : String :=
  String.ofList (Nat.toDigits 16 number)

/-- A character as the number of its code point. -/
def numberedChar (c : Char) : String :=
  "\\u\x7b" ++ hexText c.toNat ++ "\x7d"

/-- The short escape of a character, if it has one. -/
def shortEscape? (c : Char) : Option String :=
  if c = '"' then some "\\\""
  else if c = '\\' then some "\\\\"
  else if c = '\n' then some "\\n"
  else if c = '\r' then some "\\r"
  else if c = '\t' then some "\\t"
  else if c = '\x00' then some "\\0"
  else none

/-- A character inside quotes; those of a class without short escapes are numbered. -/
def quotedChar (numbered : Char → Bool) (c : Char) : String :=
  match shortEscape? c with
  | some escape => escape
  | none => if numbered c then numberedChar c else c.toString

/-- A text in quotes, with a class of characters numbered. -/
def quotedWith (numbered : Char → Bool) (text : String) : String :=
  "\"" ++ String.join (text.toList.map (quotedChar numbered)) ++ "\""

/-- A text in quotes, as source text writes it. -/
def quoted (text : String) : String :=
  quotedWith isControl text

/-- A name in quotes, as listings show it. -/
def quotedName (name : String) : String :=
  quotedWith (fun c => isFormless c || isAttaching c) name

end QueryFusion.Text
