/-!
# Commands of the emitter

Source text is assembled from commands: text on the current line, line breaks and changes of the
indentation. A line is indented when its first text is written, so empty lines stay empty.
-/

namespace QueryFusion.Emit

/-- One step of emission. -/
inductive Command
  /-- Text on the current line. -/
  | content (text : String)
  | newLine
  /-- Indents the lines that follow one step deeper. -/
  | indent
  /-- Takes one step of indentation back from the lines that follow. -/
  | dedent
  deriving DecidableEq, Inhabited

/-- One step of indentation. -/
def indentText : String := "    "

/-- Text written so far. -/
structure Page where
  text : String
  depth : Nat
  /-- Nothing has been written on the current line. -/
  atLineStart : Bool
  deriving DecidableEq, Inhabited

namespace Page

/-- The page without text. -/
def empty : Page :=
  ⟨"", 0, true⟩

/-- Some steps of indentation. -/
def indentation (depth : Nat) : String :=
  String.join (List.replicate depth indentText)

/-- The page after a command. -/
def apply (page : Page) : Command → Page
  | .content text =>
    if text.isEmpty then page
    else
      let start := if page.atLineStart then page.text ++ indentation page.depth else page.text
      { page with text := start ++ text, atLineStart := false }
  | .newLine => { page with text := page.text ++ "\n", atLineStart := true }
  | .indent => { page with depth := page.depth + 1 }
  | .dedent => { page with depth := page.depth - 1 }

end Page

/-- The text of a sequence of commands. -/
def render (commands : List Command) : String :=
  (commands.foldl Page.apply .empty).text

/-- A full line. -/
def lineOf (text : String) : List Command :=
  [.content text, .newLine]

end QueryFusion.Emit
