import QueryFusion.Proofs.Generate.EmittedExpressions
import QueryFusion.Proofs.Script.Fitting

/-!
# Names in the code of expressions

The names that generated code uses can be written, and those of the engine have their modules
imported: the names of locals start with an underscore, which no name of the engine does, and what
is evaluated by the engine imports the modules of rows.
-/

namespace QueryFusion.Generate

open Emit
open Script (Term TypeName Ty Stmt isName isWord isWordChar)

/-! ## Usable names -/

/-- The name can be written, and its module is imported if it is a name of the engine. -/
def Usable (imports : List String) (word : String) : Prop :=
  isName word = true ∧ ∀ moduleName, Symbol.moduleOf? word = some moduleName → moduleName ∈ imports

namespace Usable

variable {imports more : List String} {word : String}

/-- A name that no module provides. -/
theorem of_free (named : isName word = true) (free : Symbol.moduleOf? word = none) :
    Usable imports word := by
  refine ⟨named, fun moduleName provided => ?_⟩
  rw [free] at provided
  cases provided

/-- A name of an imported module. -/
theorem of_module {moduleName : String} (named : isName word = true)
    (provided : Symbol.moduleOf? word = some moduleName) (imported : moduleName ∈ imports) :
    Usable imports word :=
  ⟨named, fun _ found => Option.some.inj (provided.symm.trans found) ▸ imported⟩

/-- More imports. -/
theorem mono (usable : Usable imports word)
    (kept : ∀ moduleName ∈ imports, moduleName ∈ more) : Usable more word :=
  ⟨usable.1, fun moduleName provided => kept moduleName (usable.2 moduleName provided)⟩

end Usable

/-- The names of the engine start with a capital letter. -/
theorem moduleOf?_eq_none {name : String} {first : Char} {rest : List Char}
    (begins : name.toList = first :: rest) (small : first.isUpper = false) :
    Symbol.moduleOf? name = none := by
  have capital : ∀ entry ∈ Symbol.provided, ∀ symbol ∈ entry.2,
      (symbol.toList.head?.any Char.isUpper) = true := by decide
  rw [Symbol.moduleOf?, Option.map_eq_none_iff, List.find?_eq_none]
  intro entry member listed
  have upper := capital entry member name (List.contains_iff_mem.1 listed)
  rw [begins, List.head?_cons, Option.any_some, small] at upper
  cases upper

/-- A word that does not start like a keyword is none. -/
theorem isKeyword_eq_false {name : String} (count : Nat)
    (other : ∀ keyword ∈ Script.keywords, keyword.toList.take count ≠ name.toList.take count) :
    Script.isKeyword name = false := by
  rw [Script.isKeyword, ← Bool.not_eq_true, List.contains_iff_mem]
  exact fun member => other name member rfl

/-- A word that starts with an underscore or a small letter can be used anywhere. -/
theorem Usable.of_begins {imports : List String} {name : String} {first : Char} {rest : List Char}
    (begins : name.toList = first :: rest) (starts : Script.isWordStart first = true)
    (small : first.isUpper = false) (wordy : ∀ c ∈ rest, isWordChar c = true)
    (free : Script.isKeyword name = false) : Usable imports name := by
  obtain ⟨-, -, -, -, -, here⟩ := Script.isWordStart_cases starts
  have whole : isWord name.toList = true := by
    rw [begins, isWord, Bool.and_eq_true, List.all_eq_true]
    exact ⟨starts, List.forall_mem_cons.2 ⟨here, wordy⟩⟩
  refine .of_free ?_ (moduleOf?_eq_none begins small)
  rw [isName, whole, free]
  rfl

/-! ## Names that start with an underscore -/

/-- The text consists of letters, digits and underscores. -/
def Wordy (text : String) : Prop :=
  ∀ c ∈ text.toList, isWordChar c = true

instance (text : String) : Decidable (Wordy text) :=
  decidable_of_iff (text.toList.all isWordChar = true) List.all_eq_true

/-- Texts one behind the other. -/
theorem Wordy.append {first second : String} (left : Wordy first) (right : Wordy second) :
    Wordy (first ++ second) := by
  unfold Wordy
  rw [String.toList_append, List.forall_mem_append]
  exact ⟨left, right⟩

/-- Latin letters and digits are ASCII characters. -/
theorem ascii_of_isAlphanum {c : Char} (alphanumeric : c.isAlphanum = true) : c.toNat < 128 := by
  rcases Bool.or_eq_true_iff.1 alphanumeric with letter | digit
  · rw [Script.isAlpha_iff] at letter
    omega
  · have below : c.toNat ≤ 0x39 := of_decide_eq_true (Bool.and_eq_true_iff.1 digit).2
    omega

/-- Latin letters and digits stand in words. -/
theorem isWordChar_of_isAlphanum {c : Char} (alphanumeric : c.isAlphanum = true) :
    isWordChar c = true := by
  rw [isWordChar, Text.isLetterOrDigit, if_pos (ascii_of_isAlphanum alphanumeric), alphanumeric,
    Bool.true_or]

/-- The digits of a number. -/
theorem wordy_toString (number : Nat) : Wordy (toString number) := by
  have digits : (toString number).toList = Nat.toDigits 10 number := String.toList_ofList
  unfold Wordy
  rw [digits]
  intro c member
  have digit := Nat.isDigit_of_mem_toDigits (by decide) (by decide) member
  exact isWordChar_of_isAlphanum (by rw [Char.isAlphanum, digit, Bool.or_true])

/-- The text of an id that is not negative. -/
theorem wordy_text {id : NodeId} (positive : 0 ≤ id) : Wordy id.text := by
  have sign : 0 ≤ id.toInt := Int32.le_iff_toInt_le.1 positive
  obtain ⟨number, same⟩ := Int.eq_ofNat_of_zero_le sign
  rw [NodeId.text, same]
  exact wordy_toString number

/-- A name that a scan may read. -/
theorem wordy_of_isIdentifier {name : String} (identifier : isIdentifier name = true) :
    Wordy name := by
  unfold isIdentifier at identifier
  unfold Wordy
  split at identifier
  · cases identifier
  · rename_i first rest shape
    rw [shape]
    simp only [Bool.and_eq_true, Bool.or_eq_true, beq_iff_eq, List.all_eq_true] at identifier
    obtain ⟨⟨begins, behind⟩, -⟩ := identifier
    refine List.forall_mem_cons.2 ⟨?_, fun c member => ?_⟩
    · rcases begins with letter | rfl
      · exact isWordChar_of_isAlphanum (by rw [Char.isAlphanum, letter, Bool.true_or])
      · decide
    · rcases behind c member with letter | rfl
      · exact isWordChar_of_isAlphanum letter
      · decide

/-- A name that a scan may read can be written. -/
theorem isName_of_isIdentifier {name : String} (identifier : isIdentifier name = true) :
    isName name = true := by
  have wordy := wordy_of_isIdentifier identifier
  unfold isIdentifier at identifier
  split at identifier
  · cases identifier
  · rename_i first rest shape
    simp only [Bool.and_eq_true, Bool.or_eq_true, beq_iff_eq] at identifier
    obtain ⟨⟨begins, -⟩, free⟩ := identifier
    rw [isName, Bool.and_eq_true]
    refine ⟨?_, free⟩
    unfold Wordy at wordy
    rw [isWord, Bool.and_eq_true, List.all_eq_true]
    refine ⟨?_, wordy⟩
    rw [shape, List.head?_cons, Option.any_some, Script.isWordStart, Bool.or_eq_true, beq_iff_eq]
    refine begins.imp_left fun letter => ?_
    have ascii := ascii_of_isAlphanum (by rw [Char.isAlphanum, letter, Bool.true_or])
    rw [Text.isLetter, if_pos ascii, letter]

/-- A name that starts with an underscore, as those of generated locals and fields do. -/
def Underscored (name : String) : Prop :=
  ∃ rest, Wordy rest ∧ name = "_" ++ rest

namespace Underscored

variable {name rest : String} {imports : List String}

/-- More behind the name. -/
theorem append (underscored : Underscored name) (wordy : Wordy rest) :
    Underscored (name ++ rest) := by
  obtain ⟨behind, before, rfl⟩ := underscored
  exact ⟨behind ++ rest, before.append wordy, String.append_assoc⟩

/-- Such names can be used anywhere. -/
theorem usable (underscored : Underscored name) : Usable imports name := by
  obtain ⟨behind, wordy, rfl⟩ := underscored
  have begins : ("_" ++ behind).toList = '_' :: behind.toList := by simp
  refine .of_begins begins (by decide) (by decide) wordy (isKeyword_eq_false 1 ?_)
  rw [begins, List.take_succ_cons, List.take_zero]
  decide

end Underscored

/-- A stem of a node that is not negative. -/
theorem underscored_stemOf {id : NodeId} (positive : 0 ≤ id) {suffix : String}
    (wordy : Wordy suffix) :
    Underscored (stemOf id suffix) := by
  have point : Wordy "_" := by decide
  refine ⟨id.text ++ "_" ++ suffix, ((wordy_text positive).append point).append wordy, ?_⟩
  simp only [stemOf, String.append_assoc]

/-! ## Expressions -/

/-- The declared name starts with an underscore, and all names in the declaration can be used. -/
def Proper (imports : List String) (binding : Binding) : Prop :=
  Underscored binding.entry.name ∧ binding.statement.Fits (Usable imports)

namespace Inlining

variable {inlining : Inlining} {keeper : Keeper} {expr : Expr} {imports : List String}
  {entry : Local} {bindings : List Binding}

/-- The names of inputs can be used, and those of new locals start with an underscore. -/
structure Suits (inlining : Inlining) (imports : List String) : Prop where
  stem : Underscored inlining.stem
  inputs : ∀ input ∈ inlining.inputs, Usable imports input.name

/-- The name of the row. -/
theorem Suits.row (suits : inlining.Suits imports) : Underscored inlining.rowName :=
  suits.stem.append (by decide)

/-- The numbered names. -/
theorem Suits.number (suits : inlining.Suits imports) (number : Nat) :
    Underscored (inlining.nameOf number) := by
  have point : Wordy "_" := by decide
  unfold nameOf
  rw [String.append_assoc]
  exact suits.stem.append (point.append (wordy_toString number))

/-- The types of scalars can be used anywhere. -/
theorem fits_scalar (type : DataType) :
    (writtenType (LocalType.scalar type).ty).Fits (Usable imports) := by
  cases type <;> exact ⟨.of_free (by decide) (by decide), fun _ missing => nomatch missing⟩

/-- The type of all values can be used anywhere. -/
theorem fits_value : (writtenType LocalType.value.ty).Fits (Usable imports) :=
  ⟨.of_free (by decide) (by decide), fun _ missing => nomatch missing⟩

/-- A declaration is proper when its name, its type and its value are. -/
theorem proper_declare {name : String} {type : LocalType} {value : Term} (named : Underscored name)
    (typed : (writtenType type.ty).Fits (Usable imports)) (fits : value.Fits (Usable imports)) :
    Proper imports ⟨⟨name, type⟩, value⟩ :=
  ⟨named, named.usable, typed, fits⟩

/-- One more proper declaration. -/
theorem proper_append {name : String} {type : LocalType} {value : Term}
    (before : ∀ binding ∈ bindings, Proper imports binding) (named : Underscored name)
    (typed : (writtenType type.ty).Fits (Usable imports)) (fits : value.Fits (Usable imports)) :
    ∀ binding ∈ bindings ++ [⟨⟨name, type⟩, value⟩], Proper imports binding := by
  rw [List.forall_mem_append, List.forall_mem_singleton]
  exact ⟨before, proper_declare named typed fits⟩

/-- A converted local. -/
theorem fits_convertTerm? {target : DataType} {term : Term} (named : Usable imports entry.name)
    (found : convertTerm? entry target = some term) : term.Fits (Usable imports) := by
  unfold convertTerm? at found
  split at found
  · cases found
    exact named
  · split at found
    · cases found
    · cases found
      exact ⟨named, fits_scalar target⟩

/-- The literal of a constant, and the type of its local. -/
theorem fits_constantTerm? {value : Value} {type : DataType} {localType : LocalType} {term : Term}
    (written : constantTerm? value type = some (localType, term)) :
    term.Fits (Usable imports) ∧ (writtenType localType.ty).Fits (Usable imports) := by
  cases value with
  | null =>
    cases written
    refine ⟨trivial, ?_⟩
    split
    · exact fits_value
    · exact fits_scalar type
  | boolean truth | int number | bigInt number | varchar text =>
    cases written
    exact ⟨trivial, fits_scalar _⟩
  | double number =>
    simp only [constantTerm?] at written
    split at written
    · rename_i finite
      cases written
      exact ⟨finite, fits_scalar _⟩
    · cases written
  | object identity className fields => cases written

/-- What makes a local boolean. -/
theorem Booleans.fits {plain : Local} {number next : Nat}
    (booleans : Booleans inlining plain number entry next bindings) (suits : inlining.Suits imports)
    (named : Usable imports plain.name) :
    Usable imports entry.name ∧ ∀ binding ∈ bindings, Proper imports binding := by
  cases booleans with
  | same => exact ⟨named, fun _ member => nomatch member⟩
  | cast =>
    refine ⟨(suits.number _).usable, ?_⟩
    rw [List.forall_mem_singleton]
    exact proper_declare (suits.number _) (fits_scalar .boolean) ⟨named, fits_scalar .boolean⟩

/-- What an expression is inlined as. -/
theorem Inlines.fits {number next : Nat}
    (inlines : Inlines inlining expr number entry next bindings) (suits : inlining.Suits imports) :
    Usable imports entry.name ∧ ∀ binding ∈ bindings, Proper imports binding := by
  have fresh : ∀ number, Usable imports (inlining.nameOf number) := fun number =>
    (suits.number number).usable
  induction inlines with
  | column present =>
    exact ⟨suits.inputs _ (List.mem_of_getElem? present), fun _ member => nomatch member⟩
  | constant written =>
    refine ⟨fresh _, ?_⟩
    rw [List.forall_mem_singleton]
    obtain ⟨fits, typed⟩ := fits_constantTerm? written
    exact proper_declare (suits.number _) typed fits
  | arithmetic plain numeric first second leftConverts rightConverts firstStep secondStep
  | comparison comparable first second leftConverts rightConverts firstStep secondStep =>
    obtain ⟨leftNamed, leftProper⟩ := firstStep
    obtain ⟨rightNamed, rightProper⟩ := secondStep
    refine ⟨fresh _, proper_append (List.forall_mem_append.2 ⟨leftProper, rightProper⟩)
      (suits.number _) (fits_scalar _) ?_⟩
    exact ⟨⟨⟨leftNamed, trivial⟩, rightNamed, trivial⟩, trivial,
      fits_convertTerm? leftNamed leftConverts, fits_convertTerm? rightNamed rightConverts⟩
  | logical first leftBoolean second rightBoolean firstStep secondStep =>
    obtain ⟨leftNamed, leftMore⟩ := leftBoolean.fits suits firstStep.1
    obtain ⟨rightNamed, rightMore⟩ := rightBoolean.fits suits secondStep.1
    refine ⟨fresh _, proper_append (List.forall_mem_append.2
      ⟨List.forall_mem_append.2 ⟨firstStep.2, leftMore⟩,
        List.forall_mem_append.2 ⟨secondStep.2, rightMore⟩⟩) (suits.number _) (fits_scalar _) ?_⟩
    exact ⟨⟨⟨leftNamed, trivial⟩, rightNamed, trivial⟩, trivial,
      ⟨⟨leftNamed, trivial⟩, rightNamed, trivial⟩, trivial, trivial⟩
  | not inner boolean step =>
    obtain ⟨entryNamed, more⟩ := boolean.fits suits step.1
    refine ⟨fresh _, proper_append (List.forall_mem_append.2 ⟨step.2, more⟩) (suits.number _)
      (fits_scalar _) ?_⟩
    exact ⟨⟨entryNamed, trivial⟩, trivial, entryNamed⟩
  | isNull inner step =>
    exact ⟨fresh _, proper_append step.2 (suits.number _) (fits_scalar _) ⟨step.1, trivial⟩⟩

/-- Locals as arguments. -/
theorem allFit_termOf {entries : List Local}
    (named : ∀ input ∈ entries, Usable imports input.name) :
    Term.AllFit (Usable imports) (entries.map termOf) := by
  induction entries with
  | nil => trivial
  | cons first rest step =>
    exact ⟨named first List.mem_cons_self, step fun input member =>
      named input (List.mem_cons_of_mem _ member)⟩

/-- The code of an expression is the same with more imports. -/
theorem Emits.mono (emits : Emits inlining keeper expr imports entry bindings) {more : List String}
    (kept : ∀ moduleName ∈ imports, moduleName ∈ more) :
    Emits inlining keeper expr more entry bindings := by
  cases emits with
  | inlined inlines => exact .inlined inlines
  | evaluated untyped provided =>
    exact .evaluated untyped fun symbol member moduleName found =>
      kept _ (provided symbol member moduleName found)

/-- The code of an expression is the same with other imports that provide rows. -/
theorem Emits.importing (emits : Emits inlining keeper expr imports entry bindings)
    {more : List String} (rows : "sql.row" ∈ more) :
    Emits inlining keeper expr more entry bindings := by
  cases emits with
  | inlined inlines => exact .inlined inlines
  | evaluated untyped _ =>
    refine .evaluated untyped fun symbol member moduleName found => ?_
    have home : ∀ symbol ∈ ["HeapRow", "Row"], Symbol.moduleOf? symbol = some "sql.row" := by decide
    rw [home symbol member] at found
    exact Option.some.inj found ▸ rows

/-- The code of an expression. -/
theorem Emits.fits (emits : Emits inlining keeper expr imports entry bindings)
    (suits : inlining.Suits imports) (kept : keeper.term.Fits (Usable imports)) :
    Usable imports entry.name ∧ ∀ binding ∈ bindings, Proper imports binding := by
  cases emits with
  | inlined inlines => exact inlines.fits suits
  | evaluated untyped provided =>
    have row : Usable imports "HeapRow" := ⟨by decide, provided "HeapRow" (by decide)⟩
    have rowType : Usable imports "Row" := ⟨by decide, provided "Row" (by decide)⟩
    have made : Usable imports "of" := .of_free (by decide) (by decide)
    have eval : Usable imports "eval" := .of_free (by decide) (by decide)
    refine ⟨suits.stem.usable, ?_⟩
    rw [List.forall_mem_cons, List.forall_mem_singleton]
    refine ⟨proper_declare suits.row ⟨rowType, fun _ missing => nomatch missing⟩ ?_,
      proper_declare suits.stem fits_value ?_⟩
    · exact ⟨row, made, allFit_termOf suits.inputs⟩
    · exact ⟨kept, eval, suits.row.usable, trivial⟩

end Inlining

end QueryFusion.Generate
