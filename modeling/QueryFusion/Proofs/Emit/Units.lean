import QueryFusion.Emit.Unit
import QueryFusion.Proofs.Emit.Statements
import QueryFusion.Proofs.Script.ReadingUnits

/-!
# Emitted units

A unit under construction stands for a source unit when its heading, its fields and its routines do,
part by part. The text of the unit is then read as that source unit.
-/

namespace QueryFusion.Emit

open Script (Token Spells Prints Stmt Term TypeName Param FieldDecl ConstructorDecl RoutineDecl
  Member Import SourceUnit isName stmtTokens blockTokens resultTokens separated)

namespace Yields

variable {commands : List Command} {tokens : List Token}

/-- A keyword that a blank and a text follow. -/
theorem spells_word {word text : String} {tail : List Char}
    (reserved : Script.isKeyword word = true) (valid : Script.isWord word.toList = true)
    (rest : Spells text.toList tail tokens) :
    Spells (word ++ " " ++ text).toList tail (.reserved word :: tokens) := by
  have keyword : Prints word [.reserved word] := .keyword reserved valid
  simpa using keyword.before rest.cons_blank rfl

/-- A name before a text that parts from it. -/
theorem spells_named {name text : String} {tail : List Char} (named : isName name = true)
    (rest : Spells ("(" ++ text).toList tail tokens) :
    Spells (name ++ ("(" ++ text)).toList tail (.named name :: tokens) := by
  rw [String.toList_append]
  exact (Prints.name named).before rest (by simp; rfl)

/-- The call of the constructor of the base unit. -/
theorem construct {arguments : List Term} (writable : Term.AllWritable arguments) :
    Yields (lineOf ("super(" ++ String.intercalate ", " (Term.sources arguments) ++ ");"))
      (Stmt.tokens (.construct .first arguments)) := by
  refine line fun tail _ => ?_
  have ending : Spells [';'] tail [.mark ";"] := Spells.cons_mark rfl (by decide) .nil
  have closing : Spells [')', ';'] tail [.mark ")", .mark ";"] :=
    Spells.cons_mark rfl (by decide) ending
  have listed := Prints.listed (Term.prints_all writable)
  have inner := listed.before closing rfl
  have opening : Spells ('(' :: _) tail (.mark "(" :: _) := Spells.cons_mark rfl (by decide) inner
  have word : Prints "super" [.reserved "super"] := .keyword (by decide) (by decide)
  simpa [Stmt.tokens] using word.before opening rfl

/-- A line that declares the module, or imports one. -/
theorem moduleLine {opening word name : String} (spaced : opening = word ++ " ")
    (reserved : Script.isKeyword word = true) (valid : Script.isWord word.toList = true)
    (dotted : Script.IsDotted name) : Yields (lineOf (opening ++ name ++ ";"))
      (Token.reserved word :: Script.dottedTokens name ++ [Token.mark ";"]) := by
  have named : Prints (word ++ " " ++ name) (.reserved word :: Script.dottedTokens name) :=
    fun tail parted => spells_word reserved valid (Prints.dotted dotted tail parted)
  rw [spaced]
  exact ended named

/-- A colon and a type behind a name. -/
theorem prints_typed {name : String} {type : TypeName} (named : isName name = true)
    (typed : type.Writable) :
    Prints (name ++ ": " ++ type.text) (.named name :: .mark ":" :: type.tokens) := by
  intro tail parted
  have written := Prints.type typed tail parted
  have colon : Spells (':' :: ' ' :: type.text.toList) tail (.mark ":" :: type.tokens) :=
    Spells.cons_mark rfl (by decide) written.cons_blank
  simpa using (Prints.name named).before colon rfl

/-- The declaration of a field. -/
theorem field {decl : FieldDecl} (writable : Member.Writable (.field decl)) :
    Yields (lineOf ("field " ++ decl.name ++ ": " ++ decl.type.text ++ ";"))
      (Member.tokens (.field decl)) := by
  have printed : Prints ("field" ++ " " ++ (decl.name ++ ": " ++ decl.type.text))
      (.reserved "field" :: .named decl.name :: .mark ":" :: decl.type.tokens) := fun tail parted =>
    spells_word (by decide) (by decide) (prints_typed writable.1 writable.2 tail parted)
  have text : "field " ++ decl.name ++ ": " ++ decl.type.text ++ ";" =
      "field" ++ " " ++ (decl.name ++ ": " ++ decl.type.text) ++ ";" := by
    rw [← String.toList_inj]
    simp
  rw [text]
  exact ended printed

/-- The parameters of a routine, with what follows them. -/
theorem spells_params {params : List Param}
    (writable : ∀ param ∈ params, isName param.name = true ∧ param.type.Writable) {text : String}
    {tail : List Char} (rest : Spells text.toList tail tokens) :
    Spells ("(" ++ (String.intercalate ", " (params.map fun param => param.name ++ ": " ++
        param.type.text) ++ (")" ++ text))).toList tail
      (.mark "(" :: (separated (.mark ",") (params.map Param.tokens) ++ Token.mark ")" ::
        tokens)) := by
  have each : List.Forall₂ Prints (params.map fun param => param.name ++ ": " ++ param.type.text)
      (params.map Param.tokens) := by
    rw [List.forall₂_map_left_iff, List.forall₂_map_right_iff, List.forall₂_same]
    exact fun param member => prints_typed (writable param member).1 (writable param member).2
  have listed := Prints.listed each
  have closed : Spells (')' :: text.toList) tail (.mark ")" :: tokens) :=
    Spells.cons_mark rfl (by decide) rest
  have inner := listed.before closed rfl
  have opened : Spells ('(' :: _) tail (.mark "(" :: _) := Spells.cons_mark rfl (by decide) inner
  simpa using opened

/-- The brace that opens a block, behind a blank. -/
theorem spells_brace (tail : List Char) : Spells " \x7b".toList tail [.mark "\x7b"] := by
  have brace : Spells ['\x7b'] tail [.mark "\x7b"] := Spells.cons_mark rfl (by decide) .nil
  exact brace.cons_blank

/-- The type of a result, if there is one, before the brace. -/
theorem spells_result {result : Option TypeName} (writable : ∀ type ∈ result, type.Writable)
    (tail : List Char) : Spells ((match result.map TypeName.text with
      | some type => " -> " ++ type ++ " \x7b"
      | none => " \x7b") : String).toList tail (resultTokens result ++ [Token.mark "\x7b"]) := by
  cases result with
  | none => exact spells_brace tail
  | some type =>
    have written := (Prints.type (writable type rfl)).before (spells_brace tail) rfl
    have arrow : Spells ("->".toList ++ (' ' :: (type.text.toList ++ " \x7b".toList))) tail
        (.sign "->" :: (type.tokens ++ [Token.mark "\x7b"])) :=
      Spells.append_sign rfl (by simp) written.cons_blank
    simpa [resultTokens] using arrow.cons_blank

/-- The first line of a routine. -/
theorem header {decl : RoutineDecl} (writable : Member.Writable (.routine decl))
    {draft : RoutineDraft}
    (kind : draft.kind = .method decl.name (decl.returnType.map TypeName.text))
    (params : draft.params = decl.params.map fun param => (param.name, param.type.text)) :
    Yields (lineOf draft.header) (Token.reserved "fn" :: .named decl.name :: .mark "(" ::
      (separated (Token.mark ",") (decl.params.map Param.tokens) ++
        Token.mark ")" :: (resultTokens decl.returnType ++ [Token.mark "\x7b"]))) := by
  obtain ⟨named, typed, result, -⟩ := writable
  have text : draft.header = "fn" ++ " " ++ (decl.name ++ ("(" ++ (String.intercalate ", "
      (decl.params.map fun param => param.name ++ ": " ++ param.type.text) ++ (")" ++
        (match decl.returnType.map TypeName.text with
          | some type => " -> " ++ type ++ " \x7b"
          | none => " \x7b"))))) := by
    unfold RoutineDraft.header
    rw [kind, params, List.map_map]
    cases decl.returnType with
    | none =>
      rw [← String.toList_inj]
      simp [Function.comp_def]
      rfl
    | some type =>
      rw [← String.toList_inj]
      simp [Function.comp_def]
  rw [text]
  refine line fun tail _ => ?_
  have behind := spells_params typed (spells_result result tail)
  exact spells_word (by decide) (by decide) (spells_named named behind)

end Yields

namespace Shows

variable {wide : Prop} {commands : List Command} {tokens inner : List Token}

/-- A block behind a line that opens it. -/
theorem braced {text : String} (opening : Yields (lineOf text) tokens)
    (body : Shows wide commands inner) :
    Shows wide (lineOf text ++ [Command.indent] ++ commands ++ [Command.dedent] ++ lineOf "\x7d")
      (tokens ++ (inner ++ [Token.mark "\x7d"])) := by
  have whole := (body.behind (opening.append .indent)).before (Yields.dedent.append .closing)
  simpa [List.append_assoc] using whole

/-- A routine. -/
theorem routine {decl : RoutineDecl} (writable : Member.Writable (.routine decl))
    {draft : RoutineDraft}
    (kind : draft.kind = .method decl.name (decl.returnType.map TypeName.text))
    (params : draft.params = decl.params.map fun param => (param.name, param.type.text))
    (body : Shows wide draft.commands (stmtTokens decl.body)) :
    Shows wide draft.emit (Member.tokens (.routine decl)) := by
  have whole := braced (Yields.header writable kind params) body
  simpa [RoutineDraft.emit, Member.tokens, blockTokens] using whole

/-- A constructor without parameters. -/
theorem constructor {decl : ConstructorDecl} {draft : RoutineDraft}
    (kind : draft.kind = .constructor) (params : draft.params = [])
    (body : Shows wide draft.commands (stmtTokens decl.body)) :
    Shows wide draft.emit (Member.tokens (.constructor decl)) := by
  have text : draft.header = "new() \x7b" := by
    rw [RoutineDraft.header, kind, params]
    decide
  have opening : Yields (lineOf "new() \x7b") [.reserved "new", .mark "(", .mark ")",
      .mark "\x7b"] := by
    refine .line fun tail _ => ?_
    have brace : Spells [')', ' ', '\x7b'] tail [.mark ")", .mark "\x7b"] :=
      Spells.cons_mark rfl (by decide) (Yields.spells_brace tail)
    have parens : Spells ['(', ')', ' ', '\x7b'] tail [.mark "(", .mark ")", .mark "\x7b"] :=
      Spells.cons_mark rfl (by decide) brace
    have word : Prints "new" [.reserved "new"] := .keyword (by decide) (by decide)
    exact word.before parens rfl
  have whole := braced opening body
  rw [← text] at whole
  simpa [RoutineDraft.emit, Member.tokens, blockTokens] using whole

end Shows

/-- Parts one after another. -/
theorem Yields.flatMap {α β : Type} {write : α → List Command} {read : β → List Token}
    {parts : List α} {others : List β}
    (each : List.Forall₂ (fun part other => Yields (write part) (read other)) parts others) :
    Yields (parts.flatMap write) (others.flatMap read) := by
  induction each with
  | nil => exact .nil
  | cons head _ step => exact head.append step

/-- Routines one after another, each behind an empty line. -/
theorem Yields.members {drafts : List RoutineDraft} {members : List Member}
    (each : List.Forall₂ (fun draft member => Yields draft.emit (Member.tokens member))
      drafts members) :
    Yields (drafts.flatMap fun draft => .newLine :: draft.emit) (members.flatMap Member.tokens) :=
  .flatMap (each.imp fun _ _ emits => Yields.newLine.append emits)

/-- The unit under construction stands for the source unit, unless there is too much of something to
number it. -/
structure UnitDraft.Draws (wide : Prop) (unit : UnitDraft) (source : SourceUnit) : Prop where
  moduleName : unit.moduleName = source.moduleName
  imports : unit.imports = source.imports.map Import.moduleName
  name : unit.name = source.unit.name
  base : unit.base = source.unit.base
  fields : unit.fields = source.unit.fields.map fun field => (field.name, field.type.text)
  routines : Shows wide (unit.routines.flatMap fun routine => .newLine :: routine.emit)
    ((source.unit.constructors.map Member.constructor ++
      source.unit.routines.map Member.routine).flatMap Member.tokens)

section Drawing

variable {wide : Prop} {unit : UnitDraft} {source : SourceUnit}

/-- The import lines. -/
theorem UnitDraft.Draws.importLines (draws : unit.Draws wide source) (writable : source.Writable) :
    Yields unit.importLines (source.imports.flatMap Import.tokens) := by
  have each : List.Forall₂ (fun moduleName entry => Yields (lineOf ("import " ++ moduleName ++ ";"))
      (Import.tokens entry)) unit.imports source.imports := by
    rw [draws.imports, List.forall₂_map_left_iff, List.forall₂_same]
    intro entry member
    exact @Yields.moduleLine "import " "import" entry.moduleName (by decide) (by decide) (by decide)
      (writable.imports entry member)
  have lines := Yields.flatMap each
  unfold UnitDraft.importLines
  cases empty : unit.imports.isEmpty with
  | true =>
    rw [List.isEmpty_iff.1 empty] at lines
    exact lines
  | false =>
    have whole := lines.append .newLine
    rwa [List.append_nil] at whole

/-- The line that opens a unit. -/
theorem UnitDraft.Draws.heading (draws : unit.Draws wide source) (writable : source.Writable) :
    Yields (lineOf ("unit " ++ unit.name ++ " extends " ++ unit.base ++ " \x7b"))
      [.reserved "unit", .named source.unit.name, .reserved "extends", .named source.unit.base,
        .mark "\x7b"] := by
  refine .line fun tail _ => ?_
  have based := (Prints.name writable.base).before (Yields.spells_brace tail) rfl
  rw [← String.toList_append] at based
  have extending := Yields.spells_word (by decide : Script.isKeyword "extends" = true)
    (by decide) based
  have named := (Prints.name writable.name).before extending.cons_blank rfl
  have word : Prints "unit" [.reserved "unit"] := .keyword (by decide) (by decide)
  rw [draws.name, draws.base]
  simpa using word.before named.cons_blank rfl

/-- The lines of the fields. -/
theorem UnitDraft.Draws.fieldLines (draws : unit.Draws wide source) (writable : source.Writable) :
    Yields (unit.fields.flatMap fun field => lineOf ("field " ++ field.1 ++ ": " ++ field.2 ++ ";"))
      ((source.unit.fields.map Member.field).flatMap Member.tokens) := by
  refine .flatMap ?_
  rw [draws.fields, List.forall₂_map_left_iff, List.forall₂_map_right_iff, List.forall₂_same]
  intro decl member
  refine .field (writable.members (.field decl) ?_)
  exact List.mem_append_left _ (List.mem_append_left _ (List.mem_map_of_mem member))

/-- The text of the unit spells the tokens of the source unit, unless there is too much of something
to number it: then it has an integer out of range. -/
theorem UnitDraft.Draws.spells (draws : unit.Draws wide source) (writable : source.Writable) :
    ∃ tokens, Spells unit.source.toList [] tokens ∧
      (¬ wide ∧ tokens = source.tokens ∨ wide ∧ Script.Overflows tokens) := by
  have module : Yields (lineOf ("module " ++ unit.moduleName ++ ";") ++ [Command.newLine])
      (Token.reserved "module" :: Script.dottedTokens source.moduleName ++
        [Token.mark ";"] ++ []) := by
    rw [draws.moduleName]
    exact (@Yields.moduleLine "module " "module" source.moduleName (by decide) (by decide)
      (by decide) writable.moduleName).append .newLine
  have members := ((draws.heading writable).append .indent).append (draws.fieldLines writable)
  have whole := (draws.routines.behind
    ((module.append (draws.importLines writable)).append members)).before
      (Yields.dedent.append .closing)
  have tokens : source.tokens = Token.reserved "module" :: Script.dottedTokens source.moduleName ++
      [Token.mark ";"] ++ [] ++ source.imports.flatMap Import.tokens ++
      ([Token.reserved "unit", Token.named source.unit.name, Token.reserved "extends",
        Token.named source.unit.base,
        Token.mark "\x7b"] ++ [] ++ (source.unit.fields.map Member.field).flatMap Member.tokens) ++
      (source.unit.constructors.map Member.constructor ++
        source.unit.routines.map Member.routine).flatMap Member.tokens ++
          ([] ++ [Token.mark "\x7d"]) := by
    simp [SourceUnit.tokens, Script.UnitDecl.tokens, Script.UnitDecl.members]
  rw [← tokens] at whole
  rw [UnitDraft.source]
  simp only [List.append_assoc] at whole ⊢
  by_cases many : wide
  · obtain ⟨spelled, yields, overflows⟩ := whole.overflows many
    exact ⟨spelled, yields.render, .inr ⟨many, overflows⟩⟩
  · exact ⟨_, (whole.yields many).render, .inl ⟨many, rfl⟩⟩

end Drawing

/-! ## Imports -/

/-- A module at its place leaves modules in ascending order. -/
theorem insertModule_sorted (moduleName : String) {imports : List String}
    (sorted : imports.Pairwise (· < ·)) : (insertModule moduleName imports).Pairwise (· < ·) := by
  induction imports with
  | nil => exact List.pairwise_singleton _ _
  | cons first rest step =>
    obtain ⟨least, behind⟩ := List.pairwise_cons.1 sorted
    rw [insertModule]
    split
    · rename_i below
      refine List.pairwise_cons.2 ⟨List.forall_mem_cons.2 ⟨below, fun other member => ?_⟩, sorted⟩
      exact String.lt_trans below (least other member)
    · rename_i atLeast
      split
      · exact sorted
      · rename_i other
        have above : first < moduleName := by
          rw [← String.not_le]
          exact fun most => other (String.le_antisymm most (String.not_lt.1 atLeast))
        refine List.pairwise_cons.2 ⟨fun inserted member => ?_, step behind⟩
        rcases (mem_insertModule _ _ _).1 member with rfl | old
        · exact above
        · exact least inserted old

/-- Modules at their places are in ascending order. -/
theorem insertModules_sorted (modules : List String) {imports : List String}
    (sorted : imports.Pairwise (· < ·)) : (insertModules modules imports).Pairwise (· < ·) := by
  induction modules generalizing imports with
  | nil => exact sorted
  | cons first rest step => exact step (insertModule_sorted first sorted)

/-- Modules in ascending order are different. -/
theorem nodup_of_sorted {imports : List String} (sorted : imports.Pairwise (· < ·)) :
    imports.Nodup :=
  sorted.imp String.ne_of_lt

/-- Some modules behind others. -/
theorem insertModules_append (first second imports : List String) :
    insertModules (first ++ second) imports = insertModules second (insertModules first imports) :=
  List.foldl_append

end QueryFusion.Emit
