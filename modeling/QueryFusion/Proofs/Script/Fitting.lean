import QueryFusion.Proofs.Script.ReadingUnits

/-!
# Names in source trees

A demand on names is a demand on every identifier of a source tree: names of locals, fields, methods
and types, and the parts of the names of classes. What holds of the names of a tree holds of the
identifiers among its tokens.
-/

namespace QueryFusion.Script

variable {good : String → Prop}

/-- The names in a type fit. -/
def TypeName.Fits (good : String → Prop) (type : TypeName) : Prop :=
  good type.name ∧
    ∀ argument, type.argument = some argument → ∀ part ∈ dottedParts argument, good part

mutual

/-- The names in the expression fit, and its numbers can be written. -/
def Term.Fits (good : String → Prop) : Term → Prop
  | .double _ number => number.isFinite = true
  | .name _ word => good word
  | .not _ operand | .negate _ operand => operand.Fits good
  | .binary _ _ left right => left.Fits good ∧ right.Fits good
  | .conditional _ condition thenValue elseValue =>
    condition.Fits good ∧ thenValue.Fits good ∧ elseValue.Fits good
  | .member _ target field => target.Fits good ∧ good field
  | .call _ target method arguments => target.Fits good ∧ good method ∧ Term.AllFit good arguments
  | .cast _ operand type => operand.Fits good ∧ type.Fits good
  | _ => True

/-- The names in all of the expressions fit. -/
def Term.AllFit (good : String → Prop) : List Term → Prop
  | [] => True
  | term :: rest => term.Fits good ∧ Term.AllFit good rest

end

mutual

/-- The names in the statement fit. -/
def Stmt.Fits (good : String → Prop) : Stmt → Prop
  | .declare _ name type value => good name ∧ type.Fits good ∧ value.Fits good
  | .setField _ name value | .setLocal _ name value => good name ∧ value.Fits good
  | .answer _ value | .perform _ value => value.Fits good
  | .branch _ condition thenBlock => condition.Fits good ∧ Stmt.AllFit good thenBlock
  | .choose _ condition thenBlock elseBlock =>
    condition.Fits good ∧ Stmt.AllFit good thenBlock ∧ Stmt.AllFit good elseBlock
  | .loop _ condition body => condition.Fits good ∧ Stmt.AllFit good body
  | .proceed _ | .leave _ | .finish _ => True
  | .construct _ arguments => Term.AllFit good arguments

/-- The names in all of the statements fit. -/
def Stmt.AllFit (good : String → Prop) : List Stmt → Prop
  | [] => True
  | statement :: rest => statement.Fits good ∧ Stmt.AllFit good rest

end

/-- Statements fit when each of them does. -/
theorem Stmt.allFit_iff {statements : List Stmt} :
    Stmt.AllFit good statements ↔ ∀ statement ∈ statements, statement.Fits good := by
  induction statements with
  | nil => simp [Stmt.AllFit]
  | cons statement rest step => rw [Stmt.AllFit, step, List.forall_mem_cons]

/-- Less is demanded of the names in a type. -/
theorem TypeName.Fits.imp {better : String → Prop} {type : TypeName} (fits : type.Fits good)
    (less : ∀ word, good word → better word) : type.Fits better :=
  ⟨less _ fits.1, fun argument named part member => less _ (fits.2 argument named part member)⟩

/-! ## Names that can be written -/

/-- A type whose names can be written can be written. -/
theorem TypeName.Fits.writable (decent : ∀ word, good word → isName word = true) {type : TypeName}
    (fits : type.Fits good) : type.Writable :=
  ⟨decent _ fits.1, fun argument named part member => decent _ (fits.2 argument named part member)⟩

mutual

/-- An expression whose names can be written can be written. -/
theorem Term.Fits.writable (decent : ∀ word, good word → isName word = true) {term : Term}
    (fits : term.Fits good) : term.Writable := by
  match term, fits with
  | .double _ _, finite => exact finite
  | .name _ _, word => exact decent _ word
  | .not _ operand, inner | .negate _ operand, inner =>
    have inner : operand.Fits good := inner
    exact inner.writable decent
  | .binary _ _ _ _, ⟨first, second⟩ => exact ⟨first.writable decent, second.writable decent⟩
  | .conditional _ _ _ _, ⟨test, first, second⟩ =>
    exact ⟨test.writable decent, first.writable decent, second.writable decent⟩
  | .member _ _ _, ⟨target, field⟩ => exact ⟨target.writable decent, decent _ field⟩
  | .call _ _ _ _, ⟨target, method, arguments⟩ =>
    exact ⟨target.writable decent, decent _ method, Term.AllFit.writable decent arguments⟩
  | .cast _ _ _, ⟨operand, type⟩ => exact ⟨operand.writable decent, type.writable decent⟩
  | .int _ _, _ | .bigInt _ _, _ | .text _ _, _ | .boolean _ _, _ | .null _, _ | .ints _ _, _
  | .this _, _ => exact trivial

/-- Expressions whose names can be written can be written. -/
theorem Term.AllFit.writable (decent : ∀ word, good word → isName word = true) {terms : List Term}
    (fits : Term.AllFit good terms) : Term.AllWritable terms := by
  match terms, fits with
  | [], _ => exact trivial
  | _ :: _, ⟨head, tail⟩ => exact ⟨head.writable decent, Term.AllFit.writable decent tail⟩

end

mutual

/-- A statement whose names can be written can be written. -/
theorem Stmt.Fits.writable (decent : ∀ word, good word → isName word = true) {statement : Stmt}
    (fits : statement.Fits good) : statement.Writable := by
  match statement, fits with
  | .declare _ _ _ _, ⟨name, type, value⟩ =>
    exact ⟨decent _ name, type.writable decent, value.writable decent⟩
  | .setField _ _ _, ⟨name, value⟩ | .setLocal _ _ _, ⟨name, value⟩ =>
    exact ⟨decent _ name, value.writable decent⟩
  | .answer _ value, fits | .perform _ value, fits =>
    have fits : value.Fits good := fits
    exact fits.writable decent
  | .branch _ _ _, ⟨test, block⟩ | .loop _ _ _, ⟨test, block⟩ =>
    exact ⟨test.writable decent, Stmt.AllFit.writable decent block⟩
  | .choose _ _ _ _, ⟨test, first, second⟩ =>
    exact ⟨test.writable decent, Stmt.AllFit.writable decent first,
      Stmt.AllFit.writable decent second⟩
  | .proceed _, _ | .leave _, _ | .finish _, _ => exact trivial
  | .construct _ _, arguments => exact Term.AllFit.writable decent arguments

/-- Statements whose names can be written can be written. -/
theorem Stmt.AllFit.writable (decent : ∀ word, good word → isName word = true)
    {statements : List Stmt} (fits : Stmt.AllFit good statements) :
    Stmt.AllWritable statements := by
  match statements, fits with
  | [], _ => exact trivial
  | _ :: _, ⟨head, tail⟩ => exact ⟨head.writable decent, Stmt.AllFit.writable decent tail⟩

end

/-! ## Names among the tokens -/

/-- All identifiers among the tokens fit. -/
def Fit (good : String → Prop) (tokens : List Token) : Prop :=
  ∀ word, .named word ∈ tokens → good word

namespace Fit

variable {tokens others : List Token}

/-- No tokens. -/
@[simp]
theorem nil : Fit good [] :=
  fun _ member => nomatch member

/-- An identifier in front. -/
@[simp]
theorem cons_named {word : String} :
    Fit good (.named word :: tokens) ↔ good word ∧ Fit good tokens := by
  unfold Fit
  simp

/-- Any other token in front. -/
theorem cons_other {token : Token} (kind : token.kind ≠ .identifier) :
    Fit good (token :: tokens) ↔ Fit good tokens := by
  have differs : ∀ word, Token.named word ≠ token := by
    rintro word rfl
    exact kind rfl
  unfold Fit
  simp [differs]

/-- A keyword in front. -/
@[simp]
theorem cons_reserved {word : String} : Fit good (.reserved word :: tokens) ↔ Fit good tokens :=
  cons_other (by simp)

/-- An operator in front. -/
@[simp]
theorem cons_sign {symbol : String} : Fit good (.sign symbol :: tokens) ↔ Fit good tokens :=
  cons_other (by simp)

/-- A punctuator in front. -/
@[simp]
theorem cons_mark {symbol : String} : Fit good (.mark symbol :: tokens) ↔ Fit good tokens :=
  cons_other (by simp)

/-- Tokens behind others. -/
@[simp]
theorem append : Fit good (tokens ++ others) ↔ Fit good tokens ∧ Fit good others := by
  unfold Fit
  simp only [List.mem_append, or_imp, forall_and]

/-- Tokens in parentheses. -/
@[simp]
theorem enclose {bound level : Nat} :
    Fit good (encloseTokens bound level tokens) ↔ Fit good tokens := by
  unfold encloseTokens
  split
  · rfl
  · simp

/-- Lists of tokens with a separator. -/
theorem separated {symbol : String} {parts : List (List Token)}
    (inner : ∀ part ∈ parts, Fit good part) : Fit good (separated (.mark symbol) parts) := by
  cases parts with
  | nil => exact nil
  | cons first others =>
    rw [separated_cons, append]
    refine ⟨inner first List.mem_cons_self, fun word member => ?_⟩
    obtain ⟨part, inside, here⟩ := List.mem_flatMap.1 member
    have fits : Fit good (.mark symbol :: part) :=
      cons_mark.2 (inner part (List.mem_cons_of_mem _ inside))
    exact fits word here

/-- Tokens of several things, one behind the other. -/
theorem flatMap {α : Type} {entries : List α} {write : α → List Token}
    (inner : ∀ entry ∈ entries, Fit good (write entry)) : Fit good (entries.flatMap write) := by
  intro word member
  obtain ⟨entry, inside, here⟩ := List.mem_flatMap.1 member
  exact inner entry inside word here

/-- The tokens of an integer are no identifiers. -/
@[simp]
theorem integer (number : Int) (suffix : List Char) : Fit good (integerTokens number suffix) := by
  have last : ∀ text, Fit good [⟨.integer, text, .first⟩] := fun _ => (cons_other (by simp)).2 nil
  unfold integerTokens
  split <;> simp [last]

/-- The tokens of a double are no identifiers. -/
@[simp]
theorem double (number : Double) : Fit good (doubleTokens number) := by
  have last : ∀ text, Fit good [⟨.float, text, .first⟩] := fun _ => (cons_other (by simp)).2 nil
  unfold doubleTokens
  split <;> simp [last]

end Fit

/-- The tokens of a type have its names. -/
theorem TypeName.Fits.tokens {type : TypeName} (fits : type.Fits good) : Fit good type.tokens := by
  unfold TypeName.tokens
  cases named : type.argument with
  | none => simpa using fits.1
  | some argument =>
    have parts : Fit good (dottedTokens argument) := by
      refine .separated fun part member => ?_
      obtain ⟨word, inside, rfl⟩ := List.mem_map.1 member
      simpa using fits.2 argument named word inside
    simpa using ⟨fits.1, parts⟩

mutual

/-- The tokens of an expression have its names. -/
theorem Term.Fits.tokens {term : Term} (fits : term.Fits good) : Fit good term.tokens := by
  match term, fits with
  | .int _ _, _ | .bigInt _ _, _ | .double _ _, _ | .null _, _ | .this _, _ | .boolean _ _, _ =>
    simp [Term.tokens]
  | .text _ _, _ =>
    rw [Term.tokens, Fit.cons_other (by simp)]
    exact .nil
  | .ints _ numbers, _ =>
    have inner : Fit good (Script.separated (.mark ",")
        (numbers.map fun number => integerTokens number.toInt [])) := by
      refine .separated fun part member => ?_
      obtain ⟨number, -, rfl⟩ := List.mem_map.1 member
      exact .integer _ _
    simpa [Term.tokens] using inner
  | .name _ word, fits =>
    have fits : good word := fits
    simpa [Term.tokens] using fits
  | .not _ operand, inner | .negate _ operand, inner =>
    have inner : operand.Fits good := inner
    simpa [Term.tokens] using inner.tokens
  | .binary _ _ left right, ⟨first, second⟩ => simp [Term.tokens, first.tokens, second.tokens]
  | .conditional _ _ _ _, ⟨test, first, second⟩ =>
    simp [Term.tokens, test.tokens, first.tokens, second.tokens]
  | .member _ _ _, ⟨target, field⟩ => simp [Term.tokens, target.tokens, field]
  | .call _ _ _ arguments, ⟨target, method, inner⟩ =>
    have inner : Fit good (Script.separated (.mark ",") (Term.tokenLists arguments)) :=
      .separated (Term.AllFit.tokens inner)
    simp [Term.tokens, target.tokens, method, inner]
  | .cast _ _ _, ⟨operand, type⟩ => simp [Term.tokens, operand.tokens, type.tokens]

/-- The tokens of expressions have their names. -/
theorem Term.AllFit.tokens {terms : List Term} (fits : Term.AllFit good terms) :
    ∀ part ∈ Term.tokenLists terms, Fit good part := by
  match terms, fits with
  | [], _ => exact fun _ member => nomatch member
  | _ :: _, ⟨head, tail⟩ =>
    rw [Term.tokenLists]
    exact List.forall_mem_cons.2 ⟨head.tokens, Term.AllFit.tokens tail⟩

end

mutual

/-- The tokens of a statement have its names. -/
theorem Stmt.Fits.tokens {statement : Stmt} (fits : statement.Fits good) :
    Fit good statement.tokens := by
  match statement, fits with
  | .declare _ _ _ _, ⟨name, type, value⟩ => simp [Stmt.tokens, name, type.tokens, value.tokens]
  | .setField _ _ _, ⟨name, value⟩ | .setLocal _ _ _, ⟨name, value⟩ =>
    simp [Stmt.tokens, name, value.tokens]
  | .answer _ value, fits | .perform _ value, fits =>
    have fits : value.Fits good := fits
    simp [Stmt.tokens, fits.tokens]
  | .branch _ _ _, ⟨test, block⟩ | .loop _ _ _, ⟨test, block⟩ =>
    simp [Stmt.tokens, test.tokens, Stmt.AllFit.tokens block]
  | .choose _ _ _ _, ⟨test, first, second⟩ =>
    simp [Stmt.tokens, test.tokens, Stmt.AllFit.tokens first, Stmt.AllFit.tokens second]
  | .proceed _, _ | .leave _, _ | .finish _, _ => simp [Stmt.tokens]
  | .construct _ arguments, fits =>
    have inner : Fit good (Script.separated (.mark ",") (Term.tokenLists arguments)) :=
      .separated (Term.AllFit.tokens fits)
    simp [Stmt.tokens, inner]

/-- The tokens of statements have their names. -/
theorem Stmt.AllFit.tokens {statements : List Stmt} (fits : Stmt.AllFit good statements) :
    Fit good (stmtTokens statements) := by
  match statements, fits with
  | [], _ => exact .nil
  | _ :: _, ⟨head, tail⟩ => simp [stmtTokens, head.tokens, Stmt.AllFit.tokens tail]

end

/-! ## Names in units -/

/-- The parts of a dotted name fit. -/
def DottedFits (good : String → Prop) (name : String) : Prop :=
  ∀ part ∈ dottedParts name, good part

/-- The tokens of a dotted name are its parts. -/
theorem DottedFits.tokens {name : String} (fits : DottedFits good name) :
    Fit good (dottedTokens name) := by
  refine .separated fun part member => ?_
  obtain ⟨word, inside, rfl⟩ := List.mem_map.1 member
  simpa using fits word inside

/-- The names in a member of a unit fit. -/
def Member.Fits (good : String → Prop) : Member → Prop
  | .field decl => good decl.name ∧ decl.type.Fits good
  | .constructor decl => Stmt.AllFit good decl.body
  | .routine decl =>
    good decl.name ∧ (∀ param ∈ decl.params, good param.name ∧ param.type.Fits good) ∧
      (∀ type ∈ decl.returnType, type.Fits good) ∧ Stmt.AllFit good decl.body

/-- A member whose names can be written can be written. -/
theorem Member.Fits.writable (decent : ∀ word, good word → isName word = true) {member : Member}
    (fits : member.Fits good) : member.Writable := by
  cases member with
  | field decl => exact ⟨decent _ fits.1, fits.2.writable decent⟩
  | constructor decl => exact Stmt.AllFit.writable decent fits
  | routine decl =>
    obtain ⟨name, params, result, body⟩ := fits
    exact ⟨decent _ name,
      fun param inside =>
        ⟨decent _ (params param inside).1, (params param inside).2.writable decent⟩,
      fun type inside => (result type inside).writable decent, body.writable decent⟩

/-- The tokens of a block have the names of its statements. -/
theorem Stmt.AllFit.blockTokens {statements : List Stmt} (fits : Stmt.AllFit good statements) :
    Fit good (blockTokens statements) := by
  simp [Script.blockTokens, fits.tokens]

/-- The tokens of a member have its names. -/
theorem Member.Fits.tokens {member : Member} (fits : member.Fits good) :
    Fit good member.tokens := by
  cases member with
  | field decl => simp [Member.tokens, fits.1, fits.2.tokens]
  | constructor decl =>
    have fits : Stmt.AllFit good decl.body := fits
    simp [Member.tokens, fits.blockTokens]
  | routine decl =>
    obtain ⟨name, params, result, body⟩ := fits
    have listed : Fit good (separated (.mark ",") (decl.params.map Param.tokens)) := by
      refine .separated fun part member => ?_
      obtain ⟨param, inside, rfl⟩ := List.mem_map.1 member
      obtain ⟨named, typed⟩ := params param inside
      simp [Param.tokens, named, typed.tokens]
    have answers : Fit good (resultTokens decl.returnType) := by
      cases known : decl.returnType with
      | none => exact .nil
      | some type => simpa [resultTokens] using (result type known).tokens
    simp [Member.tokens, name, listed, answers, body.blockTokens]

/-- The names in a source unit fit. -/
structure SourceUnit.Fits (good : String → Prop) (source : SourceUnit) : Prop where
  moduleName : DottedFits good source.moduleName
  imports : ∀ entry ∈ source.imports, DottedFits good entry.moduleName
  name : good source.unit.name
  base : good source.unit.base
  members : ∀ member ∈ source.unit.members, member.Fits good

namespace SourceUnit.Fits

variable {source : SourceUnit}

/-- A source unit whose names can be written can be written. -/
theorem writable (decent : ∀ word, good word → isName word = true) (fits : source.Fits good) :
    source.Writable where
  moduleName part inside := decent part (fits.moduleName part inside)
  imports entry member part inside := decent part (fits.imports entry member part inside)
  name := decent _ fits.name
  base := decent _ fits.base
  members member inside := (fits.members member inside).writable decent

/-- The tokens of a source unit have its names. -/
theorem tokens (fits : source.Fits good) : Fit good source.tokens := by
  have importing : Fit good (source.imports.flatMap Import.tokens) := by
    refine .flatMap fun entry member => ?_
    simp [Import.tokens, (fits.imports entry member).tokens]
  have members : Fit good (source.unit.members.flatMap Member.tokens) :=
    .flatMap fun member inside => (fits.members member inside).tokens
  simp [SourceUnit.tokens, UnitDecl.tokens, fits.moduleName.tokens, importing, fits.name, fits.base,
    members]

end SourceUnit.Fits

/-- The identifiers among the tokens of a text fit when the names that it spells do. -/
theorem Fit.tokenize {text : String} {tokens : List Token} (fit : Fit good tokens)
    (spells : Spells text.toList [] tokens) :
    ∃ placed, tokenize text = .ok placed ∧
      ∀ token ∈ placed, token.kind = .identifier → good token.literal := by
  obtain ⟨placed, next, same, whole⟩ := spells.tokenize_eq
  refine ⟨placed ++ [Token.endAt next], whole, fun token member named => ?_⟩
  rcases List.mem_append.1 member with inside | last
  · refine fit token.literal ?_
    have here : token.bare ∈ placed.map Token.bare := List.mem_map_of_mem inside
    rw [same] at here
    have whole : token.bare = .named token.literal := by
      rw [Token.bare, Token.named, ← named]
    rwa [whole] at here
  · cases List.mem_singleton.1 last
    cases named

end QueryFusion.Script
