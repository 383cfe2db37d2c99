import QueryFusion.Proofs.Script.ReadingBlocks

/-!
# Reading whole units back

A source unit is its module, its imports and its members. The tokens of a unit whose names can be
written are read as that unit, and the fuel of the parser is enough for it.
-/

namespace QueryFusion.Script

open Descent

/-! ## Units that are alike -/

/-- The fields are the same but for their places. -/
structure FieldDecl.Alike (first second : FieldDecl) : Prop where
  name : first.name = second.name
  type : first.type.Alike second.type

/-- The parameters are the same but for their places. -/
structure Param.Alike (first second : Param) : Prop where
  name : first.name = second.name
  type : first.type.Alike second.type

/-- The constructors are the same but for their places. -/
structure ConstructorDecl.Alike (first second : ConstructorDecl) : Prop where
  body : Stmt.AllAlike first.body second.body

/-- The routines are the same but for their places. -/
structure RoutineDecl.Alike (first second : RoutineDecl) : Prop where
  name : first.name = second.name
  params : List.Forall₂ Param.Alike first.params second.params
  returnType : Option.Rel TypeName.Alike first.returnType second.returnType
  body : Stmt.AllAlike first.body second.body

/-- The units are the same but for their places. -/
structure UnitDecl.Alike (first second : UnitDecl) : Prop where
  name : first.name = second.name
  base : first.base = second.base
  fields : List.Forall₂ FieldDecl.Alike first.fields second.fields
  constructors : List.Forall₂ ConstructorDecl.Alike first.constructors second.constructors
  routines : List.Forall₂ RoutineDecl.Alike first.routines second.routines

/-- The source units are the same but for their places. -/
structure SourceUnit.Alike (first second : SourceUnit) : Prop where
  moduleName : first.moduleName = second.moduleName
  imports : first.imports.map Import.moduleName = second.imports.map Import.moduleName
  unit : first.unit.Alike second.unit

/-! ## Tokens -/

/-- The tokens of a block in braces. -/
def blockTokens (statements : List Stmt) : List Token :=
  .mark "\x7b" :: stmtTokens statements ++ [Token.mark "\x7d"]

/-- The tokens of a parameter. -/
def Param.tokens (param : Param) : List Token :=
  .named param.name :: .mark ":" :: param.type.tokens

/-- The tokens of the type of a result, if there is one. -/
def resultTokens : Option TypeName → List Token
  | some type => .sign "->" :: type.tokens
  | none => []

/-- A member of a unit. -/
inductive Member
  | field (decl : FieldDecl)
  | constructor (decl : ConstructorDecl)
  | routine (decl : RoutineDecl)

namespace Member

/-- The tokens of a member. -/
def tokens : Member → List Token
  | field decl =>
    .reserved "field" :: .named decl.name :: .mark ":" :: decl.type.tokens ++ [Token.mark ";"]
  | constructor decl => .reserved "new" :: .mark "(" :: .mark ")" :: blockTokens decl.body
  | routine decl =>
    .reserved "fn" :: .named decl.name :: .mark "(" ::
      (separated (.mark ",") (decl.params.map Param.tokens) ++
        .mark ")" :: (resultTokens decl.returnType ++ blockTokens decl.body))

/-- The names, types and statements of a member can be written. -/
def Writable : Member → Prop
  | field decl => isName decl.name = true ∧ decl.type.Writable
  | constructor decl => Stmt.AllWritable decl.body
  | routine decl =>
    isName decl.name = true ∧
      (∀ param ∈ decl.params, isName param.name = true ∧ param.type.Writable) ∧
      (∀ type ∈ decl.returnType, type.Writable) ∧ Stmt.AllWritable decl.body

/-- The members are the same but for their places. -/
inductive Alike : Member → Member → Prop
  | field {first second : FieldDecl} (alike : first.Alike second) :
      Alike (.field first) (.field second)
  | constructor {first second : ConstructorDecl} (alike : first.Alike second) :
      Alike (.constructor first) (.constructor second)
  | routine {first second : RoutineDecl} (alike : first.Alike second) :
      Alike (.routine first) (.routine second)

end Member

namespace UnitDecl

/-- The members of a unit: fields, constructors and routines. -/
def members (unit : UnitDecl) : List Member :=
  unit.fields.map .field ++ unit.constructors.map .constructor ++ unit.routines.map .routine

/-- The unit with one more member. -/
def add (unit : UnitDecl) : Member → UnitDecl
  | .field decl => { unit with fields := unit.fields ++ [decl] }
  | .constructor decl => { unit with constructors := unit.constructors ++ [decl] }
  | .routine decl => { unit with routines := unit.routines ++ [decl] }

/-- The tokens of a unit. -/
def tokens (unit : UnitDecl) : List Token :=
  .reserved "unit" :: .named unit.name :: .reserved "extends" :: .named unit.base :: .mark "\x7b" ::
    (unit.members.flatMap Member.tokens ++ [Token.mark "\x7d"])

end UnitDecl

/-- The tokens of an import. -/
def Import.tokens (entry : Import) : List Token :=
  .reserved "import" :: dottedTokens entry.moduleName ++ [Token.mark ";"]

/-- The tokens of a source unit. -/
def SourceUnit.tokens (source : SourceUnit) : List Token :=
  .reserved "module" :: (dottedTokens source.moduleName ++ .mark ";" ::
    (source.imports.flatMap Import.tokens ++ source.unit.tokens))

/-! ## Other ways to write blocks -/

section Written

variable (write : List Stmt → List Token)

/-- The tokens of a member whose blocks are written in some way. -/
def Member.tokensBy : Member → List Token
  | .constructor decl =>
    .reserved "new" :: .mark "(" :: .mark ")" :: .mark "\x7b" :: write decl.body ++
      [Token.mark "\x7d"]
  | .routine decl =>
    .reserved "fn" :: .named decl.name :: .mark "(" ::
      (separated (.mark ",") (decl.params.map Param.tokens) ++ .mark ")" ::
        (resultTokens decl.returnType ++ (.mark "\x7b" :: write decl.body ++ [Token.mark "\x7d"])))
  | .field decl => Member.tokens (.field decl)

/-- The tokens of a source unit whose blocks are written in some way. -/
def SourceUnit.tokensBy (source : SourceUnit) : List Token :=
  .reserved "module" :: (dottedTokens source.moduleName ++ .mark ";" ::
    (source.imports.flatMap Import.tokens ++ .reserved "unit" :: .named source.unit.name ::
      .reserved "extends" :: .named source.unit.base :: .mark "\x7b" ::
        (source.unit.members.flatMap (Member.tokensBy write) ++ [Token.mark "\x7d"])))

/-- The blocks of a member are read from how they are written. -/
def Member.Readable : Member → Prop
  | .constructor decl => ReadsStmts (write decl.body) decl.body
  | .routine decl => ReadsStmts (write decl.body) decl.body
  | .field _ => True

end Written

/-- The tokens of a source unit are one way to write it. -/
theorem SourceUnit.tokens_eq (source : SourceUnit) :
    source.tokens = source.tokensBy stmtTokens := by
  have members : Member.tokens = Member.tokensBy stmtTokens := by
    funext member
    cases member <;> rfl
  rw [SourceUnit.tokens, UnitDecl.tokens, members, SourceUnit.tokensBy]

/-- The dotted name can be written. -/
def IsDotted (name : String) : Prop :=
  ∀ part ∈ dottedParts name, isName part = true

instance (name : String) : Decidable (IsDotted name) :=
  inferInstanceAs (Decidable (∀ part ∈ dottedParts name, isName part = true))

/-- The names and members of the source unit can be written. -/
structure SourceUnit.Writable (source : SourceUnit) : Prop where
  moduleName : IsDotted source.moduleName
  imports : ∀ entry ∈ source.imports, IsDotted entry.moduleName
  name : isName source.unit.name = true
  base : isName source.unit.base = true
  members : ∀ member ∈ source.unit.members, member.Writable

/-- Blocks that can be written are read from their tokens. -/
theorem Member.Writable.readable {member : Member} (writable : member.Writable) :
    member.Readable stmtTokens := by
  cases member with
  | field decl => trivial
  | constructor decl => exact Stmt.reads_all writable
  | routine decl => exact Stmt.reads_all writable.2.2.2

/-! ## Members -/

section Reading

variable {write : List Stmt → List Token}

/-- A field is read. -/
theorem parseField_eq {placed : List Token} {decl : FieldDecl}
    (same : Placed placed (Member.tokens (.field decl))) (rest : List Token) :
    ∃ read, decl.Alike read ∧ parseField (placed ++ rest) = .ok (read, rest) := by
  obtain ⟨here, _, rfl, named⟩ := Placed.of_cons same
  obtain ⟨there, _, rfl, colon⟩ := Placed.of_cons named
  obtain ⟨between, _, rfl, typed⟩ := Placed.of_cons colon
  obtain ⟨inner, _, rfl, written, last⟩ := Placed.of_append typed
  obtain ⟨ending, rfl⟩ := last.of_singleton
  obtain ⟨read, alike, parsed⟩ := @parseType_eq inner ((Token.mark ";").at ending :: rest) decl.type
    written fun _ => rfl
  refine ⟨⟨decl.name, read, here⟩, ⟨rfl, alike⟩, ?_⟩
  simp [parseField, Token.isEnd, parsed]

/-- A block is read. -/
theorem readBlock_eq {statements : List Stmt} {tokens : List Token}
    (readable : ReadsStmts tokens statements) {placed : List Token} {fuel : Nat}
    (same : Placed placed (Token.mark "\x7b" :: tokens ++ [Token.mark "\x7d"]))
    (enough : 16 * placed.length ≤ fuel) (rest : List Token) :
    ∃ read, Stmt.AllAlike statements read ∧ (descent fuel).block (placed ++ rest) =
      .ok (read, rest) := by
  obtain ⟨here, _, rfl, inside⟩ := Placed.of_cons same
  obtain ⟨inner, _, rfl, listed, last⟩ := Placed.of_append inside
  obtain ⟨there, rfl⟩ := last.of_singleton
  simp only [List.length_cons, List.length_append, List.length_nil] at enough
  have read := readable.block listed (by omega : _ < fuel) here there rest
  simpa using read

/-- A constructor is read. -/
theorem readConstructor_eq {decl : ConstructorDecl}
    (readable : ReadsStmts (write decl.body) decl.body) {placed : List Token} {fuel : Nat}
    (same : Placed placed (Member.tokensBy write (.constructor decl)))
    (enough : 16 * placed.length ≤ fuel) (rest : List Token) :
    ∃ read, decl.Alike read ∧ (descent fuel).readConstructor (placed ++ rest) =
      .ok (read, rest) := by
  obtain ⟨here, _, rfl, opening⟩ := Placed.of_cons same
  obtain ⟨start, _, rfl, closing⟩ := Placed.of_cons opening
  obtain ⟨there, inner, rfl, block⟩ := Placed.of_cons closing
  simp only [List.length_cons] at enough
  obtain ⟨read, alike, parsed⟩ := readBlock_eq readable block (by omega : _ ≤ fuel) rest
  refine ⟨⟨read, here⟩, ⟨alike⟩, ?_⟩
  simp [readConstructor, Token.isEnd, parsed]

/-- Parameters with commas between them are read. -/
theorem params_eq {first : Param} {others : List Param} {placed : List Token} {fuel : Nat}
    (same : Placed placed (separated (.mark ",") ((first :: others).map Param.tokens)))
    (enough : placed.length ≤ fuel) (place : Position) (rest : List Token) :
    ∃ reads, List.Forall₂ Param.Alike (first :: others) reads ∧
      (descent fuel).params (placed ++ (Token.mark ")").at place :: rest) =
        .ok (reads, (Token.mark ")").at place :: rest) := by
  induction others generalizing first placed fuel with
  | nil =>
    have same : Placed placed first.tokens := by simpa [separated] using same
    obtain ⟨here, _, rfl, colon⟩ := Placed.of_cons same
    obtain ⟨there, inner, rfl, written⟩ := Placed.of_cons colon
    obtain ⟨less, rfl⟩ : ∃ less, fuel = less + 1 := by
      refine ⟨fuel - 1, ?_⟩
      simp only [List.length_cons] at enough
      omega
    obtain ⟨read, alike, parsed⟩ := @parseType_eq inner ((Token.mark ")").at place :: rest)
      first.type written fun _ => rfl
    refine ⟨[⟨first.name, read, here⟩], .cons ⟨rfl, alike⟩ .nil, ?_⟩
    rw [descent_params, readParams]
    simp [parsed, Token.isPunctuator]
  | cons second others step =>
    rw [List.map_cons, separated_cons, List.map_cons, List.flatMap_cons, List.cons_append,
      ← separated_cons, ← List.map_cons] at same
    obtain ⟨mine, _, rfl, listed, more⟩ := Placed.of_append same
    obtain ⟨here, _, rfl, colon⟩ := Placed.of_cons listed
    obtain ⟨there, inner, rfl, written⟩ := Placed.of_cons colon
    obtain ⟨comma, behind, rfl, further⟩ := Placed.of_cons more
    simp only [List.length_append, List.length_cons] at enough
    obtain ⟨less, rfl⟩ : ∃ less, fuel = less + 1 := ⟨fuel - 1, by omega⟩
    obtain ⟨reads, alikes, parsedOthers⟩ := step further (by omega : _ ≤ less)
    obtain ⟨read, alike, parsed⟩ := @parseType_eq inner ((Token.mark ",").at comma ::
      (behind ++ (Token.mark ")").at place :: rest)) first.type written
      fun _ => rfl
    refine ⟨⟨first.name, read, here⟩ :: reads, .cons ⟨rfl, alike⟩ alikes, ?_⟩
    rw [descent_params, readParams]
    simp [parsed, Token.isPunctuator, Token.isEnd, parsedOthers]

/-- The result of a routine, if it has one, is read with the block behind it. -/
theorem readResult_eq {decl : RoutineDecl} (readable : ReadsStmts (write decl.body) decl.body)
    {placed : List Token} {fuel : Nat}
    (same : Placed placed (Token.mark ")" :: (resultTokens decl.returnType ++
      (Token.mark "\x7b" :: write decl.body ++ [Token.mark "\x7d"]))))
    (enough : 16 * placed.length ≤ fuel) (position : Position) (params : List Param)
    (rest : List Token) :
    ∃ answer body, Option.Rel TypeName.Alike decl.returnType answer ∧
      Stmt.AllAlike decl.body body ∧
      (descent fuel).readResult decl.name position params (placed ++ rest) =
        .ok (⟨decl.name, params, answer, body, position⟩, rest) := by
  obtain ⟨stop, _, rfl, ending⟩ := Placed.of_cons same
  obtain ⟨result, block, rfl, resulting, braces⟩ := Placed.of_append ending
  simp only [List.length_cons, List.length_append] at enough
  obtain ⟨body, alike, parsedBlock⟩ := readBlock_eq readable braces (by omega : _ ≤ fuel) rest
  obtain ⟨brace, inner, rfl, -⟩ := Placed.of_cons braces
  rw [List.cons_append] at parsedBlock
  rw [List.cons_append, List.append_assoc, List.cons_append, readResult, expectPunctuator_mark,
    ok_bind]
  cases known : decl.returnType with
  | none =>
    rw [known] at resulting
    obtain rfl : result = [] := Placed.of_nil resulting
    refine ⟨none, body, .none, alike, ?_⟩
    simp [readBody, Token.isOperator, parsedBlock]
  | some type =>
    rw [known] at resulting
    obtain ⟨arrow, written, rfl, typed⟩ := Placed.of_cons resulting
    obtain ⟨read, same, parsed⟩ := @parseType_eq written
      ((Token.mark "\x7b").at brace :: (inner ++ rest)) type typed fun _ => rfl
    refine ⟨some read, body, .some same, alike, ?_⟩
    simp [readBody, Token.isOperator, Token.isEnd, parsed, parsedBlock]

/-- A routine is read. -/
theorem readRoutine_eq {decl : RoutineDecl} (readable : ReadsStmts (write decl.body) decl.body)
    {placed : List Token} {fuel : Nat}
    (same : Placed placed (Member.tokensBy write (.routine decl)))
    (enough : 16 * placed.length ≤ fuel) (rest : List Token) :
    ∃ read, decl.Alike read ∧
      (descent fuel).readRoutine (placed ++ rest) = .ok (read, rest) := by
  obtain ⟨here, _, rfl, named⟩ := Placed.of_cons same
  obtain ⟨there, _, rfl, opening⟩ := Placed.of_cons named
  obtain ⟨start, _, rfl, listing⟩ := Placed.of_cons opening
  obtain ⟨listed, closing, rfl, given, ending⟩ := Placed.of_append listing
  simp only [List.length_cons, List.length_append] at enough
  have answers := readResult_eq readable ending (by omega : _ ≤ fuel) here
  obtain ⟨stop, after, rfl, -⟩ := Placed.of_cons ending
  simp only [List.cons_append, List.append_assoc, readRoutine, expectKeyword_reserved, ok_bind,
    expectIdentifier_named, expectPunctuator_mark]
  cases known : decl.params with
  | nil =>
    rw [known] at given
    obtain rfl : listed = [] := Placed.of_nil given
    obtain ⟨answer, body, result, alike, parsed⟩ := answers [] rest
    refine ⟨⟨decl.name, [], answer, body, here⟩, ⟨rfl, by rw [known]; exact .nil, result, alike⟩,
      ?_⟩
    rw [List.cons_append] at parsed
    simpa [Token.isPunctuator] using parsed
  | cons first others =>
    rw [known] at given
    obtain ⟨params, alikes, parsedParams⟩ :=
      params_eq given (by omega : _ ≤ fuel) stop (after ++ rest)
    obtain ⟨answer, body, result, alike, parsed⟩ := answers params rest
    refine ⟨⟨decl.name, params, answer, body, here⟩, ⟨rfl, by rwa [known], result, alike⟩, ?_⟩
    rw [List.map_cons, separated_cons] at given
    obtain ⟨place, more, rfl, -⟩ := Placed.of_cons given
    rw [List.cons_append] at parsed parsedParams
    simpa [Token.isPunctuator, parsedParams] using parsed

/-- Members are read up to the brace that closes the unit. -/
theorem members_eq {members : List Member}
    (readable : ∀ member ∈ members, member.Readable write) {unit : UnitDecl} {placed : List Token}
    {fuel : Nat} (same : Placed placed (members.flatMap (Member.tokensBy write)))
    (enough : 16 * placed.length < fuel) (place : Position) (rest : List Token) :
    ∃ reads, List.Forall₂ Member.Alike members reads ∧
      (descent fuel).members unit (placed ++ (Token.mark "\x7d").at place :: rest) =
        .ok (reads.foldl UnitDecl.add unit, rest) := by
  induction members generalizing unit placed fuel with
  | nil =>
    obtain rfl : placed = [] := Placed.of_nil same
    obtain ⟨less, rfl⟩ : ∃ less, fuel = less + 1 := ⟨fuel - 1, by omega⟩
    exact ⟨[], .nil, by simp [descent_members, readMembers, Token.isPunctuator, Token.isEnd]⟩
  | cons member members step =>
    rw [List.flatMap_cons] at same
    obtain ⟨mine, others, rfl, here, further⟩ := Placed.of_append same
    rw [List.length_append] at enough
    obtain ⟨less, rfl⟩ : ∃ less, fuel = less + 1 := ⟨fuel - 1, by omega⟩
    have first := readable member List.mem_cons_self
    have later : ∀ other ∈ members, other.Readable write := fun other inside =>
      readable other (List.mem_cons_of_mem _ inside)
    have some : 0 < mine.length := by
      rw [here.length_eq]
      cases member <;> simp [Member.tokensBy, Member.tokens]
    rw [List.append_assoc]
    cases member with
    | field decl =>
      obtain ⟨read, alike, parsed⟩ := parseField_eq here
        (others ++ (Token.mark "\x7d").at place :: rest)
      obtain ⟨reads, alikes, all⟩ := @step later { unit with fields := unit.fields ++ [read] }
        others less further (by omega)
      refine ⟨.field read :: reads, .cons (.field alike) alikes, ?_⟩
      obtain ⟨start, more, rfl, -⟩ := Placed.of_cons here
      rw [List.cons_append] at parsed
      rw [List.cons_append, descent_members, readMembers]
      simpa [Token.isPunctuator, Token.isKeyword, parsed, UnitDecl.add] using all
    | constructor decl =>
      obtain ⟨read, alike, parsed⟩ := readConstructor_eq first here (by omega : _ ≤ less)
        (others ++ (Token.mark "\x7d").at place :: rest)
      obtain ⟨reads, alikes, all⟩ := @step later
        { unit with constructors := unit.constructors ++ [read] } others less further (by omega)
      refine ⟨.constructor read :: reads, .cons (.constructor alike) alikes, ?_⟩
      obtain ⟨start, more, rfl, -⟩ := Placed.of_cons here
      rw [List.cons_append] at parsed
      rw [List.cons_append, descent_members, readMembers]
      simpa [Token.isPunctuator, Token.isKeyword, parsed, UnitDecl.add] using all
    | routine decl =>
      obtain ⟨read, alike, parsed⟩ := readRoutine_eq first here (by omega : _ ≤ less)
        (others ++ (Token.mark "\x7d").at place :: rest)
      obtain ⟨reads, alikes, all⟩ := @step later
        { unit with routines := unit.routines ++ [read] } others less further (by omega)
      refine ⟨.routine read :: reads, .cons (.routine alike) alikes, ?_⟩
      obtain ⟨start, more, rfl, -⟩ := Placed.of_cons here
      rw [List.cons_append] at parsed
      rw [List.cons_append, descent_members, readMembers]
      simpa [Token.isPunctuator, Token.isKeyword, parsed, UnitDecl.add] using all

/-! ## Units -/

/-- A unit with one more member is like one with a member that is alike. -/
theorem UnitDecl.Alike.add {first second : UnitDecl} {member other : Member}
    (alike : first.Alike second) (same : member.Alike other) :
    (first.add member).Alike (second.add other) := by
  obtain ⟨name, base, fields, constructors, routines⟩ := alike
  cases same with
  | field like =>
    exact ⟨name, base, List.rel_append fields (.cons like .nil), constructors, routines⟩
  | constructor like =>
    exact ⟨name, base, fields, List.rel_append constructors (.cons like .nil), routines⟩
  | routine like =>
    exact ⟨name, base, fields, constructors, List.rel_append routines (.cons like .nil)⟩

/-- Units to which members are added one by one are alike when the members are. -/
theorem UnitDecl.Alike.foldl {first second : UnitDecl} {members others : List Member}
    (alike : first.Alike second) (same : List.Forall₂ Member.Alike members others) :
    (members.foldl UnitDecl.add first).Alike (others.foldl UnitDecl.add second) := by
  induction same generalizing first second with
  | nil => exact alike
  | cons head _ step => exact step (alike.add head)

/-- A unit is made of its members. -/
theorem UnitDecl.foldl_members (unit : UnitDecl) :
    unit.members.foldl add ⟨unit.name, unit.base, [], [], [], unit.position⟩ = unit := by
  have fields : ∀ (decls : List FieldDecl) (unit : UnitDecl),
      (decls.map Member.field).foldl add unit = { unit with fields := unit.fields ++ decls } := by
    intro decls
    induction decls with
    | nil => simp
    | cons decl rest step => simp [add, step]
  have constructors : ∀ (decls : List ConstructorDecl) (unit : UnitDecl),
      (decls.map Member.constructor).foldl add unit =
        { unit with constructors := unit.constructors ++ decls } := by
    intro decls
    induction decls with
    | nil => simp
    | cons decl rest step => simp [add, step]
  have routines : ∀ (decls : List RoutineDecl) (unit : UnitDecl),
      (decls.map Member.routine).foldl add unit =
        { unit with routines := unit.routines ++ decls } := by
    intro decls
    induction decls with
    | nil => simp
    | cons decl rest step => simp [add, step]
  simp [members, fields, constructors, routines]

/-- A unit is read. -/
theorem readUnit_eq {unit : UnitDecl} (readable : ∀ member ∈ unit.members, member.Readable write)
    {placed : List Token} {fuel : Nat}
    (same : Placed placed (Token.reserved "unit" :: .named unit.name :: .reserved "extends" ::
      .named unit.base :: .mark "\x7b" ::
        (unit.members.flatMap (Member.tokensBy write) ++ [Token.mark "\x7d"])))
    (enough : 16 * placed.length ≤ fuel) (rest : List Token) :
    ∃ read, unit.Alike read ∧ (descent fuel).readUnit (placed ++ rest) = .ok (read, rest) := by
  obtain ⟨here, _, rfl, named⟩ := Placed.of_cons same
  obtain ⟨_, _, rfl, extending⟩ := Placed.of_cons named
  obtain ⟨_, _, rfl, based⟩ := Placed.of_cons extending
  obtain ⟨_, _, rfl, opening⟩ := Placed.of_cons based
  obtain ⟨_, _, rfl, inside⟩ := Placed.of_cons opening
  obtain ⟨inner, _, rfl, listed, last⟩ := Placed.of_append inside
  obtain ⟨place, rfl⟩ := last.of_singleton
  simp only [List.length_cons, List.length_append, List.length_nil] at enough
  obtain ⟨reads, alikes, parsed⟩ := @members_eq write unit.members readable
    ⟨unit.name, unit.base, [], [], [], here⟩ inner fuel listed (by omega) place rest
  have empty : UnitDecl.Alike ⟨unit.name, unit.base, [], [], [], unit.position⟩
      ⟨unit.name, unit.base, [], [], [], here⟩ := ⟨rfl, rfl, .nil, .nil, .nil⟩
  have alike := empty.foldl alikes
  rw [unit.foldl_members] at alike
  refine ⟨_, alike, ?_⟩
  simp [readUnit, parsed]

/-- Imports are read up to the unit. -/
theorem imports_eq {imports : List Import} {placed : List Token} {fuel : Nat}
    (same : Placed placed (imports.flatMap Import.tokens)) (enough : placed.length < fuel)
    {next : Token} (stops : next.isKeyword "import" = false) (rest : List Token) :
    ∃ reads, imports.map Import.moduleName = reads.map Import.moduleName ∧
      (descent fuel).imports (placed ++ next :: rest) = .ok (reads, next :: rest) := by
  induction imports generalizing placed fuel with
  | nil =>
    obtain rfl : placed = [] := Placed.of_nil same
    obtain ⟨less, rfl⟩ : ∃ less, fuel = less + 1 := ⟨fuel - 1, by omega⟩
    exact ⟨[], rfl, by simp [descent_imports, readImports, stops]⟩
  | cons entry imports step =>
    rw [List.flatMap_cons] at same
    obtain ⟨mine, others, rfl, here, further⟩ := Placed.of_append same
    obtain ⟨start, _, rfl, dotted⟩ := Placed.of_cons here
    obtain ⟨inner, _, rfl, written, last⟩ := Placed.of_append dotted
    obtain ⟨ending, rfl⟩ := last.of_singleton
    simp only [List.length_append, List.length_cons, List.length_nil] at enough
    obtain ⟨less, rfl⟩ : ∃ less, fuel = less + 1 := ⟨fuel - 1, by omega⟩
    obtain ⟨reads, names, parsedOthers⟩ := step further (by omega : _ < less)
    obtain ⟨place, parsed⟩ := @parseDotted_eq inner ((Token.mark ";").at ending ::
      (others ++ next :: rest)) entry.moduleName written rfl
    refine ⟨⟨entry.moduleName, place⟩ :: reads, by simp [names], ?_⟩
    rw [List.cons_append, List.cons_append, descent_imports, readImports]
    simp [Token.isKeyword, Token.isEnd, parsed, parsedOthers]

/-- A text that spells the tokens of a source unit, however its blocks are written, is read as that
source unit. -/
theorem parse_written {source : SourceUnit}
    (readable : ∀ member ∈ source.unit.members, member.Readable write) {text : String}
    (spells : Spells text.toList [] (source.tokensBy write)) :
    ∃ read, source.Alike read ∧ parse text = .ok read := by
  obtain ⟨placed, next, same, whole⟩ := spells.tokenize_eq
  have placedTokens : Placed placed (source.tokensBy write) := same
  obtain ⟨here, _, rfl, dotted⟩ := Placed.of_cons placedTokens
  obtain ⟨inner, _, rfl, written, closing⟩ := Placed.of_append dotted
  obtain ⟨ending, _, rfl, members⟩ := Placed.of_cons closing
  obtain ⟨listed, declared, rfl, importing, declaring⟩ := Placed.of_append members
  let tokens := (Token.reserved "module").at here :: (inner ++ (Token.mark ";").at ending ::
    (listed ++ declared)) ++ [Token.endAt next]
  obtain ⟨fuel, known⟩ : ∃ fuel, fuelFor tokens = fuel := ⟨_, rfl⟩
  have size : fuel = 16 * (inner.length + listed.length + declared.length + 3) + 16 := by
    simp only [← known, fuelFor, tokens, List.length_append, List.length_cons, List.length_nil]
    omega
  obtain ⟨read, alike, parsedUnit⟩ := readUnit_eq readable declaring
    (by omega : _ ≤ fuel) [.endAt next]
  obtain ⟨start, more, rfl, -⟩ := Placed.of_cons declaring
  obtain ⟨imports, names, parsedImports⟩ := @imports_eq source.imports listed fuel importing
    (by omega) ((Token.reserved "unit").at start) rfl (more ++ [Token.endAt next])
  obtain ⟨place, parsedModule⟩ := @parseDotted_eq inner ((Token.mark ";").at ending ::
    (listed ++ (Token.reserved "unit").at start :: (more ++ [Token.endAt next]))) source.moduleName
    written rfl
  refine ⟨⟨source.moduleName, imports, read⟩, ⟨rfl, names, alike⟩, ?_⟩
  rw [parse, whole, ok_bind, known]
  simp only [List.cons_append, List.append_assoc] at parsedUnit ⊢
  rw [parseSourceUnit, readSourceUnit]
  simp only [expectKeyword_reserved, ok_bind, parsedModule, expectPunctuator_mark, parsedImports,
    parsedUnit]
  simp [Token.endAt, Token.isEnd]

/-- A text that spells the tokens of a source unit is read as that source unit. -/
theorem parse_eq {source : SourceUnit} (writable : source.Writable) {text : String}
    (spells : Spells text.toList [] source.tokens) :
    ∃ read, source.Alike read ∧ parse text = .ok read := by
  rw [source.tokens_eq] at spells
  exact parse_written (fun member inside => (writable.members member inside).readable) spells

end Reading

end QueryFusion.Script
