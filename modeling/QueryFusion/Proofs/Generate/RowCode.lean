import QueryFusion.Proofs.Generate.Collisions
import QueryFusion.Proofs.Generate.EmittedExpressions

/-!
# The code of a row

The code that a run writes for one row is a list of steps: each declares a local, or goes on with
the next row unless a condition is true. The rules tell which steps stand for a scan, a filter and a
projection.
-/

namespace QueryFusion.Generate

open Emit
open Script (Term Ty Stmt stmtTokens)

/-! ## Steps -/

/-- A step of the code for a row. -/
inductive RowStep
  | bind (binding : Binding)
  /-- Goes on with the next row unless the condition is true. -/
  | skip (condition : Local)

namespace RowStep

/-- The test of a condition that is not true. -/
def failing (condition : Local) : Term :=
  .binary .first .or (equalTerm condition (.null .first)) (.not .first (termOf condition))

/-- The statement of a step. -/
def statement : RowStep → Stmt
  | bind binding => binding.statement
  | skip condition => .branch .first (failing condition) [.proceed .first]

/-- What a step declares. -/
def bindings : RowStep → List Binding
  | bind binding => [binding]
  | skip _ => []

/-- Declarations declare what they declare. -/
theorem flatMap_bindings_bind (declared : List Binding) :
    (declared.map bind).flatMap bindings = declared := by
  induction declared with
  | nil => rfl
  | cons binding rest step =>
    rw [List.map_cons, List.flatMap_cons, step]
    rfl

/-- The statements of declarations. -/
theorem map_statement_bind (declared : List Binding) :
    (declared.map bind).map statement = declared.map Binding.statement := by
  rw [List.map_map]
  rfl

/-- The text of the test. -/
theorem failing_source (condition : Local) :
    (failing condition).source = condition.name ++ " == null || !" ++ condition.name := by
  rw [← String.toList_inj]
  simp [failing, equalTerm, termOf, Term.source, Term.level, Script.BinaryOp.level,
    Script.BinaryOp.symbol, Script.enclose]

end RowStep

/-- The routine has the code of these steps in addition, unless there are too many expressions to
number them. -/
structure Grows (wide : Prop) (draft : RoutineDraft) (steps : List RowStep) (next : RoutineDraft) :
    Prop where
  lines : ∃ added, next.commands = draft.commands ++ added ∧
    ((∀ step ∈ steps, step.statement.Writable) →
      Shows wide added (stmtTokens (steps.map RowStep.statement)))
  locals : next.locals = draft.locals ++ (steps.flatMap RowStep.bindings).map Binding.entry
  continues : Continues draft next

section Growing

variable {wide more : Prop} {draft next last : RoutineDraft}

/-- One code behind another. -/
theorem Grows.trans {first second : List RowStep} (grows : Grows wide draft first next)
    (further : Grows more next second last) : Grows (wide ∨ more) draft (first ++ second) last := by
  obtain ⟨some, written, spelled⟩ := grows.lines
  obtain ⟨others, also, behind⟩ := further.lines
  refine ⟨⟨some ++ others, by rw [also, written, List.append_assoc], fun writable => ?_⟩, ?_,
    grows.continues.trans further.continues⟩
  · rw [List.map_append]
    refine (spelled fun step member => ?_).block (behind fun step member => ?_)
    · exact writable step (List.mem_append_left _ member)
    · exact writable step (List.mem_append_right _ member)
  · rw [further.locals, grows.locals, List.flatMap_append, List.map_append, List.append_assoc]

/-- The same code in other words. -/
theorem Grows.congr {steps : List RowStep} (grows : Grows wide draft steps next)
    (same : wide ↔ more) : Grows more draft steps next := by
  obtain ⟨added, written, reads⟩ := grows.lines
  exact ⟨⟨added, written, fun writable => (reads writable).congr same⟩, grows.locals,
    grows.continues⟩

/-- Code behind which nothing is numbered. -/
theorem Grows.before {first second : List RowStep} (grows : Grows wide draft first next)
    (further : Grows False next second last) : Grows wide draft (first ++ second) last :=
  (grows.trans further).congr (Iff.of_eq (or_false wide))

/-- Declarations are steps. -/
theorem Writes.grows {bindings : List Binding} (writes : Writes draft bindings next) :
    Grows False draft (bindings.map .bind) next := by
  refine ⟨⟨_, writes.commands, fun writable => ?_⟩, ?_, writes.continues⟩
  · rw [RowStep.map_statement_bind]
    exact .of_yields (yields_linesOf fun binding member =>
      writable (.bind binding) (List.mem_map_of_mem member))
  · rw [RowStep.flatMap_bindings_bind, writes.locals]

/-- More declarations behind others. -/
theorem Writes.trans {first second : List Binding} (writes : Writes draft first next)
    (further : Writes next second last) : Writes draft (first ++ second) last where
  commands := by
    rw [further.commands, writes.commands, linesOf, linesOf, linesOf, List.flatMap_append,
      List.append_assoc]
  locals := by rw [further.locals, writes.locals, List.map_append, List.append_assoc]
  continues := writes.continues.trans further.continues

/-- No declaration. -/
theorem Writes.refl (draft : RoutineDraft) : Writes draft [] draft :=
  ⟨(List.append_nil _).symm, (List.append_nil _).symm, .refl draft⟩

/-- A line that spells nothing is no step. -/
theorem line_grows {text : String} (silent : Yields (lineOf text) []) :
    Succeeds (Drafting.line text) draft fun _ next => Grows False draft [] next :=
  .of_ok rfl ⟨⟨lineOf text, rfl, fun _ => .of_yields silent⟩, (List.append_nil _).symm,
    .extend _ draft⟩

/-- A test is written as one step. -/
theorem emitSkipUnless_grows (condition : Local) :
    Succeeds (emitSkipUnless condition) draft fun _ next => Grows False draft
      [.skip condition] next := by
  let added := lineOf ("if (" ++ (RowStep.failing condition).source ++ ") \x7b") ++
    [Command.indent] ++ lineOf "continue;" ++ Command.dedent :: lineOf "\x7d"
  have written : (emitSkipUnless condition).runOn draft = (.ok (), draft.extend added) := by
    have text : "if (" ++ (RowStep.failing condition).source ++ ") \x7b" =
        "if (" ++ condition.name ++ " == null || !" ++ condition.name ++ ") \x7b" := by
      rw [RowStep.failing_source]
      simp only [String.append_assoc]
    have opened : (Drafting.opening ("if (" ++ condition.name ++ " == null || !" ++
        condition.name ++ ") \x7b")).runOn draft = (.ok (), draft.extend (lineOf ("if (" ++
          condition.name ++ " == null || !" ++ condition.name ++ ") \x7b") ++ [Command.indent])) :=
            rfl
    unfold emitSkipUnless
    rw [runOn_bind_ok opened, show added = lineOf ("if (" ++ condition.name ++ " == null || !" ++
      condition.name ++ ") \x7b") ++ [Command.indent] ++ lineOf "continue;" ++ Command.dedent ::
        lineOf "\x7d" by
        rw [← text]]
    have both : ∀ first second third : List Command,
        ((draft.extend first).extend second).extend third = draft.extend
          (first ++ second ++ third) := by
      intro first second third
      simp [RoutineDraft.extend, List.append_assoc]
    rw [← both]
    rfl
  refine .of_ok written ⟨⟨added, rfl, fun writable => ?_⟩, (List.append_nil _).symm,
    .extend _ draft⟩
  have test := writable (.skip condition) (List.mem_singleton_self _)
  exact .of_yields (Yields.single (Yields.branch test.1 (Yields.single .proceed)))

/-- A declaration is written when its name is free. -/
theorem declare_writes (binding : Binding) :
    Drafts (Drafting.declare binding.entry binding.value.source) draft
      (fun _ next => Lacks draft (· = binding.entry.name) ∧ Writes draft [binding] next)
      fun _ _ => True := by
  by_cases free : Lacks draft (· = binding.entry.name)
  · have missing := (localOf?_eq_none_iff draft binding.entry.name).2 free
    refine .of_ok (runOn_declare missing _) ⟨free, ?_, RoutineDraft.locals_declared missing _,
      .declared _ _ draft⟩
    simp [RoutineDraft.declared, linesOf]
  · exact (declare_drafts binding.entry _).imp (fun _ _ added => absurd added.1 free)
      fun _ _ _ => trivial

end Growing

/-! ## The rules -/

/-- The field with the cursor of a scan. -/
def cursorTerm (id : NodeId) : Term :=
  .member .first (.this .first) (VariableKind.scanCursor.fieldOf id)

/-- The whole key or value of the current entry. -/
def readTerm (id : NodeId) (ofKey : Bool) : Term :=
  .call .first (cursorTerm id) (sideName ofKey) []

/-- The declaration of the whole key or value, which is checked against its class. -/
def topBinding (id : NodeId) (ofKey : Bool) : Shape → Binding
  | .ofClass className =>
    ⟨⟨topName id ofKey, .object className⟩,
      .cast .first (readTerm id ofKey) (writtenType (.object (some className)))⟩
  | .scalar _ => ⟨⟨topName id ofKey, .value⟩, readTerm id ofKey⟩

/-- The locals of a scan with that of the whole key or value. -/
def ScanLocals.withTop (locals : ScanLocals) (ofKey : Bool) (top : Local) : ScanLocals :=
  if ofKey then { locals with key := some top } else { locals with value := some top }

/-- The locals of a scan with that of a field. -/
def ScanLocals.withField (locals : ScanLocals) (path : FieldPath) (type : DataType)
    (entry : Local) : ScanLocals :=
  { locals with fields := ((path, type), entry) :: locals.fields }

/-- The whole key or value is read on first use. -/
inductive TopCode (id : NodeId) (spec : ScanSpec) (ofKey : Bool) (locals : ScanLocals) :
    Local → ScanLocals → List Binding → Prop
  | known {top : Local} (found : locals.top ofKey = some top) :
    TopCode id spec ofKey locals top locals []
  | read (missing : locals.top ofKey = none) :
    TopCode id spec ofKey locals (topBinding id ofKey (spec.shapeOf ofKey)).entry
      (locals.withTop ofKey (topBinding id ofKey (spec.shapeOf ofKey)).entry)
      [topBinding id ofKey (spec.shapeOf ofKey)]

/-- The name is the own name of a field, or that with an index. -/
def Numerable (own name : String) : Prop :=
  name = own ∨ ∃ index : Nat, name = own ++ "_" ++ toString index

/-- The value of a field of an object, null below null. -/
def fieldTerm (top : Local) (field : String) (type : DataType) : Term :=
  .conditional .first (equalTerm top (.null .first)) (.null .first)
    (.cast .first (.call .first (termOf top) (getterName field) []) (writtenType (scalarTy type)))

/-- How a field is read: a whole object is its own local, everything else is converted. -/
inductive FieldCode (id : NodeId) (spec : ScanSpec) (path : FieldPath) (type : DataType)
    (locals : ScanLocals) : Local → ScanLocals → List Binding → Prop
  | whole {top : Local} {next : ScanLocals} {bindings : List Binding} {className : String}
    (below : path.below = none) (shape : spec.shapeOf path.ofKey = .ofClass className)
    (read : TopCode id spec path.ofKey locals top next bindings) :
    FieldCode id spec path type locals top next bindings
  | scalar {top : Local} {next : ScanLocals} {bindings : List Binding} {other : DataType}
    {name : String} (below : path.below = none) (shape : spec.shapeOf path.ofKey = .scalar other)
    (read : TopCode id spec path.ofKey locals top next bindings)
    (named : Numerable (stemOf id (sideName path.ofKey)) name) :
    FieldCode id spec path type locals ⟨name, .scalar type⟩ next (bindings ++
      [⟨⟨name, .scalar type⟩, .cast .first (termOf top) (writtenType (scalarTy type))⟩])
  | field {top : Local} {next : ScanLocals} {bindings : List Binding} {className field : String}
    {name : String} (below : path.below = some field)
    (shape : spec.shapeOf path.ofKey = .ofClass className)
    (read : TopCode id spec path.ofKey locals top next bindings)
    (named : Numerable (stemOf id (sideName path.ofKey) ++ "_" ++ field) name) :
    FieldCode id spec path type locals ⟨name, .scalar type⟩ next (bindings ++
      [⟨⟨name, .scalar type⟩, fieldTerm top field type⟩])

/-- How the fields are read, each of them once. -/
inductive FieldsCode (id : NodeId) (spec : ScanSpec) :
    List (FieldPath × DataType) → ScanLocals → List Local → List Binding → Prop
  | nil {locals : ScanLocals} : FieldsCode id spec [] locals [] []
  | again {path : FieldPath} {type : DataType} {rest : List (FieldPath × DataType)}
    {locals : ScanLocals} {entry : Local} {others : List Local} {bindings : List Binding}
    (seen : ((path, type), entry) ∈ locals.fields)
    (further : FieldsCode id spec rest locals others bindings) :
    FieldsCode id spec ((path, type) :: rest) locals (entry :: others) bindings
  | fresh {path : FieldPath} {type : DataType} {rest : List (FieldPath × DataType)}
    {locals next : ScanLocals} {entry : Local} {others : List Local} {first bindings : List Binding}
    (read : FieldCode id spec path type locals entry next first)
    (further : FieldsCode id spec rest (next.withField path type entry) others bindings) :
    FieldsCode id spec ((path, type) :: rest) locals (entry :: others) (first ++ bindings)

/-- The local of a condition that has been made boolean. -/
def passedLocal (id : NodeId) : Local :=
  ⟨stemOf id "filter" ++ "_passed", .scalar .boolean⟩

/-- The declaration that makes a condition boolean; objects are taken for values first. -/
def passedBinding (id : NodeId) (entry : Local) : Binding :=
  ⟨passedLocal id, .cast .first
    (match entry.type with
     | .object _ => .cast .first (termOf entry) (writtenType .value)
     | _ => termOf entry) (writtenType .boolean)⟩

/-- The code of a condition that is kept in a field of the unit. -/
inductive TestCode (id : NodeId) (kind : VariableKind) (inputs : List Local) (condition : Expr) :
    List RowStep → Prop
  | boolean {imports : List String} {entry : Local} {bindings : List Binding}
    (emits : Inlining.Emits ⟨stemOf id "filter", inputs⟩ (.field (kind.fieldOf id))
      condition imports
      entry bindings) (typed : entry.type = .scalar .boolean) :
    TestCode id kind inputs condition (bindings.map .bind ++ [RowStep.skip entry])
  | cast {imports : List String} {entry : Local} {bindings : List Binding}
    (emits : Inlining.Emits ⟨stemOf id "filter", inputs⟩ (.field (kind.fieldOf id))
      condition imports
      entry bindings) (other : entry.type ≠ .scalar .boolean) :
    TestCode id kind inputs condition
      (bindings.map .bind ++ [RowStep.bind (passedBinding id entry), RowStep.skip (passedLocal id)])

/-- The code of a condition that may be missing. -/
inductive OptionalTestCode (id : NodeId) (kind : VariableKind) (inputs : List Local) :
    Option Expr → List RowStep → Prop
  | none : OptionalTestCode id kind inputs none []
  | some {condition : Expr} {steps : List RowStep}
      (tests : TestCode id kind inputs condition steps) :
    OptionalTestCode id kind inputs (some condition) steps

/-- What an expression of a projection is inlined with. -/
def projection (id : NodeId) (row : List Local) (index : Nat) : Inlining :=
  ⟨stemOf id ("project_" ++ toString index), row⟩

/-- A name belongs to one expression of a projection at most. -/
theorem projection_unique {id : NodeId} {row : List Local} {first second : Nat} {name : String}
    (left : Under (projection id row first).stem name)
    (right : Under (projection id row second).stem name) : first = second := by
  have stem : ∀ number, (projection id row number).stem =
      stemOf id "project" ++ "_" ++ toString number := by
    intro number
    rw [projection, stemOf, stemOf, ← String.toList_inj]
    simp
  rw [stem] at left right
  exact toString_inj (left.part_unique right (plain_toString _) (plain_toString _))

/-- Where an expression of a projection is kept. -/
def projectKeeper (id : NodeId) (index : Nat) : Keeper :=
  .item (VariableKind.projectExpressions.fieldOf id) (Int32.ofNat index)

/-- The code of the expressions of a projection; the number of one that the engine evaluates is an
integer, unless there are too many of them. -/
inductive ProjectsCode (wide : Prop) (id : NodeId) (row : List Local) :
    List Expr → Nat → List Local → List Binding → Prop
  | nil {index : Nat} : ProjectsCode wide id row [] index [] []
  | cons {imports : List String} {expression : Expr} {rest : List Expr} {index : Nat}
      {entry : Local}
    {others : List Local} {first bindings : List Binding}
    (emits : (projection id row index).Emits (projectKeeper id index) expression imports
      entry first)
    (small : ¬ wide → inlineType? (projection id row index).inputTypes expression = none →
      index < 2 ^ 31)
    (further : ProjectsCode wide id row rest (index + 1) others bindings) :
    ProjectsCode wide id row (expression :: rest) index (entry :: others) (first ++ bindings)

/-- None of the declared names belongs to the part. -/
def Apart (stem : String) (bindings : List Binding) : Prop :=
  ∀ binding ∈ bindings, ¬ Under stem binding.entry.name

/-- The code of a run for one row: the locals of its row, and the steps. -/
inductive RowCode (wide : Prop) : Plan → List Local → List RowStep → Prop
  | scan {id : NodeId} {spec : ScanSpec} {fields row : List Local} {bindings : List Binding}
    {steps : List RowStep}
    (read : FieldsCode id spec (spec.paths.zip spec.types) .empty fields bindings)
    (distinct : (bindings.map fun binding => binding.entry.name).Nodup)
    (tests : OptionalTestCode id .scanFilter fields spec.filter steps)
    (apart : Apart (stemOf id "filter") bindings)
    (selected : selectLocals id fields spec.projects = .ok row) :
    RowCode wide (.scan id spec) row (bindings.map .bind ++ steps)
  | filter {id : NodeId} {condition : Expr} {input : Plan} {row : List Local}
    {before steps : List RowStep} (below : RowCode wide input row before)
    (tests : TestCode id .filterCondition row condition steps)
    (apart : Apart (nodeStem id) (before.flatMap RowStep.bindings)) :
    RowCode wide (.filter id condition input) row (before ++ steps)
  | project {id : NodeId} {expressions : List Expr} {input : Plan} {row projected : List Local}
    {before : List RowStep} {bindings : List Binding} (below : RowCode wide input row before)
    (projects : ProjectsCode wide id row expressions 0 projected bindings)
    (apart : Apart (nodeStem id) (before.flatMap RowStep.bindings)) :
    RowCode wide (.project id expressions input) projected (before ++ bindings.map .bind)

/-- Expressions that can be numbered can be numbered where more are too many. -/
theorem ProjectsCode.imp {wide more : Prop} (less : wide → more) {id : NodeId} {row : List Local}
    {expressions : List Expr} {index : Nat} {others : List Local} {bindings : List Binding}
    (code : ProjectsCode wide id row expressions index others bindings) :
    ProjectsCode more id row expressions index others bindings := by
  induction code with
  | nil => exact .nil
  | cons emits small _ step => exact .cons emits (fun fits => small (mt less fits)) step

/-- The code of a run does where more expressions are too many. -/
theorem RowCode.imp {wide more : Prop} (less : wide → more) {plan : Plan} {row : List Local}
    {steps : List RowStep} (code : RowCode wide plan row steps) : RowCode more plan row steps := by
  induction code with
  | scan read distinct tests apart selected => exact .scan read distinct tests apart selected
  | filter _ tests apart step => exact .filter step tests apart
  | project _ projects apart step => exact .project step (projects.imp less) apart

end QueryFusion.Generate
