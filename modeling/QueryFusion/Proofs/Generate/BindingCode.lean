import QueryFusion.Proofs.Emit.Units
import QueryFusion.Proofs.Generate.Collisions
import QueryFusion.Proofs.Generate.EmittedExpressions

/-!
# What a fragment writes for binding and setup

The constructor names the nodes of the fragment. The routine that binds the unit has a block for
each node, which takes the state of the node from its executor; the setup routine opens the cursors.
-/

namespace QueryFusion.Generate

open Emit
open Script (Term TypeName Ty Stmt stmtTokens)

/-! ## Statements -/

/-- A field of the unit as an expression. -/
def fieldOfThis (name : String) : Term :=
  .member .first (.this .first) name

/-- The name of the executor that a node is bound to. -/
def executorName (id : NodeId) : String :=
  "exec_" ++ id.text

/-- The call of the constructor of the base unit. -/
def constructStatements (fragment : Fragment) : List Stmt :=
  [.construct .first [.int .first fragment.primaryId, .ints .first fragment.subsumedIds]]

/-- Takes a variable from the executor of its node, if it is bound. -/
def StateVariable.bindStatements (entry : StateVariable) : List Stmt :=
  match entry.origin with
  | .bound method =>
    [.setField .first entry.name
      (.call .first (.name .first (executorName entry.nodeId)) method [])]
  | _ => []

/-- The test for the executor of a node. -/
def nodeTest (id : NodeId) : Term :=
  .binary .first .equal (.call .first (.name .first "exec") "id" []) (.int .first id)

/-- The declaration of the executor of a node, with its own type. -/
def executorStatement (node : NodeId × String) : Stmt :=
  .declare .first (executorName node.1) ⟨node.2, none, .first⟩
    (.cast .first (.name .first "exec") ⟨node.2, none, .first⟩)

/-- The block that binds the fields of a node. -/
def prepareStatement (registry : Registry) (node : NodeId × String) : Stmt :=
  .branch .first (nodeTest node.1)
    (executorStatement node :: (registry.variablesOf node.1).flatMap StateVariable.bindStatements)

/-- Opens the cursor of a variable, if it has one. -/
def StateVariable.openStatements (entry : StateVariable) : List Stmt :=
  match entry.origin with
  | .opened =>
    [.setField .first entry.name (.call .first (.name .first "MapScanUtils") "createIterator"
      [fieldOfThis (VariableKind.scanMap.fieldOf entry.nodeId),
        fieldOfThis (VariableKind.scanPartitions.fieldOf entry.nodeId)])]
  | _ => []

/-! ## Lines -/

/-- The routine has these statements in addition. -/
structure Puts (draft : RoutineDraft) (statements : List Stmt) (next : RoutineDraft) : Prop where
  lines : ∃ added, next.commands = draft.commands ++ added ∧
    (Stmt.AllWritable statements → Yields added (stmtTokens statements))
  continues : Continues draft next

section Putting

variable {draft next last : RoutineDraft} {first second : List Stmt}

/-- No statements. -/
theorem Puts.refl (draft : RoutineDraft) : Puts draft [] draft :=
  ⟨⟨[], (List.append_nil _).symm, fun _ => .nil⟩, .refl draft⟩

/-- Statements behind others. -/
theorem Puts.trans (puts : Puts draft first next) (further : Puts next second last) :
    Puts draft (first ++ second) last := by
  obtain ⟨some, written, spelled⟩ := puts.lines
  obtain ⟨more, also, behind⟩ := further.lines
  refine ⟨⟨some ++ more, by rw [also, written, List.append_assoc], fun writable => ?_⟩,
    puts.continues.trans further.continues⟩
  rw [Script.allWritable_iff, List.forall_mem_append] at writable
  exact (spelled (Script.allWritable_iff.2 writable.1)).block
    (behind (Script.allWritable_iff.2 writable.2))

/-- What stands at the beginning of a routine. -/
theorem Puts.yields (puts : Puts draft first next) (empty : draft.commands = [])
    (writable : Stmt.AllWritable first) : Yields next.commands (stmtTokens first) := by
  obtain ⟨added, written, spelled⟩ := puts.lines
  rw [written, empty]
  exact spelled writable

/-- A line that is a statement. -/
theorem Puts.line {text : String} {statement : Stmt}
    (yields : statement.Writable → Yields (lineOf text) statement.tokens) :
    Succeeds (Drafting.line text) draft fun _ next => Puts draft [statement] next :=
  .of_ok rfl ⟨⟨lineOf text, rfl, fun writable => (yields writable.1).single⟩, .extend _ draft⟩

/-- Code for each of several items. -/
theorem emitEach_puts {α : Type} {write : α → Drafting Unit} {code : α → List Stmt} {items : List α}
    (each : ∀ item ∈ items, ∀ draft, Succeeds (write item) draft fun _ next =>
      Puts draft (code item) next) :
    Succeeds (emitEach write items) draft fun _ next => Puts draft (items.flatMap code) next := by
  induction items generalizing draft with
  | nil => exact .pure (.refl draft)
  | cons item rest step =>
    refine (each item List.mem_cons_self draft).bind fun _ middle puts => ?_
    refine (step fun other member => each other (List.mem_cons_of_mem _ member)).imp ?_
      fun _ _ never => never
    exact fun _ next further => puts.trans further

/-- An assignment to a field of the unit. -/
theorem setField_puts {name text : String} {value : Term} (written : text = value.source) :
    Succeeds (Drafting.line (thisField name ++ " = " ++ text ++ ";")) draft
      fun _ next => Puts draft [.setField .first name value] next := by
  subst written
  exact Puts.line fun writable => Yields.setField writable.1 writable.2

/-- A variable is bound as its statements say. -/
theorem prepare_puts (entry : StateVariable) :
    Succeeds (StateVariable.prepare (executorName entry.nodeId) entry) draft
      fun _ next => Puts draft entry.bindStatements next := by
  unfold StateVariable.prepare StateVariable.bindStatements
  cases entry.origin with
  | bound method =>
    have target : (Term.name .first (executorName entry.nodeId)).level = 8 := rfl
    exact setField_puts (invoke_eq target method [])
  | none | opened => exact .pure (.refl draft)

/-- More modules in front of statements. -/
theorem Puts.useSymbol {symbol : String} (puts : Puts (draft.useSymbol symbol) first next) :
    Puts draft first next :=
  ⟨puts.lines, (Continues.useSymbol symbol draft).trans puts.continues⟩

/-- A cursor is opened as its statements say. -/
theorem setup_puts (entry : StateVariable) :
    Succeeds (StateVariable.setup entry) draft fun _ next =>
      Puts draft entry.openStatements next := by
  unfold StateVariable.setup StateVariable.openStatements
  cases entry.origin with
  | opened =>
    have created : Succeeds (Drafting.invokeStatic "MapScanUtils" "createIterator"
        [VariableKind.scanMap.sourceOf entry.nodeId,
          VariableKind.scanPartitions.sourceOf entry.nodeId])
        draft fun text next =>
          text = (Term.call .first (.name .first "MapScanUtils") "createIterator"
          [fieldOfThis (VariableKind.scanMap.fieldOf entry.nodeId),
            fieldOfThis (VariableKind.scanPartitions.fieldOf entry.nodeId)]).source ∧
          next = draft.useSymbol "MapScanUtils" :=
      .of_ok rfl ⟨rfl, rfl⟩
    refine created.bind ?_
    rintro _ _ ⟨rfl, rfl⟩
    exact (setField_puts rfl).imp (fun _ _ puts => puts.useSymbol) fun _ _ never => never
  | none | bound method => exact .pure (.refl draft)

/-- The executor of a node is declared as its statement says. -/
theorem executor_puts (node : NodeId × String) :
    Succeeds (Drafting.line ("let " ++ ("exec_" ++ node.1.text) ++ ": " ++ node.2 ++ " = " ++
        castTo "exec" node.2 ++ ";")) draft
      fun _ next => Puts draft [executorStatement node] next := by
  let type : TypeName := ⟨node.2, none, .first⟩
  have cast : castTo "exec" node.2 = (Term.cast .first (.name .first "exec") type).source := by
    rw [← String.toList_inj]
    simp [type, castTo, Term.source, Term.level, Script.enclose, TypeName.text]
  have text : type.text = node.2 := rfl
  rw [cast, ← text]
  exact Puts.line fun writable => Yields.declare writable.1 writable.2.1 writable.2.2

/-- The text of the test for the executor of a node. -/
theorem nodeTest_source (id : NodeId) : (nodeTest id).source = "exec.id() == " ++ id.text := by
  rw [← String.toList_inj]
  simp [nodeTest, Term.source, Term.sources, Term.level, Script.BinaryOp.level,
    Script.BinaryOp.symbol, Script.enclose, NodeId.text]

/-- The block of a node is written as its statement. -/
theorem emitPrepareBlock_puts (registry : Registry) (node : NodeId × String) :
    Succeeds (emitPrepareBlock registry node) draft
      fun _ next => Puts draft [prepareStatement registry node] next := by
  have header : "if (" ++ invoke "exec" Script.Method.executorId.name [] ++ " == " ++ node.1.text ++
      ") \x7b" = "if (" ++ (nodeTest node.1).source ++ ") \x7b" := by
    rw [nodeTest_source, ← String.toList_inj]
    simp [invoke, Script.Method.name]
  let opening := lineOf ("if (" ++ (nodeTest node.1).source ++ ") \x7b") ++ [Command.indent]
  unfold emitPrepareBlock
  dsimp only
  rw [header]
  have opened : Succeeds (Drafting.opening ("if (" ++ (nodeTest node.1).source ++ ") \x7b")) draft
      fun _ next => next = draft.extend opening := .of_ok rfl rfl
  refine opened.bind ?_
  rintro _ _ rfl
  have typed : Succeeds (modify (RoutineDraft.useType node.2) : Drafting Unit)
    (draft.extend opening)
      fun _ next => next = (draft.extend opening).useType node.2 := .of_ok rfl rfl
  refine typed.bind ?_
  rintro _ _ rfl
  refine Succeeds.bind (executor_puts node) fun _ middle declared => ?_
  refine Succeeds.bind (@emitEach_puts _ _ _ StateVariable.bindStatements _ fun entry member _ =>
    ?_) fun _ last bound => ?_
  · obtain ⟨-, same⟩ := List.mem_filter.1 member
    rw [show node.1 = entry.nodeId from (beq_iff_eq.1 same).symm]
    exact prepare_puts entry
  obtain ⟨added, written, yields⟩ := (declared.trans bound).lines
  refine .of_ok rfl ⟨⟨opening ++ added ++ Command.dedent :: lineOf "\x7d", ?_, fun writable => ?_⟩,
    ?_⟩
  · rw [RoutineDraft.extend, written]
    simp [RoutineDraft.useType, RoutineDraft.extend]
  · exact (Yields.branch writable.1.1 (yields writable.1.2)).single
  · exact (Continues.extend _ _).trans ((Continues.useType _ _).trans
      ((declared.trans bound).continues.trans (.extend _ _)))

/-- What is written for each of several items is what is left of the run. -/
theorem puts_emitEach {α : Type} {write : α → Drafting Unit} {code : α → List Stmt} {items : List α}
    (each : ∀ item ∈ items, ∀ draft, Succeeds (write item) draft fun _ next =>
      Puts draft (code item) next) (draft : RoutineDraft) :
    Puts draft (items.flatMap code) ((emitEach write items).runOn draft).2 := by
  have run : Succeeds (emitEach write items) draft fun _ next =>
    Puts draft (items.flatMap code) next :=
    emitEach_puts each
  rcases run.cases with ⟨_, next, done, puts⟩ | ⟨_, _, _, never⟩
  · rw [done]
    exact puts
  · exact never.elim

/-- The routine that binds the unit is written as its statements. -/
theorem prepareOf_puts (registry : Registry) :
    Puts (.start (.method "prepare" none) [("exec", Ty.executor.text)])
      (registry.nodes.map (prepareStatement registry)) (prepareOf registry) := by
  have puts := @puts_emitEach _ _ (fun node => [prepareStatement registry node]) registry.nodes
    (fun node _ _ => emitPrepareBlock_puts registry node)
      (.start (.method "prepare" none) [("exec", Ty.executor.text)])
  rwa [← List.map_eq_flatMap] at puts

/-- The setup routine is written as its statements. -/
theorem setupOf_puts (registry : Registry) :
    Puts (.start (.method "setup" none) [("ctx", Ty.context.text)])
      (registry.declared.flatMap StateVariable.openStatements) (setupOf registry) :=
  puts_emitEach (fun entry _ _ => setup_puts entry) _

/-- The constructor is written as its statement. -/
theorem constructorOf_puts (fragment : Fragment) :
    Puts (.start .constructor []) (constructStatements fragment) (constructorOf fragment) := by
  have text : "super(" ++ fragment.primaryId.text ++ ", [" ++
      String.intercalate ", " (fragment.subsumedIds.map NodeId.text) ++ "]);" =
        "super(" ++ String.intercalate ", " (Term.sources
          [.int .first fragment.primaryId, .ints .first fragment.subsumedIds]) ++ ");" := by
    rw [← String.toList_inj]
    simp [Term.sources, Term.source, NodeId.text]
    rfl
  refine ⟨⟨_, rfl, fun writable => ?_⟩, .extend _ _⟩
  rw [text]
  exact (Yields.construct writable.1).single

end Putting

end QueryFusion.Generate
