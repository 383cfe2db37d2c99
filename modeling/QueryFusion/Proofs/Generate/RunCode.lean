import QueryFusion.Proofs.Generate.EmittedRows

/-!
# What a fragment writes for a batch

The routine that produces a batch clears it, loops over the entries of the scan with the steps of
the run inside, and hands each row on at the end of the steps. A run is followed from the leaf up;
what follows it is written behind its steps.
-/

namespace QueryFusion.Plan

open Generate Emit

/-! ## Runs -/

/-- The scan at the leaf of a run. -/
def leafId : Plan → NodeId
  | filter _ _ input | project _ _ input => input.leafId
  | scan id _ | root id _ | sort id _ _ _ | join id _ _ _ => id

/-- No projection of the run has as many expressions as there are integers to number them. -/
def Narrow : Plan → Prop
  | project _ expressions input => expressions.length < 2 ^ 31 ∧ input.Narrow
  | filter _ _ input => input.Narrow
  | scan .. | root .. | sort .. | join .. => True

/-- What is written in front of the steps of a run. -/
def prologue : Plan → List Command
  | filter _ _ input | project _ _ input => input.prologue
  | scan id spec => lineOf (startComment (.scan id spec)) ++ loopLine id
  | root .. | sort .. | join .. => []

/-- A scan that can be compiled has been checked. -/
theorem checkScan_of_isCompilable {id : NodeId} {spec : ScanSpec}
    (compilable : (scan id spec).isCompilable = true) : checkScan spec = .ok () := by
  have checked : (checkScan spec).isOk = true := compilable
  cases found : checkScan spec with
  | ok nothing => rfl
  | error error =>
    rw [found] at checked
    cases checked

/-- A run has been written: its steps follow the rules, and its names belong to its nodes. -/
structure Wrote (plan : Plan) (wide : Prop) (draft : RoutineDraft) (row : List Local)
    (steps : List RowStep) (next : RoutineDraft) : Prop where
  code : RowCode wide plan row steps
  grows : Grows wide (draft.extend plan.prologue) steps next
  many : wide → ¬ plan.Narrow
  owned : Owned plan.runIds plan.id next
  /-- There were no locals before. -/
  empty : draft.locals = []

/-- The names of another node are declared by no step. -/
theorem Wrote.apart {plan : Plan} {wide : Prop} {draft next : RoutineDraft} {row : List Local}
    {steps : List RowStep} (wrote : plan.Wrote wide draft row steps next) {id : NodeId}
    (new : ∀ other ∈ plan.runIds, other ≠ id) :
    Apart (nodeStem id) (steps.flatMap RowStep.bindings) := by
  intro binding member under
  have inside : binding.entry ∈ next.locals := by
    rw [wrote.grows.locals]
    exact List.mem_append_right _ (List.mem_map_of_mem member)
  obtain ⟨⟨owner, listed, mine⟩, -⟩ := wrote.owned binding.entry inside
  exact new owner listed (mine.node_unique under)

/-- A comment behind a run changes nothing. -/
theorem Wrote.commented {plan : Plan} {wide : Prop} {draft next last : RoutineDraft}
    {row : List Local} {steps : List RowStep} (wrote : plan.Wrote wide draft row steps next)
    (noted : Grows False next [] last) : plan.Wrote wide draft row steps last where
  code := wrote.code
  grows := by
    have whole := wrote.grows.before noted
    rwa [List.append_nil] at whole
  many := wrote.many
  owned := by
    have same : last.locals = next.locals := by
      rw [noted.locals]
      exact List.append_nil _
    unfold Owned
    rw [same]
    exact wrote.owned
  empty := wrote.empty

/-- A line is written. -/
theorem line_extends (text : String) (draft : RoutineDraft) :
    Succeeds (Drafting.line text) draft fun _ next => next = draft.extend (lineOf text) :=
  .of_ok rfl rfl

/-- The code of a run follows the rules. What follows is written behind it. -/
theorem emitRowStarts_code {plan : Plan} (compilable : plan.isCompilable = true)
    (apart : plan.runIds.Nodup) {draft : RoutineDraft} (empty : draft.locals = [])
    {rest : List Generator} {good : Unit → RoutineDraft → Prop}
    (after : ∀ wide row steps next, plan.Wrote wide draft row steps next →
      Drafts (emitRowStarts rest (some row)) next good fun _ _ => True) :
    Drafts (emitRowStarts (plan.runGenerators ++ rest) none) draft good fun _ _ => True := by
  induction plan generalizing rest with
  | scan id spec =>
    rw [runGenerators_scan compilable, List.singleton_append, emitRowStarts]
    have announced :
      Succeeds (Drafting.line ("// NODE START: " ++ (Generator.scan id spec).id.text ++
        " (" ++ (Generator.scan id spec).kindName ++ ")")) draft
        fun _ next => next = draft.extend (lineOf (startComment (.scan id spec))) :=
      line_extends _ draft
    refine announced.bind ?_
    rintro _ _ rfl
    have start : (draft.extend (lineOf (startComment (.scan id spec)))).extend (loopLine id) =
        draft.extend (scan id spec).prologue := by
      rw [prologue, RoutineDraft.extend_append]
    have coded := @scan_rowStart (draft.extend (lineOf (startComment (.scan id spec)))) id spec
      (checkScan_of_isCompilable compilable) empty
    refine coded.bind ?_
    rintro _ next ⟨row, steps, rfl, code, grows, owned⟩
    rw [start] at grows
    exact after False row steps next ⟨code, grows, False.elim, owned, empty⟩
  | filter id condition input step =>
    have below : input.isCompilable = true := compilable
    obtain ⟨ids, new⟩ := runIds_goesOn apart
    rw [runGenerators_filter below, List.append_assoc]
    refine step below ids fun wide row before next wrote => ?_
    rw [List.singleton_append, emitRowStarts]
    refine (line_grows (yields_startComment (.filter id condition))).bind fun _ noted grows => ?_
    have wrote := wrote.commented grows
    refine Succeeds.bind (filter_rowStart condition row (wrote.owned.lacks new)) ?_
    rintro _ last ⟨rfl, ⟨steps, tests, grows⟩, adds⟩
    exact after wide row (before ++ steps) last ⟨.filter wrote.code tests (wrote.apart new),
      wrote.grows.before grows, wrote.many, wrote.owned.behind plain_roles.2.2.2.1
        (by decide) adds new, empty⟩
  | project id expressions input step =>
    have below : input.isCompilable = true := compilable
    obtain ⟨ids, new⟩ := runIds_goesOn apart
    rw [runGenerators_project below, List.append_assoc]
    refine step below ids fun wide row before next wrote => ?_
    rw [List.singleton_append, emitRowStarts]
    refine (line_grows (yields_startComment (.project id expressions))).bind fun _ noted grows => ?_
    have wrote := wrote.commented grows
    refine Succeeds.bind (project_rowStart expressions row fun _ => wrote.owned.lacks new) ?_
    rintro _ last ⟨more, projected, bindings, rfl, many, projects, grows, adds⟩
    have wider : wide ∨ more → ¬ (project id expressions input).Narrow := by
      rintro (wide | more) narrow
      · exact wrote.many wide narrow.2
      · have := many more
        have := narrow.1
        omega
    have code : RowCode (wide ∨ more) (.project id expressions input) projected
        (before ++ bindings.map .bind) :=
      .project (wrote.code.imp .inl) (projects.imp .inr) (wrote.apart new)
    exact after (wide ∨ more) projected (before ++ bindings.map .bind) last
      ⟨code, wrote.grows.trans grows, wider, wrote.owned.behind plain_roles.2.2.2.2.1
        (by decide) adds new, empty⟩
  | root id input step | sort id columns ascending input step => cases compilable
  | join id condition left right leftStep rightStep => cases compilable

/-- Only comments are written, but for the brace that closes the loop. -/
def Closes (draft next : RoutineDraft) : Prop :=
  ∃ before after, next.commands = draft.commands ++ (before ++ .dedent :: lineOf "\x7d" ++ after) ∧
    Yields before [] ∧ Yields after [] ∧ Continues draft next

/-- The comment behind a step is a line that adds nothing to the code. -/
theorem endComment_noted (generator : Generator) (draft : RoutineDraft) :
    Succeeds (Drafting.line ("// NODE END  : " ++ generator.id.text)) draft fun _ next => ∃ added,
      next.commands = draft.commands ++ added ∧ Yields added [] ∧ Continues draft next := by
  refine (line_grows (yields_endComment generator)).imp ?_ fun _ _ never => never
  rintro _ next grows
  obtain ⟨added, written, reads⟩ := grows.lines
  exact ⟨added, written, (reads (List.forall_mem_nil _)).certain, grows.continues⟩

/-- A step that opens no brace leaves the closing to the steps before it. -/
theorem emitRowEnds_passed {generator : Generator} {rest : List Generator}
    (passed : ∀ draft, Succeeds generator.rowEnd draft fun _ next => next = draft)
    (step : ∀ draft, Succeeds (emitRowEnds rest) draft fun _ next => Closes draft next)
    (draft : RoutineDraft) :
    Succeeds (emitRowEnds (generator :: rest)) draft fun _ next => Closes draft next := by
  rw [emitRowEnds]
  refine (passed draft).bind ?_
  rintro _ _ rfl
  refine (endComment_noted generator _).bind ?_
  rintro _ next ⟨added, written, yields, continues⟩
  refine (step next).imp ?_ fun _ _ never => never
  rintro _ last ⟨before, after, more, first, second, further⟩
  refine ⟨added ++ before, after, ?_, yields.append first, second, continues.trans further⟩
  rw [more, written]
  simp only [List.append_assoc]

/-- Behind the steps of a run only comments follow, but for the brace that closes the loop. -/
theorem emitRowEnds_code {plan : Plan} (compilable : plan.isCompilable = true)
    (draft : RoutineDraft) :
    Succeeds (emitRowEnds plan.runGenerators.reverse) draft fun _ next => Closes draft next := by
  induction plan generalizing draft with
  | scan id spec =>
    rw [runGenerators_scan compilable, List.reverse_singleton, emitRowEnds]
    have closed : Succeeds (Generator.rowEnd (.scan id spec)) draft
        fun _ next => next = draft.extend (.dedent :: lineOf "\x7d") := .of_ok rfl rfl
    refine closed.bind ?_
    rintro _ _ rfl
    refine (endComment_noted (.scan id spec) _).bind ?_
    rintro _ last ⟨added, written, yields, continues⟩
    refine .pure ⟨[], added, ?_, .nil, yields, (Continues.extend _ draft).trans continues⟩
    rw [written, List.nil_append]
    exact List.append_assoc _ _ _
  | filter id condition input step =>
    have below : input.isCompilable = true := compilable
    rw [runGenerators_filter below, List.reverse_append]
    exact emitRowEnds_passed (fun _ => .of_ok rfl rfl) (step below) draft
  | project id expressions input step =>
    have below : input.isCompilable = true := compilable
    rw [runGenerators_project below, List.reverse_append]
    exact emitRowEnds_passed (fun _ => .of_ok rfl rfl) (step below) draft
  | root id input step | sort id columns ascending input step => cases compilable
  | join id condition left right leftStep rightStep => cases compilable

end QueryFusion.Plan

namespace QueryFusion.Generate

open Emit
open Script (Term Ty Stmt stmtTokens)

/-! ## The output row -/

/-- The declaration of the output row. -/
def outputBinding (id : NodeId) (row : List Local) : Binding :=
  ⟨⟨stemOf id "output_row", .row⟩, .call .first (.name .first "HeapRow") "of" (row.map termOf)⟩

/-- The name of the output row is under its own part. -/
theorem under_output (id : NodeId) : Under (stemOf id "output") (stemOf id "output_row") := by
  refine .inr ⟨"row", ?_⟩
  rw [stemOf, stemOf, ← String.toList_inj]
  simp

/-- Hands a row on; a full batch ends the routine. -/
def outputStatements (id : NodeId) (row : List Local) : List Stmt :=
  [(outputBinding id row).statement,
    .branch .first (.not .first (.call .first (.this .first) "addToBatch"
      [termOf (outputBinding id row).entry]))
      [.answer .first (.member .first (.name .first "IterationResult") "FETCHED")]]

/-- The statements of the routine that produces a batch. -/
def advanceStatements (plan : Plan) (row : List Local) (steps : List RowStep) : List Stmt :=
  [.perform .first (.call .first (.this .first) "clearBatch" []),
    .loop .first (.call .first (cursorTerm plan.leafId) "tryAdvance" [])
      (steps.map RowStep.statement ++ outputStatements plan.id row),
    .answer .first (.member .first (.name .first "IterationResult") "FETCHED_DONE")]

/-- The routine has the code of the output row in addition. -/
structure HandsOn (draft : RoutineDraft) (id : NodeId) (row : List Local) (next : RoutineDraft) :
    Prop where
  lines : ∃ added, next.commands = draft.commands ++ added ∧
    ((∀ statement ∈ outputStatements id row, statement.Writable) →
      Yields added (stmtTokens (outputStatements id row)))
  continues : Continues draft next
  imports : "sql.row" ∈ next.imports

/-- The call that makes the output row is written as its term. -/
theorem outputRow_text (id : NodeId) (row : List Local) :
    invoke "HeapRow" "of" (row.map Local.name) = (outputBinding id row).value.source := by
  have target : (Term.name .first "HeapRow").level = 8 := rfl
  rw [← sources_map_termOf]
  exact invoke_eq target "of" (row.map termOf)

/-- The test whether the batch has room for the row. -/
def fullTest (id : NodeId) (row : List Local) : Term :=
  .not .first (.call .first (.this .first) "addToBatch" [termOf (outputBinding id row).entry])

/-- The answer when the batch is full. -/
def fetchedAnswer : Term :=
  .member .first (.name .first "IterationResult") "FETCHED"

/-- The test is written as its term. -/
theorem fullTest_text (id : NodeId) (row : List Local) :
    "if (!" ++ invoke "this" "addToBatch" [stemOf id "output_row"] ++ ") \x7b" =
      "if (" ++ (fullTest id row).source ++ ") \x7b" := by
  have target : (Term.this .first).level = 8 := rfl
  have call : invoke "this" "addToBatch" [stemOf id "output_row"] = _ :=
    invoke_eq target "addToBatch" [termOf (outputBinding id row).entry]
  rw [call, ← String.toList_inj]
  simp [fullTest, Term.source, Term.level, Script.enclose]

/-- The lines of the test and of the answer. -/
def fullLines (id : NodeId) (row : List Local) : List Command :=
  lineOf ("if (" ++ (fullTest id row).source ++ ") \x7b") ++ [Command.indent] ++
    lineOf ("return " ++ fetchedAnswer.source ++ ";") ++ Command.dedent :: lineOf "\x7d"

/-- The routine with the output row declared. -/
def withOutput (draft : RoutineDraft) (id : NodeId) (row : List Local) : RoutineDraft :=
  (draft.useSymbol "HeapRow").declared (outputBinding id row).entry
    (outputBinding id row).value.source

/-- What is written for the output row. -/
theorem emitOutput_run {draft : RoutineDraft} {id : NodeId} (row : List Local)
    (free : Lacks draft (Under (stemOf id "output"))) :
    (Generator.emitOutput id row).runOn draft = (.ok (),
      ((withOutput draft id row).useSymbol "IterationResult").extend (fullLines id row)) := by
  have written : "_" ++ id.text ++ "_output_row" = stemOf id "output_row" := by
    rw [stemOf, ← String.toList_inj]
    simp
  have unused : (draft.useSymbol "HeapRow").localOf? (outputBinding id row).entry.name = none := by
    refine (localOf?_eq_none_iff _ _).2 fun entry member same => ?_
    exact free entry member (same ▸ under_output id)
  have called : (Drafting.invokeStatic "HeapRow" "of" (row.map Local.name)).runOn draft =
      (.ok (outputBinding id row).value.source, draft.useSymbol "HeapRow") := by
    rw [← outputRow_text]
    rfl
  have declaring : (Drafting.declare ⟨stemOf id "output_row", .row⟩
      (outputBinding id row).value.source).runOn (draft.useSymbol "HeapRow") =
        (.ok (), withOutput draft id row) := runOn_declare unused _
  have constant : (Drafting.staticMember Ty.progress.text "FETCHED").runOn
      (withOutput draft id row) =
        (.ok fetchedAnswer.source, (withOutput draft id row).useSymbol "IterationResult") := rfl
  unfold Generator.emitOutput
  dsimp only
  rw [written, runOn_bind_ok called, runOn_bind_ok declaring, runOn_bind_ok constant,
    fullTest_text id row]
  rw [fullLines, RoutineDraft.extend_append, RoutineDraft.extend_append]
  rfl

/-- The output row is written as its statements. -/
theorem yields_output {id : NodeId} {row : List Local}
    (writable : ∀ statement ∈ outputStatements id row, statement.Writable) :
    Yields (lineOf (declarationText (outputBinding id row).entry
        (outputBinding id row).value.source) ++ fullLines id row)
      (stmtTokens (outputStatements id row)) := by
  have first : (outputBinding id row).statement.Writable := writable _ List.mem_cons_self
  have second := writable _ (List.mem_cons_of_mem _ List.mem_cons_self)
  have line := @yields_linesOf [outputBinding id row] fun other member => by
    rw [List.mem_singleton.1 member]
    exact first
  have declaring : Yields (lineOf (declarationText (outputBinding id row).entry
      (outputBinding id row).value.source)) (stmtTokens [(outputBinding id row).statement]) := by
    simpa [linesOf] using line
  have branching : Yields _
      (stmtTokens [Stmt.branch .first (fullTest id row) [.answer .first fetchedAnswer]]) :=
    Yields.single (Yields.branch second.1 (Yields.single (Yields.answer second.2.1)))
  exact declaring.block branching

/-- The routine hands the row on. -/
theorem emitOutput_code {draft : RoutineDraft} {id : NodeId} (row : List Local)
    (free : Lacks draft (Under (stemOf id "output"))) :
    Succeeds (Generator.emitOutput id row) draft fun _ next => HandsOn draft id row next := by
  have known : "sql.row" ∈ (draft.useSymbol "HeapRow").imports :=
    (mem_insertModules _ _ _).2 (.inl (by decide))
  have before : Continues (draft.useSymbol "HeapRow")
      (((withOutput draft id row).useSymbol "IterationResult").extend (fullLines id row)) :=
    (Continues.declared _ _ _).trans ((Continues.useSymbol _ _).trans (.extend _ _))
  refine .of_ok (emitOutput_run row free) ⟨⟨_, ?_, yields_output⟩,
    (Continues.useSymbol _ _).trans before, before.imports _ known⟩
  simp [RoutineDraft.extend, RoutineDraft.declared, RoutineDraft.useSymbol, RoutineDraft.useType,
    withOutput]

/-! ## The routine that produces a batch -/

variable {plan : Plan}

/-- The routine that produces a batch, before anything is written. -/
def advanceStart : RoutineDraft :=
  .start (.method "advance" (some Ty.progress.text)) []

/-- What the routine that produces a batch is: it has the code of a row inside its loop. -/
structure Advances (wide : Prop) (plan : Plan) (routine : RoutineDraft) (row : List Local)
    (steps : List RowStep) : Prop where
  code : RowCode wide plan row steps
  /-- Only as many expressions as there are integers to number them can be too many. -/
  many : wide → ¬ plan.Narrow
  /-- The names of the output row are not taken by the steps. -/
  apart : Apart (stemOf plan.id "output") (steps.flatMap RowStep.bindings)
  lines : (∀ statement ∈ advanceStatements plan row steps, statement.Writable) →
    Shows wide routine.commands (stmtTokens (advanceStatements plan row steps))
  continues : Continues advanceStart routine
  provided : ∀ moduleName ∈ ["sql.row", "sql.exec"], moduleName ∈ routine.imports
  typed : ∀ binding ∈ steps.flatMap RowStep.bindings,
    ∀ moduleName ∈ Symbol.modulesOfType binding.entry.type.name, moduleName ∈ routine.imports

/-- Comments are written in front of the loop. -/
theorem prologue_eq (compilable : plan.isCompilable = true) :
    ∃ front, plan.prologue = front ++ loopLine plan.leafId ∧ Yields front [] := by
  induction plan with
  | scan id spec => exact ⟨_, rfl, yields_startComment _⟩
  | filter id condition input step | project id expressions input step => exact step compilable
  | root id input step | sort id columns ascending input step => cases compilable
  | join id condition left right leftStep rightStep => cases compilable

/-- The code of a run is written with that of its output row behind. -/
theorem emitRows_code (compilable : plan.isCompilable = true) (apart : plan.runIds.Nodup)
    {draft : RoutineDraft} (empty : draft.locals = []) :
    Drafts (emitRowStarts (plan.runGenerators ++ [Generator.output plan.id]) none) draft
      (fun _ next => ∃ wide row steps middle, plan.Wrote wide draft row steps middle ∧
        Lacks middle (Under (stemOf plan.id "output")) ∧ HandsOn middle plan.id row next)
      fun _ _ => True := by
  refine Plan.emitRowStarts_code compilable apart empty fun wide row steps middle wrote => ?_
  rw [emitRowStarts]
  refine (line_grows (yields_startComment (.output plan.id))).bind fun _ noted grows => ?_
  have wrote := wrote.commented grows
  have free : Lacks noted (Under (stemOf plan.id "output")) := fun entry member =>
    (wrote.owned entry member).2
  have handed : Succeeds (Generator.rowStart (some row) (.output plan.id)) noted
      fun result next => result = none ∧ HandsOn noted plan.id row next :=
    (emitOutput_code row free).bind fun _ last hands => .pure ⟨rfl, hands⟩
  refine handed.bind ?_
  rintro _ last ⟨rfl, hands⟩
  exact .pure ⟨wide, row, steps, noted, wrote, free, hands⟩

/-! ## The routine as a whole -/

/-- The call that clears the batch. -/
def clearCall : Term :=
  .call .first (.this .first) "clearBatch" []

/-- The answer when no entry is left. -/
def doneAnswer : Term :=
  .member .first (.name .first "IterationResult") "FETCHED_DONE"

/-- The routine that produces a batch, with the batch cleared. -/
def advanceCleared : RoutineDraft :=
  advanceStart.extend (lineOf (clearCall.source ++ ";"))

/-- The routine with its answer. -/
def withAnswer (draft : RoutineDraft) : RoutineDraft :=
  (draft.useSymbol "IterationResult").extend (lineOf ("return " ++ doneAnswer.source ++ ";"))

/-- How the routine that produces a batch is written behind the call that clears it: the steps of a
row, the output row, the comment behind it, and the ends of the steps. -/
structure Stages (plan : Plan) (wide : Prop) (row : List Local) (steps : List RowStep)
    (stepped handed noted ended : RoutineDraft) : Prop where
  wrote : plan.Wrote wide advanceCleared row steps stepped
  free : Lacks stepped (Under (stemOf plan.id "output"))
  hands : HandsOn stepped plan.id row handed
  grows : Grows False handed [] noted
  ends : Plan.Closes noted ended

namespace Stages

variable {wide : Prop} {row : List Local} {steps : List RowStep}
  {stepped handed noted ended : RoutineDraft}

/-- The locals are those of the steps. -/
theorem locals (stages : Stages plan wide row steps stepped handed noted ended) :
    stepped.locals = (steps.flatMap RowStep.bindings).map Binding.entry :=
  stages.wrote.grows.locals.trans (List.nil_append _)

/-- The ends of the steps and the answer take nothing back. -/
theorem ended_continues (stages : Stages plan wide row steps stepped handed noted ended) :
    Continues handed (withAnswer ended) := by
  obtain ⟨before, after, closed, first, second, further⟩ := stages.ends
  exact stages.grows.continues.trans (further.trans
    ((Continues.useSymbol _ _).trans (.extend _ _)))

/-- Nor does what is written behind the steps. -/
theorem stepped_continues (stages : Stages plan wide row steps stepped handed noted ended) :
    Continues stepped (withAnswer ended) :=
  stages.hands.continues.trans stages.ended_continues

/-- The text is that of the statements, with comments between them. -/
theorem lines (stages : Stages plan wide row steps stepped handed noted ended)
    (compilable : plan.isCompilable = true)
    (writable : ∀ statement ∈ advanceStatements plan row steps, statement.Writable) :
    Shows wide (withAnswer ended).commands (stmtTokens (advanceStatements plan row steps)) := by
  obtain ⟨front, opened, silent⟩ := prologue_eq compilable
  obtain ⟨coded, running, codes⟩ := stages.wrote.grows.lines
  obtain ⟨output, outputs, handing⟩ := stages.hands.lines
  obtain ⟨comment, comments, spelled⟩ := stages.grows.lines
  obtain ⟨before, after, closed, first, second, -⟩ := stages.ends
  have clearing : (Stmt.perform .first clearCall).Writable := writable _ List.mem_cons_self
  have looping := writable _ (List.mem_cons_of_mem _ List.mem_cons_self)
  have answering : (Stmt.answer .first doneAnswer).Writable :=
    writable _ (List.mem_cons_of_mem _ (List.mem_cons_of_mem _ List.mem_cons_self))
  have body := Script.allWritable_iff.1 looping.2
  rw [List.forall_mem_append] at body
  have inside : Shows wide (coded ++ output ++ comment ++ before)
      (stmtTokens (steps.map RowStep.statement ++ outputStatements plan.id row)) := by
    have stepsCode := codes fun step member => body.1 _ (List.mem_map_of_mem member)
    have silent : Yields (comment ++ before) [] :=
      (spelled (List.forall_mem_nil _)).certain.append first
    have whole := stepsCode.before ((handing body.2).append silent)
    simpa [Script.stmtTokens_append] using whole
  have loop := Shows.loop looping.1 inside
  have behind : Yields _ (stmtTokens [Stmt.answer .first doneAnswer]) :=
    second.append (Yields.answer answering).single
  have whole := ((loop.behind silent).before behind).behind (Yields.perform clearing)
  have commands : (withAnswer ended).commands =
      lineOf (clearCall.source ++ ";") ++ (front ++ (lineOf ("while (" ++
        (Term.call .first (cursorTerm plan.leafId) "tryAdvance" []).source ++ ") \x7b") ++
        [Command.indent] ++ (coded ++ output ++ comment ++ before) ++
        Command.dedent :: lineOf "\x7d") ++
        (after ++ lineOf ("return " ++ doneAnswer.source ++ ";"))) := by
    have inner : (ended.useSymbol "IterationResult").commands = ended.commands := rfl
    rw [withAnswer, RoutineDraft.extend, inner, closed, comments, outputs, running, advanceCleared,
      RoutineDraft.extend, opened, RoutineDraft.extend, loopLine]
    simp [advanceStart, RoutineDraft.start]
  rw [commands]
  simpa [advanceStatements, clearCall, doneAnswer, stmtTokens] using whole

/-- A routine that is written so follows the rules. -/
theorem advances (stages : Stages plan wide row steps stepped handed noted ended)
    (compilable : plan.isCompilable = true) : Advances wide plan (withAnswer ended) row steps where
  code := stages.wrote.code
  many := stages.wrote.many
  apart binding member :=
    stages.free binding.entry (stages.locals ▸ List.mem_map_of_mem member)
  lines := stages.lines compilable
  continues := (Continues.extend _ _).trans ((Continues.extend _ _).trans
    (stages.wrote.grows.continues.trans stages.stepped_continues))
  provided := by
    intro moduleName member
    rw [List.mem_cons, List.mem_singleton] at member
    rcases member with rfl | rfl
    · exact stages.ended_continues.imports _ stages.hands.imports
    · exact (mem_insertModules _ _ _).2 (.inl (by decide))
  typed := by
    intro binding member moduleName needed
    refine stages.stepped_continues.imports _
      (stages.wrote.grows.continues.provided ?_ binding.entry ?_ moduleName needed)
    · intro _ none
      cases none
    · exact stages.locals ▸ List.mem_map_of_mem member

end Stages

/-- The text of the routine that produces a batch follows the rules. -/
theorem emitAdvance_code (compilable : plan.isCompilable = true) (apart : plan.runIds.Nodup) :
    Drafts (emitAdvance (Fragment.ofPlan plan).tree) advanceStart
      (fun _ next => ∃ wide row steps, Advances wide plan next row steps) fun _ _ => True := by
  have straight := straight_ofPlan compilable
  have generators := generators_ofPlan plan
  unfold Fragment.generators at generators
  have cleared : Succeeds (Drafting.line (invoke "this" "clearBatch" [] ++ ";")) advanceStart
      fun _ next => next = advanceCleared := .of_ok rfl rfl
  unfold emitAdvance
  refine cleared.bind ?_
  rintro _ _ rfl
  unfold emitLoop
  simp only [straight, generators, List.reverse_append, List.reverse_singleton,
    List.singleton_append, bind_assoc]
  refine Drafts.bind (emitRows_code compilable apart rfl) ?_
  rintro _ handed ⟨wide, row, steps, stepped, wrote, free, hands⟩
  rw [emitRowEnds]
  have passed : Succeeds (Generator.rowEnd (.output plan.id)) handed
      fun _ next => next = handed := .of_ok rfl rfl
  simp only [bind_assoc]
  refine passed.bind ?_
  rintro _ handed rfl
  refine (line_grows (yields_endComment (.output plan.id))).bind fun _ noted grows => ?_
  refine (Plan.emitRowEnds_code compilable noted).bind fun _ ended ends => ?_
  have answered : Succeeds (Drafting.staticMember Ty.progress.text "FETCHED_DONE") ended
      fun text next => text = doneAnswer.source ∧ next = ended.useSymbol "IterationResult" :=
    .of_ok rfl ⟨rfl, rfl⟩
  refine answered.bind ?_
  rintro _ _ ⟨rfl, rfl⟩
  have stages : Stages plan wide row steps stepped handed noted ended :=
    ⟨wrote, free, hands, grows, ends⟩
  exact .of_ok rfl ⟨wide, row, steps, stages.advances compilable⟩

/-- The routine that produces a batch follows the rules. -/
theorem advanceOf_code (compilable : plan.isCompilable = true) (apart : plan.runIds.Nodup)
    {routine : RoutineDraft}
    (written : advanceOf (Fragment.ofPlan plan).tree = .ok routine) :
    ∃ wide row steps, Advances wide plan routine row steps := by
  have start : RoutineDraft.start (.method "advance" (some Ty.progress.text)) [] = advanceStart :=
    rfl
  unfold advanceOf at written
  rcases (emitAdvance_code compilable apart).cases with
    ⟨result, next, run, advances⟩ | ⟨error, next, failed, -⟩
  · rw [start, run] at written
    obtain rfl := Except.ok.inj written
    exact advances
  · rw [start, failed] at written
    cases written

end QueryFusion.Generate
