import QueryFusion.Proofs.Executor.MixedGraphs

/-!
# Failures with and without units

An operator fails on the first of its rows that it meets an error on, or when its input fails. In
batches of one row every operator sees a row before the next one is read, as in a unit, so that
plans fail in the same way with units and without. In larger batches a filter sees a row only when
the rows behind it have been read, and may never get to its own error because the scan meets another
one first. All that can be said then is that each of the two errors is met by some operator of the
plan.
-/

namespace QueryFusion

variable {α : Type} {transform : α → Except Error (Option Row)} {ending result : Option Error}
  {capacity : Nat} {items : List α} {out : List (List Row)}

/-! ## Rows one by one -/

/-- The images of items up to the first one that fails, and how they end. -/
def courseOf (transform : α → Except Error (Option Row)) (ending : Option Error) :
    List α → List Row × Option Error
  | [] => ([], ending)
  | item :: rest =>
    match transform item with
    | .error error => ([], some error)
    | .ok image =>
      (image.toList ++ (courseOf transform ending rest).1, (courseOf transform ending rest).2)

/-- In batches of one row the course of the items goes on behind each batch. -/
theorem courseOf_fillItems (items : List α) : courseOf transform ending items =
    match fillItems transform ending items ⟨[], 1⟩ with
    | (.error error, _, _) => ([], some error)
    | (.ok .finished, batch, _) => (batch.rows, none)
    | (.ok .fetched, batch, rest) =>
      (batch.rows ++ (courseOf transform ending rest).1, (courseOf transform ending rest).2) := by
  induction items with
  | nil => cases ending <;> rfl
  | cons item rest step =>
    rw [courseOf, fillItems]
    rcases transform item with error | _ | row
    · rfl
    · exact step
    · rfl

/-- Batches of one row hold the course of the items. -/
theorem Batches.course_eq (filled : Batches transform ending 1 items out result) :
    courseOf transform ending items = (out.flatten, result) := by
  induction filled with
  | last done =>
    rw [courseOf_fillItems, done]
    simp
  | more done later step =>
    rw [courseOf_fillItems, done, List.flatten_cons]
    dsimp only
    rw [step]
  | fails done =>
    rw [courseOf_fillItems, done]
    rfl

/-- The course of images is that of two operators, one after the other. -/
theorem courseOf_passOn {first : α → Except Error (Option Row)}
    {next : Row → Except Error (Option Row)} (items : List α) :
    courseOf (fun item => passOn (first item) next) ending items =
      courseOf next (courseOf first ending items).2 (courseOf first ending items).1 := by
  induction items with
  | nil => rfl
  | cons item rest step =>
    rw [courseOf, courseOf]
    rcases first item with error | _ | row
    · rfl
    · exact step
    · simp only [passOn_some, Option.toList_some, List.singleton_append, courseOf, step]

/-- The images of items come before the course of what follows. -/
theorem courseOf_append {first rest : List α} {images : List Row}
    (known : imagesOf transform first = .ok images) : courseOf transform ending (first ++ rest) =
      (images ++ (courseOf transform ending rest).1, (courseOf transform ending rest).2) := by
  induction first generalizing images with
  | nil =>
    cases known
    rfl
  | cons item others step =>
    obtain ⟨image, shown, later⟩ := bind_eq_ok_iff.1 known
    obtain ⟨behind, following, same⟩ := bind_eq_ok_iff.1 later
    cases same
    simp [courseOf, shown, step following]

/-- Filling a batch fails with the error of the course. -/
theorem courseOf_of_fails {batch filled : RowBatch} {left : List α} {error : Error}
    (failed : fillItems transform ending items batch = (.error error, filled, left)) :
    (courseOf transform ending items).2 = some error := by
  induction items generalizing batch with
  | nil =>
    cases ending with
    | none => cases failed
    | some other =>
      cases failed
      rfl
  | cons item rest step =>
    rw [fillItems] at failed
    rw [courseOf]
    rcases image : transform item with reason | _ | row
    · rw [image] at failed
      cases failed
      rfl
    · rw [image] at failed
      exact step failed
    · rw [image] at failed
      dsimp only at failed
      split at failed
      · exact step failed
      · cases failed

/-- What batches of any size come to is the course of the items: all of the rows, or the first
error. -/
theorem Batches.ended_eq (positive : 0 < capacity)
    (filled : Batches transform ending capacity items out result) :
    Feed.ended out.flatten result =
      Feed.ended (courseOf transform ending items).1 (courseOf transform ending items).2 := by
  cases result with
  | none =>
    obtain ⟨rfl, images, known, split⟩ := filled.batching positive
    have whole := @courseOf_append α transform none items [] images known
    rw [List.append_nil] at whole
    rw [whole, split.whole]
    simp [courseOf]
  | some error =>
    suffices failed : (courseOf transform ending items).2 = some error by
      rw [failed]
      rfl
    generalize ends : some error = result at filled
    induction filled with
    | last done => cases ends
    | @more items rest batch batches result done later step =>
      have fills := @fillItems_fills α transform ending ⟨[], capacity⟩ items positive
      rw [done] at fills
      cases fills with
      | fetched split some known full => rw [split, courseOf_append known, step ends]
    | fails done =>
      cases ends
      exact courseOf_of_fails done

/-- The rows that a plan below its root hands on one by one, and how it ends. -/
def Plan.course (catalog : Catalog) : Plan → List Row × Option Error
  | scan _ spec =>
    match Site.scanState ⟨catalog, 1⟩ spec with
    | .error error => ([], some error)
    | .ok state => courseOf state.outputRow none (Cursor.start state.map state.partitions).rest
  | filter _ condition input =>
    courseOf (Filter.transform condition) (input.course catalog).2 (input.course catalog).1
  | project _ expressions input =>
    courseOf (Project.transform expressions) (input.course catalog).2 (input.course catalog).1
  | sort _ columns ascending input =>
    match input.course catalog with
    | (_, some error) => ([], some error)
    | (rows, none) => (RowSort.sort (compareRows columns ascending) rows, none)
  | join _ condition left right =>
    match right.course catalog with
    | (_, some error) => ([], some error)
    | (rights, none) =>
      courseOf (Join.combine condition) (left.course catalog).2
        (Join.pairs (left.course catalog).1 rights)
  | root id _ => ([], some (.planInvariant ("Root node " ++ id.text ++ " below the plan root")))

/-- The course of a run is that of its images. -/
theorem Plan.course_run {catalog : Catalog} {map : EntryMap} {plan : Plan}
    (scans : plan.Scans catalog map) :
    plan.course catalog = courseOf (plan.image map) none map.scanned := by
  induction plan with
  | scan id spec =>
    have found := @Site.scanState_of_require map ⟨catalog, 1⟩ spec scans
    rw [course, found]
    rfl
  | filter id condition input step =>
    rw [course, step scans]
    exact (courseOf_passOn map.scanned).symm
  | project id expressions input step =>
    rw [course, step scans]
    exact (courseOf_passOn map.scanned).symm
  | root id input step | sort id columns ascending input step => cases scans
  | join id condition left right leftStep rightStep => cases scans

/-- In batches of one row executors deliver the course of their plan, with units or without. -/
theorem Site.Yields.course_eq {site : Site} {units : Plan → List Row → Option Error → Prop}
    {plan : Plan} {rows : List Row} (yields : site.Yields units plan rows ending)
    (single : max site.batchSize 1 = 1) (given : ∀ {plan rows ending}, units plan rows ending →
      plan.course site.catalog = (rows, ending)) :
    plan.course site.catalog = (rows, ending) := by
  induction yields with
  | unit delivered => exact given delivered
  | @scan id spec state out result found filled =>
    have alike : Site.scanState ⟨site.catalog, 1⟩ spec = site.scanState spec := rfl
    rw [single] at filled
    rw [Plan.course, alike, found]
    exact filled.course_eq
  | filter input filled step | project input filled step =>
    rw [single] at filled
    rw [Plan.course, step]
    exact filled.course_eq
  | sort input step | sortFails input step => rw [Plan.course, step]
  | join lefts rights filled leftStep rightStep =>
    rw [single] at filled
    rw [Plan.course, rightStep, leftStep]
    exact filled.course_eq
  | joinFails rights step => rw [Plan.course, step]

/-! ## Errors that are met -/

/-- What a batch is filled with are images of items, and an error is that of an item, unless it is
the one the items end with. -/
theorem fillItems_from (items : List α) (batch : RowBatch) :
    (∀ row ∈ (fillItems transform ending items batch).2.1.rows,
      row ∈ batch.rows ∨ ∃ item ∈ items, transform item = .ok (some row)) ∧
    (∀ error, (fillItems transform ending items batch).1 = .error error →
      ending = some error ∨ ∃ item ∈ items, transform item = .error error) ∧
    ∀ item ∈ (fillItems transform ending items batch).2.2, item ∈ items := by
  induction items generalizing batch with
  | nil =>
    refine ⟨fun row member => .inl member, fun error failed => .inl ?_, fun item member => member⟩
    cases ending with
    | none => cases failed
    | some other =>
      cases failed
      rfl
  | cons item rest step =>
    rw [fillItems]
    have later : ∀ batch : RowBatch, (∀ row ∈ (fillItems transform ending rest batch).2.1.rows,
          row ∈ batch.rows ∨ ∃ other ∈ item :: rest, transform other = .ok (some row)) ∧
        (∀ error, (fillItems transform ending rest batch).1 = .error error →
          ending = some error ∨ ∃ other ∈ item :: rest, transform other = .error error) ∧
        ∀ other ∈ (fillItems transform ending rest batch).2.2, other ∈ item :: rest := by
      intro batch
      obtain ⟨rows, errors, left⟩ := step batch
      refine ⟨fun row member => (rows row member).imp_right ?_,
        fun error failed => (errors error failed).imp_right ?_,
        fun other member => List.mem_cons_of_mem _ (left other member)⟩
      · rintro ⟨other, inside, known⟩
        exact ⟨other, List.mem_cons_of_mem _ inside, known⟩
      · rintro ⟨other, inside, known⟩
        exact ⟨other, List.mem_cons_of_mem _ inside, known⟩
    rcases image : transform item with error | _ | row
    · refine ⟨fun row member => .inl member, fun other failed =>
        .inr ⟨item, List.mem_cons_self, ?_⟩, fun other member => List.mem_cons_of_mem _ member⟩
      cases failed
      exact image
    · exact later batch
    · have shown : ∀ other ∈ (batch.add row).rows,
          other ∈ batch.rows ∨ ∃ given ∈ item :: rest, transform given = .ok (some other) := by
        intro other member
        rw [RowBatch.rows_add, List.mem_append, List.mem_singleton] at member
        refine member.imp_right ?_
        rintro rfl
        exact ⟨item, List.mem_cons_self, image⟩
      dsimp only
      split
      · obtain ⟨rows, errors, left⟩ := later (batch.add row)
        exact ⟨fun other member => (rows other member).elim (shown other) .inr, errors, left⟩
      · refine ⟨shown, fun error failed => ?_, fun other member => List.mem_cons_of_mem _ member⟩
        cases failed

/-- Rows in batches are images of the items, and their error is that of an item, unless it is the
one the items end with. -/
theorem Batches.from_items (filled : Batches transform ending capacity items out result) :
    (∀ row ∈ out.flatten, ∃ item ∈ items, transform item = .ok (some row)) ∧
    ∀ error, result = some error → ending = some error ∨ ∃ item ∈ items,
      transform item = .error error := by
  induction filled with
  | @last items rest batch done =>
    have origin := @fillItems_from α transform ending items ⟨[], capacity⟩
    rw [done] at origin
    refine ⟨fun row member => ?_, nofun⟩
    rw [List.flatten_singleton] at member
    exact (origin.1 row member).resolve_left List.not_mem_nil
  | @more items rest batch batches result done later step =>
    have origin := @fillItems_from α transform ending items ⟨[], capacity⟩
    rw [done] at origin
    refine ⟨fun row member => ?_, fun error failed => (step.2 error failed).imp_right ?_⟩
    · rw [List.flatten_cons, List.mem_append] at member
      rcases member with here | behind
      · exact (origin.1 row here).resolve_left List.not_mem_nil
      · obtain ⟨item, inside, known⟩ := step.1 row behind
        exact ⟨item, origin.2.2 item inside, known⟩
    · exact fun ⟨item, inside, known⟩ => ⟨item, origin.2.2 item inside, known⟩
  | @fails items rest batch error done =>
    have origin := @fillItems_from α transform ending items ⟨[], capacity⟩
    rw [done] at origin
    refine ⟨nofun, fun other same => origin.2.1 other ?_⟩
    cases same
    rfl

/-- Rows that an operator may hand on: images of rows that its inputs may hand on. -/
inductive Plan.Hands (catalog : Catalog) : Plan → Row → Prop
  | scan {id : NodeId} {spec : ScanSpec} {state : ScanState} {entry : Entry} {row : Row}
      (found : Site.scanState ⟨catalog, 1⟩ spec = .ok state)
      (member : entry ∈ (Cursor.start state.map state.partitions).rest)
      (shown : state.outputRow entry = .ok (some row)) : Hands catalog (.scan id spec) row
  | filter {id : NodeId} {condition : Expr} {input : Plan} {row image : Row}
      (given : Hands catalog input row)
      (passes : Filter.transform condition row = .ok (some image)) :
      Hands catalog (.filter id condition input) image
  | project {id : NodeId} {expressions : List Expr} {input : Plan} {row image : Row}
      (given : Hands catalog input row)
      (shown : Project.transform expressions row = .ok (some image)) :
      Hands catalog (.project id expressions input) image
  | sort {id : NodeId} {columns : List Nat} {ascending : List Bool} {input : Plan} {row : Row}
      (given : Hands catalog input row) : Hands catalog (.sort id columns ascending input) row
  | join {id : NodeId} {condition : Option Expr} {left right : Plan} {first second image : Row}
      (lefts : Hands catalog left first) (rights : Hands catalog right second)
      (joined : Join.combine condition (first, second) = .ok (some image)) :
      Hands catalog (.join id condition left right) image

/-- Errors that an operator of the plan meets, each on one of the rows it may be handed. -/
inductive Plan.Meets (catalog : Catalog) : Plan → Error → Prop
  | scan {id : NodeId} {spec : ScanSpec} {state : ScanState} {entry : Entry} {error : Error}
      (found : Site.scanState ⟨catalog, 1⟩ spec = .ok state)
      (member : entry ∈ (Cursor.start state.map state.partitions).rest)
      (failed : state.outputRow entry = .error error) : Meets catalog (.scan id spec) error
  | filter {id : NodeId} {condition : Expr} {input : Plan} {row : Row} {error : Error}
      (given : input.Hands catalog row) (failed : Filter.transform condition row = .error error) :
      Meets catalog (.filter id condition input) error
  | project {id : NodeId} {expressions : List Expr} {input : Plan} {row : Row} {error : Error}
      (given : input.Hands catalog row)
      (failed : Project.transform expressions row = .error error) :
      Meets catalog (.project id expressions input) error
  | join {id : NodeId} {condition : Option Expr} {left right : Plan} {first second : Row}
      {error : Error} (lefts : left.Hands catalog first) (rights : right.Hands catalog second)
      (failed : Join.combine condition (first, second) = .error error) :
      Meets catalog (.join id condition left right) error
  | input {plan input : Plan} {error : Error} (below : input ∈ plan.inputs)
      (met : Meets catalog input error) : Meets catalog plan error

/-- What is delivered comes of rows that the operators may hand on, or of an error that one of them
meets. -/
structure Plan.Explains (catalog : Catalog) (plan : Plan) (rows : List Row)
    (ending : Option Error) :
    Prop where
  rows : ∀ row ∈ rows, plan.Hands catalog row
  error : ∀ error, ending = some error → plan.Meets catalog error

/-- Batches are explained where the images and the errors of their items are, and the error that the
items end with. -/
theorem Batches.explains {catalog : Catalog} {plan : Plan}
    (filled : Batches transform ending capacity items out result)
    (hands : ∀ item ∈ items, ∀ row, transform item = .ok (some row) → plan.Hands catalog row)
    (meets : ∀ item ∈ items, ∀ error, transform item = .error error → plan.Meets catalog error)
    (below : ∀ error, ending = some error → plan.Meets catalog error) :
    plan.Explains catalog out.flatten result := by
  obtain ⟨images, errors⟩ := filled.from_items
  refine ⟨fun row member => ?_, fun error failed => ?_⟩
  · obtain ⟨item, inside, shown⟩ := images row member
    exact hands item inside row shown
  · rcases errors error failed with given | ⟨item, inside, failed⟩
    · exact below error given
    · exact meets item inside error failed

/-- A result that is passed on is one of both. -/
theorem passOn_eq_ok_some_iff {β γ : Type} {first : Except Error (Option β)}
    {next : β → Except Error (Option γ)} {image : γ} : passOn first next = .ok (some image) ↔
      ∃ result, first = .ok (some result) ∧ next result = .ok (some image) := by
  rcases first with error | _ | result <;> simp

/-- Passing on fails where the first one fails or the next one. -/
theorem passOn_eq_error_iff {β γ : Type} {first : Except Error (Option β)}
    {next : β → Except Error (Option γ)} {error : Error} : passOn first next = .error error ↔
      first = .error error ∨ ∃ result, first = .ok (some result) ∧ next result = .error error := by
  rcases first with reason | _ | result <;> simp

/-- The images of a run come of its operators. -/
theorem Plan.image_explained {catalog : Catalog} {map : EntryMap} {plan : Plan}
    (scans : plan.Scans catalog map) {entry : Entry} (member : entry ∈ map.scanned) :
    (∀ row, plan.image map entry = .ok (some row) → plan.Hands catalog row) ∧
      ∀ error, plan.image map entry = .error error → plan.Meets catalog error := by
  induction plan with
  | scan id spec =>
    have found := @Site.scanState_of_require map ⟨catalog, 1⟩ spec scans
    exact ⟨fun row => .scan found member, fun error => .scan found member⟩
  | filter id condition input step =>
    obtain ⟨hands, meets⟩ := step scans
    refine ⟨fun row shown => ?_, fun error failed => ?_⟩
    · obtain ⟨between, before, passes⟩ := passOn_eq_ok_some_iff.1 shown
      exact .filter (hands between before) passes
    · rcases passOn_eq_error_iff.1 failed with below | ⟨between, before, failed⟩
      · exact .input (List.mem_singleton_self _) (meets error below)
      · exact .filter (hands between before) failed
  | project id expressions input step =>
    obtain ⟨hands, meets⟩ := step scans
    refine ⟨fun row shown => ?_, fun error failed => ?_⟩
    · obtain ⟨between, before, shown⟩ := passOn_eq_ok_some_iff.1 shown
      exact .project (hands between before) shown
    · rcases passOn_eq_error_iff.1 failed with below | ⟨between, before, failed⟩
      · exact .input (List.mem_singleton_self _) (meets error below)
      · exact .project (hands between before) failed
  | root id input step | sort id columns ascending input step => cases scans
  | join id condition left right leftStep rightStep => cases scans

/-- What executors deliver is explained by their plan, with units or without. -/
theorem Site.Yields.explained {site : Site} {units : Plan → List Row → Option Error → Prop}
    {plan : Plan} {rows : List Row} (yields : site.Yields units plan rows ending)
    (given : ∀ {plan rows ending}, units plan rows ending →
      plan.Explains site.catalog rows ending) :
    plan.Explains site.catalog rows ending := by
  induction yields with
  | unit delivered => exact given delivered
  | scan found filled =>
    exact filled.explains (fun _ inside _ => .scan found inside)
      (fun _ inside _ => .scan found inside) nofun
  | filter input filled step =>
    exact filled.explains (fun row inside _ => .filter (step.rows row inside))
      (fun row inside _ => .filter (step.rows row inside))
      fun error failed => .input (List.mem_singleton_self _) (step.error error failed)
  | project input filled step =>
    exact filled.explains (fun row inside _ => .project (step.rows row inside))
      (fun row inside _ => .project (step.rows row inside))
      fun error failed => .input (List.mem_singleton_self _) (step.error error failed)
  | sort input step =>
    exact ⟨fun row member => .sort (step.rows row ((RowSort.perm _ _).mem_iff.1 member)), nofun⟩
  | sortFails input step =>
    exact ⟨nofun, fun error failed => .input (List.mem_singleton_self _) (step.error error failed)⟩
  | @join id condition left right leftRows rightRows ending out result lefts rights filled leftStep
      rightStep =>
    have paired : ∀ pair ∈ Join.pairs leftRows rightRows,
        left.Hands site.catalog pair.1 ∧ right.Hands site.catalog pair.2 := by
      intro pair member
      obtain ⟨first, here, member⟩ := List.mem_flatMap.1 member
      obtain ⟨second, there, rfl⟩ := List.mem_map.1 member
      exact ⟨leftStep.rows first here, rightStep.rows second there⟩
    exact filled.explains (fun pair inside _ => .join (paired pair inside).1 (paired pair inside).2)
      (fun pair inside _ => .join (paired pair inside).1 (paired pair inside).2)
      fun error failed => .input List.mem_cons_self (leftStep.error error failed)
  | joinFails rights step =>
    exact ⟨nofun, fun error failed =>
      .input (List.mem_cons_of_mem _ (List.mem_singleton_self _)) (step.error error failed)⟩

namespace Site.Fuses

variable {site : Site} {plan : Plan} {rows : List Row}

/-- What a unit delivers comes of the operators of its run. -/
theorem explained (fuses : site.Fuses plan rows ending) :
    plan.Explains site.catalog rows ending := by
  cases fuses with
  | run scans filled =>
    exact filled.explains (fun _ inside => (Plan.image_explained scans inside).1)
      (fun _ inside => (Plan.image_explained scans inside).2) nofun

/-- In batches of one row a unit delivers the course of its run. -/
theorem course_eq (fuses : site.Fuses plan rows ending) (single : max site.batchSize 1 = 1) :
    plan.course site.catalog = (rows, ending) := by
  cases fuses with
  | run scans filled =>
    rw [single] at filled
    rw [Plan.course_run scans]
    exact filled.course_eq

end Site.Fuses

/-! ## Failing queries -/

section Running

variable {config : Config} {log : List CacheEvent} {compiler : Compiler}
  {tree : PlanTree}
  {template : Template} {context : Context}

/-- Where an execution without units fails, one with units does, for reasons that the plan explains;
and in batches of one row they have the same outcome. -/
theorem Runner.Paired.fails {catalog : Catalog} {batchSize : Nat} {plan : Plan}
    {interpreted compiled : Except Error (List Row)}
    (paired : Paired catalog batchSize plan interpreted compiled) :
    (∀ error, interpreted = .error error → ∃ other, compiled = .error other ∧
      (other = error ∨ plan.Meets catalog error ∧ plan.Meets catalog other)) ∧
    (max batchSize 1 = 1 → compiled = interpreted) := by
  have agree := paired.rows_eq
  cases paired with
  | unbuilt plan error =>
    exact ⟨fun other failed => ⟨error, rfl, .inl (Except.error.inj failed)⟩, fun _ => rfl⟩
  | @ran id input rows others ending last yields fuses =>
    refine ⟨fun error failed => ?_, fun single => ?_⟩
    · have reason := (yields.explained fun never => never.elim).error
      have other := (fuses.explained Site.Fuses.explained).error
      cases ending with
      | none => cases failed
      | some _ =>
        cases failed
        cases last with
        | none => cases (agree others).1 rfl
        | some second =>
          exact ⟨second, rfl, .inr ⟨.input (List.mem_singleton_self _) (reason error rfl),
            .input (List.mem_singleton_self _) (other second rfl)⟩⟩
    · have whole : max (max batchSize 1) 1 = 1 := by omega
      have first := yields.course_eq whole fun never => never.elim
      have second := fuses.course_eq whole fun fuses => fuses.course_eq whole
      rw [first] at second
      cases second
      rfl

/-- The units of a template fill batches of the size that is set. -/
theorem Compiler.batchSize_of_tryTemplate {plan : Plan}
    (found : (compiler.tryTemplate plan).1 = .ok (some template)) :
    template.batchSize = max compiler.config.effectiveBatchSize 1 := by
  unfold Compiler.tryTemplate at found
  split at found
  · cases found
  · split at found
    · cases found
    · cases found
    · split at found
      · cases found
      · dsimp only at found
        rename_i units _ _
        cases owned : Template.ofUnits units compiler.config.effectiveBatchSize with
        | error error =>
          rw [owned] at found
          cases found
        | ok made =>
          rw [owned] at found
          cases found
          obtain ⟨-, -, same⟩ := bind_eq_ok_iff.1 owned
          cases same
          rfl

/-- A query that is one run comes to the course of the run when it is executed with its unit,
whatever the batch size: the unit fails on the first entry that any of its operators meets an error
on. -/
theorem Runner.runTemplate_run {id : NodeId} {run : Plan}
    (history : Compiler.History config log compiler)
    (finished : tree.Built)
    (found : (compiler.tryTemplate tree.root).1 = .ok (some template))
    (whole : tree.root = .root id run) (compilable : run.isCompilable = true) (runner : Runner)
    {executor : Executor}
    (built : Site.interpreted ⟨runner.catalog, max template.batchSize 1⟩ run = .ok executor)
    (live : context.cancelled = false) : ∃ enough, ∀ fuel, enough ≤ fuel →
      (runner.runTemplate fuel context tree.root template).run = some
        (Feed.ended (run.course runner.catalog).1 (run.course runner.catalog).2) := by
  let site : Site := ⟨runner.catalog, max template.batchSize 1⟩
  obtain ⟨pairs, compiles, units⟩ := compiles_of_tryTemplate history finished found
  have distinct := finished.sound.distinct
  unfold runTemplate
  rw [whole] at compiles distinct ⊢
  have ends : pairs.map Prod.fst = [run] := by
    rw [compiles.runs, Plan.runEnds_of_inputs rfl rfl, Plan.runEnds_of_isCompilable compilable]
  obtain ⟨⟨_, unit⟩, rfl, rfl⟩ := List.map_eq_singleton_iff.1 ends
  obtain ⟨row, steps, realizes⟩ := compiles.realizes _ (List.mem_singleton_self _)
  have occupied := @Compiles.occupant_eq site template.batchSize _ _ compiles distinct _
    (List.mem_singleton_self _)
  obtain ⟨named, plain⟩ := Site.interpreted_top built
  obtain ⟨least, placed⟩ := compiles.build_eq distinct built
  rw [Executor.substitute_of_some plain (named ▸ occupied)] at placed
  have size : max template.batchSize 1 = max site.batchSize 1 := by simp [site]
  have ready := Site.ready_bound realizes built size (context.check_eq_ok_iff.2 live)
  obtain ⟨enough, rows, ending, fuses, runs⟩ := execute_ready placed (Executor.ready_root id ready)
  rw [live] at runs
  refine ⟨enough, fun fuel more => ?_⟩
  rw [Template.instantiate_eq units, runs fuel more]
  cases fuses with
  | run scans filled =>
    rw [Plan.course_run scans]
    exact congrArg some (filled.ended_eq (by omega))

/-- Queries fail with units as without. In an execution that is not cancelled, interpretation of a
plan and execution with its template come to an end. Where interpretation fails, execution with
units does, too: with the same error, or both with errors that operators of the plan meet; and in
batches of one row the outcomes are the same. -/
theorem units_fail_as_interpreted (history : Compiler.History config log compiler)
    (finished : tree.Built)
    (found : (compiler.tryTemplate tree.root).1 = .ok (some template)) (catalog : Catalog)
    (nextId : UInt64) (live : context.cancelled = false) :
    ∃ enough interpreted compiled,
      (∀ fuel, enough ≤ fuel →
        (Runner.interpret ⟨catalog, compiler, nextId⟩ fuel context tree.root).run =
        some interpreted ∧
        (Runner.runTemplate ⟨catalog, compiler, nextId⟩ fuel context tree.root template).run =
          some compiled) ∧
      (∀ error, interpreted = .error error → ∃ other, compiled = .error other ∧
        (other = error ∨ tree.root.Meets catalog error ∧ tree.root.Meets catalog other)) ∧
      (template.batchSize = 1 → compiled = interpreted) := by
  obtain ⟨enough, interpreted, compiled, paired, runs⟩ :=
    Runner.runTemplate_paired history finished found ⟨catalog, compiler, nextId⟩ live
  obtain ⟨fails, same⟩ := paired.fails
  have size := Compiler.batchSize_of_tryTemplate found
  have alike : ∀ fuel, Runner.interpret ⟨catalog, compiler, nextId⟩ fuel context tree.root =
      Runner.execute catalog template.batchSize fuel context tree.root none := by
    intro fuel
    rw [Runner.interpret, Runner.execute, Runner.execute, size, Nat.max_assoc, Nat.max_self]
  refine ⟨enough, interpreted, compiled, fun fuel more => ?_, fails, fun single => same (by omega)⟩
  rw [alike]
  exact runs fuel more

end Running

/-- A filter that divides by a field of each object. -/
def dividingRun : Plan :=
  .filter 2
    (.comparison .equal (.arithmetic .divide (.constant (.int 1) .int) (.column 0 .int) .int)
      (.constant (.int 1) .int))
    (.scan 1 ⟨"m", .scalar .int, .ofClass "P", [⟨false, some "a"⟩], [.int], [0], none⟩)

/-- The query that is this run. -/
def dividingQuery : Plan :=
  .root 3 dividingRun

/-- A runner on two objects: the field of the first is zero, and the second is of another class. -/
def mixedRunner : Runner :=
  .start (Catalog.empty.register ((EntryMap.empty "m" 1).putAll
    [(.int 1, .object 0 "P" [("a", .int 0)]), (.int 2, .object 1 "Q" [("a", .int 1)])])) .standard

/-- The run is all of the query. -/
theorem runEnds_dividingQuery : dividingQuery.runEnds = [dividingRun] := by
  have compilable : dividingRun.isCompilable = true := by decide +kernel
  rw [dividingQuery, Plan.runEnds_of_inputs rfl rfl, Plan.runEnds_of_isCompilable compilable]

/-- The query has a template. -/
theorem tryTemplate_dividingQuery : ∃ template,
    ((Compiler.start .standard).tryTemplate dividingQuery).1 = .ok (some template) := by
  have ids : dividingRun.runIds = [1, 2] := rfl
  have run : Generate.IsRun dividingRun := ⟨by decide +kernel, by decide, by simp [ids]⟩
  obtain ⟨generated, unit, written, made⟩ := compile_single run trivial (by decide) (by decide)
  exact exists_template runEnds_dividingQuery written made

/-- Interpretation meets the object of another class first, because its scan reads both objects
before the filter sees one. -/
theorem interpret_dividingQuery {fuel : Nat} (enough : 10 ≤ fuel) :
    (mixedRunner.interpret fuel (.start 1) dividingQuery).run =
      some (.error (.unexpectedObjectType "P" "Q")) := by
  obtain ⟨executor, built, last, collected⟩ : ∃ executor, (∀ fuel, Site.build
      ⟨mixedRunner.catalog, max mixedRunner.compiler.config.effectiveBatchSize 1⟩ fuel
        dividingQuery none = pure executor) ∧ ∃ last, executor.collect (.start 1) 10 =
          some (.error (.unexpectedObjectType "P" "Q"), last) := ⟨_, fun _ => rfl, _, rfl⟩
  rw [Runner.interpret, Runner.execute, built]
  show (ExceptT.lift (executor.collect (.start 1) fuel) >>= fun ended =>
    Run.ofExcept ended.1 : Run (List Row)).run = _
  rw [Executor.collect_agrees (.start 1) enough _ _ collected]
  rfl

/-- The nodes of the query make it. -/
theorem ofNodes_dividingQuery : PlanTree.ofNodes
    [(1, .scan ⟨"m", .scalar .int, .ofClass "P", [⟨false, some "a"⟩], [.int], [0], none⟩, []),
     (2, .filter (.comparison .equal
        (.arithmetic .divide (.constant (.int 1) .int) (.column 0 .int) .int)
        (.constant (.int 1) .int)), [1]), (3, .root, [2])] 3 =
    .ok ⟨[.scan 1 ⟨"m", .scalar .int, .ofClass "P", [⟨false, some "a"⟩], [.int], [0], none⟩,
      dividingRun, dividingQuery], dividingQuery⟩ :=
  rfl

/-- In larger batches the errors may differ. Interpretation scans both objects and fails on the
second one; the unit divides by the field of the first one before it reads the second. -/
theorem units_fail_otherwise : ∃ tree template,
    PlanTree.ofNodes
        [(1, .scan ⟨"m", .scalar .int, .ofClass "P", [⟨false, some "a"⟩], [.int], [0], none⟩, []),
         (2, .filter (.comparison .equal
            (.arithmetic .divide (.constant (.int 1) .int) (.column 0 .int) .int)
            (.constant (.int 1) .int)), [1]), (3, .root, [2])] 3 = .ok tree ∧
      (mixedRunner.compiler.tryTemplate tree.root).1 = .ok (some template) ∧
      ∃ enough, ∀ fuel, enough ≤ fuel →
        (mixedRunner.interpret fuel (.start 1) tree.root).run =
          some (.error (.unexpectedObjectType "P" "Q")) ∧
        (mixedRunner.runTemplate fuel (.start 1) tree.root template).run =
          some (.error .divisionByZero) := by
  obtain ⟨template, found⟩ := tryTemplate_dividingQuery
  obtain ⟨executor, built⟩ : ∃ executor,
      Site.interpreted ⟨mixedRunner.catalog, max template.batchSize 1⟩ dividingRun = .ok executor :=
    ⟨_, rfl⟩
  have compilable : dividingRun.isCompilable = true := by decide +kernel
  obtain ⟨enough, runs⟩ := Runner.runTemplate_run .start
    (PlanTree.built_of_ofNodes ofNodes_dividingQuery) found rfl compilable
    mixedRunner built (rfl : (Context.start 1).cancelled = false)
  exact ⟨_, template, ofNodes_dividingQuery, found, max enough 10, fun fuel more =>
    ⟨interpret_dividingQuery (by omega), runs fuel (by omega)⟩⟩

/-- Both errors are met by operators of the query. -/
theorem units_fail_as_interpreted_dividing : ∃ tree template,
    PlanTree.ofNodes
        [(1, .scan ⟨"m", .scalar .int, .ofClass "P", [⟨false, some "a"⟩], [.int], [0], none⟩, []),
         (2, .filter (.comparison .equal
            (.arithmetic .divide (.constant (.int 1) .int) (.column 0 .int) .int)
            (.constant (.int 1) .int)), [1]), (3, .root, [2])] 3 = .ok tree ∧
      (mixedRunner.compiler.tryTemplate tree.root).1 = .ok (some template) ∧
      ∃ enough compiled, (∀ fuel, enough ≤ fuel →
        (mixedRunner.interpret fuel (.start 1) tree.root).run =
          some (.error (.unexpectedObjectType "P" "Q")) ∧
        (mixedRunner.runTemplate fuel (.start 1) tree.root template).run = some compiled) ∧
      ∃ other, compiled = .error other ∧ (other = .unexpectedObjectType "P" "Q" ∨
        tree.root.Meets mixedRunner.catalog (.unexpectedObjectType "P" "Q") ∧
          tree.root.Meets mixedRunner.catalog other) := by
  obtain ⟨template, found⟩ := tryTemplate_dividingQuery
  obtain ⟨enough, interpreted, compiled, runs, fails, -⟩ := units_fail_as_interpreted .start
    (PlanTree.built_of_ofNodes ofNodes_dividingQuery) found mixedRunner.catalog 1
    (rfl : (Context.start 1).cancelled = false)
  have known := interpret_dividingQuery (Nat.le_max_right enough 10)
  have failed : some interpreted = some (.error (.unexpectedObjectType "P" "Q")) :=
    (runs _ (Nat.le_max_left enough 10)).1.symm.trans known
  cases failed
  exact ⟨_, template, ofNodes_dividingQuery, found, enough, compiled, runs, fails _ rfl⟩

end QueryFusion
