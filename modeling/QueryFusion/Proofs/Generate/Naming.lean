import QueryFusion.Generate.Unit
import QueryFusion.Proofs.Generate.GivingUp
import QueryFusion.Proofs.Generate.Inlining
import QueryFusion.Proofs.Generate.Partition
import QueryFusion.Proofs.Plan.Records

/-!
# Names in generated code

Every name of a generated routine starts with the id of its node and the part that the local plays
there, with underscores between them. Neither contains an underscore, so locals of different nodes
or different parts have different names. Only the fields of a scan, whose names come from the plan,
can get in each other's way.
-/

namespace QueryFusion.Generate

open Emit

/-! ## Names by their parts -/

/-- The name is the stem, or the stem with more behind an underscore. -/
def Under (stem name : String) : Prop :=
  name = stem ∨ ∃ rest, name = stem ++ "_" ++ rest

/-- The text has no underscore. -/
def Plain (text : String) : Prop :=
  '_' ∉ text.toList

namespace Under

variable {stem name first second : String}

/-- A longer stem is a name under the shorter one. -/
theorem shorten (under : Under (stem ++ "_" ++ first) name) : Under stem name := by
  rcases under with rfl | ⟨rest, rfl⟩
  · exact .inr ⟨first, rfl⟩
  · exact .inr ⟨first ++ "_" ++ rest, by simp only [String.append_assoc]⟩

/-- The part behind the stem is what stands before the next underscore. -/
theorem part (under : Under (stem ++ "_" ++ first) name) (plain : Plain first) :
    (name.toList.drop (stem.toList.length + 1)).takeWhile (· != '_') = first.toList := by
  have stops : first.toList.all (· != '_') = true := by
    rw [List.all_eq_true]
    intro c inside
    rw [bne_iff_ne]
    rintro rfl
    exact plain inside
  have behind : ∀ rest : List Char, (stem.toList ++ '_' :: rest).drop (stem.toList.length + 1) =
      rest := by
    intro rest
    rw [List.drop_append]
    simp
  have whole : ∀ rest, (first.toList ++ rest).takeWhile (· != '_') =
      first.toList ++ rest.takeWhile (· != '_') := by
    intro rest
    exact List.takeWhile_append_of_pos fun c inside => List.all_eq_true.1 stops c inside
  rcases under with rfl | ⟨rest, rfl⟩
  · have shape : (stem ++ "_" ++ first).toList = stem.toList ++ '_' :: first.toList := by simp
    rw [shape, behind]
    simpa using whole []
  · have shape : (stem ++ "_" ++ first ++ "_" ++ rest).toList =
        stem.toList ++ '_' :: (first.toList ++ '_' :: rest.toList) := by simp
    rw [shape, behind, whole]
    simp

/-- A name shows which part follows the stem. -/
theorem part_unique (left : Under (stem ++ "_" ++ first) name)
    (right : Under (stem ++ "_" ++ second) name) (plain : Plain first) (also : Plain second) :
    first = second := by
  rw [← String.toList_inj, ← left.part plain, ← right.part also]

end Under

/-- The part behind the last underscore is known by the name. -/
theorem last_part_unique {first second left right : String}
    (same : first ++ "_" ++ left = second ++ "_" ++ right) (plain : Plain left)
    (also : Plain right) : left = right := by
  have ending : ∀ stem part : String, Plain part →
      ((stem ++ "_" ++ part).toList.reverse).takeWhile (· != '_') = part.toList.reverse := by
    intro stem part plain
    have shape : (stem ++ "_" ++ part).toList.reverse =
        part.toList.reverse ++ '_' :: stem.toList.reverse := by simp
    rw [shape, List.takeWhile_append_of_pos]
    · simp
    · intro c inside
      rw [bne_iff_ne]
      rintro rfl
      exact plain (List.mem_reverse.1 inside)
  have reversed : left.toList.reverse = right.toList.reverse := by
    rw [← ending first left plain, same, ending second right also]
  rw [← String.toList_inj, ← List.reverse_inj, reversed]

/-- How the names of a node start. -/
def nodeStem (id : NodeId) : String :=
  "_" ++ id.text

/-- Digits are no underscores. -/
theorem underscore_not_mem_toDigits (number : Nat) : '_' ∉ Nat.toDigits 10 number := by
  intro inside
  have digit := Nat.isDigit_of_mem_toDigits (by decide) (by decide) inside
  exact absurd digit (by decide)

/-- The ids of nodes have no underscore. -/
theorem plain_text (id : NodeId) : Plain id.text := by
  unfold Plain NodeId.text
  rw [Script.toList_toString]
  split
  · exact underscore_not_mem_toDigits _
  · intro inside
    rcases List.mem_cons.1 inside with sign | number
    · exact absurd sign (by decide)
    · exact underscore_not_mem_toDigits _ number

/-- Numbers have no underscore. -/
theorem plain_toString (number : Nat) : Plain (toString number) := by
  have same : (toString number).toList = Nat.toDigits 10 number := String.toList_ofList
  unfold Plain
  rw [same]
  exact underscore_not_mem_toDigits number

/-- Different numbers have different texts. -/
theorem toString_inj {first second : Nat} (same : toString first = toString second) :
    first = second := by
  have digits : ∀ number : Nat, (toString number).toList = Nat.toDigits 10 number := fun number =>
    String.toList_ofList
  rw [← String.toList_inj, digits, digits] at same
  rw [← Script.valueOf_toDigits first, same, Script.valueOf_toDigits]

/-- A name belongs to one node only. -/
theorem Under.node_unique {first second : NodeId} {name : String}
    (left : Under (nodeStem first) name) (right : Under (nodeStem second) name) :
    first = second := by
  have stem : ∀ id, nodeStem id = "" ++ "_" ++ id.text := fun id => by
    rw [nodeStem, String.empty_append]
  rw [stem] at left right
  exact NodeId.text_inj (left.part_unique right (plain_text first) (plain_text second))

/-- A name plays one part only. -/
theorem Under.role_unique {id : NodeId} {first second name : String}
    (left : Under (stemOf id first) name) (right : Under (stemOf id second) name)
    (plain : Plain first) (also : Plain second) : first = second :=
  @Under.part_unique (nodeStem id) name first second left right plain also

/-! ## Locals that are added -/

/-- The action succeeds and ends in this way. -/
def Succeeds {α : Type} (action : Drafting α) (draft : RoutineDraft)
    (good : α → RoutineDraft → Prop) : Prop :=
  Drafts action draft good fun _ _ => False

/-- What follows an action that succeeds. -/
theorem Succeeds.bind {α β : Type} {action : Drafting α} {next : α → Drafting β}
    {draft : RoutineDraft} {between : α → RoutineDraft → Prop} {good : β → RoutineDraft → Prop}
    {bad : Error → RoutineDraft → Prop} (first : Succeeds action draft between)
    (second : ∀ result changed, between result changed → Drafts (next result) changed good bad) :
    Drafts (action >>= next) draft good bad :=
  Drafts.bind (first.imp (fun _ _ fine => fine) fun _ _ never => never.elim) second

/-- The routine has these locals in addition, with such names. -/
def Adds (draft next : RoutineDraft) (named : String → Prop) : Prop :=
  ∃ more, next.locals = draft.locals ++ more ∧ ∀ entry ∈ more, named entry.name

/-- No local of the routine has such a name. -/
def Lacks (draft : RoutineDraft) (named : String → Prop) : Prop :=
  ∀ entry ∈ draft.locals, ¬ named entry.name

section Locals

variable {draft next last : RoutineDraft} {named other : String → Prop}

/-- No local is added. -/
theorem Adds.refl (same : next.locals = draft.locals) : Adds draft next named :=
  ⟨[], by rw [same, List.append_nil], fun _ member => nomatch member⟩

/-- Locals are added to those added before. -/
theorem Adds.trans (first : Adds draft next named) (second : Adds next last named) :
    Adds draft last named := by
  obtain ⟨some, grown, named⟩ := first
  obtain ⟨more, further, also⟩ := second
  refine ⟨some ++ more, by rw [further, grown, List.append_assoc], fun entry member => ?_⟩
  rcases List.mem_append.1 member with before | behind
  · exact named entry before
  · exact also entry behind

/-- What is said of names can be weakened. -/
theorem Adds.imp (adds : Adds draft next named) (weaker : ∀ name, named name → other name) :
    Adds draft next other := by
  obtain ⟨more, grown, named⟩ := adds
  exact ⟨more, grown, fun entry member => weaker _ (named entry member)⟩

/-- Names that none of the added locals has are still missing. -/
theorem Lacks.adds (lacks : Lacks draft other) (adds : Adds draft next named)
    (apart : ∀ name, named name → ¬ other name) : Lacks next other := by
  obtain ⟨more, grown, named⟩ := adds
  intro entry member
  rw [grown] at member
  rcases List.mem_append.1 member with before | behind
  · exact lacks entry before
  · exact apart _ (named entry behind)

/-- A line adds no local. -/
theorem line_succeeds (text : String) :
    Succeeds (Drafting.line text) draft fun _ next => next.locals = draft.locals :=
  .of_ok rfl rfl

/-- A line that opens a block adds no local. -/
theorem opening_succeeds (text : String) :
    Succeeds (Drafting.opening text) draft fun _ next => next.locals = draft.locals :=
  .of_ok rfl rfl

/-- A line that closes a block adds no local. -/
theorem closing_succeeds :
    Succeeds Drafting.closing draft fun _ next => next.locals = draft.locals :=
  .of_ok rfl rfl

/-- A call of the engine adds no local. -/
theorem invokeStatic_succeeds (owner method : String) (arguments : List String) :
    Succeeds (Drafting.invokeStatic owner method arguments) draft
      fun _ next => next.locals = draft.locals :=
  .of_ok rfl rfl

/-- A constant of the engine adds no local. -/
theorem staticMember_succeeds (owner member : String) :
    Succeeds (Drafting.staticMember owner member) draft
      fun _ next => next.locals = draft.locals :=
  .of_ok rfl rfl

/-- Looking at the routine changes nothing. -/
theorem get_succeeds :
    Succeeds (get : Drafting RoutineDraft) draft fun seen next => seen = draft ∧ next = draft :=
  .of_ok rfl ⟨rfl, rfl⟩

/-- A local of a free name is added. -/
theorem declare_succeeds {entry : Local} (free : Lacks draft (· = entry.name)) (value : String) :
    Succeeds (Drafting.declare entry value) draft
      fun _ next => next.locals = draft.locals ++ [entry] :=
  have unused := (localOf?_eq_none_iff draft entry.name).2 free
  .of_ok (runOn_declare unused value) (RoutineDraft.locals_declared unused value)

/-- A local is added when its name is free, and refused when it is not. -/
theorem declare_drafts (entry : Local) (value : String) :
    Drafts (Drafting.declare entry value) draft
      (fun _ next => Lacks draft (· = entry.name) ∧ next.locals = draft.locals ++ [entry])
      fun _ _ => ¬ Lacks draft (· = entry.name) := by
  by_cases free : Lacks draft (· = entry.name)
  · exact (declare_succeeds free value).imp (fun _ _ grown => ⟨free, grown⟩) fun _ _ never =>
      never.elim
  · have found : (draft.localOf? entry.name).isSome = true := by
      rw [← Option.isNone_eq_false_iff, Bool.eq_false_iff, ne_eq, Option.isNone_iff_eq_none]
      exact fun missing => free ((localOf?_eq_none_iff draft entry.name).1 missing)
    exact .of_error (runOn_declare_taken found value) free

end Locals

/-! ## Expressions -/

/-- The names that the code of an expression takes: not the one that a condition takes in
addition. -/
def ExpressionName (id : NodeId) (suffix name : String) : Prop :=
  Under (stemOf id suffix) name ∧ name ≠ stemOf id suffix ++ "_passed"

variable {draft : RoutineDraft} {id : NodeId} {suffix : String}

/-- The numbered names of an expression. -/
theorem expressionName_nameOf (id : NodeId) (suffix : String) (inputs : List Local) (number : Nat) :
    ExpressionName id suffix (Inlining.nameOf ⟨stemOf id suffix, inputs⟩ number) := by
  refine ⟨.inr ⟨toString number, rfl⟩, fun same => ?_⟩
  unfold Inlining.nameOf at same
  rw [← String.toList_inj] at same
  simp only [String.toList_append, List.append_assoc, List.append_cancel_left_eq] at same
  have digits : (toString number).toList = Nat.toDigits 10 number := String.toList_ofList
  have inside : 'p' ∈ Nat.toDigits 10 number := by
    rw [digits] at same
    have suffix : Nat.toDigits 10 number = "passed".toList := by
      simpa using same
    rw [suffix]
    decide
  exact absurd (Nat.isDigit_of_mem_toDigits (by decide) (by decide) inside) (by decide)

/-- The name of a value that the engine evaluates. -/
theorem expressionName_stem (id : NodeId) (suffix : String) :
    ExpressionName id suffix (stemOf id suffix) := by
  refine ⟨.inl rfl, fun same => ?_⟩
  have := congrArg (fun text => text.toList.length) same
  simp at this

/-- The name of the row that the engine evaluates an expression on. -/
theorem expressionName_row (id : NodeId) (suffix : String) :
    ExpressionName id suffix (stemOf id suffix ++ "_row") := by
  refine ⟨.inr ⟨"row", by rw [String.append_assoc]; rfl⟩, fun same => ?_⟩
  rw [← String.toList_inj] at same
  simp at same

/-- The name of a condition that is made boolean. -/
theorem under_passed (id : NodeId) (suffix : String) :
    Under (stemOf id suffix) (stemOf id suffix ++ "_passed") :=
  .inr ⟨"passed", by rw [String.append_assoc]; rfl⟩

/-- Evaluation by the engine takes the name of the expression and that of its row. -/
theorem emitEval_succeeds (inputs : List Local) (source : String)
    (free : Lacks draft (Under (stemOf id suffix))) :
    Succeeds (emitEval id suffix inputs source) draft
      fun _ next => Adds draft next (ExpressionName id suffix) := by
  have unused : ∀ name, Under (stemOf id suffix) name → draft.localOf? name = none :=
    fun name under => (localOf?_eq_none_iff draft name).2 fun entry member same =>
      free entry member (same ▸ under)
  have row := unused _ (expressionName_row id suffix).1
  have result := unused _ (expressionName_stem id suffix).1
  refine .of_ok (runOn_emitEval_of_free row result) ⟨_, locals_withEval row result, ?_⟩
  intro entry member
  rcases List.mem_cons.1 member with rfl | here
  · exact expressionName_row id suffix
  · rw [List.mem_singleton.1 here]
    exact expressionName_stem id suffix

/-- The code of an expression takes names under its own stem. -/
theorem emitExpression_succeeds (expression : Expr) (inputs : List Local) (source : String)
    (free : Lacks draft (Under (stemOf id suffix))) :
    Succeeds (emitExpression id suffix expression inputs source) draft
      fun _ next => Adds draft next (ExpressionName id suffix) := by
  have unused : Inlining.Free ⟨stemOf id suffix, inputs⟩ draft 0 expression.span := by
    intro index _ _
    rw [localOf?_eq_none_iff]
    intro entry member same
    exact free entry member (same ▸ (expressionName_nameOf id suffix inputs index).1)
  have inlined := Inlining.inlinable ⟨stemOf id suffix, inputs⟩ expression unused (by omega)
  refine emitExpression_drafts (inlined.imp ?_ ?_)
  · rintro ⟨entry, next⟩ _ ⟨bindings, inlines, rfl⟩
    obtain ⟨-, bound, numbered⟩ := inlines.numbered
    refine ⟨bindings.map Binding.entry, unused.locals_declaredAll numbered (by omega), ?_⟩
    intro entry member
    obtain ⟨binding, inside, rfl⟩ := List.mem_map.1 member
    obtain ⟨index, -, -, name⟩ := numbered.range binding inside
    rw [name]
    exact expressionName_nameOf id suffix inputs index
  · intro error changed unsupported
    exact ⟨unsupported, emitEval_succeeds inputs source free⟩

/-- The code of a condition takes names under its own stem. -/
theorem emitCondition_succeeds (condition : Expr) (inputs : List Local) (source : String)
    (free : Lacks draft (Under (stemOf id suffix))) :
    Succeeds (emitCondition id suffix condition inputs source) draft
      fun _ next => Adds draft next (Under (stemOf id suffix)) := by
  unfold emitCondition
  refine (emitExpression_succeeds condition inputs source free).bind fun result next adds => ?_
  have wide : Adds draft next (Under (stemOf id suffix)) := adds.imp fun _ named => named.1
  have passed := under_passed id suffix
  split
  · exact .pure wide
  · refine (declare_succeeds ?_ _).bind fun _ last grown =>
      .pure (wide.trans ⟨[_], grown, fun entry member => ?_⟩)
    · have lacks : Lacks draft (· = stemOf id suffix ++ "_passed") := fun entry member same =>
        free entry member (same ▸ passed)
      exact lacks.adds adds fun name named same => named.2 same
    · rw [List.mem_singleton.1 member]
      exact passed

/-- The test of a condition adds no local. -/
theorem emitSkipUnless_succeeds (condition : Local) :
    Succeeds (emitSkipUnless condition) draft fun _ next => next.locals = draft.locals := by
  refine (opening_succeeds _).bind fun _ opened first => ?_
  refine (line_succeeds _).bind fun _ written second => ?_
  exact closing_succeeds.imp (fun _ _ third => third.trans (second.trans first))
    fun _ _ never => never

/-! ## Projections and output rows -/

/-- The code of a projection takes names under its own stem. -/
theorem emitProjects_succeeds (row : List Local) (expressions : List Expr) {index : Nat}
    (free : ∀ number, index ≤ number →
      Lacks draft (Under (stemOf id ("project_" ++ toString number)))) :
    Succeeds (Generator.emitProjects id row expressions index) draft
      fun _ next => Adds draft next (Under (stemOf id "project")) := by
  have stem : ∀ number : Nat, stemOf id ("project_" ++ toString number) =
      stemOf id "project" ++ "_" ++ toString number := by
    intro number
    simp only [stemOf, String.append_assoc]
    rfl
  induction expressions generalizing draft index with
  | nil => exact .pure (.refl rfl)
  | cons expression rest step =>
    rw [Generator.emitProjects]
    refine (emitExpression_succeeds expression row _ (free index (Nat.le_refl _))).bind
      fun entry next adds => ?_
    have later : ∀ number, index + 1 ≤ number →
        Lacks next (Under (stemOf id ("project_" ++ toString number))) := by
      intro number behind
      refine (free number (by omega)).adds adds fun name mine other => ?_
      have here := mine.1
      rw [stem] at here other
      have := toString_inj (here.part_unique other (plain_toString _) (plain_toString _))
      omega
    refine (step later).bind fun others last more => .pure (Adds.trans ?_ more)
    refine adds.imp fun name mine => ?_
    have here := mine.1
    rw [stem] at here
    exact here.shorten

/-- The output row takes one name. -/
theorem emitOutput_succeeds (row : List Local) (free : Lacks draft (Under (stemOf id "output"))) :
    Succeeds (Generator.emitOutput id row) draft fun _ _ => True := by
  have named : Under (stemOf id "output") ("_" ++ id.text ++ "_output_row") := by
    refine .inr ⟨"row", ?_⟩
    simp only [stemOf, String.append_assoc]
    rfl
  unfold Generator.emitOutput
  refine (invokeStatic_succeeds ..).bind fun rowValue afterRow sameRow => ?_
  refine (declare_succeeds ?_ rowValue).bind fun _ withRow grown => ?_
  · intro entry member same
    rw [sameRow] at member
    exact free entry member (same ▸ named)
  refine (staticMember_succeeds ..).bind fun _ _ _ => ?_
  refine (opening_succeeds _).bind fun _ _ _ => ?_
  refine (line_succeeds _).bind fun _ _ _ => ?_
  exact closing_succeeds.imp (fun _ _ _ => trivial) fun _ _ never => never

end QueryFusion.Generate
