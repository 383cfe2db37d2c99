import QueryFusion.Proofs.Emit.Statements
import QueryFusion.Proofs.Generate.GivingUp
import QueryFusion.Proofs.Generate.InlinedValues
import QueryFusion.Proofs.Generate.Naming
import QueryFusion.Proofs.Generate.StaticTypes

/-!
# The code of an expression

Whatever the expression is, its code is a list of declarations: those of the inlined expression, or
the row of the inputs and its evaluation by the engine. Either way the lines are read as the
declarations, the compiler accepts them where the inputs and the expression are at hand, and the
local that is handed out carries the value of the expression.
-/

namespace QueryFusion

namespace Script.Denotes

variable {unit : CompiledUnit} {memory : Memory} {env : Env} {position : Position}

/-- A field of the unit. -/
theorem field {place : Position} {name : String} {outcome : Except Error Slot}
    (read : readField unit name memory = (outcome, memory)) :
    Denotes unit memory env (.member position (.this place) name) outcome :=
  read

/-- A row of values. -/
theorem row {place : Position} {arguments : List Term} {slots : List Slot} {values : Row}
    (free : env.content? "HeapRow" = none)
    (parts : evalTerms unit env arguments memory = (.ok slots, memory))
    (same : valuesOf slots = .ok values) :
    Denotes unit memory env (.call position (.name place "HeapRow") "of" arguments)
      (.ok (.row values)) := by
  have owned : env.staticOwner? (.name place "HeapRow") = some "HeapRow" := by
    simp [Env.staticOwner?, free]
  have made : rowOf slots = .ok (.row values) := by
    rw [rowOf, same]
    rfl
  have other : (Term.name place "HeapRow").isThis = false := rfl
  unfold Denotes
  rw [evalTerm]
  simp only [other, Bool.false_eq_true, if_false, owned, and_self, if_true]
  rw [Effect.bind_apply_ok parts, made]
  rfl

/-- A call of a method that leaves the memory alone. -/
theorem method {target : Term} {word : String} {arguments : List Term} {receiver : Slot}
    {slots : List Slot} {outcome : Except Error Slot} (other : target.isThis = false)
    (free : env.staticOwner? target = none) (plain : fieldOfGetter? word = none)
    (part : Denotes unit memory env target (.ok receiver))
    (parts : evalTerms unit env arguments memory = (.ok slots, memory))
    (called : callMethod word receiver slots memory = (outcome, memory)) :
    Denotes unit memory env (.call position target word arguments) outcome := by
  unfold Denotes
  rw [evalTerm]
  simp only [other, Bool.false_eq_true, if_false, free, plain]
  rw [Effect.bind_apply_ok part, Effect.bind_apply_ok parts]
  exact called

/-- A constant of a class that no local hides. -/
theorem static {place : Position} {owner word : String} {slot : Slot}
    (free : env.content? owner = none) (known : staticMember? owner word = some slot) :
    Denotes unit memory env (.member position (.name place owner) word) (.ok slot) := by
  have owned : env.staticOwner? (.name place owner) = some owner := by
    simp [Env.staticOwner?, free]
  have other : (Term.name place owner).isThis = false := rfl
  unfold Denotes
  rw [evalTerm]
  simp only [other, Bool.false_eq_true, if_false, owned, Option.bind_some, known]
  rfl

/-- One expression as an argument. -/
theorem argument {term : Term} {slot : Slot} (part : Denotes unit memory env term (.ok slot)) :
    evalTerms unit env [term] memory = (.ok [slot], memory) := by
  rw [evalTerms, Effect.bind_apply_ok part]
  rfl

end Script.Denotes

namespace Generate

open Emit
open Script (Term Ty Slot Env CompiledUnit Memory Denotes Types TypesAll Admits Locals UnitScope
  RoutineScope isName)

/-! ## Where an expression is kept -/

/-- How the code of a unit gets hold of an expression: by a local, by a field, or by the list in a
field. -/
inductive Keeper
  | held (name : String)
  | field (name : String)
  | item (name : String) (index : Int32)

namespace Keeper

/-- The expression that the code gets hold of it by. -/
def term : Keeper → Term
  | held name => .name .first name
  | field name => .member .first (.this .first) name
  | item name index => .call .first (.member .first (.this .first) name) "get" [.int .first index]

/-- It is visible with its type. -/
def Visible (scope : UnitScope) (locals : Locals) : Keeper → Prop
  | held name => ∃ number, locals.find? name = some (number, .expression)
  | field name => ∃ index, scope.field? name = some (index, .expression)
  | item name _ => ∃ index, scope.field? name = some (index, .list .expression)

variable {keeper : Keeper} {scope : UnitScope} {locals : Locals}

/-- It is an expression of the engine, and no static owner. -/
theorem Visible.types (visible : keeper.Visible scope locals) :
    Types scope locals keeper.term .expression ∧ Script.staticOwner? locals keeper.term = none := by
  cases keeper with
  | held name =>
    obtain ⟨number, found⟩ := visible
    exact ⟨.name found, by simp [term, Script.staticOwner?, found]⟩
  | field name =>
    obtain ⟨index, found⟩ := visible
    exact ⟨.field found, rfl⟩
  | item name number =>
    obtain ⟨index, found⟩ := visible
    have list : Types scope locals (.member .first (.this .first) name) (.list .expression) :=
      .field found
    have parts : TypesAll scope locals [.int .first number] [.int] := .cons (.literal rfl) .nil
    exact ⟨.method rfl rfl list rfl parts (.cons rfl .nil), rfl⟩

/-- It stays visible when a local with a free name is declared. -/
theorem Visible.with {name : String} (type : Ty) (visible : keeper.Visible scope locals)
    (free : locals.find? name = none) : keeper.Visible scope (locals.with name type) := by
  cases keeper with
  | held word =>
    obtain ⟨number, found⟩ := visible
    refine ⟨number, Script.Locals.find?_with_of_some type found ?_⟩
    rintro rfl
    rw [free] at found
    cases found
  | field | item => exact visible

/-- The keeper denotes the expression. -/
def Keeps (keeper : Keeper) (unit : CompiledUnit) (memory : Memory) (env : Env) (expr : Expr) :
    Prop :=
  Denotes unit memory env keeper.term (.ok (.handle (.expression expr)))

variable {unit : CompiledUnit} {memory : Memory} {env : Env} {expr : Expr}

/-- It still denotes the expression when another local is declared. -/
theorem Keeps.cons {name : String} {slot : Slot} (keeps : keeper.Keeps unit memory env expr)
    (apart : keeper ≠ .held name) : keeper.Keeps unit memory ((name, slot) :: env) expr := by
  cases keeper with
  | held word =>
    have other : (name == word) = false := by
      rw [beq_eq_false_iff_ne]
      rintro rfl
      exact apart rfl
    have same : Env.content? ((name, slot) :: env) word = env.content? word := by
      simp [Env.content?, other]
    have denotes : Script.evalTerm unit env (.name .first word) memory = _ := keeps
    rw [Script.evalTerm, ← same] at denotes
    show Script.evalTerm unit _ (.name .first word) memory = _
    rw [Script.evalTerm]
    exact denotes
  | field | item => exact keeps

/-- What denotes an expression is no static owner. -/
theorem Keeps.staticOwner?_eq (keeps : keeper.Keeps unit memory env expr) :
    env.staticOwner? keeper.term = none := by
  cases keeper with
  | held word =>
    have denotes : Script.evalTerm unit env (.name .first word) memory = _ := keeps
    rw [Script.evalTerm] at denotes
    cases found : env.content? word with
    | none =>
      rw [found] at denotes
      cases denotes
    | some slot => simp [term, Env.staticOwner?, found]
  | field | item => rfl

end Keeper

/-! ## What is written -/

namespace Inlining

/-- The name of the row of the inputs. -/
def rowName (inlining : Inlining) : String :=
  inlining.stem ++ "_row"

/-- The row of the inputs. -/
def rowBinding (inlining : Inlining) : Binding :=
  ⟨⟨inlining.rowName, .row⟩, .call .first (.name .first "HeapRow") "of"
    (inlining.inputs.map termOf)⟩

/-- The evaluation by the engine. -/
def evalBinding (inlining : Inlining) (keeper : Keeper) : Binding :=
  ⟨⟨inlining.stem, .value⟩, .call .first keeper.term "eval" [.name .first inlining.rowName]⟩

/-- The names that the code of an expression may take. -/
def names (inlining : Inlining) (expr : Expr) : List String :=
  inlining.stem :: inlining.rowName :: (List.range expr.span).map inlining.nameOf

/-- The code of an expression, with the modules that it is written for: the expression is inlined,
or evaluated by the engine. -/
inductive Emits (inlining : Inlining) (keeper : Keeper) (expr : Expr) (imports : List String) :
    Local → List Binding → Prop
  | inlined {entry : Local} {next : Nat} {bindings : List Binding}
    (inlines : Inlines inlining expr 0 entry next bindings) :
    Emits inlining keeper expr imports entry bindings
  | evaluated (untyped : inlineType? inlining.inputTypes expr = none)
    (provided : ∀ symbol ∈ ["HeapRow", "Row"], ∀ moduleName,
      Symbol.moduleOf? symbol = some moduleName → moduleName ∈ imports) :
    Emits inlining keeper expr imports ⟨inlining.stem, .value⟩
      [inlining.rowBinding, inlining.evalBinding keeper]

end Inlining

/-- The local that is handed out has the type of the expression. -/
theorem Inlining.Emits.type_eq {inlining : Inlining} {keeper : Keeper} {expr : Expr}
    {imports : List String} {entry : Local} {bindings : List Binding}
    (emits : inlining.Emits keeper expr imports entry bindings) :
    entry.type = exprType inlining.inputTypes expr := by
  unfold exprType
  cases emits with
  | inlined inlines =>
    rw [inlines.type_eq]
    rfl
  | evaluated untyped =>
    rw [untyped]
    rfl

/-- The lines of declarations. -/
def linesOf (bindings : List Binding) : List Command :=
  bindings.flatMap fun binding => lineOf (declarationText binding.entry binding.value.source)

/-- The routine has these declarations in addition. -/
structure Writes (draft : RoutineDraft) (bindings : List Binding) (next : RoutineDraft) : Prop where
  commands : next.commands = draft.commands ++ linesOf bindings
  locals : next.locals = draft.locals ++ bindings.map Binding.entry
  continues : Continues draft next

section Writing

variable {draft : RoutineDraft} {id : NodeId} {suffix : String} {inputs : List Local}
  {keeper : Keeper} {expr : Expr}

/-- More locals. -/
theorem continues_declaredAll (bindings : List Binding) (draft : RoutineDraft) :
    Continues draft (declaredAll bindings draft) := by
  induction bindings generalizing draft with
  | nil => exact .refl draft
  | cons binding rest step => exact (Continues.declared _ _ draft).trans (step _)

/-- The name of the row is not the name of the value. -/
theorem Inlining.rowName_ne (inlining : Inlining) : inlining.rowName ≠ inlining.stem := by
  intro same
  have := congrArg (fun text => text.toList.length) same
  simp [Inlining.rowName] at this

/-- The text of a call of the engine. -/
theorem invoke_eq {target : Term} (tight : target.level = 8) (method : String)
    (arguments : List Term) : Emit.invoke target.source method (Term.sources arguments) =
      (Term.call .first target method arguments).source := by
  rw [Term.source, tight]
  rfl

/-- The text of a cast. -/
theorem castTo_eq {operand : Term} (tight : operand.level = 8) (type : Ty) :
    castTo operand.source type.text = (Term.cast .first operand (writtenType type)).source := by
  rw [Term.source, tight, writtenType_text]
  rfl

/-- A keeper needs no parentheses. -/
theorem Keeper.level_term (keeper : Keeper) : keeper.term.level = 8 := by
  cases keeper <;> rfl

/-- The texts of locals are their names. -/
theorem sources_map_termOf (entries : List Local) :
    Term.sources (entries.map termOf) = entries.map Local.name := by
  induction entries with
  | nil => rfl
  | cons entry rest step =>
    rw [List.map_cons, List.map_cons, Term.sources, step]
    rfl

/-- Evaluation by the engine is written as two declarations. -/
theorem emitEval_emits (untyped : inlineType? (inputs.map Local.type) expr = none)
    (free : draft.localOf? (stemOf id suffix) = none)
    (also : draft.localOf? (Inlining.rowName ⟨stemOf id suffix, inputs⟩) = none) :
    Succeeds (emitEval id suffix inputs keeper.term.source) draft fun entry next =>
      ∃ bindings, Inlining.Emits ⟨stemOf id suffix, inputs⟩ keeper expr next.imports
        entry bindings ∧
        Writes draft bindings next := by
  let inlining : Inlining := ⟨stemOf id suffix, inputs⟩
  have rowText : Emit.invoke "HeapRow" "of" (inputs.map Local.name) =
      inlining.rowBinding.value.source := by
    have target : (Term.name .first "HeapRow").level = 8 := rfl
    rw [← sources_map_termOf]
    exact invoke_eq target "of" (inputs.map termOf)
  have evalText : Emit.invoke keeper.term.source "eval" [inlining.rowName] =
      (inlining.evalBinding keeper).value.source :=
    invoke_eq keeper.level_term "eval" [.name .first inlining.rowName]
  refine .of_ok (runOn_emitEval_of_free also free)
    ⟨[inlining.rowBinding, inlining.evalBinding keeper], .evaluated untyped ?_, ?_,
      locals_withEval also free, continues_withEval⟩
  · intro symbol member moduleName provided
    have row : ∀ symbol ∈ ["HeapRow", "Row"], Symbol.moduleOf? symbol = some "sql.row" := by decide
    obtain rfl := Option.some.inj (provided.symm.trans (row symbol member))
    exact (mem_insertModules _ _ _).2 (.inl (by decide))
  · simp only [linesOf, List.flatMap_cons, List.flatMap_nil, List.append_nil, ← rowText, ← evalText]
    rfl

/-- The code of an expression is written whenever its names are free. -/
theorem emitExpression_emits
    (free : ∀ name ∈ Inlining.names ⟨stemOf id suffix, inputs⟩ expr, draft.localOf? name = none) :
    Succeeds (emitExpression id suffix expr inputs keeper.term.source) draft fun entry next =>
      ∃ bindings, Inlining.Emits ⟨stemOf id suffix, inputs⟩ keeper expr next.imports
        entry bindings ∧
        Writes draft bindings next := by
  have numbers : Inlining.Free ⟨stemOf id suffix, inputs⟩ draft 0 expr.span := by
    intro index _ below
    refine free _ (List.mem_cons_of_mem _ (List.mem_cons_of_mem _ ?_))
    exact List.mem_map_of_mem (List.mem_range.2 below)
  cases typed : inlineType? (inputs.map Local.type) expr with
  | some type =>
    obtain ⟨entry, next, bindings, inlines⟩ :=
      Inlining.typable ⟨stemOf id suffix, inputs⟩ expr typed 0
    obtain ⟨-, bound, numbered⟩ := inlines.numbered
    exact .of_ok (runOn_emitExpression_inlined (inlines.run numbers (by omega)))
      ⟨bindings, .inlined inlines, declaredAll_commands bindings _,
        numbers.locals_declaredAll numbered (by omega), continues_declaredAll bindings _⟩
  | none =>
    have inlined := Inlining.inlinable ⟨stemOf id suffix, inputs⟩ expr numbers (by omega)
    refine emitExpression_drafts (inlined.imp ?_ ?_)
    · rintro ⟨entry, next⟩ _ ⟨bindings, inlines, -⟩
      rw [show inlineType? (inputs.map Local.type) expr = _ from inlines.type_eq] at typed
      cases typed
    · intro error changed unsupported
      refine ⟨unsupported, emitEval_emits typed (free _ ?_) (free _ ?_)⟩
      · exact List.mem_cons_self
      · exact List.mem_cons_of_mem _ List.mem_cons_self

end Writing

/-! ## What is read -/

/-- The lines of declarations are read as the declarations. -/
theorem yields_linesOf {bindings : List Binding}
    (writable : ∀ binding ∈ bindings, binding.statement.Writable) :
    Yields (linesOf bindings) (Script.stmtTokens (bindings.map Binding.statement)) := by
  induction bindings with
  | nil => exact .nil
  | cons binding rest step =>
    obtain ⟨named, typed, value⟩ := writable binding List.mem_cons_self
    have first : Yields (lineOf (declarationText binding.entry binding.value.source))
        binding.statement.tokens := by
      have shape : (writtenType binding.entry.type.ty).text = binding.entry.type.name :=
        writtenType_text binding.entry.type.ty
      rw [declarationText, ← shape]
      exact .declare named typed value
    exact first.cons (step fun other member => writable other (List.mem_cons_of_mem _ member))

end Generate

end QueryFusion
