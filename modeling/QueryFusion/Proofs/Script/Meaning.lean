import QueryFusion.Script.Lower
import QueryFusion.Script.Machine

/-!
# The meaning of syntax trees

Expressions and statements are executed on the tree itself: operands from left to right, the right
side of a logical operator only when the left one leaves it open, one branch of a conditional, and a
loop round by round. Locals go by name, and a method is looked up on the slot that receives it. What
the tree does to the memory of the unit stays when it fails.

Only loops use fuel: each loop may take as many rounds as there is fuel.
-/

namespace QueryFusion

/-- A step, and what follows it when it succeeds. -/
def Step.andThen {σ α β : Type} (step : Step σ α) (next : α → σ → Step σ β) : Step σ β :=
  match step with
  | none => none
  | some (.error error, state) => some (.error error, state)
  | some (.ok result, state) => next result state

namespace Script

/-! ## Types of slots -/

/-- The kind of executor that an exposed state belongs to. -/
def executorType : ExecutorState → Ty
  | .hidden => .executor
  | .scan _ => .specificExecutor .scan
  | .filter _ => .specificExecutor .filter
  | .project _ => .specificExecutor .project

/-- The most special type of an object of the engine. -/
def Handle.type : Handle → Ty
  | executor _ state => executorType state
  | map _ => .map
  | partitions _ => .partitions
  | shape _ => .shape
  | paths _ => .list .path
  | types _ => .list .dataType
  | indexes _ => .list .int
  | expression _ => .expression
  | expressions _ => .list .expression
  | cursor _ => .cursor
  | context _ => .context
  | path _ => .path
  | dataType _ => .dataType

/-- The most special type of a value. -/
def valueType : Value → Ty
  | .null => .null
  | .boolean _ => .boolean
  | .int _ => .int
  | .bigInt _ => .bigInt
  | .double _ => .double
  | .varchar _ => .varchar
  | .object _ className _ => .object (some className)

/-- The most special type of a slot; a slot that is not set has no type to store it under. -/
def Slot.type : Slot → Ty
  | unset => .void
  | value content => valueType content
  | row _ => .row
  | ints _ => .intArray
  | progress _ => .progress
  | handle object => object.type

/-! ## Effects -/

/-- What an expression does: it reads and changes the memory, and may fail. -/
def Effect (α : Type) : Type :=
  Memory → Except Error α × Memory

namespace Effect

variable {α β : Type}

instance : Monad Effect where
  pure result := fun memory => (.ok result, memory)
  bind first next := fun memory =>
    match first memory with
    | (.ok result, changed) => next result changed
    | (.error error, changed) => (.error error, changed)

/-- An outcome that does not touch the memory. -/
def ofExcept (outcome : Except Error α) : Effect α :=
  fun memory => (outcome, memory)

/-- A failure. -/
def fail (error : Error) : Effect α :=
  ofExcept (.error error)

@[simp] theorem pure_apply (result : α) (memory : Memory) :
    (pure result : Effect α) memory = (.ok result, memory) :=
  rfl

@[simp] theorem ofExcept_apply (outcome : Except Error α) (memory : Memory) :
    ofExcept outcome memory = (outcome, memory) :=
  rfl

@[simp] theorem fail_apply (error : Error) (memory : Memory) :
    (fail error : Effect α) memory = (.error error, memory) :=
  rfl

/-- What follows a part that succeeds starts from the memory that the part leaves. -/
theorem bind_apply_ok {first : Effect α} {memory changed : Memory} {result : α}
    (done : first memory = (.ok result, changed)) (next : α → Effect β) :
    (first >>= next) memory = next result changed := by
  change (match first memory with
    | (.ok result, changed) => next result changed
    | (.error error, changed) => (.error error, changed)) = _
  rw [done]

/-- Nothing follows a part that fails. -/
theorem bind_apply_error {first : Effect α} {memory changed : Memory} {error : Error}
    (failed : first memory = (.error error, changed)) (next : α → Effect β) :
    (first >>= next) memory = (.error error, changed) := by
  change (match first memory with
    | (.ok result, changed) => next result changed
    | (.error error, changed) => (.error error, changed)) = _
  rw [failed]

end Effect

/-- The error of a tree that no unit may contain. -/
def stuck : Error :=
  .internal "stuck"

/-! ## Operations on slots -/

/-- The truth value in a slot. -/
def truthOf (what : String) (slot : Slot) : Except Error Bool :=
  match slot.toValue with
  | .ok (.boolean truth) => .ok truth
  | .ok .null => .error (.nullOperand what)
  | .ok other => .error (.typeMismatch "BOOLEAN" other.dataType.text)
  | .error error => .error error

/-- The order of the values in two slots; the right one is looked at first. -/
def orderSlots (comparison : Comparison) (left right : Slot) : Except Error Slot := do
  let rightValue ← right.toValue
  let leftValue ← left.toValue
  let outcome ← comparison.apply leftValue rightValue
  .ok (.truth outcome)

/-- An arithmetic operator on the values in two slots; the right one is looked at first. -/
def computeSlots (op : ArithmeticOp) (left right : Slot) : Except Error Slot := do
  let rightValue ← right.toValue
  let leftValue ← left.toValue
  let result ← op.apply leftValue rightValue
  .ok (.value result)

/-- Equality of two slots, or their inequality. -/
def matchSlots (expected : Bool) (left right : Slot) : Except Error Slot := do
  let outcome ← left.equal right
  .ok (.truth (outcome == expected))

/-- A binary operator on two slots; the logical operators have a meaning of their own. -/
def BinaryOp.apply (op : BinaryOp) (left right : Slot) : Except Error Slot :=
  match op with
  | .or | .and => .error stuck
  | .equal => matchSlots true left right
  | .notEqual => matchSlots false left right
  | .less => orderSlots .less left right
  | .lessOrEqual => orderSlots .lessOrEqual left right
  | .greater => orderSlots .greater left right
  | .greaterOrEqual => orderSlots .greaterOrEqual left right
  | .add => computeSlots .plus left right
  | .subtract => computeSlots .minus left right
  | .multiply => computeSlots .times left right
  | .divide => computeSlots .divide left right
  | .remainder => computeSlots .remainder left right

/-- The negation of a slot. -/
def notSlot (slot : Slot) : Except Error Slot := do
  let truth ← truthOf "operator !" slot
  .ok (.truth (!truth))

/-- A slot with the other sign. -/
def negateSlot (slot : Slot) : Except Error Slot := do
  let value ← slot.toValue
  let result ← value.negate
  .ok (.value result)

/-- A slot cast to a type. -/
def castSlot (target : Ty) (slot : Slot) : Except Error Slot :=
  match target with
  | .specificExecutor kind => CastTarget.apply (.executor kind) slot
  | .object className => CastTarget.apply (.object className) slot
  | other =>
    match other.dataType? with
    | some type => CastTarget.apply (.scalar type) slot
    | none => .ok slot

/-- A row of slots. -/
def rowOf (slots : List Slot) : Except Error Slot := do
  let values ← valuesOf slots
  .ok (.row values)

/-- The field of an object that a getter reads. -/
def getterSlot (field : String) (slot : Slot) : Except Error Slot := do
  let target ← slot.toValue
  let value ← readGetter field target
  .ok (.value value)

/-- A static member of the engine. -/
def staticMember? (owner name : String) : Option Slot :=
  if owner = "IterationResult" then
    if name = "FETCHED" then some (.progress .fetched)
    else if name = "FETCHED_DONE" then some (.progress .finished)
    else none
  else none

/-- The effect of a call that was made: the cursors may have moved. -/
def called (outcome : Except Error (Slot × List Cursor)) : Effect Slot :=
  fun memory =>
    match outcome with
    | .ok (slot, cursors) => (.ok slot, { memory with cursors := cursors })
    | .error error => (.error error, memory)

/-- Calls a method of an object; the method is the one that the type of the slot has. -/
def callMethod (name : String) (receiver : Slot) (arguments : List Slot) : Effect Slot :=
  fun memory =>
    if receiver.isNull then (.error (.nullOperand ("receiver of " ++ name ++ "()")), memory)
    else
      match methodOf? receiver.type name with
      | none => (.error stuck, memory)
      | some (method, _, _) => called (invoke memory.cursors method receiver arguments) memory

/-- Makes a cursor over a map. -/
def openCursor (map partitions : Slot) : Effect Slot :=
  fun memory =>
    match map, partitions with
    | .handle (.map entries), .handle (.partitions set) =>
      (.ok (.handle (.cursor memory.cursors.length)),
        { memory with cursors := memory.cursors ++ [.start entries set] })
    | _, _ => (.error (misapplied [map, partitions] "MapScanUtils.createIterator"), memory)

/-- Adds a row to the batch and tells whether there is room for another. -/
def addRow (slot : Slot) : Effect Slot :=
  fun memory =>
    match slot with
    | .row row =>
      (.ok (.truth (memory.batch.add row).hasRoom),
        { memory with batch := memory.batch.add row })
    | other => (.error (misapplied [other] "addToBatch"), memory)

/-- Makes a cursor over the map and the partitions that are given. -/
def openGiven : List Slot → Effect Slot
  | [map, partitions] => openCursor map partitions
  | _ => .fail stuck

/-- Adds the row that is given. -/
def addGiven : List Slot → Effect Slot
  | [slot] => addRow slot
  | _ => .fail stuck

/-- Removes the rows of the batch. -/
def clearRows : Effect Slot :=
  fun memory => (.ok .unset, { memory with batch := memory.batch.clear })

/-- The place of a field of the unit. -/
def fieldIndex? (unit : CompiledUnit) (name : String) : Option Nat :=
  unit.fields.findIdx? fun field => field.name == name

/-- Reads a field of the unit. -/
def readField (unit : CompiledUnit) (name : String) : Effect Slot :=
  fun memory =>
    match fieldIndex? unit name with
    | some index => (loadField unit memory.fields index, memory)
    | none => (.error stuck, memory)

/-- Sets a field of the unit. -/
def writeField (unit : CompiledUnit) (name : String) (slot : Slot) : Effect Unit :=
  fun memory =>
    match fieldIndex? unit name with
    | some index => (.ok (), { memory with fields := memory.fields.set index slot })
    | none => (.error stuck, memory)

/-! ## Expressions -/

/-- The visible locals with their contents, the latest first. -/
abbrev Env := List (String × Slot)

namespace Env

/-- The content of a local. -/
def content? (env : Env) (name : String) : Option Slot :=
  (env.find? fun entry => entry.1 == name).map (·.2)

/-- The locals with another content of one of them. -/
def assign (name : String) (slot : Slot) : Env → Env
  | [] => []
  | entry :: rest =>
    if entry.1 == name then (entry.1, slot) :: rest else entry :: assign name slot rest

/-- The locals of an enclosing block, with their contents at the end of an inner one. -/
def restore (env outer : Env) : Env :=
  env.drop (env.length - outer.length)

/-- The owner of a static member: a name that is no local. -/
def staticOwner? (env : Env) : Term → Option String
  | .name _ name => if (env.content? name).isNone then some name else none
  | _ => none

end Env

mutual

/-- The slot of an expression. -/
def evalTerm (unit : CompiledUnit) (env : Env) : Term → Effect Slot
  | .int _ number => pure (.value (.int number))
  | .bigInt _ number => pure (.value (.bigInt number))
  | .double _ number => pure (.value (.double number))
  | .text _ content => pure (.value (.varchar content))
  | .boolean _ truth => pure (.truth truth)
  | .null _ => pure (.value .null)
  | .ints _ numbers => pure (.ints numbers)
  | .name _ name =>
    match env.content? name with
    | some slot => pure slot
    | none => .fail stuck
  | .this _ => .fail stuck
  | .not _ operand => do
    let slot ← evalTerm unit env operand
    .ofExcept (notSlot slot)
  | .negate _ operand => do
    let slot ← evalTerm unit env operand
    .ofExcept (negateSlot slot)
  | .binary _ op left right =>
    match op with
    | .and => do
      let slot ← evalTerm unit env left
      let truth ← .ofExcept (truthOf "condition" slot)
      if truth then evalTerm unit env right else pure (.truth false)
    | .or => do
      let slot ← evalTerm unit env left
      let truth ← .ofExcept (truthOf "condition" slot)
      if truth then pure (.truth true) else evalTerm unit env right
    | _ => do
      let first ← evalTerm unit env left
      let second ← evalTerm unit env right
      .ofExcept (op.apply first second)
  | .conditional _ condition thenValue elseValue => do
    let slot ← evalTerm unit env condition
    let truth ← .ofExcept (truthOf "condition" slot)
    if truth then evalTerm unit env thenValue else evalTerm unit env elseValue
  | .member _ target name =>
    if target.isThis then readField unit name
    else
      match (env.staticOwner? target).bind fun owner => staticMember? owner name with
      | some slot => pure slot
      | none => .fail stuck
  | .call _ target method arguments =>
    if target.isThis then
      if method = "clearBatch" then clearRows
      else if method = "addToBatch" then do
        let slots ← evalTerms unit env arguments
        addGiven slots
      else .fail stuck
    else
      match env.staticOwner? target with
      | some owner =>
        if owner = "HeapRow" ∧ method = "of" then do
          let slots ← evalTerms unit env arguments
          .ofExcept (rowOf slots)
        else if owner = "MapScanUtils" ∧ method = "createIterator" then do
          let slots ← evalTerms unit env arguments
          openGiven slots
        else .fail stuck
      | none => do
        let receiver ← evalTerm unit env target
        match fieldOfGetter? method with
        | some field => .ofExcept (getterSlot field receiver)
        | none => do
          let slots ← evalTerms unit env arguments
          callMethod method receiver slots
  | .cast _ operand written => do
    let slot ← evalTerm unit env operand
    match Ty.resolve? written.name written.argument with
    | some target => .ofExcept (castSlot target slot)
    | none => .fail stuck

/-- The slots of several expressions, from left to right. -/
def evalTerms (unit : CompiledUnit) (env : Env) : List Term → Effect (List Slot)
  | [] => pure []
  | term :: rest => do
    let slot ← evalTerm unit env term
    let slots ← evalTerms unit env rest
    pure (slot :: slots)

end

/-! ## Statements -/

/-- How a statement ends. -/
inductive Exit
  /-- The next statement follows. -/
  | through
  /-- The innermost loop goes on with its next round. -/
  | proceed
  /-- The innermost loop ends. -/
  | leave
  /-- The routine ends with a slot; without a value it is an unset one. -/
  | answer (slot : Slot)
  deriving Inhabited

/-- What statements do: they change locals and memory. -/
abbrev Execution :=
  Env → Memory → Step Memory (Exit × Env)

/-- Statements in braces: their own locals are gone behind them. -/
def inBraces (body : Execution) : Execution :=
  fun env memory => Step.andThen (body env memory) fun (exit, inner) changed =>
    some (.ok (exit, inner.restore env), changed)

/-- The truth value of a condition. -/
def testTerm (unit : CompiledUnit) (env : Env) (condition : Term) : Effect Bool := do
  let slot ← evalTerm unit env condition
  .ofExcept (truthOf "condition" slot)

/-- The rounds of a loop. -/
def rounds (test : Env → Effect Bool) (body : Execution) : Nat → Execution
  | 0, _, _ => none
  | fuel + 1, env, memory =>
    Step.andThen (some (test env memory)) fun truth tested =>
      if truth then
        Step.andThen (body env tested) fun (exit, next) changed =>
          match exit with
          | .through | .proceed => rounds test body fuel next changed
          | .leave => some (.ok (.through, next), changed)
          | .answer slot => some (.ok (.answer slot, next), changed)
      else some (.ok (.through, env), tested)

mutual

/-- Executes a statement. -/
def execStmt (unit : CompiledUnit) (fuel : Nat) : Stmt → Execution
  | .declare _ name _ value => fun env memory =>
    Step.andThen (some (evalTerm unit env value memory)) fun slot changed =>
      some (.ok (.through, (name, slot) :: env), changed)
  | .setField _ field value => fun env memory =>
    Step.andThen (some (evalTerm unit env value memory)) fun slot changed =>
      Step.andThen (some (writeField unit field slot changed)) fun _ written =>
        some (.ok (.through, env), written)
  | .setLocal _ name value => fun env memory =>
    Step.andThen (some (evalTerm unit env value memory)) fun slot changed =>
      some (.ok (.through, env.assign name slot), changed)
  | .branch _ condition thenBlock => fun env memory =>
    Step.andThen (some (testTerm unit env condition memory)) fun truth tested =>
      if truth then inBraces (execStmts unit fuel thenBlock) env tested
      else some (.ok (.through, env), tested)
  | .choose _ condition thenBlock elseBlock => fun env memory =>
    Step.andThen (some (testTerm unit env condition memory)) fun truth tested =>
      if truth then inBraces (execStmts unit fuel thenBlock) env tested
      else inBraces (execStmts unit fuel elseBlock) env tested
  | .loop _ condition body => fun env memory =>
    rounds (fun env => testTerm unit env condition) (inBraces (execStmts unit fuel body)) fuel env
      memory
  | .proceed _ => fun env memory => some (.ok (.proceed, env), memory)
  | .leave _ => fun env memory => some (.ok (.leave, env), memory)
  | .finish _ => fun env memory => some (.ok (.answer .unset, env), memory)
  | .answer _ value => fun env memory =>
    Step.andThen (some (evalTerm unit env value memory)) fun slot changed =>
      some (.ok (.answer slot, env), changed)
  | .construct _ _ => fun _ memory => some (.error stuck, memory)
  | .perform _ value => fun env memory =>
    Step.andThen (some (evalTerm unit env value memory)) fun _ changed =>
      some (.ok (.through, env), changed)

/-- Executes statements one after another, up to the first that does not fall through. -/
def execStmts (unit : CompiledUnit) (fuel : Nat) : List Stmt → Execution
  | [] => fun env memory => some (.ok (.through, env), memory)
  | statement :: rest => fun env memory =>
    Step.andThen (execStmt unit fuel statement env memory) fun (exit, next) changed =>
      match exit with
      | .through => execStmts unit fuel rest next changed
      | other => some (.ok (other, next), changed)

end

/-- The parameters of a routine with their arguments, the latest first. -/
def bindParams (params : List Param) (arguments : List Slot) : Env :=
  ((params.map Param.name).zip arguments).reverse

/-- Executes the body of a routine; a routine that falls through has no result. -/
def execRoutine (unit : CompiledUnit) (fuel : Nat) (decl : RoutineDecl) (arguments : List Slot)
    (memory : Memory) : Step Memory Slot :=
  Step.andThen (execStmts unit fuel decl.body (bindParams decl.params arguments) memory)
    fun (exit, _) changed =>
      match exit with
      | .answer slot => some (.ok slot, changed)
      | _ => some (.ok .unset, changed)

end Script

end QueryFusion
