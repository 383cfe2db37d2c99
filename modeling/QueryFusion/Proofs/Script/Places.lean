import QueryFusion.Proofs.Script.BlockRules

/-!
# Places do not matter

Two trees are alike when they differ only in the places of their nodes. What the compiler accepts,
the code it writes and what a tree does are the same for trees that are alike: places only show up
in diagnostics.
-/

namespace QueryFusion.Script

/-! ## Alike trees -/

/-- The types are the same but for their places. -/
structure TypeName.Alike (first second : TypeName) : Prop where
  name : first.name = second.name
  argument : first.argument = second.argument

mutual

/-- The expressions are the same but for their places. -/
inductive Term.Alike : Term → Term → Prop
  | int {here there : Position} {number : Int32} : Alike (.int here number) (.int there number)
  | bigInt {here there : Position} {number : Int64} :
      Alike (.bigInt here number) (.bigInt there number)
  | double {here there : Position} {number : Double} :
      Alike (.double here number) (.double there number)
  | text {here there : Position} {content : String} :
      Alike (.text here content) (.text there content)
  | boolean {here there : Position} {truth : Bool} :
      Alike (.boolean here truth) (.boolean there truth)
  | null {here there : Position} : Alike (.null here) (.null there)
  | ints {here there : Position} {numbers : List Int32} :
      Alike (.ints here numbers) (.ints there numbers)
  | name {here there : Position} {word : String} : Alike (.name here word) (.name there word)
  | this {here there : Position} : Alike (.this here) (.this there)
  | not {here there : Position} {operand other : Term} (inner : Alike operand other) :
      Alike (.not here operand) (.not there other)
  | negate {here there : Position} {operand other : Term} (inner : Alike operand other) :
      Alike (.negate here operand) (.negate there other)
  | binary {here there : Position} {op : BinaryOp} {left right otherLeft otherRight : Term}
      (first : Alike left otherLeft) (second : Alike right otherRight) :
      Alike (.binary here op left right) (.binary there op otherLeft otherRight)
  | conditional {here there : Position} {condition thenValue elseValue : Term}
      {otherCondition otherThen otherElse : Term} (test : Alike condition otherCondition)
      (first : Alike thenValue otherThen) (second : Alike elseValue otherElse) :
      Alike (.conditional here condition thenValue elseValue)
        (.conditional there otherCondition otherThen otherElse)
  | member {here there : Position} {target other : Term} {field : String}
      (inner : Alike target other) : Alike (.member here target field) (.member there other field)
  | call {here there : Position} {target other : Term} {method : String}
      {arguments others : List Term} (inner : Alike target other)
      (each : AllAlike arguments others) :
      Alike (.call here target method arguments) (.call there other method others)
  | cast {here there : Position} {operand other : Term} {type written : TypeName}
      (inner : Alike operand other) (types : type.Alike written) :
      Alike (.cast here operand type) (.cast there other written)

/-- The expressions are the same but for their places, one by one. -/
inductive Term.AllAlike : List Term → List Term → Prop
  | nil : AllAlike [] []
  | cons {term other : Term} {terms others : List Term} (head : Alike term other)
      (tail : AllAlike terms others) : AllAlike (term :: terms) (other :: others)

end

mutual

/-- The statements are the same but for their places. -/
inductive Stmt.Alike : Stmt → Stmt → Prop
  | declare {here there : Position} {name : String} {type written : TypeName} {value other : Term}
      (types : type.Alike written) (part : value.Alike other) :
      Alike (.declare here name type value) (.declare there name written other)
  | setField {here there : Position} {field : String} {value other : Term}
      (part : value.Alike other) : Alike (.setField here field value) (.setField there field other)
  | setLocal {here there : Position} {name : String} {value other : Term}
      (part : value.Alike other) : Alike (.setLocal here name value) (.setLocal there name other)
  | branch {here there : Position} {condition other : Term} {thenBlock otherThen : List Stmt}
      (test : condition.Alike other) (block : AllAlike thenBlock otherThen) :
      Alike (.branch here condition thenBlock) (.branch there other otherThen)
  | choose {here there : Position} {condition other : Term}
      {thenBlock otherThen elseBlock otherElse : List Stmt} (test : condition.Alike other)
      (first : AllAlike thenBlock otherThen) (second : AllAlike elseBlock otherElse) :
      Alike (.choose here condition thenBlock elseBlock) (.choose there other otherThen otherElse)
  | loop {here there : Position} {condition other : Term} {body otherBody : List Stmt}
      (test : condition.Alike other) (block : AllAlike body otherBody) :
      Alike (.loop here condition body) (.loop there other otherBody)
  | proceed {here there : Position} : Alike (.proceed here) (.proceed there)
  | leave {here there : Position} : Alike (.leave here) (.leave there)
  | finish {here there : Position} : Alike (.finish here) (.finish there)
  | answer {here there : Position} {value other : Term} (part : value.Alike other) :
      Alike (.answer here value) (.answer there other)
  | construct {here there : Position} {arguments others : List Term}
      (parts : Term.AllAlike arguments others) :
      Alike (.construct here arguments) (.construct there others)
  | perform {here there : Position} {value other : Term} (part : value.Alike other) :
      Alike (.perform here value) (.perform there other)

/-- The statements are the same but for their places, one by one. -/
inductive Stmt.AllAlike : List Stmt → List Stmt → Prop
  | nil : AllAlike [] []
  | cons {statement other : Stmt} {statements others : List Stmt} (head : Alike statement other)
      (tail : AllAlike statements others) : AllAlike (statement :: statements) (other :: others)

end

/-- A type is like the other one when that is like it. -/
theorem TypeName.Alike.symm {first second : TypeName} (alike : first.Alike second) :
    second.Alike first :=
  ⟨alike.name.symm, alike.argument.symm⟩

mutual

/-- An expression is like the other one when that is like it. -/
theorem Term.Alike.symm {term other : Term} (alike : term.Alike other) : other.Alike term := by
  cases alike with
  | int => exact .int
  | bigInt => exact .bigInt
  | double => exact .double
  | text => exact .text
  | boolean => exact .boolean
  | null => exact .null
  | ints => exact .ints
  | name => exact .name
  | this => exact .this
  | not inner => exact .not inner.symm
  | negate inner => exact .negate inner.symm
  | binary first second => exact .binary first.symm second.symm
  | conditional test first second => exact .conditional test.symm first.symm second.symm
  | member inner => exact .member inner.symm
  | call inner each => exact .call inner.symm each.symm
  | cast inner types => exact .cast inner.symm types.symm

/-- Expressions are like others one by one when those are like them. -/
theorem Term.AllAlike.symm {terms others : List Term} (alike : Term.AllAlike terms others) :
    Term.AllAlike others terms := by
  cases alike with
  | nil => exact .nil
  | cons head tail => exact .cons head.symm tail.symm

end

mutual

/-- A statement is like the other one when that is like it. -/
theorem Stmt.Alike.symm {statement other : Stmt} (alike : statement.Alike other) :
    other.Alike statement := by
  cases alike with
  | declare types part => exact .declare types.symm part.symm
  | setField part => exact .setField part.symm
  | setLocal part => exact .setLocal part.symm
  | branch test block => exact .branch test.symm block.symm
  | choose test first second => exact .choose test.symm first.symm second.symm
  | loop test block => exact .loop test.symm block.symm
  | proceed => exact .proceed
  | leave => exact .leave
  | finish => exact .finish
  | answer part => exact .answer part.symm
  | construct parts => exact .construct parts.symm
  | perform part => exact .perform part.symm

/-- Statements are like others one by one when those are like them. -/
theorem Stmt.AllAlike.symm {statements others : List Stmt}
    (alike : Stmt.AllAlike statements others) :
    Stmt.AllAlike others statements := by
  cases alike with
  | nil => exact .nil
  | cons head tail => exact .cons head.symm tail.symm

end

/-! ## Meaning -/

/-- Only the unit itself is like the unit. -/
theorem Term.Alike.isThis_eq {term other : Term} (alike : term.Alike other) :
    term.isThis = other.isThis := by
  cases alike <;> rfl

/-- A call is like a call. -/
theorem Term.Alike.isCall_eq {term other : Term} (alike : term.Alike other) :
    term.isCall = other.isCall := by
  cases alike <;> rfl

/-- The owner of a static member goes by its name. -/
theorem Term.Alike.envOwner_eq {term other : Term} (alike : term.Alike other) (env : Env) :
    env.staticOwner? term = env.staticOwner? other := by
  cases alike <;> rfl

mutual

/-- Expressions that are alike have the same effect. -/
theorem Term.Alike.evalTerm_eq {unit : CompiledUnit} {env : Env} {term other : Term}
    (alike : term.Alike other) : evalTerm unit env term = evalTerm unit env other := by
  cases alike with
  | int | bigInt | double | text | boolean | null | ints | name | this => rfl
  | not inner | negate inner => rw [evalTerm, evalTerm, inner.evalTerm_eq]
  | @binary here there op left right otherLeft otherRight first second =>
    cases op <;> simp only [evalTerm, first.evalTerm_eq, second.evalTerm_eq]
  | conditional test first second =>
    simp only [evalTerm, test.evalTerm_eq, first.evalTerm_eq, second.evalTerm_eq]
  | member inner => simp only [evalTerm, inner.isThis_eq, inner.envOwner_eq]
  | call inner each =>
    simp only [evalTerm, inner.isThis_eq, inner.envOwner_eq, inner.evalTerm_eq,
      each.evalTerms_eq]
  | cast inner types => simp only [evalTerm, inner.evalTerm_eq, types.name, types.argument]

/-- Expressions that are alike one by one have the same effect. -/
theorem Term.AllAlike.evalTerms_eq {unit : CompiledUnit} {env : Env} {terms others : List Term}
    (alike : Term.AllAlike terms others) :
    evalTerms unit env terms = evalTerms unit env others := by
  cases alike with
  | nil => rfl
  | cons head tail => simp only [evalTerms, head.evalTerm_eq, tail.evalTerms_eq]

end

mutual

/-- Statements that are alike do the same. -/
theorem Stmt.Alike.execStmt_eq {unit : CompiledUnit} {fuel : Nat} {statement other : Stmt}
    (alike : statement.Alike other) : execStmt unit fuel statement = execStmt unit fuel other := by
  cases alike with
  | declare types part | setField part | setLocal part | answer part | perform part =>
    simp only [execStmt, part.evalTerm_eq]
  | branch test block | loop test block =>
    simp only [execStmt, testTerm, test.evalTerm_eq, block.execStmts_eq]
  | choose test first second =>
    simp only [execStmt, testTerm, test.evalTerm_eq, first.execStmts_eq, second.execStmts_eq]
  | proceed | leave | finish => rfl
  | construct parts => simp only [execStmt]

/-- Statements that are alike one by one do the same. -/
theorem Stmt.AllAlike.execStmts_eq {unit : CompiledUnit} {fuel : Nat}
    {statements others : List Stmt} (alike : Stmt.AllAlike statements others) :
    execStmts unit fuel statements = execStmts unit fuel others := by
  cases alike with
  | nil => rfl
  | cons head tail => simp only [execStmts, head.execStmt_eq, tail.execStmts_eq]

end

/-! ## Code -/

/-- The owner of a static member goes by its name. -/
theorem Term.Alike.staticOwner?_eq {term other : Term} (alike : term.Alike other)
    (locals : Locals) : staticOwner? locals term = staticOwner? locals other := by
  cases alike <;> rfl

/-- Literals go by what they stand for. -/
theorem Term.Alike.literal?_eq {term other : Term} (alike : term.Alike other) :
    literal? term = literal? other := by
  cases alike <;> rfl

/-- Each expression is like one expression. -/
theorem Term.AllAlike.length_eq {terms others : List Term} (alike : Term.AllAlike terms others) :
    terms.length = others.length := by
  cases alike with
  | nil => rfl
  | cons head tail => rw [List.length_cons, List.length_cons, tail.length_eq]

/-- A type is accepted for its name. -/
theorem TypeName.Alike.resolve_eq {type other : TypeName} (alike : type.Alike other)
    {scope : UnitScope} {target : Ty} (accepted : scope.resolve type = .ok target) :
    scope.resolve other = .ok target := by
  unfold UnitScope.resolve at accepted ⊢
  rw [← alike.name, ← alike.argument]
  split at accepted
  · cases accepted
  · simp only [bind_eq_ok_iff] at accepted
    obtain ⟨_, imported, accepted⟩ := accepted
    rw [UnitScope.requireImport_eq_ok_iff] at imported
    simp only [imported.requireImport_eq, ok_bind]
    split at accepted
    · rename_i element argument
      simp only [bind_eq_ok_iff] at accepted
      obtain ⟨_, also, accepted⟩ := accepted
      rw [UnitScope.requireImport_eq_ok_iff] at also
      simp only [also.requireImport_eq, ok_bind]
      exact accepted
    · exact accepted

mutual

/-- Expressions that are alike have the same code. -/
theorem Lowers.alike {scope : UnitScope} {locals : Locals} {start : Nat} {pools : Pools}
    {term other : Term} {lowered : Lowered} (rule : Lowers scope locals start pools term lowered)
    (same : term.Alike other) : Lowers scope locals start pools other lowered := by
  cases rule with
  | literal known =>
    rw [same.literal?_eq] at known
    exact .literal known
  | boolean =>
    cases same
    exact .boolean
  | null =>
    cases same
    exact .null
  | name found =>
    cases same
    exact .name found
  | not part truth =>
    cases same with
    | not inner => exact .not (part.alike inner) truth
  | negate part numeric =>
    cases same with
    | negate inner => exact .negate (part.alike inner) numeric
  | and leftPart leftTruth rightPart rightTruth decided =>
    cases same with
    | binary first second =>
      exact .and (leftPart.alike first) leftTruth (rightPart.alike second) rightTruth decided
  | or leftPart leftTruth rightPart rightTruth decided =>
    cases same with
    | binary first second =>
      exact .or (leftPart.alike first) leftTruth (rightPart.alike second) rightTruth decided
  | binary leftPart rightPart accepted =>
    cases same with
    | binary first second =>
      exact .binary (leftPart.alike first) (rightPart.alike second) accepted
  | conditional testPart truth thenPlace thenPart elsePlace elsePart joined =>
    cases same with
    | conditional test first second =>
      exact .conditional (testPart.alike test) truth thenPlace (thenPart.alike first) elsePlace
        (elsePart.alike second) joined
  | field found =>
    cases same with
    | member inner =>
      cases inner
      exact .field found
  | static owned imported known =>
    cases same with
    | member inner =>
      rw [inner.staticOwner?_eq] at owned
      exact .static owned imported known
  | clear =>
    cases same with
    | call inner each =>
      cases inner
      cases each
      exact .clear
  | add parts accepted =>
    cases same with
    | call inner each =>
      cases inner
      exact .add (parts.alike each) accepted
  | row owned imported parts values =>
    cases same with
    | call inner each =>
      rw [inner.staticOwner?_eq] at owned
      rw [each.length_eq]
      exact .row owned imported (parts.alike each) values
  | cursor owned imported parts accepted =>
    cases same with
    | call inner each =>
      rw [inner.staticOwner?_eq] at owned
      exact .cursor owned imported (parts.alike each) accepted
  | getter other free part object read =>
    cases same with
    | call inner each =>
      cases each
      rw [inner.isThis_eq] at other
      rw [inner.staticOwner?_eq] at free
      exact .getter other free (part.alike inner) object read
  | method other free part has parts accepted =>
    cases same with
    | call inner each =>
      rw [inner.isThis_eq] at other
      rw [inner.staticOwner?_eq] at free
      rw [each.length_eq]
      exact .method other free (part.alike inner) has (parts.alike each) accepted
  | cast named part castable =>
    cases same with
    | cast inner types => exact .cast (types.resolve_eq named) (part.alike inner) castable

/-- Expressions that are alike one by one have the same code. -/
theorem LowersAll.alike {scope : UnitScope} {locals : Locals} {start : Nat} {pools next : Pools}
    {terms others : List Term} {types : List Ty} {ops : List Op}
    (rules : LowersAll scope locals start pools terms types ops next)
    (same : Term.AllAlike terms others) :
    LowersAll scope locals start pools others types ops next := by
  cases rules with
  | nil =>
    cases same
    exact .nil
  | cons head tail =>
    cases same with
    | cons first rest => exact .cons (head.alike first) (tail.alike rest)

end

mutual

/-- Statements that are alike end the routine together. -/
theorem Stmt.Alike.ends_eq {statement other : Stmt} (alike : statement.Alike other) :
    statement.ends = other.ends := by
  cases alike with
  | choose test first second => rw [Stmt.ends, Stmt.ends, first.blockEnds_eq, second.blockEnds_eq]
  | _ => rfl

/-- Statements that are alike one by one end the routine together. -/
theorem Stmt.AllAlike.blockEnds_eq {statements others : List Stmt}
    (alike : Stmt.AllAlike statements others) : blockEnds statements = blockEnds others := by
  match alike with
  | .nil => rfl
  | .cons head .nil => rw [blockEnds, blockEnds, head.ends_eq]
  | .cons _ (.cons second more) =>
    have rest := (Stmt.AllAlike.cons second more).blockEnds_eq
    simpa [blockEnds] using rest

end

mutual

/-- Statements that are alike have the same code. -/
theorem LowersStmt.alike {scope : RoutineScope} {start : Nat} {locals : Locals} {pools : Pools}
    {statement other : Stmt} {block : LoweredBlock}
    (rule : LowersStmt scope start locals pools statement block) (same : statement.Alike other) :
    LowersStmt scope start locals pools other block := by
  match rule, same with
  | .declare named part assignable fresh, .declare types value =>
    exact .declare (types.resolve_eq named) (part.alike value) assignable fresh
  | .setField found part assignable, .setField value =>
    exact .setField found (part.alike value) assignable
  | .setLocal found part assignable, .setLocal value =>
    exact .setLocal found (part.alike value) assignable
  | .branch part truth thenPlace thenPart, .branch test body =>
    exact .branch (part.alike test) truth thenPlace (thenPart.alike body)
  | .choose part truth thenPlace thenPart elsePlace elsePart, .choose test first second =>
    exact .choose (part.alike test) truth thenPlace (thenPart.alike first) elsePlace
      (elsePart.alike second)
  | .loop part truth bodyPlace bodyPart endPlace, .loop test body =>
    exact .loop (part.alike test) truth bodyPlace (bodyPart.alike body) endPlace
  | .proceed inside, .proceed => exact .proceed inside
  | .leave inside, .leave => exact .leave inside
  | .finish without, .finish => exact .finish without
  | .answer wanted part assignable, .answer value =>
    exact .answer wanted (part.alike value) assignable
  | .perform called part, .perform value =>
    exact .perform (value.isCall_eq ▸ called) (part.alike value)

/-- Statements that are alike one by one have the same code. -/
theorem LowersBlock.alike {scope : RoutineScope} {start : Nat} {locals : Locals} {pools : Pools}
    {statements others : List Stmt} {block : LoweredBlock}
    (rules : LowersBlock scope start locals pools statements block)
    (same : Stmt.AllAlike statements others) :
    LowersBlock scope start locals pools others block := by
  match rules, same with
  | .nil, .nil => exact .nil
  | .cons head tail, .cons first rest => exact .cons (head.alike first) (tail.alike rest)

end

end QueryFusion.Script
