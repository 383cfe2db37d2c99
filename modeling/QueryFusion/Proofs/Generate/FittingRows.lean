import QueryFusion.Proofs.Generate.FittingNames
import QueryFusion.Proofs.Generate.RunCode
import QueryFusion.Proofs.Generate.RowTypes

/-!
# Names in the code of rows

In the code of a run every declared name starts with an underscore, and every other name can be
written and has its module imported. The names of classes and fields come from the plan; a scan that
can be compiled has been checked for names that can be written.
-/

namespace QueryFusion

open Generate Emit

/-- A scan whose names can be written. -/
structure ScanSpec.Readable (spec : ScanSpec) : Prop where
  classes : ∀ ofKey className, spec.shapeOf ofKey = .ofClass className →
    ∀ part ∈ dottedParts className, isIdentifier part = true
  fields : ∀ field ∈ spec.paths.zip spec.types, ∀ className,
    spec.shapeOf field.1.ofKey = .ofClass className → ∀ name, field.1.below = some name →
      isIdentifier name = true ∧ fieldOfGetter? (getterName name) = some name

namespace Generate

open Script (Term TypeName Ty Stmt isName isWordChar)

/-- A class that has been checked can be written. -/
theorem isIdentifier_of_checkShape {shape : Shape} {className : String}
    (accepted : checkShape shape = .ok ()) (named : shape = .ofClass className) :
    ∀ part ∈ dottedParts className, isIdentifier part = true := by
  rw [named, checkShape] at accepted
  split at accepted
  · rename_i valid
    exact List.all_eq_true.1 valid
  · cases accepted

/-- Every field of a scan that has been checked has been checked. -/
theorem checkField_of_mem {keyShape valueShape : Shape} {fields : List (FieldPath × DataType)}
    (accepted : checkFields keyShape valueShape fields = .ok ()) {field : FieldPath × DataType}
    (member : field ∈ fields) : checkField keyShape valueShape field.1 field.2 = .ok () := by
  induction fields with
  | nil => cases member
  | cons first rest step =>
    obtain ⟨⟨⟩, here, others⟩ := bind_eq_ok_iff.1 accepted
    rcases List.mem_cons.1 member with rfl | behind
    · exact here
    · exact step others behind

/-- A scan that can be compiled has names that can be written. -/
theorem readable_of_checkScan {spec : ScanSpec} (accepted : checkScan spec = .ok ()) :
    spec.Readable := by
  obtain ⟨-, fields⟩ := checkScan_ok accepted
  unfold checkScan at accepted
  split at accepted
  · cases accepted
  split at accepted
  · cases accepted
  obtain ⟨⟨⟩, keyShape, accepted⟩ := bind_eq_ok_iff.1 accepted
  obtain ⟨⟨⟩, valueShape, -⟩ := bind_eq_ok_iff.1 accepted
  constructor
  · intro ofKey className shaped
    cases ofKey with
    | true => exact isIdentifier_of_checkShape keyShape shaped
    | false => exact isIdentifier_of_checkShape valueShape shaped
  · intro field member className shaped name below
    have checked := checkField_of_mem fields member
    have shape : (if field.1.ofKey then spec.keyShape else spec.valueShape) = .ofClass className :=
      shaped
    simp only [checkField, shape, below] at checked
    split at checked
    · cases checked
    split at checked
    · cases checked
    split at checked
    · rename_i valid
      simpa using valid
    · cases checked

/-! ## Types of locals -/

/-- A name stands in front of the rest of a text that is split into words. -/
theorem wordsOf_append {name : List Char} {separator : Char} {rest : List Char}
    (wordy : ∀ c ∈ name, Symbol.isNameChar c = true)
    (parted : Symbol.isNameChar separator = false) :
    Symbol.wordsOf (name ++ separator :: rest) = name :: Symbol.wordsOf rest := by
  induction name with
  | nil => simp [Symbol.wordsOf, parted]
  | cons first others step =>
    rw [List.forall_mem_cons] at wordy
    rw [List.cons_append, Symbol.wordsOf, wordy.1, step wordy.2]
    rfl

/-- The parts of a dotted name are the first words of a text that starts with it. -/
theorem wordsOf_segmentsOf {name : List Char}
    (wordy : ∀ part ∈ segmentsOf name, ∀ c ∈ part, Symbol.isNameChar c = true) {separator : Char}
    (parted : Symbol.isNameChar separator = false) (rest : List Char) :
    Symbol.wordsOf (name ++ separator :: rest) = segmentsOf name ++ Symbol.wordsOf rest := by
  induction name with
  | nil => simp [Symbol.wordsOf, segmentsOf, parted]
  | cons c others step =>
    rw [segmentsOf] at wordy ⊢
    by_cases point : c = '.'
    · rw [if_pos point] at wordy ⊢
      have plain : Symbol.isNameChar c = false := by
        rw [point]
        decide
      rw [List.cons_append, Symbol.wordsOf, plain, step fun part member =>
        wordy part (List.mem_cons_of_mem _ member)]
      rfl
    · rw [if_neg point] at wordy ⊢
      obtain ⟨first, more, shape⟩ := List.exists_cons_of_ne_nil (segmentsOf_ne_nil others)
      rw [shape] at wordy step ⊢
      rw [List.forall_mem_cons, List.forall_mem_cons] at wordy
      obtain ⟨⟨here, behind⟩, further⟩ := wordy
      rw [List.cons_append, Symbol.wordsOf, here, step (List.forall_mem_cons.2 ⟨behind, further⟩)]
      rfl

/-- The type of the objects of a class can be used when its modules are imported. -/
theorem fits_object {imports : List String} {className : String}
    (parts : ∀ part ∈ dottedParts className, isIdentifier part = true)
    (provided : ∀ moduleName ∈ Symbol.modulesOfType (LocalType.object className).name,
      moduleName ∈ imports) :
    (writtenType (LocalType.object className).ty).Fits (Usable imports) := by
  have object : Usable imports "Object" := .of_free (by decide) (by decide)
  refine ⟨object, fun argument named part member => ?_⟩
  obtain rfl : className = argument := Option.some.inj named
  refine ⟨isName_of_isIdentifier (parts part member), fun moduleName found =>
    provided moduleName ?_⟩
  have wordy : ∀ word ∈ segmentsOf className.toList, ∀ c ∈ word, Symbol.isNameChar c = true := by
    intro word inside
    have wordy := wordy_of_isIdentifier (parts _ (List.mem_map_of_mem inside))
    unfold Wordy at wordy
    rwa [String.toList_ofList] at wordy
  obtain ⟨word, inside, rfl⟩ := List.mem_map.1 member
  have text : (LocalType.object className).name.toList =
      "Object".toList ++ '<' :: (className.toList ++ '>' :: []) := by
    show ("Object<" ++ className ++ ">").toList = _
    simp
  have words : Symbol.wordsOf (LocalType.object className).name.toList =
      "Object".toList :: (segmentsOf className.toList ++ Symbol.wordsOf []) := by
    have start : ∀ c ∈ "Object".toList, Symbol.isNameChar c = true := List.all_eq_true.1 (by decide)
    rw [text, wordsOf_append start (by decide), wordsOf_segmentsOf wordy (by decide)]
  refine List.mem_filterMap.2 ⟨word, ?_, found⟩
  rw [words]
  exact List.mem_cons_of_mem _ (List.mem_append_left _ inside)

/-! ## Fields of scans -/

/-- A Latin letter stays one as a capital. -/
theorem isWordChar_toUpper {c : Char} (ascii : c.toNat < 128) (word : isWordChar c = true) :
    isWordChar c.toUpper = true := by
  have table : ∀ number < 128, isWordChar (Char.ofNat number) = true →
      isWordChar (Char.ofNat number).toUpper = true := by decide +kernel
  rw [← Char.ofNat_toNat c] at word ⊢
  exact table c.toNat ascii word

/-- The name of a getter can be used anywhere. -/
theorem usable_getterName {imports : List String} {field : String}
    (identifier : isIdentifier field = true) : Usable imports (getterName field) := by
  have wordy := wordy_of_isIdentifier identifier
  unfold isIdentifier at identifier
  unfold Wordy at wordy
  split at identifier
  · cases identifier
  rename_i first rest shape
  simp only [Bool.and_eq_true, Bool.or_eq_true, beq_iff_eq] at identifier
  obtain ⟨⟨begins, -⟩, -⟩ := identifier
  rw [shape, List.forall_mem_cons] at wordy
  have ascii : first.toNat < 128 := by
    rcases begins with letter | rfl
    · exact ascii_of_isAlphanum (by rw [Char.isAlphanum, letter, Bool.true_or])
    · decide
  have text : (getterName field).toList = 'g' :: 'e' :: 't' :: first.toUpper :: rest := by
    rw [getterName, shape]
    simp
  refine .of_begins text (by decide) (by decide) ?_ (isKeyword_eq_false 3 ?_)
  · simp only [List.forall_mem_cons]
    exact ⟨by decide, by decide, isWordChar_toUpper ascii wordy.1, wordy.2⟩
  · have other : ∀ keyword ∈ Script.keywords, keyword.toList.take 3 ≠ ['g', 'e', 't'] := by decide
    rw [text]
    exact other

/-- The fields of the unit start with an underscore. -/
theorem underscored_fieldOf {id : NodeId} (positive : 0 ≤ id) (kind : VariableKind) :
    Underscored (kind.fieldOf id) := by
  have suffix : Wordy kind.suffix := by
    cases kind <;> decide
  exact underscored_stemOf positive suffix

section Scanning

variable {id : NodeId} {spec : ScanSpec} {ofKey : Bool} {locals next : ScanLocals}
  {top entry : Local}
  {done bindings : List Binding} {path : FieldPath} {type : DataType} {imports : List String}

/-- The modules of the types of all declared locals are imported. -/
def Provides (imports : List String) (bindings : List Binding) : Prop :=
  ∀ binding ∈ bindings, ∀ moduleName ∈ Symbol.modulesOfType binding.entry.type.name,
    moduleName ∈ imports

/-- Some of the declarations. -/
theorem Provides.left {first second : List Binding}
    (provides : Provides imports (first ++ second)) :
    Provides imports first :=
  fun binding member => provides binding (List.mem_append_left _ member)

/-- Some of the declarations. -/
theorem Provides.right {first second : List Binding}
    (provides : Provides imports (first ++ second)) :
    Provides imports second :=
  fun binding member => provides binding (List.mem_append_right _ member)

/-- What is declared has a proper name. -/
theorem Declared.underscored (declared : Declared bindings entry)
    (proper : ∀ binding ∈ bindings, Proper imports binding) : Underscored entry.name := by
  obtain ⟨binding, member, rfl⟩ := declared
  exact (proper binding member).1

/-- The name of a key or value. -/
theorem wordy_sideName (ofKey : Bool) : Wordy (sideName ofKey) := by
  cases ofKey <;> decide

/-- A method without an owner in the engine can be used anywhere. -/
theorem usable_sideName (ofKey : Bool) : Usable imports (sideName ofKey) := by
  cases ofKey <;> exact .of_free (by decide) (by decide)

/-- The whole key or value is declared properly. -/
theorem TopCode.proper (code : TopCode id spec ofKey locals top next bindings) (positive : 0 ≤ id)
    (readable : spec.Readable) (provides : Provides imports bindings) :
    ∀ binding ∈ bindings, Proper imports binding := by
  cases code with
  | known => exact fun _ member => nomatch member
  | read missing =>
    have point : Wordy "_" := by decide
    have named : Underscored (topName id ofKey) :=
      ((underscored_stemOf positive (by decide)).append point).append (wordy_sideName ofKey)
    have read : (readTerm id ofKey).Fits (Usable imports) :=
      ⟨⟨trivial, (underscored_fieldOf positive .scanCursor).usable⟩, usable_sideName ofKey, trivial⟩
    rw [List.forall_mem_singleton]
    have provided := provides _ (List.mem_singleton_self _)
    revert provided
    cases shape : spec.shapeOf ofKey with
    | ofClass className =>
      intro provided
      have typed := fits_object (readable.classes ofKey className shape) provided
      exact Inlining.proper_declare named typed ⟨read, typed⟩
    | scalar source =>
      intro provided
      exact Inlining.proper_declare named Inlining.fits_value read

/-- The name of a field. -/
theorem Numerable.underscored {own name : String} (numerable : Numerable own name)
    (underscored : Underscored own) : Underscored name := by
  rcases numerable with rfl | ⟨number, rfl⟩
  · exact underscored
  · have point : Wordy "_" := by decide
    exact (underscored.append point).append (wordy_toString number)

/-- A field is declared properly. -/
theorem FieldCode.proper (code : FieldCode id spec path type locals entry next bindings)
    (positive : 0 ≤ id) (readable : spec.Readable)
    (member : (path, type) ∈ spec.paths.zip spec.types) (agrees : locals.Agrees spec done)
    (before : ∀ binding ∈ done, Proper imports binding) (provides : Provides imports bindings) :
    ∀ binding ∈ bindings, Proper imports binding := by
  have side : Underscored (stemOf id (sideName path.ofKey)) :=
    underscored_stemOf positive (wordy_sideName path.ofKey)
  cases code with
  | whole below shape read => exact read.proper positive readable provides
  | scalar below shape read named =>
    have tops := read.proper positive readable provides.left
    obtain ⟨-, declared, -⟩ := read.agrees agrees
    have top := declared.underscored (List.forall_mem_append.2 ⟨before, tops⟩)
    exact Inlining.proper_append tops (named.underscored side) (Inlining.fits_scalar type)
      ⟨top.usable, Inlining.fits_scalar type⟩
  | @field top next bindings className field name below shape read named =>
    have tops := read.proper positive readable provides.left
    obtain ⟨-, declared, -⟩ := read.agrees agrees
    have top := declared.underscored (List.forall_mem_append.2 ⟨before, tops⟩)
    obtain ⟨identifier, -⟩ := readable.fields _ member className shape field below
    have point : Wordy "_" := by decide
    have own := (side.append point).append (wordy_of_isIdentifier identifier)
    refine Inlining.proper_append tops (named.underscored own) (Inlining.fits_scalar type) ?_
    exact ⟨⟨top.usable, trivial⟩, trivial, ⟨top.usable, usable_getterName identifier, trivial⟩,
      Inlining.fits_scalar type⟩

/-- All fields are declared properly. -/
theorem FieldsCode.proper {fields : List (FieldPath × DataType)} {row : List Local}
    (code : FieldsCode id spec fields locals row bindings) (positive : 0 ≤ id)
    (readable : spec.Readable) (listed : ∀ field ∈ fields, field ∈ spec.paths.zip spec.types)
    (agrees : locals.Agrees spec done) (before : ∀ binding ∈ done, Proper imports binding)
    (provides : Provides imports bindings) : ∀ binding ∈ bindings, Proper imports binding := by
  induction code generalizing done with
  | nil => exact fun _ member => nomatch member
  | again seen further step =>
    exact step (fun field member => listed field (List.mem_cons_of_mem _ member)) agrees before
      provides
  | fresh read further step =>
    have first := read.proper positive readable (listed _ List.mem_cons_self) agrees before
      provides.left
    obtain ⟨typed, declared, behind⟩ := read.agrees agrees
    have others := step (fun field member => listed field (List.mem_cons_of_mem _ member))
      (behind.withField typed declared) (List.forall_mem_append.2 ⟨before, first⟩) provides.right
    exact List.forall_mem_append.2 ⟨first, others⟩

end Scanning

/-! ## Steps -/

/-- All names in a step can be used, and what it declares starts with an underscore. -/
def RowStep.Proper (imports : List String) (step : RowStep) : Prop :=
  (∀ binding ∈ step.bindings, Underscored binding.entry.name) ∧ step.statement.Fits (Usable imports)

section Running

variable {id : NodeId} {inputs row : List Local} {imports : List String}

/-- Proper declarations are proper steps. -/
theorem RowStep.proper_bind {bindings : List Binding}
    (proper : ∀ binding ∈ bindings, Generate.Proper imports binding) :
    ∀ step ∈ bindings.map RowStep.bind, step.Proper imports := by
  intro step member
  obtain ⟨binding, inside, rfl⟩ := List.mem_map.1 member
  obtain ⟨named, fits⟩ := proper binding inside
  refine ⟨fun other here => ?_, fits⟩
  rw [List.mem_singleton.1 here]
  exact named

/-- What proper steps declare starts with an underscore. -/
theorem RowStep.underscored {steps : List RowStep} (proper : ∀ step ∈ steps, step.Proper imports) :
    ∀ binding ∈ steps.flatMap RowStep.bindings, Underscored binding.entry.name := by
  intro binding member
  obtain ⟨step, inside, here⟩ := List.mem_flatMap.1 member
  exact (proper step inside).1 binding here

/-- A test of a proper name is proper. -/
theorem RowStep.proper_skip {condition : Local} (named : Usable imports condition.name) :
    (RowStep.skip condition).Proper imports :=
  ⟨fun _ member => (nomatch member), ⟨⟨named, trivial⟩, named⟩, trivial, trivial⟩

/-- A condition is tested properly. -/
theorem TestCode.proper {kind : VariableKind} {condition : Expr} {steps : List RowStep}
    (code : TestCode id kind inputs condition steps) (positive : 0 ≤ id)
    (named : ∀ input ∈ inputs, Underscored input.name) (rows : "sql.row" ∈ imports) :
    ∀ step ∈ steps, step.Proper imports := by
  have stem : Underscored (stemOf id "filter") := underscored_stemOf positive (by decide)
  have suits : Inlining.Suits ⟨stemOf id "filter", inputs⟩ imports :=
    ⟨stem, fun input member => (named input member).usable⟩
  have kept : (Keeper.field (kind.fieldOf id)).term.Fits (Usable imports) :=
    ⟨trivial, (underscored_fieldOf positive kind).usable⟩
  cases code with
  | boolean emits typed =>
    obtain ⟨entry, proper⟩ := (emits.importing rows).fits suits kept
    refine List.forall_mem_append.2 ⟨RowStep.proper_bind proper, ?_⟩
    exact List.forall_mem_singleton.2 (RowStep.proper_skip entry)
  | @cast emitted entry bindings emits other =>
    obtain ⟨usable, proper⟩ := (emits.importing rows).fits suits kept
    have passed : Underscored (passedLocal id).name := stem.append (by decide)
    have value : (passedBinding id entry).value.Fits (Usable imports) := by
      unfold passedBinding
      cases entry.type with
      | object className => exact ⟨⟨usable, Inlining.fits_value⟩, Inlining.fits_scalar .boolean⟩
      | scalar | value | row => exact ⟨usable, Inlining.fits_scalar .boolean⟩
    have binding : Generate.Proper imports (passedBinding id entry) :=
      Inlining.proper_declare passed (Inlining.fits_scalar .boolean) value
    refine List.forall_mem_append.2 ⟨RowStep.proper_bind proper, List.forall_mem_cons.2 ⟨?_,
      List.forall_mem_singleton.2 (RowStep.proper_skip passed.usable)⟩⟩
    exact RowStep.proper_bind (List.forall_mem_singleton.2 binding) _ (List.mem_singleton_self _)

/-- The expressions of a projection are declared properly. -/
theorem ProjectsCode.proper {wide : Prop} {expressions : List Expr} {index : Nat}
    {projected : List Local} {bindings : List Binding}
    (code : ProjectsCode wide id row expressions index projected bindings)
    (positive : 0 ≤ id) (named : ∀ input ∈ row, Underscored input.name)
    (rows : "sql.row" ∈ imports) : ∀ binding ∈ bindings, Generate.Proper imports binding := by
  have words : Usable imports "get" := .of_free (by decide) (by decide)
  induction code with
  | nil => exact fun _ member => nomatch member
  | @cons _ _ _ index _ _ _ _ emits small further step =>
    have project : Wordy "project_" := by decide
    have suits : (projection id row index).Suits imports :=
      ⟨underscored_stemOf positive (project.append (wordy_toString index)),
        fun input member => (named input member).usable⟩
    have kept : (projectKeeper id index).term.Fits (Usable imports) :=
      ⟨⟨trivial, (underscored_fieldOf positive .projectExpressions).usable⟩, words,
        trivial, trivial⟩
    exact List.forall_mem_append.2 ⟨((emits.importing rows).fits suits kept).2, step⟩

end Running

/-- The steps of a run are proper. -/
theorem RowCode.proper {wide : Prop} {plan : Plan} {row : List Local} {steps : List RowStep}
    (code : RowCode wide plan row steps) (compilable : plan.isCompilable = true)
    (positive : ∀ id ∈ plan.runIds, 0 ≤ id) {imports : List String} (rows : "sql.row" ∈ imports)
    (provides : Provides imports (steps.flatMap RowStep.bindings)) :
    ∀ step ∈ steps, step.Proper imports := by
  induction code with
  | @scan id spec fields row bindings steps read distinct tests apart selected =>
    have positive : 0 ≤ id := positive id (List.mem_singleton_self _)
    rw [List.flatMap_append, RowStep.flatMap_bindings_bind] at provides
    have proper := read.proper positive (readable_of_checkScan
      (Plan.checkScan_of_isCompilable compilable)) (fun _ member => member) .empty
        (fun _ member => nomatch member) provides.left
    refine List.forall_mem_append.2 ⟨RowStep.proper_bind proper, ?_⟩
    obtain ⟨-, declared⟩ := read.types_eq
    generalize spec.filter = filter at tests
    cases tests with
    | none => exact fun _ member => nomatch member
    | some tests =>
      exact tests.proper positive (fun input member => (declared input member).underscored proper)
        rows
  | @filter id condition input row before steps below tests apart step =>
    rw [List.flatMap_append] at provides
    have earlier := step compilable (fun other member =>
      positive other (List.mem_append_left _ member)) provides.left
    have here : 0 ≤ id := positive id (List.mem_append_right _ (List.mem_singleton_self _))
    refine List.forall_mem_append.2 ⟨earlier, tests.proper here (fun input member => ?_) rows⟩
    obtain ⟨binding, declared, rfl⟩ := below.types_eq.2 input member
    exact RowStep.underscored earlier binding declared
  | @project id expressions input row projected before bindings below projects apart step =>
    rw [List.flatMap_append] at provides
    have earlier := step compilable (fun other member =>
      positive other (List.mem_append_left _ member)) provides.left
    have here : 0 ≤ id := positive id (List.mem_append_right _ (List.mem_singleton_self _))
    refine List.forall_mem_append.2 ⟨earlier, RowStep.proper_bind (projects.proper here
      (fun input member => ?_) rows)⟩
    obtain ⟨binding, declared, rfl⟩ := below.types_eq.2 input member
    exact RowStep.underscored earlier binding declared

end Generate

end QueryFusion
