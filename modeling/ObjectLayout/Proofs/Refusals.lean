import ObjectLayout.Proofs.Dependencies
import ObjectLayout.Proofs.Overflow

/-!
# Why a class is refused

A class that cannot be laid out is refused because of itself, or because of a class that it asks
for. In the first case the error names the class; an overflow also names an attribute that the class
declares, with the text of its type or of an array in it. In the second case the error is that of
the other class, put down to the attribute where it is an overflow. `Refusal` lists these cases, and
every build that is refused is one of them (`refusal_of_freshAnswer`). What can be said of refused
builds is proved by `freshAnswer_error_induction`, which follows an error down the nested builds.
-/

set_option autoImplicit false

namespace ObjectLayout

open LayoutM (exists_eq_ok_of_bind of_bind_eq_error)

/-- The arrays that occur in a type. -/
def AttributeType.arrays : AttributeType → List AttributeType
  | array element length => array element length :: element.arrays
  | pointer target => target.arrays
  | primitive _ | object | reference _ | embedded _ => []

/-- The text of a type and the texts of the arrays that occur in it. -/
def AttributeType.texts (type : AttributeType) : List String :=
  type.text :: type.arrays.map text

/-- The error is put down to the class, and is neither a cycle nor an overflow. -/
def LayoutError.IsFaultOf (cls : ClassId) : LayoutError → Prop
  | cyclicDefinition .. | sizeOverflow .. => False
  | error => error.class? = some cls

/-- The class is refused with the error by what is known of it. -/
def Knowledge.Refuses (known : Knowledge) (cls : ClassId) (error : LayoutError) : Prop :=
  known cls = .error error

/-- Why a class is refused, where other classes may be `Refused`. -/
inductive Refusal (Refused : ClassId → LayoutError → Prop) (definition : ClassDefinition) :
    LayoutError → Prop where
  /-- A base is refused. -/
  | base {base : ClassId} {error : LayoutError} (hbase : base ∈ definition.bases)
      (h : Refused base error) : Refusal Refused definition error
  /-- A class is refused that an attribute stores in place. -/
  | stored {entry : String × AttributeType} {cls : ClassId} {error : LayoutError}
      (hentry : entry ∈ definition.attributes) (hcls : entry.2.embeddedClass? = some cls)
      (h : Refused cls error) :
      Refusal Refused definition (error.inAttribute definition.id entry.1)
  /-- An attribute does not fit. -/
  | overflow {entry : String × AttributeType} {text : String}
      (hentry : entry ∈ definition.attributes) (htext : text ∈ entry.2.texts) :
      Refusal Refused definition (.sizeOverflow definition.id entry.1 text)
  /-- A check fails that concerns the class alone. -/
  | fault {error : LayoutError} (herror : error.IsFaultOf definition.id) :
      Refusal Refused definition error

namespace Refusal

variable {Refused Refused' : ClassId → LayoutError → Prop} {definition : ClassDefinition}
  {error : LayoutError}

/-- A refusal stays one where more classes are refused. -/
theorem mono (hle : ∀ cls error, Refused cls error → Refused' cls error)
    (h : Refusal Refused definition error) : Refusal Refused' definition error := by
  cases h with
  | base hbase hrefused => exact .base hbase (hle _ _ hrefused)
  | stored hentry hcls hrefused => exact .stored hentry hcls (hle _ _ hrefused)
  | overflow hentry htext => exact .overflow hentry htext
  | fault herror => exact .fault herror

/-- Either the error of another class is passed on as it is, or the class itself is named. A cycle
is always passed on. -/
theorem passes_or_names (h : Refusal Refused definition error) :
    (∃ other, (other ∈ definition.bases ∨
        ∃ entry ∈ definition.attributes, entry.2.embeddedClass? = some other) ∧
      Refused other error) ∨
    (error.class? = some definition.id ∧ ∀ cls chain, error ≠ .cyclicDefinition cls chain) := by
  cases h with
  | base hbase hrefused => exact .inl ⟨_, .inl hbase, hrefused⟩
  | @stored entry cls error hentry hcls hrefused =>
    cases error with
    | sizeOverflow => exact .inr ⟨rfl, by simp [LayoutError.inAttribute]⟩
    | _ => exact .inl ⟨cls, .inr ⟨entry, hentry, hcls⟩, hrefused⟩
  | overflow => exact .inr ⟨rfl, by simp⟩
  | fault herror =>
    refine .inr ?_
    cases error <;> simp_all [LayoutError.IsFaultOf]

end Refusal

/-! ## Tables -/

namespace AttributeTable

variable {t t' : AttributeTable} {name : String} {type : AttributeType} {declared : Declared}
  {error : LayoutError}

/-- A declaration is refused by a fault of the owner. -/
theorem fault_of_declare (h : t.declare name type = .error error) : error.IsFaultOf t.owner := by
  unfold declare at h
  split at h
  · cases h
    rfl
  · split at h
    · cases h
    · split at h
      · cases h
      · cases h
        rfl

/-- Declarations are refused by a fault of the owner. -/
theorem fault_of_declareAll {entries : List (String × AttributeType)}
    (h : t.declareAll entries = (t', .error error)) : error.IsFaultOf t.owner := by
  induction entries generalizing t t' with
  | nil => cases h
  | cons entry rest ih =>
    obtain ⟨name, type⟩ := entry
    unfold declareAll at h
    split at h
    · next hfirst =>
      cases h
      exact fault_of_declare hfirst
    · next u hfirst =>
      rw [← owner_of_declare hfirst]
      exact ih h
    · next u hfirst =>
      rw [← owner_of_declare hfirst]
      rcases hrest : u.declareAll rest with ⟨v, answer⟩
      rw [hrest] at h
      cases answer with
      | ok repeated => cases h
      | error error' =>
        cases h
        exact ih hrest

/-- A table of own attributes is refused by a fault of the owner. -/
theorem fault_of_ofList {owner : ClassId} {entries : List (String × AttributeType)}
    (h : ofList owner entries = .error error) : error.IsFaultOf owner := by
  unfold ofList at h
  split at h
  · cases h
  · next hall =>
    cases h
    exact fault_of_declareAll hall

end AttributeTable

/-- The attributes of a class and its parent are refused by a fault of the class. -/
theorem fault_of_inheritedAttributes {decl : ClassDecl} {parent : Option Descriptor}
    {own : AttributeTable} {error : LayoutError}
    (h : inheritedAttributes decl parent own = .error error) : error.IsFaultOf decl.id := by
  cases parent with
  | none => cases h
  | some p =>
    unfold inheritedAttributes at h
    rcases hall : (p.attributes.derive decl.id).extendFrom own with ⟨t, answer⟩
    simp only [hall] at h
    cases answer with
    | ok names => cases h
    | error error' =>
      cases h
      exact AttributeTable.fault_of_declareAll hall

namespace DispatchTable

variable {t t' : DispatchTable} {method : MethodDecl} {placement : Placement} {error : LayoutError}

/-- A method that is accepted does not change the owner. -/
theorem owner_of_addMethod (h : t.addMethod method = .ok (t', placement)) :
    t'.owner = t.owner := by
  unfold addMethod at h
  simp only at h
  split at h
  · cases h
  · split at h
    · cases h
      rfl
    · split at h
      · split at h
        · cases h
          rfl
        · cases h
      · cases h
        rfl

/-- A method is refused by a fault of the owner. -/
theorem fault_of_addMethod (h : t.addMethod method = .error error) :
    error.IsFaultOf t.owner := by
  unfold addMethod at h
  simp only at h
  split at h
  · cases h
    rfl
  · split at h
    · cases h
    · split at h
      · split at h
        · cases h
        · cases h
          rfl
      · cases h

/-- Methods are refused by a fault of the owner. -/
theorem fault_of_addMethods {methods : List MethodDecl}
    (h : t.addMethods methods = .error error) : error.IsFaultOf t.owner := by
  induction methods generalizing t with
  | nil => cases h
  | cons method rest ih =>
    rw [addMethods_cons] at h
    rcases of_bind_eq_error h with hfirst | ⟨⟨u, placement⟩, hfirst, hrest⟩
    · exact fault_of_addMethod hfirst
    · rw [← owner_of_addMethod hfirst]
      exact ih hrest

end DispatchTable

/-! ## Fields -/

section Fields

variable {known : Knowledge} {pointerSize : Nat} {user : ClassId} {type : AttributeType}
  {draft : Draft} {segment last : Segment} {error : LayoutError}

/-- A type has no layout because of a class that it embeds or of an array in it. -/
theorem Knowledge.of_fieldSpace_eq_error
    (h : known.fieldSpace pointerSize user type = .error error) :
    (∃ cls, type.embeddedClass? = some cls ∧
      (known cls = .error error ∨ error = .unresolvedType user cls)) ∨
    ∃ array ∈ type.arrays, error = .sizeOverflow ⟨""⟩ "" array.text := by
  induction type with
  | primitive scalar => cases h
  | object => cases h
  | pointer target => cases h
  | reference cls => cases h
  | embedded cls =>
    rw [fieldSpace_embedded_eq] at h
    refine .inl ⟨cls, rfl, ?_⟩
    rcases of_bind_eq_error h with hknown | ⟨answer, -, hanswer⟩
    · exact .inl hknown
    · cases answer with
      | none =>
        cases hanswer
        exact .inr rfl
      | some d => cases hanswer
  | array element length ih =>
    rw [fieldSpace_array_eq] at h
    rcases of_bind_eq_error h with helement | ⟨space, -, harray⟩
    · rcases ih helement with hstored | ⟨inner, hinner, heq⟩
      · exact .inl hstored
      · exact .inr ⟨inner, List.mem_cons_of_mem _ hinner, heq⟩
    · refine .inr ⟨.array element length, List.mem_cons_self, ?_⟩
      unfold FieldLayout.arrayOf at harray
      split at harray
      · cases harray
      · cases harray
        rfl

/-- A field that cannot be introduced overflows. -/
theorem Draft.introduce_eq_error {name : String} {field : FieldLayout}
    (h : draft.introduce segment name type field = .error error) :
    error = draft.overflow name type := by
  unfold introduce at h
  cases hstart : segment.cursor.alignTo field.alignment with
  | none =>
    rw [hstart] at h
    cases h
    rfl
  | some start =>
    rw [hstart] at h
    simp only [Option.elim_some, bind, Except.bind] at h
    cases hstop : start.advance field.size with
    | none =>
      rw [hstop] at h
      cases h
      rfl
    | some stop =>
      rw [hstop] at h
      cases h

/-- The field at which placing fields stops is not placed by the parent. -/
theorem Draft.of_placeFields_eq_error {view : TypeEnv Unit}
    {entries : List (String × AttributeType)}
    (h : (draft.placeFields view (fun _ => pure ()) segment entries).answer = .error error) :
    ∃ entry ∈ entries, draft.inherited? entry.1 = none ∧
      ((draft.sizeField view entry.1 entry.2).answer = .error error ∨
        error = draft.overflow entry.1 entry.2) := by
  induction entries generalizing segment with
  | nil => cases h
  | cons entry rest ih =>
    obtain ⟨name, type⟩ := entry
    unfold placeFields at h
    rw [LayoutM.answer_bind] at h
    rcases of_bind_eq_error h with hfirst | ⟨next, -, hrest⟩
    · rw [answer_placeField] at hfirst
      cases hplace : draft.inherited? name with
      | some v =>
        rw [hplace] at hfirst
        cases hfirst
      | none =>
        rw [hplace] at hfirst
        refine ⟨(name, type), List.mem_cons_self, hplace, ?_⟩
        rcases of_bind_eq_error hfirst with hsize | ⟨field, -, hintroduce⟩
        · exact .inl hsize
        · exact .inr (introduce_eq_error hintroduce)
    · obtain ⟨entry, hentry, hrefused⟩ := ih hrest
      exact ⟨entry, List.mem_cons_of_mem _ hentry, hrefused⟩

/-- The field that was introduced last is not placed by the parent. -/
theorem Draft.lastOwn_of_placeFields {view : TypeEnv Unit} {entries : List (String × AttributeType)}
    (h : (draft.placeFields view (fun _ => pure ()) segment entries).answer = .ok last)
    {entry : String × AttributeType} (hlast : last.lastOwn = some entry) :
    segment.lastOwn = some entry ∨ (entry ∈ entries ∧ draft.inherited? entry.1 = none) := by
  induction entries generalizing segment with
  | nil =>
    cases h
    exact .inl hlast
  | cons first rest ih =>
    obtain ⟨name, type⟩ := first
    unfold placeFields at h
    rw [LayoutM.answer_bind] at h
    obtain ⟨next, hfirst, h⟩ := exists_eq_ok_of_bind h
    rcases ih h with hnext | ⟨hmem, hplace⟩
    · rw [answer_placeField] at hfirst
      cases hplace : draft.inherited? name with
      | some v =>
        rw [hplace] at hfirst
        cases hfirst
        exact .inl hnext
      | none =>
        rw [hplace] at hfirst
        obtain ⟨field, -, hintroduce⟩ := exists_eq_ok_of_bind hfirst
        obtain ⟨start, -, hintroduce⟩ := exists_eq_ok_of_bind hintroduce
        obtain ⟨stop, -, hintroduce⟩ := exists_eq_ok_of_bind hintroduce
        cases hintroduce
        cases hnext
        exact .inr ⟨List.mem_cons_self, hplace⟩
    · exact .inr ⟨List.mem_cons_of_mem _ hmem, hplace⟩

/-- An instance is too large because of the attribute that was introduced last. -/
theorem Draft.of_instanceSize_eq_error (h : draft.instanceSize segment = .error error) :
    ∃ entry, segment.lastOwn = some entry ∧ error = draft.overflow entry.1 entry.2 := by
  unfold instanceSize at h
  split at h
  · cases h
  · next name type _ hlast =>
    cases h
    exact ⟨(name, type), hlast, rfl⟩
  · cases h

end Fields

/-! ## Classes -/

section Classes

variable {known : Knowledge} {definition : ClassDefinition} {error : LayoutError}

/-- An attribute whose type has no layout refuses the class. -/
theorem Refusal.of_fieldSpace {entry : String × AttributeType}
    (hentry : entry ∈ definition.attributes) {pointerSize : Nat}
    (h : known.fieldSpace pointerSize definition.id entry.2 = .error error) :
    Refusal known.Refuses definition (error.inAttribute definition.id entry.1) := by
  rcases Knowledge.of_fieldSpace_eq_error h with ⟨cls, hcls, hknown | rfl⟩ | ⟨array, harray, rfl⟩
  · exact .stored hentry hcls hknown
  · exact .fault rfl
  · exact .overflow hentry (List.mem_cons_of_mem _ (List.mem_map.2 ⟨array, harray, rfl⟩))

/-- A class whose attributes cannot be placed is refused because of one that it declares. -/
theorem Refusal.of_setAttributes {config : LayoutConfig} {parent : Option Descriptor}
    {own table : AttributeTable} (hparent : ∀ p, parent = some p → Sound p)
    (hown : AttributeTable.ofList definition.id definition.attributes = .ok own)
    (htable : inheritedAttributes definition.toClassDecl parent own = .ok table)
    (h : ((Draft.ofDecl definition.toClassDecl parent config).setAttributes table
      (known.env config.pointerSize definition.id) fun _ => pure ()).answer = .error error) :
    Refusal known.Refuses definition error := by
  have hdeclared : ∀ entry ∈ table.toList,
      (Draft.ofDecl definition.toClassDecl parent config).inherited? entry.1 = none →
      entry ∈ definition.attributes :=
    fun _ hentry hplace => mem_attributes_of_inheritedPlace? hparent hown htable hentry hplace
  unfold Draft.setAttributes at h
  rw [LayoutM.answer_bind] at h
  rcases of_bind_eq_error h with hfields | ⟨segment, hsegment, h⟩
  · obtain ⟨entry, hentry, hplace, hsize | rfl⟩ := Draft.of_placeFields_eq_error hfields
    · have hattribute := hdeclared entry hentry hplace
      unfold Draft.sizeField at hsize
      rw [LayoutM.answer_adapt] at hsize
      cases hspace : (entry.2.layout (known.env config.pointerSize definition.id)).answer with
      | ok field =>
        rw [hspace] at hsize
        cases hsize
      | error error' =>
        rw [hspace] at hsize
        cases hsize
        exact .of_fieldSpace hattribute hspace
    · exact .overflow (hdeclared entry hentry hplace) List.mem_cons_self
  · rw [LayoutM.answer_bind, LayoutM.answer_liftM] at h
    rcases of_bind_eq_error h with hsize | ⟨size, -, h⟩
    · obtain ⟨entry, hlast, rfl⟩ := Draft.of_instanceSize_eq_error hsize
      rcases Draft.lastOwn_of_placeFields hsegment hlast with hnone | ⟨hentry, hplace⟩
      · cases hnone
      · exact .overflow (hdeclared entry hentry hplace) List.mem_cons_self
    · cases h

/-- A class that cannot be laid out is refused. -/
theorem Refusal.of_layOut {config : LayoutConfig} {parent : Option Descriptor}
    (hparent : ∀ p, parent = some p → Sound p)
    (h : known.layOut config definition parent = .error error) :
    Refusal known.Refuses definition error := by
  rcases of_bind_eq_error h with hown | ⟨own, hown, h⟩
  · exact .fault (AttributeTable.fault_of_ofList hown)
  rcases of_bind_eq_error h with htable | ⟨table, htable, h⟩
  · exact .fault (fault_of_inheritedAttributes htable)
  rcases of_bind_eq_error h with hdraft | ⟨draft, hdraft, h⟩
  · exact .of_setAttributes hparent hown htable hdraft
  rcases of_bind_eq_error h with hdispatch | ⟨dispatch, -, h⟩
  · have howner :
        (Registry.inheritMethods definition.toClassDecl parent).owner = definition.id := by
      cases parent <;> rfl
    exact .fault (howner ▸ DispatchTable.fault_of_addMethods hdispatch)
  · -- Both tables are attached by now.
    unfold Draft.setAttributes at hdraft
    rw [LayoutM.answer_bind] at hdraft
    obtain ⟨segment, -, hdraft⟩ := exists_eq_ok_of_bind hdraft
    rw [LayoutM.answer_bind] at hdraft
    obtain ⟨size, -, hdraft⟩ := exists_eq_ok_of_bind hdraft
    cases hdraft
    cases h

/-- The parents among the bases cannot be found because of one of the bases. -/
theorem Knowledge.of_parents_eq_error {bases : List ClassId} {found : List Descriptor}
    (h : known.parents found bases = .error error) : ∃ base ∈ bases, known base = .error error := by
  induction bases generalizing found with
  | nil => cases h
  | cons base rest ih =>
    unfold parents at h
    rcases of_bind_eq_error h with hbase | ⟨answer, -, h⟩
    · exact ⟨base, List.mem_cons_self, hbase⟩
    · have hrest : ∃ found, known.parents found rest = .error error := by
        cases answer with
        | none => exact ⟨found, h⟩
        | some descriptor =>
          dsimp only at h
          split at h
          · exact ⟨found, h⟩
          · exact ⟨found ++ [descriptor], h⟩
      obtain ⟨found', hrest⟩ := hrest
      obtain ⟨base', hmem, hbase'⟩ := ih hrest
      exact ⟨base', List.mem_cons_of_mem _ hmem, hbase'⟩

/-- A declaration that declares no class is a fault of it. -/
theorem fault_of_validate (h : definition.validate = .error error) :
    error.IsFaultOf definition.id := by
  unfold ClassDecl.validate at h
  split at h
  · cases h
    rfl
  · cases h
    rfl
  · split at h
    · cases h
      rfl
    · split at h
      · cases h
        rfl
      · cases h

/-- A class is refused for one of the causes of `Refusal` if no class that is known descends from
it. -/
theorem Refusal.of_construct {config : LayoutConfig}
    (hknown : ∀ ⦃cls p⦄, known cls = .ok (some p) → Sound p ∧ definition.id ∉ p.chainIds)
    (h : (known.parent definition.toClassDecl none >>= fun parent =>
      known.layOut config definition parent) = .error error) :
    Refusal known.Refuses definition error := by
  rcases of_bind_eq_error h with hparent | ⟨parent, hparent, hlayOut⟩
  · rcases of_bind_eq_error hparent with hparents | ⟨ps, hps, hsingle⟩
    · obtain ⟨base, hbase, hrefused⟩ := Knowledge.of_parents_eq_error hparents
      exact .base hbase hrefused
    · match ps with
      | [] => cases hsingle
      | [p] =>
        rcases Knowledge.mem_parents definition.bases hps List.mem_cons_self
          with hnil | ⟨base, hbase⟩
        · cases hnil
        · have hfree : p.isSubtypeOf definition.id = false := by
            simpa [Descriptor.isSubtypeOf] using (hknown hbase).2
          simp only [Registry.singleParent, hfree] at hsingle
          cases hsingle
      | _ :: _ :: _ =>
        cases hsingle
        exact .fault rfl
  · refine .of_layOut ?_ hlayOut
    rintro p rfl
    obtain ⟨base, hbase⟩ := Knowledge.exists_base_of_parent hparent
    exact (hknown hbase).1

end Classes

/-! ## Builds -/

namespace Registry

variable {setup : RegistrySetup} {stack : List ClassId} {levels : Nat} {cls : ClassId}
  {definition : ClassDefinition} {error : LayoutError}

/-- What a build learns of a class that is built was registered by some build with these classes in
progress. -/
theorem exists_stands_of_settled (hkeyed : setup.IsKeyed) {p : Descriptor}
    (h : settledKnowledge setup stack (freshAnswer setup levels stack) cls = .ok (some p)) :
    ∃ s, Stands setup stack s ∧ s.get? cls = some p := by
  unfold settledKnowledge at h
  split at h
  · cases h
  · cases h
  · next needed _ hneeded =>
    have hid := hkeyed.id_eq hneeded
    subst hid
    have hrecorded := buildNested_records (grounded_invariant hkeyed) hkeyed levels needed none
      ⟨hneeded, rfl⟩ (stands_fresh setup stack).grounded
    unfold freshAnswer at h
    rcases hrun : (buildNested setup levels needed none).exec { inProgress := stack } with ⟨x, t⟩
    have hstands := (stands_fresh setup stack).build hkeyed levels hneeded
    rw [hrun] at h hrecorded hstands
    cases x with
    | error error => cases h
    | ok d =>
      cases h
      exact ⟨t, hstands, hrecorded.registered rfl⟩

/-- There is a cycle through every class in progress. -/
theorem cycleThrough?_of_mem (h : cls ∈ stack) :
    cycleThrough? { inProgress := stack } cls =
      some (.cyclicDefinition cls (stack.dropWhile (· ≠ cls) ++ [cls])) := by
  simp [cycleThrough?, isBuilding, h]

/-- Asking for a class is refused because it is in progress or because its build is. -/
theorem of_settledKnowledge_eq_error
    {answers : ClassDefinition → Except LayoutError Descriptor}
    (h : settledKnowledge setup stack answers cls = .error error) :
    (cls ∈ stack ∧ error = .cyclicDefinition cls (stack.dropWhile (· ≠ cls) ++ [cls])) ∨
      (cls ∉ stack ∧ ∃ needed, setup.definition? cls = some needed ∧
        answers needed = .error error) := by
  unfold settledKnowledge at h
  by_cases hmem : cls ∈ stack
  · rw [cycleThrough?_of_mem hmem] at h
    cases h
    exact .inl ⟨hmem, rfl⟩
  · rw [cycleThrough?_eq_none hmem] at h
    cases hdef : setup.definition? cls with
    | none =>
      rw [hdef] at h
      cases h
    | some needed =>
      rw [hdef] at h
      dsimp only at h
      cases hanswer : answers needed with
      | ok d =>
        rw [hanswer] at h
        cases h
      | error error' =>
        rw [hanswer] at h
        cases h
        exact .inr ⟨hmem, needed, rfl, hanswer⟩

/-- The class can be built next, with these classes in progress and so many levels left. -/
structure IsNext (setup : RegistrySetup) (levels : Nat) (stack : List ClassId)
    (definition : ClassDefinition) : Prop where
  isStack : IsStack setup stack
  free : definition.id ∉ stack
  room : nestingBound setup ≤ levels + stack.length
  defined : setup.definition? definition.id = some definition

/-- A class of the source can be built first. -/
theorem isNext_nil (hdef : setup.definition? definition.id = some definition) :
    IsNext setup (nestingBound setup) [] definition where
  isStack := isStack_nil setup
  free := fun h => nomatch h
  room := Nat.le_refl _
  defined := hdef

namespace IsNext

/-- A class that can be built next has a level left. -/
theorem exists_levels (h : IsNext setup levels stack definition) : ∃ n, levels = n + 1 := by
  have hlt := h.isStack.length_lt
  have hroom := h.room
  exact ⟨levels - 1, by omega⟩

/-- A class that can be built next can be put in progress. -/
theorem push (h : IsNext setup levels stack definition) :
    IsStack setup (stack ++ [definition.id]) :=
  h.isStack.push ⟨definition, h.defined⟩ h.free

/-- A class that is not in progress can be built on demand of the one that is built. -/
theorem nested (h : IsNext setup (levels + 1) stack definition) {needed : ClassDefinition}
    (hneeded : setup.definition? needed.id = some needed)
    (hfree : needed.id ∉ stack ++ [definition.id]) :
    IsNext setup levels (stack ++ [definition.id]) needed where
  isStack := h.push
  free := hfree
  room := nestingBound_le_push _ h.room
  defined := hneeded

end IsNext

/-- Between builds, a class of the source is built as if it came first. -/
theorem Stands.exec_buildDefinition {s : Registry} (hs : Stands setup [] s)
    (hkeyed : setup.IsKeyed) (hdef : setup.definition? definition.id = some definition) :
    ((buildDefinition setup definition).exec s).1 =
      freshAnswer setup (nestingBound setup) [] definition :=
  hs.answer_eq_freshAnswer hkeyed (isStack_nil setup) (Nat.le_refl _) hdef

/-- Why a build is refused that has begun. -/
theorem refusal_of_freshAnswer (hkeyed : setup.IsKeyed) (hvalid : setup.config.validate = .ok ())
    (hnext : IsNext setup (levels + 1) stack definition)
    (h : freshAnswer setup (levels + 1) stack definition = .error error) :
    Refusal (settledKnowledge setup (stack ++ [definition.id])
      (freshAnswer setup levels (stack ++ [definition.id]))).Refuses definition error := by
  rw [freshAnswer_succ hkeyed hnext.isStack hnext.room hnext.defined] at h
  unfold settledAnswer at h
  rw [cycleThrough?_eq_none hnext.free] at h
  cases hvalidate : definition.validate with
  | error error' =>
    rw [hvalidate] at h
    cases h
    exact .fault (fault_of_validate hvalidate)
  | ok _ =>
    rw [hvalidate] at h
    refine .of_construct ?_ h
    intro other p hp
    obtain ⟨s, hs, hget⟩ := exists_stands_of_settled hkeyed hp
    refine ⟨hs.grounded.sound hvalid hget, fun hchain => ?_⟩
    obtain ⟨e, he⟩ := hs.grounded.registered_of_chainIds hget hchain
    rw [show s.entries.get? definition.id = none from hs.absent _ (by simp)] at he
    cases he

/-- Why a class that is asked for is refused: it is in progress, or its build is refused, of which
`P` is known. -/
inductive RefusedOf (setup : RegistrySetup) (levels : Nat) (stack : List ClassId)
    (P : ClassDefinition → LayoutError → Prop) : ClassId → LayoutError → Prop where
  | inProgress {cls : ClassId} (hmem : cls ∈ stack) : RefusedOf setup levels stack P cls
      (.cyclicDefinition cls (stack.dropWhile (· ≠ cls) ++ [cls]))
  | build {needed : ClassDefinition} {error : LayoutError}
      (hnext : IsNext setup levels stack needed)
      (hanswer : freshAnswer setup levels stack needed = .error error) (h : P needed error) :
      RefusedOf setup levels stack P needed.id error

/-- What holds of a refusal if it holds of those of the classes that are asked for, holds of every
build that is refused. -/
theorem freshAnswer_error_induction (hkeyed : setup.IsKeyed)
    (hvalid : setup.config.validate = .ok ())
    {P : List ClassId → ClassDefinition → LayoutError → Prop}
    (hstep : ∀ {levels stack definition error}, IsNext setup (levels + 1) stack definition →
      freshAnswer setup (levels + 1) stack definition = .error error →
      Refusal (RefusedOf setup levels (stack ++ [definition.id]) (P (stack ++ [definition.id])))
        definition error → P stack definition error)
    (hnext : IsNext setup levels stack definition)
    (h : freshAnswer setup levels stack definition = .error error) : P stack definition error := by
  induction levels generalizing stack definition error with
  | zero =>
    obtain ⟨levels, hlevels⟩ := hnext.exists_levels
    cases hlevels
  | succ levels ih =>
    refine hstep hnext h ((refusal_of_freshAnswer hkeyed hvalid hnext h).mono ?_)
    intro cls error hrefuses
    rcases of_settledKnowledge_eq_error hrefuses with
      ⟨hmem, rfl⟩ | ⟨hfree, needed, hneeded, hanswer⟩
    · exact .inProgress hmem
    · have hid := hkeyed.id_eq hneeded
      subst hid
      have hinner := hnext.nested hneeded hfree
      exact .build hinner hanswer (ih hinner hanswer)

end Registry

end ObjectLayout
