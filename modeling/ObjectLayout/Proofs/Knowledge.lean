import ObjectLayout.Proofs.Action
import ObjectLayout.Registry.Build

/-!
# Laying out a class from what is known of others

A build asks for the bases of a class and for the classes that its fields store in place, and works
the rest out by itself. Here the answers to these questions are a function, `Knowledge`, and no
state is left: `Knowledge.parent` finds the parent of a class and `Knowledge.layOut` is the
descriptor that it gets below this parent. A build that runs through the states of a registry
follows these answers (`resolveParent_follows`, `prepare_follows`) in every frame in which its
questions follow the knowledge; only the classes that are really asked for matter.
-/

set_option autoImplicit false

namespace ObjectLayout

open LayoutM (Frame Follows exists_eq_ok_of_bind)

/-- The class whose instances a type stores in place, on its own or as the elements of arrays. -/
def AttributeType.embeddedClass? : AttributeType → Option ClassId
  | .embedded cls => some cls
  | .array element _ => element.embeddedClass?
  | .primitive _ | .object | .pointer _ | .reference _ => none

/-- What is known of other classes: the descriptor of an extension type, nothing for any other
class, or the error with which asking for the class is refused. -/
abbrev Knowledge := ClassId → Except LayoutError (Option Descriptor)

namespace Knowledge

/-- The space of an instance of a class that is stored in place on behalf of `user`. -/
def space (known : Knowledge) (user cls : ClassId) : Except LayoutError FieldLayout := do
  match ← known cls with
  | some descriptor => return ⟨descriptor.size, descriptor.alignment⟩
  | none => throw (.unresolvedType user cls)

/-- The target against which the attributes of `user` are sized. -/
def env (known : Knowledge) (pointerSize : Nat) (user : ClassId) : TypeEnv Unit where
  pointerSize := pointerSize
  embedded cls := liftM (known.space user cls)

/-- The parents found so far and the bases that are extension types, each once. -/
def parents (known : Knowledge) : List Descriptor → List ClassId →
    Except LayoutError (List Descriptor)
  | found, [] => .ok found
  | found, base :: bases => do
    match ← known base with
    | none => known.parents found bases
    | some descriptor =>
      if descriptor.id ∈ found.map fun p => p.id then known.parents found bases
      else known.parents (found ++ [descriptor]) bases

/-- The parent of a class. -/
def parent (known : Knowledge) (decl : ClassDecl) (given : Option Descriptor) :
    Except LayoutError (Option Descriptor) := do
  Registry.singleParent decl.id (← known.parents given.toList decl.bases)

end Knowledge

/-- The attribute table of a class below a parent, where `own` holds what the class declares. -/
def inheritedAttributes (decl : ClassDecl) (parent : Option Descriptor) (own : AttributeTable) :
    Except LayoutError AttributeTable :=
  match parent with
  | none => .ok own
  | some p =>
    let (table, answer) := (p.attributes.derive decl.id).extendFrom own
    answer.map fun _ => table

/-- The dispatch table after methods were declared in it, one after another. -/
def DispatchTable.addMethods (t : DispatchTable) (methods : List MethodDecl) :
    Except LayoutError DispatchTable :=
  methods.foldlM (fun t method => (t.addMethod method).map Prod.fst) t

/-- The descriptor of a class below a parent, made from what is known of other classes. -/
def Knowledge.layOut (known : Knowledge) (config : LayoutConfig) (definition : ClassDefinition)
    (parent : Option Descriptor) : Except LayoutError Descriptor := do
  let decl := definition.toClassDecl
  let own ← AttributeTable.ofList decl.id definition.attributes
  let table ← inheritedAttributes decl parent own
  let draft := Draft.ofDecl decl parent config
  let draft ←
    (draft.setAttributes table (known.env config.pointerSize decl.id) fun _ => pure ()).answer
  let dispatch ← (Registry.inheritMethods decl parent).addMethods definition.methods
  (draft.setDispatch dispatch).freeze

/-! ## Fields -/

section Fields

variable {σ τ : Type} {F : Frame σ τ}

/-- The space of an array of elements that take the given space. -/
def FieldLayout.arrayOf (space : FieldLayout) (element : AttributeType) (length : Nat) :
    Except LayoutError FieldLayout :=
  match space.arraySize? length with
  | some size => .ok ⟨size, space.alignment⟩
  | none => .error (.sizeOverflow ⟨""⟩ "" (AttributeType.array element length).text)

/-- An array is laid out by its element. -/
theorem AttributeType.layout_array (env : TypeEnv σ) (element : AttributeType) (length : Nat) :
    (array element length).layout env =
      element.layout env >>= fun space => liftM (space.arrayOf element length) := by
  apply bind_congr
  intro space
  unfold FieldLayout.arrayOf
  cases space.arraySize? length <;> rfl

/-- A type is sized alike against a target with a state and against its view. -/
theorem AttributeType.layout_follows {env : TypeEnv σ} {views : τ → TypeEnv Unit}
    (hpointer : ∀ t, (views t).pointerSize = env.pointerSize) (type : AttributeType)
    (h : ∀ cls, type.embeddedClass? = some cls → ∀ s, F.Holds s →
      Follows F (env.embedded cls) (fun t => ((views t).embedded cls).answer) s)
    {s : σ} (hs : F.Holds s) :
    Follows F (type.layout env) (fun t => (type.layout (views t)).answer) s := by
  induction type with
  | primitive scalar => exact .pure hs _
  | object => exact (Follows.pure hs _).congr fun t _ => by rw [← hpointer t]; rfl
  | pointer target => exact (Follows.pure hs _).congr fun t _ => by rw [← hpointer t]; rfl
  | reference cls => exact (Follows.pure hs _).congr fun t _ => by rw [← hpointer t]; rfl
  | embedded cls => exact h cls rfl s hs
  | array element length ih =>
    have helement := ih h
    rw [layout_array]
    apply (helement.bind fun space _ => .lift helement.holds (space.arrayOf element length)).congr
    intro t _
    rw [layout_array, LayoutM.answer_bind]
    simp only [LayoutM.answer_liftM]

variable {draft : Draft} {env : TypeEnv σ} {views : τ → TypeEnv Unit}
  {note : PlacedField → LayoutM σ Unit}

/-- What is laid out after a class has introduced a field that takes the given space. -/
def Draft.introduce (draft : Draft) (segment : Segment) (name : String) (type : AttributeType)
    (field : FieldLayout) : Except LayoutError Segment := do
  let start ← (segment.cursor.alignTo field.alignment).elim
    (.error (draft.overflow name type)) .ok
  let stop ← (start.advance field.size).elim (.error (draft.overflow name type)) .ok
  return {
    symbols := segment.symbols.insert name
      { type, storage := .own, offset := start, size := field.size }
    cursor := stop
    alignment := segment.alignment.max field.alignment
    lastOwn := some (name, type) }

/-- An attribute stays where the parent has it, and is introduced where the parent has none. -/
theorem Draft.answer_placeField (draft : Draft) (view : TypeEnv Unit) (segment : Segment)
    (name : String) (type : AttributeType) :
    (draft.placeField view (fun _ => pure ()) segment name type).answer =
      match draft.inherited? name with
      | some v => .ok { segment with symbols := segment.symbols.insert name v }
      | none => (draft.sizeField view name type).answer >>= draft.introduce segment name type := by
  unfold Draft.placeField
  cases draft.inherited? name with
  | some v => rfl
  | none =>
    simp only [LayoutM.answer_bind, LayoutM.answer_orThrow, LayoutM.answer_pure]
    rfl

/-- One attribute is placed alike. Only a type that the parent does not place is sized. -/
theorem Draft.placeField_follows (hpointer : ∀ t, (views t).pointerSize = env.pointerSize)
    (hnote : ∀ field s, F.Holds s → Follows F (note field) (fun _ => .ok ()) s)
    (segment : Segment) (name : String) (type : AttributeType)
    (h : draft.inherited? name = none → ∀ cls, type.embeddedClass? = some cls →
      ∀ s, F.Holds s → Follows F (env.embedded cls) (fun t => ((views t).embedded cls).answer) s)
    {s : σ} (hs : F.Holds s) :
    Follows F (draft.placeField env note segment name type)
      (fun t => (draft.placeField (views t) (fun _ => pure ()) segment name type).answer) s := by
  refine Follows.congr ?_ fun t _ => draft.answer_placeField (views t) segment name type
  unfold Draft.placeField
  cases hinherited : draft.inherited? name with
  | some v => exact .pure hs _
  | none =>
    have hsize : Follows F (draft.sizeField env name type)
        (fun t => (draft.sizeField (views t) name type).answer) s :=
      (AttributeType.layout_follows hpointer type (h hinherited) hs).adapt _
    apply hsize.bind
    intro field _
    have hstart := Follows.orThrow hsize.holds (draft.overflow name type)
      (segment.cursor.alignTo field.alignment)
    apply hstart.bind
    intro start _
    have hnoted := hnote { cls := draft.id, name, type, offset := start, size := field.size } _
      hstart.holds
    apply hnoted.skip
    have hstop := Follows.orThrow hnoted.holds (draft.overflow name type) (start.advance field.size)
    exact hstop.bind fun stop _ => .pure hstop.holds _

/-- Fields that are placed follow what is known of their embedded classes. -/
theorem Draft.placeFields_follows (hpointer : ∀ t, (views t).pointerSize = env.pointerSize)
    (hnote : ∀ field s, F.Holds s → Follows F (note field) (fun _ => .ok ()) s)
    (entries : List (String × AttributeType))
    (h : ∀ entry ∈ entries, draft.inherited? entry.1 = none →
      ∀ cls, entry.2.embeddedClass? = some cls → ∀ s, F.Holds s →
        Follows F (env.embedded cls) (fun t => ((views t).embedded cls).answer) s)
    (segment : Segment) {s : σ} (hs : F.Holds s) :
    Follows F (draft.placeFields env note segment entries)
      (fun t => (draft.placeFields (views t) (fun _ => pure ()) segment entries).answer) s := by
  induction entries generalizing segment s with
  | nil => exact .pure hs _
  | cons entry rest ih =>
    obtain ⟨name, type⟩ := entry
    have hfirst := placeField_follows hpointer hnote segment name type
      (h (name, type) List.mem_cons_self) hs
    have hrest := fun segment => ih (fun entry he => h entry (List.mem_cons_of_mem _ he)) segment
      hfirst.holds
    exact (hfirst.bind fun segment _ => hrest segment).congr fun t _ => LayoutM.answer_bind _ _

/-- Attributes that are attached follow what is known of their embedded classes. -/
theorem Draft.setAttributes_follows (hpointer : ∀ t, (views t).pointerSize = env.pointerSize)
    (hnote : ∀ field s, F.Holds s → Follows F (note field) (fun _ => .ok ()) s)
    (table : AttributeTable)
    (h : ∀ entry ∈ table.toList, draft.inherited? entry.1 = none →
      ∀ cls, entry.2.embeddedClass? = some cls → ∀ s, F.Holds s →
        Follows F (env.embedded cls) (fun t => ((views t).embedded cls).answer) s)
    {s : σ} (hs : F.Holds s) :
    Follows F (draft.setAttributes table env note)
      (fun t => (draft.setAttributes table (views t) fun _ => pure ()).answer) s := by
  have hfields := placeFields_follows hpointer hnote table.toList h
    { symbols := ∅, cursor := ⟨draft.attrOffset⟩, alignment := draft.alignment, lastOwn := none } hs
  refine (hfields.bind fun segment _ => ?_).congr fun t _ => LayoutM.answer_bind _ _
  have hsize := Follows.lift hfields.holds (draft.instanceSize segment)
  refine (hsize.bind fun size _ => .pure hsize.holds _).congr fun t _ => ?_
  rw [LayoutM.answer_bind, LayoutM.answer_liftM]
  rfl

end Fields

/-! ## Methods -/

/-- Methods are declared one after another. -/
theorem DispatchTable.addMethods_cons (table : DispatchTable) (method : MethodDecl)
    (rest : List MethodDecl) :
    table.addMethods (method :: rest) =
      table.addMethod method >>= fun placed => placed.1.addMethods rest := by
  unfold DispatchTable.addMethods
  rw [List.foldlM_cons]
  cases table.addMethod method <;> rfl

/-- A draft declares a method in its dispatch table. -/
theorem Draft.addMethod_setDispatch (draft : Draft) (table : DispatchTable) (method : MethodDecl) :
    (draft.setDispatch table).addMethod method =
      (table.addMethod method).map fun placed => (draft.setDispatch placed.1, placed.2) := by
  have hget : (draft.setDispatch table).dispatch.get draft.id "add_method" = .ok table := rfl
  unfold Draft.addMethod
  rw [show (draft.setDispatch table).id = draft.id from rfl, hget]
  cases h : table.addMethod method with
  | error error => simp only [h, bind, Except.bind, Except.map]
  | ok placed =>
    simp only [h, bind, Except.bind, Except.map]
    rfl

/-! ## What a class is laid out from -/

/-- The parts of a layout, in the order in which they are found. -/
structure Outline where
  own : AttributeTable
  table : AttributeTable
  segment : Segment
  size : Nat
  dispatch : DispatchTable

/-- An outline is that of a class below a parent, and the descriptor is made of its parts. -/
structure Outline.Describes (o : Outline) (known : Knowledge) (config : LayoutConfig)
    (definition : ClassDefinition) (parent : Option Descriptor) (d : Descriptor) : Prop where
  own_eq : AttributeTable.ofList definition.id definition.attributes = .ok o.own
  table_eq : inheritedAttributes definition.toClassDecl parent o.own = .ok o.table
  segment_eq : ((Draft.ofDecl definition.toClassDecl parent config).placeFields
    (known.env config.pointerSize definition.id) (fun _ => pure ())
    { symbols := ∅
      cursor := ⟨(Draft.ofDecl definition.toClassDecl parent config).attrOffset⟩
      alignment := (Draft.ofDecl definition.toClassDecl parent config).alignment
      lastOwn := none } o.table.toList).answer = .ok o.segment
  size_eq : (Draft.ofDecl definition.toClassDecl parent config).instanceSize o.segment = .ok o.size
  dispatch_eq : (Registry.inheritMethods definition.toClassDecl parent).addMethods
    definition.methods = .ok o.dispatch
  descriptor_eq : d =
    { id := definition.id
      kind := definition.kind
      attributes := o.table
      dispatch := o.dispatch
      symbols := o.segment.symbols
      vtabOffset := parent.elim config.vtabPointerOffset fun p => p.vtabOffset
      attrOffset := parent.elim config.headerSize fun p => p.size
      ownSlotsOffset := parent.elim config.vtableHeaderSize fun p =>
        Word.wrap (config.vtableHeaderSize + p.slotCount * config.pointerSize)
      size := o.size
      alignment := o.segment.alignment
      slotCount := o.dispatch.slotCount
      pointerSize := config.pointerSize
      vtableHeaderSize := config.vtableHeaderSize
      ancestors := parent.elim [] Descriptor.chain }

/-- A class that is laid out has an outline. -/
theorem Knowledge.exists_outline {known : Knowledge} {config : LayoutConfig}
    {definition : ClassDefinition} {parent : Option Descriptor} {d : Descriptor}
    (h : known.layOut config definition parent = .ok d) :
    ∃ o : Outline, o.Describes known config definition parent d := by
  obtain ⟨own, hown, h⟩ := exists_eq_ok_of_bind h
  obtain ⟨table, htable, h⟩ := exists_eq_ok_of_bind h
  obtain ⟨draft, hdraft, h⟩ := exists_eq_ok_of_bind h
  obtain ⟨dispatch, hdispatch, h⟩ := exists_eq_ok_of_bind h
  unfold Draft.setAttributes at hdraft
  rw [LayoutM.answer_bind] at hdraft
  obtain ⟨segment, hsegment, hdraft⟩ := exists_eq_ok_of_bind hdraft
  rw [LayoutM.answer_bind, LayoutM.answer_liftM] at hdraft
  obtain ⟨size, hsize, hdraft⟩ := exists_eq_ok_of_bind hdraft
  cases hdraft
  cases h
  exact ⟨⟨own, table, segment, size, dispatch⟩, hown, htable, hsegment, hsize, hdispatch, rfl⟩

/-- A class is laid out under its own identity. -/
theorem Knowledge.id_eq_of_layOut {known : Knowledge} {config : LayoutConfig}
    {definition : ClassDefinition} {parent : Option Descriptor} {d : Descriptor}
    (h : known.layOut config definition parent = .ok d) : d.id = definition.id := by
  obtain ⟨o, ho⟩ := exists_outline h
  rw [ho.descriptor_eq]

/-- A class is laid out below the parent that it is given. -/
theorem Outline.Describes.parent?_eq {o : Outline} {known : Knowledge} {config : LayoutConfig}
    {definition : ClassDefinition} {parent : Option Descriptor} {d : Descriptor}
    (h : o.Describes known config definition parent d) : d.parent? = parent := by
  rw [h.descriptor_eq]
  cases parent <;> rfl

/-- A parent that is found was found before or is that of a base. -/
theorem Knowledge.mem_parents {known : Knowledge} (bases : List ClassId)
    {found ps : List Descriptor} (h : known.parents found bases = .ok ps) {p : Descriptor}
    (hp : p ∈ ps) : p ∈ found ∨ ∃ base, known base = .ok (some p) := by
  induction bases generalizing found with
  | nil =>
    cases h
    exact .inl hp
  | cons base rest ih =>
    unfold parents at h
    obtain ⟨answer, hanswer, h⟩ := exists_eq_ok_of_bind h
    cases answer with
    | none => exact ih h
    | some descriptor =>
      by_cases hmem : descriptor.id ∈ found.map fun p => p.id
      · simp only [hmem, if_true] at h
        exact ih h
      · simp only [hmem, if_false] at h
        rcases ih h with hfound | hbase
        · rcases List.mem_append.1 hfound with hfound | hlast
          · exact .inl hfound
          · rw [List.mem_singleton.1 hlast]
            exact .inr ⟨base, hanswer⟩
        · exact .inr hbase

/-- One parent was found, which does not descend from the class, or none. -/
theorem Registry.of_singleParent_eq_ok {cls : ClassId} {ps : List Descriptor}
    {parent : Option Descriptor} (h : singleParent cls ps = .ok parent) :
    ps = parent.toList ∧ ∀ p, parent = some p → cls ∉ p.chainIds := by
  cases ps with
  | nil =>
    cases h
    exact ⟨rfl, fun _ h => nomatch h⟩
  | cons first rest =>
    cases rest with
    | cons second rest => cases h
    | nil =>
      by_cases hsub : first.isSubtypeOf cls = true
      · simp only [singleParent, hsub, if_true] at h
        cases h
      · simp only [singleParent, hsub] at h
        cases h
        refine ⟨rfl, ?_⟩
        rintro p ⟨⟩ hmem
        exact hsub (List.contains_iff_mem.2 hmem)

/-- The parent of a class is the one given or is known, and does not descend from the class. -/
theorem Knowledge.of_parent_eq_some {known : Knowledge} {decl : ClassDecl}
    {given : Option Descriptor} {p : Descriptor} (h : known.parent decl given = .ok (some p)) :
    (given = some p ∨ ∃ base, known base = .ok (some p)) ∧ decl.id ∉ p.chainIds := by
  obtain ⟨ps, hps, h⟩ := exists_eq_ok_of_bind h
  obtain ⟨rfl, hchain⟩ := Registry.of_singleParent_eq_ok h
  refine ⟨?_, hchain p rfl⟩
  rcases mem_parents decl.bases hps List.mem_cons_self with hgiven | hbase
  · exact .inl (Option.mem_toList.1 hgiven)
  · exact .inr hbase

/-- The parent of a class to which none is given is known as a base. -/
theorem Knowledge.exists_base_of_parent {known : Knowledge} {decl : ClassDecl} {p : Descriptor}
    (h : known.parent decl none = .ok (some p)) : ∃ base, known base = .ok (some p) := by
  rcases (of_parent_eq_some h).1 with hgiven | hbase
  · cases hgiven
  · exact hbase

/-! ## Builds -/

/-- The place that a parent gives to an attribute, as a class below it inherits it. -/
def inheritedPlace? (parent : Option Descriptor) (name : String) : Option Variable :=
  parent.bind fun p => (p.symbols.get? name).map fun v => v.inheritFrom p.id

/-- A draft takes over the places of its parent. -/
theorem Draft.inherited?_ofDecl (decl : ClassDecl) (parent : Option Descriptor)
    (config : LayoutConfig) :
    (Draft.ofDecl decl parent config).inherited? = inheritedPlace? parent := rfl

/-- A class that is built below a parent asks for the classes that it stores in place in attributes
which the parent does not place. -/
def Requests (definition : ClassDefinition) (parent : Option Descriptor) (cls : ClassId) : Prop :=
  ∃ own table, AttributeTable.ofList definition.id definition.attributes = .ok own ∧
    inheritedAttributes definition.toClassDecl parent own = .ok table ∧
    ∃ entry ∈ table.toList, inheritedPlace? parent entry.1 = none ∧
      entry.2.embeddedClass? = some cls

namespace Registry

/-- Lays out a class below its parent. What is left of the build is to register the descriptor. -/
def prepare (setup : RegistrySetup) (nested : NestedBuild) (definition : ClassDefinition)
    (parent : Option Descriptor) : LayoutM Registry Descriptor := do
  let decl := definition.toClassDecl
  let own ← AttributeTable.ofList decl.id definition.attributes
  let table ← inheritAttributes decl parent own
  let draft := Draft.ofDecl decl parent setup.config
  note (.draftBegun decl.id draft.vtabOffset draft.attrOffset draft.ownSlotsOffset)
  let env := typeEnv setup nested decl.id
  let draft ← draft.setAttributes table env fun field => note (.fieldPlaced field)
  let draft ← addMethods (draft.setDispatch (inheritMethods decl parent)) definition.methods
  draft.freeze

/-- Laying a class out is preparing it and then publishing what has been prepared. -/
theorem layOut_eq (setup : RegistrySetup) (nested : NestedBuild) (definition : ClassDefinition)
    (parent : Option Descriptor) :
    layOut setup nested definition parent =
      prepare setup nested definition parent >>= fun prepared => do
        let descriptor ← publish prepared
        note (.built descriptor.toClassLayout)
        return descriptor := by
  simp only [layOut, prepare, bind_assoc]

section Follows

variable {τ : Type} {F : Frame Registry τ} {setup : RegistrySetup} {nested : NestedBuild}
  {known : τ → Knowledge}

/-- A frame does not look into the journal. -/
def IgnoresJournal (F : Frame Registry τ) : Prop :=
  ∀ registry journal, F.Holds registry → F.Holds { registry with journal := journal } ∧
    ∀ t, F.Shows { registry with journal := journal } t → F.Shows registry t

/-- In the bare frame nothing depends on the journal. -/
theorem ignoresJournal_bare : IgnoresJournal (Frame.bare Registry) :=
  fun _ _ _ => ⟨trivial, fun _ _ => trivial⟩

/-- Noting an event is not refused. -/
theorem note_follows (hF : IgnoresJournal F) (event : Event) {s : Registry} (hs : F.Holds s) :
    Follows F (note event) (fun _ => .ok ()) s where
  holds := (hF s _ hs).1
  narrows := (hF s _ hs).2
  answers := fun _ _ _ => rfl

/-- Noting a request is not refused. -/
theorem noteRequest_follows (hF : IgnoresJournal F) (record : SourceRecord) {s : Registry}
    (hs : F.Holds s) : Follows F (noteRequest record) (fun _ => .ok ()) s where
  holds := (hF s _ hs).1
  narrows := (hF s _ hs).2
  answers := fun _ _ _ => rfl

/-- The parents among the bases follow what is known of these. -/
theorem collectParents_follows (bases : List ClassId)
    (h : ∀ base ∈ bases, ∀ s, F.Holds s →
      Follows F (resolve setup nested base) (fun t => known t base) s)
    (found : List Descriptor) {s : Registry} (hs : F.Holds s) :
    Follows F (collectParents setup nested found bases)
      (fun t => (known t).parents found bases) s := by
  induction bases generalizing found s with
  | nil => exact .pure hs found
  | cons base rest ih =>
    have hbase := h base List.mem_cons_self s hs
    have hrest := fun found => ih (fun b hb => h b (List.mem_cons_of_mem _ hb)) found hbase.holds
    apply hbase.bind
    intro answer _
    cases answer with
    | none => exact hrest found
    | some descriptor =>
      by_cases hmem : descriptor.id ∈ found.map fun p => p.id
      · simp only [hmem, if_true]
        exact hrest found
      · simp only [hmem, if_false]
        exact hrest (found ++ [descriptor])

/-- The parent of a class depends on its bases alone. -/
theorem resolveParent_follows (decl : ClassDecl) (given : Option Descriptor)
    (h : ∀ base ∈ decl.bases, ∀ s, F.Holds s →
      Follows F (resolve setup nested base) (fun t => known t base) s)
    {s : Registry} (hs : F.Holds s) :
    Follows F (resolveParent setup nested decl given)
      (fun t => (known t).parent decl given) s := by
  have hparents := collectParents_follows decl.bases h given.toList hs
  exact hparents.bind fun parents _ => .lift hparents.holds _

/-- An embedded class follows what is known of it. -/
theorem typeEnv_follows {user cls : ClassId} {s : Registry}
    (h : Follows F (resolve setup nested cls) (fun t => known t cls) s) :
    Follows F ((typeEnv setup nested user).embedded cls)
      (fun t => (((known t).env setup.config.pointerSize user).embedded cls).answer) s := by
  refine (h.bind fun answer _ => ?_).congr fun t _ => LayoutM.answer_liftM _
  cases answer with
  | none => exact .throw h.holds _
  | some descriptor => exact .pure h.holds _

/-- The attributes of a class and its parent do not depend on the registry. -/
theorem inheritAttributes_follows (hF : IgnoresJournal F) (decl : ClassDecl)
    (parent : Option Descriptor) (own : AttributeTable) {s : Registry} (hs : F.Holds s) :
    Follows F (inheritAttributes decl parent own)
      (fun _ => inheritedAttributes decl parent own) s := by
  cases parent with
  | none => exact .pure hs own
  | some p =>
    have hnotes : ∀ (names : List String) (s : Registry), F.Holds s →
        Follows F (names.forM fun name => note (.attributeRepeated decl.id name))
          (fun _ => .ok ()) s := by
      intro names
      induction names with
      | nil => exact fun s hs => .pure hs ()
      | cons name rest ih =>
        intro s hs
        have hname := note_follows hF (.attributeRepeated decl.id name) hs
        exact hname.skip (ih _ hname.holds)
    simp only [inheritAttributes, inheritedAttributes]
    rcases (p.attributes.derive decl.id).extendFrom own with ⟨table, answer⟩
    have hanswer := Follows.lift hs answer
    have hrepeated := fun names => hnotes names _ hanswer.holds
    refine (hanswer.bind fun names _ =>
      (hrepeated names).skip (.pure (hrepeated names).holds table)).congr fun t _ => ?_
    cases answer <;> rfl

/-- Declaring methods in a draft is declaring them in its dispatch table. -/
theorem addMethods_follows (hF : IgnoresJournal F) (methods : List MethodDecl) (draft : Draft)
    (table : DispatchTable) {s : Registry} (hs : F.Holds s) :
    Follows F (addMethods (draft.setDispatch table) methods)
      (fun _ => (table.addMethods methods).map draft.setDispatch) s := by
  induction methods generalizing table s with
  | nil => exact .pure hs _
  | cons method rest ih =>
    unfold addMethods
    rw [Draft.addMethod_setDispatch, DispatchTable.addMethods_cons]
    cases table.addMethod method with
    | error error => exact .of_exec hs rfl fun _ _ _ => rfl
    | ok placed =>
      have hnoted := note_follows hF (.methodPlaced draft.id method.name placed.2) hs
      have hrest := ih placed.1 hnoted.holds
      show Follows F (note (.methodPlaced draft.id method.name placed.2) >>= fun _ =>
        addMethods (draft.setDispatch placed.1) rest) _ s
      exact hnoted.skip hrest

/-- The attributes of a class follow what is known of the classes that they embed. -/
theorem placeAll_follows (hF : IgnoresJournal F) (definition : ClassDefinition)
    (parent : Option Descriptor) (table : AttributeTable)
    (h : ∀ cls, (∃ entry ∈ table.toList, inheritedPlace? parent entry.1 = none ∧
        entry.2.embeddedClass? = some cls) → ∀ s, F.Holds s →
      Follows F (resolve setup nested cls) (fun t => known t cls) s)
    {s : Registry} (hs : F.Holds s) :
    Follows F
      ((Draft.ofDecl definition.toClassDecl parent setup.config).setAttributes table
        (typeEnv setup nested definition.id) fun field => note (.fieldPlaced field))
      (fun t => ((Draft.ofDecl definition.toClassDecl parent setup.config).setAttributes table
        ((known t).env setup.config.pointerSize definition.id) fun _ => pure ()).answer) s := by
  refine Draft.setAttributes_follows ?_ ?_ table ?_ hs
  · exact fun _ => rfl
  · exact fun field s hs => note_follows hF (.fieldPlaced field) hs
  · exact fun entry hentry hplace cls hcls s hs =>
      typeEnv_follows (h cls ⟨entry, hentry, hplace, hcls⟩ s hs)

/-- A class is laid out alike. Beside its bases it depends on the classes that it stores in place in
attributes which the parent does not place. -/
theorem prepare_follows (hF : IgnoresJournal F) (definition : ClassDefinition)
    (parent : Option Descriptor)
    (h : ∀ cls, Requests definition parent cls → ∀ s, F.Holds s →
      Follows F (resolve setup nested cls) (fun t => known t cls) s)
    {s : Registry} (hs : F.Holds s) :
    Follows F (prepare setup nested definition parent)
      (fun t => (known t).layOut setup.config definition parent) s := by
  have hown := Follows.lift hs (AttributeTable.ofList definition.id definition.attributes)
  apply hown.bind
  intro own howneq
  rw [LayoutM.exec_liftM] at howneq
  have htable := inheritAttributes_follows hF definition.toClassDecl parent own hown.holds
  apply htable.bind
  intro table htableeq
  rw [(inheritAttributes_follows ignoresJournal_bare _ parent own trivial).exec_fst] at htableeq
  have hbegun := note_follows hF (.draftBegun definition.id
    (Draft.ofDecl definition.toClassDecl parent setup.config).vtabOffset
    (Draft.ofDecl definition.toClassDecl parent setup.config).attrOffset
    (Draft.ofDecl definition.toClassDecl parent setup.config).ownSlotsOffset) htable.holds
  apply hbegun.skip
  have hattributes := placeAll_follows hF definition parent table
    (fun cls ⟨entry, hentry, hplace, hcls⟩ =>
      h cls ⟨own, table, howneq, htableeq, entry, hentry, hplace, hcls⟩) hbegun.holds
  apply hattributes.bind
  intro draft _
  have hmethods := addMethods_follows hF definition.methods draft
    (inheritMethods definition.toClassDecl parent) hattributes.holds
  refine (hmethods.bind fun draft _ => .lift hmethods.holds draft.freeze).congr fun t _ => ?_
  cases (inheritMethods definition.toClassDecl parent).addMethods definition.methods <;> rfl

end Follows

end Registry

end ObjectLayout
