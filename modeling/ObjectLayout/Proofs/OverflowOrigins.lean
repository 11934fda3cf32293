import ObjectLayout.Proofs.FaultLocation

/-!
# What an overflow tells

The error of an overflow tells a class, one of its attributes and the text of a type. The attribute
is always one that the class declares. The text is that of its type, or of an array in it, if the
overflow arose there. An overflow of a class that the attribute stores in place is put down to the
attribute as well, but keeps the text that it had (`OverflowOrigin`). So the three belong together
as long as the attribute stores no class that overflows on its own, and need not if it does. Bases
do no harm, since their errors are passed on as they are.
-/

set_option autoImplicit false

namespace ObjectLayout.Registry

variable {setup : RegistrySetup} {stack : List ClassId} {levels : Nat} {cls : ClassId}
  {name text : String} {definition : ClassDefinition}

/-- The source declares the attribute in the class, with a type of which the text tells a part. -/
def CoherentOverflow (setup : RegistrySetup) (cls : ClassId) (name text : String) : Prop :=
  ∃ definition, setup.definition? cls = some definition ∧
    ∃ entry ∈ definition.attributes, entry.1 = name ∧ text ∈ entry.2.texts

/-- The class declares the attribute, which stores a class in place that overflows on its own. -/
def StoresOverflow (setup : RegistrySetup) (cls : ClassId) (name : String) : Prop :=
  ∃ definition, setup.definition? cls = some definition ∧
    ∃ entry ∈ definition.attributes, entry.1 = name ∧
      ∃ needed, setup.definition? needed.id = some needed ∧
        entry.2.embeddedClass? = some needed.id ∧
        Overflows ((buildDefinition setup needed).exec ∅).1

/-- Where an overflow that is put down to an attribute of a class has its text from. -/
inductive OverflowOrigin (setup : RegistrySetup) : ClassId → String → String → Prop where
  /-- The attribute does not fit. -/
  | own {definition : ClassDefinition} {entry : String × AttributeType} {text : String}
      (hdef : setup.definition? definition.id = some definition)
      (hentry : entry ∈ definition.attributes) (htext : text ∈ entry.2.texts) :
      OverflowOrigin setup definition.id entry.1 text
  /-- The attribute stores a class in place that overflows on its own. -/
  | stored {definition needed : ClassDefinition} {entry : String × AttributeType} {cls : ClassId}
      {name text : String} (hdef : setup.definition? definition.id = some definition)
      (hentry : entry ∈ definition.attributes)
      (hneeded : setup.definition? needed.id = some needed)
      (hstored : entry.2.embeddedClass? = some needed.id)
      (halone : ((buildDefinition setup needed).exec ∅).1 = .error (.sizeOverflow cls name text))
      (horigin : OverflowOrigin setup cls name text) :
      OverflowOrigin setup definition.id entry.1 text

/-- The attribute that an overflow tells is declared by the class that it tells. -/
theorem OverflowOrigin.declared (h : OverflowOrigin setup cls name text) :
    ∃ definition, setup.definition? cls = some definition ∧
      ∃ entry ∈ definition.attributes, entry.1 = name := by
  cases h with
  | own hdef hentry => exact ⟨_, hdef, _, hentry, rfl⟩
  | stored hdef hentry => exact ⟨_, hdef, _, hentry, rfl⟩

/-- An overflow tells the attribute and its type, unless the attribute stores a class that
overflows. -/
theorem OverflowOrigin.coherent_or_stores (h : OverflowOrigin setup cls name text) :
    CoherentOverflow setup cls name text ∨ StoresOverflow setup cls name := by
  cases h with
  | own hdef hentry htext => exact .inl ⟨_, hdef, _, hentry, rfl, htext⟩
  | stored hdef hentry hneeded hstored halone =>
    exact .inr ⟨_, hdef, _, hentry, rfl, _, hneeded, hstored, _, _, _, halone⟩

/-- An overflow of a build has an origin. -/
theorem overflowOrigin_of_freshAnswer (hkeyed : setup.IsKeyed)
    (hvalid : setup.config.validate = .ok ()) (hnext : IsNext setup levels stack definition)
    (h : freshAnswer setup levels stack definition = .error (.sizeOverflow cls name text)) :
    OverflowOrigin setup cls name text := by
  -- Following the overflow down: a base passes it on, an attribute takes it over.
  refine freshAnswer_error_induction hkeyed hvalid (P := fun _ _ error => ∀ cls name text,
    error = .sizeOverflow cls name text → OverflowOrigin setup cls name text) ?_ hnext h
    cls name text rfl
  intro levels stack definition error hnext _ hrefusal cls name text herror
  cases hrefusal with
  | base hbase hrefused =>
    cases hrefused with
    | inProgress => cases herror
    | build _ _ ih => exact ih cls name text herror
  | @stored entry other error hentry hcls hrefused =>
    cases hrefused with
    | inProgress => cases herror
    | build hinner hanswer ih =>
      cases error with
      | sizeOverflow inner field type =>
        cases herror
        have halone := alone_of_freshAnswer hkeyed hinner hanswer fun _ _ _ heq => nomatch heq
        exact .stored hnext.defined hentry hinner.defined hcls halone (ih inner field text rfl)
      | _ => cases herror
  | overflow hentry htext =>
    cases herror
    exact .own hnext.defined hentry htext
  | fault hfault =>
    subst herror
    cases hfault

/-- What the error of an overflow tells. -/
structure TellsOverflow (setup : RegistrySetup) (cls : ClassId) (name text : String) : Prop where
  declared : ∃ definition, setup.definition? cls = some definition ∧
    ∃ entry ∈ definition.attributes, entry.1 = name
  origin : OverflowOrigin setup cls name text
  coherent : ¬ StoresOverflow setup cls name → CoherentOverflow setup cls name text

/-- An overflow of a build in any registry that builds have filled is told as it should be. -/
theorem Stands.tellsOverflow {s : Registry} (hs : Stands setup [] s) (hkeyed : setup.IsKeyed)
    (hvalid : setup.config.validate = .ok ())
    (hdef : setup.definition? definition.id = some definition)
    (h : ((buildDefinition setup definition).exec s).1 = .error (.sizeOverflow cls name text)) :
    TellsOverflow setup cls name text := by
  rw [hs.exec_buildDefinition hkeyed hdef] at h
  have horigin := overflowOrigin_of_freshAnswer hkeyed hvalid (isNext_nil hdef) h
  exact ⟨horigin.declared, horigin, fun hnot => horigin.coherent_or_stores.resolve_right hnot⟩

/-- Whatever was built before, an overflow names a declared attribute, and the text is that of its
type unless it was taken over from a class that the attribute stores. -/
theorem tellsOverflow_afterBuilds {config : LayoutConfig} {definitions : List ClassDefinition}
    (hvalid : config.validate = .ok ()) {history : List ClassDefinition}
    (hhistory : ∀ earlier ∈ history, earlier ∈ (DefinitionSet.ofDefinitions definitions).values)
    {definition : ClassDefinition}
    (hdef : definition ∈ (DefinitionSet.ofDefinitions definitions).values)
    (h : ((buildDefinition (setupOf config (.ofDefinitions definitions)) definition).exec
      (afterBuilds (setupOf config (.ofDefinitions definitions)) history ∅)).1 =
      .error (.sizeOverflow cls name text)) :
    TellsOverflow (setupOf config (.ofDefinitions definitions)) cls name text := by
  have hset := DefinitionSet.isKeyed_ofDefinitions definitions
  exact (stands_afterBuilds config hhistory).tellsOverflow (isKeyed_setupOf config hset) hvalid
    (hset.get?_id hdef) h

/-- The overflow of a base is told as it is. -/
theorem tellsOverflow_of_base :
    ∃ definitions history definition cls name text, ({} : LayoutConfig).validate = .ok () ∧
      (∀ earlier ∈ history, earlier ∈ (DefinitionSet.ofDefinitions definitions).values) ∧
      definition ∈ (DefinitionSet.ofDefinitions definitions).values ∧
      ((buildDefinition (setupOf {} (.ofDefinitions definitions)) definition).exec
        (afterBuilds (setupOf {} (.ofDefinitions definitions)) history ∅)).1 =
        .error (.sizeOverflow cls name text) ∧
      cls ≠ definition.id ∧ TellsOverflow (setupOf {} (.ofDefinitions definitions)) cls name text :=
    by
  let page : ClassDefinition :=
    { id := ⟨"Page"⟩, attributes := [("words", .array (.primitive .int64) (2 ^ 62))] }
  let book : ClassDefinition := { id := ⟨"Book"⟩, bases := [⟨"Page"⟩] }
  let definitions := [page, book, { id := ⟨"Shelf"⟩ }]
  have hhistory : ∀ earlier ∈ [({ id := ⟨"Shelf"⟩ } : ClassDefinition)],
      earlier ∈ (DefinitionSet.ofDefinitions definitions).values := by decide
  have hdef : book ∈ (DefinitionSet.ofDefinitions definitions).values := by decide
  have herror : ((buildDefinition (setupOf {} (.ofDefinitions definitions)) book).exec
      (afterBuilds (setupOf {} (.ofDefinitions definitions)) [{ id := ⟨"Shelf"⟩ }] ∅)).1 =
      .error (.sizeOverflow ⟨"Page"⟩ "words" "[int64; 4611686018427387904]") := by decide +kernel
  exact ⟨definitions, [{ id := ⟨"Shelf"⟩ }], book, _, _, _, rfl, hhistory, hdef, herror, by decide,
    tellsOverflow_afterBuilds rfl hhistory hdef herror⟩

/-- The overflow of a class that is stored in place is put down to the attribute that stores it, but
the text is that of an attribute of the other class. -/
theorem overflow_of_stored_not_coherent :
    ∃ definitions definition cls name text,
      definition ∈ (DefinitionSet.ofDefinitions definitions).values ∧
      ((buildDefinition (setupOf {} (.ofDefinitions definitions)) definition).exec ∅).1 =
        .error (.sizeOverflow cls name text) ∧
      ¬ CoherentOverflow (setupOf {} (.ofDefinitions definitions)) cls name text := by
  let b : ClassDefinition :=
    { id := ⟨"B"⟩, attributes := [("huge", .array (.primitive .int64) (2 ^ 62))] }
  let a : ClassDefinition := { id := ⟨"A"⟩, attributes := [("b", .embedded ⟨"B"⟩)] }
  have herror : ((buildDefinition (setupOf {} (.ofDefinitions [a, b])) a).exec ∅).1 =
      .error (.sizeOverflow ⟨"A"⟩ "b" "[int64; 4611686018427387904]") := by decide +kernel
  refine ⟨[a, b], a, _, _, _, by decide, herror, ?_⟩
  rintro ⟨found, hfound, entry, hentry, -, htext⟩
  have hget : (setupOf {} (.ofDefinitions [a, b])).definition? ⟨"A"⟩ = some a := by decide
  cases hget.symm.trans hfound
  rw [List.mem_singleton.1 hentry] at htext
  exact absurd htext (by decide)

end ObjectLayout.Registry
