import ObjectLayout.Proofs.Runs

/-!
# Builds that do the same

How the classes that a build needs are built is a parameter of the build. Two such parameters that
do the same for every class that is asked for give builds that do the same: they answer the same and
leave the same registry, journal included. Actions are compared from one state on (`Agrees`), along
with a property of states that holds at the end, so that what is known of a registry is known at
every question that a build asks. The source is a set of definitions, which builds nothing itself.
-/

set_option autoImplicit false

namespace ObjectLayout

open LayoutM (Frame Follows)

/-- Two actions do the same in a state, and what they keep to holds afterwards. -/
structure LayoutM.Agrees {σ α : Type} (P : σ → Prop) (action action' : LayoutM σ α) (s : σ) :
    Prop where
  holds : P (action.exec s).2
  exec_eq : action'.exec s = action.exec s

namespace LayoutM.Agrees

variable {σ α β : Type} {P : σ → Prop} {s : σ} {action action' : LayoutM σ α}

/-- An action agrees with itself where it ends with the property. -/
theorem same (h : P (action.exec s).2) : Agrees P action action s := ⟨h, rfl⟩

/-- A value agrees with itself. -/
theorem pure (hs : P s) (a : α) : Agrees P (Pure.pure a : LayoutM σ α) (Pure.pure a) s := same hs

/-- An answer agrees with itself. -/
theorem lift (hs : P s) (answer : Except LayoutError α) :
    Agrees P (liftM answer : LayoutM σ α) (liftM answer) s := by
  apply same
  rw [exec_liftM]
  exact hs

/-- A value that may be absent agrees with itself. -/
theorem orThrow (hs : P s) (error : LayoutError) (a : Option α) :
    Agrees P (LayoutM.orThrow error a : LayoutM σ α) (LayoutM.orThrow error a) s := by
  apply same
  cases a <;> exact hs

/-- Actions that agree still do so with their errors adapted. -/
theorem adapt (f : LayoutError → LayoutError) (h : Agrees P action action' s) :
    Agrees P (ExceptT.adapt f action : LayoutM σ α) (ExceptT.adapt f action') s where
  holds := h.holds
  exec_eq := congrArg (fun run => (Except.mapError f run.1, run.2)) h.exec_eq

/-- What follows an action only counts where the action has an answer. -/
theorem bind {next next' : α → LayoutM σ β} (h : Agrees P action action' s)
    (hnext : ∀ a, (action.exec s).1 = .ok a → Agrees P (next a) (next' a) (action.exec s).2) :
    Agrees P (action >>= next) (action' >>= next') s := by
  have hholds := h.holds
  have hexec := h.exec_eq
  rcases heq : action.exec s with ⟨x, t⟩
  rw [heq] at hholds hexec hnext
  cases x with
  | error error =>
    constructor
    · rw [exec_bind, heq]
      exact hholds
    · rw [exec_bind, exec_bind, heq, hexec]
  | ok a =>
    have hrest := hnext a rfl
    constructor
    · rw [exec_bind, heq]
      exact hrest.holds
    · rw [exec_bind, exec_bind, heq, hexec]
      exact hrest.exec_eq

end LayoutM.Agrees

open LayoutM (Agrees)

/-! ## Fields -/

section Fields

variable {σ : Type} {P : σ → Prop} {env env' : TypeEnv σ} {s : σ}

/-- A type has the same layout if the classes that are embedded in it are answered in the same way.
-/
theorem AttributeType.layout_agrees (hpointer : env'.pointerSize = env.pointerSize)
    (type : AttributeType)
    (h : ∀ cls, type.embeddedClass? = some cls → ∀ s, P s →
      Agrees P (env.embedded cls) (env'.embedded cls) s) (hs : P s) :
    Agrees P (type.layout env) (type.layout env') s := by
  induction type with
  | primitive scalar => exact .pure hs _
  | object => simpa only [layout, hpointer] using .pure hs _
  | pointer target => simpa only [layout, hpointer] using .pure hs _
  | reference cls => simpa only [layout, hpointer] using .pure hs _
  | embedded cls => exact h cls rfl s hs
  | array element length ih =>
    have helement := ih h
    rw [layout_array, layout_array]
    exact helement.bind fun space _ => .lift helement.holds _

variable {draft : Draft} {note : PlacedField → LayoutM σ Unit}

/-- A field is placed in the same way if the class that it embeds is answered in the same way. -/
theorem Draft.placeField_agrees (hpointer : env'.pointerSize = env.pointerSize)
    (hnote : ∀ field s, P s → P ((note field).exec s).2) (segment : Segment) (name : String)
    (type : AttributeType)
    (h : draft.inherited? name = none → ∀ cls, type.embeddedClass? = some cls → ∀ s, P s →
      Agrees P (env.embedded cls) (env'.embedded cls) s) (hs : P s) :
    Agrees P (draft.placeField env note segment name type)
      (draft.placeField env' note segment name type) s := by
  unfold Draft.placeField
  cases hinherited : draft.inherited? name with
  | some v => exact .pure hs _
  | none =>
    have hfield : Agrees P (draft.sizeField env name type) (draft.sizeField env' name type) s :=
      (AttributeType.layout_agrees hpointer type (h hinherited) hs).adapt _
    apply hfield.bind
    intro field _
    have hstart := Agrees.orThrow hfield.holds (draft.overflow name type)
      (segment.cursor.alignTo field.alignment)
    apply hstart.bind
    intro start _
    have hnoted := Agrees.same
      (hnote { cls := draft.id, name, type, offset := start, size := field.size } _ hstart.holds)
    apply hnoted.bind
    intro _ _
    have hstop := Agrees.orThrow hnoted.holds (draft.overflow name type) (start.advance field.size)
    exact hstop.bind fun stop _ => .pure hstop.holds _

/-- Fields are placed in the same way if the classes that they embed are answered in the same way.
-/
theorem Draft.placeFields_agrees (hpointer : env'.pointerSize = env.pointerSize)
    (hnote : ∀ field s, P s → P ((note field).exec s).2) (entries : List (String × AttributeType))
    (h : ∀ entry ∈ entries, draft.inherited? entry.1 = none →
      ∀ cls, entry.2.embeddedClass? = some cls → ∀ s, P s →
        Agrees P (env.embedded cls) (env'.embedded cls) s)
    (segment : Segment) (hs : P s) :
    Agrees P (draft.placeFields env note segment entries)
      (draft.placeFields env' note segment entries) s := by
  induction entries generalizing segment s with
  | nil => exact .pure hs _
  | cons entry rest ih =>
    obtain ⟨name, type⟩ := entry
    have hfirst := placeField_agrees hpointer hnote segment name type
      (h (name, type) List.mem_cons_self) hs
    exact hfirst.bind fun segment _ =>
      ih (fun entry he => h entry (List.mem_cons_of_mem _ he)) segment hfirst.holds

/-- Attributes are attached in the same way if the classes that they embed are answered in the same
way. -/
theorem Draft.setAttributes_agrees (hpointer : env'.pointerSize = env.pointerSize)
    (hnote : ∀ field s, P s → P ((note field).exec s).2) (table : AttributeTable)
    (h : ∀ entry ∈ table.toList, draft.inherited? entry.1 = none →
      ∀ cls, entry.2.embeddedClass? = some cls → ∀ s, P s →
        Agrees P (env.embedded cls) (env'.embedded cls) s) (hs : P s) :
    Agrees P (draft.setAttributes table env note) (draft.setAttributes table env' note) s := by
  have hfields := placeFields_agrees hpointer hnote table.toList h
    { symbols := ∅, cursor := ⟨draft.attrOffset⟩, alignment := draft.alignment, lastOwn := none } hs
  apply hfields.bind
  intro segment _
  have hsize := Agrees.lift hfields.holds (draft.instanceSize segment)
  exact hsize.bind fun size _ => .pure hsize.holds _

end Fields

/-! ## Builds -/

namespace Registry

section Builds

variable {P : Registry → Prop} {setup : RegistrySetup} {nested nested' : NestedBuild}
  {definition : ClassDefinition} {given : Option Descriptor} {s : Registry}

/-- A set of definitions answers what it has, and only leaves a note of the request. -/
theorem exec_request (set : DefinitionSet) (cls : ClassId) (s : Registry) : ∃ journal, ∀ nested,
    (request { definitions := set } nested cls).exec s =
      (.ok (set.get? cls), { s with journal := journal }) :=
  ⟨_, fun _ => rfl⟩

/-- A class is resolved in the same way if it is built in the same way where it is missing. -/
theorem resolve_agrees {config : LayoutConfig} {set : DefinitionSet} {cls : ClassId}
    (hP : ∀ s journal, P s → P { s with journal := journal }) (hs : P s)
    (hbuilt : ∀ definition, s.cycleThrough? cls = none → s.get? cls = none →
      set.get? cls = some definition → ∀ s', P s' →
        Agrees P (nested definition) (nested' definition) s') :
    Agrees P (resolve (setupOf config set) nested cls) (resolve (setupOf config set) nested' cls)
      s := by
  unfold resolve
  have hget : Agrees P (get : LayoutM Registry Registry) get s := .same hs
  apply hget.bind
  rintro registry ⟨⟩
  cases hcycle : s.cycleThrough? cls with
  | some error => exact .same hs
  | none =>
    cases hget : s.get? cls with
    | some d => exact .pure hs _
    | none =>
      obtain ⟨journal, hrequest⟩ := exec_request set cls s
      have hasked : Agrees P (request { definitions := set } nested cls)
          (request { definitions := set } nested' cls) s := by
        constructor
        · rw [hrequest]
          exact hP s journal hs
        · rw [hrequest, hrequest]
      apply hasked.bind
      intro found hfound
      have hholds := hasked.holds
      rw [hrequest] at hfound hholds ⊢
      cases hfound
      cases hdef : set.get? cls with
      | none => exact .pure hholds _
      | some definition =>
        have hnoted : Agrees P (note (.builtOnDemand cls)) (note (.builtOnDemand cls)) _ :=
          .same (hP _ _ hholds)
        apply hnoted.bind
        intro _ _
        have hnested := hbuilt definition hcycle hget hdef _ hnoted.holds
        exact hnested.bind fun d _ => .pure hnested.holds _

/-- The parents among the bases are the same if the bases are resolved in the same way. -/
theorem collectParents_agrees (bases : List ClassId)
    (h : ∀ base ∈ bases, ∀ s, P s →
      Agrees P (resolve setup nested base) (resolve setup nested' base) s)
    (found : List Descriptor) (hs : P s) :
    Agrees P (collectParents setup nested found bases) (collectParents setup nested' found bases)
      s := by
  induction bases generalizing found s with
  | nil => exact .pure hs found
  | cons base rest ih =>
    have hbase := h base List.mem_cons_self s hs
    have hrest := fun found => ih (fun b hb => h b (List.mem_cons_of_mem _ hb)) found hbase.holds
    apply hbase.bind
    intro answer _
    cases answer with
    | none => exact hrest found
    | some descriptor =>
      dsimp only
      split
      · exact hrest found
      · exact hrest (found ++ [descriptor])

/-- The parent is the same if the bases are resolved in the same way. -/
theorem resolveParent_agrees (decl : ClassDecl) (given : Option Descriptor)
    (h : ∀ base ∈ decl.bases, ∀ s, P s →
      Agrees P (resolve setup nested base) (resolve setup nested' base) s) (hs : P s) :
    Agrees P (resolveParent setup nested decl given)
      (resolveParent setup nested' decl given) s := by
  have hparents := collectParents_agrees decl.bases h given.toList hs
  exact hparents.bind fun parents _ => .lift hparents.holds _

/-- An embedded class is answered in the same way if it is resolved in the same way. -/
theorem typeEnv_agrees {user cls : ClassId}
    (h : Agrees P (resolve setup nested cls) (resolve setup nested' cls) s) :
    Agrees P ((typeEnv setup nested user).embedded cls) ((typeEnv setup nested' user).embedded cls)
      s := by
  apply h.bind
  intro answer _
  cases answer with
  | none => exact .same h.holds
  | some descriptor => exact .pure h.holds _

/-- The attributes of a class are placed in the same way if the classes that they embed are. -/
theorem placeAll_agrees (definition : ClassDefinition)
    (hP : ∀ s journal, P s → P { s with journal := journal })
    (parent : Option Descriptor) (table : AttributeTable)
    (h : ∀ cls, (∃ entry ∈ table.toList, inheritedPlace? parent entry.1 = none ∧
        entry.2.embeddedClass? = some cls) → ∀ s, P s →
      Agrees P (resolve setup nested cls) (resolve setup nested' cls) s) (hs : P s) :
    Agrees P
      ((Draft.ofDecl definition.toClassDecl parent setup.config).setAttributes table
        (typeEnv setup nested definition.id) fun field => note (.fieldPlaced field))
      ((Draft.ofDecl definition.toClassDecl parent setup.config).setAttributes table
        (typeEnv setup nested' definition.id) fun field => note (.fieldPlaced field)) s := by
  refine Draft.setAttributes_agrees ?_ ?_ table ?_ hs
  · rfl
  · exact fun field s hs => hP s _ hs
  · exact fun entry hentry hplace cls hcls s hs =>
      typeEnv_agrees (h cls ⟨entry, hentry, hplace, hcls⟩ s hs)

/-- A class is prepared in the same way if its bases and the classes that it embeds are resolved in
the same way. -/
theorem prepare_agrees (hP : ∀ s journal, P s → P { s with journal := journal })
    (parent : Option Descriptor)
    (h : ∀ cls, Requests definition parent cls → ∀ s, P s →
      Agrees P (resolve setup nested cls) (resolve setup nested' cls) s) (hs : P s) :
    Agrees P (prepare setup nested definition parent) (prepare setup nested' definition parent)
      s := by
  have hjournal := ignoresJournal_ending hP
  have hown := Agrees.lift hs (AttributeTable.ofList definition.id definition.attributes)
  apply hown.bind
  intro own howneq
  rw [LayoutM.exec_liftM] at howneq
  have htable := Agrees.same
    (inheritAttributes_follows hjournal definition.toClassDecl parent own hown.holds).holds
  apply htable.bind
  intro table htableeq
  rw [(inheritAttributes_follows ignoresJournal_bare _ parent own trivial).exec_fst] at htableeq
  have hbegun := Agrees.same (note_follows hjournal (.draftBegun definition.id
    (Draft.ofDecl definition.toClassDecl parent setup.config).vtabOffset
    (Draft.ofDecl definition.toClassDecl parent setup.config).attrOffset
    (Draft.ofDecl definition.toClassDecl parent setup.config).ownSlotsOffset) htable.holds).holds
  apply hbegun.bind
  intro _ _
  have hattributes := placeAll_agrees definition hP parent table
    (fun cls ⟨entry, hentry, hplace, hcls⟩ =>
      h cls ⟨own, table, howneq, htableeq, entry, hentry, hplace, hcls⟩) hbegun.holds
  apply hattributes.bind
  intro draft _
  have hmethods := Agrees.same (addMethods_follows hjournal definition.methods draft
    (inheritMethods definition.toClassDecl parent) hattributes.holds).holds
  exact hmethods.bind fun draft _ => .lift hmethods.holds draft.freeze

/-- A class is found a parent and laid out in the same way, if the same is done for its bases and
for the classes that it stores in place below this parent. -/
theorem construct_agrees (hP : ∀ s journal, P s → P { s with journal := journal }) (hs : P s)
    (hbases : ∀ base ∈ definition.bases, ∀ s, P s →
      Agrees P (resolve setup nested base) (resolve setup nested' base) s)
    (hfields : ∀ parent,
      ((resolveParent setup nested definition.toClassDecl given).exec s).1 = .ok parent →
      ∀ cls, Requests definition parent cls → ∀ s, P s →
        Agrees P (resolve setup nested cls) (resolve setup nested' cls) s) :
    Agrees P (construct setup nested definition given) (construct setup nested' definition given)
      s := by
  have hparent := resolveParent_agrees definition.toClassDecl given hbases hs
  exact hparent.bind fun parent hanswer =>
    prepare_agrees hP parent (hfields parent hanswer) hparent.holds

/-- A build does the same if the class is laid out in the same way where it has to be. -/
theorem exec_buildWith_congr
    (h : definition.validate = .ok () → s.cycleThrough? definition.id = none →
      s.get? definition.id = none →
      (construct setup nested' definition given).exec (s.begin definition.id) =
        (construct setup nested definition given).exec (s.begin definition.id)) :
    (buildWith setup nested' definition given).exec s =
      (buildWith setup nested definition given).exec s := by
  unfold buildWith
  simp only [LayoutM.exec_bind, LayoutM.exec_liftM]
  cases hvalid : definition.validate with
  | error error => rfl
  | ok _ =>
    dsimp only
    rw [exec_whileBuilding, exec_whileBuilding]
    cases hcycle : s.cycleThrough? definition.id with
    | some error => rfl
    | none =>
      simp only [LayoutM.exec_bind, LayoutM.exec_get, get?_begin]
      cases hget : s.get? definition.id with
      | some d => rfl
      | none =>
        dsimp only
        rw [layOut_of_construct, layOut_of_construct, LayoutM.exec_bind, LayoutM.exec_bind,
          h hvalid hcycle hget]

end Builds

end Registry

end ObjectLayout
