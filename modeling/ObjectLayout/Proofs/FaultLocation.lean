import ObjectLayout.Proofs.Refusals

/-!
# Where a fault lies

The error of a build names a class that the class needs, or the class itself, and building that
class on its own fails with the same error (`exists_fault_of_freshAnswer`). The proof takes classes
in progress away from the bottom of the stack: an answer stays what it is, unless it is a cycle
through one of the classes that are taken away (`freshAnswer_tracks`). A cycle through a class in
progress names that class, which is why the error is followed up to there.
-/

set_option autoImplicit false

namespace ObjectLayout

open Relation (ReflTransGen)

/-- The error is no cycle through one of the classes. -/
def LayoutError.Avoids (classes : List ClassId) (error : LayoutError) : Prop :=
  ∀ cls ∈ classes, ∀ chain, error ≠ .cyclicDefinition cls chain

/-- An error that is put down to an attribute avoids classes only if the error itself does. -/
theorem LayoutError.Avoids.of_inAttribute {classes : List ClassId} {cls : ClassId} {name : String}
    {error : LayoutError} (h : (error.inAttribute cls name).Avoids classes) :
    error.Avoids classes := by
  rintro other hother chain rfl
  exact h other hother chain rfl

/-! ## Answers that are tracked -/

/-- The second answer is the first one, unless that is an error which is not kept. -/
def Tracks {α : Type} (Kept : LayoutError → Prop) (x x' : Except LayoutError α) : Prop :=
  x' = x ∨ ∃ error, x = .error error ∧ ¬ Kept error

namespace Tracks

variable {α β : Type} {Kept : LayoutError → Prop} {x x' : Except LayoutError α}

/-- An answer tracks itself. -/
theorem same (x : Except LayoutError α) : Tracks Kept x x := .inl rfl

/-- Two steps track what their steps track. -/
theorem bind {f f' : α → Except LayoutError β} (h : Tracks Kept x x')
    (hf : ∀ a, Tracks Kept (f a) (f' a)) : Tracks Kept (x >>= f) (x' >>= f') := by
  rcases h with rfl | ⟨error, rfl, hnot⟩
  · cases x' with
    | error error => exact same _
    | ok a => exact hf a
  · exact .inr ⟨error, rfl, hnot⟩

/-- A map tracks what is mapped. -/
theorem map (f : α → β) (h : Tracks Kept x x') : Tracks Kept (x.map f) (x'.map f) := by
  rcases h with rfl | ⟨error, rfl, hnot⟩
  · exact same _
  · exact .inr ⟨error, rfl, hnot⟩

/-- Adapted errors track what they are adapted from, if no error that is kept comes from one that is
not. -/
theorem mapError {f : LayoutError → LayoutError} (hf : ∀ error, Kept (f error) → Kept error)
    (h : Tracks Kept x x') : Tracks Kept (x.mapError f) (x'.mapError f) := by
  rcases h with rfl | ⟨error, rfl, hnot⟩
  · exact same _
  · exact .inr ⟨f error, rfl, fun hkept => hnot (hf error hkept)⟩

/-- An error that is kept is tracked. -/
theorem eq_error {error : LayoutError} (h : Tracks Kept x x') (hx : x = .error error)
    (hkept : Kept error) : x' = .error error := by
  rcases h with rfl | ⟨error', hx', hnot⟩
  · exact hx
  · rw [hx] at hx'
    cases hx'
    exact absurd hkept hnot

end Tracks

namespace Knowledge

variable {Kept : LayoutError → Prop} {known known' : Knowledge}

/-- The parents among the bases track what is known of them. -/
theorem parents_tracks (h : ∀ cls, Tracks Kept (known cls) (known' cls)) (bases : List ClassId)
    (found : List Descriptor) :
    Tracks Kept (known.parents found bases) (known'.parents found bases) := by
  induction bases generalizing found with
  | nil => exact .same _
  | cons base rest ih =>
    unfold parents
    apply (h base).bind
    intro answer
    cases answer with
    | none => exact ih found
    | some descriptor =>
      dsimp only
      split
      · exact ih found
      · exact ih (found ++ [descriptor])

/-- The layout of a type tracks what is known of its embedded classes. -/
theorem fieldSpace_tracks (h : ∀ cls, Tracks Kept (known cls) (known' cls)) (pointerSize : Nat)
    (user : ClassId) (type : AttributeType) :
    Tracks Kept (known.fieldSpace pointerSize user type)
      (known'.fieldSpace pointerSize user type) := by
  induction type with
  | primitive scalar => exact .inl rfl
  | object => exact .inl rfl
  | pointer target => exact .inl rfl
  | reference cls => exact .inl rfl
  | embedded cls =>
    rw [fieldSpace_embedded_eq, fieldSpace_embedded_eq]
    exact (h cls).bind fun answer => .same _
  | array element length ih =>
    rw [fieldSpace_array_eq, fieldSpace_array_eq]
    exact ih.bind fun space => .same _

variable (hattribute : ∀ cls name error, Kept (LayoutError.inAttribute cls name error) → Kept error)
include hattribute

/-- Placed fields track what is known of their embedded classes. -/
theorem placeFields_tracks (h : ∀ cls, Tracks Kept (known cls) (known' cls)) (pointerSize : Nat)
    (user : ClassId) (draft : Draft) (entries : List (String × AttributeType)) (segment : Segment) :
    Tracks Kept
      (draft.placeFields (known.env pointerSize user) (fun _ => pure ()) segment entries).answer
      (draft.placeFields (known'.env pointerSize user) (fun _ => pure ()) segment
        entries).answer := by
  induction entries generalizing segment with
  | nil => exact .same _
  | cons entry rest ih =>
    obtain ⟨name, type⟩ := entry
    unfold Draft.placeFields
    rw [LayoutM.answer_bind, LayoutM.answer_bind, Draft.answer_placeField, Draft.answer_placeField]
    refine Tracks.bind ?_ ih
    cases draft.inherited? name with
    | some v => exact .same _
    | none =>
      have hsize := (fieldSpace_tracks h pointerSize user type).mapError (hattribute draft.id name)
      exact hsize.bind fun field => .same _

/-- A class that is laid out tracks what is known of others. -/
theorem layOut_tracks (h : ∀ cls, Tracks Kept (known cls) (known' cls)) (config : LayoutConfig)
    (definition : ClassDefinition) (parent : Option Descriptor) :
    Tracks Kept (known.layOut config definition parent)
      (known'.layOut config definition parent) := by
  apply (Tracks.same (AttributeTable.ofList definition.id definition.attributes)).bind
  intro own
  apply (Tracks.same (inheritedAttributes definition.toClassDecl parent own)).bind
  intro table
  refine Tracks.bind ?_ fun draft => .same _
  unfold Draft.setAttributes
  rw [LayoutM.answer_bind, LayoutM.answer_bind]
  exact (placeFields_tracks hattribute h config.pointerSize definition.id _ table.toList _).bind
    fun segment => .same _

end Knowledge

namespace Registry

variable {setup : RegistrySetup} {bottom stack : List ClassId} {levels levels' : Nat}
  {definition : ClassDefinition} {error : LayoutError}

/-! ## Fewer classes in progress -/

/-- The upper part of a stack is a stack. -/
theorem IsStack.of_append (h : IsStack setup (bottom ++ stack)) : IsStack setup stack where
  nodup := (List.nodup_append.1 h.nodup).2.1
  defines cls hcls := h.defines cls (List.mem_append_right _ hcls)

/-- What is settled while fewer classes are in progress is tracked, but for cycles through the
others. -/
theorem settledKnowledge_tracks {answers answers' : ClassDefinition → Except LayoutError Descriptor}
    (h : ∀ needed, setup.definition? needed.id = some needed → needed.id ∉ bottom ++ stack →
      Tracks (LayoutError.Avoids bottom) (answers needed) (answers' needed))
    (hkeyed : setup.IsKeyed) (cls : ClassId) :
    Tracks (LayoutError.Avoids bottom) (settledKnowledge setup (bottom ++ stack) answers cls)
      (settledKnowledge setup stack answers' cls) := by
  unfold settledKnowledge
  by_cases hbottom : cls ∈ bottom
  · rw [cycleThrough?_of_mem (List.mem_append_left _ hbottom)]
    exact .inr ⟨_, rfl, fun havoids => havoids cls hbottom _ rfl⟩
  · by_cases hmem : cls ∈ stack
    · -- The cycle begins in the part of the stack that is left.
      have hdrop : (bottom ++ stack).dropWhile (· ≠ cls) = stack.dropWhile (· ≠ cls) := by
        apply List.dropWhile_append_of_pos
        intro other hother
        simpa using fun heq : other = cls => hbottom (heq ▸ hother)
      rw [cycleThrough?_of_mem (List.mem_append_right _ hmem), cycleThrough?_of_mem hmem, hdrop]
      exact .same _
    · have hnot : cls ∉ bottom ++ stack := by simp [hbottom, hmem]
      rw [cycleThrough?_eq_none hnot, cycleThrough?_eq_none hmem]
      cases hdef : setup.definition? cls with
      | none => exact .same _
      | some needed =>
        have hid := hkeyed.id_eq hdef
        subst hid
        exact (h needed hdef hnot).map some

/-- A class that can be built next can be built next with fewer classes in progress. -/
theorem IsNext.of_append (h : IsNext setup levels (bottom ++ stack) definition)
    (hroom : nestingBound setup ≤ levels' + stack.length) :
    IsNext setup levels' stack definition where
  isStack := h.isStack.of_append
  free := fun hmem => h.free (List.mem_append_right _ hmem)
  room := hroom
  defined := h.defined

/-- With fewer classes in progress a build answers the same, unless it was refused because of one of
those. -/
theorem freshAnswer_tracks (hkeyed : setup.IsKeyed)
    (hnext : IsNext setup levels (bottom ++ stack) definition)
    (hroom : nestingBound setup ≤ levels' + stack.length) :
    Tracks (LayoutError.Avoids bottom) (freshAnswer setup levels (bottom ++ stack) definition)
      (freshAnswer setup levels' stack definition) := by
  induction levels generalizing levels' stack definition with
  | zero =>
    obtain ⟨levels, hlevels⟩ := hnext.exists_levels
    cases hlevels
  | succ levels ih =>
    have hnext' := hnext.of_append hroom
    obtain ⟨levels', rfl⟩ := hnext'.exists_levels
    have hroom' := nestingBound_le_push definition.id hroom
    rw [freshAnswer_succ hkeyed hnext.isStack hnext.room hnext.defined,
      freshAnswer_succ hkeyed hnext'.isStack hroom hnext.defined]
    unfold settledAnswer
    rw [cycleThrough?_eq_none hnext.free, cycleThrough?_eq_none hnext'.free]
    cases definition.validate with
    | error error => exact .same _
    | ok _ =>
      have hnested : ∀ needed, setup.definition? needed.id = some needed →
          needed.id ∉ bottom ++ (stack ++ [definition.id]) → Tracks (LayoutError.Avoids bottom)
            (freshAnswer setup levels (bottom ++ (stack ++ [definition.id])) needed)
            (freshAnswer setup levels' (stack ++ [definition.id]) needed) := by
        intro needed hneeded hfree
        rw [← List.append_assoc] at hfree
        have hinner := hnext.nested hneeded hfree
        rw [List.append_assoc] at hinner
        exact ih hinner hroom'
      rw [List.append_assoc]
      have hknown := settledKnowledge_tracks hnested hkeyed
      have hparent := (Knowledge.parents_tracks hknown definition.bases []).bind
        fun ps => .same (singleParent definition.id ps)
      have hattribute : ∀ cls name (error : LayoutError),
          (error.inAttribute cls name).Avoids bottom → error.Avoids bottom :=
        fun _ _ _ h => h.of_inAttribute
      exact hparent.bind fun parent =>
        Knowledge.layOut_tracks hattribute hknown setup.config definition parent

/-- A build that is refused for no class in progress is refused on its own as well. -/
theorem alone_of_freshAnswer (hkeyed : setup.IsKeyed)
    (hnext : IsNext setup levels stack definition)
    (h : freshAnswer setup levels stack definition = .error error) (havoids : error.Avoids stack) :
    ((buildDefinition setup definition).exec ∅).1 = .error error := by
  rw [← List.append_nil stack] at hnext h
  have htracks : Tracks (LayoutError.Avoids stack)
      (freshAnswer setup levels (stack ++ []) definition)
      (freshAnswer setup (nestingBound setup) [] definition) :=
    freshAnswer_tracks hkeyed hnext (Nat.le_refl _)
  exact htracks.eq_error h havoids

/-! ## The class at fault -/

/-- A class of the source that a class depends on, and that is refused with the error on its own. -/
structure FaultAt (setup : RegistrySetup) (definition : ClassDefinition) (error : LayoutError)
    (found : ClassDefinition) : Prop where
  names : error.class? = some found.id
  reached : ReflTransGen setup.Mentions definition.id found.id
  defined : setup.definition? found.id = some found
  alone : ((buildDefinition setup found).exec ∅).1 = .error error

/-- A build is refused because of a class in progress, or because of a class that is refused on its
own. -/
theorem exists_fault_of_freshAnswer (hkeyed : setup.IsKeyed)
    (hvalid : setup.config.validate = .ok ()) (hnext : IsNext setup levels stack definition)
    (h : freshAnswer setup levels stack definition = .error error) :
    ¬ error.Avoids stack ∨ ∃ found, FaultAt setup definition error found := by
  -- As long as the error is passed on it comes from a class in progress or from the next build. A
  -- cycle through the class itself is told by its own build, as are its own faults.
  refine freshAnswer_error_induction hkeyed hvalid (P := fun stack definition error =>
    ¬ error.Avoids stack ∨ ∃ found, FaultAt setup definition error found) ?_ hnext h
  intro levels stack definition error hnext h hrefusal
  by_cases havoids : error.Avoids stack
  · right
    have hself : error.class? = some definition.id →
        ∃ found, FaultAt setup definition error found :=
      fun hclass => ⟨definition, hclass, .refl, hnext.defined,
        alone_of_freshAnswer hkeyed hnext h havoids⟩
    have hcycle : ¬ error.Avoids (stack ++ [definition.id]) →
        ∃ found, FaultAt setup definition error found := by
      intro hnot
      apply hself
      by_contra hclass
      apply hnot
      rintro cls hcls chain rfl
      rcases List.mem_append.1 hcls with hin | hlast
      · exact havoids cls hin chain rfl
      · rw [List.mem_singleton.1 hlast] at hclass
        exact hclass rfl
    rcases hrefusal.passes_or_names with ⟨other, hnames, hrefused⟩ | ⟨hclass, -⟩
    · cases hrefused with
      | inProgress hmem => exact hcycle fun hall => hall other hmem _ rfl
      | @build needed _ hinner _ ih =>
        have hmentions : setup.Mentions definition.id needed.id :=
          ⟨definition, hnext.defined, hnames.imp_left fun hbase => ⟨hbase, needed, hinner.defined⟩⟩
        rcases ih with hnot | ⟨found, hfound⟩
        · exact hcycle hnot
        · exact ⟨found, hfound.names, .head hmentions hfound.reached, hfound.defined,
            hfound.alone⟩
    · exact hself hclass
  · exact .inl havoids

/-- Wherever a build fails, a fault can be found. -/
theorem Stands.exists_fault {s : Registry} (hs : Stands setup [] s) (hkeyed : setup.IsKeyed)
    (hvalid : setup.config.validate = .ok ())
    (hdef : setup.definition? definition.id = some definition)
    (h : ((buildDefinition setup definition).exec s).1 = .error error) :
    ∃ found, FaultAt setup definition error found := by
  rw [hs.exec_buildDefinition hkeyed hdef] at h
  rcases exists_fault_of_freshAnswer hkeyed hvalid (isNext_nil hdef) h with hnot | hfound
  · exact absurd (fun _ hmem => nomatch hmem) hnot
  · exact hfound

/-- Whatever was built before, the error of a build names the class at fault. -/
theorem exists_fault_of_afterBuilds {config : LayoutConfig} {definitions : List ClassDefinition}
    (hvalid : config.validate = .ok ()) {history : List ClassDefinition}
    (hhistory : ∀ earlier ∈ history, earlier ∈ (DefinitionSet.ofDefinitions definitions).values)
    {definition : ClassDefinition}
    (hdef : definition ∈ (DefinitionSet.ofDefinitions definitions).values) {error : LayoutError}
    (h : ((buildDefinition (setupOf config (.ofDefinitions definitions)) definition).exec
      (afterBuilds (setupOf config (.ofDefinitions definitions)) history ∅)).1 = .error error) :
    ∃ found, FaultAt (setupOf config (.ofDefinitions definitions)) definition error found := by
  have hset := DefinitionSet.isKeyed_ofDefinitions definitions
  exact (stands_afterBuilds config hhistory).exists_fault (isKeyed_setupOf config hset) hvalid
    (hset.get?_id hdef) h

/-- A fault in the base of a class that is stored in an array. -/
theorem exists_fault_of_window :
    ∃ definitions history definition error, ({} : LayoutConfig).validate = .ok () ∧
      (∀ earlier ∈ history, earlier ∈ (DefinitionSet.ofDefinitions definitions).values) ∧
      definition ∈ (DefinitionSet.ofDefinitions definitions).values ∧
      ((buildDefinition (setupOf {} (.ofDefinitions definitions)) definition).exec
        (afterBuilds (setupOf {} (.ofDefinitions definitions)) history ∅)).1 = .error error ∧
      error = .unresolvedType ⟨"Widget"⟩ ⟨"Font"⟩ ∧
      ∃ found, FaultAt (setupOf {} (.ofDefinitions definitions)) definition error found := by
  let widget : ClassDefinition := { id := ⟨"Widget"⟩, attributes := [("font", .embedded ⟨"Font"⟩)] }
  let panel : ClassDefinition := { id := ⟨"Panel"⟩, bases := [⟨"Widget"⟩] }
  let window : ClassDefinition :=
    { id := ⟨"Window"⟩, attributes := [("panels", .array (.embedded ⟨"Panel"⟩) 2)] }
  let definitions := [widget, panel, window]
  have hhistory : ∀ earlier ∈ [panel],
      earlier ∈ (DefinitionSet.ofDefinitions definitions).values := by decide
  have hdef : window ∈ (DefinitionSet.ofDefinitions definitions).values := by decide
  have herror : ((buildDefinition (setupOf {} (.ofDefinitions definitions)) window).exec
      (afterBuilds (setupOf {} (.ofDefinitions definitions)) [panel] ∅)).1 =
      .error (.unresolvedType ⟨"Widget"⟩ ⟨"Font"⟩) := by decide +kernel
  exact ⟨definitions, [panel], window, _, rfl, hhistory, hdef, herror, rfl,
    exists_fault_of_afterBuilds rfl hhistory hdef herror⟩

end Registry

end ObjectLayout
