import ObjectLayout.Proofs.BuildStep

/-!
# The log of events

While it builds, a registry notes events, and no build reads them. Here actions are compared from
registries that differ in their events at most (`Alike`): actions match if their answers are related
and the registries that they leave are alike again (`Matches`). The rules put this together for
actions as a whole, whatever the relation between the answers; a build matches itself
(`buildNested_ignoresEvents`).
-/

set_option autoImplicit false

namespace ObjectLayout

/-- The same error twice, or two values that are related. -/
inductive SameAnswer {α β : Type} (R : α → β → Prop) :
    Except LayoutError α → Except LayoutError β → Prop where
  | ok {a : α} {b : β} (h : R a b) : SameAnswer R (.ok a) (.ok b)
  | error (error : LayoutError) : SameAnswer R (.error error) (.error error)

/-- An answer is the same as itself. -/
theorem SameAnswer.self {α : Type} (x : Except LayoutError α) : SameAnswer Eq x x := by
  cases x with
  | error error => exact .error error
  | ok a => exact .ok rfl

/-- Answers with the same values are equal. -/
theorem SameAnswer.eq {α : Type} {x y : Except LayoutError α} (h : SameAnswer Eq x y) : x = y := by
  cases h with
  | ok h => rw [h]
  | error error => rfl

namespace Registry

/-- Two registries differ in the events of their journals at most. -/
structure Alike (s t : Registry) : Prop where
  entries_eq : t.entries = s.entries
  inProgress_eq : t.inProgress = s.inProgress
  requests_eq : t.journal.requests = s.journal.requests

namespace Alike

variable {s t : Registry}

/-- A registry is like itself. -/
theorem refl (s : Registry) : Alike s s := ⟨rfl, rfl, rfl⟩

/-- Likeness goes both ways. -/
theorem symm (h : Alike s t) : Alike t s :=
  ⟨h.entries_eq.symm, h.inProgress_eq.symm, h.requests_eq.symm⟩

/-- Likeness goes on from one registry to the next. -/
theorem trans {u : Registry} (h : Alike s t) (h' : Alike t u) : Alike s u where
  entries_eq := h'.entries_eq.trans h.entries_eq
  inProgress_eq := h'.inProgress_eq.trans h.inProgress_eq
  requests_eq := h'.requests_eq.trans h.requests_eq

/-- Registries that are alike hold the same classes. -/
theorem get? (h : Alike s t) : t.get? = s.get? := by
  funext cls
  exact congrArg (OrderedMap.get? · cls) h.entries_eq

/-- Registries that are alike have the same classes in progress. -/
theorem isBuilding (h : Alike s t) : t.isBuilding = s.isBuilding := by
  funext cls
  exact congrArg (List.contains · cls) h.inProgress_eq

/-- Registries that are alike find the same cycles. -/
theorem cycleThrough? (h : Alike s t) : t.cycleThrough? = s.cycleThrough? := by
  funext cls
  unfold Registry.cycleThrough?
  rw [h.isBuilding, h.inProgress_eq]

/-- Registries that are alike stay so when a build begins. -/
theorem begin (h : Alike s t) (cls : ClassId) : Alike (s.begin cls) (t.begin cls) where
  entries_eq := h.entries_eq
  inProgress_eq := congrArg (· ++ [cls]) h.inProgress_eq
  requests_eq := h.requests_eq

end Alike

/-- From registries that are alike, two actions answer what is related and leave registries that are
alike. -/
structure Matches {α β : Type} (R : α → β → Prop) (action : LayoutM Registry α)
    (action' : LayoutM Registry β) : Prop where
  answer : ∀ ⦃s s'⦄, Alike s s' → SameAnswer R (action.exec s).1 (action'.exec s').1
  alike : ∀ ⦃s s'⦄, Alike s s' → Alike (action.exec s).2 (action'.exec s').2

/-- An action does the same whatever events have been noted before. -/
abbrev IgnoresEvents {α : Type} (action : LayoutM Registry α) : Prop := Matches Eq action action

namespace Matches

variable {α β γ δ : Type} {R : α → β → Prop} {S : γ → δ → Prop} {action : LayoutM Registry α}
  {action' : LayoutM Registry β}

/-- Answers that are related match as actions. -/
theorem lift {x : Except LayoutError α} {x' : Except LayoutError β} (h : SameAnswer R x x') :
    Matches R (liftM x : LayoutM Registry α) (liftM x' : LayoutM Registry β) where
  answer s s' _ := by
    rw [LayoutM.exec_liftM, LayoutM.exec_liftM]
    exact h
  alike s s' hs := by
    rw [LayoutM.exec_liftM, LayoutM.exec_liftM]
    exact hs

/-- Values that are related match as actions. -/
theorem pure {a : α} {b : β} (h : R a b) :
    Matches R (Pure.pure a : LayoutM Registry α) (Pure.pure b : LayoutM Registry β) where
  answer _ _ _ := .ok h
  alike _ _ hs := hs

/-- A refusal matches itself. -/
theorem throw (error : LayoutError) :
    Matches R (MonadExcept.throw error : LayoutM Registry α)
      (MonadExcept.throw error : LayoutM Registry β) where
  answer _ _ _ := .error error
  alike _ _ hs := hs

/-- Reading registries that are alike gives registries that are alike. -/
theorem get : Matches Alike (MonadState.get : LayoutM Registry Registry) MonadState.get where
  answer _ _ hs := .ok hs
  alike _ _ hs := hs

/-- The second actions run where the first ones have values. -/
theorem bind {next : α → LayoutM Registry γ} {next' : β → LayoutM Registry δ}
    (h : Matches R action action') (hnext : ∀ a b, R a b → Matches S (next a) (next' b)) :
    Matches S (action >>= next) (action' >>= next') := by
  have hexec : ∀ ⦃s s'⦄, Alike s s' →
      SameAnswer S ((action >>= next).exec s).1 ((action' >>= next').exec s').1 ∧
        Alike ((action >>= next).exec s).2 ((action' >>= next').exec s').2 := by
    intro s s' hs
    have hanswer := h.answer hs
    have halike := h.alike hs
    rw [LayoutM.exec_bind, LayoutM.exec_bind]
    rcases hrun : action.exec s with ⟨x, t⟩
    rcases hrun' : action'.exec s' with ⟨x', t'⟩
    rw [hrun, hrun'] at hanswer halike
    cases hanswer with
    | error error => exact ⟨.error error, halike⟩
    | ok hab => exact ⟨(hnext _ _ hab).answer halike, (hnext _ _ hab).alike halike⟩
  exact ⟨fun _ _ hs => (hexec hs).1, fun _ _ hs => (hexec hs).2⟩

/-- Events may be noted at any time. -/
theorem note (event event' : Event) : Matches Eq (note event) (note event') where
  answer _ _ _ := .ok rfl
  alike _ _ hs := ⟨hs.entries_eq, hs.inProgress_eq, hs.requests_eq⟩

/-- Noting events is not refused and changes nothing else. -/
theorem exec_notes (event : String → Event) (names : List String) (s : Registry) :
    ((names.forM fun name => Registry.note (event name)).exec s).1 = .ok () ∧
      Alike s ((names.forM fun name => Registry.note (event name)).exec s).2 := by
  induction names generalizing s with
  | nil => exact ⟨rfl, .refl s⟩
  | cons name rest ih =>
    obtain ⟨hok, halike⟩ := ih ((Registry.note (event name)).exec s).2
    have hnoted : Alike s ((Registry.note (event name)).exec s).2 := ⟨rfl, rfl, rfl⟩
    exact ⟨hok, hnoted.trans halike⟩

/-- Noting events matches noting others. -/
theorem notes (event : String → Event) (names names' : List String) :
    Matches Eq (names.forM fun name => Registry.note (event name))
      (names'.forM fun name => Registry.note (event name)) where
  answer s s' _ := by
    rw [(exec_notes event names s).1, (exec_notes event names' s').1]
    exact .ok rfl
  alike s s' hs :=
    (exec_notes event names s).2.symm.trans (hs.trans (exec_notes event names' s').2)

end Matches

namespace IgnoresEvents

variable {α β : Type} {action : LayoutM Registry α}

/-- An answer ignores events. -/
theorem lift (x : Except LayoutError α) : IgnoresEvents (liftM x) :=
  Matches.lift (.self x)

/-- A value that may be absent ignores events. -/
theorem orThrow (error : LayoutError) (a : Option α) :
    IgnoresEvents (LayoutM.orThrow error a) := by
  cases a with
  | none => exact .throw error
  | some a => exact .pure rfl

/-- An action whose errors are adapted ignores events if the action does. -/
theorem adapt (f : LayoutError → LayoutError) (h : IgnoresEvents action) :
    IgnoresEvents (ExceptT.adapt f action : LayoutM Registry α) where
  answer s s' hs := by
    show SameAnswer Eq ((action.exec s).1.mapError f) ((action.exec s').1.mapError f)
    rw [(h.answer hs).eq]
    exact .self _
  alike _ _ hs := h.alike hs

/-- An attempt ignores events if the action does. -/
theorem attempt (h : IgnoresEvents action) : IgnoresEvents action.attempt where
  answer _ _ hs := .ok (h.answer hs).eq
  alike _ _ hs := h.alike hs

/-- Two actions one after the other ignore events if both do. -/
theorem bind {next : α → LayoutM Registry β} (h : IgnoresEvents action)
    (hnext : ∀ a, IgnoresEvents (next a)) : IgnoresEvents (action >>= next) := by
  apply Matches.bind h
  rintro a _ rfl
  exact hnext a

/-- An action that reads the registry ignores events if it matches on registries that are alike. -/
theorem get {next : Registry → LayoutM Registry β}
    (hnext : ∀ s s', Alike s s' → Matches Eq (next s) (next s')) :
    IgnoresEvents (MonadState.get >>= next) :=
  Matches.get.bind hnext

/-- Noting a request ignores events. -/
theorem noteRequest (record : SourceRecord) : IgnoresEvents (noteRequest record) where
  answer _ _ _ := .ok rfl
  alike _ _ hs :=
    ⟨hs.entries_eq, hs.inProgress_eq, congrArg (Array.push · record) hs.requests_eq⟩

end IgnoresEvents

/-! ## Builds -/

section Builds

variable {setup : RegistrySetup} {nested : NestedBuild}

/-- Asking the source ignores events if the builds on demand do. -/
theorem request_ignoresEvents (hnested : ∀ needed, IgnoresEvents (nested needed))
    (source : ClassSource) (cls : ClassId) : IgnoresEvents (request source nested cls) := by
  unfold request
  apply IgnoresEvents.get
  intro s s' hs
  rw [hs.isBuilding]
  apply IgnoresEvents.bind (.noteRequest _)
  intro _
  split
  · exact .pure rfl
  · next other _ =>
    apply (IgnoresEvents.attempt (hnested other)).bind
    intro answer
    exact IgnoresEvents.bind (.noteRequest _) fun _ => .pure rfl

/-- Resolving a class ignores events if the builds on demand do. -/
theorem resolve_ignoresEvents (hnested : ∀ needed, IgnoresEvents (nested needed)) (cls : ClassId) :
    IgnoresEvents (resolve setup nested cls) := by
  unfold resolve
  apply IgnoresEvents.get
  intro s s' hs
  rw [hs.cycleThrough?, hs.get?]
  split
  · exact .throw _
  · exact .pure rfl
  · exact .pure rfl
  · next source _ _ _ =>
    apply (request_ignoresEvents hnested source cls).bind
    intro found
    cases found with
    | none => exact .pure rfl
    | some definition =>
      apply IgnoresEvents.bind (.note _ _)
      intro _
      exact (hnested definition).bind fun d => .pure rfl

/-- Collecting the parents ignores events if the builds on demand do. -/
theorem collectParents_ignoresEvents (hnested : ∀ needed, IgnoresEvents (nested needed))
    (found : List Descriptor) (bases : List ClassId) :
    IgnoresEvents (collectParents setup nested found bases) := by
  induction bases generalizing found with
  | nil => exact .pure rfl
  | cons base rest ih =>
    apply (resolve_ignoresEvents hnested base).bind
    intro answer
    cases answer with
    | none => exact ih found
    | some descriptor =>
      dsimp only
      split
      · exact ih found
      · exact ih (found ++ [descriptor])

/-- Resolving the parent ignores events if the builds on demand do. -/
theorem resolveParent_ignoresEvents (hnested : ∀ needed, IgnoresEvents (nested needed))
    (decl : ClassDecl) (given : Option Descriptor) :
    IgnoresEvents (resolveParent setup nested decl given) :=
  (collectParents_ignoresEvents hnested given.toList decl.bases).bind fun _ => .lift _

/-- Laying out a type ignores events if the embedded classes are answered without them. -/
theorem layout_ignoresEvents {env : TypeEnv Registry}
    (henv : ∀ cls, IgnoresEvents (env.embedded cls)) (type : AttributeType) :
    IgnoresEvents (type.layout env) := by
  induction type with
  | primitive scalar => exact .pure rfl
  | object => exact .pure rfl
  | pointer target => exact .pure rfl
  | reference cls => exact .pure rfl
  | embedded cls => exact henv cls
  | array element length ih =>
    rw [AttributeType.layout_array]
    exact ih.bind fun space => .lift _

/-- Placing a field ignores events if the embedded classes are answered without them. -/
theorem placeField_ignoresEvents {env : TypeEnv Registry}
    (henv : ∀ cls, IgnoresEvents (env.embedded cls)) (draft : Draft) (segment : Segment)
    (name : String) (type : AttributeType) :
    IgnoresEvents
      (draft.placeField env (fun field => note (.fieldPlaced field)) segment name type) := by
  unfold Draft.placeField
  split
  · exact .pure rfl
  · apply IgnoresEvents.bind (.adapt _ (layout_ignoresEvents henv type))
    intro field
    apply IgnoresEvents.bind (.orThrow _ _)
    intro start
    apply IgnoresEvents.bind (.note _ _)
    intro _
    exact IgnoresEvents.bind (.orThrow _ _) fun stop => .pure rfl

/-- Placing fields ignores events if the embedded classes are answered without them. -/
theorem placeFields_ignoresEvents {env : TypeEnv Registry}
    (henv : ∀ cls, IgnoresEvents (env.embedded cls)) (draft : Draft) (segment : Segment)
    (entries : List (String × AttributeType)) :
    IgnoresEvents
      (draft.placeFields env (fun field => note (.fieldPlaced field)) segment entries) := by
  induction entries generalizing segment with
  | nil => exact .pure rfl
  | cons entry rest ih =>
    obtain ⟨name, type⟩ := entry
    exact (placeField_ignoresEvents henv draft segment name type).bind ih

/-- Answering an embedded class ignores events if the builds on demand do. -/
theorem typeEnv_ignoresEvents (hnested : ∀ needed, IgnoresEvents (nested needed))
    (user cls : ClassId) : IgnoresEvents ((typeEnv setup nested user).embedded cls) := by
  apply (resolve_ignoresEvents hnested cls).bind
  intro answer
  cases answer with
  | none => exact .throw _
  | some descriptor => exact .pure rfl

/-- Attaching attributes ignores events if the builds on demand do. -/
theorem setAttributes_ignoresEvents (hnested : ∀ needed, IgnoresEvents (nested needed))
    (user : ClassId) (draft : Draft) (table : AttributeTable) :
    IgnoresEvents (draft.setAttributes table (typeEnv setup nested user) fun field =>
      note (.fieldPlaced field)) := by
  apply (placeFields_ignoresEvents (typeEnv_ignoresEvents hnested user) draft _ table.toList).bind
  intro segment
  exact IgnoresEvents.bind (.lift _) fun size => .pure rfl

/-- Inheriting attributes ignores events. -/
theorem inheritAttributes_ignoresEvents (decl : ClassDecl) (parent : Option Descriptor)
    (own : AttributeTable) : IgnoresEvents (inheritAttributes decl parent own) := by
  unfold inheritAttributes
  cases parent with
  | none => exact .pure rfl
  | some p =>
    dsimp only
    apply IgnoresEvents.bind (.lift _)
    intro repeated
    exact IgnoresEvents.bind (.notes _ _ _) fun _ => .pure rfl

/-- Declaring methods ignores events. -/
theorem addMethods_ignoresEvents (draft : Draft) (methods : List MethodDecl) :
    IgnoresEvents (addMethods draft methods) := by
  induction methods generalizing draft with
  | nil => exact .pure rfl
  | cons method rest ih =>
    apply IgnoresEvents.bind (.lift _)
    rintro ⟨draft, placement⟩
    exact IgnoresEvents.bind (.note _ _) fun _ => ih draft

/-- Preparing a class ignores events if the builds on demand do. -/
theorem prepare_ignoresEvents (hnested : ∀ needed, IgnoresEvents (nested needed))
    (definition : ClassDefinition) (parent : Option Descriptor) :
    IgnoresEvents (prepare setup nested definition parent) := by
  apply IgnoresEvents.bind (.lift _)
  intro own
  apply (inheritAttributes_ignoresEvents definition.toClassDecl parent own).bind
  intro table
  apply IgnoresEvents.bind (.note _ _)
  intro _
  apply (setAttributes_ignoresEvents hnested _ _ table).bind
  intro draft
  exact (addMethods_ignoresEvents _ _).bind fun draft => .lift _

/-- Constructing a class ignores events if the builds on demand do. -/
theorem construct_ignoresEvents (hnested : ∀ needed, IgnoresEvents (nested needed))
    (definition : ClassDefinition) (given : Option Descriptor) :
    IgnoresEvents (construct setup nested definition given) :=
  (resolveParent_ignoresEvents hnested definition.toClassDecl given).bind
    (prepare_ignoresEvents hnested definition)

/-- Publishing a descriptor ignores events. -/
theorem publish_ignoresEvents (descriptor : Descriptor) : IgnoresEvents (publish descriptor) := by
  apply IgnoresEvents.get
  intro s s' hs
  rw [hs.get?]
  cases s.get? descriptor.id with
  | some existing => exact .pure rfl
  | none =>
    apply IgnoresEvents.bind
    · exact
        { answer := fun _ _ _ => .ok rfl
          alike := fun _ _ hs =>
            { entries_eq := congrArg (OrderedMap.insert · descriptor.id descriptor) hs.entries_eq
              inProgress_eq := hs.inProgress_eq
              requests_eq := hs.requests_eq } }
    · exact fun _ => .pure rfl

/-- An action while a class is in progress ignores events if it does so by itself. -/
theorem whileBuilding_ignoresEvents {α : Type} {action : LayoutM Registry α}
    (h : IgnoresEvents action) (cls : ClassId) : IgnoresEvents (whileBuilding cls action) := by
  constructor
  · intro s s' hs
    rw [exec_whileBuilding, exec_whileBuilding, hs.cycleThrough?]
    cases s.cycleThrough? cls with
    | some error => exact .error error
    | none => exact h.answer (hs.begin cls)
  · intro s s' hs
    rw [exec_whileBuilding, exec_whileBuilding, hs.cycleThrough?]
    cases s.cycleThrough? cls with
    | some error => exact hs
    | none =>
      have halike := h.alike (hs.begin cls)
      exact ⟨halike.entries_eq, by simp only [release, halike.inProgress_eq],
        halike.requests_eq⟩

/-- A build ignores events if the builds on demand do. -/
theorem buildWith_ignoresEvents (hnested : ∀ needed, IgnoresEvents (nested needed))
    (definition : ClassDefinition) (given : Option Descriptor) :
    IgnoresEvents (buildWith setup nested definition given) := by
  apply IgnoresEvents.bind (.lift _)
  intro _
  apply whileBuilding_ignoresEvents
  apply IgnoresEvents.get
  intro s s' hs
  rw [hs.get?]
  cases s.get? definition.id with
  | some existing => exact IgnoresEvents.bind (.note _ _) fun _ => .pure rfl
  | none =>
    dsimp only
    rw [layOut_of_construct]
    apply (construct_ignoresEvents hnested definition given).bind
    intro prepared
    apply (publish_ignoresEvents prepared).bind
    intro descriptor
    exact IgnoresEvents.bind (.note _ _) fun _ => .pure rfl

/-- However deep a build nests, it does the same whatever events have been noted before. -/
theorem buildNested_ignoresEvents (setup : RegistrySetup) (levels : Nat)
    (definition : ClassDefinition) (given : Option Descriptor) :
    IgnoresEvents (buildNested setup levels definition given) := by
  induction levels generalizing definition given with
  | zero => exact .throw _
  | succ levels ih => exact buildWith_ignoresEvents (fun needed => ih needed none) definition given

end Builds

end Registry

end ObjectLayout
