import ObjectLayout.Proofs.Placement
import ObjectLayout.Proofs.Runs

/-!
# Consistent registries

Sizes are taken over from the registry while a class is laid out, and the registry grows afterwards.
Nothing becomes stale by that: in a registry whose classes were built below parents that it holds
itself, every class agrees with what the registry holds now (`Consistent`), since each class was
laid out from the classes before it (`Published`) and these are never replaced. For the same reason
the classes stand in the order in which they need each other, and there is no cycle.
-/

set_option autoImplicit false

namespace ObjectLayout.Registry

open LayoutM (exists_eq_ok_of_bind)
open Relation (TransGen)

variable {scope : Scope} {setup : RegistrySetup} {entries entries' : OrderedMap ClassId Descriptor}
  {cls : ClassId} {d : Descriptor} {s : Registry}

/-- A registry over a set of definitions is allowed where its configuration and its definitions are.
-/
theorem allows_setupOf {config : LayoutConfig} {definitions : List ClassDefinition}
    (hconfig : scope.Config config) (hvalid : config.validate = .ok ())
    (hdefinitions : ∀ definition ∈ definitions, scope.Definition definition) :
    scope.Allows (setupOf config (.ofDefinitions definitions)) where
  config := hconfig
  valid := hvalid
  keyed := isKeyed_setupOf config (DefinitionSet.isKeyed_ofDefinitions definitions)
  source := fun hdef => hdefinitions _ (DefinitionSet.mem_of_get?_ofDefinitions hdef)

/-! ## The order of publication -/

/-- Builds of classes in the scope, below parents that are registered. -/
def belowRegistered (scope : Scope) : Calls := fun s definition given =>
  scope.Definition definition ∧ ∀ p, given = some p → s.get? p.id = some p

/-- Entries that came in one after another, each laid out from those before it. -/
inductive Published (scope : Scope) (setup : RegistrySetup) :
    OrderedMap ClassId Descriptor → Prop where
  | empty : Published scope setup ∅
  | insert {entries : OrderedMap ClassId Descriptor} {definition : ClassDefinition}
      {parent : Option Descriptor} {d : Descriptor} (before : Published scope setup entries)
      (hdef : scope.Definition definition) (habsent : entries.get? definition.id = none)
      (hparent : ∀ p, parent = some p → entries.get? p.id = some p)
      (hlayOut : (known setup { entries }).layOut setup.config definition parent = .ok d) :
      Published scope setup (entries.insert definition.id d)

/-- A descriptor is registered under its own identity. -/
theorem Published.id_eq (h : Published scope setup entries) (hget : entries.get? cls = some d) :
    d.id = cls := by
  induction h with
  | empty => cases hget
  | @insert entries definition parent e _ _ _ _ hlayOut ih =>
    rcases OrderedMap.of_get?_insert hget with ⟨rfl, rfl⟩ | hold
    · exact Knowledge.id_eq_of_layOut hlayOut
    · exact ih hold

/-- A class that is laid out from the registered ones keeps the order in which they were laid out.
-/
theorem published_invariant (hallows : scope.Allows setup) (given : Option Descriptor) :
    Invariant setup
      (fun definition parent => scope.Definition definition ∧ ∀ p, parent = some p → given = some p)
      (fun s => Published scope setup s.entries ∧ ∀ p, given = some p → s.get? p.id = some p) where
  moment := fun _ _ hs => hs
  admits := fun hdef => ⟨hallows.source hdef, fun _ h => nomatch h⟩
  publish := by
    intro levels definition given' s t parent d ⟨hdef, hgiven⟩ _ ⟨ht, hheld⟩ hpublication
    rw [Knowledge.id_eq_of_layOut hpublication.layOut_eq]
    have hkept : ∀ cls e, t.get? cls = some e → t.get? e.id = some e := by
      intro cls e hget
      rw [ht.id_eq hget]
      exact hget
    have hparent := hpublication.parent_holds hkept fun p hp => hheld p (hgiven p hp)
    exact ⟨.insert ht hdef hpublication.absent_before hparent hpublication.layOut_eq,
      fun p hp => OrderedMap.get?_insert_of_absent hpublication.absent_before (hheld p hp)⟩

/-- At every moment each class was laid out from those registered before it. -/
theorem Moment.published (hallows : scope.Allows setup)
    (h : Moment setup (belowRegistered scope) s) : Published scope setup s.entries := by
  induction h with
  | fresh => exact .empty
  | step _ hstep ih =>
    cases hstep with
    | note => exact ih
    | @build definition given levels hcalls =>
      exact (buildNested_records (published_invariant hallows given) hallows.keyed levels definition
        given ⟨hcalls.1, fun _ hp => hp⟩ ⟨ih, hcalls.2⟩).holds.1
  | begin _ _ _ ih => exact ih

/-! ## Agreement with the registry -/

/-- An attribute takes the space that its type takes in a registry. -/
structure FitsIn (setup : RegistrySetup) (entries : OrderedMap ClassId Descriptor) (d : Descriptor)
    (v : Variable) (field : FieldLayout) : Prop where
  space_eq : ∀ user,
    (known setup { entries }).fieldSpace setup.config.pointerSize user v.type = .ok field
  size_eq : v.size = field.size
  dvd_offset : field.alignment.value ∣ v.offset.value
  dvd_alignment : field.alignment.value ∣ d.alignment.value

/-- A class agrees with what a registry holds of its parent and of the classes that it stores. -/
structure Consistent (setup : RegistrySetup) (entries : OrderedMap ClassId Descriptor)
    (d : Descriptor) : Prop where
  sound : Sound d
  parent : ∀ p, d.parent? = some p → entries.get? p.id = some p
  fields : ∀ entry ∈ d.symbols.toList, ∃ field, FitsIn setup entries d entry.2 field

/-- What is known of a class is kept while the registry grows. -/
theorem known_mono (hle : ∀ cls e, entries.get? cls = some e → entries'.get? cls = some e)
    (cls : ClassId) (e : Descriptor) (h : known setup { entries } cls = .ok (some e)) :
    known setup { entries := entries' } cls = .ok (some e) :=
  known_of_get? (hle cls e (get?_of_known_eq_some h))

/-- A class stays consistent while the registry grows. -/
theorem Consistent.mono (h : Consistent setup entries d)
    (hle : ∀ cls e, entries.get? cls = some e → entries'.get? cls = some e) :
    Consistent setup entries' d where
  sound := h.sound
  parent p hp := hle _ _ (h.parent p hp)
  fields entry hentry := by
    obtain ⟨field, hfield⟩ := h.fields entry hentry
    exact ⟨field, fun user => Knowledge.fieldSpace_mono (known_mono hle) (hfield.space_eq user),
      hfield.size_eq, hfield.dvd_offset, hfield.dvd_alignment⟩

/-- A class that is laid out agrees with the registry from which it is. -/
theorem Consistent.of_layOut {definition : ClassDefinition} {parent : Option Descriptor}
    (hvalid : setup.config.validate = .ok ())
    (hentries : ∀ cls e, entries.get? cls = some e → Consistent setup entries e)
    (hparent : ∀ p, parent = some p → entries.get? p.id = some p)
    (h : (known setup { entries }).layOut setup.config definition parent = .ok d) :
    Consistent setup entries d := by
  have haligned : (known setup { entries }).IsAligned :=
    isAligned_known fun cls e hget => (hentries cls e hget).sound
  have hsound : ∀ p, parent = some p → Sound p := fun p hp => (hentries _ p (hparent p hp)).sound
  obtain ⟨out, hout⟩ := Knowledge.exists_outline h
  obtain ⟨own, hplaced⟩ := hout.exists_placement hvalid haligned hsound
  have hd := hplaced.sound hvalid haligned.isPower hsound
  refine ⟨hd, fun p hp => hparent p (hout.parent?_eq.symm.trans hp), fun entry hentry => ?_⟩
  rw [hplaced.symbols_eq] at hentry
  rcases List.mem_append.1 hentry with hinherited | hown
  · -- The parent has the attribute in the same place, and is not aligned more strictly.
    cases parent with
    | none => cases hinherited
    | some p =>
      obtain ⟨placed, hmem, rfl⟩ := List.mem_map.1 hinherited
      obtain ⟨field, hfield⟩ := (hentries _ p (hparent p rfl)).fields placed hmem
      have hraise : p.alignment.value ∣ d.alignment.value :=
        (hsound p rfl).isPower.dvd_of_le hd.isPower (hplaced.isGreatest.2 (.inl rfl))
      exact ⟨field, hfield.space_eq, hfield.size_eq, hfield.dvd_offset,
        Nat.dvd_trans hfield.dvd_alignment hraise⟩
  · obtain ⟨field, hspace, hsize, hdvd⟩ := hplaced.packed.exists_field entry hown
    have hle : field.alignment.value ≤ d.alignment.value :=
      hplaced.isGreatest.2 (.inr ⟨entry, hown, field, hspace, rfl⟩)
    exact ⟨field, fun user => Knowledge.fieldSpace_mono (fun _ _ he => he) hspace, hsize, hdvd,
      (haligned.isPower hspace).dvd_of_le hd.isPower hle⟩

/-- Every class agrees with what the registry holds now. -/
theorem Published.consistent (h : Published scope setup entries)
    (hvalid : setup.config.validate = .ok ()) :
    ∀ cls d, entries.get? cls = some d → Consistent setup entries d := by
  induction h with
  | empty => exact fun _ _ h => nomatch h
  | @insert entries definition parent e _ _ habsent hparent hlayOut ih =>
    have hle : ∀ cls e', entries.get? cls = some e' →
        (entries.insert definition.id e).get? cls = some e' :=
      fun cls e' => OrderedMap.get?_insert_of_absent habsent
    intro cls d hget
    rcases OrderedMap.of_get?_insert hget with ⟨rfl, rfl⟩ | hold
    · exact (Consistent.of_layOut hvalid ih hparent hlayOut).mono hle
    · exact (ih cls d hold).mono hle

/-- What is published is aligned. -/
theorem Published.isAligned (h : Published scope setup s.entries)
    (hvalid : setup.config.validate = .ok ()) : (s.known setup).IsAligned :=
  isAligned_known fun cls e hget => (h.consistent hvalid cls e hget).sound

/-! ## Asking again -/

/-- A class that is registered and not in progress is answered from the registry. -/
theorem exec_resolve_of_get? {nested : NestedBuild} {e : Descriptor} (hget : s.get? cls = some e)
    (hfree : cls ∉ s.inProgress) : (resolve setup nested cls).exec s = (.ok (some e), s) := by
  have hcycle : s.cycleThrough? cls = none := by simp [cycleThrough?, isBuilding, hfree]
  unfold resolve
  rw [LayoutM.exec_bind, LayoutM.exec_get]
  simp [hcycle, hget]

/-- A type that can be sized from what is registered is sized like that by asking the registry,
which does not change by it. -/
theorem exec_layout {nested : NestedBuild} {user : ClassId} {type : AttributeType}
    {field : FieldLayout} (hfree : ∀ cls ∈ s.inProgress, s.get? cls = none)
    (h : (s.known setup).fieldSpace setup.config.pointerSize user type = .ok field) :
    (type.layout (typeEnv setup nested user)).exec s = (.ok field, s) := by
  induction type generalizing field with
  | primitive scalar => cases h; rfl
  | object => cases h; rfl
  | pointer target => cases h; rfl
  | reference cls => cases h; rfl
  | embedded cls =>
    obtain ⟨e, he, rfl⟩ := Knowledge.fieldSpace_embedded h
    have hget := get?_of_known_eq_some he
    have hcls : cls ∉ s.inProgress := by
      intro hmem
      rw [hfree cls hmem] at hget
      cases hget
    show ((typeEnv setup nested user).embedded cls).exec s = _
    unfold typeEnv
    rw [LayoutM.exec_bind, exec_resolve_of_get? hget hcls]
    rfl
  | array element length ih =>
    obtain ⟨space, hspace, harray⟩ := Knowledge.fieldSpace_array h
    rw [AttributeType.layout_array, LayoutM.exec_bind, ih hspace]
    simp [harray]

/-! ## The order of dependencies -/

/-- A class that is registered needs its parent and the classes that it stores in place. -/
def DependsOn (s : Registry) (cls needed : ClassId) : Prop :=
  ∃ d, s.get? cls = some d ∧ ((∃ p, d.parent? = some p ∧ p.id = needed) ∨
    ∃ entry ∈ d.symbols.toList, entry.2.type.embeddedClass? = some needed)

/-- A class that agrees with a registry needs nothing that the registry does not hold. -/
theorem Consistent.get?_of_embedded (h : Consistent setup entries d) {entry : String × Variable}
    (hentry : entry ∈ d.symbols.toList) {needed : ClassId}
    (hneeded : entry.2.type.embeddedClass? = some needed) : ∃ e, entries.get? needed = some e := by
  obtain ⟨field, hfield⟩ := h.fields entry hentry
  obtain ⟨e, he⟩ := Knowledge.known_of_layout entry.2.type hneeded (hfield.space_eq d.id)
  exact ⟨e, get?_of_known_eq_some he⟩

/-- The classes that a class needs were registered before it. -/
theorem Published.idxOf_lt (h : Published scope setup entries)
    (hvalid : setup.config.validate = .ok ()) {needed : ClassId}
    (hneeded : DependsOn { entries } cls needed) :
    entries.keys.idxOf needed < entries.keys.idxOf cls := by
  obtain ⟨d, hget, hneeded⟩ := hneeded
  induction h with
  | empty => cases hget
  | @insert entries definition parent e before _ habsent hparent hlayOut ih =>
    have hkeys : (entries.insert definition.id e).keys = entries.keys ++ [definition.id] :=
      OrderedMap.keys_insert_of_none habsent e
    rw [hkeys]
    rcases OrderedMap.of_get?_insert hget with ⟨rfl, rfl⟩ | hold
    · -- The class registered last comes after everything that it was laid out from.
      have hconsistent :=
        Consistent.of_layOut hvalid (before.consistent hvalid) hparent hlayOut
      have hheld : ∃ e', entries.get? needed = some e' := by
        rcases hneeded with ⟨p, hp, rfl⟩ | ⟨entry, hentry, hembedded⟩
        · exact ⟨p, hconsistent.parent p hp⟩
        · exact hconsistent.get?_of_embedded hentry hembedded
      obtain ⟨e', he'⟩ := hheld
      have hmem := OrderedMap.mem_keys_of_get?_eq_some he'
      have hnot := OrderedMap.get?_eq_none_iff.1 habsent
      have hlt := List.idxOf_lt_length_of_mem hmem
      rw [List.idxOf_append, if_pos hmem, List.idxOf_append, if_neg hnot]
      omega
    · have hlt := ih hold
      have hmem := OrderedMap.mem_keys_of_get?_eq_some hold
      have hbefore : needed ∈ entries.keys := by
        have hbound := List.idxOf_lt_length_of_mem hmem
        exact List.idxOf_lt_length_iff.1 (by omega)
      rw [List.idxOf_append, if_pos hbefore, List.idxOf_append, if_pos hmem]
      exact hlt

/-- No registered class depends on itself. -/
theorem Published.acyclic (h : Published scope setup entries)
    (hvalid : setup.config.validate = .ok ()) (cls : ClassId) :
    ¬ TransGen (DependsOn { entries }) cls cls := by
  intro hcycle
  let rank := fun c => entries.keys.idxOf c
  have hlt : ∀ c needed, DependsOn { entries } c needed → rank needed < rank c :=
    fun _ _ hneeded => h.idxOf_lt hvalid hneeded
  have hself : TransGen (fun m n : Nat => n < m) (rank cls) (rank cls) := hcycle.lift rank hlt
  rw [Relation.transGen_eq_self] at hself
  omega

/-- What holds of all classes of a registry. -/
structure IsConsistent (setup : RegistrySetup) (s : Registry) : Prop where
  parent : ∀ {cls d p}, s.get? cls = some d → d.parent? = some p → s.get? p.id = some p
  /-- The classes that are stored in place are registered, in inherited attributes as well. -/
  embedded : ∀ {cls d}, s.get? cls = some d → ∀ entry ∈ d.symbols.toList, ∀ needed,
    entry.2.type.embeddedClass? = some needed → ∃ e, s.get? needed = some e
  /-- A type that is sized again takes the space that it was given, and asking for it changes
  nothing. -/
  sized : ∀ {cls d}, s.get? cls = some d → ∀ entry ∈ d.symbols.toList, ∃ field,
    (∀ nested user, (entry.2.type.layout (typeEnv setup nested user)).exec s = (.ok field, s)) ∧
    entry.2.size = field.size ∧ field.alignment.value ∣ entry.2.offset.value ∧
    field.alignment.value ∣ d.alignment.value
  /-- No class needs itself, be it through others. -/
  acyclic : ∀ cls, ¬ TransGen (DependsOn s) cls cls

/-- Classes that are built below registered parents stay consistent, whatever is built. -/
theorem isConsistent_of_moment (hallows : scope.Allows setup)
    (h : Moment setup (belowRegistered scope) s) : IsConsistent setup s := by
  have hpublished := h.published hallows
  have hconsistent := hpublished.consistent hallows.valid
  have hsafe := h.safe hallows.keyed
  constructor
  · exact fun hget hp => (hconsistent _ _ hget).parent _ hp
  · exact fun hget entry hentry needed hneeded =>
      (hconsistent _ _ hget).get?_of_embedded hentry hneeded
  · intro cls d hget entry hentry
    obtain ⟨field, hfield⟩ := (hconsistent _ _ hget).fields entry hentry
    exact ⟨field, fun _ user => exec_layout hsafe.absent (hfield.space_eq user), hfield.size_eq,
      hfield.dvd_offset, hfield.dvd_alignment⟩
  · exact hpublished.acyclic hallows.valid

/-- A class below one that was built before, with an array of a class that is built on demand. -/
theorem isConsistent_of_segment :
    ∃ setup s, Scope.every.Allows setup ∧ Moment setup (belowRegistered .every) s ∧
      s.entries.keys = [⟨"Shape"⟩, ⟨"Point"⟩, ⟨"Segment"⟩] ∧ IsConsistent setup s := by
  let point : ClassDefinition := { id := ⟨"Point"⟩, attributes := [("x", .primitive .int32)] }
  let segment : ClassDefinition :=
    { id := ⟨"Segment"⟩, attributes := [("ends", .array (.embedded ⟨"Point"⟩) 2)] }
  let setup := setupOf {} (.ofDefinitions [point])
  have hallows : Scope.every.Allows setup := allows_setupOf trivial rfl fun _ _ => trivial
  let first := ((build setup { id := ⟨"Shape"⟩ } none).exec ∅).2
  have hfirst : Moment setup (belowRegistered .every) first :=
    Moment.fresh.step (.build (nestingBound setup) ⟨trivial, fun _ h => nomatch h⟩)
  have hparent : ∀ p, first.get? ⟨"Shape"⟩ = some p → first.get? p.id = some p := by
    intro p hp
    rw [(hfirst.safe hallows.keyed).keyed hp]
    exact hp
  have hcalls : belowRegistered .every first segment (first.get? ⟨"Shape"⟩) := ⟨trivial, hparent⟩
  have hsecond := hfirst.step (.build (nestingBound setup) hcalls)
  exact ⟨setup, _, hallows, hsecond, by decide, isConsistent_of_moment hallows hsecond⟩

end ObjectLayout.Registry
