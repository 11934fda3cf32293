import ObjectLayout.Proofs.BuildRun
import ObjectLayout.Proofs.Determinacy

/-!
# What grows from a registry

A build that has begun asks for one class after another, and each question may have further classes
built. `buildNested_among` is the induction over the builds that are made while some classes are in
progress: a property is kept by all of them if it is kept whenever a class is registered that is
none of those. What such builds register is `Grown`: each class is laid out from the classes
registered before it, and so two growths of a registry hold the same descriptors (`Grown.agree`).
-/

set_option autoImplicit false

namespace ObjectLayout.Registry

open LayoutM (Frame Follows exists_eq_ok_of_bind)

variable {setup : RegistrySetup} {nested : NestedBuild} {s t u : Registry}
  {stack bottom : List ClassId} {cls : ClassId} {definition : ClassDefinition}
  {given parent : Option Descriptor} {d : Descriptor} {levels : Nat}

/-! ## Classes in progress -/

/-- What a run can find out while the listed classes are in progress. -/
def knownAmong (setup : RegistrySetup) (stack : List ClassId) (t : Registry) : Knowledge :=
  fun cls => if cls ∈ stack then .error (.cyclicDefinition cls []) else t.known setup cls

/-- Where no class is in progress, what is known is what is registered. -/
theorem knownAmong_nil (t : Registry) : knownAmong setup [] t = t.known setup :=
  funext fun _ => if_neg List.not_mem_nil

/-- What is known while classes are in progress is known without them, and is none of them. -/
theorem of_knownAmong_eq_ok {answer : Option Descriptor}
    (h : knownAmong setup stack t cls = .ok answer) :
    cls ∉ stack ∧ t.known setup cls = .ok answer := by
  unfold knownAmong at h
  split at h
  · cases h
  · next hfree => exact ⟨hfree, h⟩

/-- The fewer classes are in progress, the more can be found out. -/
theorem knownAmong_extends (h : bottom ⊆ stack) (t : Registry) :
    (knownAmong setup bottom t).Extends (knownAmong setup stack t) := by
  intro cls v hv
  obtain ⟨hfree, hknown⟩ := of_knownAmong_eq_ok hv
  exact (if_neg fun hmem => hfree (h hmem)).trans hknown

/-- The frame of the runs while the listed classes are in progress. -/
def among (setup : RegistrySetup) (stack : List ClassId) (Inv : Registry → Prop) :
    Frame Registry Registry where
  Holds u := Inv u ∧ u.inProgress = stack
  Shows u t := Grows setup.Defines u t
  Exact := False

/-- What is said of a registry by what is registered in it. -/
def OfEntries (Inv : Registry → Prop) : Prop :=
  ∀ (u : Registry) (stack : List ClassId) (journal : Journal),
    Inv u → Inv { u with inProgress := stack, journal := journal }

variable {Inv : Registry → Prop}

/-- What holds among registries does not depend on the journal. -/
theorem ignoresJournal_among (hI : OfEntries Inv) : IgnoresJournal (among setup stack Inv) :=
  fun u journal hu => ⟨⟨hI u u.inProgress journal hu.1, hu.2⟩, fun _ ht => ht.of_journal journal⟩

/-- A class that is found a parent and laid out while the listed classes are in progress has asked
for none of them. -/
theorem construct_among (hI : OfEntries Inv) (hkeyed : setup.IsKeyed)
    (hnested : ∀ definition, setup.definition? definition.id = some definition → ∀ u, Inv u →
      u.inProgress = stack → Inv ((nested definition).exec u).2 ∧
        Recorded setup (fun _ => True) definition none u ((nested definition).exec u))
    (definition : ClassDefinition) (given : Option Descriptor) (hu : Inv u)
    (hstack : u.inProgress = stack) :
    Follows (among setup stack Inv) (construct setup nested definition given)
      (fun t => (knownAmong setup stack t).parent definition.toClassDecl given >>= fun parent =>
        (knownAmong setup stack t).layOut setup.config definition parent) u := by
  have hfollows : ∀ definition, setup.definition? definition.id = some definition →
      ∀ u, (among setup stack Inv).Holds u →
        Follows (among setup stack Inv) (nested definition)
          (fun t => t.registered definition.id) u := by
    intro definition hdef u hu
    obtain ⟨hholds, hrecorded⟩ := hnested definition hdef u hu.1 hu.2
    have hrecording := hrecorded.follows ⟨definition, hdef⟩
    exact ⟨⟨hholds, hrecorded.grows.inProgress_eq.trans hu.2⟩, hrecording.narrows,
      hrecording.answers⟩
  have hresolve : ∀ cls u, (among setup stack Inv).Holds u →
      Follows (among setup stack Inv) (resolve setup nested cls)
        (fun t => knownAmong setup stack t cls) u := by
    intro cls u hu
    refine resolve_grown (ignoresJournal_among hI) id id hkeyed hfollows hu fun hcycle t => ?_
    have hfree := not_mem_inProgress_of_cycleThrough? hcycle
    rw [hu.2] at hfree
    exact if_neg hfree
  exact construct_follows (ignoresJournal_among hI) ⟨hu, hstack⟩ (fun base _ => hresolve base)
    fun _ _ cls _ => hresolve cls

/-- A construction that succeeds has found its parent and laid the class out from what is known in
the end. -/
theorem construct_among_ok
    (h : Follows (among setup stack Inv) (construct setup nested definition given)
      (fun t => (knownAmong setup stack t).parent definition.toClassDecl given >>= fun parent =>
        (knownAmong setup stack t).layOut setup.config definition parent) u)
    (hexec : (construct setup nested definition given).exec u = (.ok d, t)) :
    ∃ parent, (knownAmong setup stack t).parent definition.toClassDecl given = .ok parent ∧
      (knownAmong setup stack t).layOut setup.config definition parent = .ok d :=
  exists_eq_ok_of_bind (h.answer_of_exec hexec (Grows.refl t))

/-- A property of what is registered that is kept whenever a class of the source is registered while
the listed classes are in progress. -/
structure KeptAmong (setup : RegistrySetup) (bottom : List ClassId) (Inv : Registry → Prop) :
    Prop where
  ofEntries : OfEntries Inv
  publish : ∀ {stack : List ClassId} {definition : ClassDefinition} {t : Registry}
    {parent : Option Descriptor} {d : Descriptor}, bottom ⊆ stack → Inv t →
    setup.definition? definition.id = some definition → definition.validate = .ok () →
    definition.id ∉ bottom → t.get? definition.id = none →
    (knownAmong setup stack t).parent definition.toClassDecl none = .ok parent →
    (knownAmong setup stack t).layOut setup.config definition parent = .ok d →
    Inv { t with entries := t.entries.insert definition.id d }

/-- What a class is made from while it is in progress, if the builds that it asks for keep the
property. -/
theorem KeptAmong.construct (hI : KeptAmong setup bottom Inv) (hkeyed : setup.IsKeyed)
    (levels : Nat)
    (hnested : ∀ {needed v}, setup.definition? needed.id = some needed → Inv v →
      bottom ⊆ v.inProgress → Inv ((buildNested setup levels needed none).exec v).2)
    (definition : ClassDefinition) (given : Option Descriptor) (hu : Inv u)
    (hbottom : bottom ⊆ u.inProgress ++ [definition.id]) :
    Follows (among setup (u.inProgress ++ [definition.id]) Inv)
      (Registry.construct setup (fun needed => buildNested setup levels needed none) definition
        given)
      (fun t => (knownAmong setup (u.inProgress ++ [definition.id]) t).parent
          definition.toClassDecl given >>= fun parent =>
        (knownAmong setup (u.inProgress ++ [definition.id]) t).layOut setup.config definition
          parent) (u.begin definition.id) := by
  refine construct_among hI.ofEntries hkeyed (fun needed hdef v hv hstack => ⟨?_, ?_⟩) definition
    given (hI.ofEntries u _ u.journal hu) rfl
  · rw [← hstack] at hbottom
    exact hnested hdef hv hbottom
  · exact buildNested_recorded hkeyed levels needed none v

/-- Builds of classes of the source that are made while the listed classes are in progress keep the
property, however deep they nest. -/
theorem buildNested_among (hI : KeptAmong setup bottom Inv) (hkeyed : setup.IsKeyed) (levels : Nat)
    (hdef : setup.definition? definition.id = some definition) (hu : Inv u)
    (hbottom : bottom ⊆ u.inProgress) :
    Inv ((buildNested setup levels definition none).exec u).2 := by
  -- What the class needs is built with one level less, while the class is in progress as well.
  induction levels generalizing definition u with
  | zero => exact hu
  | succ levels ih =>
    have hpushed : bottom ⊆ u.inProgress ++ [definition.id] :=
      List.subset_append_of_subset_left _ hbottom
    have hconstruct := hI.construct hkeyed levels ih definition none hu hpushed
    have hstep := buildNested_step hkeyed levels definition none u
    rcases hrun : (buildNested setup (levels + 1) definition none).exec u with ⟨answer, after⟩
    rw [hrun] at hstep
    cases hstep with
    | invalid _ => exact hu
    | cyclic _ _ => exact hu
    | reused journal _ _ _ => exact hI.ofEntries u u.inProgress journal hu
    | @refused error t _ _ _ hexec =>
      exact hI.ofEntries t u.inProgress t.journal (hconstruct.holds_of_exec hexec).1
    | @published d t journal hvalid hcycle _ hexec hnew =>
      have hfree : definition.id ∉ bottom := fun hmem =>
        not_mem_inProgress_of_cycleThrough? hcycle (hbottom hmem)
      obtain ⟨parent, hparent, hlayOut⟩ := construct_among_ok hconstruct hexec
      rw [Knowledge.id_eq_of_layOut hlayOut] at hnew ⊢
      have hinsert := hI.publish hpushed (hconstruct.holds_of_exec hexec).1 hdef hvalid hfree hnew
        hparent hlayOut
      exact hI.ofEntries _ u.inProgress journal hinsert
    | @preceded d e t journal _ _ _ hexec _ =>
      exact hI.ofEntries t u.inProgress journal (hconstruct.holds_of_exec hexec).1

/-! ## Growths of a registry -/

/-- The entries of a registry that builds of classes of the source have added to those of `s`, one
after another: each class became what it is from the classes registered before it, and none of the
classes in progress in `s` was asked for. -/
inductive Grown (setup : RegistrySetup) (s : Registry) : OrderedMap ClassId Descriptor → Prop where
  | start : Grown setup s s.entries
  | insert {entries : OrderedMap ClassId Descriptor} {definition : ClassDefinition}
      {parent : Option Descriptor} {d : Descriptor} (before : Grown setup s entries)
      (hdef : setup.definition? definition.id = some definition)
      (hvalid : definition.validate = .ok ()) (hfree : definition.id ∉ s.inProgress)
      (habsent : entries.get? definition.id = none)
      (hparent : (knownAmong setup s.inProgress { entries }).parent definition.toClassDecl none =
        .ok parent)
      (hlayOut : (knownAmong setup s.inProgress { entries }).layOut setup.config definition parent =
        .ok d) :
      Grown setup s (entries.insert definition.id d)

namespace Grown

variable {entries entries' : OrderedMap ClassId Descriptor} {d' : Descriptor}

/-- What the registry held is kept. -/
theorem kept (h : Grown setup s entries) (hget : s.get? cls = some d) :
    entries.get? cls = some d := by
  induction h with
  | start => exact hget
  | insert before hdef hvalid hfree habsent hparent hlayOut ih =>
    exact OrderedMap.get?_insert_of_absent habsent ih

/-- What is absent in the end was absent at the beginning. -/
theorem absent_start (h : Grown setup s entries) (habsent : entries.get? cls = none) :
    s.get? cls = none := by
  cases hget : s.get? cls with
  | none => rfl
  | some d =>
    rw [h.kept hget] at habsent
    cases habsent

/-- What is new was laid out from an earlier growth. -/
theorem laidOut (h : Grown setup s entries) (hget : entries.get? cls = some d)
    (hnew : s.get? cls = none) :
    ∃ earlier definition parent, Grown setup s earlier ∧
      setup.definition? cls = some definition ∧
      (knownAmong setup s.inProgress { entries := earlier }).parent definition.toClassDecl none =
        .ok parent ∧
      (knownAmong setup s.inProgress { entries := earlier }).layOut setup.config definition parent =
        .ok d := by
  induction h with
  | start => exact absurd (hnew.symm.trans hget) (by simp)
  | @insert entries definition parent e before hdef hvalid hfree habsent hparent hlayOut ih =>
    by_cases hcls : cls = definition.id
    · subst hcls
      rw [OrderedMap.get?_insert_self] at hget
      cases hget
      exact ⟨entries, definition, parent, before, hdef, hparent, hlayOut⟩
    · rw [OrderedMap.get?_insert_of_ne _ hcls] at hget
      exact ih hget

/-- What is new is a class of the source. -/
theorem defines (h : Grown setup s entries) (hget : entries.get? cls = some d)
    (hnew : s.get? cls = none) : setup.Defines cls := by
  obtain ⟨-, definition, -, -, hdef, -⟩ := h.laidOut hget hnew
  exact ⟨definition, hdef⟩

/-- A class that one growth holds and that no definition tells of is held by every growth. -/
theorem get?_of_undefined (h : Grown setup s entries) (h' : Grown setup s entries')
    (hget : entries.get? cls = some d) (hdef : setup.definition? cls = none) :
    entries'.get? cls = some d := by
  cases hstart : s.get? cls with
  | some e =>
    cases (h.kept hstart).symm.trans hget
    exact h'.kept hstart
  | none =>
    obtain ⟨definition, hdefines⟩ := h.defines hget hstart
    rw [hdef] at hdefines
    cases hdefines

/-- Where two growths hold the same descriptors of the classes that they share, they know nothing
different of any class. -/
theorem compatible (h : Grown setup s entries) (h' : Grown setup s entries')
    (hagree : ∀ {cls d d'}, entries.get? cls = some d → entries'.get? cls = some d' → d = d') :
    Knowledge.Compatible (knownAmong setup s.inProgress { entries })
      (knownAmong setup s.inProgress { entries := entries' }) := by
  intro cls v w hv hw
  rcases of_known_eq_ok (of_knownAmong_eq_ok hv).2 with ⟨d, hget, rfl⟩ | ⟨hget, hdef, rfl⟩ <;>
    rcases of_known_eq_ok (of_knownAmong_eq_ok hw).2 with ⟨d', hget', rfl⟩ | ⟨hget', hdef', rfl⟩
  · rw [hagree hget hget']
  · exact absurd ((h.get?_of_undefined h' hget hdef').symm.trans hget') (by simp)
  · exact absurd ((h'.get?_of_undefined h hget' hdef).symm.trans hget) (by simp)
  · rfl

/-- Two growths of a registry hold the same descriptor of every class that both hold. -/
theorem agree (h : Grown setup s entries) (h' : Grown setup s entries')
    (hget : entries.get? cls = some d) (hget' : entries'.get? cls = some d') : d = d' := by
  -- A class that is new in both was laid out in both from what was registered before, and these
  -- earlier growths agree by induction.
  induction h generalizing entries' cls d d' with
  | start => exact Option.some.inj ((h'.kept hget).symm.trans hget')
  | @insert entries definition parent e before hdef hvalid hfree habsent hparent hlayOut ih =>
    by_cases hcls : cls = definition.id
    · subst hcls
      rw [OrderedMap.get?_insert_self] at hget
      cases hget
      obtain ⟨earlier, definition', parent', hearlier, hdef', hparent', hlayOut'⟩ :=
        h'.laidOut hget' (before.absent_start habsent)
      rw [hdef] at hdef'
      cases hdef'
      have hcompatible := before.compatible hearlier (ih hearlier)
      have hsame := Knowledge.parent_eq_of_compatible hcompatible hparent hparent'
      rw [← hsame] at hlayOut'
      exact Knowledge.layOut_eq_of_compatible hcompatible hlayOut hlayOut'
    · rw [OrderedMap.get?_insert_of_ne _ hcls] at hget
      exact ih h' hget hget'

end Grown

/-- Builds of classes of the source that are made while at least the classes in progress in `s` are
in progress add to a growth of `s`. -/
theorem keptAmong_grown (setup : RegistrySetup) (s : Registry) :
    KeptAmong setup s.inProgress fun t => Grown setup s t.entries where
  ofEntries := fun _ _ _ h => h
  publish := fun hsubset ht hdef hvalid hfree habsent hparent hlayOut =>
    .insert ht hdef hvalid hfree habsent
      (Knowledge.parent_mono (knownAmong_extends hsubset _) hparent)
      (Knowledge.layOut_mono (fun _ _ h => knownAmong_extends hsubset _ h) hlayOut)

end ObjectLayout.Registry
