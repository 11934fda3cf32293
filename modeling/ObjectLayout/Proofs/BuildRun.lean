import ObjectLayout.Proofs.BuildStep

/-!
# Runs of builds

A build nests builds of other classes, and each of them may register classes. `buildNested_records`
is the induction over that nesting, done once: whatever holds of registries and is kept when one
class is registered holds after every build, the registry has grown by it, and a class that was
built is registered. What is registered is always what `Knowledge.layOut` makes of the classes
registered before (`Publication`), since a class that was found or built on the way is still there
when the descriptor is registered.
-/

set_option autoImplicit false

namespace ObjectLayout

open LayoutM (Frame Follows exists_eq_ok_of_bind)

namespace Registry

/-- What a registry knows of a class without building anything. -/
def known (setup : RegistrySetup) (registry : Registry) : Knowledge := fun cls =>
  match registry.get? cls, setup.definition? cls with
  | some d, _ => .ok (some d)
  | none, none => .ok none
  | none, some _ => .error (.cyclicDefinition cls [])

/-- The descriptor of a class that has to be registered. -/
def registered (registry : Registry) (cls : ClassId) : Except LayoutError Descriptor :=
  (registry.get? cls).elim (.error (.cyclicDefinition cls [])) .ok

/-- A class that is registered is known with its descriptor. -/
theorem known_of_get? {setup : RegistrySetup} {registry : Registry} {cls : ClassId}
    {d : Descriptor} (h : registry.get? cls = some d) :
    registry.known setup cls = .ok (some d) := by
  simp only [known, h]

/-- A class that is neither registered nor defined is known to be no extension type. -/
theorem known_of_absent {setup : RegistrySetup} {registry : Registry} {cls : ClassId}
    (h : registry.get? cls = none) (hdef : setup.definition? cls = none) :
    registry.known setup cls = .ok none := by
  simp only [known, h, hdef]

/-- A class that is defined is known with what is registered for it. -/
theorem known_of_defined {setup : RegistrySetup} {registry : Registry} {cls : ClassId}
    {definition : ClassDefinition} (hdef : setup.definition? cls = some definition) :
    registry.known setup cls = (registry.registered cls).map some := by
  unfold known registered
  cases registry.get? cls with
  | none => simp only [hdef]; rfl
  | some d => rfl

/-- What a registry knows is a descriptor that it holds, or that the class is no extension type. -/
theorem of_known_eq_ok {setup : RegistrySetup} {registry : Registry} {cls : ClassId}
    {v : Option Descriptor} (h : registry.known setup cls = .ok v) :
    (∃ d, registry.get? cls = some d ∧ v = some d) ∨
      (registry.get? cls = none ∧ setup.definition? cls = none ∧ v = none) := by
  unfold known at h
  cases hget : registry.get? cls with
  | some d =>
    rw [hget] at h
    cases h
    exact .inl ⟨d, rfl, rfl⟩
  | none =>
    cases hdef : setup.definition? cls with
    | some definition =>
      rw [hget, hdef] at h
      cases h
    | none =>
      rw [hget, hdef] at h
      cases h
      exact .inr ⟨rfl, rfl, rfl⟩

/-- A descriptor that a registry knows is one that it holds. -/
theorem get?_of_known_eq_some {setup : RegistrySetup} {registry : Registry} {cls : ClassId}
    {d : Descriptor} (h : registry.known setup cls = .ok (some d)) :
    registry.get? cls = some d := by
  rcases of_known_eq_ok h with ⟨e, hget, heq⟩ | ⟨-, -, heq⟩
  · cases heq
    exact hget
  · cases heq

/-- A class that is registered by a build: it was absent until then, and its descriptor is what the
class becomes from what the registry knows at that moment. -/
structure Publication (setup : RegistrySetup) (definition : ClassDefinition)
    (given : Option Descriptor) (start : Registry) (run : Except LayoutError Descriptor × Registry)
    (before : Registry) (parent : Option Descriptor) (d : Descriptor) : Prop where
  valid : definition.validate = .ok ()
  /-- The class was absent when the build began. -/
  absent : start.get? definition.id = none
  /-- The class is absent until it is registered. -/
  absent_before : before.get? definition.id = none
  /-- Other classes were registered meanwhile. -/
  grows : Grows setup.Defines (start.begin definition.id) before
  parent_eq : (before.known setup).parent definition.toClassDecl given = .ok parent
  layOut_eq : (before.known setup).layOut setup.config definition parent = .ok d
  answer_eq : run.1 = .ok d
  /-- The build leaves the registry with the descriptor. -/
  entries_eq : run.2.entries = before.entries.insert d.id d

/-- A property of registries that builds keep. `Admits` says which builds. -/
structure Invariant (setup : RegistrySetup) (Admits : ClassDefinition → Option Descriptor → Prop)
    (Inv : Registry → Prop) : Prop where
  /-- Neither the classes in progress nor the journal count. -/
  moment : ∀ {s : Registry} (stack : List ClassId) (journal : Journal), Inv s →
    Inv { s with inProgress := stack, journal := journal }
  /-- Builds on demand are admitted. -/
  admits : ∀ {cls : ClassId} {definition : ClassDefinition},
    setup.definition? cls = some definition → Admits definition none
  /-- The property is kept when a class is registered. -/
  publish : ∀ {levels : Nat} {definition : ClassDefinition} {given : Option Descriptor}
    {s t : Registry} {parent : Option Descriptor} {d : Descriptor}, Admits definition given →
    Inv s → Inv t →
    Publication setup definition given s ((buildNested setup levels definition given).exec s) t
      parent d →
    Inv { t with entries := t.entries.insert d.id d }

/-- What a build leaves: the property holds, the registry has grown, and a class that was built is
registered, now if not before. -/
structure Recorded (setup : RegistrySetup) (Inv : Registry → Prop) (definition : ClassDefinition)
    (given : Option Descriptor) (s : Registry) (run : Except LayoutError Descriptor × Registry) :
    Prop where
  holds : Inv run.2
  grows : Grows (fun other => setup.Defines other ∨ other = definition.id) s run.2
  registered : ∀ {d}, run.1 = .ok d → run.2.get? definition.id = some d
  published : ∀ {d}, run.1 = .ok d → s.get? definition.id = none →
    ∃ t parent, Publication setup definition given s run t parent d

/-- The frame in which a run is compared with what any later registry knows. -/
def recording (setup : RegistrySetup) (Inv : Registry → Prop) : Frame Registry Registry where
  Holds := Inv
  Shows s t := Grows setup.Defines s t
  Exact := False

section Recording

variable {setup : RegistrySetup} {Admits : ClassDefinition → Option Descriptor → Prop}
  {Inv : Registry → Prop} {nested : NestedBuild}

/-- What is recorded does not depend on the journal. -/
theorem ignoresJournal_recording (hI : Invariant setup Admits Inv) :
    IgnoresJournal (recording setup Inv) :=
  fun _ journal hs => ⟨hI.moment _ journal hs, fun _ ht => ht.of_journal journal⟩

/-- Building a class of the source answers what is registered for it from then on. -/
theorem Recorded.follows {definition : ClassDefinition} {s : Registry}
    (hdef : setup.Defines definition.id)
    (h : Recorded setup Inv definition none s ((nested definition).exec s)) :
    Follows (recording setup Inv) (nested definition) (fun t => t.registered definition.id) s where
  holds := h.holds
  narrows := by
    intro t ht
    refine Grows.trans (h.grows.mono fun cls hcls => ?_) ht
    rcases hcls with hcls | rfl
    · exact hcls
    · exact hdef
  answers := by
    intro hex t ht
    rcases hex with hex | hok
    · exact hex.elim
    · cases hanswer : ((nested definition).exec s).1 with
      | error error => rw [hanswer] at hok; simp [Except.isOk, Except.toBool] at hok
      | ok d =>
        have hget := Grows.kept ht (h.registered hanswer)
        simp only [Registry.registered, hget, Option.elim]

/-- Asking for a class answers what the views know of it, if they are registries that have grown
from the one asked. Nothing is said of a class in progress. -/
theorem resolve_grown {F : Frame Registry Registry} (hF : IgnoresJournal F) (hexact : ¬ F.Exact)
    (hgrows : ∀ {s t}, F.Shows s t → Grows setup.Defines s t) (hkeyed : setup.IsKeyed)
    (hnested : ∀ definition, setup.definition? definition.id = some definition → ∀ s, F.Holds s →
      Follows F (nested definition) (fun t => t.registered definition.id) s)
    {known : Registry → Knowledge} {cls : ClassId} {s : Registry} (hs : F.Holds s)
    (hknown : s.cycleThrough? cls = none → ∀ t, known t cls = t.known setup cls) :
    Follows F (resolve setup nested cls) (fun t => known t cls) s := by
  refine Registry.resolve_follows hF hkeyed
    (fun definition hdef s hs => ⟨_, hnested definition hdef s hs⟩) hs ?_ ?_ ?_ ?_
  · exact fun _ _ hex => absurd hex hexact
  · intro d hcycle hfound t ht
    rw [hknown hcycle]
    exact known_of_get? ((hgrows ht).kept hfound)
  · intro hcycle habsent hdef t ht
    rw [hknown hcycle]
    refine known_of_absent ((hgrows ht).fresh habsent (.inl ?_)) hdef
    rintro ⟨definition, h⟩
    rw [hdef] at h
    cases h
  · intro definition hcycle _ hdef s' hs' _
    have hid := hkeyed.id_eq hdef
    subst hid
    refine ⟨_, hnested definition hdef s' hs', fun t _ => ?_⟩
    rw [hknown hcycle]
    exact known_of_defined hdef

/-- Asking for a class answers what any later registry knows of it. -/
theorem resolve_records (hI : Invariant setup Admits Inv) (hkeyed : setup.IsKeyed)
    (hnested : ∀ definition, setup.definition? definition.id = some definition → ∀ s, Inv s →
      Recorded setup Inv definition none s ((nested definition).exec s))
    (cls : ClassId) {s : Registry} (hs : Inv s) :
    Follows (recording setup Inv) (resolve setup nested cls) (fun t => t.known setup cls) s :=
  resolve_grown (ignoresJournal_recording hI) id id hkeyed
    (fun definition hdef s hs => (hnested definition hdef s hs).follows ⟨definition, hdef⟩) hs
    fun _ _ => rfl

/-- The parent and the layout of a class are what any later registry makes of them. -/
theorem construct_records (hI : Invariant setup Admits Inv) (hkeyed : setup.IsKeyed)
    (hnested : ∀ definition, setup.definition? definition.id = some definition → ∀ s, Inv s →
      Recorded setup Inv definition none s ((nested definition).exec s))
    (definition : ClassDefinition) (given : Option Descriptor) {s : Registry} (hs : Inv s) :
    Follows (recording setup Inv) (construct setup nested definition given)
      (fun t => (t.known setup).parent definition.toClassDecl given >>= fun parent =>
        (t.known setup).layOut setup.config definition parent) s := by
  have hresolve := fun cls s (hs : (recording setup Inv).Holds s) =>
    resolve_records hI hkeyed hnested cls hs
  exact construct_follows (ignoresJournal_recording hI) hs (fun base _ => hresolve base)
    fun _ _ cls _ => hresolve cls

/-- When a class is laid out the registry has grown, and knows what the class was made from. -/
theorem construct_ok {definition : ClassDefinition} {given : Option Descriptor} {s t : Registry}
    {d : Descriptor}
    (hconstruct : Follows (recording setup Inv) (construct setup nested definition given)
      (fun t => (t.known setup).parent definition.toClassDecl given >>= fun parent =>
        (t.known setup).layOut setup.config definition parent) s)
    (hexec : (construct setup nested definition given).exec s = (.ok d, t)) :
    d.id = definition.id ∧ Grows setup.Defines s t ∧ ∃ parent,
      (t.known setup).parent definition.toClassDecl given = .ok parent ∧
      (t.known setup).layOut setup.config definition parent = .ok d := by
  obtain ⟨parent, hparent, hlayOut⟩ :=
    exists_eq_ok_of_bind (hconstruct.answer_of_exec hexec (Grows.refl t))
  exact ⟨Knowledge.id_eq_of_layOut hlayOut, hconstruct.narrows_of_exec hexec (Grows.refl t), parent,
    hparent, hlayOut⟩

/-- A build that is refused records nothing, and the registry may have grown. -/
theorem Recorded.of_error {definition : ClassDefinition} {given : Option Descriptor}
    {s after : Registry} {error : LayoutError} (hholds : Inv after)
    (hgrows : Grows (fun other => setup.Defines other ∨ other = definition.id) s after) :
    Recorded setup Inv definition given s (.error error, after) where
  holds := hholds
  grows := hgrows
  registered := fun h => nomatch h
  published := fun h => nomatch h

/-- A build that publishes a descriptor records it. -/
theorem Recorded.of_publication {definition : ClassDefinition} {given : Option Descriptor}
    {s t : Registry} {parent : Option Descriptor} {d : Descriptor} {journal : Journal}
    {run : Except LayoutError Descriptor × Registry}
    (h : Publication setup definition given s run t parent d)
    (hrun : run.2 =
      { t with entries := t.entries.insert d.id d, inProgress := s.inProgress, journal := journal })
    (hid : d.id = definition.id) (hfree : definition.id ∉ s.inProgress) (hholds : Inv run.2) :
    Recorded setup Inv definition given s run := by
  have hanswer := h.answer_eq
  constructor
  · exact hholds
  · rw [hrun]
    have hgrows : Grows (fun other => setup.Defines other ∨ other = definition.id) s
        { t with inProgress := s.inProgress, journal := journal } :=
      (h.grows.of_begin journal).mono fun _ => .inl
    apply hgrows.register (.inr hid)
    · rw [hid]
      exact h.absent_before
    · rw [hid]
      exact hfree
  · intro e he
    rw [hanswer] at he
    cases he
    rw [hrun, ← hid]
    exact OrderedMap.get?_insert_self _ _ _
  · intro e he _
    rw [hanswer] at he
    cases he
    exact ⟨t, parent, h⟩

/-- Whatever is kept when a class is registered is kept by every build, however deep it nests. -/
theorem buildNested_records (hI : Invariant setup Admits Inv) (hkeyed : setup.IsKeyed)
    (levels : Nat) (definition : ClassDefinition) (given : Option Descriptor) {s : Registry}
    (hadmits : Admits definition given) (hs : Inv s) :
    Recorded setup Inv definition given s ((buildNested setup levels definition given).exec s) := by
  -- The builds that a build asks for have one level less, and are recorded by induction.
  induction levels generalizing definition given s with
  | zero => exact .of_error hs (Grows.refl s)
  | succ levels ih =>
    have hnested : ∀ definition, setup.definition? definition.id = some definition → ∀ s, Inv s →
        Recorded setup Inv definition none s ((buildNested setup levels definition none).exec s) :=
      fun definition hdef s hs => ih definition none (hI.admits hdef) hs
    have hbegin : Inv (s.begin definition.id) := hI.moment _ _ hs
    have hconstruct := construct_records hI hkeyed hnested definition given hbegin
    have hstep := buildNested_step hkeyed levels definition given s
    rcases hrun : (buildNested setup (levels + 1) definition given).exec s with ⟨answer, after⟩
    rw [hrun] at hstep
    cases hstep with
    | invalid hvalid => exact .of_error hs (Grows.refl _)
    | cyclic hvalid hcycle => exact .of_error hs (Grows.refl _)
    | reused journal hvalid hcycle hfound =>
      refine ⟨hI.moment _ journal hs, (Grows.refl _).of_journal journal, fun h => ?_,
        fun _ habsent => ?_⟩
      · cases h
        exact hfound
      · rw [hfound] at habsent
        cases habsent
    | @refused error t hvalid hcycle habsent hexec =>
      have hgrows : Grows setup.Defines (s.begin definition.id) t :=
        hconstruct.narrows_of_exec hexec (Grows.refl t)
      exact .of_error (hI.moment _ _ (hconstruct.holds_of_exec hexec))
        ((hgrows.of_begin t.journal).mono fun _ => .inl)
    | @published d t journal hvalid hcycle habsent hexec hnew =>
      have hholds := hconstruct.holds_of_exec hexec
      obtain ⟨hid, hgrows, parent, hparent, hlayOut⟩ := construct_ok hconstruct hexec
      have hpublication : Publication setup definition given s
          ((buildNested setup (levels + 1) definition given).exec s) t parent d :=
        { valid := hvalid
          absent := habsent
          absent_before := by rw [← hid]; exact hnew
          grows := hgrows
          parent_eq := hparent
          layOut_eq := hlayOut
          answer_eq := by rw [hrun]
          entries_eq := by rw [hrun] }
      have hafter := hI.moment s.inProgress journal (hI.publish hadmits hs hholds hpublication)
      rw [hrun] at hpublication
      exact .of_publication hpublication rfl hid (not_mem_inProgress_of_cycleThrough? hcycle) hafter
    | @preceded d e t journal hvalid hcycle habsent hexec hold =>
      -- A class in progress is not registered by the builds that it asks for.
      obtain ⟨hid, hgrows, -⟩ := construct_ok hconstruct hexec
      have hnone : t.get? d.id = none := by
        rw [hid]
        exact hgrows.fresh habsent (.inr (List.mem_append_right _ (by simp)))
      rw [hnone] at hold
      cases hold

/-- A class that was absent is absent after a build of it that is refused. -/
theorem buildNested_refused (hI : Invariant setup Admits Inv) (hkeyed : setup.IsKeyed)
    {levels : Nat} {definition : ClassDefinition} {given : Option Descriptor} {s : Registry}
    {error : LayoutError} (hs : Inv s) (habsent : s.get? definition.id = none)
    (herror : ((buildNested setup levels definition given).exec s).1 = .error error) :
    ((buildNested setup levels definition given).exec s).2.get? definition.id = none := by
  cases levels with
  | zero => exact habsent
  | succ levels =>
    have hbegin : Inv (s.begin definition.id) := hI.moment _ _ hs
    have hconstruct := construct_records hI hkeyed
      (fun needed hdef s hs => buildNested_records hI hkeyed levels needed none (hI.admits hdef) hs)
      definition given hbegin
    have hstep := buildNested_step hkeyed levels definition given s
    rcases hrun : (buildNested setup (levels + 1) definition given).exec s with ⟨answer, after⟩
    rw [hrun] at hstep herror
    cases hstep with
    | invalid => exact habsent
    | cyclic => exact habsent
    | @refused _ t _ _ _ hexec =>
      -- The class was in progress while others were registered.
      have hgrows : Grows setup.Defines (s.begin definition.id) t :=
        hconstruct.narrows_of_exec hexec (Grows.refl t)
      exact hgrows.fresh habsent (.inr (List.mem_append_right _ (by simp)))
    | reused => cases herror
    | published => cases herror
    | preceded => cases herror

end Recording

/-! ## What a build answers -/

/-- What holds of every registry is kept by every build. -/
theorem trivial_invariant (setup : RegistrySetup) :
    Invariant setup (fun _ _ => True) (fun _ => True) where
  moment := fun _ _ _ => trivial
  admits := fun _ => trivial
  publish := fun _ _ _ _ => trivial

/-- What every build leaves, whatever the registry holds. -/
theorem buildNested_recorded {setup : RegistrySetup} (hkeyed : setup.IsKeyed) (levels : Nat)
    (definition : ClassDefinition) (given : Option Descriptor) (s : Registry) :
    Recorded setup (fun _ => True) definition given s
      ((buildNested setup levels definition given).exec s) :=
  buildNested_records (trivial_invariant setup) hkeyed levels definition given trivial trivial

section Answers

variable {setup : RegistrySetup} {definition : ClassDefinition} {given : Option Descriptor}
  {s : Registry} {levels : Nat}

/-- What a registry is left with when a class has been laid out from it on. -/
def register (s t : Registry) (d : Descriptor) : Registry where
  entries := t.entries.insert d.id d
  inProgress := s.inProgress
  journal := { t.journal with events := t.journal.events.push (.built d.toClassLayout) }

/-- A class that was absent is absent when it is laid out, since no build that it asks for registers
a class in progress. -/
theorem of_construct (hkeyed : setup.IsKeyed) {d : Descriptor} {t : Registry}
    (habsent : s.get? definition.id = none)
    (hexec : (construct setup (fun needed => buildNested setup levels needed none) definition
      given).exec (s.begin definition.id) = (.ok d, t)) :
    d.id = definition.id ∧ t.get? d.id = none ∧ ∃ parent,
      (t.known setup).parent definition.toClassDecl given = .ok parent ∧
      (t.known setup).layOut setup.config definition parent = .ok d := by
  have hconstruct := construct_records (trivial_invariant setup) hkeyed
    (fun needed _ s _ => buildNested_recorded hkeyed levels needed none s) definition given
    (s := s.begin definition.id) trivial
  obtain ⟨hid, hgrows, hparent⟩ := construct_ok hconstruct hexec
  refine ⟨hid, ?_, hparent⟩
  rw [hid]
  exact hgrows.fresh habsent (.inr (List.mem_append_right _ (by simp)))

/-- A class that was absent and has been built was laid out. -/
theorem exists_construct (hkeyed : setup.IsKeyed) {d : Descriptor}
    (habsent : s.get? definition.id = none)
    (hanswer : ((buildNested setup levels definition given).exec s).1 = .ok d) :
    ∃ rest t, levels = rest + 1 ∧ definition.validate = .ok () ∧
      s.cycleThrough? definition.id = none ∧
      (construct setup (fun needed => buildNested setup rest needed none) definition given).exec
        (s.begin definition.id) = (.ok d, t) := by
  cases levels with
  | zero => cases hanswer
  | succ levels =>
    have hstep := buildNested_step hkeyed levels definition given s
    rcases hrun : (buildNested setup (levels + 1) definition given).exec s with ⟨answer, after⟩
    rw [hrun] at hstep hanswer
    cases hanswer
    cases hstep with
    | reused _ _ _ hfound =>
      rw [habsent] at hfound
      cases hfound
    | published _ hvalid hfree _ hexec => exact ⟨levels, _, rfl, hvalid, hfree, hexec⟩
    | preceded _ _ _ _ hexec hold =>
      rw [(of_construct hkeyed habsent hexec).2.1] at hold
      cases hold

/-- The build of a class that has to be laid out lays it out and registers it. -/
theorem exec_buildNested (hkeyed : setup.IsKeyed) (levels : Nat)
    (hvalid : definition.validate = .ok ()) (hfree : s.cycleThrough? definition.id = none)
    (habsent : s.get? definition.id = none) :
    (buildNested setup (levels + 1) definition given).exec s =
      match (construct setup (fun needed => buildNested setup levels needed none) definition
        given).exec (s.begin definition.id) with
      | (.error error, t) => (.error error, { t with inProgress := s.inProgress })
      | (.ok d, t) => (.ok d, s.register t d) := by
  have hstack := construct_restores hkeyed
    (fun needed _ => buildNested_restores hkeyed levels needed none) definition given
    (s.begin definition.id)
  rcases hexec : (construct setup (fun needed => buildNested setup levels needed none) definition
    given).exec (s.begin definition.id) with ⟨answer, t⟩
  rw [hexec] at hstack
  show (buildWith setup (fun needed => buildNested setup levels needed none) definition
    given).exec s = _
  unfold buildWith
  rw [LayoutM.exec_bind, LayoutM.exec_liftM, hvalid]
  dsimp only
  rw [exec_whileBuilding, hfree]
  dsimp only
  rw [LayoutM.exec_bind, LayoutM.exec_get]
  dsimp only
  rw [get?_begin, habsent]
  dsimp only
  rw [layOut_of_construct, LayoutM.exec_bind, hexec]
  cases answer with
  | error error =>
    dsimp only
    rw [release_of_begin hstack]
  | ok d =>
    dsimp only
    rw [LayoutM.exec_bind, exec_publish, (of_construct hkeyed habsent hexec).2.1]
    dsimp only
    rw [release_of_begin (s := s)]
    · rfl
    · exact hstack

/-- A build of a class that is absent answers what its construction answers, once the build has
begun. -/
theorem exec_fst_buildNested (hkeyed : setup.IsKeyed) (levels : Nat)
    (hvalid : definition.validate = .ok ()) (hfree : s.cycleThrough? definition.id = none)
    (habsent : s.get? definition.id = none) :
    ((buildNested setup (levels + 1) definition given).exec s).1 =
      ((construct setup (fun needed => buildNested setup levels needed none) definition given).exec
        (s.begin definition.id)).1 := by
  rw [exec_buildNested hkeyed levels hvalid hfree habsent]
  rcases (construct setup (fun needed => buildNested setup levels needed none) definition
    given).exec (s.begin definition.id) with ⟨answer, t⟩
  cases answer <;> rfl

end Answers

end Registry

end ObjectLayout
