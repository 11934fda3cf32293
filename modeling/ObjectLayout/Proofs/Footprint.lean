import ObjectLayout.Proofs.Agreement
import ObjectLayout.Proofs.Dependencies

/-!
# The footprint of a build

A build registers classes that the class needs, be it through others, and no other classes
(`buildNested_grows`); a build that succeeds registers all of them. More than that, no other build
is even begun: whatever is put in the place of the builds on behalf of which a class does not need
the other one, and of those that nest deeper than the source has classes, answer and registry are
the same (`exec_buildAmong`). An attribute that the parent places, a pointer and a reference are not
among the needs.

Both facts come from one walk along the questions of a build (`construct_needs`). The walk knows
what the class needs, since the parent that the build finds is the one that the source settles.
-/

set_option autoImplicit false

namespace ObjectLayout.Registry

open LayoutM (Agrees Follows)
open Relation (ReflTransGen TransGen)

/-- A build whose nested builds go through so many levels, and are made on behalf of a class only
where it asks for the other one. Where that does not hold `other` is done instead. -/
noncomputable def buildAmong (setup : RegistrySetup) (Asks : ClassId → ClassId → Prop)
    (other : NestedBuild) : Nat → NestedBuild
  | 0 => other
  | levels + 1 => fun definition =>
    buildWith setup (fun needed =>
      open Classical in
      if Asks definition.id needed.id then buildAmong setup Asks other levels needed
      else other needed) definition none

variable {config : LayoutConfig} {set : DefinitionSet} {definition : ClassDefinition}
  {stack : List ClassId} {levels : Nat} {s : Registry}

/-! ## Questions -/

/-- The parent that a build finds is the one that some grounded registry knows. -/
theorem exists_known_parent {setup : RegistrySetup} (hkeyed : setup.IsKeyed)
    (hs : Grounded setup s.entries) {decl : ClassDecl} {parent : Option Descriptor}
    (h : ((resolveParent setup (fun needed => buildNested setup levels needed none) decl
      none).exec s).1 = .ok parent) :
    ∃ entries, Grounded setup entries ∧
      (known setup { entries }).parent decl none = .ok parent := by
  have hI := grounded_invariant hkeyed
  have hfollows : Follows (recording setup fun s => Grounded setup s.entries)
      (resolveParent setup (fun needed => buildNested setup levels needed none) decl none)
      (fun t => (t.known setup).parent decl none) s :=
    resolveParent_follows decl none (fun base _ s hs => resolve_records hI hkeyed
      (fun needed hdef s hs => buildNested_records hI hkeyed levels needed none (hI.admits hdef) hs)
      base hs) hs
  have hanswers := hfollows.answers (.inr (by rw [h]; rfl)) _ (Grows.refl _)
  exact ⟨_, hfollows.holds, hanswers.trans h⟩

/-- A registry with these classes in progress that has grown by what `May` allows. -/
structure Within (setup : RegistrySetup) (stack : List ClassId) (May : ClassId → Prop)
    (s t : Registry) : Prop where
  stands : Stands setup stack t
  grows : Grows May s t

/-- A note in the journal changes nothing that counts. -/
theorem Within.note {setup : RegistrySetup} {May : ClassId → Prop} {t : Registry}
    (h : Within setup stack May s t) (journal : Journal) :
    Within setup stack May s { t with journal := journal } where
  stands := ⟨h.stands.grounded, h.stands.inProgress_eq, h.stands.absent⟩
  grows := ⟨h.grows.inProgress_eq, h.grows.kept, h.grows.fresh⟩

/-- While a class is laid out, builds are asked for of classes that it needs. If these do the same
and keep to what the other class needs, the class is laid out in the same way, and only what it
needs is registered. -/
theorem construct_needs (levels : Nat) (hset : set.IsKeyed) (hvalid : config.validate = .ok ())
    (hdef : set.get? definition.id = some definition) {nested' : NestedBuild}
    (hnested : ∀ needed, Needs (setupOf config set) definition.id needed.id →
      set.get? needed.id = some needed → needed.id ∉ stack →
      ∀ s, Stands (setupOf config set) stack s →
        Agrees (Grows (ReflTransGen (Needs (setupOf config set)) needed.id) s)
          (buildNested (setupOf config set) levels needed none) (nested' needed) s)
    (hs : Stands (setupOf config set) stack s) :
    Agrees (Within (setupOf config set) stack
        (TransGen (Needs (setupOf config set)) definition.id) s)
      (construct (setupOf config set)
        (fun needed => buildNested (setupOf config set) levels needed none) definition none)
      (construct (setupOf config set) nested' definition none) s := by
  have hkeyed := isKeyed_setupOf config hset
  have hresolve : ∀ cls, (∀ needed, set.get? cls = some needed →
      Needs (setupOf config set) definition.id cls) →
      ∀ t, Within (setupOf config set) stack
        (TransGen (Needs (setupOf config set)) definition.id) s t →
      Agrees (Within (setupOf config set) stack
          (TransGen (Needs (setupOf config set)) definition.id) s)
        (resolve (setupOf config set)
          (fun needed => buildNested (setupOf config set) levels needed none) cls)
        (resolve (setupOf config set) nested' cls) t := by
    intro cls hneeds t ht
    apply resolve_agrees (fun _ journal hu => hu.note journal) ht
    intro needed hcycle _ hneeded t' ht'
    have hid := hset.id_eq hneeded
    subst hid
    have hfree := not_mem_inProgress_of_cycleThrough? hcycle
    rw [ht.stands.inProgress_eq] at hfree
    have hneed := hneeds needed hneeded
    have hbuilt := hnested needed hneed hneeded hfree t' ht'.stands
    have hgrows := hbuilt.holds.mono fun _ hpath => TransGen.head' hneed hpath
    exact ⟨⟨ht'.stands.build hkeyed levels hneeded, ht'.grows.trans hgrows⟩, hbuilt.exec_eq⟩
  apply construct_agrees (fun _ journal hu => hu.note journal) ⟨hs, Grows.refl s⟩
  · exact fun base hbase =>
      hresolve base fun needed hneeded => ⟨definition, hdef, .inl ⟨hbase, needed, hneeded⟩⟩
  · intro parent hanswer cls hrequests
    obtain ⟨entries, hgrounded, hparent⟩ := exists_known_parent hkeyed hs.grounded hanswer
    exact hresolve cls fun _ _ =>
      hgrounded.needs_of_requests hkeyed hvalid hdef hparent hrequests

/-! ## Growth -/

/-- A build registers only what the class needs, be it through others, and the class itself if it
succeeds. -/
theorem buildNested_grows (hset : set.IsKeyed) (hvalid : config.validate = .ok ())
    (hdef : set.get? definition.id = some definition) (hs : Stands (setupOf config set) stack s) :
    Grows (ReflTransGen (Needs (setupOf config set)) definition.id) s
        ((buildNested (setupOf config set) levels definition none).exec s).2 ∧
      (∀ error, ((buildNested (setupOf config set) levels definition none).exec s).1 =
          .error error →
        Grows (TransGen (Needs (setupOf config set)) definition.id) s
          ((buildNested (setupOf config set) levels definition none).exec s).2) := by
  -- The classes that the class needs are built with one level less, and grow by induction.
  induction levels generalizing definition stack s with
  | zero => exact ⟨.refl s, fun _ _ => .refl s⟩
  | succ levels ih =>
    have hconstruct : s.get? definition.id = none → Agrees _ _ _ (s.begin definition.id) :=
      fun habsent => construct_needs levels hset hvalid hdef
        (fun needed _ hneeded _ t ht => .same (ih hneeded ht).1) (hs.begin habsent)
    have hstep := buildNested_step (isKeyed_setupOf config hset) levels definition none s
    rcases hrun : (buildNested (setupOf config set) (levels + 1) definition none).exec s
      with ⟨answer, after⟩
    rw [hrun] at hstep
    cases hstep with
    | invalid => exact ⟨.refl _, fun _ _ => .refl _⟩
    | cyclic => exact ⟨.refl _, fun _ _ => .refl _⟩
    | reused journal => exact ⟨(Grows.refl _).of_journal journal, fun _ h => nomatch h⟩
    | @refused _ t _ _ habsent hexec =>
      have hgrows := (hconstruct habsent).holds.grows
      rw [hexec] at hgrows
      have hafter := hgrows.of_begin t.journal
      exact ⟨hafter.mono fun _ => TransGen.to_reflTransGen, fun _ _ => hafter⟩
    | @published d t journal _ hcycle habsent hexec hnew =>
      have hholds := (hconstruct habsent).holds
      rw [hexec] at hholds
      have hid : d.id = definition.id := by
        have hrecorded := buildNested_records (grounded_invariant (isKeyed_setupOf config hset))
          (isKeyed_setupOf config hset) (levels + 1) definition none ⟨hdef, rfl⟩ hs.grounded
        rw [hrun] at hrecorded
        exact hrecorded.holds.published.id_eq (hrecorded.registered rfl)
      have hafter := (hholds.grows.of_begin journal).mono fun _ => TransGen.to_reflTransGen
      refine ⟨hafter.register (by rw [hid]) hnew ?_, fun _ h => nomatch h⟩
      rw [hid]
      exact not_mem_inProgress_of_cycleThrough? hcycle
    | @preceded d e t journal _ _ habsent hexec hold =>
      have hholds := (hconstruct habsent).holds
      rw [hexec] at hholds
      have hafter := (hholds.grows.of_begin journal).mono fun _ => TransGen.to_reflTransGen
      exact ⟨hafter, fun _ h => nomatch h⟩

/-! ## Nested builds -/

/-- A stack that lacks a class of the set is shorter than the set. -/
theorem IsStack.length_lt_size (h : IsStack (setupOf config set) stack)
    (hdef : set.get? definition.id = some definition) (hmem : definition.id ∉ stack) :
    stack.length < set.size := by
  have hlt := (h.push ⟨definition, hdef⟩ hmem).length_lt
  have hbound : nestingBound (setupOf config set) = set.size + 2 := rfl
  rw [List.length_append, List.length_singleton] at hlt
  omega

/-- Only the builds of classes that are needed are made, and they nest no deeper than the source has
classes. -/
theorem exec_buildAmong (hset : set.IsKeyed) (hvalid : config.validate = .ok ())
    {Asks : ClassId → ClassId → Prop}
    (hasks : ∀ cls needed, Needs (setupOf config set) cls needed → Asks cls needed)
    (other : NestedBuild) (hdef : set.get? definition.id = some definition)
    (hstack : IsStack (setupOf config set) stack) (hmem : definition.id ∉ stack) {among : Nat}
    (hlevels : set.size ≤ levels + stack.length) (hamong : set.size ≤ among + stack.length)
    (hs : Stands (setupOf config set) stack s) :
    (buildAmong (setupOf config set) Asks other among definition).exec s =
      (buildNested (setupOf config set) levels definition none).exec s := by
  -- A class that is not in progress is left as long as there are levels, so that one more level is
  -- there whenever one more class is begun.
  induction among generalizing definition levels stack s with
  | zero =>
    have hlt := hstack.length_lt_size hdef hmem
    omega
  | succ among ih =>
    have hlt := hstack.length_lt_size hdef hmem
    obtain ⟨levels, rfl⟩ : ∃ n, levels = n + 1 := ⟨levels - 1, by omega⟩
    have hpush := hstack.push ⟨definition, hdef⟩ hmem
    have hlength : (stack ++ [definition.id]).length = stack.length + 1 := by simp
    refine exec_buildWith_congr fun _ _ habsent => ?_
    have hbegin : Stands (setupOf config set) (stack ++ [definition.id]) (s.begin definition.id) :=
      hs.begin habsent
    refine (construct_needs levels hset hvalid hdef ?_ hbegin).exec_eq
    intro needed hneeds hneeded hfree t ht
    refine ⟨(buildNested_grows hset hvalid hneeded ht).1, ?_⟩
    rw [if_pos (hasks _ _ hneeds)]
    exact ih hneeded hpush hfree (by omega) (by omega) ht

/-! ## The footprint -/

/-- What a build of a class of the source changes in a registry. -/
structure Footprint (config : LayoutConfig) (set : DefinitionSet) (definition : ClassDefinition)
    (s : Registry) : Prop where
  kept : ∀ {cls d}, s.get? cls = some d →
    ((buildDefinition (setupOf config set) definition).exec s).2.get? cls = some d
  /-- A build that succeeds registers the class and everything that it needs, and nothing else. -/
  succeeds : ∀ {d}, ((buildDefinition (setupOf config set) definition).exec s).1 = .ok d → ∀ cls,
    (∃ e, ((buildDefinition (setupOf config set) definition).exec s).2.get? cls = some e) ↔
      (∃ e, s.get? cls = some e) ∨ ReflTransGen (Needs (setupOf config set)) definition.id cls
  /-- A build that is refused may register classes that the class needs, but not the class. -/
  fails : ∀ {error}, ((buildDefinition (setupOf config set) definition).exec s).1 = .error error →
    ∀ {cls e}, s.get? cls = none →
      ((buildDefinition (setupOf config set) definition).exec s).2.get? cls = some e →
      TransGen (Needs (setupOf config set)) definition.id cls ∧ cls ≠ definition.id
  /-- Whatever is registered is what the class becomes on its own. -/
  alone : ∀ {cls e},
    ((buildDefinition (setupOf config set) definition).exec s).2.get? cls = some e →
    ∃ found, set.get? cls = some found ∧
      ((buildDefinition (setupOf config set) found).exec ∅).1 = .ok e
  /-- A class has no other class built that it does not need. -/
  asks : ∀ other levels, set.size ≤ levels →
    (buildAmong (setupOf config set) (Needs (setupOf config set)) other levels definition).exec s =
      (buildDefinition (setupOf config set) definition).exec s

/-- A build in a registry that builds have filled has the footprint of its class. -/
theorem Stands.footprint (hs : Stands (setupOf config set) [] s) (hset : set.IsKeyed)
    (hvalid : config.validate = .ok ()) (hdef : set.get? definition.id = some definition) :
    Footprint config set definition s := by
  have hkeyed := isKeyed_setupOf config hset
  have hI := grounded_invariant hkeyed
  have hrecorded : Recorded (setupOf config set) (fun s => Grounded (setupOf config set) s.entries)
      definition none s ((buildDefinition (setupOf config set) definition).exec s) :=
    buildNested_records hI hkeyed (nestingBound (setupOf config set)) definition none ⟨hdef, rfl⟩
      hs.grounded
  have hgrows : Grows (ReflTransGen (Needs (setupOf config set)) definition.id) s
      ((buildDefinition (setupOf config set) definition).exec s).2 :=
    (buildNested_grows hset hvalid hdef hs).1
  constructor
  · exact hrecorded.grows.kept
  · intro d hanswer cls
    constructor
    · rintro ⟨e, he⟩
      cases hget : s.get? cls with
      | none => exact .inr (hgrows.may_of_new hget he)
      | some e' => exact .inl ⟨e', rfl⟩
    · rintro (⟨e, he⟩ | hneeds)
      · exact ⟨e, hrecorded.grows.kept he⟩
      · exact hrecorded.holds.registered_of_needs hvalid (hrecorded.registered hanswer) hneeds
  · intro error herror cls e habsent hget
    have hrefused := (buildNested_grows hset hvalid hdef hs).2 error herror
    refine ⟨hrefused.may_of_new habsent hget, ?_⟩
    rintro rfl
    have hnone := buildNested_refused hI hkeyed hs.grounded habsent herror
    have hsome : ((buildNested (setupOf config set) (nestingBound (setupOf config set)) definition
        none).exec s).2.get? definition.id = some e := hget
    rw [hnone] at hsome
    cases hsome
  · intro cls e hget
    obtain ⟨found, hfound⟩ := hrecorded.holds.defines hget
    have hid := hset.id_eq hfound
    subst hid
    exact ⟨found, hfound, hrecorded.holds.rebuilds hkeyed hfound hget (isStack_nil _)
      (fun _ h => nomatch h) (Nat.le_refl _) (stands_empty _)⟩
  · intro other levels hlevels
    have hbound : set.size ≤ nestingBound (setupOf config set) := Nat.le_add_right _ 2
    exact exec_buildAmong hset hvalid (fun _ _ h => h) other hdef (isStack_nil _)
      (fun h => nomatch h) hbound hlevels hs

/-- Whatever was built before, a build has its footprint. -/
theorem footprint_afterBuilds {config : LayoutConfig} {definitions : List ClassDefinition}
    (hvalid : config.validate = .ok ()) {history : List ClassDefinition}
    (hhistory : ∀ earlier ∈ history, earlier ∈ (DefinitionSet.ofDefinitions definitions).values)
    {definition : ClassDefinition}
    (hdef : definition ∈ (DefinitionSet.ofDefinitions definitions).values) :
    Footprint config (.ofDefinitions definitions) definition
      (afterBuilds (setupOf config (.ofDefinitions definitions)) history ∅) := by
  have hset := DefinitionSet.isKeyed_ofDefinitions definitions
  exact (stands_afterBuilds config hhistory).footprint hset hvalid (hset.get?_id hdef)

/-- A class below one that places an attribute already, with a reference to a class that is not
built, and an attribute that stores a class which is built in turn. -/
theorem footprint_of_circle :
    ∃ definitions history definition, ({} : LayoutConfig).validate = .ok () ∧
      (∀ earlier ∈ history, earlier ∈ (DefinitionSet.ofDefinitions definitions).values) ∧
      definition ∈ (DefinitionSet.ofDefinitions definitions).values ∧
      (afterBuilds (setupOf {} (.ofDefinitions definitions)) history ∅).entries.keys =
        [⟨"Point"⟩] ∧
      ((buildDefinition (setupOf {} (.ofDefinitions definitions)) definition).exec
        (afterBuilds (setupOf {} (.ofDefinitions definitions)) history ∅)).2.entries.keys =
        [⟨"Point"⟩, ⟨"Shape"⟩, ⟨"Style"⟩, ⟨"Circle"⟩] ∧
      Footprint {} (.ofDefinitions definitions) definition
        (afterBuilds (setupOf {} (.ofDefinitions definitions)) history ∅) := by
  let point : ClassDefinition := { id := ⟨"Point"⟩, attributes := [("x", .primitive .int32)] }
  let shape : ClassDefinition := { id := ⟨"Shape"⟩, attributes := [("at", .embedded ⟨"Point"⟩)] }
  let circle : ClassDefinition :=
    { id := ⟨"Circle"⟩, bases := [⟨"Shape"⟩]
      attributes := [("at", .embedded ⟨"Point"⟩), ("owner", .reference ⟨"Page"⟩),
        ("styles", .array (.embedded ⟨"Style"⟩) 2)] }
  let definitions := [point, shape, circle, { id := ⟨"Style"⟩ }, { id := ⟨"Page"⟩ }]
  have hhistory : ∀ earlier ∈ [point],
      earlier ∈ (DefinitionSet.ofDefinitions definitions).values := by decide
  have hdef : circle ∈ (DefinitionSet.ofDefinitions definitions).values := by decide
  exact ⟨definitions, [point], circle, rfl, hhistory, hdef, by decide +kernel, by decide +kernel,
    footprint_afterBuilds rfl hhistory hdef⟩

end ObjectLayout.Registry
