import Mathlib.Logic.Relation
import ObjectLayout.Proofs.History

/-!
# Runs

A run makes one build after another, and each of them may make builds of its own, while the class
that it builds is in progress. `Step` is what can happen to a registry between two points of a run,
a whole build being one step, and `Moment` holds of the registries at all points of a run, those
inside builds included. Runs differ in the builds that they make, which `Calls` says.

What a build does at a moment is `SafeBuild`; it comes from `buildNested_records` and from the path
along which a class is laid out (`construct_path`).
-/

set_option autoImplicit false

namespace ObjectLayout.Registry

open LayoutM (Frame Follows)
open Relation (ReflTransGen)

/-- Which builds a run makes in which registry. -/
abbrev Calls := Registry → ClassDefinition → Option Descriptor → Prop

/-- What happens from one point of a run to the next one at the same depth of nesting. -/
inductive Step (setup : RegistrySetup) (calls : Calls) : Registry → Registry → Prop where
  /-- The journal changes. -/
  | note (s : Registry) (journal : Journal) : Step setup calls s { s with journal := journal }
  /-- A build is made, with whatever success. -/
  | build {s : Registry} {definition : ClassDefinition} {given : Option Descriptor} (levels : Nat)
      (hcalls : calls s definition given) :
      Step setup calls s ((buildNested setup levels definition given).exec s).2

/-- A run goes from one registry to another one, step by step. -/
abbrev Path (setup : RegistrySetup) (calls : Calls) : Registry → Registry → Prop :=
  ReflTransGen (Step setup calls)

/-- The registries that a run passes through. -/
inductive Moment (setup : RegistrySetup) (calls : Calls) : Registry → Prop where
  | fresh : Moment setup calls ∅
  | step {s t : Registry} (h : Moment setup calls s) (hstep : Step setup calls s t) :
      Moment setup calls t
  /-- A build has begun that has to lay out the class. -/
  | begin {s : Registry} {cls : ClassId} (h : Moment setup calls s)
      (hfree : s.cycleThrough? cls = none) (habsent : s.get? cls = none) :
      Moment setup calls (s.begin cls)

variable {setup : RegistrySetup} {calls : Calls} {s t : Registry}

/-- A step stays one where more builds may be made. -/
theorem Step.mono {calls' : Calls} (hle : ∀ s definition given, calls s definition given →
    calls' s definition given) (h : Step setup calls s t) : Step setup calls' s t := by
  cases h with
  | note journal => exact .note s journal
  | build levels hcalls => exact .build levels (hle _ _ _ hcalls)

/-- A run stays one where more builds may be made. -/
theorem Path.mono {calls' : Calls} (hle : ∀ s definition given, calls s definition given →
    calls' s definition given) (h : Path setup calls s t) : Path setup calls' s t :=
  ReflTransGen.mono (fun _ _ hstep => Step.mono hle hstep) _ _ h

/-- What a run leads to from a moment is a moment. -/
theorem Moment.path (h : Moment setup calls s) (hpath : Path setup calls s t) :
    Moment setup calls t := by
  induction hpath with
  | refl => exact h
  | tail _ hstep ih => exact ih.step hstep

/-! ## The path of a build -/

/-- Builds of classes of the source. -/
def onDemand (setup : RegistrySetup) : Calls := fun _ definition given =>
  setup.definition? definition.id = some definition ∧ given = none

/-- While a class is laid out, classes are built on demand, and nothing else happens that concerns
the registry. -/
theorem construct_path (hkeyed : setup.IsKeyed) (levels : Nat) (definition : ClassDefinition)
    (given : Option Descriptor) (s : Registry) :
    Path setup (onDemand setup) s ((construct setup
      (fun needed => buildNested setup levels needed none) definition given).exec s).2 := by
  refine construct_keeps (P := Path setup (onDemand setup) s) ?_ hkeyed ?_ definition given .refl
  · exact fun u journal hu => hu.tail (.note u journal)
  · exact fun definition hdef u hu => hu.tail (.build levels ⟨hdef, rfl⟩)

/-! ## Safety -/

/-- Every descriptor stands under its own identity. -/
def IsKeyed (s : Registry) : Prop := ∀ ⦃cls d⦄, s.get? cls = some d → d.id = cls

/-- The empty registry is keyed. -/
theorem isKeyed_empty : IsKeyed ∅ := fun _ _ h => nomatch h

/-- A descriptor that is registered under its identity keeps the registry keyed. -/
theorem IsKeyed.insert {t : Registry} (h : IsKeyed t) (d : Descriptor) :
    IsKeyed { t with entries := t.entries.insert d.id d } := by
  intro cls e hget
  rcases OrderedMap.of_get?_insert hget with ⟨rfl, rfl⟩ | hold
  · rfl
  · exact h hold

/-- Being keyed is kept by every build. -/
theorem keyed_invariant (setup : RegistrySetup) :
    Invariant setup (fun _ _ => True) IsKeyed where
  moment := fun _ _ hs => hs
  admits := fun _ => trivial
  publish := fun _ _ ht _ => ht.insert _

/-- What a step of a run keeps. -/
structure Keeps (s t : Registry) : Prop where
  keyed : IsKeyed s → IsKeyed t
  inProgress_eq : t.inProgress = s.inProgress
  kept : ∀ {cls d}, s.get? cls = some d → t.get? cls = some d
  /-- No class in progress has been registered. -/
  absent : ∀ cls ∈ s.inProgress, s.get? cls = none → t.get? cls = none

/-- A registry keeps what it holds. -/
theorem Keeps.refl (s : Registry) : Keeps s s := ⟨id, rfl, id, fun _ _ h => h⟩

/-- What is kept twice is kept. -/
theorem Keeps.trans {u : Registry} (h : Keeps s t) (h' : Keeps t u) : Keeps s u where
  keyed hs := h'.keyed (h.keyed hs)
  inProgress_eq := h'.inProgress_eq.trans h.inProgress_eq
  kept hs := h'.kept (h.kept hs)
  absent cls hcls hs := h'.absent cls (by rwa [h.inProgress_eq]) (h.absent cls hcls hs)

/-- A step keeps what is registered and which classes are in progress. -/
theorem Step.keeps (hkeyed : setup.IsKeyed) (h : Step setup calls s t) : Keeps s t := by
  cases h with
  | note journal => exact ⟨id, rfl, id, fun _ _ h => h⟩
  | @build definition given levels _ =>
    have hgrows := (buildNested_recorded hkeyed levels definition given s).grows
    exact
      { keyed := fun hs => (buildNested_records (keyed_invariant setup) hkeyed levels definition
          given trivial hs).holds
        inProgress_eq := buildNested_restores hkeyed levels definition given s
        kept := hgrows.kept
        absent := fun _ hcls hs => hgrows.fresh hs (.inr hcls) }

/-- A run keeps what its steps keep. -/
theorem Path.keeps (hkeyed : setup.IsKeyed) (h : Path setup calls s t) : Keeps s t := by
  induction h with
  | refl => exact .refl s
  | tail _ hstep ih => exact ih.trans (hstep.keeps hkeyed)

/-- What holds of a registry at every moment. -/
structure SafeMoment (s : Registry) : Prop where
  keyed : IsKeyed s
  /-- No class is in progress twice. -/
  nodup : s.inProgress.Nodup
  /-- A class that is in progress is not registered. -/
  absent : ∀ cls ∈ s.inProgress, s.get? cls = none

/-- A build may begin at a safe moment. -/
theorem SafeMoment.begin (h : SafeMoment s) {cls : ClassId} (hfree : s.cycleThrough? cls = none)
    (habsent : s.get? cls = none) : SafeMoment (s.begin cls) where
  keyed := h.keyed
  nodup := nodup_push h.nodup (not_mem_inProgress_of_cycleThrough? hfree)
  absent := List.forall_mem_append.2 ⟨h.absent, List.forall_mem_singleton.2 habsent⟩

/-- Every moment of a run is safe. -/
theorem Moment.safe (hkeyed : setup.IsKeyed) (h : Moment setup calls s) : SafeMoment s := by
  induction h with
  | fresh => exact ⟨isKeyed_empty, List.nodup_nil, fun _ h => nomatch h⟩
  | step _ hstep ih =>
    have hkeeps := hstep.keeps hkeyed
    constructor
    · exact hkeeps.keyed ih.keyed
    · rw [hkeeps.inProgress_eq]
      exact ih.nodup
    · intro cls hcls
      rw [hkeeps.inProgress_eq] at hcls
      exact hkeeps.absent cls hcls (ih.absent cls hcls)
  | begin _ hfree habsent ih => exact ih.begin hfree habsent

/-- What a build does at a moment of a run: `run` are its answer and the registry that it leaves. -/
structure SafeBuild (setup : RegistrySetup) (definition : ClassDefinition) (s : Registry)
    (run : Except LayoutError Descriptor × Registry) : Prop where
  /-- The classes in progress are those of before, whether the build succeeds or not. -/
  inProgress_eq : run.2.inProgress = s.inProgress
  /-- No entry is removed or replaced. -/
  kept : ∀ {cls d}, s.get? cls = some d → run.2.get? cls = some d
  /-- The answer is the descriptor that is registered. -/
  answered : ∀ {d}, run.1 = .ok d → run.2.get? definition.id = some d
  /-- A refused build registers nothing for the class. -/
  refused : ∀ {error}, run.1 = .error error → s.get? definition.id = none →
    run.2.get? definition.id = none
  /-- In between classes are built on demand, while this one is in progress, and what is registered
  by that stays. -/
  inside : s.cycleThrough? definition.id = none → s.get? definition.id = none →
    ∃ t, Path setup (onDemand setup) (s.begin definition.id) t ∧
      ∀ {cls d}, t.get? cls = some d → run.2.get? cls = some d

/-- A build goes along a run, and what is registered on it stays registered. -/
theorem buildNested_inside (hkeyed : setup.IsKeyed) (levels : Nat) (definition : ClassDefinition)
    (given : Option Descriptor) (hfree : s.cycleThrough? definition.id = none)
    (habsent : s.get? definition.id = none) :
    ∃ t, Path setup (onDemand setup) (s.begin definition.id) t ∧ ∀ {cls d}, t.get? cls = some d →
      ((buildNested setup levels definition given).exec s).2.get? cls = some d := by
  cases levels with
  | zero => exact ⟨_, .refl, id⟩
  | succ levels =>
    have hpath := construct_path hkeyed levels definition given (s.begin definition.id)
    have hstep := buildNested_step hkeyed levels definition given s
    rcases hrun : (buildNested setup (levels + 1) definition given).exec s with ⟨answer, after⟩
    rw [hrun] at hstep
    cases hstep with
    | invalid => exact ⟨_, .refl, id⟩
    | cyclic _ hcycle =>
      rw [hfree] at hcycle
      cases hcycle
    | reused _ _ _ hfound =>
      rw [habsent] at hfound
      cases hfound
    | refused _ _ _ hexec =>
      rw [hexec] at hpath
      exact ⟨_, hpath, id⟩
    | @published d t _ _ _ _ hexec hnew =>
      rw [hexec] at hpath
      exact ⟨_, hpath, OrderedMap.get?_insert_of_absent hnew⟩
    | preceded _ _ _ _ hexec =>
      rw [hexec] at hpath
      exact ⟨_, hpath, id⟩

/-- Every build at a moment of a run is safe. -/
theorem Moment.safeBuild (hkeyed : setup.IsKeyed) (h : Moment setup calls s) (levels : Nat)
    (definition : ClassDefinition) (given : Option Descriptor) :
    SafeBuild setup definition s ((buildNested setup levels definition given).exec s) := by
  have hs := (h.safe hkeyed).keyed
  have hrecorded := buildNested_records (keyed_invariant setup) hkeyed levels definition given
    trivial hs
  exact
    { inProgress_eq := buildNested_restores hkeyed levels definition given s
      kept := hrecorded.grows.kept
      answered := hrecorded.registered
      refused := fun herror habsent =>
        buildNested_refused (keyed_invariant setup) hkeyed hs habsent herror
      inside := buildNested_inside hkeyed levels definition given }

/-- Any build of any class, below any parent. -/
def anyCall : Calls := fun _ _ _ => True

/-- What holds of all runs of a registry. -/
structure SafeRuns (setup : RegistrySetup) : Prop where
  moment : ∀ {s}, Moment setup anyCall s → SafeMoment s
  /-- What is built on demand is part of the run. -/
  nested : ∀ {s t}, Moment setup anyCall s → Path setup (onDemand setup) s t →
    Moment setup anyCall t
  build : ∀ {s}, Moment setup anyCall s → ∀ levels definition given,
    SafeBuild setup definition s ((buildNested setup levels definition given).exec s)
  /-- Two builds of a class answer the same descriptor, whatever else they are given. -/
  unique : ∀ {s t levels levels' definition definition' given given' d d'}, Moment setup anyCall s →
    Path setup anyCall ((buildNested setup levels definition given).exec s).2 t →
    ((buildNested setup levels definition given).exec s).1 = .ok d →
    ((buildNested setup levels' definition' given').exec t).1 = .ok d' →
    definition'.id = definition.id → d' = d
  /-- When no build is going on, no class is in progress. -/
  idle : ∀ {s}, Path setup anyCall ∅ s → ∀ cls, s.isBuilding cls = false

/-- Whatever is built, registries are safe. -/
theorem safeRuns_of_isKeyed (hkeyed : setup.IsKeyed) : SafeRuns setup where
  moment h := h.safe hkeyed
  nested h hpath := h.path (hpath.mono fun _ _ _ _ => trivial)
  build h := h.safeBuild hkeyed
  unique := by
    intro s t levels levels' definition definition' given given' d d' h hpath hd hd' hid
    have hfirst := h.safeBuild hkeyed levels definition given
    have hafter := (h.step (.build levels trivial)).path hpath
    have hsecond := hafter.safeBuild hkeyed levels' definition' given'
    -- The first descriptor is still registered when the second build begins, and after it.
    have hheld := hsecond.kept (hpath.keeps hkeyed |>.kept (hfirst.answered hd))
    rw [← hid, hsecond.answered hd'] at hheld
    exact Option.some.inj hheld
  idle := by
    intro s hpath cls
    have hnone := (Path.keeps hkeyed hpath).inProgress_eq
    simp [isBuilding, hnone, show (∅ : Registry).inProgress = [] from rfl]

/-- A class that cannot be built leaves behind the class that was built for it. -/
theorem safeRuns_of_line :
    ∃ setup s, setup.IsKeyed ∧ Moment setup anyCall s ∧ s.entries.keys = [⟨"Point"⟩] ∧
      SafeRuns setup := by
  let line : ClassDefinition :=
    { id := ⟨"Line"⟩, attributes := [("end", .embedded ⟨"Point"⟩), ("pen", .embedded ⟨"Pen"⟩)] }
  let setup := setupOf {} (.ofDefinitions [line, { id := ⟨"Point"⟩ }])
  have hkeyed : setup.IsKeyed := isKeyed_setupOf _ (DefinitionSet.isKeyed_ofDefinitions _)
  exact ⟨setup, ((build setup line none).exec ∅).2, hkeyed,
    Moment.fresh.step (.build (nestingBound setup) trivial), by decide, safeRuns_of_isKeyed hkeyed⟩

end ObjectLayout.Registry
