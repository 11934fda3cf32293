import ObjectLayout.Command.Run
import ObjectLayout.Proofs.Footprint
import ObjectLayout.Proofs.SourceOrder

/-!
# What a run of the command reports

A run builds the definitions of a document one after another in one registry. What one build leaves
is `Built`, and from it follows by induction what all of them leave (`Stands.builtEach`): each class
has the outcome that it has in a registry of its own, and whatever was registered stays. So a class
is registered at the end exactly if it is reported, since a class that was built on behalf of
another one is built again, with success, when its turn comes.

The outcomes depend on what the source finds for an identity and not on the order, so a document
with the same definitions in another order has the same reports and the same failures.
-/

set_option autoImplicit false

namespace ObjectLayout

open Registry
open Relation (ReflTransGen)

/-! ## Builds one after another -/

namespace Registry

variable {setup : RegistrySetup} {entries : OrderedMap ClassId Descriptor} {s : Registry}
  {definition : ClassDefinition} {definitions : List ClassDefinition}

/-- A registry that only builds of the source have filled repeats no class. -/
theorem Grounded.nodup_keys (h : Grounded setup entries) : entries.keys.Nodup := by
  induction h with
  | empty => exact List.nodup_nil
  | insert _ _ _ _ _ _ ih => exact OrderedMap.nodup_keys_insert ih _ _

/-- A registry stands whatever its journal is. -/
theorem Stands.clearJournal {stack : List ClassId} (h : Stands setup stack s) :
    Stands setup stack s.clearJournal :=
  ⟨h.grounded, h.inProgress_eq, h.absent⟩

/-- What a build of a class of the source leaves between builds: the class has become what it
becomes in a registry of its own, and it is registered if it could be built. -/
structure Built (setup : RegistrySetup) (definition : ClassDefinition) (s : Registry)
    (run : Except LayoutError Descriptor × Registry) : Prop where
  stands : Stands setup [] run.2
  answer_eq : run.1 = ((buildDefinition setup definition).exec ∅).1
  kept : ∀ {cls d}, s.get? cls = some d → run.2.get? cls = some d
  registered : ∀ {d}, run.1 = .ok d → run.2.get? definition.id = some d

/-- A build in a registry that builds have filled leaves the class as it becomes on its own. -/
theorem Stands.built (hs : Stands setup [] s) (hkeyed : setup.IsKeyed)
    (hdef : setup.definition? definition.id = some definition) :
    Built setup definition s ((buildDefinition setup definition).exec s) := by
  have hrecorded : Recorded setup (fun s => Grounded setup s.entries) definition none s
      ((buildDefinition setup definition).exec s) :=
    buildNested_records (grounded_invariant hkeyed) hkeyed (nestingBound setup) definition none
      ⟨hdef, rfl⟩ hs.grounded
  exact {
    stands := hs.build hkeyed (nestingBound setup) hdef
    answer_eq := hs.exec_buildDefinition hkeyed hdef
    kept := hrecorded.grows.kept
    registered := hrecorded.registered }

end Registry

namespace Command

variable {setup : RegistrySetup} {s : Registry} {definitions : List ClassDefinition}

/-- The class with its descriptor, or with the error. -/
def ClassOutcome.verdict (outcome : ClassOutcome) : ClassId × Except LayoutError Descriptor :=
  (outcome.cls, outcome.answer)

/-- What a class becomes when it is built in a registry of its own. -/
def verdictAlone (setup : RegistrySetup) (definition : ClassDefinition) :
    ClassId × Except LayoutError Descriptor :=
  (definition.id, ((buildDefinition setup definition).exec ∅).1)

/-- What builds of classes of the source leave, one after another. -/
structure BuiltEach (setup : RegistrySetup) (s : Registry) (definitions : List ClassDefinition)
    (run : List ClassOutcome × Registry) : Prop where
  stands : Stands setup [] run.2
  verdicts_eq : run.1.map ClassOutcome.verdict = definitions.map (verdictAlone setup)
  kept : ∀ {cls d}, s.get? cls = some d → run.2.get? cls = some d
  registered : ∀ definition ∈ definitions, ∀ d, (verdictAlone setup definition).2 = .ok d →
    run.2.get? definition.id = some d

/-- Builds one after another leave each class as it becomes on its own. -/
theorem builtEach (hs : Stands setup [] s) (hkeyed : setup.IsKeyed)
    (hdefs : ∀ definition ∈ definitions, setup.definition? definition.id = some definition) :
    BuiltEach setup s definitions (buildEach setup s definitions) := by
  induction definitions generalizing s with
  | nil => exact ⟨hs, rfl, fun h => h, fun _ h => nomatch h⟩
  | cons definition rest ih =>
    -- The journal is empty at the beginning of every build, on which no build depends.
    have hfirst := hs.clearJournal.built hkeyed (hdefs definition List.mem_cons_self)
    have hrest := ih hfirst.stands fun other hother => hdefs other (List.mem_cons_of_mem _ hother)
    constructor
    · exact hrest.stands
    · exact congrArg₂ List.cons (congrArg (Prod.mk definition.id) hfirst.answer_eq)
        hrest.verdicts_eq
    · exact fun hget => hrest.kept (hfirst.kept hget)
    · intro other hother d hanswer
      rcases List.mem_cons.1 hother with rfl | hmem
      · exact hrest.kept (hfirst.registered (hfirst.answer_eq.trans hanswer))
      · exact hrest.registered other hmem d hanswer

/-! ## The classes of a document -/

variable {config : LayoutConfig} {set : DefinitionSet} {classes : List ClassDefinition}
  {cls other : ClassId} {d : Descriptor}

/-- What becomes of the definitions of a set under a configuration, one after another. -/
def outcomes (config : LayoutConfig) (set : DefinitionSet) : List ClassOutcome :=
  (buildEach (setupOf config set) ∅ set.values).1

/-- The registry in which the definitions of a set have been built. -/
def lastRegistry (config : LayoutConfig) (set : DefinitionSet) : Registry :=
  (buildEach (setupOf config set) ∅ set.values).2

/-- The descriptors that are reported, in order. -/
def reported (config : LayoutConfig) (set : DefinitionSet) : List Descriptor :=
  (outcomes config set).filterMap ClassOutcome.descriptor?

/-- The number of classes that could not be built. -/
def failures (config : LayoutConfig) (set : DefinitionSet) : Nat :=
  (outcomes config set).countP ClassOutcome.hasFailed

/-- The definitions of a set are built, each as on its own. -/
theorem builtAll (config : LayoutConfig) (hset : set.IsKeyed) :
    BuiltEach (setupOf config set) ∅ set.values (outcomes config set, lastRegistry config set) :=
  builtEach (stands_empty _) (isKeyed_setupOf config hset) fun _ hmem => hset.get?_id hmem

/-- The verdicts on the classes of a set are those on each of them alone. -/
theorem verdicts_eq (config : LayoutConfig) (hset : set.IsKeyed) :
    (outcomes config set).map ClassOutcome.verdict =
      set.values.map (verdictAlone (setupOf config set)) :=
  (builtAll config hset).verdicts_eq

end Command

end ObjectLayout
