import ObjectLayout.Proofs.Continuations

/-!
# Builds and the history of a registry

What a build of a class of the source answers depends on the source alone, and not on the builds
that were made before. Registries that only such builds have filled are `Grounded`: they have grown
from the empty registry (`Grounded.grown`), so that what holds of all growths of one registry holds
of them. A class that some grounded registry holds can be built from every other one, whatever
classes are in progress there, as long as the first registry holds none of those
(`Grounded.rebuilds`): an earlier build never saves a later one from an error. And whatever is asked
for, the answer is settled by the source and the classes in progress (`settled`).
-/

set_option autoImplicit false

namespace ObjectLayout.Registry

open LayoutM (Follows)

variable {setup : RegistrySetup}

/-- The entries of a registry that builds of classes of the source have filled, one after another:
each class became what it is from the classes registered before it. -/
inductive Grounded (setup : RegistrySetup) : OrderedMap ClassId Descriptor → Prop where
  | empty : Grounded setup ∅
  | insert {entries : OrderedMap ClassId Descriptor} {definition : ClassDefinition}
      {parent : Option Descriptor} {d : Descriptor} (before : Grounded setup entries)
      (hdef : setup.definition? definition.id = some definition)
      (hvalid : definition.validate = .ok ())
      (habsent : entries.get? definition.id = none)
      (hparent : (known setup { entries }).parent definition.toClassDecl none = .ok parent)
      (hlayOut : (known setup { entries }).layOut setup.config definition parent = .ok d) :
      Grounded setup (entries.insert definition.id d)

namespace Grounded

variable {entries : OrderedMap ClassId Descriptor} {cls : ClassId} {d : Descriptor}

/-- A grounded registry has grown from the empty one. -/
theorem grown (h : Grounded setup entries) : Grown setup ∅ entries := by
  induction h with
  | empty => exact .start
  | @insert entries definition parent d before hdef hvalid habsent hparent hlayOut ih =>
    rw [← knownAmong_nil] at hparent hlayOut
    exact ih.insert hdef hvalid List.not_mem_nil habsent hparent hlayOut

/-- What is registered is a class of the source. -/
theorem defines (h : Grounded setup entries) (hget : entries.get? cls = some d) :
    setup.Defines cls :=
  h.grown.defines hget rfl

end Grounded

/-- What has grown from the empty registry is grounded. -/
theorem Grown.grounded {entries : OrderedMap ClassId Descriptor} (h : Grown setup ∅ entries) :
    Grounded setup entries := by
  induction h with
  | start => exact .empty
  | @insert entries definition parent d before hdef hvalid hfree habsent hparent hlayOut ih =>
    rw [show (∅ : Registry).inProgress = [] from rfl, knownAmong_nil] at hparent hlayOut
    exact .insert ih hdef hvalid habsent hparent hlayOut

/-- Builds of classes of the source, without a parent that is given, keep a registry grounded. -/
theorem grounded_invariant (hkeyed : setup.IsKeyed) :
    Invariant setup
      (fun definition given => setup.definition? definition.id = some definition ∧ given = none)
      (fun s => Grounded setup s.entries) where
  moment := fun _ _ hs => hs
  admits := by
    intro cls definition hdef
    have hid := hkeyed.id_eq hdef
    subst hid
    exact ⟨hdef, rfl⟩
  publish := by
    intro levels definition given s t parent d hadmits _ ht hpublication
    obtain ⟨hdef, rfl⟩ := hadmits
    rw [Knowledge.id_eq_of_layOut hpublication.layOut_eq]
    exact .insert ht hdef hpublication.valid hpublication.absent_before hpublication.parent_eq
      hpublication.layOut_eq

/-! ## Registries with the same classes in progress -/

/-- A grounded registry with these classes in progress, none of which it holds. -/
structure Stands (setup : RegistrySetup) (stack : List ClassId) (s : Registry) : Prop where
  grounded : Grounded setup s.entries
  inProgress_eq : s.inProgress = stack
  absent : ∀ cls ∈ stack, s.get? cls = none

/-- The empty registry stands with no class in progress. -/
theorem stands_empty (setup : RegistrySetup) : Stands setup [] ∅ where
  grounded := .empty
  inProgress_eq := rfl
  absent := fun _ h => nomatch h

/-- A stack of the source stands on the empty registry. -/
theorem IsStack.stacksOn {stack : List ClassId} (h : IsStack setup stack) :
    StacksOn setup ∅ stack :=
  ⟨h, fun _ _ => List.not_mem_nil⟩

/-- There are as many levels of nesting as classes of the source can be in progress. -/
theorem room_of_nestingBound {levels : Nat} {stack : List ClassId}
    (h : nestingBound setup ≤ levels + stack.length) : Room setup ∅ levels stack := by
  intro more hmore
  have hlt := hmore.length_lt
  rw [List.length_append] at hlt
  omega

namespace Stands

variable {stack : List ClassId} {s : Registry} {definition : ClassDefinition} {levels : Nat}

/-- A registry that stands continues the empty one. -/
theorem continues (h : Stands setup stack s) : Continues setup ∅ stack s where
  grown := h.grounded.grown
  inProgress_eq := h.inProgress_eq
  absent := h.absent

/-- A registry stands with a class in progress that it lacks. -/
theorem begin (h : Stands setup stack s) {cls : ClassId} (habsent : s.get? cls = none) :
    Stands setup (stack ++ [cls]) (s.begin cls) where
  grounded := h.grounded
  inProgress_eq := by rw [← h.inProgress_eq]; rfl
  absent := List.forall_mem_append.2 ⟨h.absent, List.forall_mem_singleton.2 habsent⟩

end Stands

/-- A continuation of the empty registry stands. -/
theorem Continues.stands {stack : List ClassId} {s : Registry} (h : Continues setup ∅ stack s) :
    Stands setup stack s where
  grounded := h.grown.grounded
  inProgress_eq := h.inProgress_eq
  absent := h.absent

/-- A registry stands after a build of a class of the source. -/
theorem Stands.build {stack : List ClassId} {s : Registry} {definition : ClassDefinition}
    (h : Stands setup stack s) (hkeyed : setup.IsKeyed) (levels : Nat)
    (hdef : setup.definition? definition.id = some definition) :
    Stands setup stack ((buildNested setup levels definition none).exec s).2 :=
  (h.continues.build hkeyed levels hdef).stands

/-- What one grounded registry holds, every other one builds, whatever classes are in progress
there, as long as the first registry holds none of them. -/
theorem Grounded.rebuilds (hkeyed : setup.IsKeyed) {entries : OrderedMap ClassId Descriptor}
    (h : Grounded setup entries) {definition : ClassDefinition} {d : Descriptor}
    (hdef : setup.definition? definition.id = some definition)
    (hget : entries.get? definition.id = some d) {levels : Nat} {stack : List ClassId}
    (hstack : IsStack setup stack) (hfree : ∀ cls ∈ stack, entries.get? cls = none)
    (hlevels : nestingBound setup ≤ levels + stack.length) {s : Registry}
    (hs : Stands setup stack s) :
    ((buildNested setup levels definition none).exec s).1 = .ok d :=
  h.grown.rebuilds hkeyed hdef hget rfl hstack.stacksOn hfree (room_of_nestingBound hlevels)
    hs.continues

/-! ## Settled answers -/

/-- What a class with these classes in progress learns of another one, where `answers` are the
answers of the builds that it asks for. -/
def settledKnowledge (setup : RegistrySetup) (stack : List ClassId)
    (answers : ClassDefinition → Except LayoutError Descriptor) : Knowledge := fun cls =>
  match cycleThrough? { inProgress := stack } cls, setup.definition? cls with
  | some error, _ => .error error
  | none, none => .ok none
  | none, some definition => (answers definition).map some

/-- What is learned in the empty registry is settled by the source. -/
theorem learned_empty (stack : List ClassId)
    (answers : ClassDefinition → Except LayoutError Descriptor) :
    learned setup ∅ stack answers = settledKnowledge setup stack answers := by
  funext cls
  have hnone : (∅ : Registry).get? cls = none := rfl
  have hstack : (∅ : Registry).inProgress ++ stack = stack := rfl
  unfold learned settledKnowledge
  rw [hnone, hstack]
  cases cycleThrough? { inProgress := stack } cls <;> cases setup.definition? cls <;> rfl

/-- The answer of a build of a class that has to be laid out, where `answers` are the answers of the
builds that it asks for. -/
def settledAnswer (setup : RegistrySetup) (stack : List ClassId)
    (answers : ClassDefinition → Except LayoutError Descriptor) (definition : ClassDefinition) :
    Except LayoutError Descriptor :=
  match definition.validate, cycleThrough? { inProgress := stack } definition.id with
  | .error error, _ => .error error
  | .ok _, some error => .error error
  | .ok _, none => do
    let known := settledKnowledge setup (stack ++ [definition.id]) answers
    known.layOut setup.config definition (← known.parent definition.toClassDecl none)

/-- Where no registry holds a class and the builds that it asks for are settled, so is its own. -/
theorem Stands.answer_eq_settledAnswer (hkeyed : setup.IsKeyed) {levels : Nat}
    {stack : List ClassId} (hstack : IsStack setup stack)
    (hlevels : nestingBound setup ≤ levels + 1 + stack.length)
    {definition : ClassDefinition} (hdef : setup.definition? definition.id = some definition)
    {answers : ClassDefinition → Except LayoutError Descriptor}
    (hanswers : ∀ needed, setup.definition? needed.id = some needed → definition.id ∉ stack →
      ∀ s, Stands setup (stack ++ [definition.id]) s →
      ((buildNested setup levels needed none).exec s).1 = answers needed)
    {s : Registry} (hs : Stands setup stack s) (habsent : s.get? definition.id = none) :
    ((buildNested setup (levels + 1) definition none).exec s).1 =
      settledAnswer setup stack answers definition := by
  have hroom : Room setup ∅ (levels + 1) stack := room_of_nestingBound hlevels
  have hanswer := hs.continues.answer_eq_learnedAnswer hkeyed hstack.stacksOn hroom hdef
    (fun needed hneeded _ hmem s hs => hanswers needed hneeded hmem s hs.stands) habsent
  rw [hanswer]
  unfold learnedAnswer settledAnswer
  rw [learned_empty]
  rfl

/-- The answer of a build depends on the source and on the classes in progress alone. -/
theorem settled (hkeyed : setup.IsKeyed) {levels : Nat} {stack : List ClassId}
    (hstack : IsStack setup stack) (hlevels : nestingBound setup ≤ levels + stack.length)
    {definition : ClassDefinition} (hdef : setup.definition? definition.id = some definition) :
    ∃ x, ∀ s, Stands setup stack s →
      ((buildNested setup levels definition none).exec s).1 = x := by
  obtain ⟨x, hx⟩ := settled_from hkeyed hstack.stacksOn (room_of_nestingBound hlevels) hdef rfl
  exact ⟨x, fun s hs => hx s hs.continues⟩

/-! ## Histories -/

/-- The registry that builds leave, one after another, whether they succeed or not. -/
def afterBuilds (setup : RegistrySetup) (history : List ClassDefinition) (s : Registry) :
    Registry :=
  history.foldl (fun s definition => ((buildDefinition setup definition).exec s).2) s

/-- A registry stands after builds of classes of the source. -/
theorem Stands.afterBuilds (hkeyed : setup.IsKeyed) {history : List ClassDefinition}
    (hhistory : ∀ earlier ∈ history, setup.definition? earlier.id = some earlier) {s : Registry}
    (hs : Stands setup [] s) : Stands setup [] (afterBuilds setup history s) := by
  induction history generalizing s with
  | nil => exact hs
  | cons earlier rest ih =>
    have hdef := hhistory earlier List.mem_cons_self
    exact ih (fun definition hmem => hhistory definition (List.mem_cons_of_mem _ hmem))
      (hs.build hkeyed (nestingBound setup) hdef)

/-- The setup of a registry whose source is a set of definitions. -/
def setupOf (config : LayoutConfig) (set : DefinitionSet) : RegistrySetup where
  config := config
  source := some { definitions := set }

/-- A registry over a keyed set has a keyed source. -/
theorem isKeyed_setupOf (config : LayoutConfig) {set : DefinitionSet} (hset : set.IsKeyed) :
    (setupOf config set).IsKeyed := by
  intro source hsource
  cases hsource
  exact hset

/-- A registry that builds of the definitions of a set have filled stands. -/
theorem stands_afterBuilds (config : LayoutConfig) {definitions history : List ClassDefinition}
    (hhistory : ∀ earlier ∈ history, earlier ∈ (DefinitionSet.ofDefinitions definitions).values) :
    Stands (setupOf config (.ofDefinitions definitions)) []
      (afterBuilds (setupOf config (.ofDefinitions definitions)) history ∅) := by
  have hset := DefinitionSet.isKeyed_ofDefinitions definitions
  apply (stands_empty _).afterBuilds (isKeyed_setupOf config hset)
  exact fun earlier hmem => hset.get?_id (hhistory earlier hmem)

/-- Whatever was built before, in whatever order and with whatever success, a build answers what it
answers in a fresh registry: the same descriptor with all its ancestors, or the same error. -/
theorem buildDefinition_afterBuilds (config : LayoutConfig) (definitions : List ClassDefinition)
    (history : List ClassDefinition) (definition : ClassDefinition)
    (hhistory : ∀ earlier ∈ history, earlier ∈ (DefinitionSet.ofDefinitions definitions).values)
    (hdef : definition ∈ (DefinitionSet.ofDefinitions definitions).values) :
    ((buildDefinition (setupOf config (.ofDefinitions definitions)) definition).exec
        (afterBuilds (setupOf config (.ofDefinitions definitions)) history ∅)).1 =
      ((buildDefinition (setupOf config (.ofDefinitions definitions)) definition).exec ∅).1 := by
  have hset := DefinitionSet.isKeyed_ofDefinitions definitions
  have hkeyed : (setupOf config (.ofDefinitions definitions)).IsKeyed := by
    intro source hsource
    cases hsource
    exact hset
  have hstands := (stands_empty (setupOf config (.ofDefinitions definitions))).afterBuilds hkeyed
    fun earlier hmem => hset.get?_id (hhistory earlier hmem)
  obtain ⟨x, hx⟩ := settled hkeyed (isStack_nil _) (Nat.le_refl _) (hset.get?_id hdef)
  exact (hx _ hstands).trans (hx _ (stands_empty _)).symm

/-- A class that was built on demand after a class that cannot be built. -/
theorem buildDefinition_afterBuilds_point :
    (∀ earlier ∈ [{ id := ⟨"Loop"⟩, bases := [⟨"Loop"⟩] }, { id := ⟨"Line"⟩, bases := [⟨"Point"⟩] }],
      earlier ∈ (DefinitionSet.ofDefinitions [{ id := ⟨"Loop"⟩, bases := [⟨"Loop"⟩] },
        { id := ⟨"Line"⟩, bases := [⟨"Point"⟩] }, { id := ⟨"Point"⟩ }]).values) ∧
    ((buildDefinition (setupOf {} (.ofDefinitions [{ id := ⟨"Loop"⟩, bases := [⟨"Loop"⟩] },
        { id := ⟨"Line"⟩, bases := [⟨"Point"⟩] }, { id := ⟨"Point"⟩ }])) { id := ⟨"Point"⟩ }).exec
      (afterBuilds (setupOf {} (.ofDefinitions [{ id := ⟨"Loop"⟩, bases := [⟨"Loop"⟩] },
        { id := ⟨"Line"⟩, bases := [⟨"Point"⟩] }, { id := ⟨"Point"⟩ }]))
        [{ id := ⟨"Loop"⟩, bases := [⟨"Loop"⟩] }, { id := ⟨"Line"⟩, bases := [⟨"Point"⟩] }] ∅)).1 =
    ((buildDefinition (setupOf {} (.ofDefinitions [{ id := ⟨"Loop"⟩, bases := [⟨"Loop"⟩] },
        { id := ⟨"Line"⟩, bases := [⟨"Point"⟩] }, { id := ⟨"Point"⟩ }])) { id := ⟨"Point"⟩ }).exec
      ∅).1 :=
  ⟨by decide, buildDefinition_afterBuilds {} _ _ _ (by decide) (by decide)⟩

end ObjectLayout.Registry
