import ObjectLayout.Proofs.BuildRun
import ObjectLayout.Proofs.Determinacy

/-!
# Where descriptors come from

Builds run in several registries, and a descriptor that one of them answers may be given as a parent
to a build in another one. `Reachable` holds of the registries that such builds lead to, at any
moment; `Lineage` holds of a descriptor together with the origins of its chain, from the class
itself to the root: the definition and the registry from which each class was built. Every
descriptor that is registered or answered has a lineage (`Reachable.exists_lineage`,
`exists_lineage_of_answer`). What a lineage says about each link of a chain is `Link`, and
`Lineage.chain_induction` goes along the chain.
-/

set_option autoImplicit false

namespace ObjectLayout

open LayoutM (exists_eq_ok_of_bind)

/-- Which configurations registries have, and which definitions classes are built from. -/
structure Scope where
  Config : LayoutConfig → Prop
  Definition : ClassDefinition → Prop

/-- Every configuration that is valid, and every definition. -/
def Scope.every : Scope where
  Config _ := True
  Definition _ := True

/-- The headers of objects fit into the address space. -/
def Scope.HeadersFit (scope : Scope) : Prop :=
  ∀ ⦃config⦄, scope.Config config → config.HeaderFits

/-- A setup whose configuration is valid and in the scope, as are the definitions of its source. -/
structure Scope.Allows (scope : Scope) (setup : RegistrySetup) : Prop where
  config : scope.Config setup.config
  valid : setup.config.validate = .ok ()
  keyed : setup.IsKeyed
  source : ∀ {cls : ClassId} {definition : ClassDefinition},
    setup.definition? cls = some definition → scope.Definition definition

/-- From what a class was built. -/
structure Origin where
  setup : RegistrySetup
  definition : ClassDefinition
  /-- The registry as the build left it. -/
  registry : Registry

/-- What was known of other classes when the class was built. -/
def Origin.known (o : Origin) : Knowledge := o.registry.known o.setup

namespace Registry

mutual

/-- The registries to which builds lead. Which classes are in progress, and what the journal says,
is left open, so that the registries inside a build are among them. -/
inductive Reachable (scope : Scope) : RegistrySetup → Registry → Prop where
  /-- A fresh registry. -/
  | empty {setup : RegistrySetup} (hallows : scope.Allows setup) : Reachable scope setup ∅
  /-- A registry at another moment. -/
  | moment {setup : RegistrySetup} {s : Registry} (stack : List ClassId) (journal : Journal)
      (h : Reachable scope setup s) :
      Reachable scope setup { s with inProgress := stack, journal := journal }
  /-- A registry after a build, be it refused or not. -/
  | build {setup : RegistrySetup} {s : Registry} {definition : ClassDefinition}
      {given : Option Descriptor} {above : List Origin} (levels : Nat)
      (h : Reachable scope setup s) (hdef : scope.Definition definition)
      (hgiven : Lineage scope given above) :
      Reachable scope setup ((buildNested setup levels definition given).exec s).2

/-- The descriptors that builds answer, each with the origins of its chain, its own one first.
Nothing has no origins. -/
inductive Lineage (scope : Scope) : Option Descriptor → List Origin → Prop where
  /-- No descriptor, which is what stands above a root. -/
  | nil : Lineage scope none []
  /-- The descriptor of a class that was absent until a build answered it, where the parent has a
  lineage. -/
  | built {setup : RegistrySetup} {s : Registry} {definition : ClassDefinition}
      {given : Option Descriptor} {above origins : List Origin} {d : Descriptor} (levels : Nat)
      (h : Reachable scope setup s) (hdef : scope.Definition definition)
      (hgiven : Lineage scope given above)
      (habsent : s.get? definition.id = none)
      (hanswer : ((buildNested setup levels definition given).exec s).1 = .ok d)
      (hparent : Lineage scope d.parent? origins) :
      Lineage scope (some d)
        ({ setup, definition,
           registry := ((buildNested setup levels definition given).exec s).2 } :: origins)

end

variable {scope : Scope} {setup : RegistrySetup} {s : Registry} {given : Option Descriptor}
  {d : Descriptor} {above origins : List Origin}

/-- A registry that can be reached is one that the scope allows. -/
theorem Reachable.allows (h : Reachable scope setup s) : scope.Allows setup := by
  refine @Reachable.rec scope (fun setup _ _ => scope.Allows setup) (fun _ _ _ => True)
    ?_ ?_ ?_ ?_ ?_ _ _ h
  · exact fun hallows => hallows
  · exact fun _ _ _ ih => ih
  · exact fun _ _ _ _ ih _ => ih
  · trivial
  · exact fun _ _ _ _ _ _ _ _ _ _ => trivial

/-! ## Properties of all descriptors -/

/-- A property that a class has when it is registered, if the classes that it can have been made
from have it: those registered before, and the parent given with it. -/
structure Hereditary (scope : Scope) (P : Descriptor → Prop) : Prop where
  publish : ∀ {setup : RegistrySetup} {levels : Nat} {definition : ClassDefinition}
    {given : Option Descriptor} {above : List Origin} {s t : Registry} {parent : Option Descriptor}
    {d : Descriptor}, Reachable scope setup s → scope.Definition definition →
    Lineage scope given above → (∀ cls e, t.get? cls = some e → P e) →
    (∀ p, given = some p → P p) →
    Publication setup definition given s ((buildNested setup levels definition given).exec s) t
      parent d →
    P d

variable {P : Descriptor → Prop}

/-- A property that is passed on to every class is kept when one is registered. -/
theorem Hereditary.invariant (hP : Hereditary scope P) (hallows : scope.Allows setup) :
    Invariant setup
      (fun definition given => scope.Definition definition ∧
        (∃ above, Lineage scope given above) ∧ ∀ p, given = some p → P p)
      (fun s => Reachable scope setup s ∧ ∀ cls e, s.get? cls = some e → P e) where
  moment := fun stack journal hs => ⟨hs.1.moment stack journal, hs.2⟩
  admits := fun hdef => ⟨hallows.source hdef, ⟨[], .nil⟩, fun _ h => nomatch h⟩
  publish := by
    intro levels definition given s t parent d hadmits hs ht hpublication
    obtain ⟨hdef, ⟨above, habove⟩, hgiven⟩ := hadmits
    have hd := hP.publish hs.1 hdef habove ht.2 hgiven hpublication
    constructor
    · -- But for the moment, the registry is the one that the build left.
      have hafter := (hs.1.build levels hdef habove).moment t.inProgress t.journal
      rw [hpublication.entries_eq] at hafter
      exact hafter
    · intro cls e hget
      rcases OrderedMap.of_get?_insert hget with ⟨-, rfl⟩ | hold
      · exact hd
      · exact ht.2 cls e hold

/-- What a build leaves is registered with the property. -/
theorem Hereditary.records (hP : Hereditary scope P) {definition : ClassDefinition} (levels : Nat)
    (h : Reachable scope setup s) (hdef : scope.Definition definition)
    (habove : Lineage scope given above) (hs : ∀ cls e, s.get? cls = some e → P e)
    (hgiven : ∀ p, given = some p → P p) :
    Recorded setup (fun s => Reachable scope setup s ∧ ∀ cls e, s.get? cls = some e → P e)
      definition given s ((buildNested setup levels definition given).exec s) :=
  buildNested_records (hP.invariant h.allows) h.allows.keyed levels definition given
    ⟨hdef, ⟨above, habove⟩, hgiven⟩ ⟨h, hs⟩

/-- A hereditary property holds of every descriptor that is registered, and of every descriptor that
has a lineage. -/
theorem Hereditary.holds (hP : Hereditary scope P) :
    (∀ {setup s}, Reachable scope setup s → ∀ cls d, s.get? cls = some d → P d) ∧
      ∀ {x origins}, Lineage scope x origins → ∀ d, x = some d → P d := by
  have hmoment : ∀ {setup s} (stack : List ClassId) (journal : Journal),
      Reachable scope setup s → (∀ cls d, s.get? cls = some d → P d) →
      ∀ cls d, get? { s with inProgress := stack, journal := journal } cls = some d → P d :=
    fun _ _ _ ih => ih
  have hbuild : ∀ {setup s definition given above} (levels : Nat), Reachable scope setup s →
      scope.Definition definition → Lineage scope given above →
      (∀ cls d, s.get? cls = some d → P d) → (∀ p, given = some p → P p) →
      ∀ cls d, ((buildNested setup levels definition given).exec s).2.get? cls = some d → P d :=
    fun levels h hdef habove hs hgiven => (hP.records levels h hdef habove hs hgiven).holds.2
  have hbuilt : ∀ {setup s definition given above origins d} (levels : Nat),
      Reachable scope setup s → scope.Definition definition → Lineage scope given above →
      s.get? definition.id = none →
      ((buildNested setup levels definition given).exec s).1 = .ok d →
      Lineage scope d.parent? origins → (∀ cls d, s.get? cls = some d → P d) →
      (∀ p, given = some p → P p) → (∀ p, d.parent? = some p → P p) →
      ∀ e, some d = some e → P e := by
    intro setup s definition given above origins d levels h hdef habove _ hanswer _ hs hgiven _ e he
    cases he
    have hrecorded := hP.records levels h hdef habove hs hgiven
    exact hrecorded.holds.2 _ d (hrecorded.registered hanswer)
  -- Registries and descriptors arise together, so both statements are one induction.
  exact ⟨@Reachable.rec scope (fun _ s _ => ∀ cls d, s.get? cls = some d → P d)
      (fun x _ _ => ∀ d, x = some d → P d) (fun _ _ _ h => nomatch h) hmoment hbuild
      (fun _ h => nomatch h) hbuilt,
    @Lineage.rec scope (fun _ s _ => ∀ cls d, s.get? cls = some d → P d)
      (fun x _ _ => ∀ d, x = some d → P d) (fun _ _ _ h => nomatch h) hmoment hbuild
      (fun _ h => nomatch h) hbuilt⟩

/-! ## Every descriptor has a lineage -/

/-- What holds of the classes registered before and of the parent given holds of the parent. -/
theorem Publication.parent_holds {definition : ClassDefinition} {s t : Registry}
    {run : Except LayoutError Descriptor × Registry} {parent : Option Descriptor}
    (h : Publication setup definition given s run t parent d)
    (ht : ∀ cls e, t.get? cls = some e → P e) (hgiven : ∀ p, given = some p → P p) :
    ∀ p, parent = some p → P p := by
  intro p hp
  have hknown := h.parent_eq
  rw [hp] at hknown
  rcases (Knowledge.of_parent_eq_some hknown).1 with hgiven' | ⟨base, hbase⟩
  · exact hgiven p hgiven'
  · exact ht base p (get?_of_known_eq_some hbase)

/-- Having a lineage is passed on to every class. -/
theorem hereditary_lineage (scope : Scope) :
    Hereditary scope fun d => ∃ origins, Lineage scope (some d) origins where
  publish := by
    intro setup levels definition given above s t parent d hs hdef habove ht hgiven hpublication
    obtain ⟨o, ho⟩ := Knowledge.exists_outline hpublication.layOut_eq
    have hparent : ∃ origins, Lineage scope d.parent? origins := by
      rw [ho.parent?_eq]
      cases hp : parent with
      | none => exact ⟨[], .nil⟩
      | some p => exact hpublication.parent_holds ht hgiven p hp
    obtain ⟨origins, hparent⟩ := hparent
    exact ⟨_, .built levels hs hdef habove hpublication.absent hpublication.answer_eq hparent⟩

/-- Every registered descriptor has a lineage. -/
theorem Reachable.exists_lineage (h : Reachable scope setup s) {cls : ClassId}
    (hget : s.get? cls = some d) : ∃ origins, Lineage scope (some d) origins :=
  (hereditary_lineage scope).holds.1 h cls d hget

/-- Every descriptor that a build answers has a lineage, whether it was built then or before. -/
theorem exists_lineage_of_answer (h : Reachable scope setup s) {definition : ClassDefinition}
    (hdef : scope.Definition definition) (habove : Lineage scope given above) {levels : Nat}
    (hanswer : ((buildNested setup levels definition given).exec s).1 = .ok d) :
    ∃ origins, Lineage scope (some d) origins := by
  have hgiven := (hereditary_lineage scope).holds.2 habove
  have hs := (hereditary_lineage scope).holds.1 h
  have hrecorded := (hereditary_lineage scope).records levels h hdef habove hs hgiven
  exact hrecorded.holds.2 _ d (hrecorded.registered hanswer)

/-- A registry without a source is allowed if its configuration is. -/
theorem allows_of_valid {config : LayoutConfig} (hconfig : scope.Config config)
    (hvalid : config.validate = .ok ()) : scope.Allows { config } where
  config := hconfig
  valid := hvalid
  keyed := fun _ h => nomatch h
  source := fun h => nomatch h

/-- A class that is built in a registry of its own has a lineage. -/
theorem Lineage.of_fresh (hallows : scope.Allows setup) (definition : ClassDefinition)
    (hdef : scope.Definition definition) (hgiven : Lineage scope given above)
    (hanswer : ((build setup definition given).exec ∅).1 = .ok d) (hparent : d.parent? = given) :
    Lineage scope (some d)
      ({ setup, definition, registry := ((build setup definition given).exec ∅).2 } :: above) := by
  rw [← hparent] at hgiven hanswer ⊢
  exact .built (nestingBound setup) (.empty hallows) hdef hgiven rfl hanswer hgiven

/-! ## Along a chain -/

/-- A class was built from an origin, below its parent. -/
structure Link (scope : Scope) (o : Origin) (parent : Option Descriptor) (d : Descriptor) :
    Prop where
  reachable : Reachable scope o.setup o.registry
  definition : scope.Definition o.definition
  layOut_eq : o.known.layOut o.setup.config o.definition parent = .ok d
  fresh : ∀ p, parent = some p → o.definition.id ∉ p.chainIds

/-- Each link of a chain has an outline. -/
theorem Link.exists_outline {o : Origin} {parent : Option Descriptor} (h : Link scope o parent d) :
    ∃ out : Outline, out.Describes o.known o.setup.config o.definition parent d :=
  Knowledge.exists_outline h.layOut_eq

/-- What holds of everything is passed on. -/
theorem hereditary_true (scope : Scope) : Hereditary scope fun _ => True where
  publish := fun _ _ _ _ _ _ => trivial

/-- The first origin is that of the class itself, and the others are those of its parent. -/
theorem Lineage.link {o : Origin} (h : Lineage scope (some d) (o :: origins)) :
    Link scope o d.parent? d ∧ Lineage scope d.parent? origins := by
  cases h with
  | @built setup s definition given above origins d levels hs hdef habove habsent hanswer hparent =>
    have hrecorded := (hereditary_true scope).records levels hs hdef habove
      (fun _ _ _ => trivial) fun _ _ => trivial
    obtain ⟨t, parent, hpublication⟩ := hrecorded.published hanswer habsent
    obtain ⟨out, hout⟩ := Knowledge.exists_outline hpublication.layOut_eq
    rw [hout.parent?_eq] at hparent ⊢
    refine ⟨⟨hs.build levels hdef habove, hdef, ?_, ?_⟩, hparent⟩
    · -- What was known when the class was laid out is still known when it is registered.
      refine Knowledge.layOut_mono ?_ hpublication.layOut_eq
      intro cls e hknown
      apply known_of_get?
      unfold get?
      rw [hpublication.entries_eq, Knowledge.id_eq_of_layOut hpublication.layOut_eq]
      exact OrderedMap.get?_insert_of_absent hpublication.absent_before
        (get?_of_known_eq_some hknown)
    · intro p hp
      have hknown := hpublication.parent_eq
      rw [hp] at hknown
      exact (Knowledge.of_parent_eq_some hknown).2

/-- What holds of roots, and of a class when it holds of the parent, holds of every descriptor that
has a lineage. -/
theorem Lineage.chain_induction {Q : Descriptor → List Origin → Prop}
    (root : ∀ {o d}, Link scope o none d → d.parent? = none → Q d [o])
    (below : ∀ {o p d origins}, Link scope o (some p) d → d.parent? = some p →
      Lineage scope (some p) origins → Q p origins → Q d (o :: origins))
    (h : Lineage scope (some d) origins) : Q d origins := by
  induction origins generalizing d with
  | nil => cases h
  | cons o rest ih =>
    obtain ⟨hlink, hparent⟩ := h.link
    cases hp : d.parent? with
    | none =>
      rw [hp] at hlink hparent
      cases hparent
      exact root hlink hp
    | some p =>
      rw [hp] at hlink hparent
      exact below hlink hp hparent (ih hparent)

/-- The class of a link is that of its definition. -/
theorem Link.id_eq {o : Origin} {parent : Option Descriptor} (h : Link scope o parent d) :
    d.id = o.definition.id :=
  Knowledge.id_eq_of_layOut h.layOut_eq

/-- The ancestors of a class are the chain of its parent. -/
theorem Link.ancestors_eq {o : Origin} {parent : Option Descriptor} (h : Link scope o parent d) :
    d.ancestors = parent.elim [] Descriptor.chain := by
  obtain ⟨out, hout⟩ := h.exists_outline
  rw [hout.descriptor_eq]

/-- The chain of a class is the class with the chain of its parent. -/
theorem Link.chain_eq {o : Origin} {parent : Option Descriptor} (h : Link scope o parent d) :
    d.chain = d.toClassLayout :: parent.elim [] Descriptor.chain := by
  unfold Descriptor.chain
  rw [h.ancestors_eq]
  rfl

/-- A chain repeats no class. -/
theorem Lineage.nodup_chainIds (h : Lineage scope (some d) origins) : d.chainIds.Nodup := by
  refine h.chain_induction (Q := fun d _ => d.chainIds.Nodup) ?_ ?_
  · intro o d hlink _
    simp [Descriptor.chainIds, hlink.chain_eq]
  · intro o p d above hlink _ _ ih
    have hids : d.chainIds = d.id :: p.chainIds := by
      unfold Descriptor.chainIds
      rw [hlink.chain_eq]
      rfl
    rw [hids, List.nodup_cons, hlink.id_eq]
    exact ⟨hlink.fresh p rfl, ih⟩

/-- Every ancestor is a descriptor with a lineage of its own, which ends that of the class. -/
theorem Lineage.of_mem_ancestors (h : Lineage scope (some d) origins) {a : ClassLayout}
    (ha : a ∈ d.ancestors) : ∃ (p : Descriptor) (above : List Origin), p.toClassLayout = a ∧
      Lineage scope (some p) above ∧ above <:+ origins.tail := by
  refine h.chain_induction (Q := fun d origins => a ∈ d.ancestors →
    ∃ (p : Descriptor) (above : List Origin), p.toClassLayout = a ∧
      Lineage scope (some p) above ∧ above <:+ origins.tail) ?_ ?_ ha
  · intro o d hlink _ ha
    rw [hlink.ancestors_eq] at ha
    cases ha
  · intro o p d above hlink _ habove ih ha
    rw [hlink.ancestors_eq] at ha
    rcases List.mem_cons.1 ha with rfl | ha
    · exact ⟨p, above, rfl, habove, List.suffix_refl _⟩
    · obtain ⟨q, rest, hq, hrest, hsuffix⟩ := ih ha
      exact ⟨q, rest, hq, hrest, hsuffix.trans (List.tail_suffix _)⟩

end Registry

end ObjectLayout
