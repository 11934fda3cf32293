import ObjectLayout.Proofs.ParentChoice
import Mathlib.Data.Set.Card

/-!
# No class descends from itself

A build learns of its ancestors in three ways: from the parent that is given with it, which may come
from any registry, from the classes that are registered, and from the source. `LeadsTo` follows all
three from a base on, and `DescendsFromItself` says that a build would put the class below itself.
While a class is in progress, what is registered for a class that leads to it has it in its chain
(`keptAmong_upholds`), since asking for the class in progress itself is refused. So that class
finds itself in the chain of its parent and is refused, too, and chains never repeat a class
(`inheritsOnce_of_reachable`).
-/

set_option autoImplicit false

namespace ObjectLayout

namespace Registry

variable {scope : Scope} {setup : RegistrySetup} {nested : NestedBuild} {s t u : Registry}
  {stack : List ClassId} {target base cls : ClassId} {definition : ClassDefinition}
  {decl : ClassDecl} {given parent : Option Descriptor} {d : Descriptor}
  {above origins : List Origin} {levels : Nat}

/-! ## Leading to a class -/

/-- A class is the target, has it in its chain, or is to be built from a definition of the source of
which a base leads to it. -/
inductive LeadsTo (setup : RegistrySetup) (s : Registry) (target : ClassId) : ClassId → Prop where
  | self : LeadsTo setup s target target
  | registered {cls : ClassId} {q : Descriptor} (hget : s.get? cls = some q)
      (hmem : target ∈ q.chainIds) : LeadsTo setup s target cls
  | defined {cls base : ClassId} {definition : ClassDefinition} (habsent : s.get? cls = none)
      (hdef : setup.definition? cls = some definition) (hbase : base ∈ definition.bases)
      (h : LeadsTo setup s target base) : LeadsTo setup s target cls

/-- Building the class puts it below itself: the parent that is given descends from it, or a base
leads to it. The given parent stands for a base of its own identity, whose chain does not count. -/
def DescendsFromItself (setup : RegistrySetup) (s : Registry) (definition : ClassDefinition)
    (given : Option Descriptor) : Prop :=
  (∃ p, given = some p ∧ definition.id ∈ p.chainIds) ∨
    ∃ base ∈ definition.bases, (∀ p, given = some p → p.id ≠ base) ∧
      LeadsTo setup s definition.id base

/-- What holds from a registry on while a class is in progress: what is registered for a class that
leads to it has it in its chain. -/
structure Upholds (setup : RegistrySetup) (s : Registry) (target : ClassId) (u : Registry) :
    Prop where
  keyed : IsKeyed u
  kept : ∀ {cls d}, s.get? cls = some d → u.get? cls = some d
  descends : ∀ {cls d}, LeadsTo setup s target cls → u.get? cls = some d → target ∈ d.chainIds

/-- What a registry upholds depends on its entries alone. -/
theorem ofEntries_upholds : OfEntries (Upholds setup s target) :=
  fun _ _ _ h => ⟨h.keyed, h.kept, h.descends⟩

/-- What is known while classes are in progress bears its own identity. -/
theorem isNamed_knownAmong (h : IsKeyed t) : (knownAmong setup stack t).IsNamed := by
  intro cls d hknown
  exact isNamed_known h (of_knownAmong_eq_ok hknown).2

/-- A class that leads to one in progress can only be known as a descendant of it. -/
theorem Upholds.exists_of_leadsTo (h : Upholds setup s target t) (htarget : target ∈ stack)
    (hleads : LeadsTo setup s target cls) {answer : Option Descriptor}
    (hknown : knownAmong setup stack t cls = .ok answer) :
    ∃ q, answer = some q ∧ target ∈ q.chainIds := by
  obtain ⟨hfree, hknown⟩ := of_knownAmong_eq_ok hknown
  rcases of_known_eq_ok hknown with ⟨q, hget, rfl⟩ | ⟨habsent, hundefined, -⟩
  · exact ⟨q, rfl, h.descends hleads hget⟩
  · exfalso
    cases hleads with
    | self => exact hfree htarget
    | registered hget _ =>
      rw [h.kept hget] at habsent
      cases habsent
    | defined _ hdef _ _ =>
      rw [hundefined] at hdef
      cases hdef

/-- A parent that is found while the target is in progress descends from the target when a base
leads to it. -/
theorem Upholds.parent_of_leadsTo (h : Upholds setup s target t) (htarget : target ∈ stack)
    (hparent : (knownAmong setup stack t).parent decl given = .ok parent)
    (hbase : base ∈ decl.bases) (hgiven : ∀ p, given = some p → p.id ≠ base)
    (hleads : LeadsTo setup s target base) :
    ∃ p, parent = some p ∧ target ∈ p.chainIds := by
  obtain ⟨answer, hanswer⟩ := Knowledge.known_of_parent hparent hbase
  obtain ⟨q, rfl, hmem⟩ := h.exists_of_leadsTo htarget hleads hanswer
  obtain ⟨p, hp, hid, hfound⟩ :=
    Knowledge.parent_of_base (isNamed_knownAmong h.keyed) hparent hbase hanswer
  rcases hfound with hsome | rfl
  · exact absurd hid (hgiven p hsome)
  · exact ⟨p, hp, hmem⟩

/-- A class below a descendant of the target is one. -/
theorem mem_chainIds_of_layOut {known : Knowledge} {config : LayoutConfig} {p : Descriptor}
    (h : known.layOut config definition (some p) = .ok d) (hmem : target ∈ p.chainIds) :
    target ∈ d.chainIds := by
  obtain ⟨out, hout⟩ := Knowledge.exists_outline h
  have hancestors : d.ancestors = p.chain := by
    rw [hout.descriptor_eq]
    rfl
  unfold Descriptor.chainIds Descriptor.chain
  rw [hancestors]
  exact List.mem_cons_of_mem _ hmem

/-- A class that is registered while the target is in progress descends from the target if it leads
to it. -/
theorem Upholds.insert (h : Upholds setup s target t) (htarget : target ∈ stack)
    (hdef : setup.definition? definition.id = some definition)
    (hparent : (knownAmong setup stack t).parent definition.toClassDecl none = .ok parent)
    (hlayOut : (knownAmong setup stack t).layOut setup.config definition parent = .ok d)
    (hfree : definition.id ≠ target) (habsent : t.get? d.id = none) :
    Upholds setup s target { t with entries := t.entries.insert d.id d } where
  keyed := h.keyed.insert d
  kept := fun hs => OrderedMap.get?_insert_of_absent habsent (h.kept hs)
  descends := by
    intro cls e hleads hget
    rcases OrderedMap.of_get?_insert hget with ⟨rfl, rfl⟩ | hold
    · have hid := Knowledge.id_eq_of_layOut hlayOut
      cases hleads with
      | self => exact absurd hid.symm hfree
      | registered hget' _ =>
        rw [h.kept hget'] at habsent
        cases habsent
      | @defined _ base definition' _ hdef' hbase hleads =>
        rw [hid, hdef] at hdef'
        cases hdef'
        obtain ⟨p, rfl, hmem⟩ :=
          h.parent_of_leadsTo htarget hparent hbase (fun _ h => nomatch h) hleads
        exact mem_chainIds_of_layOut hlayOut hmem
    · exact h.descends hleads hold

/-- The builds that happen while the target is in progress register only descendants of it for the
classes that lead to it. -/
theorem keptAmong_upholds (setup : RegistrySetup) (s : Registry) (target : ClassId) :
    KeptAmong setup [target] (Upholds setup s target) where
  ofEntries := ofEntries_upholds
  publish := by
    intro stack definition t parent d hsubset ht hdef _ hfree habsent hparent hlayOut
    rw [← Knowledge.id_eq_of_layOut hlayOut] at habsent ⊢
    exact ht.insert (hsubset List.mem_cons_self) hdef hparent hlayOut
      (fun heq => hfree (List.mem_singleton.2 heq)) habsent

/-- While a class that is absent is in progress, what leads to it is a descendant of it. -/
theorem upholds_of_absent (hkeyed : IsKeyed s) (habsent : s.get? target = none) :
    Upholds setup s target s where
  keyed := hkeyed
  kept h := h
  descends := by
    intro cls d hleads hget
    cases hleads with
    | self =>
      rw [habsent] at hget
      cases hget
    | registered hget' hmem =>
      cases hget.symm.trans hget'
      exact hmem
    | defined hnone _ _ _ =>
      rw [hnone] at hget
      cases hget

/-- A class that would descend from itself finds itself in the chain of its parent. -/
theorem Upholds.not_parent (h : Upholds setup s definition.id t) (hmem : definition.id ∈ stack)
    (hself : DescendsFromItself setup s definition given) :
    (knownAmong setup stack t).parent definition.toClassDecl given ≠ .ok parent := by
  intro hparent
  have hchain : ∃ p, parent = some p ∧ definition.id ∈ p.chainIds := by
    rcases hself with ⟨p, rfl, hchain⟩ | ⟨base, hbase, hgiven, hleads⟩
    · exact ⟨p, Knowledge.parent_of_given hparent, hchain⟩
    · exact h.parent_of_leadsTo hmem hparent hbase hgiven hleads
  obtain ⟨p, rfl, hchain⟩ := hchain
  exact (Knowledge.of_parent_eq_some hparent).2 hchain

/-- A class that would descend from itself cannot be built. -/
theorem exists_error_of_descendsFromItself (hsetup : setup.IsKeyed) (hkeyed : IsKeyed s)
    (habsent : s.get? definition.id = none) (hself : DescendsFromItself setup s definition given) :
    ∃ error, ((buildNested setup levels definition given).exec s).1 = .error error := by
  cases hanswer : ((buildNested setup levels definition given).exec s).1 with
  | error error => exact ⟨error, rfl⟩
  | ok d =>
    -- The class was laid out, so that it was found a parent while it was in progress.
    obtain ⟨rest, t, -, -, -, hexec⟩ := exists_construct hsetup habsent hanswer
    have hkept := keptAmong_upholds setup s definition.id
    have hmem : definition.id ∈ s.inProgress ++ [definition.id] := by simp
    have hconstruct := hkept.construct hsetup rest
      (fun hdef hv hbottom => buildNested_among hkept hsetup rest hdef hv hbottom) definition given
      (upholds_of_absent hkeyed habsent) (List.cons_subset.2 ⟨hmem, List.nil_subset _⟩)
    obtain ⟨parent, hparent, -⟩ := construct_among_ok hconstruct hexec
    exact absurd hparent ((hconstruct.holds_of_exec hexec).1.not_parent hmem hself)

/-! ## Chains -/

/-- The chain of a descriptor has every class once. -/
structure DistinctChain (d : Descriptor) : Prop where
  nodup : d.chainIds.Nodup
  /-- The classes of which it is a subtype are as many as its chain has descriptors. -/
  ncard : {cls | d.isSubtypeOf cls = true}.ncard = d.depth + 1
  /-- No proper ancestor bears its identity. -/
  ancestors : ∀ a ∈ d.ancestors, a.id ≠ d.id

/-- A descriptor with a lineage has a chain that repeats no class. -/
theorem Lineage.distinctChain (h : Lineage scope (some d) origins) : DistinctChain d := by
  have hnodup := h.nodup_chainIds
  constructor
  · exact hnodup
  · have hset : {cls | d.isSubtypeOf cls = true} = (d.chainIds.toFinset : Set ClassId) := by
      ext cls
      simp [Descriptor.isSubtypeOf]
    rw [hset, Set.ncard_coe_finset, List.toFinset_card_of_nodup hnodup]
    simp [Descriptor.chainIds, Descriptor.chain, Descriptor.depth]
  · intro a ha heq
    have hcons : (d.id :: d.ancestors.map ClassLayout.id).Nodup := hnodup
    refine (List.nodup_cons.1 hcons).1 ?_
    rw [← heq]
    exact List.mem_map_of_mem ha

/-- What a build keeps to, given its answer and the registry that it leaves. -/
structure InheritsOnce (setup : RegistrySetup) (s : Registry) (definition : ClassDefinition)
    (given : Option Descriptor) (run : Except LayoutError Descriptor × Registry) : Prop where
  /-- The descriptor that is answered has every class once in its chain. -/
  answered : ∀ d, run.1 = .ok d → DistinctChain d
  /-- So has every descriptor that is registered. -/
  registered : ∀ cls d, run.2.get? cls = some d → DistinctChain d
  /-- A class that is absent and would descend from itself is refused and stays absent. -/
  refused : s.get? definition.id = none → DescendsFromItself setup s definition given →
    (∃ error, run.1 = .error error) ∧ run.2.get? definition.id = none

/-- Chains never repeat a class, whichever registries the ancestors are from. -/
theorem inheritsOnce_of_reachable (h : Reachable scope setup s) (levels : Nat)
    (hdef : scope.Definition definition) (hgiven : Lineage scope given above) :
    InheritsOnce setup s definition given ((buildNested setup levels definition given).exec s) where
  answered := by
    intro d hanswer
    obtain ⟨origins, hlineage⟩ := exists_lineage_of_answer h hdef hgiven hanswer
    exact hlineage.distinctChain
  registered := by
    intro cls d hget
    obtain ⟨origins, hlineage⟩ := (h.build levels hdef hgiven).exists_lineage hget
    exact hlineage.distinctChain
  refused := by
    intro habsent hself
    obtain ⟨error, herror⟩ :=
      exists_error_of_descendsFromItself h.allows.keyed h.isKeyed habsent hself
    exact ⟨⟨error, herror⟩, buildNested_refused (keyed_invariant setup) h.allows.keyed h.isKeyed
      habsent herror⟩

/-- A class whose base has an ancestor of that identity, which was built in another registry. -/
theorem inheritsOnce_of_foreign_ancestor :
    ∃ setup s definition given above, Reachable .every setup s ∧ Lineage .every given above ∧
      s.get? definition.id = none ∧ DescendsFromItself setup s definition given ∧
      InheritsOnce setup s definition given ((build setup definition given).exec s) := by
  let remote := ((build {} { id := ⟨"Window"⟩ } none).exec ∅).2
  let dialog : ClassDefinition := { id := ⟨"Dialog"⟩ }
  let window : ClassDefinition := { id := ⟨"Window"⟩, bases := [⟨"Dialog"⟩] }
  let s := ((build {} dialog (remote.get? ⟨"Window"⟩)).exec ∅).2
  have hallows : Scope.every.Allows {} := allows_of_valid trivial rfl
  have hremote : Reachable .every {} remote :=
    .build (nestingBound {}) (.empty hallows) trivial .nil
  obtain ⟨p, hp⟩ := Option.isSome_iff_exists.1 (by decide : (remote.get? ⟨"Window"⟩).isSome)
  obtain ⟨above, habove⟩ := hremote.exists_lineage hp
  rw [← hp] at habove
  have hs : Reachable .every {} s := .build (nestingBound {}) (.empty hallows) trivial habove
  have hchain : (s.get? ⟨"Dialog"⟩).map Descriptor.chainIds = some [⟨"Dialog"⟩, ⟨"Window"⟩] := by
    decide
  obtain ⟨q, hq, hids⟩ := Option.map_eq_some_iff.1 hchain
  have hleads : LeadsTo {} s window.id ⟨"Dialog"⟩ := .registered hq (by rw [hids]; decide)
  exact ⟨{}, s, window, none, [], hs, .nil, by decide,
    .inr ⟨_, List.mem_cons_self, (fun _ h => nomatch h), hleads⟩,
    inheritsOnce_of_reachable hs (nestingBound {}) trivial .nil⟩

end Registry

end ObjectLayout
