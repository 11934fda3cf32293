import ObjectLayout.Proofs.Consistency

/-!
# Dependencies between the classes of a source

A definition mentions its bases and the classes that it stores in place. What a build really asks
for are the classes that it `Needs`: an attribute that the parent places is not sized again.
Whatever a registered class mentions is registered as well, and was registered before it
(`Grounded.registered_of_mentions`). So no class is registered from which a cycle can be reached.

Which attributes the parent places is settled by the source: it is what the parent has when it is
built in a registry of its own (`alone`), and no registry knows better (`Grounded.alone_extends`).
-/

set_option autoImplicit false

namespace ObjectLayout

open LayoutM (exists_eq_ok_of_bind)
open Relation (ReflTransGen TransGen)

/-! ## Mentioned classes -/

namespace RegistrySetup

variable {setup : RegistrySetup} {cls other : ClassId}

/-- A class mentions its bases, as far as the source defines them, and the classes that it stores in
place in attributes that it declares. -/
def Mentions (setup : RegistrySetup) (cls other : ClassId) : Prop :=
  ∃ definition, setup.definition? cls = some definition ∧
    ((other ∈ definition.bases ∧ setup.Defines other) ∨
      ∃ entry ∈ definition.attributes, entry.2.embeddedClass? = some other)

/-- A cycle of classes that mention each other can be reached from the class. -/
def ReachesCycle (setup : RegistrySetup) (cls : ClassId) : Prop :=
  ∃ other, ReflTransGen setup.Mentions cls other ∧ TransGen setup.Mentions other other

/-- A class from which a cycle is reached mentions such a class. -/
theorem ReachesCycle.exists_mentions (h : setup.ReachesCycle cls) :
    ∃ other, setup.Mentions cls other ∧ setup.ReachesCycle other := by
  obtain ⟨last, hpath, hcycle⟩ := h
  rcases hpath.cases_head with rfl | ⟨other, hother, hrest⟩
  · obtain ⟨other, hother, hback⟩ := TransGen.head'_iff.1 hcycle
    exact ⟨other, hother, cls, hback, hcycle⟩
  · exact ⟨other, hother, last, hrest, hcycle⟩

end RegistrySetup

/-- An attribute that the parent does not place is declared by the class. -/
theorem mem_attributes_of_inheritedPlace? {definition : ClassDefinition}
    {parent : Option Descriptor} {own table : AttributeTable}
    (hparent : ∀ p, parent = some p → Sound p)
    (hown : AttributeTable.ofList definition.id definition.attributes = .ok own)
    (htable : inheritedAttributes definition.toClassDecl parent own = .ok table)
    {entry : String × AttributeType} (hentry : entry ∈ table.toList)
    (hplace : inheritedPlace? parent entry.1 = none) : entry ∈ definition.attributes := by
  rw [(toList_of_inheritedAttributes hown htable).1, List.mem_append] at hentry
  rcases hentry with hinherited | hown
  · cases parent with
    | none => cases hinherited
    | some p =>
      have hnone : p.attributes.get? entry.1 = none := by
        rw [← (hparent p rfl).get?_eq_none_iff]
        exact Option.map_eq_none_iff.1 hplace
      exact absurd (List.mem_map.2 ⟨entry, hinherited, rfl⟩) (OrderedMap.get?_eq_none_iff.1 hnone)
  · exact (List.mem_filter.1 hown).1

namespace Registry

variable {setup : RegistrySetup} {entries : OrderedMap ClassId Descriptor} {cls other : ClassId}
  {definition : ClassDefinition} {parent : Option Descriptor} {d : Descriptor}

/-- The parent of a class is registered under its identity. -/
theorem Published.get?_parent {scope : Scope} (h : Published scope setup entries) {decl : ClassDecl}
    {p : Descriptor} (hparent : (known setup { entries }).parent decl none = .ok (some p)) :
    entries.get? p.id = some p := by
  obtain ⟨base, hbase⟩ := Knowledge.exists_base_of_parent hparent
  have hget := get?_of_known_eq_some hbase
  rw [h.id_eq hget]
  exact hget

namespace Grounded

/-- What only builds of the source have filled was laid out class by class. -/
theorem published (h : Grounded setup entries) : Published .every setup entries := by
  induction h with
  | empty => exact .empty
  | insert _ _ _ habsent hparent hlayOut ih =>
    refine .insert ih trivial habsent ?_ hlayOut
    rintro p rfl
    exact ih.get?_parent hparent

/-- A class that is registered is sound. -/
theorem sound (h : Grounded setup entries) (hvalid : setup.config.validate = .ok ())
    (hget : entries.get? cls = some d) : Sound d :=
  (h.published.consistent hvalid cls d hget).sound

/-- The parent of a class is sound. -/
theorem parent_sound (h : Grounded setup entries) (hvalid : setup.config.validate = .ok ())
    {decl : ClassDecl} (hparent : (known setup { entries }).parent decl none = .ok parent) :
    ∀ p, parent = some p → Sound p := by
  rintro p rfl
  exact h.sound hvalid (h.published.get?_parent hparent)

/-- The classes that a class mentions are registered when it is laid out. -/
theorem registered_of_mentions (before : Grounded setup entries)
    (hvalid : setup.config.validate = .ok ())
    (hdef : setup.definition? definition.id = some definition)
    (hparent : (known setup { entries }).parent definition.toClassDecl none = .ok parent)
    (hlayOut : (known setup { entries }).layOut setup.config definition parent = .ok d)
    (h : setup.Mentions definition.id other) : ∃ e, entries.get? other = some e := by
  obtain ⟨found, hfound, hmentions⟩ := h
  rw [hdef] at hfound
  cases hfound
  rcases hmentions with ⟨hbase, needed, hneeded⟩ | ⟨entry, hentry, hstored⟩
  · obtain ⟨v, hv⟩ := Knowledge.known_of_parent hparent hbase
    rcases of_known_eq_ok hv with ⟨e, hget, -⟩ | ⟨-, hnone, -⟩
    · exact ⟨e, hget⟩
    · rw [hneeded] at hnone
      cases hnone
  · -- An attribute that the parent places stores what the parent stores.
    have hconsistent : Consistent setup entries d := by
      refine .of_layOut hvalid (before.published.consistent hvalid) ?_ hlayOut
      rintro p rfl
      exact before.published.get?_parent hparent
    obtain ⟨o, ho⟩ := Knowledge.exists_outline hlayOut
    have hmem : entry ∈ d.attributes.toList := by
      rw [ho.descriptor_eq]
      exact mem_of_inheritedAttributes ho.own_eq ho.table_eq hentry
    rw [← hconsistent.sound.symbols_eq] at hmem
    obtain ⟨placed, hplaced, rfl⟩ := List.mem_map.1 hmem
    exact hconsistent.get?_of_embedded hplaced hstored

/-- What a registered class mentions is registered. -/
theorem closed (h : Grounded setup entries) (hvalid : setup.config.validate = .ok ())
    (hget : entries.get? cls = some d) (hmentions : setup.Mentions cls other) :
    ∃ e, entries.get? other = some e := by
  induction h with
  | empty => cases hget
  | @insert entries definition parent e before hdef _ habsent hparent hlayOut ih =>
    have hheld : ∃ e', entries.get? other = some e' := by
      rcases OrderedMap.of_get?_insert hget with ⟨rfl, -⟩ | hold
      · exact before.registered_of_mentions hvalid hdef hparent hlayOut hmentions
      · exact ih hold
    obtain ⟨e', he'⟩ := hheld
    exact ⟨e', OrderedMap.get?_insert_of_absent habsent he'⟩

/-- A class from which a cycle can be reached is not registered. -/
theorem not_reachesCycle (h : Grounded setup entries) (hvalid : setup.config.validate = .ok ())
    (hget : entries.get? cls = some d) : ¬ setup.ReachesCycle cls := by
  induction h generalizing cls d with
  | empty => cases hget
  | @insert entries definition parent e before hdef _ _ hparent hlayOut ih =>
    rcases OrderedMap.of_get?_insert hget with ⟨rfl, -⟩ | hold
    · -- From the next class on the way the cycle can be reached, too.
      intro hcycle
      obtain ⟨other, hmentions, hother⟩ := hcycle.exists_mentions
      obtain ⟨e', he'⟩ :=
        before.registered_of_mentions hvalid hdef hparent hlayOut hmentions
      exact ih he' hother
    · exact ih hold

/-- The ancestors of a registered class are registered. -/
theorem registered_of_chainIds (h : Grounded setup entries) (hget : entries.get? cls = some d)
    (hmem : other ∈ d.chainIds) : ∃ e, entries.get? other = some e := by
  induction h generalizing cls d with
  | empty => cases hget
  | @insert entries definition parent e before _ _ habsent hparent hlayOut ih =>
    rcases OrderedMap.of_get?_insert hget with ⟨rfl, rfl⟩ | hold
    · have hid := Knowledge.id_eq_of_layOut hlayOut
      obtain ⟨o, ho⟩ := Knowledge.exists_outline hlayOut
      have hparents := ho.parent?_eq
      rcases List.mem_cons.1 hmem with rfl | habove
      · exact ⟨d, by rw [← hid]; exact OrderedMap.get?_insert_self _ _ _⟩
      · cases hancestors : d.ancestors with
        | nil => rw [hancestors] at habove; cases habove
        | cons above rest =>
          unfold Descriptor.parent? at hparents
          rw [hancestors] at hparents habove
          subst hparents
          obtain ⟨e', he'⟩ := ih (before.published.get?_parent hparent) habove
          exact ⟨e', OrderedMap.get?_insert_of_absent habsent he'⟩
    · obtain ⟨e', he'⟩ := ih hold hmem
      exact ⟨e', OrderedMap.get?_insert_of_absent habsent he'⟩

end Grounded

/-! ## Needed classes -/

/-- What each class of the source becomes when it is built in a registry of its own. -/
def alone (setup : RegistrySetup) : Knowledge := fun cls =>
  (setup.definition? cls).elim (.ok none) fun definition =>
    ((buildDefinition setup definition).exec ∅).1.map some

/-- A registry that builds have filled knows nothing else than what the classes become on their
own. -/
theorem Grounded.alone_extends (h : Grounded setup entries) (hkeyed : setup.IsKeyed) :
    (alone setup).Extends (known setup { entries }) := by
  intro cls v hv
  rcases of_known_eq_ok hv with ⟨d, hget, rfl⟩ | ⟨-, hdef, rfl⟩
  · obtain ⟨definition, hdef⟩ := h.defines hget
    have hid := hkeyed.id_eq hdef
    subst hid
    have hbuilt : ((buildDefinition setup definition).exec ∅).1 = .ok d :=
      h.rebuilds hkeyed hdef hget (isStack_nil setup) (fun _ h => nomatch h) (Nat.le_refl _)
        (stands_empty setup)
    unfold alone
    rw [hdef, Option.elim_some, hbuilt]
    rfl
  · unfold alone
    rw [hdef, Option.elim_none]

/-- A class needs its bases, as far as the source defines them, and the classes that it stores in
place in attributes which its parent does not place. -/
def Needs (setup : RegistrySetup) (cls other : ClassId) : Prop :=
  ∃ definition, setup.definition? cls = some definition ∧
    ((other ∈ definition.bases ∧ setup.Defines other) ∨
      ∃ parent, (alone setup).parent definition.toClassDecl none = .ok parent ∧
        ∃ entry ∈ definition.attributes, inheritedPlace? parent entry.1 = none ∧
          entry.2.embeddedClass? = some other)

/-- A class mentions what it needs. -/
theorem Needs.mentions (h : Needs setup cls other) : setup.Mentions cls other := by
  obtain ⟨definition, hdef, hbase | ⟨_, _, entry, hentry, _, hstored⟩⟩ := h
  · exact ⟨definition, hdef, .inl hbase⟩
  · exact ⟨definition, hdef, .inr ⟨entry, hentry, hstored⟩⟩

/-- What is asked for while a class is laid out is needed by it. -/
theorem Grounded.needs_of_requests (h : Grounded setup entries) (hkeyed : setup.IsKeyed)
    (hvalid : setup.config.validate = .ok ())
    (hdef : setup.definition? definition.id = some definition)
    (hparent : (known setup { entries }).parent definition.toClassDecl none = .ok parent)
    (hrequests : Requests definition parent other) : Needs setup definition.id other := by
  obtain ⟨own, table, hown, htable, entry, hentry, hplace, hstored⟩ := hrequests
  have hdeclared := mem_attributes_of_inheritedPlace? (h.parent_sound hvalid hparent) hown htable
    hentry hplace
  have halone := Knowledge.parent_mono (h.alone_extends hkeyed) hparent
  exact ⟨definition, hdef, .inr ⟨parent, halone, entry, hdeclared, hplace, hstored⟩⟩

/-- Everything that a registered class needs, be it through others, is registered. -/
theorem Grounded.registered_of_needs (h : Grounded setup entries)
    (hvalid : setup.config.validate = .ok ()) (hget : entries.get? cls = some d)
    (hneeds : ReflTransGen (Needs setup) cls other) : ∃ e, entries.get? other = some e := by
  induction hneeds with
  | refl => exact ⟨d, hget⟩
  | tail _ hlast ih =>
    obtain ⟨e, he⟩ := ih
    exact h.closed hvalid he hlast.mentions

end Registry

end ObjectLayout
