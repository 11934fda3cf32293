import Mathlib.Data.List.Nodup
import Mathlib.Data.List.Perm.Subperm
import ObjectLayout.Proofs.AttributeTables
import ObjectLayout.Proofs.EventLog
import ObjectLayout.Proofs.History
import ObjectLayout.Proofs.Lineage

/-!
# Repeating inherited attributes

A class may declare attributes that it inherits anyway, with the same types. That changes nothing
but the list of names that the class has declared itself: the table holds the same attributes in the
same order (`RepeatsInherited.exists_table`), so the layout loop does the same for it, and asks for
the same classes. The runs that are compared differ in the events that they note, since a repeated
attribute is warned of; no build reads these (`buildsSame_of_repeats`).
-/

set_option autoImplicit false

namespace ObjectLayout

open LayoutM (exists_eq_ok_of_map)

/-! ## Tables -/

namespace AttributeTable

variable {t : AttributeTable} {entries : List (String × AttributeType)}

/-- A name that is new, with the type that it has already if any, can be declared. -/
theorem exists_declare {name : String} {type : AttributeType} (hfresh : name ∉ t.declared)
    (hagree : ∀ inherited, t.get? name = some inherited → inherited = type) :
    ∃ u declared, t.declare name type = .ok (u, declared) := by
  unfold declare
  rw [if_neg hfresh]
  cases hget : t.get? name with
  | none => exact ⟨_, _, rfl⟩
  | some inherited =>
    dsimp only
    rw [if_pos (hagree inherited hget)]
    exact ⟨_, _, rfl⟩

/-- Attributes are accepted if each one is declared once, and with the type that it has already. -/
theorem exists_declareAll (hnodup : (entries.map Prod.fst).Nodup)
    (hfresh : ∀ entry ∈ entries, entry.1 ∉ t.declared)
    (hagree : ∀ entry ∈ entries, ∀ type, t.get? entry.1 = some type → type = entry.2) :
    ∃ t' names, t.declareAll entries = (t', .ok names) := by
  induction entries generalizing t with
  | nil => exact ⟨t, [], rfl⟩
  | cons entry rest ih =>
    obtain ⟨name, type⟩ := entry
    obtain ⟨hother, hnodup⟩ := List.nodup_cons.1 hnodup
    have hne : ∀ entry ∈ rest, entry.1 ≠ name :=
      fun entry hentry heq => hother (List.mem_map.2 ⟨entry, hentry, heq⟩)
    obtain ⟨u, declared, hdeclare⟩ := exists_declare (hfresh (name, type) List.mem_cons_self)
      (hagree (name, type) List.mem_cons_self)
    obtain ⟨-, hdeclared, -⟩ := declare_ok hdeclare
    have hrest : ∃ t' names, u.declareAll rest = (t', .ok names) := by
      apply ih hnodup
      · intro entry hentry
        rw [hdeclared, List.mem_cons]
        rintro (heq | hold)
        · exact hne entry hentry heq
        · exact hfresh entry (List.mem_cons_of_mem _ hentry) hold
      · intro entry hentry inherited hget
        rw [get?_of_declare hdeclare (hne entry hentry)] at hget
        exact hagree entry (List.mem_cons_of_mem _ hentry) inherited hget
    obtain ⟨t', names, hrest⟩ := hrest
    unfold declareAll
    rw [hdeclare]
    cases declared with
    | new => exact ⟨t', names, hrest⟩
    | redundant =>
      dsimp only
      rw [hrest]
      exact ⟨t', name :: names, rfl⟩

/-- Declarations do not change the owner, be they accepted or refused. -/
theorem owner_declareAll (t : AttributeTable) (entries : List (String × AttributeType)) :
    (t.declareAll entries).1.owner = t.owner := by
  induction entries generalizing t with
  | nil => rfl
  | cons entry rest ih =>
    obtain ⟨name, type⟩ := entry
    unfold declareAll
    split
    · rfl
    · next u hdeclare => rw [ih u, owner_of_declare hdeclare]
    · next u hdeclare => rw [← owner_of_declare hdeclare, ← ih u]

/-- Attributes that repeat no name make a table. -/
theorem exists_ofList (owner : ClassId) (hnodup : (entries.map Prod.fst).Nodup) :
    ∃ own, ofList owner entries = .ok own := by
  obtain ⟨t, names, hall⟩ := exists_declareAll (t := empty owner) hnodup
    (fun _ _ hmem => nomatch hmem) (fun _ _ _ hget => nomatch hget)
  refine ⟨t, ?_⟩
  unfold ofList
  rw [hall]

end AttributeTable

/-- The attributes of a class below a parent are those of the parent, extended by its own. -/
theorem inheritedAttributes_eq_ok_iff {decl : ClassDecl} {p : Descriptor}
    {own table : AttributeTable} :
    inheritedAttributes decl (some p) own = .ok table ↔
      ∃ names, (p.attributes.derive decl.id).extendFrom own = (table, .ok names) := by
  unfold inheritedAttributes
  dsimp only
  rcases (p.attributes.derive decl.id).extendFrom own with ⟨t, answer⟩
  cases answer with
  | error error => simp [Except.map]
  | ok names => simp [Except.map]

/-- A list of attributes was extended, at any places, by attributes that the parent has. -/
structure RepeatsInherited (p : Descriptor)
    (attributes attributes' : List (String × AttributeType)) : Prop where
  kept : attributes.Sublist attributes'
  nodup : (attributes'.map Prod.fst).Nodup
  inherited : ∀ entry ∈ attributes', entry ∉ attributes →
    p.attributes.get? entry.1 = some entry.2

/-- A class with other attributes. -/
def ClassDefinition.withAttributes (definition : ClassDefinition)
    (attributes : List (String × AttributeType)) : ClassDefinition :=
  { definition with attributes }

namespace RepeatsInherited

variable {p : Descriptor} {definition : ClassDefinition}
  {attributes' : List (String × AttributeType)} {own table : AttributeTable}

/-- The attributes that the class adds to those of the parent are the same. -/
theorem introducedEntries_eq (h : RepeatsInherited p definition.attributes attributes') :
    introducedEntries (definition.withAttributes attributes') (some p) =
      introducedEntries definition (some p) := by
  refine ((h.kept.filter _).eq_of_length_le ?_).symm
  have hnodup : (introducedEntries (definition.withAttributes attributes') (some p)).Nodup :=
    (List.Nodup.of_map _ h.nodup).filter _
  refine (List.subperm_of_subset hnodup fun entry hmem => ?_).length_le
  obtain ⟨hmem, hnew⟩ := List.mem_filter.1 hmem
  refine List.mem_filter.2 ⟨?_, hnew⟩
  by_cases hold : entry ∈ definition.attributes
  · exact hold
  · have hget := h.inherited entry hmem hold
    simp [hget] at hnew

/-- The extended list is accepted, and the table differs in the names declared at most. -/
theorem exists_table (h : RepeatsInherited p definition.attributes attributes')
    (hown : AttributeTable.ofList definition.id definition.attributes = .ok own)
    (htable : inheritedAttributes definition.toClassDecl (some p) own = .ok table) :
    ∃ own' table', AttributeTable.ofList definition.id attributes' = .ok own' ∧
      inheritedAttributes definition.toClassDecl (some p) own' = .ok table' ∧
      table' = { table with declared := table'.declared } := by
  obtain ⟨names, hall⟩ := inheritedAttributes_eq_ok_iff.1 htable
  have hagree : ∀ entry ∈ attributes', ∀ type, p.attributes.get? entry.1 = some type →
      type = entry.2 := by
    intro entry hmem type hget
    by_cases hold : entry ∈ definition.attributes
    · rw [← (AttributeTable.ofList_ok hown).1] at hold
      exact (AttributeTable.declares_of_declareAll hall).agree entry hold type hget
    · rw [h.inherited entry hmem hold] at hget
      exact (Option.some.inj hget).symm
  obtain ⟨own', hown'⟩ := AttributeTable.exists_ofList definition.id h.nodup
  obtain ⟨table', names', hall'⟩ := AttributeTable.exists_declareAll
    (t := p.attributes.derive definition.id) h.nodup (fun _ _ hmem => nomatch hmem) hagree
  rw [← (AttributeTable.ofList_ok hown').1] at hall'
  have htable' : inheritedAttributes definition.toClassDecl (some p) own' = .ok table' :=
    inheritedAttributes_eq_ok_iff.2 ⟨names', hall'⟩
  refine ⟨own', table', hown', htable', ?_⟩
  have howner : table.owner = table'.owner := by
    have hleft := AttributeTable.owner_declareAll (p.attributes.derive definition.id) own.toList
    have hright := AttributeTable.owner_declareAll (p.attributes.derive definition.id) own'.toList
    unfold AttributeTable.extendFrom at hall
    rw [hall] at hleft
    rw [hall'] at hright
    exact hleft.trans hright.symm
  have htypes : table.types = table'.types := by
    have hleft := (toList_of_inheritedAttributes hown htable).1
    have howned : AttributeTable.ofList (definition.withAttributes attributes').id
        (definition.withAttributes attributes').attributes = .ok own' := hown'
    have hright := (toList_of_inheritedAttributes howned htable').1
    rw [h.introducedEntries_eq, ← hleft] at hright
    exact congrArg OrderedMap.mk hright.symm
  rw [howner, htypes]

end RepeatsInherited

/-! ## Drafts -/

namespace Draft

/-- A draft with an attribute table, laid out as it is. -/
def attach (draft : Draft) (table : AttributeTable) : Draft :=
  { draft with attributes := draft.attributes.set table }

/-- A draft declares a method in the same way whatever its attributes are. -/
theorem addMethod_attach (draft : Draft) (table : AttributeTable) (method : MethodDecl) :
    (draft.attach table).addMethod method =
      (draft.addMethod method).map fun placed => (placed.1.attach table, placed.2) := by
  unfold addMethod
  cases hget : draft.dispatch.get draft.id "add_method" with
  | error error =>
    have hget' : (draft.attach table).dispatch.get (draft.attach table).id "add_method" =
        .error error := hget
    rw [hget']
    rfl
  | ok dispatch =>
    have hget' : (draft.attach table).dispatch.get (draft.attach table).id "add_method" =
        .ok dispatch := hget
    rw [hget']
    cases h : dispatch.addMethod method with
    | error error => simp only [h, bind, Except.bind, Except.map]
    | ok placed =>
      simp only [h, bind, Except.bind, Except.map]
      rfl

/-- Two drafts differ in their attribute tables. -/
def DifferIn (table table' : AttributeTable) (draft draft' : Draft) : Prop :=
  ∃ base : Draft, draft = base.attach table ∧ draft' = base.attach table'

end Draft

namespace Registry

variable {setup : RegistrySetup} {nested : NestedBuild} {table table' : AttributeTable}

/-- Only the attributes with their types matter for a layout. -/
theorem setAttributes_matches (hnested : ∀ needed, IgnoresEvents (nested needed)) (user : ClassId)
    (draft : Draft) (htypes : table'.types = table.types) :
    Matches (Draft.DifferIn table table')
      (draft.setAttributes table (typeEnv setup nested user) fun field => note (.fieldPlaced field))
      (draft.setAttributes table' (typeEnv setup nested user) fun field =>
        note (.fieldPlaced field)) := by
  have hlist : table'.toList = table.toList := congrArg OrderedMap.toList htypes
  unfold Draft.setAttributes
  rw [hlist]
  apply Matches.bind
    (placeFields_ignoresEvents (typeEnv_ignoresEvents hnested user) draft _ table.toList)
  rintro segment _ rfl
  apply Matches.bind (.lift (.self (draft.instanceSize segment)))
  rintro size _ rfl
  exact .pure ⟨{ draft with symbols := segment.symbols, size, alignment := segment.alignment },
    rfl, rfl⟩

/-- Methods are declared in the same way in drafts that differ in their attributes. -/
theorem addMethods_matches (methods : List MethodDecl) {draft draft' : Draft}
    (h : Draft.DifferIn table table' draft draft') :
    Matches (Draft.DifferIn table table') (addMethods draft methods)
      (addMethods draft' methods) := by
  induction methods generalizing draft draft' with
  | nil => exact .pure h
  | cons method rest ih =>
    obtain ⟨base, rfl, rfl⟩ := h
    have hplaced : Matches (fun placed placed' : Draft × Placement =>
        Draft.DifferIn table table' placed.1 placed'.1 ∧ placed'.2 = placed.2)
        (liftM ((base.attach table).addMethod method) : LayoutM Registry (Draft × Placement))
        (liftM ((base.attach table').addMethod method)) := by
      apply Matches.lift
      rw [Draft.addMethod_attach, Draft.addMethod_attach]
      cases base.addMethod method with
      | error error => exact .error error
      | ok placed => exact .ok ⟨⟨placed.1, rfl, rfl⟩, rfl⟩
    apply hplaced.bind
    rintro ⟨draft, placement⟩ ⟨draft', _⟩ ⟨hdraft, rfl⟩
    exact Matches.bind (.note _ _) fun _ _ _ => ih hdraft

/-- Drafts that differ in their attributes freeze to descriptors that differ in them. -/
theorem freeze_matches {draft draft' : Draft} (h : Draft.DifferIn table table' draft draft') :
    Matches (fun d d' : Descriptor => d.attributes = table ∧ d' = { d with attributes := table' })
      (liftM draft.freeze : LayoutM Registry Descriptor) (liftM draft'.freeze) := by
  obtain ⟨base, rfl, rfl⟩ := h
  apply Matches.lift
  unfold Draft.freeze
  have hget : ∀ table, (base.attach table).attributes.get (base.attach table).id "freeze" =
      .ok table := fun _ => rfl
  rw [hget, hget]
  cases hdispatch : base.dispatch.get base.id "freeze" with
  | error error =>
    have hget : ∀ table, (base.attach table).dispatch.get (base.attach table).id "freeze" =
        .error error := fun _ => hdispatch
    rw [hget, hget]
    exact .error error
  | ok dispatch =>
    have hget : ∀ table, (base.attach table).dispatch.get (base.attach table).id "freeze" =
        .ok dispatch := fun _ => hdispatch
    rw [hget, hget]
    exact .ok ⟨rfl, rfl⟩

/-- The attributes of a class are inherited, whatever is repeated. -/
theorem inheritAttributes_matches {decl : ClassDecl} {parent : Option Descriptor}
    {own own' : AttributeTable} (htable : inheritedAttributes decl parent own = .ok table)
    (htable' : inheritedAttributes decl parent own' = .ok table') :
    Matches (fun t t' => t = table ∧ t' = table') (inheritAttributes decl parent own)
      (inheritAttributes decl parent own') := by
  cases parent with
  | none =>
    cases htable
    cases htable'
    exact .pure ⟨rfl, rfl⟩
  | some p =>
    obtain ⟨names, hall⟩ := inheritedAttributes_eq_ok_iff.1 htable
    obtain ⟨names', hall'⟩ := inheritedAttributes_eq_ok_iff.1 htable'
    unfold inheritAttributes
    dsimp only
    rw [hall, hall']
    apply Matches.bind (.lift (.ok (R := fun _ _ => True) trivial))
    intro _ _ _
    apply Matches.bind (.notes _ _ _)
    intro _ _ _
    exact .pure ⟨rfl, rfl⟩

/-- Below one parent, two lists of attributes that make the same table but for the names declared
make the same class but for those names. -/
theorem prepare_matches (setup : RegistrySetup) (hnested : ∀ needed, IgnoresEvents (nested needed))
    {definition : ClassDefinition} {parent : Option Descriptor} {own own' : AttributeTable}
    {attributes' : List (String × AttributeType)}
    (hown : AttributeTable.ofList definition.id definition.attributes = .ok own)
    (hown' : AttributeTable.ofList definition.id attributes' = .ok own')
    (htable : inheritedAttributes definition.toClassDecl parent own = .ok table)
    (htable' : inheritedAttributes definition.toClassDecl parent own' = .ok table')
    (htypes : table'.types = table.types) :
    Matches (fun d d' : Descriptor => d.attributes = table ∧ d' = { d with attributes := table' })
      (prepare setup nested definition parent)
      (prepare setup nested (definition.withAttributes attributes') parent) := by
  have hlift : SameAnswer (fun t t' => t = own ∧ t' = own')
      (AttributeTable.ofList definition.id definition.attributes)
      (AttributeTable.ofList definition.id attributes') := by
    rw [hown, hown']
    exact .ok ⟨rfl, rfl⟩
  apply Matches.bind (.lift hlift)
  rintro _ _ ⟨rfl, rfl⟩
  apply (inheritAttributes_matches htable htable').bind
  rintro table table' ⟨rfl, rfl⟩
  apply Matches.bind (.note _ _)
  intro _ _ _
  apply (setAttributes_matches hnested definition.id _ htypes).bind
  rintro draft draft' ⟨base, rfl, rfl⟩
  have hdrafts : Draft.DifferIn table table'
      ((base.attach table).setDispatch (inheritMethods definition.toClassDecl parent))
      ((base.attach table').setDispatch (inheritMethods definition.toClassDecl parent)) :=
    ⟨base.setDispatch (inheritMethods definition.toClassDecl parent), rfl, rfl⟩
  apply (addMethods_matches definition.methods hdrafts).bind
  exact fun draft draft' h => freeze_matches h

/-- A second build makes the same class as a first one, but for the names that the class declares
itself, and does the same in the registry. -/
structure BuildsSame (run run' : Except LayoutError Descriptor × Registry) (d d' : Descriptor) :
    Prop where
  answer_eq : run'.1 = .ok d'
  /-- The attributes with their types are the same, and everything that is laid out. -/
  descriptor_eq :
    d' = { d with attributes := { d.attributes with declared := d'.attributes.declared } }
  /-- Both builds register the same other classes, and then their own one. -/
  entries_eq : ∃ others : OrderedMap ClassId Descriptor,
    run.2.entries = others.insert d.id d ∧ run'.2.entries = others.insert d.id d'
  /-- The source was asked for the same classes. -/
  requests_eq : run'.2.journal.requests = run.2.journal.requests

variable {scope : Scope} {s : Registry} {definition : ClassDefinition} {given : Option Descriptor}
  {levels : Nat} {d p : Descriptor} {attributes' : List (String × AttributeType)}

/-- A construction prepares the class below the parent that it finds. -/
theorem exec_construct {parent : Option Descriptor} {u : Registry}
    (hresolve : (resolveParent setup nested definition.toClassDecl given).exec s =
      (.ok parent, u)) :
    (construct setup nested definition given).exec s =
      (prepare setup nested definition parent).exec u := by
  unfold construct
  rw [LayoutM.exec_bind, hresolve]

/-- A class that was laid out was found a parent before. -/
theorem exists_prepare {t : Registry}
    (hexec : (construct setup nested definition given).exec s = (.ok d, t)) :
    ∃ parent u, (resolveParent setup nested definition.toClassDecl given).exec s =
        (.ok parent, u) ∧
      (prepare setup nested definition parent).exec u = (.ok d, t) := by
  rcases hresolve : (resolveParent setup nested definition.toClassDecl given).exec s with
    ⟨answer, u⟩
  cases answer with
  | error error =>
    unfold construct at hexec
    rw [LayoutM.exec_bind, hresolve] at hexec
    cases hexec
  | ok parent =>
    rw [exec_construct hresolve] at hexec
    exact ⟨parent, u, rfl, hexec⟩

/-- A class that was laid out below a parent has an outline below this parent. -/
theorem exists_outline_of_prepare (hkeyed : setup.IsKeyed) {parent : Option Descriptor}
    {t : Registry}
    (hexec : (prepare setup (fun needed => buildNested setup levels needed none) definition
      parent).exec s = (.ok d, t)) :
    ∃ o : Outline, o.Describes (t.known setup) setup.config definition parent d := by
  have hresolve := fun cls s => resolve_records (s := s) (trivial_invariant setup) hkeyed
    (fun needed _ s _ => buildNested_recorded hkeyed levels needed none s) cls
  have hfollows := prepare_follows (ignoresJournal_recording (trivial_invariant setup)) definition
    parent (fun cls _ s hs => hresolve cls s hs) (s := s) trivial
  exact Knowledge.exists_outline (hfollows.answer_of_exec hexec (Grows.refl t))

/-- Declaring what the parent has anyway changes nothing in a build. -/
theorem buildsSame_of_repeats (h : Reachable scope setup s)
    (habsent : s.get? definition.id = none)
    (hanswer : ((buildNested setup levels definition given).exec s).1 = .ok d)
    (hparent : d.parent? = some p)
    (hrepeats : RepeatsInherited p definition.attributes attributes') :
    ∃ d', BuildsSame ((buildNested setup levels definition given).exec s)
      ((buildNested setup levels (definition.withAttributes attributes') given).exec s) d d' := by
  have hkeyed := h.allows.keyed
  obtain ⟨rest, t, rfl, hvalid, hfree, hexec⟩ := exists_construct hkeyed habsent hanswer
  obtain ⟨parent, u, hresolve, hexec⟩ := exists_prepare hexec
  obtain ⟨o, ho⟩ := exists_outline_of_prepare hkeyed hexec
  have hp : parent = some p := ho.parent?_eq.symm.trans hparent
  subst hp
  -- The class is found the same parent and is given the same types, whatever it repeats.
  obtain ⟨own', table', hown', htable', hsame⟩ := hrepeats.exists_table ho.own_eq ho.table_eq
  have htypes : table'.types = o.table.types := by rw [hsame]
  have hmatches := prepare_matches setup
    (fun needed => buildNested_ignoresEvents setup rest needed none) ho.own_eq hown' ho.table_eq
    htable' htypes
  have hanswer' := hmatches.answer (Alike.refl u)
  have halike := hmatches.alike (Alike.refl u)
  have hrun : (buildNested setup (rest + 1) definition given).exec s = _ :=
    exec_buildNested hkeyed rest hvalid hfree habsent
  have hrun' : (buildNested setup (rest + 1) (definition.withAttributes attributes') given).exec
      s = _ := exec_buildNested hkeyed rest hvalid hfree habsent
  have hresolve' : (resolveParent setup (fun needed => buildNested setup rest needed none)
      (definition.withAttributes attributes').toClassDecl given).exec
      (s.begin (definition.withAttributes attributes').id) = (.ok (some p), u) := hresolve
  rw [exec_construct hresolve, hexec] at hrun
  rw [exec_construct hresolve'] at hrun'
  rcases hexec' : (prepare setup (fun needed => buildNested setup rest needed none)
    (definition.withAttributes attributes') (some p)).exec u with ⟨answer', t'⟩
  rw [hexec, hexec'] at hanswer' halike
  rw [hexec'] at hrun'
  cases hanswer' with
  | @ok _ d' hd =>
    obtain ⟨htable, hd'⟩ := hd
    have hid : d'.id = d.id := by rw [hd']
    refine ⟨d', ?_⟩
    rw [hrun, hrun']
    constructor
    · rfl
    · rw [hd', htable]
      exact congrArg (fun table => { d with attributes := table }) hsame
    · refine ⟨t.entries, rfl, ?_⟩
      rw [← hid, ← halike.entries_eq]
      rfl
    · exact halike.requests_eq

/-- A class repeats, beside an attribute of its own, what it inherits from a class of another
registry. The type of one of these stores a class in place that its own registry has not built. -/
theorem buildsSame_of_embedding :
    ∃ setup s definition given attributes' d p d', Reachable .every setup s ∧
      s.get? definition.id = none ∧
      ((buildNested setup (nestingBound setup) definition given).exec s).1 = .ok d ∧
      d.parent? = some p ∧ RepeatsInherited p definition.attributes attributes' ∧
      definition.attributes = [("own", .primitive .int8)] ∧
      attributes' = [("inner", .embedded ⟨"Inner"⟩), ("own", .primitive .int8), ("x", .object)] ∧
      BuildsSame ((buildNested setup (nestingBound setup) definition given).exec s)
        ((buildNested setup (nestingBound setup) (definition.withAttributes attributes')
          given).exec s) d d' := by
  let inner : ClassDefinition := { id := ⟨"Inner"⟩, attributes := [("a", .primitive .int64)] }
  let base : ClassDefinition :=
    { id := ⟨"Base"⟩, attributes := [("x", .object), ("inner", .embedded ⟨"Inner"⟩)] }
  let sub : ClassDefinition := { id := ⟨"Sub"⟩, attributes := [("own", .primitive .int8)] }
  let attributes' : List (String × AttributeType) :=
    [("inner", .embedded ⟨"Inner"⟩), ("own", .primitive .int8), ("x", .object)]
  let setup := setupOf {} (.ofDefinitions [inner])
  have hallows : Scope.every.Allows setup :=
    { config := trivial
      valid := show LayoutConfig.validate {} = .ok () from rfl
      keyed := isKeyed_setupOf _ (DefinitionSet.isKeyed_ofDefinitions _)
      source := fun _ => trivial }
  let other := ((build setup base none).exec ∅).2
  have hbuilt : (other.get? ⟨"Base"⟩).map (fun p =>
      (p.attributes.get? "inner", p.attributes.get? "x",
        ((build setup sub (some p)).exec ∅).1.map fun d => decide (d.parent? = some p))) =
      some (some (.embedded ⟨"Inner"⟩), some .object, .ok true) := by
    decide +kernel
  obtain ⟨p, -, hp⟩ := Option.map_eq_some_iff.1 hbuilt
  obtain ⟨hinner, hrest⟩ := Prod.mk.inj hp
  obtain ⟨hx, hanswer⟩ := Prod.mk.inj hrest
  obtain ⟨d, hd, hparent⟩ := exists_eq_ok_of_map hanswer
  have hrepeats : RepeatsInherited p sub.attributes attributes' :=
    { kept := by decide
      nodup := by decide
      inherited := by
        intro entry hmem hnew
        rcases List.mem_cons.1 hmem with rfl | hmem
        · exact hinner
        rcases List.mem_cons.1 hmem with rfl | hmem
        · exact absurd List.mem_cons_self hnew
        rw [List.mem_singleton.1 hmem]
        exact hx }
  obtain ⟨d', hsame⟩ := buildsSame_of_repeats (.empty hallows) rfl hd (of_decide_eq_true hparent)
    hrepeats
  exact ⟨setup, ∅, sub, some p, attributes', d, p, d', .empty hallows, rfl, hd,
    of_decide_eq_true hparent, hrepeats, rfl, rfl, hsame⟩

end Registry

end ObjectLayout
