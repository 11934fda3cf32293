import Mathlib.Data.List.Nodup
import ObjectLayout.Proofs.Placement

/-!
# Stability of layouts

What a class lays out is never moved by a class below it: tables only grow at their ends, the
pointer to the virtual table stays, alignments are refined and sizes grow (`LayoutExtends`). This
holds of a class and its parent by the way in which fields are placed, and it is carried along the
chain, as is which class an attribute belongs to (`NamesDeclarers`).

Sizes stay the same exactly where all that is new is empty and stands at the end. So a class may add
an attribute and be as large as its parent (`Registry.addsInNoSpace_of_empty_attribute`), but not
where headers fit into the address space and every type takes some space.
-/

set_option autoImplicit false

namespace ObjectLayout

/-- The place of an attribute, with the class that placed it. -/
structure Place where
  name : String
  type : AttributeType
  offset : Nat
  size : Nat
  declaredIn : ClassId

/-- An entry of the symbol table of a class, as it reads there. -/
def Place.ofEntry (owner : ClassId) (entry : String × Variable) : Place where
  name := entry.1
  type := entry.2.type
  offset := entry.2.offset.value
  size := entry.2.size
  declaredIn := entry.2.declaredIn owner

/-- The places of the attributes of a class, in layout order. -/
def ClassLayout.places (c : ClassLayout) : List Place :=
  c.symbols.toList.map (Place.ofEntry c.id)

/-- The names of the places are those of the symbol table. -/
theorem ClassLayout.map_name_places (c : ClassLayout) :
    c.places.map Place.name = c.symbols.keys := by
  unfold places
  rw [List.map_map]
  rfl

/-- The attribute that stands in a place. -/
def Place.entry (place : Place) : String × AttributeType := (place.name, place.type)

/-- The attributes of a sound class stand in its places. -/
theorem Sound.map_entry_places {d : Descriptor} (h : Sound d) :
    d.places.map Place.entry = d.attributes.toList := by
  rw [← h.symbols_eq]
  unfold ClassLayout.places
  rw [List.map_map]
  rfl

/-- A layout extends another one. -/
structure LayoutExtends (a d : ClassLayout) : Prop where
  /-- The attributes come first, with their types. -/
  isPrefix_attributes : a.attributes.toList <+: d.attributes.toList
  /-- So do their places. -/
  isPrefix_places : a.places <+: d.places
  /-- The pointer to the virtual table has not moved. -/
  vtabOffset_eq : d.vtabOffset = a.vtabOffset
  /-- What is aligned for the larger layout is aligned for the smaller one. -/
  alignment_dvd : a.alignment.value ∣ d.alignment.value
  /-- The size does not shrink. -/
  size_le : a.size ≤ d.size
  /-- It stays the same exactly when whatever is new is empty, and stands at the end. -/
  size_eq_iff : d.size = a.size ↔
    ∀ place ∈ d.places, place ∉ a.places → place.size = 0 ∧ place.offset = a.size

namespace LayoutExtends

/-- A layout extends itself. -/
theorem refl (c : ClassLayout) : LayoutExtends c c where
  isPrefix_attributes := List.prefix_refl _
  isPrefix_places := List.prefix_refl _
  vtabOffset_eq := rfl
  alignment_dvd := Nat.dvd_refl _
  size_le := Nat.le_refl _
  size_eq_iff := ⟨fun _ _ hmem hnot => absurd hmem hnot, fun _ => rfl⟩

/-- An extension of an extension is an extension. -/
theorem trans {a b c : ClassLayout} (h : LayoutExtends a b) (hnext : LayoutExtends b c) :
    LayoutExtends a c where
  isPrefix_attributes := h.isPrefix_attributes.trans hnext.isPrefix_attributes
  isPrefix_places := h.isPrefix_places.trans hnext.isPrefix_places
  vtabOffset_eq := hnext.vtabOffset_eq.trans h.vtabOffset_eq
  alignment_dvd := Nat.dvd_trans h.alignment_dvd hnext.alignment_dvd
  size_le := Nat.le_trans h.size_le hnext.size_le
  size_eq_iff := by
    constructor
    · intro hsize
      -- The layout in between is as large as both.
      have hlow := h.size_le
      have hhigh := hnext.size_le
      have hlower : b.size = a.size := by omega
      have hupper : c.size = b.size := by omega
      intro place hmem hnot
      by_cases hmiddle : place ∈ b.places
      · exact h.size_eq_iff.1 hlower place hmiddle hnot
      · rw [← hlower]
        exact hnext.size_eq_iff.1 hupper place hmem hmiddle
    · intro hempty
      have hlower : b.size = a.size := h.size_eq_iff.2 fun place hmem =>
        hempty place (hnext.isPrefix_places.subset hmem)
      have hupper : c.size = b.size := by
        refine hnext.size_eq_iff.2 fun place hmem hnot => ?_
        rw [hlower]
        exact hempty place hmem fun hold => hnot (h.isPrefix_places.subset hold)
      exact hupper.trans hlower

/-- If every attribute takes space, the size stays the same exactly when nothing is new. -/
theorem size_eq_iff_of_pos {a d : ClassLayout} (h : LayoutExtends a d)
    (hpos : ∀ place ∈ d.places, 0 < place.size) :
    d.size = a.size ↔ ∀ place ∈ d.places, place ∈ a.places := by
  rw [h.size_eq_iff]
  constructor
  · intro hempty place hmem
    by_contra hnot
    exact absurd (hempty place hmem hnot).1 (Nat.ne_of_gt (hpos place hmem))
  · exact fun hsame place hmem hnot => absurd (hsame place hmem) hnot

end LayoutExtends

/-! ## A class and its parent -/

section Link

variable {space : SpaceOf} {config : LayoutConfig} {definition : ClassDefinition} {p d : Descriptor}
  {own : List (String × Variable)} {stop : Nat}

/-- What a class introduces has no place in its parent. -/
theorem FieldPlacement.not_mem_places
    (h : FieldPlacement space config definition (some p) d own stop)
    (hparent : ∀ q, some p = some q → Sound q) {entry : String × Variable} (hentry : entry ∈ own) :
    Place.ofEntry d.id entry ∉ p.toClassLayout.places := by
  intro hmem
  have hnot := ((mem_introducedEntries_iff hparent).1 (h.mem_introducedEntries hentry)).2
  rw [keys_inheritedSymbols, Option.elim_some, ← ClassLayout.map_name_places] at hnot
  exact hnot (List.mem_map.2 ⟨_, hmem, rfl⟩)

/-- A class extends its parent. -/
theorem FieldPlacement.layoutExtends
    (h : FieldPlacement space config definition (some p) d own stop) (hp : Sound p) (hd : Sound d) :
    LayoutExtends p.toClassLayout d.toClassLayout := by
  have hattr : d.attrOffset = p.size := h.attrOffset_eq
  have hparent : ∀ q, some p = some q → Sound q := by
    rintro q ⟨⟩
    exact hp
  have hplaces : d.places = p.places ++ own.map (Place.ofEntry d.id) := by
    unfold ClassLayout.places
    rw [h.symbols_eq, List.map_append]
    unfold inheritedSymbols
    rw [Option.elim_some, List.map_map]
    rfl
  constructor
  · rw [h.attributes_eq]
    exact List.prefix_append _ _
  · rw [hplaces]
    exact List.prefix_append _ _
  · exact h.vtabOffset_eq
  · exact hp.isPower.dvd_of_le hd.isPower (h.isGreatest.2 (.inl rfl))
  · rw [← hattr]
    exact h.attrOffset_le
  · rw [← hattr, h.size_eq_attrOffset_iff hp.dvd, hplaces]
    constructor
    · intro hempty place hmem hnot
      obtain ⟨entry, hentry, rfl⟩ :=
        List.mem_map.1 ((List.mem_append.1 hmem).resolve_left hnot)
      exact hempty entry hentry
    · intro hempty entry hentry
      exact hempty _ (List.mem_append_right _ (List.mem_map.2 ⟨entry, hentry, rfl⟩))
        (h.not_mem_places hparent hentry)

end Link

/-! ## Along a chain -/

/-- The first class of a chain, from the root on, that declares an attribute. -/
def declarer? (origins : List Origin) (name : String) : Option ClassId :=
  (origins.reverse.find? fun o => name ∈ o.definition.attributes.map Prod.fst).map fun o =>
    o.definition.id

/-- What a layout keeps of the layouts of its ancestors. -/
structure StableLayout (scope : Scope) (d : Descriptor) (origins : List Origin) : Prop where
  /-- The class extends the layout of every class of its chain. -/
  layoutExtends : ∀ a ∈ d.chain, LayoutExtends a d.toClassLayout
  /-- The attributes that are placed are those of the attribute table, in its order. -/
  symbols_eq : d.symbols.toList.map (fun entry => (entry.1, entry.2.type)) = d.attributes.toList
  /-- An attribute belongs to the first class that declares it. -/
  declarer?_eq : ∀ entry ∈ d.symbols.toList,
    declarer? origins entry.1 = some (entry.2.declaredIn d.id)
  /-- The class owns exactly the attributes that no ancestor has. -/
  own_iff : ∀ entry ∈ d.symbols.toList,
    entry.2.storage = .own ↔ ∀ a ∈ d.ancestors, entry.1 ∉ a.symbols.keys
  /-- It is as large as a class of its chain exactly when it adds no attribute to that class, if
  neither headers nor arrays are empty. -/
  size_eq_iff : scope.HeadersFit → scope.IsFilled → ∀ a ∈ d.chain,
    (d.size = a.size ↔ ∀ entry ∈ d.attributes.toList, entry ∈ a.attributes.toList)

/-- Without a chain no class declares a name. -/
theorem declarer?_nil (name : String) : declarer? [] name = none := rfl

/-- A class declares what nothing above it declares. -/
theorem declarer?_cons (o : Origin) (above : List Origin) (name : String) :
    declarer? (o :: above) name = (declarer? above name).or
      (if name ∈ o.definition.attributes.map Prod.fst then some o.definition.id else none) := by
  unfold declarer?
  rw [List.reverse_cons, List.find?_append]
  cases above.reverse.find? fun o => name ∈ o.definition.attributes.map Prod.fst with
  | some first => rfl
  | none =>
    by_cases hname : name ∈ o.definition.attributes.map Prod.fst
    · simp [hname]
    · simp [hname]

/-- The tables of a class tell who declares an attribute. -/
structure NamesDeclarers (origins : List Origin) (d : Descriptor) : Prop where
  placed : ∀ entry ∈ d.symbols.toList, declarer? origins entry.1 = some (entry.2.declaredIn d.id)
  absent : ∀ name, name ∉ d.symbols.keys → declarer? origins name = none

section Declarers

variable {space : SpaceOf} {config : LayoutConfig} {o : Origin} {parent : Option Descriptor}
  {d : Descriptor} {own : List (String × Variable)} {stop : Nat} {above : List Origin}

/-- If what a class inherits has the declarers that it names, so has what the class places. -/
theorem FieldPlacement.namesDeclarers
    (h : FieldPlacement space config o.definition parent d own stop)
    (hparent : ∀ p, parent = some p → Sound p) (hid : d.id = o.definition.id)
    (hplaced : ∀ entry ∈ inheritedSymbols parent,
      declarer? above entry.1 = some (entry.2.declaredIn d.id))
    (habsent : ∀ name, name ∉ (inheritedSymbols parent).map Prod.fst →
      declarer? above name = none) :
    NamesDeclarers (o :: above) d := by
  have hown : own.map Prod.fst = (introducedEntries o.definition parent).map Prod.fst := by
    rw [← h.own_eq, List.map_map]
    rfl
  constructor
  · intro entry hentry
    rw [h.symbols_eq] at hentry
    rw [declarer?_cons]
    rcases List.mem_append.1 hentry with hinherited | hmem
    · rw [hplaced entry hinherited]
      rfl
    · obtain ⟨hdeclared, hnot⟩ :=
        (mem_introducedEntries_iff hparent).1 (h.mem_introducedEntries hmem)
      have hname : entry.1 ∈ o.definition.attributes.map Prod.fst :=
        List.mem_map.2 ⟨_, hdeclared, rfl⟩
      rw [habsent _ hnot, if_pos hname, h.packed.declaredIn_eq entry hmem, hid]
      rfl
  · intro name hname
    have hkeys : d.symbols.keys = (inheritedSymbols parent).map Prod.fst ++ own.map Prod.fst := by
      unfold OrderedMap.keys
      rw [h.symbols_eq, List.map_append]
    rw [hkeys, List.mem_append, not_or, hown] at hname
    obtain ⟨hinherited, hintroduced⟩ := hname
    rw [declarer?_cons, habsent name hinherited, if_neg]
    · rfl
    · intro hdeclared
      obtain ⟨entry, hentry, rfl⟩ := List.mem_map.1 hdeclared
      refine hintroduced (List.mem_map.2 ⟨entry, ?_, rfl⟩)
      exact (mem_introducedEntries_iff hparent).2 ⟨hentry, hinherited⟩

/-- An attribute is the own one of a class exactly if the parent does not have it. -/
theorem FieldPlacement.own_iff (h : FieldPlacement space config o.definition parent d own stop)
    (hparent : ∀ p, parent = some p → Sound p) {entry : String × Variable}
    (hentry : entry ∈ d.symbols.toList) :
    entry.2.storage = .own ↔ entry.1 ∉ (inheritedSymbols parent).map Prod.fst := by
  rw [h.symbols_eq] at hentry
  rcases List.mem_append.1 hentry with hinherited | hmem
  · have hstorage := storage_of_mem_inheritedSymbols hinherited
    have hname : entry.1 ∈ (inheritedSymbols parent).map Prod.fst :=
      List.mem_map.2 ⟨entry, hinherited, rfl⟩
    exact ⟨fun hown => absurd hown hstorage, fun hnot => absurd hname hnot⟩
  · have hnot := ((mem_introducedEntries_iff hparent).1 (h.mem_introducedEntries hmem)).2
    exact ⟨fun _ => hnot, fun _ => h.packed.storage entry hmem⟩

end Declarers

namespace Registry

variable {scope : Scope} {d : Descriptor} {origins : List Origin}

/-- A class extends every class of its chain. -/
theorem Lineage.layoutExtends (h : Lineage scope (some d) origins) :
    ∀ a ∈ d.chain, LayoutExtends a d.toClassLayout := by
  refine h.chain_induction (Q := fun d _ => ∀ a ∈ d.chain, LayoutExtends a d.toClassLayout) ?_ ?_
  · intro o d hlink _ a ha
    rw [hlink.chain_eq] at ha
    rw [List.mem_singleton.1 ha]
    exact .refl _
  · intro o p d above hlink _ habove ih a ha
    obtain ⟨own, stop, hplaced⟩ := hlink.exists_placement habove
    have hstep : LayoutExtends p.toClassLayout d.toClassLayout :=
      hplaced.layoutExtends habove.sound (hlink.sound habove)
    rw [hlink.chain_eq] at ha
    rcases List.mem_cons.1 ha with rfl | ha
    · exact .refl _
    · exact (ih a ha).trans hstep

/-- A class names the declarers of its attributes. -/
theorem Lineage.namesDeclarers (h : Lineage scope (some d) origins) : NamesDeclarers origins d := by
  refine h.chain_induction (Q := fun d origins => NamesDeclarers origins d) ?_ ?_
  · intro o d hlink _
    obtain ⟨own, stop, hplaced⟩ := hlink.exists_placement .nil
    exact hplaced.namesDeclarers (fun _ h => nomatch h) hlink.id_eq (fun _ h => nomatch h)
      fun name _ => declarer?_nil name
  · intro o p d above hlink _ habove ih
    obtain ⟨own, stop, hplaced⟩ := hlink.exists_placement habove
    apply hplaced.namesDeclarers habove.parent_sound hlink.id_eq
    · intro entry hentry
      obtain ⟨placed, hmem, rfl⟩ := List.mem_map.1 hentry
      exact ih.placed placed hmem
    · intro name hname
      rw [keys_inheritedSymbols] at hname
      exact ih.absent name hname

/-- What a class inherits are the attributes of its ancestors. -/
theorem Lineage.mem_inheritedSymbols_iff {parent : Option Descriptor}
    (h : Lineage scope parent origins) (name : String) :
    name ∉ (inheritedSymbols parent).map Prod.fst ↔
      ∀ a ∈ parent.elim [] Descriptor.chain, name ∉ a.symbols.keys := by
  rw [keys_inheritedSymbols]
  cases parent with
  | none => simp
  | some p =>
    constructor
    · intro hnot a ha hmem
      have hnames := (h.layoutExtends a ha).isPrefix_places.map Place.name
      rw [ClassLayout.map_name_places, ClassLayout.map_name_places] at hnames
      exact hnot (hnames.subset hmem)
    · intro hnone
      exact hnone p.toClassLayout List.mem_cons_self

/-- The places of a class are those of a class of its chain exactly when its attributes are. -/
theorem Lineage.places_subset_iff (h : Lineage scope (some d) origins) {a : ClassLayout}
    (ha : a ∈ d.chain) : (∀ place ∈ d.places, place ∈ a.places) ↔
      ∀ entry ∈ d.attributes.toList, entry ∈ a.attributes.toList := by
  have hextends := h.layoutExtends a ha
  have hsound : a.places.map Place.entry = a.attributes.toList := by
    rcases List.mem_cons.1 ha with rfl | habove
    · exact h.sound.map_entry_places
    · obtain ⟨p, _, rfl, hp, -⟩ := h.of_mem_ancestors habove
      exact hp.sound.map_entry_places
  rw [← h.sound.map_entry_places, ← hsound, List.forall_mem_map]
  constructor
  · exact fun hsame place hmem => List.mem_map_of_mem (hsame place hmem)
  · intro hsame place hmem
    -- The class has one place for a name, and the class above it has the place that it has.
    obtain ⟨old, hold, hentry⟩ := List.mem_map.1 (hsame place hmem)
    have hnodup : (d.places.map Place.name).Nodup := by
      rw [ClassLayout.map_name_places]
      exact h.sound.nodup_symbols
    have hname : old.name = place.name := congrArg Prod.fst hentry
    have heq := List.inj_on_of_nodup_map hnodup (hextends.isPrefix_places.subset hold) hmem hname
    rw [← heq]
    exact hold

/-- Layouts are stable along chains. -/
theorem stableLayout_of_lineage (h : Lineage scope (some d) origins) :
    StableLayout scope d origins := by
  constructor
  · exact h.layoutExtends
  · exact h.sound.symbols_eq
  · exact h.namesDeclarers.placed
  · intro entry hentry
    cases origins with
    | nil => cases h
    | cons o above =>
      obtain ⟨hlink, hparent⟩ := h.link
      obtain ⟨own, stop, hplaced⟩ := hlink.exists_placement hparent
      rw [hplaced.own_iff hparent.parent_sound hentry, hparent.mem_inheritedSymbols_iff,
        hlink.ancestors_eq]
  · intro hfits hfilled a ha
    have hpos : ∀ place ∈ d.places, 0 < place.size :=
      List.forall_mem_map.2 (h.attribute_pos hfits hfilled)
    rw [(h.layoutExtends a ha).size_eq_iff_of_pos hpos, h.places_subset_iff ha]

/-- A class that repeats an attribute of its parent and adds another one. -/
theorem stableLayout_of_pixel :
    ∃ scope d origins, scope.HeadersFit ∧ scope.IsFilled ∧ Lineage scope (some d) origins ∧
      d.symbols.keys = ["x", "color"] ∧ StableLayout scope d origins := by
  let scope : Scope :=
    { Config := LayoutConfig.HeaderFits
      Definition := fun definition => ∀ entry ∈ definition.attributes, entry.2.IsFilled }
  have hfits : LayoutConfig.HeaderFits {} := by decide
  have hallows : scope.Allows { config := {} } := allows_of_valid hfits rfl
  have hpoint := Lineage.of_fresh hallows
    { id := ⟨"Point"⟩, attributes := [("x", .primitive .int32)] }
    (List.forall_mem_singleton.2 trivial) .nil rfl rfl
  have hpixel := Lineage.of_fresh hallows
    { id := ⟨"Pixel"⟩, attributes := [("x", .primitive .int32), ("color", .primitive .int8)] }
    (List.forall_mem_cons.2 ⟨trivial, List.forall_mem_singleton.2 trivial⟩) hpoint rfl rfl
  exact ⟨scope, _, _, fun _ hconfig => hconfig, fun _ hdef => hdef, hpixel, rfl,
    stableLayout_of_lineage hpixel⟩

/-! ## Attributes that take no space -/

/-- Under a configuration a class `B` can be built that adds an attribute to its parent and is as
large as the parent. -/
def AddsInNoSpace (config : LayoutConfig) (z : String × AttributeType) : Prop :=
  ∃ s d p, Reachable .every { config } s ∧ s.get? ⟨"B"⟩ = some d ∧ d.parent? = some p ∧
    d.attributes.toList = p.attributes.toList ++ [z] ∧ d.size = p.size

/-- The registry after classes have been built in it, one after another. -/
def built (setup : RegistrySetup) (definitions : List ClassDefinition) : Registry :=
  definitions.foldl (fun s definition => ((build setup definition none).exec s).2) ∅

/-- What classes that are built one after another leave can be reached. -/
theorem reachable_built {setup : RegistrySetup} (hallows : Scope.every.Allows setup)
    (definitions : List ClassDefinition) : Reachable .every setup (built setup definitions) := by
  have hfrom : ∀ s, Reachable .every setup s → Reachable .every setup
      (definitions.foldl (fun s definition => ((build setup definition none).exec s).2) s) := by
    induction definitions with
    | nil => exact fun s hs => hs
    | cons definition rest ih =>
      exact fun s hs => ih _ (.build (nestingBound setup) hs trivial .nil)
  exact hfrom ∅ (.empty hallows)

/-- A class in a registry that builds have filled may show that an attribute takes no space. -/
theorem addsInNoSpace_of_built {config : LayoutConfig} {z : String × AttributeType}
    (hvalid : config.validate = .ok ()) (definitions : List ClassDefinition)
    (h : (((built { config } definitions).get? ⟨"B"⟩).bind fun d => d.parent?.map fun p =>
      decide (d.attributes.toList = p.attributes.toList ++ [z] ∧ d.size = p.size)) = some true) :
    AddsInNoSpace config z := by
  obtain ⟨d, hd, h⟩ := Option.bind_eq_some_iff.1 h
  obtain ⟨p, hp, h⟩ := Option.map_eq_some_iff.1 h
  obtain ⟨hattributes, hsize⟩ := of_decide_eq_true h
  exact ⟨_, d, p, reachable_built (allows_of_valid trivial hvalid) definitions, hd, hp,
    hattributes, hsize⟩

/-- A class may grow by an attribute and keep its size: by an array without elements, and, where the
header of objects wraps around, by an instance of a class without attributes. -/
theorem addsInNoSpace_of_empty_attribute :
    AddsInNoSpace {} ("z", .array (.primitive .int8) 0) ∧
      AddsInNoSpace { objectHeaderSize := 2 ^ 64 - 8 } ("z", .embedded ⟨"E"⟩) := by
  let a : ClassDefinition := { id := ⟨"A"⟩, attributes := [("x", .primitive .int64)] }
  let e : ClassDefinition := { id := ⟨"E"⟩ }
  let b : AttributeType → ClassDefinition := fun type =>
    { id := ⟨"B"⟩, bases := [⟨"A"⟩], attributes := [("z", type)] }
  exact ⟨addsInNoSpace_of_built rfl [a, b (.array (.primitive .int8) 0)] (by decide),
    addsInNoSpace_of_built rfl [e, a, b (.embedded ⟨"E"⟩)] (by decide)⟩

end Registry

end ObjectLayout
