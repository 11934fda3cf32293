import Mathlib.Order.Interval.Set.Basic
import ObjectLayout.Proofs.Placement

/-!
# The bytes of an instance

Along a chain the fields of the classes lie one behind the other, between the header of the root and
the end of the instance (`InOrder`). So no two attributes share a byte. The fields that one class
introduces are in order because they are packed, and those of the classes above it end where they
begin. A field is aligned where it was placed first, and it stays there.
-/

set_option autoImplicit false

namespace ObjectLayout

/-- The bytes of an instance that an attribute takes. -/
def Variable.bytes (v : Variable) : Set Nat := Set.Ico v.offset.value (v.offset.value + v.size)

/-- The headers of objects fit into the address space, and the attributes of every class have types
that can be written. -/
def Scope.written : Scope where
  Config := LayoutConfig.HeaderFits
  Definition definition :=
    ∀ entry ∈ definition.attributes, ∃ text, AttributeType.parse text = .ok entry.2

/-- Nothing that is written wraps around. -/
theorem Scope.written_headersFit : Scope.written.HeadersFit :=
  fun _ hconfig => hconfig

/-- Fields that take space, one behind the other, from one offset to another one. -/
structure InOrder (fields : List (String × Variable)) (low high : Nat) : Prop where
  pairwise : fields.Pairwise fun a b => a.2.offset.value + a.2.size ≤ b.2.offset.value
  low_le : ∀ entry ∈ fields, low ≤ entry.2.offset.value
  le_high : ∀ entry ∈ fields, entry.2.offset.value + entry.2.size ≤ high
  pos : ∀ entry ∈ fields, 0 < entry.2.size

namespace InOrder

variable {fields first second : List (String × Variable)} {low middle high : Nat}

/-- Nothing is in order anywhere. -/
theorem nil (low high : Nat) : InOrder [] low high where
  pairwise := .nil
  low_le := fun _ h => nomatch h
  le_high := fun _ h => nomatch h
  pos := fun _ h => nomatch h

/-- Fields in order behind fields in order are in order. -/
theorem append (hfirst : InOrder first low middle) (hsecond : InOrder second middle high)
    (hlow : low ≤ middle) (hhigh : middle ≤ high) : InOrder (first ++ second) low high := by
  constructor
  · refine List.pairwise_append.2 ⟨hfirst.pairwise, hsecond.pairwise, ?_⟩
    intro a ha b hb
    have hend := hfirst.le_high a ha
    have hstart := hsecond.low_le b hb
    omega
  · intro entry hentry
    rcases List.mem_append.1 hentry with hmem | hmem
    · exact hfirst.low_le entry hmem
    · exact Nat.le_trans hlow (hsecond.low_le entry hmem)
  · intro entry hentry
    rcases List.mem_append.1 hentry with hmem | hmem
    · exact Nat.le_trans (hfirst.le_high entry hmem) hhigh
    · exact hsecond.le_high entry hmem
  · intro entry hentry
    rcases List.mem_append.1 hentry with hmem | hmem
    · exact hfirst.pos entry hmem
    · exact hsecond.pos entry hmem

/-- A field that takes space is in order from where it begins to where it ends. -/
theorem singleton {name : String} {v : Variable} (hlow : low ≤ v.offset.value) (hpos : 0 < v.size) :
    InOrder [(name, v)] low (v.offset.value + v.size) where
  pairwise := List.pairwise_singleton _ _
  low_le := List.forall_mem_singleton.2 hlow
  le_high := List.forall_mem_singleton.2 (Nat.le_refl _)
  pos := List.forall_mem_singleton.2 hpos

/-- What is behind the first field is in order from the end of the field on. -/
theorem tail {name : String} {v : Variable} (h : InOrder ((name, v) :: fields) low high) :
    InOrder fields (v.offset.value + v.size) high where
  pairwise := (List.pairwise_cons.1 h.pairwise).2
  low_le := (List.pairwise_cons.1 h.pairwise).1
  le_high := fun entry hentry => h.le_high entry (List.mem_cons_of_mem _ hentry)
  pos := fun entry hentry => h.pos entry (List.mem_cons_of_mem _ hentry)

/-- Fields in order stay so up to a later end. -/
theorem mono (h : InOrder fields low middle) (hle : middle ≤ high) : InOrder fields low high where
  pairwise := h.pairwise
  low_le := h.low_le
  le_high := fun entry hentry => Nat.le_trans (h.le_high entry hentry) hle
  pos := h.pos

/-- Fields in order stay so when they are inherited. -/
theorem inherit (h : InOrder fields low high) (owner : ClassId) :
    InOrder (fields.map fun entry => (entry.1, entry.2.inheritFrom owner)) low high := by
  constructor
  · exact List.pairwise_map.2 h.pairwise
  · intro entry hentry
    obtain ⟨placed, hmem, rfl⟩ := List.mem_map.1 hentry
    exact h.low_le placed hmem
  · intro entry hentry
    obtain ⟨placed, hmem, rfl⟩ := List.mem_map.1 hentry
    exact h.le_high placed hmem
  · intro entry hentry
    obtain ⟨placed, hmem, rfl⟩ := List.mem_map.1 hentry
    exact h.pos placed hmem

/-- The offsets of fields in order increase. -/
theorem increasing (h : InOrder fields low high) :
    fields.Pairwise fun a b => a.2.offset.value < b.2.offset.value := by
  apply h.pairwise.imp_of_mem
  intro a b ha _ hle
  have hpos := h.pos a ha
  omega

/-- Fields in order share no byte. -/
theorem disjoint (h : InOrder fields low high) :
    fields.Pairwise fun a b => ∀ n ∈ a.2.bytes, n ∉ b.2.bytes := by
  apply h.pairwise.imp
  intro a b hle n ha hb
  obtain ⟨-, hend⟩ := ha
  obtain ⟨hstart, -⟩ := hb
  omega

end InOrder

/-- Packed fields that take space are in order. -/
theorem Packed.inOrder {space : SpaceOf} {start stop : Nat} {fields : List (String × Variable)}
    (h : Packed space start fields stop) (hpos : ∀ entry ∈ fields, 0 < entry.2.size) :
    InOrder fields start stop := by
  induction h with
  | nil => exact .nil _ _
  | @cons start stop name v field rest hown hspace hsize hoffset hrest ih =>
    have hfirst : InOrder [(name, v)] start (v.offset.value + v.size) :=
      .singleton hoffset.le (hpos _ List.mem_cons_self)
    have hlater := ih fun entry hmem => hpos entry (List.mem_cons_of_mem _ hmem)
    have hle : start ≤ v.offset.value + v.size := by
      have hstart := hoffset.le
      omega
    exact hfirst.append hlater hle hrest.le

/-- The attributes of a class are in order if those that it inherits are. -/
theorem FieldPlacement.inOrder {known : Knowledge} {config : LayoutConfig}
    {definition : ClassDefinition} {parent : Option Descriptor} {d : Descriptor}
    {own : List (String × Variable)} {low stop : Nat}
    (h : FieldPlacement (known.fieldSpace config.pointerSize definition.id) config definition parent
      d own stop)
    (hvalid : config.validate = .ok ()) (hknown : known.IsAligned) (htakes : known.TakesSpace)
    (hdef : Scope.written.Definition definition)
    (hinherited : InOrder (inheritedSymbols parent) low d.attrOffset) (hlow : low ≤ d.attrOffset) :
    InOrder d.symbols.toList low d.size ∧ low ≤ d.size := by
  have hown : InOrder own d.attrOffset d.size := by
    refine (h.packed.inOrder ?_).mono h.isRounded.le
    intro entry hentry
    obtain ⟨field, hspace, hsize, -⟩ := h.packed.exists_field entry hentry
    obtain ⟨text, hparse⟩ := hdef _ (List.mem_filter.1 (h.mem_introducedEntries hentry)).1
    rw [hsize]
    exact hknown.size_pos htakes (LayoutConfig.pointerSize_pos hvalid)
      (AttributeType.isFilled_of_parse hparse) hspace
  rw [h.symbols_eq]
  exact ⟨hinherited.append hown hlow h.attrOffset_le, Nat.le_trans hlow h.attrOffset_le⟩

/-- An attribute is placed as its class sizes the type, at a multiple of its alignment. -/
structure PlacedBy (o : Origin) (v : Variable) (field : FieldLayout) : Prop where
  space_eq : o.fieldSpace v.type = .ok field
  size_eq : v.size = field.size
  dvd : field.alignment.value ∣ v.offset.value

/-- An attribute was placed by the class of the chain that it names, and its alignment is one for
the whole instance. -/
def PlacedAlong (origins : List Origin) (d : Descriptor) (v : Variable) : Prop :=
  ∃ o ∈ origins, o.definition.id = v.declaredIn d.id ∧
    ∃ field, PlacedBy o v field ∧ field.alignment.value ∣ d.alignment.value

/-- Where the pointer to the virtual table ends in an instance of the root of a chain. -/
def headerEnd (origins : List Origin) : Nat :=
  (origins.getLast?.map fun o =>
    o.setup.config.objectHeaderSize + o.setup.config.pointerSize).getD 0

/-- The header of a class is that of the root of its parent. -/
theorem headerEnd_cons (o : Origin) {above : List Origin} (h : above ≠ []) :
    headerEnd (o :: above) = headerEnd above := by
  cases above with
  | nil => exact absurd rfl h
  | cons o' rest =>
    unfold headerEnd
    rw [List.getLast?_cons_cons]

/-- How the attributes of a class are placed, where `o` is its own origin and `above` are those of
its ancestors. -/
structure PlacesFields (d : Descriptor) (o : Origin) (above : List Origin) : Prop where
  /-- The attributes that the class introduces are packed behind those of its parent. -/
  placement : ∃ own stop,
    FieldPlacement o.fieldSpace o.setup.config o.definition d.parent? d own stop
  /-- They begin where an instance of the parent ends, and in a root behind the header and the
  pointer to the virtual table. -/
  attrOffset_eq : d.attrOffset = d.parent?.elim
    (o.setup.config.objectHeaderSize + o.setup.config.pointerSize) fun p => p.size
  /-- The alignment is a power of two. -/
  isPower : d.alignment.IsPower
  /-- The offsets of all attributes grow in the order of the table. -/
  increasing : d.symbols.toList.Pairwise fun a b => a.2.offset.value < b.2.offset.value
  /-- No two attributes share a byte. -/
  disjoint : d.symbols.toList.Pairwise fun a b => ∀ n ∈ a.2.bytes, n ∉ b.2.bytes
  /-- Every attribute lies between the header of the root and the end of the instance. -/
  within : ∀ entry ∈ d.symbols.toList, headerEnd (o :: above) ≤ entry.2.offset.value ∧
    entry.2.offset.value + entry.2.size ≤ d.size
  /-- Every attribute takes space. -/
  pos : ∀ entry ∈ d.symbols.toList, 0 < entry.2.size
  /-- Every attribute is aligned for the class that placed it, and then for the instance. -/
  aligned : ∀ entry ∈ d.symbols.toList, PlacedAlong (o :: above) d entry.2

namespace Registry

variable {scope : Scope} {d : Descriptor} {o : Origin} {above origins : List Origin}
  {parent : Option Descriptor}

/-- The fields of a class are in order between the header and the end of an instance. -/
theorem Lineage.inOrder (h : Lineage .written (some d) origins) :
    InOrder d.symbols.toList (headerEnd origins) d.size ∧ headerEnd origins ≤ d.size := by
  refine h.chain_induction (Q := fun d origins =>
    InOrder d.symbols.toList (headerEnd origins) d.size ∧ headerEnd origins ≤ d.size) ?_ ?_
  · intro o d hlink _
    obtain ⟨own, stop, hplaced⟩ := hlink.exists_placement .nil
    have hattr : d.attrOffset = headerEnd [o] :=
      hplaced.attrOffset_eq.trans hlink.reachable.allows.config.headerSize_eq
    exact hplaced.inOrder hlink.reachable.allows.valid hlink.isAligned
      (hlink.takesSpace Scope.written_headersFit) hlink.definition (.nil _ _)
      (Nat.le_of_eq hattr.symm)
  · intro o p d above hlink _ habove ih
    obtain ⟨own, stop, hplaced⟩ := hlink.exists_placement habove
    have hattr : d.attrOffset = p.size := hplaced.attrOffset_eq
    have hne : above ≠ [] := by
      rintro rfl
      cases habove
    rw [headerEnd_cons o hne]
    refine hplaced.inOrder hlink.reachable.allows.valid hlink.isAligned
      (hlink.takesSpace Scope.written_headersFit) hlink.definition ?_ ?_
    · rw [hattr]
      exact ih.1.inherit p.id
    · rw [hattr]
      exact ih.2

/-- The fields that a class introduces are aligned for it, and are declared in it. -/
theorem Link.aligned (h : Link scope o parent d) (hd : Sound d) {own : List (String × Variable)}
    {stop : Nat}
    (hplaced : FieldPlacement o.fieldSpace o.setup.config o.definition parent d own stop) :
    ∀ entry ∈ own, o.definition.id = entry.2.declaredIn d.id ∧
      ∃ field, PlacedBy o entry.2 field ∧ field.alignment.value ∣ d.alignment.value := by
  intro entry hentry
  obtain ⟨field, hspace, hsize, hdvd⟩ := hplaced.packed.exists_field entry hentry
  have hle : field.alignment.value ≤ d.alignment.value :=
    hplaced.isGreatest.2 (.inr ⟨entry, hentry, field, hspace, rfl⟩)
  rw [hplaced.packed.declaredIn_eq entry hentry, h.id_eq]
  exact ⟨rfl, field, ⟨hspace, hsize, hdvd⟩, (h.isAligned.isPower hspace).dvd_of_le hd.isPower hle⟩

/-- Every attribute is aligned, whichever class placed it. -/
theorem Lineage.aligned (h : Lineage scope (some d) origins) :
    ∀ entry ∈ d.symbols.toList, PlacedAlong origins d entry.2 := by
  refine h.chain_induction (Q := fun d origins =>
    ∀ entry ∈ d.symbols.toList, PlacedAlong origins d entry.2) ?_ ?_
  · intro o d hlink _ entry hentry
    obtain ⟨own, stop, hplaced⟩ := hlink.exists_placement .nil
    rw [hplaced.symbols_eq] at hentry
    exact ⟨o, List.mem_cons_self, hlink.aligned (hlink.sound .nil) hplaced entry hentry⟩
  · intro o p d above hlink _ habove ih entry hentry
    obtain ⟨own, stop, hplaced⟩ := hlink.exists_placement habove
    have hd := hlink.sound habove
    rw [hplaced.symbols_eq] at hentry
    rcases List.mem_append.1 hentry with hinherited | hown
    · obtain ⟨placed, hmem, rfl⟩ := List.mem_map.1 hinherited
      obtain ⟨origin, horigin, hid, field, hfield, hdvd⟩ := ih placed hmem
      have hraise : p.alignment.value ∣ d.alignment.value :=
        habove.sound.isPower.dvd_of_le hd.isPower (hplaced.isGreatest.2 (.inl rfl))
      exact ⟨origin, List.mem_cons_of_mem _ horigin, hid, field,
        ⟨hfield.space_eq, hfield.size_eq, hfield.dvd⟩, Nat.dvd_trans hdvd hraise⟩
    · exact ⟨o, List.mem_cons_self, hlink.aligned hd hplaced entry hown⟩

/-- The fields of a class are placed as they should be. -/
theorem placesFields_of_lineage (h : Lineage .written (some d) (o :: above)) :
    PlacesFields d o above := by
  obtain ⟨hlink, hparent⟩ := h.link
  obtain ⟨horder, -⟩ := h.inOrder
  constructor
  · exact hlink.exists_placement hparent
  · obtain ⟨own, stop, hplaced⟩ := hlink.exists_placement hparent
    rw [hplaced.attrOffset_eq, hlink.reachable.allows.config.headerSize_eq]
  · exact h.sound.isPower
  · exact horder.increasing
  · exact horder.disjoint
  · exact fun entry hentry => ⟨horder.low_le entry hentry, horder.le_high entry hentry⟩
  · exact horder.pos
  · exact h.aligned

/-- A class that adds a flag and a number to its parent, with a gap between them. -/
theorem placesFields_of_pixel :
    ∃ d o above, Lineage .written (some d) (o :: above) ∧
      d.symbols.values.map (fun v => v.offset.value) = [24, 32, 36] ∧ PlacesFields d o above := by
  have hfits : LayoutConfig.HeaderFits {} := by decide
  have hallows : Scope.written.Allows { config := {} } := allows_of_valid hfits rfl
  have hnumber : ∃ text, AttributeType.parse text = .ok (.primitive .int32) := by
    refine ⟨"int32", ?_⟩
    unfold AttributeType.parse
    rw [AttributeType.ofChars_eq_ofName (by decide)]
    rfl
  have hflag : ∃ text, AttributeType.parse text = .ok (.primitive .bool) := by
    refine ⟨"bool", ?_⟩
    unfold AttributeType.parse
    rw [AttributeType.ofChars_eq_ofName (by decide)]
    rfl
  have hpoint := Lineage.of_fresh hallows
    { id := ⟨"Point"⟩, attributes := [("x", .primitive .int32)] }
    (List.forall_mem_singleton.2 hnumber) .nil rfl rfl
  have hpixel := Lineage.of_fresh hallows
    { id := ⟨"Pixel"⟩, attributes := [("lit", .primitive .bool), ("y", .primitive .int32)] }
    (List.forall_mem_cons.2 ⟨hflag, List.forall_mem_singleton.2 hnumber⟩) hpoint rfl rfl
  exact ⟨_, _, _, hpixel, rfl, placesFields_of_lineage hpixel⟩

end Registry

end ObjectLayout
