import ObjectLayout.Form.Report
import ObjectLayout.Proofs.LayoutStability
import ObjectLayout.Proofs.MethodResolution
import ObjectLayout.Proofs.UnboundedLayout
import ObjectLayout.Proofs.WrittenClasses

/-!
# Reports agree with layouts

A report is drawn up from the entries of the symbol table and of the dispatch table, and looks the
offsets of the methods up once more by their names. Since both tables hold every name once, and a
slot stands at the position that its index says, each line of a report agrees with what the class
answers about the attribute or the method (`Lineage.agrees_attribute`, `Lineage.agrees_method`).

A report bears the identity, the parent and the numbers of the descriptor that it is drawn up from
(`LayoutReport.Describes`).

A report is written as a JSON object and comes back from it (`LayoutReport.HasWords.readsBack`).
Only machine words are read as numbers, so that is asked of the numbers of a report; those of the
report about a class are (`Lineage.report_hasWords`).
-/

set_option autoImplicit false

namespace ObjectLayout

/-! ## What a report says -/

/-- A line agrees with what the class answers about the attribute. The attribute belongs to the
first class of the chain that declares it. -/
structure AttributeEntry.Agrees (e : AttributeEntry) (d : Descriptor) (origins : List Origin) :
    Prop where
  offset_eq : d.offsetOf e.name = .ok e.offset
  variable_eq : ∃ v, d.variableNamed e.name = .ok v ∧ e.size = v.size ∧ e.type = v.type.text ∧
    d.attributes.get? e.name = some v.type
  declaredIn_eq : ∃ cls, declarer? origins e.name = some cls ∧ e.declaredIn = cls.text

/-- A line at a position agrees with what the class answers about the method. -/
structure MethodEntry.Agrees (e : MethodEntry) (d : Descriptor) (position : Nat) : Prop where
  slot_eq : e.slot = position
  slotOf_eq : d.slotOf e.name = .ok position
  methodOffset_eq : d.methodOffset e.name = .ok e.vtableOffset
  /-- The offset lies within the virtual table, and is a machine word. -/
  offset_lt : e.vtableOffset < d.report.vtableSize ∧ e.vtableOffset < addressSpace
  methodSlot_eq : ∃ slot, d.methodSlot e.name = .ok slot ∧
    e.implementation = slot.implementation ∧
    e.signature = slot.signature.map MethodSignature.text ∧
    e.introducedBy = slot.introducedBy.text

/-- A report bears the identity, the parent, the numbers, the attributes and the methods of a
descriptor. -/
structure LayoutReport.Describes (r : LayoutReport) (d : Descriptor) : Prop where
  id_eq : r.id = d.id.text
  name_eq : r.name = d.name
  kind_eq : r.kind = d.kind
  parent_eq : r.parent = d.parent?.map fun p => p.id.text
  offsets_eq : r.vtabOffset = d.vtabOffset ∧ r.attrOffset = d.attrOffset
  size_eq : r.size = d.size
  alignment_eq : r.alignment = d.alignment.value
  vtableSize_eq : r.vtableSize = d.vtableSize
  attributes_eq : r.attributes.map (fun e => (e.name, e.type, e.offset, e.size)) =
    d.symbols.toList.map fun (name, v) => (name, v.type.text, v.offset.value, v.size)
  methods_eq : r.methods.map (fun e => (e.name, e.slot, e.implementation)) =
    d.dispatch.toList.map fun (name, slot) => (name, slot.index, slot.implementation)

/-- The numbers of a line are machine words. -/
def AttributeEntry.HasWords (e : AttributeEntry) : Prop :=
  e.offset < addressSpace ∧ e.size < addressSpace

/-- The numbers of a line are machine words. -/
def MethodEntry.HasWords (e : MethodEntry) : Prop :=
  e.slot < addressSpace ∧ e.vtableOffset < addressSpace

/-- The numbers of a line can be checked. -/
instance (e : AttributeEntry) : Decidable e.HasWords :=
  inferInstanceAs (Decidable (e.offset < addressSpace ∧ e.size < addressSpace))

/-- The numbers of a line can be checked. -/
instance (e : MethodEntry) : Decidable e.HasWords :=
  inferInstanceAs (Decidable (e.slot < addressSpace ∧ e.vtableOffset < addressSpace))

/-- The numbers of a report are machine words. -/
structure LayoutReport.HasWords (r : LayoutReport) : Prop where
  vtabOffset : r.vtabOffset < addressSpace
  attrOffset : r.attrOffset < addressSpace
  size : r.size < addressSpace
  alignment : r.alignment < addressSpace
  vtableSize : r.vtableSize < addressSpace
  attributes : ∀ e ∈ r.attributes, e.HasWords
  methods : ∀ e ∈ r.methods, e.HasWords

/-- The numbers of a report can be checked. -/
instance (r : LayoutReport) : Decidable r.HasWords :=
  decidable_of_iff ((r.vtabOffset < addressSpace ∧ r.attrOffset < addressSpace ∧
      r.size < addressSpace ∧ r.alignment < addressSpace ∧ r.vtableSize < addressSpace) ∧
      (∀ e ∈ r.attributes, e.HasWords) ∧ ∀ e ∈ r.methods, e.HasWords)
    ⟨fun ⟨⟨hvtab, hattr, hsize, halignment, hvtable⟩, hattributes, hmethods⟩ =>
      ⟨hvtab, hattr, hsize, halignment, hvtable, hattributes, hmethods⟩,
    fun h => ⟨⟨h.vtabOffset, h.attrOffset, h.size, h.alignment, h.vtableSize⟩, h.attributes,
      h.methods⟩⟩

/-- The header of the root of a chain fits into the address space. -/
def RootFits (origins : List Origin) : Prop :=
  ∀ o ∈ origins.getLast?, o.setup.config.HeaderFits

/-- A class has the root of its parent. -/
theorem RootFits.of_cons {o : Origin} {origins : List Origin} (h : RootFits (o :: origins))
    (hne : origins ≠ []) : RootFits origins := by
  obtain ⟨o', rest, rfl⟩ := List.exists_cons_of_ne_nil hne
  unfold RootFits at h
  rw [List.getLast?_cons_cons] at h
  exact h

/-- The report about a class lists its attributes and methods as the class has them. -/
structure ReportsLayout (d : Descriptor) (origins : List Origin) : Prop where
  /-- The attributes are listed in layout order, each of them once. -/
  attribute_names : d.report.attributes.map AttributeEntry.name = d.attributes.names
  nodup_attributes : d.attributes.names.Nodup
  attributes : ∀ e ∈ d.report.attributes, e.Agrees d origins
  /-- The methods are listed in slot order, each of them once. -/
  method_names : d.report.methods.map MethodEntry.name = d.dispatch.names
  nodup_methods : d.dispatch.names.Nodup
  methods : ∀ position (e : MethodEntry), d.report.methods[position]? = some e → e.Agrees d position
  /-- Every number is a machine word, if the header of the root is one. -/
  hasWords : RootFits origins → d.report.HasWords
  /-- Both tables had been attached when the class was finished. -/
  tables : ∃ draft : Draft, draft.freeze = .ok d ∧
    draft.attributes.content = some d.attributes ∧ draft.dispatch.content = some d.dispatch

namespace Attachment

variable {α : Type} {a : Attachment α} {value : α} {owner : ClassId} {operation : String}

/-- A table that is got is attached. -/
theorem content_of_get (h : a.get owner operation = .ok value) : a.content = some value := by
  unfold get at h
  split at h
  · next hcontent =>
    cases h
    exact hcontent
  · cases h

end Attachment

/-- A class is finished only when both tables are attached. -/
theorem Draft.content_of_freeze {draft : Draft} {d : Descriptor} (h : draft.freeze = .ok d) :
    draft.attributes.content = some d.attributes ∧ draft.dispatch.content = some d.dispatch := by
  obtain ⟨attributes, hattributes, h⟩ := LayoutM.exists_eq_ok_of_bind h
  obtain ⟨dispatch, hdispatch, h⟩ := LayoutM.exists_eq_ok_of_bind h
  cases h
  exact ⟨Attachment.content_of_get hattributes, Attachment.content_of_get hdispatch⟩

/-- A class that is laid out is a draft that has been frozen. -/
theorem Knowledge.exists_freeze_of_layOut {known : Knowledge} {config : LayoutConfig}
    {definition : ClassDefinition} {parent : Option Descriptor} {d : Descriptor}
    (h : known.layOut config definition parent = .ok d) :
    ∃ draft : Draft, draft.freeze = .ok d := by
  obtain ⟨own, -, h⟩ := LayoutM.exists_eq_ok_of_bind h
  obtain ⟨table, -, h⟩ := LayoutM.exists_eq_ok_of_bind h
  obtain ⟨draft, -, h⟩ := LayoutM.exists_eq_ok_of_bind h
  obtain ⟨dispatch, -, h⟩ := LayoutM.exists_eq_ok_of_bind h
  exact ⟨_, h⟩

/-- The size of an instance is rounded to a machine word, or it is where the attributes begin. -/
theorem Outline.Describes.size_lt {out : Outline} {known : Knowledge} {config : LayoutConfig}
    {definition : ClassDefinition} {parent : Option Descriptor} {d : Descriptor}
    (h : out.Describes known config definition parent d)
    (hparent : ∀ p, parent = some p → p.size < addressSpace) : d.size < addressSpace := by
  have hsize := h.size_eq
  rw [h.descriptor_eq]
  show out.size < addressSpace
  unfold Draft.instanceSize at hsize
  split at hsize
  · next rounded _ halign =>
    obtain ⟨last, hlast, hmask⟩ := Option.map_eq_some_iff.1 halign
    obtain ⟨hlt, heq⟩ := Word.fit?_eq_some_iff.1 hlast
    rw [heq] at hlt
    rw [← Except.ok.inj hsize, ← hmask]
    exact Nat.lt_of_le_of_lt Nat.and_le_left hlt
  · cases hsize
  · rw [← Except.ok.inj hsize]
    cases parent with
    | none => exact Word.wrap_lt _
    | some p => exact hparent p rfl

namespace Registry

variable {scope : Scope} {d : Descriptor} {origins : List Origin}

/-- The line about an attribute says what the class answers. -/
theorem Lineage.agrees_attribute (h : Lineage scope (some d) origins) {e : AttributeEntry}
    (he : e ∈ d.report.attributes) : e.Agrees d origins := by
  have hsound := h.sound
  obtain ⟨⟨name, v⟩, hmem, rfl⟩ := List.mem_map.1 he
  have hsymbol : d.symbols.get? name = some v :=
    OrderedMap.get?_eq_some_of_mem hsound.nodup_symbols hmem
  have hvariable : d.variableNamed name = .ok v := by
    unfold ClassLayout.variableNamed
    rw [hsymbol]
  have htype : (name, v.type) ∈ d.attributes.toList := by
    rw [← hsound.symbols_eq]
    exact List.mem_map.2 ⟨(name, v), hmem, rfl⟩
  constructor
  · unfold ClassLayout.offsetOf
    show (d.variableNamed name).map _ = _
    rw [hvariable]
    rfl
  · exact ⟨v, hvariable, rfl, rfl, OrderedMap.get?_eq_some_of_mem hsound.nodup htype⟩
  · exact ⟨_, h.namesDeclarers.placed (name, v) hmem, rfl⟩

/-- The attributes of an instance lie within its size, which is a machine word. -/
structure Extent (d : Descriptor) : Prop where
  attrOffset_le : d.attrOffset ≤ d.size
  stop_le : ∀ entry ∈ d.symbols.toList, entry.2.stop ≤ d.size
  size_lt : d.size < addressSpace

/-- Whatever the header is, the attributes of an instance lie within its size. -/
theorem Lineage.extent (h : Lineage scope (some d) origins) : Extent d := by
  refine h.chain_induction (Q := fun d _ => Extent d) ?_ ?_
  · intro o d hlink _
    obtain ⟨own, stop, hplaced⟩ := hlink.exists_placement .nil
    obtain ⟨out, hout⟩ := hlink.exists_outline
    refine ⟨hplaced.attrOffset_le, ?_, hout.size_lt fun _ h => nomatch h⟩
    intro entry hentry
    rw [hplaced.symbols_eq] at hentry
    exact Nat.le_trans (hplaced.packed.stop_le entry hentry) hplaced.isRounded.le
  · intro o p d above hlink _ habove ih
    obtain ⟨own, stop, hplaced⟩ := hlink.exists_placement habove
    obtain ⟨out, hout⟩ := hlink.exists_outline
    have hparent : p.size ≤ d.size :=
      Nat.le_trans (Nat.le_of_eq hplaced.attrOffset_eq.symm) hplaced.attrOffset_le
    refine ⟨hplaced.attrOffset_le, ?_, hout.size_lt ?_⟩
    · intro entry hentry
      rw [hplaced.symbols_eq] at hentry
      rcases List.mem_append.1 hentry with hinherited | hown
      · obtain ⟨placed, hmem, rfl⟩ := List.mem_map.1 hinherited
        exact Nat.le_trans (ih.stop_le placed hmem) hparent
      · exact Nat.le_trans (hplaced.packed.stop_le entry hown) hplaced.isRounded.le
    · rintro q ⟨⟩
      exact ih.size_lt

/-- Below a root whose header fits, the pointer to the virtual table lies within an instance. -/
theorem Lineage.vtabOffset_lt (h : Lineage scope (some d) origins) :
    RootFits origins → d.vtabOffset < d.size := by
  refine h.chain_induction (Q := fun d origins => RootFits origins → d.vtabOffset < d.size) ?_ ?_
  · intro o d hlink _ hroot
    obtain ⟨own, stop, hplaced⟩ := hlink.exists_placement .nil
    have hheader : d.attrOffset =
        o.setup.config.objectHeaderSize + o.setup.config.pointerSize :=
      hplaced.attrOffset_eq.trans (LayoutConfig.HeaderFits.headerSize_eq (hroot o rfl))
    have hpointer := LayoutConfig.pointerSize_pos hlink.reachable.allows.valid
    have hsize := hplaced.attrOffset_le
    rw [hplaced.vtabOffset_eq]
    show o.setup.config.objectHeaderSize < d.size
    omega
  · intro o p d above hlink _ habove ih hroot
    obtain ⟨own, stop, hplaced⟩ := hlink.exists_placement habove
    have hattr : d.attrOffset = p.size := hplaced.attrOffset_eq
    have hsize := hplaced.attrOffset_le
    have hinside := ih (hroot.of_cons (by rintro rfl; cases habove))
    rw [hplaced.vtabOffset_eq]
    show p.vtabOffset < d.size
    omega

/-- The slots of a virtual table take space. -/
theorem Lineage.pointerSize_pos (h : Lineage scope (some d) origins) : 0 < d.pointerSize := by
  cases origins with
  | nil => cases h
  | cons o above =>
    rw [h.config_eq.1]
    exact LayoutConfig.pointerSize_pos h.link.1.reachable.allows.valid

/-- The line about a method says what the class answers, if the virtual table fits. -/
theorem Lineage.agrees_method (h : Lineage scope (some d) origins) (hfits : d.VtableFits)
    {position : Nat} {e : MethodEntry} (he : d.report.methods[position]? = some e) :
    e.Agrees d position := by
  have hentry : (d.dispatch.atSlot? position).map (fun entry => d.methodEntry entry.1 entry.2) =
      some e := by
    rw [← he]
    exact List.getElem?_map.symm
  obtain ⟨⟨name, slot⟩, hat, rfl⟩ := Option.map_eq_some_iff.1 hentry
  obtain ⟨hget, hindex⟩ := h.resolves.of_atSlot? hat
  have hslotOf : d.slotOf name = .ok position := slotOf_eq_ok_iff.2 ⟨slot, hget, hindex⟩
  have hoffset : d.methodOffset name = .ok (d.slotOffset position) := by
    unfold ClassLayout.methodOffset
    rw [hslotOf]
    rfl
  have hreported : (d.methodEntry name slot).vtableOffset = d.slotOffset position := by
    unfold ClassLayout.methodEntry
    rw [hoffset]
    rfl
  -- The table ends behind its last slot, and every slot takes space.
  have hinside : d.slotOffset position < d.vtableSize := by
    have hposition : position < d.slotCount := by
      rw [h.slotCount_eq]
      exact (List.getElem?_eq_some_iff.1 hat).1
    have hlt : d.vtableHeaderSize + position * d.pointerSize <
        d.vtableHeaderSize + d.slotCount * d.pointerSize :=
      Nat.add_lt_add_left (Nat.mul_lt_mul_of_pos_right hposition h.pointerSize_pos) _
    unfold ClassLayout.slotOffset
    rw [hfits.vtableSize_eq, Word.wrap_of_lt (Nat.lt_trans hlt hfits)]
    exact hlt
  constructor
  · exact hindex
  · exact hslotOf
  · rw [hreported]
    exact hoffset
  · rw [hreported]
    exact ⟨hinside, Word.wrap_lt _⟩
  · refine ⟨slot, ?_, rfl, rfl, rfl⟩
    show d.methodSlot name = .ok slot
    unfold ClassLayout.methodSlot
    rw [hget]

/-- The numbers of a report are machine words, if the header and the virtual table fit. -/
theorem Lineage.report_hasWords (h : Lineage scope (some d) origins) (hroot : RootFits origins)
    (hfits : d.VtableFits) : d.report.HasWords where
  vtabOffset := Nat.lt_trans (h.vtabOffset_lt hroot) h.extent.size_lt
  attrOffset := Nat.lt_of_le_of_lt h.extent.attrOffset_le h.extent.size_lt
  size := h.extent.size_lt
  alignment := by
    have hpos := Nat.lt_of_le_of_lt (Nat.zero_le _) (h.vtabOffset_lt hroot)
    exact Nat.lt_of_le_of_lt (Nat.le_of_dvd hpos h.sound.dvd) h.extent.size_lt
  vtableSize := Word.wrap_lt _
  attributes := by
    intro e he
    obtain ⟨⟨name, v⟩, hmem, rfl⟩ := List.mem_map.1 he
    have hstop : v.offset.value + v.size ≤ d.size := h.extent.stop_le (name, v) hmem
    have hsize := h.extent.size_lt
    exact ⟨show v.offset.value < addressSpace by omega, show v.size < addressSpace by omega⟩
  methods := by
    intro e he
    obtain ⟨position, hposition, hentry⟩ := List.mem_iff_getElem.1 he
    have hagrees := h.agrees_method hfits
      ((List.getElem?_eq_getElem hposition).trans (congrArg some hentry))
    have hcount : d.report.methods.length = d.slotCount := by
      rw [h.slotCount_eq]
      exact List.length_map _
    have hslots : d.slotCount ≤ d.vtableHeaderSize + d.slotCount * d.pointerSize :=
      Nat.le_trans (Nat.le_mul_of_pos_right _ h.pointerSize_pos) (Nat.le_add_left _ _)
    have hlast : d.vtableHeaderSize + d.slotCount * d.pointerSize < addressSpace := hfits
    refine ⟨?_, hagrees.offset_lt.2⟩
    rw [hagrees.slot_eq]
    omega

/-- The report about a class agrees with the class. -/
theorem Lineage.reportsLayout (h : Lineage scope (some d) origins) (hfits : d.VtableFits) :
    ReportsLayout d origins where
  attribute_names := by
    have hnames : d.report.attributes.map AttributeEntry.name = d.symbols.keys := by
      show (d.symbols.toList.map _).map AttributeEntry.name = _
      rw [List.map_map]
      rfl
    rw [hnames]
    exact h.sound.keys_eq
  nodup_attributes := h.sound.nodup
  attributes := fun _ => h.agrees_attribute
  method_names := by
    show (d.dispatch.toList.map _).map MethodEntry.name = _
    rw [List.map_map]
    rfl
  nodup_methods := h.resolves.nodup
  methods := fun _ _ => h.agrees_method hfits
  hasWords := fun hroot => h.report_hasWords hroot hfits
  tables := by
    cases origins with
    | nil => cases h
    | cons o above =>
      obtain ⟨draft, hdraft⟩ := Knowledge.exists_freeze_of_layOut h.link.1.layOut_eq
      exact ⟨draft, hdraft, Draft.content_of_freeze hdraft⟩

end Registry

/-! ## Written reports -/

/-- A machine word is read back from its number. -/
theorem Json.word?_ofNat {n : Nat} (h : n < addressSpace) : Json.word? (.ofNat n) = some n :=
  Word.fit?_eq_some_iff.2 ⟨h, rfl⟩

namespace AttributeEntry

variable {e : AttributeEntry}

/-- A line whose numbers are machine words is read back from its object. -/
theorem HasWords.ofJson?_toJson (h : e.HasWords) : ofJson? e.toJson = some e := by
  have hfields : e.toJson.record? fieldNames 5 =
      some [some (.ofText e.name), some (.ofText e.type), some (.ofNat e.offset),
        some (.ofNat e.size), some (.ofText e.declaredIn)] := rfl
  unfold ofJson?
  rw [hfields]
  simp [Json.required, Json.ofText, Json.text?, Json.word?_ofNat h.1, Json.word?_ofNat h.2]

/-- The strings of a line stand for texts. -/
theorem hasTexts_toJson (e : AttributeEntry) : e.toJson.HasTexts := by
  refine .obj fun member hmem => ?_
  simp only [List.mem_cons, List.not_mem_nil, or_false] at hmem
  rcases hmem with rfl | rfl | rfl | rfl | rfl
  · exact .str _
  · exact .str _
  · exact .num _
  · exact .num _
  · exact .str _

end AttributeEntry

namespace MethodEntry

variable {e : MethodEntry}

/-- The fields of a line as they are written. Without a signature there is no member for it. -/
theorem record?_toJson (e : MethodEntry) : e.toJson.record? fieldNames 6 =
    some [some (.ofText e.name), some (.ofNat e.slot), some (.ofNat e.vtableOffset),
      some (.ofText e.implementation), e.signature.map Json.ofText,
      some (.ofText e.introducedBy)] := by
  rcases e with ⟨name, slot, vtableOffset, implementation, _ | signature, introducedBy⟩ <;> rfl

/-- A line whose numbers are machine words is read back from its object. -/
theorem HasWords.ofJson?_toJson (h : e.HasWords) : ofJson? e.toJson = some e := by
  have hsignature : Json.optional Json.text? (e.signature.map Json.ofText) = some e.signature := by
    cases e.signature <;> rfl
  unfold ofJson?
  rw [record?_toJson]
  simp [Json.required, Json.ofText, Json.text?, Json.word?_ofNat h.1, Json.word?_ofNat h.2,
    hsignature]

/-- The strings of a line stand for texts. -/
theorem hasTexts_toJson (e : MethodEntry) : e.toJson.HasTexts := by
  refine .obj fun member hmem => ?_
  rcases List.mem_append.1 hmem with hmem | hmem
  · rcases List.mem_append.1 hmem with hmem | hmem
    · simp only [List.mem_cons, List.not_mem_nil, or_false] at hmem
      rcases hmem with rfl | rfl | rfl | rfl
      · exact .str _
      · exact .num _
      · exact .num _
      · exact .str _
    · obtain ⟨text, -, rfl⟩ := List.mem_map.1 hmem
      exact .str text
  · rw [List.mem_singleton.1 hmem]
    exact .str _

end MethodEntry

namespace LayoutReport

variable {r : LayoutReport}

/-- The fields of a report as they are written. Without a parent, `null` is written for it. -/
theorem record?_toJson (r : LayoutReport) : r.toJson.record? fieldNames 11 =
    some [some (.ofText r.id), some (.ofText r.name), some r.kind.toJson,
      some (.ofOption .ofText r.parent), some (.ofNat r.vtabOffset), some (.ofNat r.attrOffset),
      some (.ofNat r.size), some (.ofNat r.alignment), some (.ofNat r.vtableSize),
      some (.ofList AttributeEntry.toJson r.attributes),
      some (.ofList MethodEntry.toJson r.methods)] := rfl

/-- A report whose numbers are machine words is read back from its object. -/
theorem HasWords.ofJson?_toJson (h : r.HasWords) : ofJson? r.toJson = some r := by
  have hparent : Json.optional Json.text? (some (.ofOption .ofText r.parent)) = some r.parent := by
    cases r.parent <;> rfl
  have hattributes : Json.list? AttributeEntry.ofJson?
      (.ofList AttributeEntry.toJson r.attributes) = some r.attributes :=
    Json.list?_ofList fun e he => (h.attributes e he).ofJson?_toJson
  have hmethods : Json.list? MethodEntry.ofJson? (.ofList MethodEntry.toJson r.methods) =
      some r.methods :=
    Json.list?_ofList fun e he => (h.methods e he).ofJson?_toJson
  unfold ofJson?
  rw [record?_toJson]
  simp [Json.required, Json.ofText, Json.text?, ExtensionKind.ofJson?_toJson, hparent, hattributes,
    hmethods, Json.word?_ofNat h.vtabOffset, Json.word?_ofNat h.attrOffset, Json.word?_ofNat h.size,
    Json.word?_ofNat h.alignment, Json.word?_ofNat h.vtableSize]

/-- The strings of a report stand for texts. -/
theorem hasTexts_toJson (r : LayoutReport) : r.toJson.HasTexts := by
  refine .obj fun member hmem => ?_
  simp only [List.mem_cons, List.not_mem_nil, or_false] at hmem
  rcases hmem with rfl | rfl | rfl | rfl | rfl | rfl | rfl | rfl | rfl | rfl | rfl
  · exact .str _
  · exact .str _
  · exact .str _
  · cases r.parent with
    | none => exact .null
    | some parent => exact .str parent
  · exact .num _
  · exact .num _
  · exact .num _
  · exact .num _
  · exact .num _
  · exact .ofList AttributeEntry.hasTexts_toJson _
  · exact .ofList MethodEntry.hasTexts_toJson _

/-- The report that a text writes. -/
def ofText? (text : String) : Option LayoutReport := (Json.parse? text).bind ofJson?

/-- A report is read back from its written form, as a value and as either text of it. What is absent
is written as `null` or left out. -/
structure ReadsBack (r : LayoutReport) : Prop where
  value : ofJson? r.toJson = some r
  compact : ofText? r.toJson.compact = some r
  pretty : ofText? r.toJson.pretty = some r
  parent_eq_none_iff : r.parent = none ↔ (some "parent", Json.null) ∈ r.toJson.members?.getD []
  signature_eq_none_iff : ∀ e ∈ r.methods,
    e.signature = none ↔ ∀ value, (some "signature", value) ∉ e.toJson.members?.getD []

/-- Without a parent, `null` is written for it, and only then. -/
theorem parent_eq_none_iff (r : LayoutReport) :
    r.parent = none ↔ (some "parent", Json.null) ∈ r.toJson.members?.getD [] := by
  cases hparent : r.parent <;>
    simp [toJson, Json.ofMembers, Json.members?, Json.ofOption, Json.ofText, hparent]

/-- Without a signature, no member is written for it, and only then. -/
theorem signature_eq_none_iff (e : MethodEntry) :
    e.signature = none ↔ ∀ value, (some "signature", value) ∉ e.toJson.members?.getD [] := by
  cases hsignature : e.signature <;>
    simp [MethodEntry.toJson, Json.ofMembers, Json.members?, hsignature]

/-- A report whose numbers are machine words is read back from every form. -/
theorem HasWords.readsBack (h : r.HasWords) : r.ReadsBack where
  value := h.ofJson?_toJson
  compact := by
    rw [ofText?, Json.parse?_compact r.hasTexts_toJson]
    exact h.ofJson?_toJson
  pretty := by
    rw [ofText?, Json.parse?_pretty r.hasTexts_toJson]
    exact h.ofJson?_toJson
  parent_eq_none_iff := parent_eq_none_iff r
  signature_eq_none_iff := fun e _ => signature_eq_none_iff e

/-- The report about a class says what the class answers, and every report survives being written.
-/
theorem agrees_and_readsBack :
    (∀ scope d origins, Registry.Lineage scope (some d) origins → d.VtableFits →
      ReportsLayout d origins) ∧
    ∀ r : LayoutReport, r.HasWords → r.ReadsBack :=
  ⟨fun _ _ _ h hfits => h.reportsLayout hfits, fun _ h => h.readsBack⟩

/-- The report about a class that overrides a method with a signature and has one without. -/
theorem agrees_and_readsBack_of_circle :
    ∃ d origins, Registry.Lineage .every (some d) origins ∧
      d.report.attributes.map (fun e => (e.name, e.declaredIn)) =
        [("x", "Shape"), ("radius", "Circle")] ∧
      d.report.methods.map (fun e => (e.name, e.slot, e.vtableOffset, e.signature.isSome)) =
        [("area", 0, 16, true), ("name", 1, 24, false)] ∧
      ReportsLayout d origins ∧ d.report.ReadsBack := by
  let shape : ClassDefinition :=
    { id := ⟨"Shape"⟩
      attributes := [("x", .primitive .int32)]
      methods := [{ name := "area",
                    signature := some { params := [], returns := .primitive .float64 } }] }
  let circle : ClassDefinition :=
    { id := ⟨"Circle"⟩
      attributes := [("radius", .primitive .float64)]
      methods := [{ name := "name" }, { name := "area" }] }
  let setup : RegistrySetup := { config := { vtableHeaderSize := 16 } }
  have hallows : Scope.every.Allows setup := Registry.allows_of_valid trivial rfl
  have hbuilt : (((Registry.build setup shape none).exec ∅).1 >>= fun p =>
      ((Registry.build setup circle (some p)).exec ∅).1.map fun d =>
        decide ((p.parent? = none ∧ d.parent? = some p) ∧
          (d.VtableFits ∧ d.report.HasWords) ∧
          d.report.attributes.map (fun e => (e.name, e.declaredIn)) =
            [("x", "Shape"), ("radius", "Circle")] ∧
          d.report.methods.map (fun e => (e.name, e.slot, e.vtableOffset, e.signature.isSome)) =
            [("area", 0, 16, true), ("name", 1, 24, false)])) = .ok true := by
    decide +kernel
  obtain ⟨p, hp, hbuilt⟩ := LayoutM.exists_eq_ok_of_bind hbuilt
  obtain ⟨d, hd, hfacts⟩ := LayoutM.exists_eq_ok_of_map hbuilt
  obtain ⟨⟨hroot, hparent⟩, ⟨hvtable, hwords⟩, hattributes, hmethods⟩ := of_decide_eq_true hfacts
  have hshape := Registry.Lineage.of_fresh hallows shape trivial .nil hp hroot
  have hcircle := Registry.Lineage.of_fresh hallows circle trivial hshape hd hparent
  exact ⟨d, _, hcircle, hattributes, hmethods, agrees_and_readsBack.1 _ d _ hcircle hvtable,
    agrees_and_readsBack.2 d.report hwords⟩

end LayoutReport

end ObjectLayout
