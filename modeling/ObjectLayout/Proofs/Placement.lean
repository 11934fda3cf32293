import ObjectLayout.Proofs.AttributeTables
import ObjectLayout.Proofs.FieldSpace
import ObjectLayout.Proofs.Lineage

/-!
# Placing the fields of a class

The attributes that a parent places stay where they are, and those that a class introduces are
`Packed` behind them: each one begins at the first aligned offset after the one before.
`FieldPlacement` says this of a whole class, with its alignment and its size, and `exists_placement`
reads it off a layout. What makes the arithmetic go through is that parents and embedded classes are
`Sound`, and this is kept from class to class (`hereditary_sound`).
-/

set_option autoImplicit false

namespace ObjectLayout

open LayoutM (exists_eq_ok_of_bind bind_eq_ok)

/-- The space that a type takes. -/
abbrev SpaceOf := AttributeType → Except LayoutError FieldLayout

/-! ## Fields one after another -/

/-- Fields that are placed from an offset on: each one at the least multiple of its alignment that
is not below the end of the field before. -/
inductive Packed (space : SpaceOf) : Nat → List (String × Variable) → Nat → Prop where
  | nil (start : Nat) : Packed space start [] start
  | cons {start stop : Nat} {name : String} {v : Variable} {field : FieldLayout}
      {rest : List (String × Variable)} (hown : v.storage = .own)
      (hspace : space v.type = .ok field) (hsize : v.size = field.size)
      (hoffset : field.alignment.IsRounded start v.offset.value)
      (hrest : Packed space (v.offset.value + v.size) rest stop) :
      Packed space start ((name, v) :: rest) stop

/-- The alignments of fields, and that of what is in front of them. -/
def alignments (space : SpaceOf) (base : Nat) (fields : List (String × Variable)) : Set Nat :=
  {a | a = base ∨ ∃ entry ∈ fields, ∃ field, space entry.2.type = .ok field ∧
    a = field.alignment.value}

section Packed

variable {space : SpaceOf} {start stop : Nat} {fields : List (String × Variable)}

/-- Fields that are packed end behind where they begin. -/
theorem Packed.le (h : Packed space start fields stop) : start ≤ stop := by
  induction h with
  | nil => exact Nat.le_refl _
  | cons _ _ _ hoffset _ ih =>
    have hle := hoffset.le
    omega

/-- Where no field is packed, none takes space. -/
theorem Packed.eq_of_nil (h : Packed space start [] stop) : stop = start := by
  cases h
  rfl

/-- Fields that are packed are the own ones of their class. -/
theorem Packed.storage (h : Packed space start fields stop) :
    ∀ entry ∈ fields, entry.2.storage = .own := by
  induction h with
  | nil => exact fun _ h => nomatch h
  | cons hown _ _ _ _ ih =>
    intro entry hmem
    rcases List.mem_cons.1 hmem with rfl | hmem
    · exact hown
    · exact ih entry hmem

/-- Fields that are packed are declared in their class. -/
theorem Packed.declaredIn_eq (h : Packed space start fields stop) {owner : ClassId} :
    ∀ entry ∈ fields, entry.2.declaredIn owner = owner := by
  intro entry hmem
  unfold Variable.declaredIn
  rw [h.storage entry hmem]

/-- Fields lie between where the first one may begin and where the last one ends. -/
theorem Packed.within (h : Packed space start fields stop) : ∀ entry ∈ fields,
    start ≤ entry.2.offset.value ∧ entry.2.offset.value + entry.2.size ≤ stop := by
  induction h with
  | nil => exact fun _ h => nomatch h
  | cons _ _ _ hoffset hrest ih =>
    intro entry hmem
    have hle := hoffset.le
    rcases List.mem_cons.1 hmem with rfl | hmem
    · exact ⟨hle, hrest.le⟩
    · have hlater := ih entry hmem
      exact ⟨by omega, hlater.2⟩

/-- Empty fields that stand where the first one may begin end there. -/
theorem Packed.stop_eq (h : Packed space start fields stop)
    (hempty : ∀ entry ∈ fields, entry.2.size = 0 ∧ entry.2.offset.value = start) :
    stop = start := by
  induction h with
  | nil => rfl
  | @cons start stop name v field rest _ _ _ _ _ ih =>
    obtain ⟨hsize, hoffset⟩ := hempty _ List.mem_cons_self
    have hnext : v.offset.value + v.size = start := by
      dsimp only at hsize hoffset
      omega
    rw [← hnext]
    refine ih fun entry hmem => ?_
    rw [hnext]
    exact hempty entry (List.mem_cons_of_mem _ hmem)

/-- A field that is packed has the size of its type and is aligned for it. -/
theorem Packed.exists_field (h : Packed space start fields stop) :
    ∀ entry ∈ fields, ∃ field, space entry.2.type = .ok field ∧ entry.2.size = field.size ∧
      field.alignment.value ∣ entry.2.offset.value := by
  induction h with
  | nil => exact fun _ h => nomatch h
  | cons _ hspace hsize hoffset _ ih =>
    intro entry hmem
    rcases List.mem_cons.1 hmem with rfl | hmem
    · exact ⟨_, hspace, hsize, hoffset.dvd⟩
    · exact ih entry hmem

/-- Without fields the base is the largest alignment. -/
theorem isGreatest_alignments_nil (space : SpaceOf) (base : Nat) :
    IsGreatest (alignments space base []) base := by
  refine ⟨.inl rfl, ?_⟩
  rintro a (rfl | ⟨entry, hentry, -⟩)
  · exact Nat.le_refl _
  · cases hentry

/-- Without fields no alignment is larger than the base. -/
theorem eq_of_isGreatest_alignments_nil {base top : Nat}
    (h : IsGreatest (alignments space base []) top) : top = base := by
  rcases h.1 with hbase | ⟨entry, hentry, -⟩
  · exact hbase
  · cases hentry

/-- The largest of alignments that are powers of two is one. -/
theorem isPower_of_isGreatest_alignments {base top : Alignment} (hbase : base.IsPower)
    (hspace : ∀ {type field}, space type = .ok field → field.alignment.IsPower)
    (h : IsGreatest (alignments space base.value fields) top.value) : top.IsPower := by
  rcases h.1 with htop | ⟨entry, -, field, hfield, htop⟩
  · exact hbase.of_value_eq htop
  · exact (hspace hfield).of_value_eq htop

/-- A field more may raise the largest alignment. -/
theorem isGreatest_alignments_cons {base top : Alignment} {name : String} {v : Variable}
    {field : FieldLayout} (hspace : space v.type = .ok field)
    (h : IsGreatest (alignments space (base.max field.alignment).value fields) top.value) :
    IsGreatest (alignments space base.value ((name, v) :: fields)) top.value := by
  rw [Alignment.value_max] at h
  obtain ⟨hmem, hbound⟩ := h
  have hbase : Nat.max base.value field.alignment.value ≤ top.value := hbound (.inl rfl)
  constructor
  · rcases hmem with htop | ⟨entry, hentry, f, hf, htop⟩
    · rcases Nat.le_total base.value field.alignment.value with hle | hle
      · refine .inr ⟨(name, v), List.mem_cons_self, field, hspace, ?_⟩
        rw [htop]
        exact Nat.max_eq_right hle
      · refine .inl ?_
        rw [htop]
        exact Nat.max_eq_left hle
    · exact .inr ⟨entry, List.mem_cons_of_mem _ hentry, f, hf, htop⟩
  · rintro a (rfl | ⟨entry, hentry, f, hf, rfl⟩)
    · exact Nat.le_trans (Nat.le_max_left _ _) hbase
    · rcases List.mem_cons.1 hentry with rfl | hentry
      · rw [hspace] at hf
        cases hf
        exact Nat.le_trans (Nat.le_max_right _ _) hbase
      · exact hbound (.inr ⟨entry, hentry, f, hf, rfl⟩)

end Packed

/-! ## Segments -/

section Segments

variable {draft : Draft} {known : Knowledge} {pointerSize : Nat} {user : ClassId}

/-- What is laid out after a field has been introduced, wherever it ends. -/
def Segment.introduce (segment : Segment) (name : String) (type : AttributeType)
    (field : FieldLayout) : Segment where
  symbols := segment.symbols.insert name
    { type, storage := .own, offset := ⟨field.alignment.roundUp segment.cursor.value⟩
      size := field.size }
  cursor := ⟨field.alignment.roundUp segment.cursor.value + field.size⟩
  alignment := segment.alignment.max field.alignment
  lastOwn := some (name, type)

/-- What is laid out after fields have been introduced, one after another. -/
def Segment.introduceAll (space : SpaceOf) (segment : Segment) :
    List (String × AttributeType) → Except LayoutError Segment
  | [] => .ok segment
  | (name, type) :: rest => do
    let field ← space type
    (segment.introduce name type field).introduceAll space rest

/-- A symbol that is put in place is none of those that are to follow. -/
theorem fresh_insert {α : Type} {symbols : SymbolTable} {name : String} {v : Variable}
    {rest : List (String × α)} (hfresh : ∀ entry ∈ rest, symbols.get? entry.1 = none)
    (hname : name ∉ rest.map Prod.fst) :
    ∀ entry ∈ rest, (symbols.insert name v).get? entry.1 = none := by
  intro entry hmem
  rw [OrderedMap.get?_insert_of_ne]
  · exact hfresh entry hmem
  · intro heq
    exact hname (List.mem_map.2 ⟨entry, hmem, heq⟩)

/-- Fields are placed one part after the other. -/
theorem Draft.placeFields_append (draft : Draft) (view : TypeEnv Unit)
    (first second : List (String × AttributeType)) (segment : Segment) :
    (draft.placeFields view (fun _ => pure ()) segment (first ++ second)).answer =
      (draft.placeFields view (fun _ => pure ()) segment first).answer >>= fun segment =>
        (draft.placeFields view (fun _ => pure ()) segment second).answer := by
  induction first generalizing segment with
  | nil => rfl
  | cons entry rest ih =>
    obtain ⟨name, type⟩ := entry
    simp only [List.cons_append, placeFields, LayoutM.answer_bind, ih, bind_assoc]

/-- Attributes that the parent places are taken over. -/
theorem Draft.placeFields_inherited {view : TypeEnv Unit} (owner : ClassId)
    {inherited : List (String × Variable)} {segment : Segment}
    (hinherited : ∀ entry ∈ inherited, draft.inherited? entry.1 = some (entry.2.inheritFrom owner))
    (hfresh : ∀ entry ∈ inherited, segment.symbols.get? entry.1 = none)
    (hnodup : (inherited.map Prod.fst).Nodup) :
    (draft.placeFields view (fun _ => pure ()) segment
      (inherited.map fun entry => (entry.1, entry.2.type))).answer =
      .ok { segment with symbols := ⟨segment.symbols.toList ++
        inherited.map fun entry => (entry.1, entry.2.inheritFrom owner)⟩ } := by
  induction inherited generalizing segment with
  | nil => simp [placeFields]
  | cons entry rest ih =>
    obtain ⟨name, v⟩ := entry
    rw [List.map_cons, List.nodup_cons] at hnodup
    have hplace := hinherited (name, v) List.mem_cons_self
    have hnone := hfresh (name, v) List.mem_cons_self
    have hrest : ∀ entry ∈ rest,
        (segment.symbols.insert name (v.inheritFrom owner)).get? entry.1 = none :=
      fresh_insert (fun entry hmem => hfresh entry (List.mem_cons_of_mem _ hmem)) hnodup.1
    rw [List.map_cons, placeFields, LayoutM.answer_bind, answer_placeField, hplace]
    have hnext := @ih { segment with symbols := segment.symbols.insert name (v.inheritFrom owner) }
      (fun entry hmem => hinherited entry (List.mem_cons_of_mem _ hmem)) hrest hnodup.2
    rw [OrderedMap.toList_insert_of_none hnone] at hnext
    apply hnext.trans
    simp

/-- A field that is introduced begins at the first aligned offset behind what is placed. -/
theorem Draft.introduce_ok {segment next : Segment} {name : String} {type : AttributeType}
    {field : FieldLayout} (hpower : field.alignment.IsPower)
    (h : draft.introduce segment name type field = .ok next) :
    next = segment.introduce name type field := by
  unfold introduce at h
  obtain ⟨offset, halign, h⟩ := exists_eq_ok_of_bind h
  obtain ⟨stop, hadvance, h⟩ := exists_eq_ok_of_bind h
  cases h
  cases hstart : segment.cursor.alignTo field.alignment with
  | none =>
    rw [hstart] at halign
    cases halign
  | some start =>
    rw [hstart] at halign
    cases halign
    cases hstop : offset.advance field.size with
    | none =>
      rw [hstop] at hadvance
      cases hadvance
    | some next =>
      rw [hstop] at hadvance
      cases hadvance
      obtain ⟨rounded, hrounded, rfl⟩ := Option.map_eq_some_iff.1 hstart
      obtain ⟨sum, hsum, rfl⟩ := Option.map_eq_some_iff.1 hstop
      obtain ⟨-, rfl⟩ := Word.fit?_eq_some_iff.1 hsum
      have hsame := (Alignment.align_isRounded hpower hrounded).unique
        (Alignment.roundUp_isRounded hpower _)
      subst hsame
      rfl

/-- The size with which a field is placed is that of its type. -/
theorem Draft.fieldSpace_of_sizeField {name : String} {type : AttributeType} {field : FieldLayout}
    (h : (draft.sizeField (known.env pointerSize user) name type).answer = .ok field) :
    known.fieldSpace pointerSize user type = .ok field := by
  unfold sizeField at h
  rw [LayoutM.answer_adapt] at h
  unfold Knowledge.fieldSpace
  cases hspace : (type.layout (known.env pointerSize user)).answer with
  | error error =>
    rw [hspace] at h
    cases h
  | ok space =>
    rw [hspace] at h
    exact h

/-- A segment became another one by fields that are packed behind it. -/
structure Segment.Packs (space : SpaceOf) (segment last : Segment)
    (own : List (String × Variable)) : Prop where
  symbols_eq : last.symbols.toList = segment.symbols.toList ++ own
  packed : Packed space segment.cursor.value own last.cursor.value
  isGreatest : IsGreatest (alignments space segment.alignment.value own) last.alignment.value
  /-- A segment without a last field has no field at all. -/
  lastOwn : last.lastOwn = none → own = [] ∧ segment.lastOwn = none

/-- A segment packs no fields into itself. -/
theorem Segment.Packs.nil (space : SpaceOf) (segment : Segment) :
    segment.Packs space segment [] where
  symbols_eq := (List.append_nil _).symm
  packed := .nil _
  isGreatest := isGreatest_alignments_nil space _
  lastOwn := fun hnone => ⟨rfl, hnone⟩

/-- A segment packs a field, and then those behind it. -/
theorem Segment.Packs.cons {space : SpaceOf} {segment last : Segment} {name : String}
    {type : AttributeType} {field : FieldLayout} {own : List (String × Variable)}
    (hspace : space type = .ok field) (hpower : field.alignment.IsPower)
    (hfresh : segment.symbols.get? name = none)
    (hrest : (segment.introduce name type field).Packs space last own) :
    segment.Packs space last
      ((name, {
        type
        storage := .own
        offset := ⟨field.alignment.roundUp segment.cursor.value⟩
        size := field.size }) :: own) where
  symbols_eq := by
    rw [hrest.symbols_eq]
    unfold introduce
    rw [OrderedMap.toList_insert_of_none hfresh, List.append_assoc]
    rfl
  packed := .cons rfl hspace rfl (Alignment.roundUp_isRounded hpower _) hrest.packed
  isGreatest := isGreatest_alignments_cons hspace hrest.isGreatest
  lastOwn := fun hnone => nomatch (hrest.lastOwn hnone).2

/-- What introduces new names into a segment packs them. -/
theorem Segment.exists_packs {space : SpaceOf} {entries : List (String × AttributeType)}
    {segment last : Segment}
    (hpower : ∀ {type field}, space type = .ok field → field.alignment.IsPower)
    (hfresh : ∀ entry ∈ entries, segment.symbols.get? entry.1 = none)
    (hnodup : (entries.map Prod.fst).Nodup) (h : segment.introduceAll space entries = .ok last) :
    ∃ own, own.map (fun entry => (entry.1, entry.2.type)) = entries ∧
      segment.Packs space last own := by
  induction entries generalizing segment with
  | nil =>
    cases h
    exact ⟨[], rfl, .nil _ _⟩
  | cons entry rest ih =>
    obtain ⟨name, type⟩ := entry
    rw [List.map_cons, List.nodup_cons] at hnodup
    obtain ⟨field, hfield, h⟩ := exists_eq_ok_of_bind h
    have hrest := fun entry hmem => hfresh entry (List.mem_cons_of_mem _ hmem)
    obtain ⟨own, hown, hpacks⟩ := ih (fresh_insert hrest hnodup.1) hnodup.2 h
    refine ⟨_, ?_, .cons hfield (hpower hfield) (hfresh (name, type) List.mem_cons_self) hpacks⟩
    rw [List.map_cons, hown]

/-- Attributes that the parent does not place are introduced. -/
theorem Draft.introduceAll_of_placeFields (hknown : known.IsAligned)
    {entries : List (String × AttributeType)} {segment last : Segment}
    (h : (draft.placeFields (known.env pointerSize user) (fun _ => pure ()) segment
      entries).answer = .ok last)
    (hnew : ∀ entry ∈ entries, draft.inherited? entry.1 = none) :
    segment.introduceAll (known.fieldSpace pointerSize user) entries = .ok last := by
  induction entries generalizing segment with
  | nil => exact h
  | cons entry rest ih =>
    obtain ⟨name, type⟩ := entry
    rw [placeFields, LayoutM.answer_bind, answer_placeField,
      hnew (name, type) List.mem_cons_self] at h
    obtain ⟨next, hfirst, h⟩ := exists_eq_ok_of_bind h
    obtain ⟨field, hfield, hnext⟩ := exists_eq_ok_of_bind hfirst
    have hspace := fieldSpace_of_sizeField hfield
    have hsame := introduce_ok (hknown.isPower hspace) hnext
    subst hsame
    exact bind_eq_ok hspace (ih h fun entry hmem => hnew entry (List.mem_cons_of_mem _ hmem))

end Segments

/-! ## Classes -/

/-- What the layout of a class relies on in a parent and in an embedded class. -/
structure Sound (d : Descriptor) : Prop where
  nodup : d.attributes.types.keys.Nodup
  /-- The attributes that are placed are those of the attribute table. -/
  symbols_eq : d.symbols.toList.map (fun entry => (entry.1, entry.2.type)) = d.attributes.toList
  isPower : d.alignment.IsPower
  dvd : d.alignment.value ∣ d.size

/-- The places of the attributes of a parent, as a class below it inherits them. -/
def inheritedSymbols (parent : Option Descriptor) : List (String × Variable) :=
  parent.elim [] fun p => p.symbols.toList.map fun entry => (entry.1, entry.2.inheritFrom p.id)

/-- What is laid out of a class before it introduces attributes. -/
def Segment.below (config : LayoutConfig) (parent : Option Descriptor) : Segment where
  symbols := ⟨inheritedSymbols parent⟩
  cursor := ⟨parent.elim config.headerSize fun p => p.size⟩
  alignment := parent.elim config.pointerAlignment fun p => p.alignment
  lastOwn := none

/-- The descriptor that is made of the parts of a layout. -/
def Outline.descriptor (o : Outline) (config : LayoutConfig) (definition : ClassDefinition)
    (parent : Option Descriptor) : Descriptor where
  id := definition.id
  kind := definition.kind
  attributes := o.table
  dispatch := o.dispatch
  symbols := o.segment.symbols
  vtabOffset := parent.elim config.vtabPointerOffset fun p => p.vtabOffset
  attrOffset := parent.elim config.headerSize fun p => p.size
  ownSlotsOffset := parent.elim config.vtableHeaderSize fun p =>
    Word.wrap (config.vtableHeaderSize + p.slotCount * config.pointerSize)
  size := o.size
  alignment := o.segment.alignment
  slotCount := o.dispatch.slotCount
  pointerSize := config.pointerSize
  vtableHeaderSize := config.vtableHeaderSize
  ancestors := parent.elim [] Descriptor.chain

/-- How the attributes of a class are placed: `own` are those that it introduces, and `stop` is
where the last of them ends. -/
structure FieldPlacement (space : SpaceOf) (config : LayoutConfig) (definition : ClassDefinition)
    (parent : Option Descriptor) (d : Descriptor) (own : List (String × Variable)) (stop : Nat) :
    Prop where
  /-- The attributes are those of the parent and then those that the class adds. -/
  attributes_eq : d.attributes.toList =
    inheritedEntries parent ++ introducedEntries definition parent
  nodup : d.attributes.types.keys.Nodup
  /-- What the class places itself is what it adds. -/
  own_eq : own.map (fun entry => (entry.1, entry.2.type)) = introducedEntries definition parent
  /-- The places are those of the parent and then those of the class itself. -/
  symbols_eq : d.symbols.toList = inheritedSymbols parent ++ own
  /-- The pointer to the virtual table is where the parent has it. -/
  vtabOffset_eq : d.vtabOffset = parent.elim config.vtabPointerOffset fun p => p.vtabOffset
  /-- The class adds its attributes behind the parent, and a root behind the header. -/
  attrOffset_eq : d.attrOffset = parent.elim config.headerSize fun p => p.size
  /-- The attributes that the class adds follow on each other. -/
  packed : Packed space d.attrOffset own stop
  /-- The alignment is the largest one. -/
  isGreatest : IsGreatest (alignments space
    (parent.elim config.pointerAlignment fun p => p.alignment).value own) d.alignment.value
  /-- The size is the end of the last field, rounded up. -/
  isRounded : d.alignment.IsRounded stop d.size

section Classes

variable {config : LayoutConfig} {definition : ClassDefinition} {parent : Option Descriptor}
  {d : Descriptor} {known : Knowledge}

/-- The symbols of a sound class are its attributes. -/
theorem Sound.keys_eq (h : Sound d) : d.symbols.keys = d.attributes.types.keys := by
  have hmap := congrArg (List.map Prod.fst) h.symbols_eq
  rw [List.map_map] at hmap
  exact hmap

/-- A sound class repeats no symbol. -/
theorem Sound.nodup_symbols (h : Sound d) : d.symbols.keys.Nodup := by
  rw [h.keys_eq]
  exact h.nodup

/-- A parent places an attribute exactly when the attribute table has it. -/
theorem Sound.get?_eq_none_iff (h : Sound d) {name : String} :
    d.symbols.get? name = none ↔ d.attributes.get? name = none := by
  unfold AttributeTable.get?
  rw [OrderedMap.get?_eq_none_iff, OrderedMap.get?_eq_none_iff, h.keys_eq]

/-- The attributes that a parent places are placed first, and where the parent has them. -/
theorem placeFields_inheritedEntries (hparent : ∀ p, parent = some p → Sound p)
    (view : TypeEnv Unit) {segment : Segment} (hempty : segment.symbols = ∅) :
    ((Draft.ofDecl definition.toClassDecl parent config).placeFields view (fun _ => pure ()) segment
      (inheritedEntries parent)).answer =
      .ok { segment with symbols := ⟨inheritedSymbols parent⟩ } := by
  cases parent with
  | none => exact congrArg Except.ok (congrArg (fun s => { segment with symbols := s }) hempty)
  | some p =>
    have hsound := hparent p rfl
    unfold inheritedEntries inheritedSymbols
    rw [Option.elim_some, Option.elim_some, ← hsound.symbols_eq]
    refine (Draft.placeFields_inherited p.id ?_ ?_ hsound.nodup_symbols).trans ?_
    · intro entry hmem
      rw [Draft.inherited?_ofDecl]
      unfold inheritedPlace?
      rw [Option.bind_some, OrderedMap.get?_eq_some_of_mem hsound.nodup_symbols hmem]
      rfl
    · intro entry _
      rw [hempty]
      rfl
    · rw [hempty]
      rfl

/-- A class takes over the symbols of its parent. -/
theorem keys_inheritedSymbols (parent : Option Descriptor) :
    (inheritedSymbols parent).map Prod.fst = parent.elim [] fun p => p.symbols.keys := by
  cases parent with
  | none => rfl
  | some p =>
    unfold inheritedSymbols
    rw [Option.elim_some, List.map_map]
    rfl

/-- A symbol that is taken over is not an own one. -/
theorem storage_of_mem_inheritedSymbols {entry : String × Variable}
    (h : entry ∈ inheritedSymbols parent) : entry.2.storage ≠ .own := by
  cases parent with
  | none => cases h
  | some p =>
    obtain ⟨placed, -, rfl⟩ := List.mem_map.1 h
    exact fun hown => nomatch hown

/-- A class adds the attributes that it declares and does not inherit. -/
theorem mem_introducedEntries_iff (hparent : ∀ p, parent = some p → Sound p)
    {entry : String × AttributeType} :
    entry ∈ introducedEntries definition parent ↔
      entry ∈ definition.attributes ∧ entry.1 ∉ (inheritedSymbols parent).map Prod.fst := by
  unfold introducedEntries
  rw [List.mem_filter, Option.isNone_iff_eq_none, keys_inheritedSymbols]
  cases parent with
  | none => simp
  | some p =>
    rw [Option.bind_some, Option.elim_some, ← (hparent p rfl).get?_eq_none_iff,
      OrderedMap.get?_eq_none_iff]

/-- A name that the parent lacks has no place in it. -/
theorem inheritedPlace?_eq_none {name : String}
    (h : name ∉ (inheritedSymbols parent).map Prod.fst) : inheritedPlace? parent name = none := by
  rw [keys_inheritedSymbols] at h
  cases parent with
  | none => rfl
  | some p =>
    unfold inheritedPlace?
    rw [Option.bind_some, OrderedMap.get?_eq_none_iff.2 h]
    rfl

/-- An instance that introduces no field is as large as one of the parent. -/
theorem isRounded_instanceSize {draft : Draft} {segment : Segment} {size : Nat}
    (hpower : segment.alignment.IsPower)
    (hkept : segment.lastOwn = none → segment.cursor.value = draft.attrOffset ∧
      segment.alignment.value ∣ draft.attrOffset)
    (h : draft.instanceSize segment = .ok size) :
    segment.alignment.IsRounded segment.cursor.value size := by
  unfold Draft.instanceSize at h
  split at h
  · next rounded _ halign =>
    cases h
    exact Alignment.align_isRounded hpower halign
  · cases h
  · next hlast =>
    cases h
    obtain ⟨hcursor, hdvd⟩ := hkept hlast
    rw [hcursor]
    exact Alignment.isRounded_self hdvd

/-- The attributes that a class is laid out with are those that it introduces below its parent. -/
theorem Outline.Describes.introduceAll {out : Outline}
    (h : out.Describes known config definition parent d) (hknown : known.IsAligned)
    (hparent : ∀ p, parent = some p → Sound p) :
    (Segment.below config parent).introduceAll
      (known.fieldSpace config.pointerSize definition.id) (introducedEntries definition parent) =
      .ok out.segment := by
  obtain ⟨htable, -⟩ := toList_of_inheritedAttributes h.own_eq h.table_eq
  have hplaced := h.segment_eq
  rw [htable, Draft.placeFields_append] at hplaced
  obtain ⟨taken, htaken, hplaced⟩ := exists_eq_ok_of_bind hplaced
  rw [placeFields_inheritedEntries hparent _ rfl] at htaken
  cases htaken
  exact Draft.introduceAll_of_placeFields hknown hplaced fun entry hmem =>
    inheritedPlace?_eq_none ((mem_introducedEntries_iff hparent).1 hmem).2

/-- Where a class begins to place fields is aligned to a power of two. -/
theorem Segment.below_aligned (hvalid : config.validate = .ok ())
    (hparent : ∀ p, parent = some p → Sound p) :
    (Segment.below config parent).alignment.IsPower ∧
      (Segment.below config parent).alignment.value ∣
        (Segment.below config parent).cursor.value := by
  obtain ⟨-, hpointer, -, hheader⟩ := LayoutConfig.of_validate hvalid
  cases parent with
  | none => exact ⟨hpointer, hheader⟩
  | some p => exact ⟨(hparent p rfl).isPower, (hparent p rfl).dvd⟩

/-- What a class introduces is packed behind what it inherits. If its size is the end of the last
field, rounded up, then all its attributes are placed as they should be. -/
theorem Outline.exists_placement {space : SpaceOf} {o : Outline}
    (hdeclared : AttributeTable.ofList definition.id definition.attributes = .ok o.own)
    (htable : inheritedAttributes definition.toClassDecl parent o.own = .ok o.table)
    (hsegment : (Segment.below config parent).introduceAll space
      (introducedEntries definition parent) = .ok o.segment)
    (hpower : ∀ {type field}, space type = .ok field → field.alignment.IsPower)
    (hparent : ∀ p, parent = some p → Sound p) :
    ∃ own, (Segment.below config parent).Packs space o.segment own ∧
      (o.segment.alignment.IsRounded o.segment.cursor.value o.size →
        FieldPlacement space config definition parent (o.descriptor config definition parent) own
          o.segment.cursor.value) := by
  obtain ⟨htable, hnodup⟩ := toList_of_inheritedAttributes hdeclared htable
  replace hnodup := hnodup fun p hp => (hparent p hp).nodup
  have hfresh : ∀ entry ∈ introducedEntries definition parent,
      (Segment.below config parent).symbols.get? entry.1 = none := fun entry hmem =>
    OrderedMap.get?_eq_none_iff.2 ((mem_introducedEntries_iff hparent).1 hmem).2
  obtain ⟨own, hown, hpacks⟩ :=
    Segment.exists_packs hpower hfresh (nodup_introducedEntries htable hnodup) hsegment
  refine ⟨own, hpacks, fun hrounded => ?_⟩
  exact ⟨htable, hnodup, hown, hpacks.symbols_eq, rfl, rfl, hpacks.packed,
    by cases parent <;> exact hpacks.isGreatest, hrounded⟩

/-- Whatever a class is laid out from, its attributes are placed like this. -/
theorem Outline.Describes.exists_placement {out : Outline}
    (h : out.Describes known config definition parent d) (hvalid : config.validate = .ok ())
    (hknown : known.IsAligned) (hparent : ∀ p, parent = some p → Sound p) :
    ∃ own, FieldPlacement (known.fieldSpace config.pointerSize definition.id) config definition
      parent d own out.segment.cursor.value := by
  obtain ⟨hbase, hdvd⟩ := Segment.below_aligned hvalid hparent
  obtain ⟨own, hpacks, hplaced⟩ := Outline.exists_placement h.own_eq h.table_eq
    (h.introduceAll hknown hparent) hknown.isPower hparent
  rw [h.descriptor_eq]
  refine ⟨own, hplaced ?_⟩
  refine isRounded_instanceSize (isPower_of_isGreatest_alignments hbase hknown.isPower
    hpacks.isGreatest) ?_ h.size_eq
  intro hnone
  obtain ⟨rfl, -⟩ := hpacks.lastOwn hnone
  rw [eq_of_isGreatest_alignments_nil hpacks.isGreatest]
  exact ⟨hpacks.packed.eq_of_nil, hdvd⟩

/-- The attributes that a class introduces begin within an instance. -/
theorem FieldPlacement.attrOffset_le {space : SpaceOf} {own : List (String × Variable)} {stop : Nat}
    (h : FieldPlacement space config definition parent d own stop) : d.attrOffset ≤ d.size :=
  Nat.le_trans h.packed.le h.isRounded.le

/-- An instance ends where the attributes of the class begin exactly when these are empty and stand
there. -/
theorem FieldPlacement.size_eq_attrOffset_iff {space : SpaceOf} {own : List (String × Variable)}
    {stop : Nat} (h : FieldPlacement space config definition parent d own stop)
    (hdvd : (Segment.below config parent).alignment.value ∣
      (Segment.below config parent).cursor.value) :
    d.size = d.attrOffset ↔
      ∀ entry ∈ own, entry.2.size = 0 ∧ entry.2.offset.value = d.attrOffset := by
  constructor
  · intro hsize entry hentry
    obtain ⟨hlow, hhigh⟩ := h.packed.within entry hentry
    have hend := h.isRounded.le
    omega
  · intro hempty
    have hrounded := h.isRounded
    rw [h.packed.stop_eq hempty] at hrounded
    refine hrounded.unique (Alignment.isRounded_self ?_)
    rcases h.isGreatest.1 with hbase | ⟨entry, hentry, field, hspace, htop⟩
    · -- The end of the parent is rounded for the parent already.
      rw [hbase, h.attrOffset_eq]
      cases parent <;> exact hdvd
    · obtain ⟨field', hspace', -, hfield⟩ := h.packed.exists_field entry hentry
      cases hspace'.symm.trans hspace
      rw [htop, ← (hempty entry hentry).2]
      exact hfield

/-- A field that a class places is an attribute that it introduces. -/
theorem FieldPlacement.mem_introducedEntries {space : SpaceOf} {own : List (String × Variable)}
    {stop : Nat} (h : FieldPlacement space config definition parent d own stop)
    {entry : String × Variable} (hentry : entry ∈ own) :
    (entry.1, entry.2.type) ∈ introducedEntries definition parent := by
  rw [← h.own_eq]
  exact List.mem_map.2 ⟨entry, hentry, rfl⟩

/-- A class whose fields are placed is sound. -/
theorem FieldPlacement.sound {space : SpaceOf} {own : List (String × Variable)} {stop : Nat}
    (h : FieldPlacement space config definition parent d own stop)
    (hvalid : config.validate = .ok ())
    (hpower : ∀ {type field}, space type = .ok field → field.alignment.IsPower)
    (hparent : ∀ p, parent = some p → Sound p) : Sound d := by
  obtain ⟨-, hpointer, -⟩ := LayoutConfig.of_validate hvalid
  refine ⟨h.nodup, ?_, ?_, h.isRounded.dvd⟩
  · rw [h.symbols_eq, h.attributes_eq, List.map_append, h.own_eq]
    apply congrArg (· ++ introducedEntries definition parent)
    cases parent with
    | none => rfl
    | some p =>
      unfold inheritedSymbols inheritedEntries
      rw [Option.elim_some, Option.elim_some, ← (hparent p rfl).symbols_eq, List.map_map]
      rfl
  · refine isPower_of_isGreatest_alignments ?_ hpower h.isGreatest
    cases parent with
    | none => exact hpointer
    | some p => exact (hparent p rfl).isPower

/-- An instance takes space if the header of a root does, and an instance of a parent. -/
theorem FieldPlacement.size_pos {space : SpaceOf} {own : List (String × Variable)} {stop : Nat}
    (h : FieldPlacement space config definition parent d own stop) (hheader : 0 < config.headerSize)
    (hparent : ∀ p, parent = some p → 0 < p.size) : 0 < d.size := by
  have hattr : 0 < d.attrOffset := by
    rw [h.attrOffset_eq]
    cases parent with
    | none => exact hheader
    | some p => exact hparent p rfl
  exact Nat.lt_of_lt_of_le hattr h.attrOffset_le

end Classes

/-! ## Lineages -/

/-- The space that a type takes as an attribute of the class, from what was known then. -/
def Origin.fieldSpace (o : Origin) : SpaceOf :=
  o.known.fieldSpace o.setup.config.pointerSize o.definition.id

/-- No class declares an array without elements. -/
def Scope.IsFilled (scope : Scope) : Prop :=
  ∀ ⦃definition⦄, scope.Definition definition → ∀ entry ∈ definition.attributes, entry.2.IsFilled

namespace Registry

variable {scope : Scope} {d : Descriptor} {o : Origin} {origins : List Origin}

/-- What is registered and sound is aligned. -/
theorem isAligned_known {setup : RegistrySetup} {s : Registry}
    (h : ∀ cls e, s.get? cls = some e → Sound e) : (s.known setup).IsAligned := by
  intro cls e hknown
  exact (h cls e (get?_of_known_eq_some hknown)).isPower

/-- Being sound is passed on to every class. -/
theorem hereditary_sound (scope : Scope) : Hereditary scope Sound where
  publish := by
    intro setup levels definition given above s t parent d hs hdef habove ht hgiven hpublication
    obtain ⟨out, hout⟩ := Knowledge.exists_outline hpublication.layOut_eq
    have hknown : (t.known setup).IsAligned := isAligned_known ht
    have hparent := hpublication.parent_holds ht hgiven
    obtain ⟨own, hplaced⟩ := hout.exists_placement hs.allows.valid hknown hparent
    exact hplaced.sound hs.allows.valid hknown.isPower hparent

/-- A class with a lineage is sound. -/
theorem Lineage.sound (h : Lineage scope (some d) origins) : Sound d :=
  (hereditary_sound scope).holds.2 h d rfl

/-- What a link of a chain knows is aligned. -/
theorem Link.isAligned {parent : Option Descriptor} (h : Link scope o parent d) :
    o.known.IsAligned :=
  isAligned_known ((hereditary_sound scope).holds.1 h.reachable)

/-- The parent of a class with a lineage is sound. -/
theorem Lineage.parent_sound {parent : Option Descriptor} (h : Lineage scope parent origins) :
    ∀ p, parent = some p → Sound p := by
  rintro p rfl
  exact h.sound

/-- Every link of a chain places its fields. -/
theorem Link.exists_placement {parent : Option Descriptor} (h : Link scope o parent d)
    (hparent : Lineage scope parent origins) :
    ∃ own stop, FieldPlacement o.fieldSpace o.setup.config o.definition parent d own stop := by
  obtain ⟨out, hout⟩ := h.exists_outline
  obtain ⟨own, hplaced⟩ :=
    hout.exists_placement h.reachable.allows.valid h.isAligned hparent.parent_sound
  exact ⟨own, _, hplaced⟩

/-- Every link of a chain is sound. -/
theorem Link.sound {parent : Option Descriptor} (h : Link scope o parent d)
    (hparent : Lineage scope parent origins) : Sound d := by
  obtain ⟨own, stop, hplaced⟩ := h.exists_placement hparent
  exact hplaced.sound h.reachable.allows.valid h.isAligned.isPower hparent.parent_sound

/-! ## Instances that take space -/

/-- Where every registered instance takes space, so do the classes that are known. -/
theorem takesSpace_known {setup : RegistrySetup} {s : Registry}
    (h : ∀ cls e, s.get? cls = some e → 0 < e.size) : (s.known setup).TakesSpace := by
  intro cls e hknown
  exact h cls e (get?_of_known_eq_some hknown)

/-- Where headers fit into the address space, instances take space. -/
theorem hereditary_size_pos (hfits : scope.HeadersFit) :
    Hereditary scope fun d => Sound d ∧ 0 < d.size where
  publish := by
    intro setup levels definition given above s t parent d hs hdef habove ht hgiven hpublication
    have hvalid := hs.allows.valid
    have hsound := (hereditary_sound scope).publish hs hdef habove (fun cls e hget =>
      (ht cls e hget).1) (fun p hp => (hgiven p hp).1) hpublication
    have hparent := hpublication.parent_holds ht hgiven
    obtain ⟨out, hout⟩ := Knowledge.exists_outline hpublication.layOut_eq
    obtain ⟨own, hplaced⟩ := hout.exists_placement hvalid
      (isAligned_known fun cls e hget => (ht cls e hget).1) fun p hp => (hparent p hp).1
    exact ⟨hsound, hplaced.size_pos ((hfits hs.allows.config).headerSize_pos hvalid)
      fun p hp => (hparent p hp).2⟩

/-- Where headers fit, an instance takes space. -/
theorem Lineage.size_pos (hfits : scope.HeadersFit) (h : Lineage scope (some d) origins) :
    0 < d.size :=
  ((hereditary_size_pos hfits).holds.2 h d rfl).2

/-- Where headers fit, what a link of a chain knows takes space. -/
theorem Link.takesSpace (hfits : scope.HeadersFit) {parent : Option Descriptor}
    (h : Link scope o parent d) : o.known.TakesSpace :=
  takesSpace_known fun cls e hget => ((hereditary_size_pos hfits).holds.1 h.reachable cls e hget).2

/-- Every field of a class that is filled takes space. -/
theorem Link.fieldSpace_pos (hfits : scope.HeadersFit) {parent : Option Descriptor}
    (h : Link scope o parent d) {type : AttributeType} {field : FieldLayout}
    (hfilled : type.IsFilled) (hspace : o.fieldSpace type = .ok field) : 0 < field.size :=
  h.isAligned.size_pos (h.takesSpace hfits)
    (LayoutConfig.pointerSize_pos h.reachable.allows.valid) hfilled hspace

/-- The attributes that a class introduces take space. -/
theorem Link.own_pos (hfits : scope.HeadersFit) (hfilled : scope.IsFilled)
    {parent : Option Descriptor} (h : Link scope o parent d) {own : List (String × Variable)}
    {stop : Nat}
    (hplaced : FieldPlacement o.fieldSpace o.setup.config o.definition parent d own stop) :
    ∀ entry ∈ own, 0 < entry.2.size := by
  intro entry hentry
  obtain ⟨field, hspace, hsize, -⟩ := hplaced.packed.exists_field entry hentry
  have hdeclared := (List.mem_filter.1 (hplaced.mem_introducedEntries hentry)).1
  rw [hsize]
  exact h.fieldSpace_pos hfits (hfilled h.definition _ hdeclared) hspace

/-- Where nothing is empty, every attribute of a class takes space. -/
theorem Lineage.attribute_pos (hfits : scope.HeadersFit) (hfilled : scope.IsFilled)
    (h : Lineage scope (some d) origins) : ∀ entry ∈ d.symbols.toList, 0 < entry.2.size := by
  refine h.chain_induction (Q := fun d _ => ∀ entry ∈ d.symbols.toList, 0 < entry.2.size) ?_ ?_
  · intro o d hlink _ entry hentry
    obtain ⟨own, stop, hplaced⟩ := hlink.exists_placement .nil
    rw [hplaced.symbols_eq] at hentry
    exact hlink.own_pos hfits hfilled hplaced entry hentry
  · intro o p d above hlink _ habove ih entry hentry
    obtain ⟨own, stop, hplaced⟩ := hlink.exists_placement habove
    rw [hplaced.symbols_eq] at hentry
    rcases List.mem_append.1 hentry with hinherited | hown
    · obtain ⟨placed, hmem, rfl⟩ := List.mem_map.1 hinherited
      exact ih placed hmem
    · exact hlink.own_pos hfits hfilled hplaced entry hown

end Registry

end ObjectLayout
