import ObjectLayout.Proofs.UnboundedFields

/-!
# Layouts of any size

`Knowledge.layOutUnbounded` lays a class out over the natural numbers. It makes all the checks of
`Knowledge.layOut` but one: no offset and no size is too large. As long as an instance fits into the
address space the two layouts are the same. Where it does not, the bounded one is refused, and the
overflow is put down to the first attribute that ends outside, or to the last one if only the
padding does (`Bounded.layOut_isExact`).
-/

set_option autoImplicit false

namespace ObjectLayout

open LayoutM (exists_eq_ok_of_bind bind_eq_ok)

/-- The descriptor of a class below a parent, however large its instances are. -/
def Knowledge.layOutUnbounded (known : Knowledge) (config : LayoutConfig)
    (definition : ClassDefinition) (parent : Option Descriptor) :
    Except LayoutError Descriptor := do
  let own ← AttributeTable.ofList definition.id definition.attributes
  let table ← inheritedAttributes definition.toClassDecl parent own
  let segment ← (Segment.below config parent).introduceAll
    (known.unboundedSpace config.pointerSize definition.id) (introducedEntries definition parent)
  let dispatch ← (Registry.inheritMethods definition.toClassDecl parent).addMethods
    definition.methods
  let size := segment.alignment.roundUp segment.cursor.value
  return Outline.descriptor { own, table, segment, size, dispatch } config definition parent

/-- The parts of a layout of any size. -/
structure Outline.Unbounded (o : Outline) (known : Knowledge) (config : LayoutConfig)
    (definition : ClassDefinition) (parent : Option Descriptor) : Prop where
  own_eq : AttributeTable.ofList definition.id definition.attributes = .ok o.own
  table_eq : inheritedAttributes definition.toClassDecl parent o.own = .ok o.table
  segment_eq : (Segment.below config parent).introduceAll
    (known.unboundedSpace config.pointerSize definition.id)
    (introducedEntries definition parent) = .ok o.segment
  dispatch_eq : (Registry.inheritMethods definition.toClassDecl parent).addMethods
    definition.methods = .ok o.dispatch
  size_eq : o.size = o.segment.alignment.roundUp o.segment.cursor.value

/-- The attribute to which an overflow is put down: the first one that the class introduces and that
does not end in the address space, or the last one that it introduces. -/
def ClassLayout.overflowing? (c : ClassLayout) : Option (String × Variable) :=
  (c.ownAttributes.find? endsOutside).or c.ownAttributes.getLast?

section Classes

variable {within : ClassId → Prop} {known classes : Knowledge} {config : LayoutConfig}
  {definition : ClassDefinition} {parent : Option Descriptor} {d : Descriptor} {o : Outline}

/-- A class with an unbounded layout has an outline. -/
theorem Knowledge.exists_unbounded (h : known.layOutUnbounded config definition parent = .ok d) :
    ∃ o : Outline, o.Unbounded known config definition parent ∧
      d = o.descriptor config definition parent := by
  obtain ⟨own, hown, h⟩ := exists_eq_ok_of_bind h
  obtain ⟨table, htable, h⟩ := exists_eq_ok_of_bind h
  obtain ⟨segment, hsegment, h⟩ := exists_eq_ok_of_bind h
  obtain ⟨dispatch, hdispatch, h⟩ := exists_eq_ok_of_bind h
  cases h
  exact ⟨_, ⟨hown, htable, hsegment, hdispatch, rfl⟩, rfl⟩

/-- A class has the same unbounded layout when more is known. -/
theorem Knowledge.layOutUnbounded_mono (h : known.Extends classes)
    (hd : classes.layOutUnbounded config definition parent = .ok d) :
    known.layOutUnbounded config definition parent = .ok d := by
  obtain ⟨own, hown, hd⟩ := exists_eq_ok_of_bind hd
  obtain ⟨table, htable, hd⟩ := exists_eq_ok_of_bind hd
  obtain ⟨segment, hsegment, hd⟩ := exists_eq_ok_of_bind hd
  have hmore := Segment.introduceAll_mono (fun hspace => unboundedSpace_mono h hspace) hsegment
  exact bind_eq_ok hown (bind_eq_ok htable (bind_eq_ok hmore hd))

/-- The fields of an unbounded layout are placed. -/
theorem Outline.Unbounded.exists_placement (h : o.Unbounded known config definition parent)
    (hvalid : config.validate = .ok ()) (hknown : known.IsMeasured)
    (hpointer : config.pointerSize < addressSpace) (hparent : ∀ p, parent = some p → Sound p) :
    ∃ own, (Segment.below config parent).Packs
        (known.unboundedSpace config.pointerSize definition.id) o.segment own ∧
      FieldPlacement (known.unboundedSpace config.pointerSize definition.id) config definition
        parent (o.descriptor config definition parent) own o.segment.cursor.value := by
  have hpower : ∀ {type field},
      known.unboundedSpace config.pointerSize definition.id type = .ok field →
      field.alignment.IsPower := fun hspace => (hknown.alignment hpointer hspace).1
  obtain ⟨own, hpacks, hplaced⟩ :=
    Outline.exists_placement h.own_eq h.table_eq h.segment_eq hpower hparent
  have hbase := (Segment.below_aligned hvalid hparent).1
  refine ⟨own, hpacks, hplaced ?_⟩
  rw [h.size_eq]
  exact Alignment.roundUp_isRounded
    (isPower_of_isGreatest_alignments hbase hpower hpacks.isGreatest) _

/-- An unbounded layout below a measured parent is measured. -/
theorem Knowledge.IsMeasured.layOutUnbounded (hknown : known.IsMeasured)
    (hvalid : config.validate = .ok ()) (hpointer : config.pointerSize < addressSpace)
    (hparent : ∀ p, parent = some p → Measured p)
    (h : known.layOutUnbounded config definition parent = .ok d) : Measured d := by
  obtain ⟨o, ho, rfl⟩ := Knowledge.exists_unbounded h
  have hsound : ∀ p, parent = some p → Sound p := fun p hp => (hparent p hp).toSound
  obtain ⟨own, -, hplaced⟩ := ho.exists_placement hvalid hknown hpointer hsound
  refine ⟨hplaced.sound hvalid (fun hspace => (hknown.alignment hpointer hspace).1) hsound, ?_⟩
  rcases hplaced.isGreatest.1 with hbase | ⟨entry, -, field, hfield, htop⟩
  · rw [hbase]
    cases parent with
    | none => exact Alignment.value_natural_le (Nat.le_of_lt hpointer)
    | some p => exact (hparent p rfl).alignment_le
  · rw [htop]
    exact (hknown.alignment hpointer hfield).2

/-- A parent that is known is measured. -/
theorem Knowledge.IsMeasured.parent_measured (hknown : known.IsMeasured) {decl : ClassDecl}
    (h : known.parent decl none = .ok parent) : ∀ p, parent = some p → Measured p := by
  rintro p rfl
  obtain ⟨base, hbase⟩ := exists_base_of_parent h
  exact hknown hbase

/-- An unbounded layout is one below its parent. -/
theorem Knowledge.parent?_of_layOutUnbounded
    (h : known.layOutUnbounded config definition parent = .ok d) : d.parent? = parent := by
  obtain ⟨o, -, rfl⟩ := Knowledge.exists_unbounded h
  cases parent <;> rfl

/-- An unbounded layout is at least as large as the parent. -/
theorem Knowledge.IsMeasured.parent_size_le (hknown : known.IsMeasured)
    (hvalid : config.validate = .ok ()) (hpointer : config.pointerSize < addressSpace)
    (hparent : ∀ p, parent = some p → Sound p)
    (h : known.layOutUnbounded config definition parent = .ok d) :
    parent.elim 0 (fun p => p.size) ≤ d.size := by
  obtain ⟨o, ho, rfl⟩ := Knowledge.exists_unbounded h
  obtain ⟨own, -, hplaced⟩ := ho.exists_placement hvalid hknown hpointer hparent
  have hle := hplaced.attrOffset_le
  rw [hplaced.attrOffset_eq] at hle
  cases parent with
  | none => exact Nat.zero_le _
  | some p => exact hle

/-- The own attributes of a class are the fields that it places. -/
theorem FieldPlacement.ownAttributes_eq {space : SpaceOf} {own : List (String × Variable)}
    {stop : Nat} (h : FieldPlacement space config definition parent d own stop) :
    d.ownAttributes = own := by
  unfold ClassLayout.ownAttributes
  rw [h.symbols_eq, List.filter_append]
  have hinherited : (inheritedSymbols parent).filter (fun entry => !entry.2.isInherited) = [] := by
    refine List.filter_eq_nil_iff.2 fun entry hentry => ?_
    have hstorage := storage_of_mem_inheritedSymbols hentry
    unfold Variable.isInherited
    cases hentry : entry.2.storage with
    | own => exact absurd hentry hstorage
    | inherited origin => simp
  have hown : own.filter (fun entry => !entry.2.isInherited) = own := by
    refine List.filter_eq_self.2 fun entry hentry => ?_
    unfold Variable.isInherited
    rw [h.packed.storage entry hentry]
    rfl
  rw [hinherited, hown, List.nil_append]

/-- No packed field ends behind the whole. -/
theorem Packed.stop_le {space : SpaceOf} {start stop : Nat} {own : List (String × Variable)}
    (h : Packed space start own stop) : ∀ entry ∈ own, entry.2.stop ≤ stop :=
  fun entry hentry => (h.within entry hentry).2

/-- A layout that fits is the layout without a limit. -/
theorem Knowledge.layOutUnbounded_of_layOut (hknown : known.IsAligned)
    (hle : ∀ ⦃cls e⦄, known cls = .ok (some e) → classes cls = .ok (some e))
    (hvalid : config.validate = .ok ()) (hparent : ∀ p, parent = some p → Sound p)
    (h : known.layOut config definition parent = .ok d) :
    classes.layOutUnbounded config definition parent = .ok d := by
  obtain ⟨o, ho⟩ := exists_outline h
  obtain ⟨own, hplaced⟩ := ho.exists_placement hvalid hknown hparent
  have hpower := (hplaced.sound hvalid hknown.isPower hparent).isPower
  have hrounded := hplaced.isRounded
  have hintroduced := Segment.introduceAll_mono
    (fun hspace => unboundedSpace_of_fieldSpace hknown hle hspace) (ho.introduceAll hknown hparent)
  rw [ho.descriptor_eq] at hpower hrounded ⊢
  have hsize : o.size = o.segment.alignment.roundUp o.segment.cursor.value :=
    hrounded.unique (Alignment.roundUp_isRounded hpower _)
  refine bind_eq_ok ho.own_eq (bind_eq_ok ho.table_eq (bind_eq_ok hintroduced
    (bind_eq_ok ho.dispatch_eq ?_)))
  rw [← hsize]
  rfl

/-- What is laid out of a class after it has introduced its attributes, if sizes are words. -/
def Knowledge.placeIntroduced (known : Knowledge) (config : LayoutConfig)
    (definition : ClassDefinition) (parent : Option Descriptor) : Except LayoutError Segment :=
  ((Draft.ofDecl definition.toClassDecl parent config).placeFields
    (known.env config.pointerSize definition.id) (fun _ => pure ())
    (Segment.below config parent) (introducedEntries definition parent)).answer

/-- The bounded layout of a class, once the checks that do not depend on sizes are made. -/
theorem Outline.Unbounded.layOut_eq (h : o.Unbounded classes config definition parent)
    (known : Knowledge) (hparent : ∀ p, parent = some p → Sound p) :
    known.layOut config definition parent =
      known.placeIntroduced config definition parent >>= fun segment =>
      (Draft.ofDecl definition.toClassDecl parent config).instanceSize segment >>= fun size =>
      .ok ({ o with segment, size }.descriptor config definition parent) := by
  obtain ⟨htable, -⟩ := toList_of_inheritedAttributes h.own_eq h.table_eq
  -- The inherited attributes come first, and nothing is sized for them.
  have hplaced : ((Draft.ofDecl definition.toClassDecl parent config).placeFields
      (known.env config.pointerSize definition.id) (fun _ => pure ()) {
        symbols := ∅
        cursor := ⟨(Draft.ofDecl definition.toClassDecl parent config).attrOffset⟩
        alignment := (Draft.ofDecl definition.toClassDecl parent config).alignment
        lastOwn := none } o.table.toList).answer =
      known.placeIntroduced config definition parent := by
    rw [htable, Draft.placeFields_append, placeFields_inheritedEntries hparent _ rfl]
    rfl
  unfold Knowledge.layOut
  dsimp only
  rw [h.own_eq]
  show (inheritedAttributes definition.toClassDecl parent o.own >>= _) = _
  rw [h.table_eq]
  show (Draft.setAttributes _ o.table _ _).answer >>= _ = _
  unfold Draft.setAttributes
  rw [LayoutM.answer_bind, hplaced]
  rcases known.placeIntroduced config definition parent with error | segment
  · rfl
  show (LayoutM.answer (_ >>= _)) >>= _ = _
  rw [LayoutM.answer_bind, LayoutM.answer_liftM]
  show _ = (Draft.ofDecl definition.toClassDecl parent config).instanceSize segment >>= _
  rcases (Draft.ofDecl definition.toClassDecl parent config).instanceSize segment with error | size
  · rfl
  show (Registry.inheritMethods definition.toClassDecl parent).addMethods definition.methods >>= _ =
    _
  rw [h.dispatch_eq]
  rfl

/-- The size of an instance that fits is rounded up. -/
theorem Draft.instanceSize_of_lt (draft : Draft) {segment : Segment}
    (hpower : segment.alignment.IsPower) (hle : segment.alignment.value ≤ addressSpace)
    (h : segment.alignment.roundUp segment.cursor.value < addressSpace) :
    draft.instanceSize segment = .ok (segment.alignment.roundUp segment.cursor.value) := by
  unfold instanceSize
  rw [Alignment.align_eq_fit? hpower hle, Word.fit?_eq_some_iff.2 ⟨h, rfl⟩]

/-- The size of an instance that does not fit is put down to the attribute that was placed last. -/
theorem Draft.instanceSize_of_le (draft : Draft) {segment : Segment}
    (hpower : segment.alignment.IsPower) (hle : segment.alignment.value ≤ addressSpace)
    (h : addressSpace ≤ segment.alignment.roundUp segment.cursor.value) {name : String}
    {type : AttributeType} (hlast : segment.lastOwn = some (name, type)) :
    draft.instanceSize segment = .error (draft.overflow name type) := by
  unfold instanceSize
  rw [Alignment.align_eq_fit? hpower hle, Word.fit?_eq_none_iff.2 h, hlast]

/-- Of the attributes that a class introduces, the first one that does not end in the address space
is refused. -/
theorem Outline.Unbounded.placeIntroduced_stops (ho : o.Unbounded classes config definition parent)
    (h : Bounded within known classes) (hclasses : classes.IsMeasured)
    (hpointer : config.pointerSize < addressSpace)
    (hfilled : ∀ entry ∈ definition.attributes, entry.2.IsFilledFrom within)
    (hparent : ∀ p, parent = some p → Sound p) {own : List (String × Variable)}
    (hpacks : (Segment.below config parent).Packs
      (classes.unboundedSpace config.pointerSize definition.id) o.segment own)
    (hown : own.map (fun entry => (entry.1, entry.2.type)) = introducedEntries definition parent) :
    StopsAtFirst definition.id own o.segment
      (known.placeIntroduced config definition parent) := by
  have hnew : ∀ entry ∈ introducedEntries definition parent,
      entry.2.IsFilledFrom within ∧ inheritedPlace? parent entry.1 = none := by
    intro entry hentry
    obtain ⟨hdeclared, hname⟩ := (mem_introducedEntries_iff hparent).1 hentry
    exact ⟨hfilled entry hdeclared, inheritedPlace?_eq_none hname⟩
  exact h.placeFields_stops hclasses hpointer (Draft.ofDecl definition.toClassDecl parent config)
    (fun entry hentry => (hnew entry hentry).1) (fun entry hentry => (hnew entry hentry).2)
    ho.segment_eq hown hpacks.packed

/-- Where nothing ends outside, the size of an instance is refused exactly when the padding does not
fit, and the overflow is put down to the last attribute. -/
theorem Outline.Unbounded.instanceSize_isExact (h : o.Unbounded known config definition parent)
    {own : List (String × Variable)} (hplaced : FieldPlacement
      (known.unboundedSpace config.pointerSize definition.id) config definition parent
      (o.descriptor config definition parent) own o.segment.cursor.value)
    (hmeasured : Measured (o.descriptor config definition parent)) (draft : Draft)
    (hsize : own = [] → o.size < addressSpace) :
    (o.size < addressSpace → draft.instanceSize o.segment = .ok o.size) ∧
    (addressSpace ≤ o.size → ∃ entry, own.getLast? = some entry ∧
      draft.instanceSize o.segment = .error (draft.overflow entry.1 entry.2.type)) := by
  have hpower : o.segment.alignment.IsPower := hmeasured.isPower
  have hle : o.segment.alignment.value ≤ addressSpace := hmeasured.alignment_le
  rw [h.size_eq] at hsize ⊢
  refine ⟨draft.instanceSize_of_lt hpower hle, fun hover => ?_⟩
  cases hlast : own.getLast? with
  | none =>
    have hfits := hsize (List.getLast?_eq_none_iff.1 hlast)
    omega
  | some entry =>
    have hentry : o.segment.lastOwn = some (entry.1, entry.2.type) := by
      rw [Segment.lastOwn_of_introduceAll h.segment_eq, ← hplaced.own_eq, List.getLast?_map, hlast]
      rfl
    exact ⟨entry, rfl, draft.instanceSize_of_le hpower hle hover hentry⟩

/-- The answer is the descriptor if its instances fit into the address space, and if not, it is an
overflow that is put down to the right attribute. -/
structure NamesOverflow (d : Descriptor) (answer : Except LayoutError Descriptor) : Prop where
  fits : d.size < addressSpace → answer = .ok d
  names : addressSpace ≤ d.size → ∃ entry text, d.overflowing? = some entry ∧
    answer = .error (.sizeOverflow d.id entry.1 text)

/-- An answer that names the overflow is exact. -/
theorem NamesOverflow.isExact {answer : Except LayoutError Descriptor}
    (h : NamesOverflow d answer) : IsExact d.size d answer where
  fits := h.fits
  overflows := fun hsize => by
    obtain ⟨entry, text, -, herror⟩ := h.names hsize
    exact ⟨d.id, entry.1, text, herror⟩

/-- Below a parent that fits, the bounded layout is exact. -/
theorem Bounded.layOut_isExact (h : Bounded within known classes) (hclasses : classes.IsMeasured)
    (hvalid : config.validate = .ok ()) (hheader : config.HeaderFits)
    (hfilled : ∀ entry ∈ definition.attributes, entry.2.IsFilledFrom within)
    (hparent : ∀ p, parent = some p → Measured p)
    (hfits : ∀ p, parent = some p → p.size < addressSpace)
    (hd : classes.layOutUnbounded config definition parent = .ok d) :
    NamesOverflow d (known.layOut config definition parent) := by
  have hpointer := hheader.pointerSize_lt
  have hmeasured := hclasses.layOutUnbounded hvalid hpointer hparent hd
  have hsound : ∀ p, parent = some p → Sound p := fun p hp => (hparent p hp).toSound
  obtain ⟨o, ho, rfl⟩ := Knowledge.exists_unbounded hd
  obtain ⟨own, hpacks, hplaced⟩ := ho.exists_placement hvalid hclasses hpointer hsound
  have hstops := ho.placeIntroduced_stops h hclasses hpointer hfilled hsound hpacks hplaced.own_eq
  have hstart : (Segment.below config parent).cursor.value < addressSpace := by
    cases parent with
    | none => exact Word.wrap_lt _
    | some p => exact hfits p rfl
  rw [ho.layOut_eq known hsound]
  cases hfind : own.find? endsOutside with
  | some entry =>
    -- What ends outside ends before the instance does.
    have hmem := List.mem_of_find?_eq_some hfind
    have houtside : endsOutside entry = true := List.find?_some hfind
    replace houtside := of_decide_eq_true houtside
    have hsize : addressSpace ≤ o.size :=
      Nat.le_trans houtside (Nat.le_trans (hpacks.packed.stop_le entry hmem) hplaced.isRounded.le)
    obtain ⟨text, herror⟩ := hstops.names entry hfind
    refine ⟨fun hlt => absurd hlt (Nat.not_lt.2 hsize), fun _ => ⟨entry, text, ?_, ?_⟩⟩
    · unfold ClassLayout.overflowing?
      rw [hplaced.ownAttributes_eq, hfind]
      rfl
    · rw [herror]
      rfl
  | none =>
    rw [hstops.fits hfind]
    have hnil : own = [] → o.size < addressSpace := by
      rintro rfl
      have hsame : o.size = (Segment.below config parent).cursor.value :=
        ((hplaced.size_eq_attrOffset_iff (Segment.below_aligned hvalid hsound).2).2 (by simp)).trans
          hplaced.attrOffset_eq
      rw [hsame]
      exact hstart
    obtain ⟨hsized, hpadded⟩ := ho.instanceSize_isExact hplaced hmeasured
      (Draft.ofDecl definition.toClassDecl parent config) hnil
    constructor
    · intro hsize
      show (Draft.ofDecl definition.toClassDecl parent config).instanceSize o.segment >>= _ = _
      rw [hsized hsize]
      rfl
    · intro hsize
      obtain ⟨entry, hlast, herror⟩ := hpadded hsize
      refine ⟨entry, entry.2.type.text, ?_, ?_⟩
      · unfold ClassLayout.overflowing?
        rw [hplaced.ownAttributes_eq, hfind]
        exact hlast
      · show (Draft.ofDecl definition.toClassDecl parent config).instanceSize o.segment >>= _ = _
        rw [herror]
        rfl

end Classes

/-! ## Parents of any size -/

section Parents

variable {within : ClassId → Prop} {known classes : Knowledge} {bases : List ClassId}
  {found ps : List Descriptor}

/-- The parents that were found before are among those that are found. -/
theorem Knowledge.subset_parents (h : known.parents found bases = .ok ps) : found ⊆ ps := by
  induction bases generalizing found with
  | nil =>
    cases h
    exact List.Subset.refl _
  | cons base rest ih =>
    unfold parents at h
    obtain ⟨answer, -, h⟩ := exists_eq_ok_of_bind h
    cases answer with
    | none => exact ih h
    | some e =>
      by_cases hmem : e.id ∈ found.map fun p => p.id
      · simp only [hmem, if_true] at h
        exact ih h
      · simp only [hmem, if_false] at h
        exact List.Subset.trans (List.subset_append_left _ _) (ih h)

/-- The parents are found if all of them fit, and if not, the first one that does not is refused. -/
theorem Bounded.parents_isExact (h : Bounded within known classes)
    (hkeyed : ∀ {cls e}, classes cls = .ok (some e) → e.id = cls)
    (hbases : ∀ base ∈ bases, ∀ e, classes base = .ok (some e) → within base)
    (hfound : ∀ p ∈ found, p.size < addressSpace ∧ classes p.id = .ok (some p))
    (hps : classes.parents found bases = .ok ps) :
    ((∀ p ∈ ps, p.size < addressSpace) → known.parents found bases = .ok ps) ∧
    ((∃ p ∈ ps, addressSpace ≤ p.size) → Overflows (known.parents found bases)) := by
  induction bases generalizing found with
  | nil =>
    cases hps
    refine ⟨fun _ => rfl, ?_⟩
    rintro ⟨p, hp, hle⟩
    exact absurd (hfound p hp).1 (Nat.not_lt.2 hle)
  | cons base rest ih =>
    unfold Knowledge.parents at hps ⊢
    obtain ⟨answer, hanswer, hps⟩ := exists_eq_ok_of_bind hps
    have hrest := fun base hbase => hbases base (List.mem_cons_of_mem _ hbase)
    cases answer with
    | none =>
      rw [h.plain hanswer]
      exact ih hrest hfound hps
    | some e =>
      have hexact := h.isExact (hbases base List.mem_cons_self e hanswer) hanswer
      have hid := hkeyed hanswer
      by_cases hmem : e.id ∈ found.map fun p => p.id
      · simp only [hmem, if_true] at hps
        -- The base has been found before.
        obtain ⟨p, hp, hsame⟩ := List.mem_map.1 hmem
        obtain ⟨hfits, hclass⟩ := hfound p hp
        rw [hsame, hid, hanswer] at hclass
        cases hclass
        rw [hexact.fits hfits]
        simp only [bind, Except.bind, hmem, if_true]
        exact ih hrest hfound hps
      · simp only [hmem, if_false] at hps
        by_cases hfits : e.size < addressSpace
        · rw [hexact.fits hfits]
          simp only [bind, Except.bind, hmem, if_false]
          refine ih hrest (List.forall_mem_append.2 ⟨hfound, List.forall_mem_singleton.2 ?_⟩) hps
          rw [hid]
          exact ⟨hfits, hanswer⟩
        · have hlast := Knowledge.subset_parents hps (List.mem_append_right _ List.mem_cons_self)
          refine ⟨fun hall => absurd (hall e hlast) hfits, fun _ => ?_⟩
          exact (hexact.overflows (Nat.not_lt.1 hfits)).bind _

/-- The parent is found if it fits, and refused if it does not. -/
theorem Bounded.parent_isExact (h : Bounded within known classes)
    (hkeyed : ∀ {cls e}, classes cls = .ok (some e) → e.id = cls) {decl : ClassDecl}
    (hbases : ∀ base ∈ decl.bases, ∀ e, classes base = .ok (some e) → within base)
    {parent : Option Descriptor} (hparent : classes.parent decl none = .ok parent) :
    IsExact (parent.elim 0 fun p => p.size) parent (known.parent decl none) := by
  obtain ⟨ps, hps, hsingle⟩ := exists_eq_ok_of_bind hparent
  obtain ⟨hfits, hover⟩ := h.parents_isExact hkeyed hbases (by simp) hps
  obtain ⟨rfl, -⟩ := Registry.of_singleParent_eq_ok hsingle
  constructor
  · intro hsize
    refine bind_eq_ok (hfits fun p hp => ?_) hsingle
    rw [Option.mem_toList.1 hp] at hsize
    exact hsize
  · intro hsize
    refine (hover ?_).bind _
    cases parent with
    | none => exact absurd hsize (by decide)
    | some p => exact ⟨p, List.mem_cons_self, hsize⟩

end Parents

end ObjectLayout
