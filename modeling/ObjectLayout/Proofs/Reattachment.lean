import ObjectLayout.Descriptor.Draft
import ObjectLayout.Proofs.Action
import ObjectLayout.Proofs.Alignment

/-!
# Attaching attributes again

A draft takes more than one attribute table, and the last one should count. Most of the draft is
indeed worked out anew: the places start over where the attributes of the class begin. The alignment
goes on from where the earlier table has left it, though. What that does is one law, `raise`: fields
that are placed from a raised alignment on end up with a raised alignment, and differ in nothing
else (`placeFields_raise`). So a table that is attached again replaces the earlier one exactly when
the earlier one asks for no larger alignment (`reattaches_of_setAttributes`), and otherwise leaves a
draft that is aligned, and padded, for fields that it no longer has
(`alignment_remains_of_wide_field`).
-/

set_option autoImplicit false

namespace ObjectLayout

open LayoutM (exists_eq_ok_of_bind exists_eq_ok_of_map eq_error_of_map)

variable {σ τ α β : Type}

/-- A map over an action maps its answer and leaves the same state. -/
theorem LayoutM.exec_map (f : α → β) (action : LayoutM σ α) (s : σ) :
    LayoutM.exec (f <$> action) s = ((action.exec s).1.map f, (action.exec s).2) := by
  rw [map_eq_pure_bind, LayoutM.exec_bind]
  rcases action.exec s with ⟨x, u⟩
  cases x <;> rfl

namespace Alignment

/-- The largest of three alignments does not depend on the order of comparing. -/
theorem max_assoc (a b c : Alignment) : (a.max b).max c = a.max (b.max c) := by
  have h : ((a.max b).max c).value = (a.max (b.max c)).value := by
    simp only [value_max]
    exact Nat.max_assoc a.value b.value c.value
  exact congrArg Alignment.mk h

/-- The larger of two alignments is the first one where the second one is not larger. -/
theorem max_eq_left {a b : Alignment} (h : b.value ≤ a.value) : a.max b = a :=
  if_neg (Nat.not_lt.2 h)

/-- The larger of two alignments is the second one where the first one is not larger. -/
theorem max_eq_right {a b : Alignment} (h : a.value ≤ b.value) : a.max b = b := by
  have hvalue : (a.max b).value = b.value := (value_max a b).trans (Nat.max_eq_right h)
  exact congrArg Alignment.mk hvalue

/-- The larger of two alignments is the second one exactly where the first one is not larger. -/
theorem max_eq_right_iff {a b : Alignment} : a.max b = b ↔ a.value ≤ b.value := by
  refine ⟨fun h => ?_, max_eq_right⟩
  have hvalue := value_max a b
  rw [h] at hvalue
  rw [hvalue]
  exact Nat.le_max_left _ _

end Alignment

/-- The same layout, aligned at least like this. -/
def Segment.raise (a : Alignment) (segment : Segment) : Segment :=
  { segment with alignment := a.max segment.alignment }

namespace Draft

variable {draft : Draft} {env : TypeEnv σ} {note : PlacedField → LayoutM σ Unit}

/-! ## Placing from a raised alignment on -/

/-- A field that is placed from a raised alignment on ends up with a raised alignment. -/
theorem placeField_raise (a : Alignment) (segment : Segment) (name : String)
    (type : AttributeType) :
    draft.placeField env note (segment.raise a) name type =
      Segment.raise a <$> draft.placeField env note segment name type := by
  unfold placeField
  cases draft.inherited? name with
  | some v => rw [map_pure]; rfl
  | none =>
    simp only [map_bind, map_pure]
    -- Nothing that is asked for before the segment is put together depends on the alignment.
    refine bind_congr fun field => bind_congr fun start => bind_congr fun _ =>
      bind_congr fun stop => congrArg Pure.pure ?_
    simp only [Segment.raise, Alignment.max_assoc]

/-- Fields that are placed from a raised alignment on have the places that they have anyway, and the
outcome is raised alike. -/
theorem placeFields_raise (a : Alignment) (segment : Segment)
    (entries : List (String × AttributeType)) :
    draft.placeFields env note (segment.raise a) entries =
      Segment.raise a <$> draft.placeFields env note segment entries := by
  induction entries generalizing segment with
  | nil => simp only [placeFields, map_pure]
  | cons entry rest ih =>
    simp only [placeFields, placeField_raise, bind_map_left, map_bind]
    exact bind_congr fun next => ih next

/-- Placing fields never lowers the alignment. -/
theorem le_alignment_of_placeFields {segment last : Segment}
    {entries : List (String × AttributeType)} {s : σ}
    (h : ((draft.placeFields env note segment entries).exec s).1 = .ok last) :
    segment.alignment.value ≤ last.alignment.value := by
  have hself : segment.raise segment.alignment = segment := by
    simp only [Segment.raise, Alignment.max_eq_left (Nat.le_refl _)]
  -- The layout begins as if it were raised to its own alignment, so it ends like that, too.
  have hraised := @placeFields_raise σ draft env note segment.alignment segment entries
  have hlast := congrArg (fun action => (LayoutM.exec action s).1) hraised
  rw [hself, LayoutM.exec_map, h] at hlast
  exact Alignment.max_eq_right_iff.1 (congrArg Segment.alignment (Except.ok.inj hlast)).symm

/-! ## What an attached table makes of a draft -/

/-- Nothing is laid out yet of the attributes of the class. -/
def firstSegment (draft : Draft) : Segment where
  symbols := ∅
  cursor := ⟨draft.attrOffset⟩
  alignment := draft.alignment
  lastOwn := none

/-- The draft with a table and what was laid out from it. -/
def laidOut (draft : Draft) (table : AttributeTable) (segment : Segment) (size : Nat) : Draft :=
  { draft with
    attributes := draft.attributes.set table
    symbols := segment.symbols
    size := size
    alignment := segment.alignment }

/-- Attaching attributes lays the fields out and then settles the size. -/
theorem exec_setAttributes (draft : Draft) (table : AttributeTable) (env : TypeEnv σ)
    (note : PlacedField → LayoutM σ Unit) (s : σ) :
    (draft.setAttributes table env note).exec s =
      (((draft.placeFields env note draft.firstSegment table.toList).exec s).1 >>= fun segment =>
        (draft.instanceSize segment).map (draft.laidOut table segment),
        ((draft.placeFields env note draft.firstSegment table.toList).exec s).2) := by
  have hbind : draft.setAttributes table env note =
      draft.placeFields env note draft.firstSegment table.toList >>= fun segment =>
        liftM (draft.instanceSize segment) >>= fun size =>
          pure (draft.laidOut table segment size) := rfl
  rw [hbind, LayoutM.exec_bind]
  rcases (draft.placeFields env note draft.firstSegment table.toList).exec s with ⟨x, u⟩
  cases x with
  | error error => rfl
  | ok segment =>
    dsimp only
    rw [LayoutM.exec_bind, LayoutM.exec_liftM]
    cases hsize : draft.instanceSize segment <;> simp [bind, Except.bind, Except.map, hsize]

/-- Fields are placed in the same way whether or not others have been laid out before. -/
theorem placeFields_laidOut (table : AttributeTable) (segment : Segment) (size : Nat)
    (start : Segment) (entries : List (String × AttributeType)) :
    (draft.laidOut table segment size).placeFields env note start entries =
      draft.placeFields env note start entries := by
  induction entries generalizing start with
  | nil => rfl
  | cons entry rest ih => exact bind_congr fun next => ih next

/-- A draft with a table begins to lay out another one like the draft without it, but raised to the
alignment that it has reached. -/
theorem firstSegment_laidOut (table : AttributeTable) {segment : Segment} (size : Nat)
    (h : draft.alignment.value ≤ segment.alignment.value) :
    (draft.laidOut table segment size).firstSegment =
      draft.firstSegment.raise segment.alignment := by
  simp only [firstSegment, laidOut, Segment.raise, Alignment.max_eq_left h]

/-- An instance is too large because of the attribute that was placed last. -/
theorem exists_overflow_of_instanceSize {segment : Segment} {error : LayoutError}
    (h : draft.instanceSize segment = .error error) :
    ∃ name type, segment.lastOwn = some (name, type) ∧ error = draft.overflow name type := by
  unfold instanceSize at h
  cases halign : segment.alignment.align segment.cursor.value with
  | some size => simp [halign] at h
  | none =>
    cases hlast : segment.lastOwn with
    | none => simp [halign, hlast] at h
    | some entry =>
      simp only [halign, hlast] at h
      cases h
      exact ⟨entry.1, entry.2, rfl, rfl⟩

/-- One table makes `first` of a draft, and another table makes `second` of it. This is what becomes
of `first` when the other table is attached to it. -/
structure Reattaches (draft first second : Draft) (again : Except LayoutError Draft) : Prop where
  /-- The earlier table is replaced exactly when it has not raised the alignment further than the
  other one does. -/
  eq_iff : again = .ok second ↔ first.alignment.value ≤ second.alignment.value
  /-- In any case the attributes are placed alike. -/
  placed : ∀ third, again = .ok third →
    third = { second with
      size := third.size, alignment := first.alignment.max second.alignment }
  /-- The descriptor tells the difference, whatever methods it has. -/
  freeze_iff : ∀ third dispatch, again = .ok third →
    ((third.setDispatch dispatch).freeze = (second.setDispatch dispatch).freeze ↔
      first.alignment.value ≤ second.alignment.value)
  /-- What is refused is the padding that the larger alignment asks for. -/
  refused : ∀ error, again = .error error → second.alignment.value < first.alignment.value ∧
    ∃ name type, error = draft.overflow name type

/-- Drafts that freeze to the same descriptor have the same alignment. -/
theorem alignment_eq_of_freeze_eq {third second : Draft} {dispatch : DispatchTable}
    {table : AttributeTable} (hthird : third.attributes.content = some table)
    (hsecond : second.attributes.content = some table)
    (h : (third.setDispatch dispatch).freeze = (second.setDispatch dispatch).freeze) :
    third.alignment = second.alignment := by
  unfold freeze at h
  simp only [setDispatch, Attachment.get, Attachment.set, hthird, hsecond] at h
  exact congrArg (fun d => d.alignment) (Except.ok.inj h)

/-- A draft that takes attributes has laid them out. -/
theorem exists_laidOut {table : AttributeTable} {d : Draft} {s : σ}
    (h : ((draft.setAttributes table env note).exec s).1 = .ok d) :
    ∃ segment size,
      ((draft.placeFields env note draft.firstSegment table.toList).exec s).1 = .ok segment ∧
      draft.instanceSize segment = .ok size ∧ d = draft.laidOut table segment size := by
  rw [exec_setAttributes] at h
  obtain ⟨segment, hsegment, hsized⟩ := exists_eq_ok_of_bind h
  obtain ⟨size, hsize, rfl⟩ := exists_eq_ok_of_map hsized
  exact ⟨segment, size, hsegment, hsize, rfl⟩

/-- A table that is attached again is laid out as it is alone, from the alignment on that the draft
has reached. -/
theorem exec_setAttributes_laidOut {table table' : AttributeTable} {segment last : Segment}
    {size : Nat} {s : σ} (hle : draft.alignment.value ≤ segment.alignment.value)
    (hlast : ((draft.placeFields env note draft.firstSegment table'.toList).exec s).1 = .ok last) :
    (((draft.laidOut table segment size).setAttributes table' env note).exec s).1 =
      (draft.instanceSize (last.raise segment.alignment)).map
        (draft.laidOut table' (last.raise segment.alignment)) := by
  rw [exec_setAttributes, placeFields_laidOut, firstSegment_laidOut table size hle,
    placeFields_raise, LayoutM.exec_map, hlast]
  rfl

/-- Attaching a second table leaves what the second table alone leaves, but for the alignment that
the first one has raised. -/
theorem reattaches_of_setAttributes {first second : Draft} {table table' : AttributeTable}
    {env' : TypeEnv τ} {note' : PlacedField → LayoutM τ Unit} {s : σ} {t : τ}
    (hfirst : ((draft.setAttributes table env note).exec s).1 = .ok first)
    (hsecond : ((draft.setAttributes table' env' note').exec t).1 = .ok second) :
    Reattaches draft first second ((first.setAttributes table' env' note').exec t).1 := by
  obtain ⟨segment, size, hsegment, -, rfl⟩ := exists_laidOut hfirst
  obtain ⟨last, size', hlast, hsize, rfl⟩ := exists_laidOut hsecond
  rw [exec_setAttributes_laidOut (le_alignment_of_placeFields hsegment) hlast]
  have hle : ∀ d, (draft.laidOut table' (last.raise segment.alignment) d).alignment =
      last.alignment ↔ segment.alignment.value ≤ last.alignment.value :=
    fun _ => Alignment.max_eq_right_iff
  have hsame : segment.alignment.value ≤ last.alignment.value →
      (draft.instanceSize (last.raise segment.alignment)).map
        (draft.laidOut table' (last.raise segment.alignment)) =
          .ok (draft.laidOut table' last size') := by
    intro h
    have hraise : last.raise segment.alignment = last := by
      simp only [Segment.raise, Alignment.max_eq_right h]
    rw [hraise, hsize]
    rfl
  constructor
  · refine ⟨fun h => ?_, hsame⟩
    obtain ⟨size, -, heq⟩ := exists_eq_ok_of_map h
    exact (hle size).1 (congrArg Draft.alignment heq)
  · intro third h
    obtain ⟨size, -, rfl⟩ := exists_eq_ok_of_map h
    rfl
  · intro third dispatch h
    constructor
    · intro hfreeze
      obtain ⟨size, -, rfl⟩ := exists_eq_ok_of_map h
      exact (hle size).1 (alignment_eq_of_freeze_eq rfl rfl hfreeze)
    · intro hvalue
      rw [hsame hvalue] at h
      cases h
      rfl
  · intro error h
    constructor
    · by_contra hnot
      rw [hsame (Nat.not_lt.1 hnot)] at h
      cases h
    · obtain ⟨name, type, -, herror⟩ := exists_overflow_of_instanceSize (eq_error_of_map h)
      exact ⟨name, type, herror⟩

/-- A wide field replaces a narrow one. -/
theorem reattaches_of_wide_field :
    ∃ (draft first second : Draft) (narrow wide : AttributeTable) (env : TypeEnv Unit),
      ((draft.setAttributes narrow env fun _ => pure ()).exec ()).1 = .ok first ∧
      ((draft.setAttributes wide env fun _ => pure ()).exec ()).1 = .ok second ∧
      (first.alignment.value, second.alignment.value) = (4, 8) ∧
      Reattaches draft first second
        ((first.setAttributes wide env fun _ => pure ()).exec ()).1 := by
  let start := ofDecl { id := ⟨"A"⟩ } none { pointerSize := 4, objectHeaderSize := 12 }
  let wide : AttributeTable := { owner := ⟨"A"⟩, types := ⟨[("wide", .primitive .int64)]⟩ }
  let narrow : AttributeTable := { owner := ⟨"A"⟩, types := ⟨[("narrow", .primitive .int8)]⟩ }
  let env := TypeEnv.ofTable 4 ⟨"A"⟩ []
  let first : Draft := start.laidOut narrow
    { symbols := ⟨[("narrow", ⟨.primitive .int8, .own, ⟨16⟩, 1⟩)]⟩, cursor := ⟨17⟩
      alignment := ⟨4⟩, lastOwn := some ("narrow", .primitive .int8) } 20
  let second : Draft := start.laidOut wide
    { symbols := ⟨[("wide", ⟨.primitive .int64, .own, ⟨16⟩, 8⟩)]⟩, cursor := ⟨24⟩
      alignment := ⟨8⟩, lastOwn := some ("wide", .primitive .int64) } 24
  have hnarrow : ((start.setAttributes narrow env fun _ => pure ()).exec ()).1 = .ok first := by
    decide +kernel
  have hwide : ((start.setAttributes wide env fun _ => pure ()).exec ()).1 = .ok second := by
    decide +kernel
  exact ⟨start, first, second, narrow, wide, env, hnarrow, hwide, rfl,
    reattaches_of_setAttributes hnarrow hwide⟩

/-- Replacing the wide field by the narrow one leaves the alignment of the wide one behind, and with
it more padding than the narrow field has alone. -/
theorem alignment_remains_of_wide_field :
    ∃ (config : LayoutConfig) (first second third : Draft) (wide narrow : AttributeTable)
      (env : TypeEnv Unit), config.validate = .ok () ∧
      (((ofDecl { id := ⟨"A"⟩ } none config).setAttributes wide env
        fun _ => pure ()).exec ()).1 = .ok first ∧
      (((ofDecl { id := ⟨"A"⟩ } none config).setAttributes narrow env
        fun _ => pure ()).exec ()).1 = .ok second ∧
      ((first.setAttributes narrow env fun _ => pure ()).exec ()).1 = .ok third ∧
      (second.size, second.alignment.value) = (20, 4) ∧
      (third.size, third.alignment.value) = (24, 8) := by
  let config : LayoutConfig := { pointerSize := 4, objectHeaderSize := 12 }
  let start := ofDecl { id := ⟨"A"⟩ } none config
  let wide : AttributeTable := { owner := ⟨"A"⟩, types := ⟨[("wide", .primitive .int64)]⟩ }
  let narrow : AttributeTable := { owner := ⟨"A"⟩, types := ⟨[("narrow", .primitive .int8)]⟩ }
  let first : Draft := start.laidOut wide
    { symbols := ⟨[("wide", ⟨.primitive .int64, .own, ⟨16⟩, 8⟩)]⟩, cursor := ⟨24⟩
      alignment := ⟨8⟩, lastOwn := some ("wide", .primitive .int64) } 24
  let narrowed (a size : Nat) : Draft := start.laidOut narrow
    { symbols := ⟨[("narrow", ⟨.primitive .int8, .own, ⟨16⟩, 1⟩)]⟩, cursor := ⟨17⟩
      alignment := ⟨a⟩, lastOwn := some ("narrow", .primitive .int8) } size
  exact ⟨config, first, narrowed 4 20, narrowed 8 24, wide, narrow, TypeEnv.ofTable 4 ⟨"A"⟩ [],
    by decide, by decide +kernel, by decide +kernel, by decide +kernel, rfl, rfl⟩

end Draft

end ObjectLayout
