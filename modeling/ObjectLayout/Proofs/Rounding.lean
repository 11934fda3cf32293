import ObjectLayout.Proofs.Alignment

/-!
# Exact rounding

The alignments that come about are the powers of two among the addresses (`obtained_iff`). Rounding
up to one of them answers the least multiple that is not below the offset wherever this is a word,
and nothing wherever it is not (`align_eq_some_iff`, `align_eq_none_iff`). On the 64 bits of a word
it is one sum and one mask (`align_toNat`). `roundsExactly_of_obtained` puts this together with what
follows for the order of offsets and for offsets that are aligned already.
-/

set_option autoImplicit false

namespace ObjectLayout.Alignment

variable {a b : Alignment}

/-! ## The alignments that come about -/

/-- An alignment that comes about: of a stated number of bytes, as the natural one of a size, as
that of a byte or of a word, or as the larger one of two. -/
inductive Obtained : Alignment → Prop where
  | ofValue {value : Nat} {a : Alignment} (hword : value < addressSpace)
      (h : Alignment.ofValue value = .ok a) : Obtained a
  | natural {size : Nat} (h : size ≤ 2 ^ 63) : Obtained (Alignment.natural size)
  | byte : Obtained Alignment.byte
  | default : Obtained Inhabited.default
  | max {a b : Alignment} (ha : Obtained a) (hb : Obtained b) : Obtained (a.max b)

/-- Every power of two among the addresses comes about as an alignment, and nothing else. -/
theorem obtained_iff : a.Obtained ↔ a.IsPower ∧ a.value < addressSpace := by
  constructor
  · intro h
    induction h with
    | @ofValue value a hword h =>
      unfold Alignment.ofValue at h
      split at h
      · next hpower =>
        cases h
        exact ⟨hpower, hword⟩
      · cases h
    | @natural size h =>
      have hbound := value_natural_le_two_pow h
      exact ⟨isPower_natural size, Nat.lt_of_le_of_lt hbound (by decide)⟩
    | byte => exact ⟨⟨0, rfl⟩, by decide⟩
    | default => exact ⟨⟨3, rfl⟩, by decide⟩
    | @max a b _ _ iha ihb =>
      rcases a.max_eq_or b with h | h
      · rw [h]
        exact iha
      · rw [h]
        exact ihb
  · rintro ⟨hpower, hword⟩
    exact .ofValue hword (if_pos hpower)

/-- An alignment that can come about is a power of two. -/
theorem Obtained.isPower (h : a.Obtained) : a.IsPower := (obtained_iff.1 h).1

/-- An alignment that can come about lies in the address space. -/
theorem Obtained.lt (h : a.Obtained) : a.value < addressSpace := (obtained_iff.1 h).2

/-! ## Rounding -/

/-- Rounding up keeps the order of offsets. -/
theorem IsRounded.mono {offset offset' rounded rounded' : Nat} (h : a.IsRounded offset rounded)
    (h' : a.IsRounded offset' rounded') (hle : offset ≤ offset') : rounded ≤ rounded' :=
  h.2 ⟨h'.dvd, Nat.le_trans hle h'.le⟩

namespace Obtained

/-- Rounding answers the rounded offset, where it is an address. -/
theorem align_eq_some_iff (h : a.Obtained) {offset rounded : Nat} :
    a.align offset = some rounded ↔ a.IsRounded offset rounded ∧ rounded < addressSpace := by
  have hup := roundUp_isRounded h.isPower offset
  rw [align_eq_fit? h.isPower (Nat.le_of_lt h.lt), Word.fit?_eq_some_iff]
  constructor
  · rintro ⟨hlt, rfl⟩
    exact ⟨hup, hlt⟩
  · rintro ⟨hrounded, hlt⟩
    obtain rfl := hrounded.unique hup
    exact ⟨hlt, rfl⟩

/-- Rounding answers nothing exactly where the rounded offset is no address. -/
theorem align_eq_none_iff (h : a.Obtained) {offset : Nat} :
    a.align offset = none ↔ ∃ rounded, a.IsRounded offset rounded ∧ addressSpace ≤ rounded := by
  have hup := roundUp_isRounded h.isPower offset
  rw [align_eq_fit? h.isPower (Nat.le_of_lt h.lt), Word.fit?_eq_none_iff]
  constructor
  · intro hover
    exact ⟨_, hup, hover⟩
  · rintro ⟨rounded, hrounded, hover⟩
    obtain rfl := hrounded.unique hup
    exact hover

/-- Rounding up leaves a multiple where it is. -/
theorem align_of_dvd (h : a.Obtained) {offset : Nat} (hdvd : a.value ∣ offset)
    (hlt : offset < addressSpace) : a.align offset = some offset :=
  h.align_eq_some_iff.2 ⟨isRounded_self hdvd, hlt⟩

/-- Where an offset can be rounded, so can a smaller one, and not beyond it. -/
theorem exists_align_le (h : a.Obtained) {offset offset' rounded' : Nat} (hle : offset ≤ offset')
    (halign : a.align offset' = some rounded') :
    ∃ rounded ≤ rounded', a.align offset = some rounded := by
  obtain ⟨hrounded', hlt⟩ := h.align_eq_some_iff.1 halign
  have hrounded := roundUp_isRounded h.isPower offset
  have hmono := hrounded.mono hrounded' hle
  exact ⟨_, hmono, h.align_eq_some_iff.2 ⟨hrounded, Nat.lt_of_le_of_lt hmono hlt⟩⟩

/-- An offset that was rounded to an alignment is aligned to every alignment that divides it. -/
theorem alignTo_of_dvd (ha : a.Obtained) (hb : b.Obtained) (hdvd : b.value ∣ a.value)
    {o p : Offset} (halign : o.alignTo a = some p) : p.IsAligned b ∧ p.alignTo b = some p := by
  obtain ⟨rounded, hvalue, rfl⟩ := Option.map_eq_some_iff.1 halign
  obtain ⟨hrounded, hlt⟩ := ha.align_eq_some_iff.1 hvalue
  have hmultiple := Nat.dvd_trans hdvd hrounded.dvd
  exact ⟨Nat.mod_eq_zero_of_dvd hmultiple,
    Option.map_eq_some_iff.2 ⟨rounded, hb.align_of_dvd hmultiple hlt, rfl⟩⟩

end Obtained

/-! ## Bits -/

/-- Rounding up on the bits of a word: the bits below the alignment are added, unless the sum
carries out of the word, and then cleared. -/
def alignBits (value offset : BitVec 64) : Option (BitVec 64) :=
  if offset.uaddOverflow (value - 1) then none
  else some ((offset + (value - 1)) &&& ~~~(value - 1))

/-- Rounding up an offset rounds up its bits. -/
theorem align_toNat (hpos : 0 < a.value) (hlt : a.value < addressSpace) (offset : BitVec 64) :
    a.align offset.toNat = (alignBits (.ofNat 64 a.value) offset).map BitVec.toNat := by
  rw [addressSpace_eq] at hlt
  have hvalue : (BitVec.ofNat 64 a.value).toNat = a.value := by
    rw [BitVec.toNat_ofNat, Nat.mod_eq_of_lt hlt]
  have hlow : (BitVec.ofNat 64 a.value - 1).toNat = a.value - 1 := by
    rw [BitVec.toNat_sub_of_le, hvalue]
    · rfl
    · rw [BitVec.le_def, hvalue]
      exact hpos
  have hmask : (~~~(BitVec.ofNat 64 a.value - 1)).toNat = 2 ^ 64 - a.value := by
    rw [BitVec.toNat_not, hlow]
    omega
  unfold align alignBits Word.add? Word.fit? BitVec.uaddOverflow
  rw [hlow, addressSpace_eq]
  by_cases hsum : offset.toNat + (a.value - 1) < 2 ^ 64
  · have hcarry : ¬ 2 ^ 64 ≤ offset.toNat + (a.value - 1) := Nat.not_le.2 hsum
    simp only [hsum, hcarry, if_true, decide_false, Option.map_some, Bool.false_eq_true, if_false,
      BitVec.toNat_and, hmask, BitVec.toNat_add, hlow, Nat.mod_eq_of_lt hsum]
  · have hcarry : 2 ^ 64 ≤ offset.toNat + (a.value - 1) := Nat.not_lt.1 hsum
    simp only [hsum, hcarry, if_false, decide_true, Option.map_none, if_true]

/-! ## Exactness -/

/-- Rounding up to an alignment is exact. -/
structure RoundsExactly (a : Alignment) : Prop where
  isPower : a.IsPower
  lt : a.value < addressSpace
  /-- A natural alignment covers its size and is not larger than it has to be. -/
  natural : ∀ size, a = Alignment.natural size →
    IsLeast {p | p.isPowerOfTwo ∧ Nat.max size 1 ≤ p} a.value
  bits : ∀ offset : BitVec 64,
    a.align offset.toNat = (alignBits (.ofNat 64 a.value) offset).map BitVec.toNat
  some_iff : ∀ offset rounded,
    a.align offset = some rounded ↔ a.IsRounded offset rounded ∧ rounded < addressSpace
  none_iff : ∀ offset,
    a.align offset = none ↔ ∃ rounded, a.IsRounded offset rounded ∧ addressSpace ≤ rounded
  mono : ∀ offset offset' rounded', offset ≤ offset' → a.align offset' = some rounded' →
    ∃ rounded ≤ rounded', a.align offset = some rounded
  idempotent : ∀ offset rounded, a.align offset = some rounded → a.align rounded = some rounded
  aligned : ∀ b : Alignment, b.Obtained → b.value ∣ a.value → ∀ o p : Offset,
    o.alignTo a = some p → p.IsAligned b ∧ p.alignTo b = some p

/-- Rounding up is exact for every alignment that comes about. -/
theorem roundsExactly_of_obtained (h : a.Obtained) : a.RoundsExactly where
  isPower := h.isPower
  lt := h.lt
  natural := by
    rintro size rfl
    exact natural_isLeast size
  bits := align_toNat h.isPower.pos h.lt
  some_iff := fun _ _ => h.align_eq_some_iff
  none_iff := fun _ => h.align_eq_none_iff
  mono := fun _ _ _ => h.exists_align_le
  idempotent := by
    intro offset rounded halign
    obtain ⟨hrounded, hlt⟩ := h.align_eq_some_iff.1 halign
    exact h.align_of_dvd hrounded.dvd hlt
  aligned := fun _ hb hdvd _ _ => h.alignTo_of_dvd hb hdvd

/-- Twelve bytes are aligned to sixteen. The last multiple of sixteen is rounded to itself, and from
there on nothing is rounded. -/
theorem roundsExactly_of_sixteen :
    ((natural 12).max byte).Obtained ∧ ((natural 12).max byte).RoundsExactly ∧
      ((natural 12).max byte).align (2 ^ 64 - 16) = some (2 ^ 64 - 16) ∧
      ((natural 12).max byte).align (2 ^ 64 - 15) = none := by
  have hobtained : ((natural 12).max byte).Obtained := .max (.natural (by decide)) .byte
  exact ⟨hobtained, roundsExactly_of_obtained hobtained, by decide, by decide⟩

end ObjectLayout.Alignment
