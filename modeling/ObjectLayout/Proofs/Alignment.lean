import Mathlib.Algebra.Group.Nat.Defs
import Mathlib.Order.Bounds.Basic
import ObjectLayout.Address.Offset
import ObjectLayout.Config

/-!
# Rounding up

Masking the low bits of an address rounds it down to a multiple of a power of two
(`and_mask_eq`), so that `Alignment.align` rounds up to the least multiple that is not below an
offset (`Alignment.align_isRounded`). Of two alignments the smaller one divides the larger one, and
the natural alignment of a size is the least one that covers it (`Alignment.natural_isLeast`).
-/

set_option autoImplicit false

namespace ObjectLayout

/-! ## Masks -/

/-- The address space holds as many addresses as a word of 64 bits tells apart. -/
theorem addressSpace_eq : addressSpace = 2 ^ 64 := rfl

/-- Masking the low bits of an address leaves the largest multiple that is not above it. -/
theorem and_mask_eq {n k : Nat} (hn : n < addressSpace) (hk : 2 ^ k ≤ addressSpace) :
    n &&& (addressSpace - 2 ^ k) = n / 2 ^ k * 2 ^ k := by
  rw [addressSpace_eq] at hn hk ⊢
  have hle : k ≤ 64 := (Nat.pow_le_pow_iff_right (by omega)).1 hk
  have hmask : 2 ^ 64 - 2 ^ k = 2 ^ k * (2 ^ (64 - k) - 1) := by
    rw [Nat.mul_sub, Nat.mul_one, ← Nat.pow_add, Nat.add_sub_cancel' hle]
  apply Nat.eq_of_testBit_eq
  intro i
  rw [hmask, Nat.testBit_and, Nat.testBit_two_pow_mul, Nat.testBit_two_pow_sub_one,
    Nat.testBit_mul_two_pow, Nat.testBit_div_two_pow]
  -- Below the mask both sides are zero, and from there on they have the bits of `n`.
  by_cases hki : k ≤ i
  · have hsum : i - k + k = i := Nat.sub_add_cancel hki
    by_cases hi : i < 64
    · have hlt : i - k < 64 - k := by omega
      simp [hki, hlt, hsum]
    · have hge : ¬ i - k < 64 - k := by omega
      have hbit : n.testBit i = false := by
        refine Nat.testBit_lt_two_pow (Nat.lt_of_lt_of_le hn ?_)
        exact Nat.pow_le_pow_right (by omega) (by omega)
      simp [hki, hge, hsum, hbit]
  · simp [hki]

/-! ## Powers of two -/

namespace Alignment

variable {a b : Alignment}

/-- The alignment is a power of two. -/
def IsPower (a : Alignment) : Prop := ∃ k, a.value = 2 ^ k

/-- A power of two is positive. -/
theorem IsPower.pos (h : a.IsPower) : 0 < a.value := by
  obtain ⟨k, hk⟩ := h
  rw [hk]
  exact Nat.two_pow_pos k

/-- A multiple of an alignment stays one when it wraps around. -/
theorem IsPower.dvd_wrap (ha : a.IsPower) {n : Nat} (h : a.value ∣ n) : a.value ∣ Word.wrap n := by
  obtain ⟨k, hk⟩ := ha
  unfold Word.wrap
  rw [addressSpace_eq]
  rw [hk] at h ⊢
  rcases Nat.le_total k 64 with hle | hle
  · exact (Nat.dvd_mod_iff (Nat.pow_dvd_pow 2 hle)).2 h
  · -- The alignment has more bits than a word, and nothing is left of its multiples.
    rw [Nat.mod_eq_zero_of_dvd (Nat.dvd_trans (Nat.pow_dvd_pow 2 hle) h)]
    exact Nat.dvd_zero _

/-- Of two alignments the smaller one divides the larger one. -/
theorem IsPower.dvd_of_le (ha : a.IsPower) (hb : b.IsPower) (hle : a.value ≤ b.value) :
    a.value ∣ b.value := by
  obtain ⟨i, hi⟩ := ha
  obtain ⟨j, hj⟩ := hb
  rw [hi, hj] at hle ⊢
  exact Nat.pow_dvd_pow 2 ((Nat.pow_le_pow_iff_right (by omega)).1 hle)

/-- The natural alignment of a size is the least power of two that covers it, and one byte. -/
theorem natural_isLeast (size : Nat) :
    IsLeast {p | p.isPowerOfTwo ∧ Nat.max size 1 ≤ p} (natural size).value := by
  unfold natural leastPowerOfTwo
  by_cases h : size ≤ 1
  · simp only [h, if_true]
    exact ⟨⟨⟨0, rfl⟩, Nat.max_le.2 ⟨h, Nat.le_refl 1⟩⟩, fun p hp => (Nat.max_le.1 hp.2).2⟩
  · simp only [h, if_false]
    have hne : size - 1 ≠ 0 := by omega
    refine ⟨⟨⟨_, rfl⟩, Nat.max_le.2 ⟨?_, Nat.two_pow_pos _⟩⟩, ?_⟩
    · have hlt : size - 1 < 2 ^ ((size - 1).log2 + 1) := (Nat.log2_lt hne).1 (Nat.lt_succ_self _)
      show size ≤ 2 ^ ((size - 1).log2 + 1)
      omega
    · rintro p ⟨⟨k, rfl⟩, hcovers⟩
      have hsize := (Nat.max_le.1 hcovers).1
      have hlog : (size - 1).log2 < k := (Nat.log2_lt hne).2 (by omega)
      exact Nat.pow_le_pow_right (by omega) hlog

/-- A natural alignment is a power of two. -/
theorem isPower_natural (size : Nat) : (natural size).IsPower :=
  (natural_isLeast size).1.1

/-- The natural alignment of a size covers the size. -/
theorem le_value_natural (size : Nat) : size ≤ (natural size).value :=
  (Nat.max_le.1 (natural_isLeast size).1.2).1

/-- The natural alignment of a size is at most any power of two that covers the size. -/
theorem value_natural_le_two_pow {size k : Nat} (h : size ≤ 2 ^ k) :
    (natural size).value ≤ 2 ^ k :=
  (natural_isLeast size).2 ⟨⟨k, rfl⟩, Nat.max_le.2 ⟨h, Nat.two_pow_pos k⟩⟩

/-- The natural alignment of a size in the address space is at most the size of the space. -/
theorem value_natural_le {size : Nat} (h : size ≤ addressSpace) :
    (natural size).value ≤ addressSpace :=
  value_natural_le_two_pow h

/-- A power of two is aligned to itself. -/
theorem natural_two_pow (k : Nat) : (natural (2 ^ k)).value = 2 ^ k :=
  Nat.le_antisymm (value_natural_le_two_pow (Nat.le_refl _)) (le_value_natural _)

/-- The larger of two alignments is one of them. -/
theorem max_eq_or (a b : Alignment) : a.max b = a ∨ a.max b = b := by
  unfold max
  by_cases h : a.value < b.value
  · exact .inr (if_pos h)
  · exact .inl (if_neg h)

/-- The larger of two alignments is so on naturals. -/
theorem value_max (a b : Alignment) : (a.max b).value = Nat.max a.value b.value := by
  unfold max
  by_cases h : a.value < b.value
  · simp only [h, if_true]
    exact (Nat.max_eq_right (Nat.le_of_lt h)).symm
  · simp only [h, if_false]
    exact (Nat.max_eq_left (Nat.not_lt.1 h)).symm

/-- Whether an alignment is a power of two depends on its value alone. -/
theorem IsPower.of_value_eq (h : a.IsPower) (heq : b.value = a.value) : b.IsPower := by
  obtain ⟨k, hk⟩ := h
  exact ⟨k, heq.trans hk⟩

/-- The least multiple of the alignment that is not below an offset. -/
def IsRounded (a : Alignment) (offset rounded : Nat) : Prop :=
  IsLeast {n | a.value ∣ n ∧ offset ≤ n} rounded

/-- What is rounded up is a multiple of the alignment. -/
theorem IsRounded.dvd {offset rounded : Nat} (h : a.IsRounded offset rounded) :
    a.value ∣ rounded :=
  h.1.1

/-- Rounding up does not go below the offset. -/
theorem IsRounded.le {offset rounded : Nat} (h : a.IsRounded offset rounded) : offset ≤ rounded :=
  h.1.2

/-- A multiple of the alignment is rounded up to itself. -/
theorem isRounded_self {offset : Nat} (h : a.value ∣ offset) : a.IsRounded offset offset :=
  ⟨⟨h, Nat.le_refl _⟩, fun _ hn => hn.2⟩

/-- An offset is rounded up to one multiple only. -/
theorem IsRounded.unique {offset n m : Nat} (hn : a.IsRounded offset n)
    (hm : a.IsRounded offset m) : n = m :=
  IsLeast.unique hn hm

/-- An offset rounded up to a multiple of the alignment, however large that is. -/
def roundUp (a : Alignment) (offset : Nat) : Nat :=
  (offset + (a.value - 1)) / a.value * a.value

/-- The formula on naturals rounds up. -/
theorem roundUp_isRounded (ha : a.IsPower) (offset : Nat) :
    a.IsRounded offset (a.roundUp offset) := by
  have hpos := ha.pos
  have hmod := Nat.div_add_mod' (offset + (a.value - 1)) a.value
  have hrest := Nat.mod_lt (offset + (a.value - 1)) hpos
  unfold roundUp
  refine ⟨⟨Nat.dvd_mul_left _ _, ?_⟩, ?_⟩
  · show offset ≤ (offset + (a.value - 1)) / a.value * a.value
    omega
  · rintro n ⟨⟨r, rfl⟩, hle⟩
    -- A multiple below the rounded one would leave the offset behind.
    rw [Nat.mul_comm]
    refine Nat.mul_le_mul_left _ (Nat.lt_succ_iff.1 ((Nat.div_lt_iff_lt_mul hpos).2 ?_))
    rw [Nat.succ_mul, Nat.mul_comm r]
    omega

/-- Rounding up is refused exactly when the least multiple is no word. -/
theorem align_eq_fit? (ha : a.IsPower) (hle : a.value ≤ addressSpace) (offset : Nat) :
    a.align offset = Word.fit? (a.roundUp offset) := by
  obtain ⟨k, hk⟩ := ha
  unfold align Word.add? roundUp
  rw [hk] at hle ⊢
  have hone := Nat.two_pow_pos k
  by_cases hlast : offset + (2 ^ k - 1) < addressSpace
  · have hdown := Nat.div_mul_le_self (offset + (2 ^ k - 1)) (2 ^ k)
    rw [Word.fit?, if_pos hlast, Option.map_some, and_mask_eq hlast hle, Word.fit?,
      if_pos (Nat.lt_of_le_of_lt hdown hlast)]
  · -- The address space is a multiple itself, so it is not above the least one.
    have hmultiple : addressSpace ≤ (offset + (2 ^ k - 1)) / 2 ^ k * 2 ^ k := by
      have hdvd : 2 ^ k ∣ addressSpace := by
        rw [addressSpace_eq] at hle ⊢
        exact Nat.pow_dvd_pow 2 ((Nat.pow_le_pow_iff_right (by omega)).1 hle)
      obtain ⟨r, hr⟩ := hdvd
      rw [hr, Nat.mul_comm]
      refine Nat.mul_le_mul_right _ ((Nat.le_div_iff_mul_le hone).2 ?_)
      rw [Nat.mul_comm, ← hr]
      omega
    rw [Word.fit?_eq_none_iff.2 (Nat.not_lt.1 hlast), Word.fit?_eq_none_iff.2 hmultiple]
    rfl

/-- The masked sum rounds up, where it fits. -/
theorem align_isRounded (ha : a.IsPower) {offset rounded : Nat}
    (h : a.align offset = some rounded) : a.IsRounded offset rounded := by
  have hle : a.value ≤ addressSpace := by
    obtain ⟨last, hlast, -⟩ := Option.map_eq_some_iff.1 h
    obtain ⟨hlt, -⟩ := Word.fit?_eq_some_iff.1 hlast
    omega
  rw [align_eq_fit? ha hle] at h
  obtain ⟨-, rfl⟩ := Word.fit?_eq_some_iff.1 h
  exact roundUp_isRounded ha offset

end Alignment

/-! ## Configurations -/

/-- In a valid configuration a pointer is aligned to its size, and so are the header of an object
and what precedes the pointer in it. -/
theorem LayoutConfig.of_validate {config : LayoutConfig} (h : config.validate = .ok ()) :
    config.pointerAlignment.value = config.pointerSize ∧ config.pointerAlignment.IsPower ∧
      config.pointerAlignment.value ∣ config.objectHeaderSize ∧
      config.pointerAlignment.value ∣ config.headerSize := by
  unfold validate at h
  split at h
  · cases h
  · next hpower =>
    split at h
    · cases h
    · next hheader =>
      obtain ⟨k, hk⟩ := Decidable.not_not.1 hpower
      have hvalue : config.pointerAlignment.value = config.pointerSize := by
        unfold pointerAlignment
        rw [hk]
        exact Alignment.natural_two_pow k
      have hdvd : config.pointerAlignment.value ∣ config.objectHeaderSize := by
        rw [hvalue]
        exact Nat.dvd_of_mod_eq_zero (Decidable.not_not.1 hheader)
      have hpointer : config.pointerAlignment.value ∣ config.pointerSize :=
        ⟨1, by rw [hvalue, Nat.mul_one]⟩
      have hpower : config.pointerAlignment.IsPower := Alignment.isPower_natural _
      exact ⟨hvalue, hpower, hdvd, hpower.dvd_wrap (Nat.dvd_add hdvd hpointer)⟩

/-- Pointers of a valid configuration take space. -/
theorem LayoutConfig.pointerSize_pos {config : LayoutConfig} (h : config.validate = .ok ()) :
    0 < config.pointerSize := by
  obtain ⟨hvalue, hpower, -⟩ := of_validate h
  rw [← hvalue]
  exact hpower.pos

/-- Where the header of an object fits into the address space, so does a pointer. -/
theorem LayoutConfig.HeaderFits.pointerSize_lt {config : LayoutConfig} (h : config.HeaderFits) :
    config.pointerSize < addressSpace :=
  Nat.lt_of_le_of_lt (Nat.le_add_left _ _) h

/-- Where it fits, the header of a valid configuration takes space. -/
theorem LayoutConfig.HeaderFits.headerSize_pos {config : LayoutConfig} (h : config.HeaderFits)
    (hvalid : config.validate = .ok ()) : 0 < config.headerSize := by
  rw [h.headerSize_eq]
  exact Nat.add_pos_right _ (pointerSize_pos hvalid)

end ObjectLayout
