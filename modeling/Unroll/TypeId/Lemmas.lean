import Unroll.TypeId

/-!
What each operation on ids does to the index and to the flags. All of it is read off the bits of the
word: the index is the low 24 of them and a flag is the bit at its place.
-/

namespace Unroll

/-- The place of a flag in the word. -/
def TypeFlag.place : TypeFlag → Nat
  | .option => 24
  | .result => 25
  | .generic => 26

theorem TypeFlag.testBit_mask (flag : TypeFlag) (i : Nat) :
    flag.mask.toNat.testBit i = decide (i = flag.place) := by
  have h : flag.mask.toNat = 2 ^ flag.place := by cases flag <;> rfl
  rw [h, Nat.testBit_two_pow]
  exact decide_eq_decide.mpr eq_comm

theorem TypeFlag.place_inj {a b : TypeFlag} : a.place = b.place ↔ a = b := by
  cases a <;> cases b <;> decide

theorem TypeFlag.le_place (flag : TypeFlag) : 24 ≤ flag.place := by
  cases flag <;> decide

namespace TypeId

/-! ## Bits of the word -/

def bit (ty : TypeId) (i : Nat) : Bool := ty.bits.toNat.testBit i

theorem eq_of_bits_eq {a b : TypeId} (h : a.bits = b.bits) : a = b := by
  cases a
  cases b
  exact congrArg mk h

theorem eq_of_bit_eq {a b : TypeId} (h : ∀ i, a.bit i = b.bit i) : a = b :=
  eq_of_bits_eq (UInt32.toNat_inj.mp (Nat.eq_of_testBit_eq h))

theorem bit_of_le (ty : TypeId) {i : Nat} (h : 32 ≤ i) : ty.bit i = false := by
  have hlt : ty.bits.toNat < 2 ^ i :=
    Nat.lt_of_lt_of_le ty.bits.toNat_lt (Nat.pow_le_pow_right (by decide) h)
  exact Nat.testBit_lt_two_pow hlt

theorem testBit_indexMask (i : Nat) : indexMask.toNat.testBit i = decide (i < 24) :=
  Nat.testBit_two_pow_sub_one 24 i

theorem testBit_not_indexMask (i : Nat) :
    (~~~indexMask).toNat.testBit i = (decide (24 ≤ i) && decide (i < 32)) := by
  have h : (~~~indexMask).toNat = (2 ^ 8 - 1) <<< 24 := rfl
  rw [h, Nat.testBit_shiftLeft, Nat.testBit_two_pow_sub_one]
  by_cases h : 24 ≤ i
  · simp only [h, decide_true, Bool.true_and, decide_eq_decide]
    omega
  · simp [h]

theorem testBit_wrapperMask (i : Nat) :
    wrapperMask.toNat.testBit i = (decide (i = 24) || decide (i = 25)) := by
  rw [wrapperMask, UInt32.toNat_or, Nat.testBit_or, TypeFlag.testBit_mask, TypeFlag.testBit_mask]
  rfl

theorem testBit_not_mask (flag : TypeFlag) (i : Nat) :
    (~~~flag.mask).toNat.testBit i = (decide (i < 32) && decide (i ≠ flag.place)) := by
  have h : (~~~flag.mask).toNat = UInt32.size - (flag.mask.toNat + 1) := by
    rw [UInt32.toNat_not, Nat.sub_sub, Nat.add_comm]
  rw [h, decide_not, ← TypeFlag.testBit_mask]
  exact Nat.testBit_two_pow_sub_succ flag.mask.toNat_lt i

theorem testBit_ofNat (n i : Nat) :
    (UInt32.ofNat n).toNat.testBit i = (decide (i < 32) && n.testBit i) := by
  rw [UInt32.toNat_ofNat', Nat.testBit_mod_two_pow]

theorem bit_ofIndex (n i : Nat) : (ofIndex n).bit i = (decide (i < 24) && n.testBit i) := by
  rw [bit, ofIndex, UInt32.toNat_and, Nat.testBit_and, testBit_ofNat, testBit_indexMask]
  by_cases h : i < 24
  · have h' : i < 32 := by omega
    simp [h, h']
  · simp [h]

theorem bit_withIndex (ty : TypeId) (n i : Nat) :
    (ty.withIndex n).bit i = if i < 24 then n.testBit i else ty.bit i := by
  rw [bit, withIndex, UInt32.toNat_or, Nat.testBit_or, UInt32.toNat_and, UInt32.toNat_and,
    Nat.testBit_and, Nat.testBit_and, testBit_ofNat, testBit_indexMask, testBit_not_indexMask]
  by_cases h : i < 24
  · have h' : i < 32 := by omega
    simp [h, h', Nat.not_le.mpr h]
  · by_cases h' : i < 32
    · simp [h, h', bit, Nat.le_of_not_lt h]
    · simp [h, h', ty.bit_of_le (Nat.le_of_not_lt h')]

theorem bit_set (ty : TypeId) (flag : TypeFlag) (i : Nat) :
    (ty.set flag).bit i = (ty.bit i || decide (i = flag.place)) := by
  rw [bit, set, UInt32.toNat_or, Nat.testBit_or, TypeFlag.testBit_mask, bit]

theorem bit_clear (ty : TypeId) (flag : TypeFlag) (i : Nat) :
    (ty.clear flag).bit i = (ty.bit i && decide (i ≠ flag.place)) := by
  rw [bit, clear, UInt32.toNat_and, Nat.testBit_and, testBit_not_mask, ← bit]
  by_cases h : i < 32
  · simp [h]
  · simp [h, ty.bit_of_le (Nat.le_of_not_lt h)]

theorem bit_wrappedLike (ty other : TypeId) (i : Nat) :
    (ty.wrappedLike other).bit i =
      (ty.bit i || (other.bit i && (decide (i = 24) || decide (i = 25)))) := by
  rw [bit, wrappedLike, UInt32.toNat_or, Nat.testBit_or, UInt32.toNat_and, Nat.testBit_and,
    testBit_wrapperMask, bit, bit]

/-! ## Index -/

theorem index_eq_mod (ty : TypeId) : ty.index = ty.bits.toNat % capacity := by
  rw [index, UInt32.toNat_and]
  exact Nat.and_two_pow_sub_one_eq_mod _ 24

theorem index_lt (ty : TypeId) : ty.index < capacity := by
  rw [index_eq_mod]
  exact Nat.mod_lt _ (by decide)

theorem testBit_index (ty : TypeId) (i : Nat) :
    ty.index.testBit i = (decide (i < 24) && ty.bit i) := by
  rw [index, UInt32.toNat_and, Nat.testBit_and, testBit_indexMask, Bool.and_comm, bit]

theorem index_eq_of_bit_eq {a b : TypeId} (h : ∀ i < 24, a.bit i = b.bit i) :
    a.index = b.index := by
  refine Nat.eq_of_testBit_eq fun i => ?_
  rw [testBit_index, testBit_index]
  by_cases hi : i < 24
  · rw [h i hi]
  · simp [hi]

@[simp] theorem index_ofIndex (n : Nat) : (ofIndex n).index = n % capacity := by
  refine Nat.eq_of_testBit_eq fun i => ?_
  rw [testBit_index, bit_ofIndex, show capacity = 2 ^ 24 from rfl, Nat.testBit_mod_two_pow]
  simp

theorem index_ofIndex_of_lt {n : Nat} (h : n < capacity) : (ofIndex n).index = n := by
  rw [index_ofIndex, Nat.mod_eq_of_lt h]

@[simp] theorem index_withIndex (ty : TypeId) (n : Nat) :
    (ty.withIndex n).index = n % capacity := by
  rw [← index_ofIndex]
  refine index_eq_of_bit_eq fun i hi => ?_
  rw [bit_withIndex, bit_ofIndex, if_pos hi, decide_eq_true hi, Bool.true_and]

@[simp] theorem index_set (ty : TypeId) (flag : TypeFlag) : (ty.set flag).index = ty.index := by
  refine index_eq_of_bit_eq fun i hi => ?_
  have h : i ≠ flag.place := by have := flag.le_place; omega
  rw [bit_set, decide_eq_false h, Bool.or_false]

@[simp] theorem index_clear (ty : TypeId) (flag : TypeFlag) :
    (ty.clear flag).index = ty.index := by
  refine index_eq_of_bit_eq fun i hi => ?_
  have h : i ≠ flag.place := by have := flag.le_place; omega
  rw [bit_clear, decide_eq_true h, Bool.and_true]

@[simp] theorem index_wrappedLike (ty other : TypeId) :
    (ty.wrappedLike other).index = ty.index := by
  refine index_eq_of_bit_eq fun i hi => ?_
  have h₁ : i ≠ 24 := by omega
  have h₂ : i ≠ 25 := by omega
  simp [bit_wrappedLike, h₁, h₂]

/-! ## Flags -/

theorem testBit_and_mask (ty : TypeId) (flag : TypeFlag) (i : Nat) :
    (ty.bits &&& flag.mask).toNat.testBit i = (ty.bit i && decide (i = flag.place)) := by
  rw [UInt32.toNat_and, Nat.testBit_and, TypeFlag.testBit_mask, bit]

theorem has_eq_bit (ty : TypeId) (flag : TypeFlag) : ty.has flag = ty.bit flag.place := by
  have h := ty.testBit_and_mask flag
  cases hb : ty.bit flag.place
  · have h0 : (ty.bits &&& flag.mask).toNat = 0 := by
      refine Nat.eq_of_testBit_eq fun i => ?_
      rw [h, Nat.zero_testBit]
      by_cases hi : i = flag.place
      · rw [hi, hb, Bool.false_and]
      · rw [decide_eq_false hi, Bool.and_false]
    rw [has, bne_eq_false_iff_eq]
    exact UInt32.toNat_inj.mp h0
  · rw [has, bne_iff_ne]
    intro h0
    have := h flag.place
    rw [h0, hb, UInt32.toNat_zero, Nat.zero_testBit] at this
    simp at this

@[simp] theorem has_ofIndex (n : Nat) (flag : TypeFlag) : (ofIndex n).has flag = false := by
  have h : ¬ flag.place < 24 := Nat.not_lt.mpr flag.le_place
  rw [has_eq_bit, bit_ofIndex, decide_eq_false h, Bool.false_and]

@[simp] theorem has_withIndex (ty : TypeId) (n : Nat) (flag : TypeFlag) :
    (ty.withIndex n).has flag = ty.has flag := by
  rw [has_eq_bit, bit_withIndex, if_neg (Nat.not_lt.mpr flag.le_place), ← has_eq_bit]

@[simp] theorem has_set (ty : TypeId) (f g : TypeFlag) :
    (ty.set f).has g = (ty.has g || decide (g = f)) := by
  rw [has_eq_bit, bit_set, ← has_eq_bit, decide_eq_decide.mpr TypeFlag.place_inj]

@[simp] theorem has_clear (ty : TypeId) (f g : TypeFlag) :
    (ty.clear f).has g = (ty.has g && decide (g ≠ f)) := by
  rw [has_eq_bit, bit_clear, ← has_eq_bit]
  exact congrArg _ (decide_eq_decide.mpr (not_congr TypeFlag.place_inj))

@[simp] theorem isOption_wrappedLike (ty other : TypeId) :
    (ty.wrappedLike other).has .option = (ty.has .option || other.has .option) := by
  simp [has_eq_bit, bit_wrappedLike, TypeFlag.place]

@[simp] theorem isResult_wrappedLike (ty other : TypeId) :
    (ty.wrappedLike other).has .result = (ty.has .result || other.has .result) := by
  simp [has_eq_bit, bit_wrappedLike, TypeFlag.place]

@[simp] theorem isGeneric_wrappedLike (ty other : TypeId) :
    (ty.wrappedLike other).has .generic = ty.has .generic := by
  simp [has_eq_bit, bit_wrappedLike, TypeFlag.place]

theorem has_wrappedLike {flag : TypeFlag} (h : flag ≠ .generic) (ty other : TypeId) :
    (ty.wrappedLike other).has flag = (ty.has flag || other.has flag) := by
  cases flag with
  | option => exact isOption_wrappedLike ty other
  | result => exact isResult_wrappedLike ty other
  | generic => exact absurd rfl h

/-! ## Wrapping -/

theorem wrappedLike_assoc (a b other : TypeId) :
    (a.wrappedLike b).wrappedLike other = a.wrappedLike (b.wrappedLike other) := by
  refine eq_of_bit_eq fun i => ?_
  simp only [bit_wrappedLike]
  cases a.bit i <;> cases b.bit i <;> cases decide (i = 24) <;> cases decide (i = 25) <;> simp

theorem wrappedLike_of_unwrapped (ty : TypeId) {other : TypeId} (ho : other.has .option = false)
    (hr : other.has .result = false) : ty.wrappedLike other = ty := by
  refine eq_of_bit_eq fun i => ?_
  have h₁ : other.bit 24 = false := has_eq_bit other .option ▸ ho
  have h₂ : other.bit 25 = false := has_eq_bit other .result ▸ hr
  rw [bit_wrappedLike]
  by_cases hi : i = 24
  · simp [hi, h₁]
  · by_cases hi' : i = 25
    · simp [hi', h₂]
    · simp [hi, hi']

theorem wrappedLike_congr (ty : TypeId) {a b : TypeId} (ho : a.has .option = b.has .option)
    (hr : a.has .result = b.has .result) : ty.wrappedLike a = ty.wrappedLike b := by
  refine eq_of_bit_eq fun i => ?_
  have h₁ : a.bit 24 = b.bit 24 := has_eq_bit a .option ▸ has_eq_bit b .option ▸ ho
  have h₂ : a.bit 25 = b.bit 25 := has_eq_bit a .result ▸ has_eq_bit b .result ▸ hr
  rw [bit_wrappedLike, bit_wrappedLike]
  by_cases hi : i = 24
  · simp [hi, h₁]
  · by_cases hi' : i = 25
    · simp [hi', h₂]
    · simp [hi, hi']

/-- A type has its own wrappers already. -/
theorem wrappedLike_wrappedLike_self (ty other : TypeId) :
    ty.wrappedLike (ty.wrappedLike other) = ty.wrappedLike other := by
  refine eq_of_bit_eq fun i => ?_
  simp only [bit_wrappedLike]
  cases ty.bit i <;> simp

theorem wrappedLike_clear {ty : TypeId} {flag : TypeFlag} (h : ty.has flag = false)
    (other : TypeId) : ty.wrappedLike (other.clear flag) = (ty.wrappedLike other).clear flag := by
  refine eq_of_bit_eq fun i => ?_
  rw [has_eq_bit] at h
  simp only [bit_wrappedLike, bit_clear]
  by_cases hi : i = flag.place
  · simp [hi, h]
  · simp [hi]

/-- Setting a flag that wraps is wrapping in the plain type of that flag. -/
theorem set_eq_wrappedLike (ty : TypeId) {flag : TypeFlag} (h : flag ≠ .generic) :
    ty.set flag = ty.wrappedLike (void.set flag) := by
  refine eq_of_bit_eq fun i => ?_
  rw [bit_set, bit_wrappedLike, bit_set, void, bit_ofIndex]
  cases flag with
  | option => by_cases hi : i = 24 <;> simp [hi, TypeFlag.place]
  | result => by_cases hi : i = 25 <;> simp [hi, TypeFlag.place]
  | generic => exact absurd rfl h

end TypeId

end Unroll
