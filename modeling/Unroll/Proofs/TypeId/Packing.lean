import Unroll.TypeId.Lemmas

/-!
# The record in a word

An id is compared, stored and passed on as one word, and what it means is a record of an index and
three flags (`TypeId.record`). Each operation on words is the operation on records that its name
says (`record_perform`), and none reaches the bits above the flags (`Obtained.bit_eq_false`). So
words obtained by the operations are equal when their records are (`Obtained.ext`), and every record
is that of such a word (`obtained_pack`, `record_pack`): together, `packed_faithful`.
-/

namespace Unroll

theorem TypeFlag.place_lt (flag : TypeFlag) : flag.place < 27 := by
  cases flag <;> decide

/-- What an id says: the index of a symbol and the three flags, each free of the others. -/
structure TypeRecord where
  index : Fin TypeId.capacity
  option : Bool
  result : Bool
  generic : Bool
deriving DecidableEq

namespace TypeRecord

/-- The record of an index without flags. Indices are counted modulo the capacity. -/
def ofIndex (n : Nat) : TypeRecord :=
  { index := ⟨n % TypeId.capacity, Nat.mod_lt _ (by decide)⟩
    option := false, result := false, generic := false }

def withIndex (r : TypeRecord) (n : Nat) : TypeRecord := { r with index := (ofIndex n).index }

/-- Gives one flag a value. -/
def assign (r : TypeRecord) (flag : TypeFlag) (value : Bool) : TypeRecord :=
  match flag with
  | .option => { r with option := value }
  | .result => { r with result := value }
  | .generic => { r with generic := value }

def wrappedLike (r other : TypeRecord) : TypeRecord :=
  { r with option := r.option || other.option, result := r.result || other.result }

end TypeRecord

namespace TypeId

def record (ty : TypeId) : TypeRecord :=
  { index := ⟨ty.index, ty.index_lt⟩
    option := ty.isOption, result := ty.isResult, generic := ty.isGeneric }

theorem record_eq_iff {a b : TypeId} :
    a.record = b.record ↔ a.index = b.index ∧ ∀ flag, a.has flag = b.has flag := by
  constructor
  · intro h
    refine ⟨congrArg (·.index.val) h, fun flag => ?_⟩
    cases flag with
    | option => exact congrArg (·.option) h
    | result => exact congrArg (·.result) h
    | generic => exact congrArg (·.generic) h
  · rintro ⟨hindex, hflags⟩
    simp only [record, hindex, isOption, isResult, isGeneric, hflags]

/-! ## Operations -/

/-- The ways to make an id from another. -/
inductive Operation where
  | withIndex (n : Nat)
  | set (flag : TypeFlag)
  | clear (flag : TypeFlag)
  | wrappedLike (other : TypeId)

namespace Operation

def perform : Operation → TypeId → TypeId
  | withIndex n, ty => ty.withIndex n
  | set flag, ty => ty.set flag
  | clear flag, ty => ty.clear flag
  | wrappedLike other, ty => ty.wrappedLike other

/-- Gives a flag a value, by setting or by clearing it. -/
def assign (flag : TypeFlag) (value : Bool) : Operation := if value then set flag else clear flag

/-- What the operation means for the record of an id. -/
def revise : Operation → TypeRecord → TypeRecord
  | withIndex n, r => r.withIndex n
  | set flag, r => r.assign flag true
  | clear flag, r => r.assign flag false
  | wrappedLike other, r => r.wrappedLike other.record

end Operation

theorem record_ofIndex (n : Nat) : (ofIndex n).record = .ofIndex n := by
  simp [record, TypeRecord.ofIndex]

theorem record_assign (flag : TypeFlag) (value : Bool) (ty : TypeId) :
    ((Operation.assign flag value).perform ty).record = ty.record.assign flag value := by
  cases value <;> cases flag <;>
    simp [Operation.assign, Operation.perform, record, TypeRecord.assign]

/-- Performing an operation on a word and revising the record it stands for is the same. -/
theorem record_perform (op : Operation) (ty : TypeId) :
    (op.perform ty).record = op.revise ty.record := by
  cases op with
  | withIndex n =>
    simp [Operation.perform, Operation.revise, record, TypeRecord.withIndex, TypeRecord.ofIndex]
  | set flag => exact record_assign flag true ty
  | clear flag => exact record_assign flag false ty
  | wrappedLike other =>
    simp [Operation.perform, Operation.revise, record, TypeRecord.wrappedLike]

/-! ## Bits above the flags -/

/-- The predeclared ids. -/
def constants : List TypeId :=
  [void, bool, i8, i16, i32, i64, u8, u16, u32, u64, f32, f64, string]

/-- Ids that the operations make from the predeclared ones and from those of an index. -/
inductive Obtained : TypeId → Prop where
  | constant {ty : TypeId} (h : ty ∈ constants) : Obtained ty
  | ofIndex (n : Nat) : Obtained (ofIndex n)
  | perform {ty : TypeId} (op : Operation) (h : Obtained ty) : Obtained (op.perform ty)

theorem exists_ofIndex_of_mem_constants {ty : TypeId} (h : ty ∈ constants) :
    ∃ n, ty = ofIndex n := by
  simp only [constants, List.mem_cons, List.not_mem_nil, or_false] at h
  rcases h with rfl | rfl | rfl | rfl | rfl | rfl | rfl | rfl | rfl | rfl | rfl | rfl | rfl <;>
    exact ⟨_, rfl⟩

theorem bit_ofIndex_of_le (n : Nat) {i : Nat} (hi : 27 ≤ i) : (ofIndex n).bit i = false := by
  have h : ¬ i < 24 := by omega
  rw [bit_ofIndex, decide_eq_false h, Bool.false_and]

/-- An operation leaves the bits above the flags as they are. -/
theorem bit_perform_of_le (op : Operation) (ty : TypeId) {i : Nat} (hi : 27 ≤ i) :
    (op.perform ty).bit i = ty.bit i := by
  cases op with
  | withIndex n =>
    have h : ¬ i < 24 := by omega
    rw [Operation.perform, bit_withIndex, if_neg h]
  | set flag =>
    have h : i ≠ flag.place := by have := flag.place_lt; omega
    rw [Operation.perform, bit_set, decide_eq_false h, Bool.or_false]
  | clear flag =>
    have h : i ≠ flag.place := by have := flag.place_lt; omega
    rw [Operation.perform, bit_clear, decide_eq_true h, Bool.and_true]
  | wrappedLike other =>
    have h₁ : i ≠ 24 := by omega
    have h₂ : i ≠ 25 := by omega
    simp [Operation.perform, bit_wrappedLike, h₁, h₂]

theorem Obtained.bit_eq_false {ty : TypeId} (h : Obtained ty) {i : Nat} (hi : 27 ≤ i) :
    ty.bit i = false := by
  induction h with
  | constant h =>
    obtain ⟨n, rfl⟩ := exists_ofIndex_of_mem_constants h
    exact bit_ofIndex_of_le n hi
  | ofIndex n => exact bit_ofIndex_of_le n hi
  | perform op _ ih => rw [bit_perform_of_le op _ hi, ih]

/-! ## Words and records -/

/-- The bits of a word are those of its index, its flags and the bits above them. -/
theorem Obtained.ext {a b : TypeId} (ha : Obtained a) (hb : Obtained b)
    (h : a.record = b.record) : a = b := by
  obtain ⟨hindex, hflags⟩ := record_eq_iff.1 h
  refine eq_of_bit_eq fun i => ?_
  by_cases hlow : i < 24
  · have hbit := congrArg (·.testBit i) hindex
    simpa only [testBit_index, decide_eq_true hlow, Bool.true_and] using hbit
  by_cases hhigh : 27 ≤ i
  · rw [ha.bit_eq_false hhigh, hb.bit_eq_false hhigh]
  obtain ⟨flag, rfl⟩ : ∃ flag : TypeFlag, flag.place = i := by
    obtain rfl | rfl | rfl : i = 24 ∨ i = 25 ∨ i = 26 := by omega
    · exact ⟨.option, rfl⟩
    · exact ⟨.result, rfl⟩
    · exact ⟨.generic, rfl⟩
  rw [← has_eq_bit, ← has_eq_bit, hflags flag]

theorem Obtained.eq_iff {a b : TypeId} (ha : Obtained a) (hb : Obtained b) :
    a = b ↔ a.index = b.index ∧ ∀ flag, a.has flag = b.has flag := by
  rw [← record_eq_iff]
  exact ⟨fun h => h ▸ rfl, ha.ext hb⟩

theorem Obtained.isVoid_iff {ty : TypeId} (h : Obtained ty) :
    ty.isVoid ↔ ty.index = 0 ∧ ∀ flag, ty.has flag = false := by
  have hvoid : Obtained void := .ofIndex 0
  rw [isVoid, beq_iff_eq, h.eq_iff hvoid]
  simp only [void, index_ofIndex, Nat.zero_mod, has_ofIndex]

/-- The word of a record. -/
def pack (r : TypeRecord) : TypeId :=
  (Operation.assign .generic r.generic).perform <|
    (Operation.assign .result r.result).perform <|
      (Operation.assign .option r.option).perform (ofIndex r.index)

theorem obtained_pack (r : TypeRecord) : Obtained (pack r) :=
  .perform _ (.perform _ (.perform _ (.ofIndex _)))

theorem record_pack (r : TypeRecord) : (pack r).record = r := by
  have hindex : (TypeRecord.ofIndex r.index).index = r.index :=
    Fin.ext (Nat.mod_eq_of_lt r.index.isLt)
  rw [pack, record_assign, record_assign, record_assign, record_ofIndex]
  simp only [TypeRecord.assign, hindex]

/-- Words made by the operations are records of an index and three flags, faithfully, and each
operation does to the record what it says. -/
theorem packed_faithful :
    (∀ ty, Obtained ty → ∀ i, 27 ≤ i → ty.bit i = false) ∧
    (∀ a b, Obtained a → Obtained b →
      (a = b ↔ a.index = b.index ∧ ∀ flag, a.has flag = b.has flag)) ∧
    (∀ n, (ofIndex n).record = .ofIndex n) ∧
    (∀ op ty, (Operation.perform op ty).record = op.revise ty.record) ∧
    (∀ r : TypeRecord, ∃ ty, Obtained ty ∧ ty.record = r) ∧
    ∀ ty, Obtained ty → (ty.isVoid ↔ ty.index = 0 ∧ ∀ flag, ty.has flag = false) := by
  refine ⟨?_, ?_, record_ofIndex, record_perform, ?_, ?_⟩
  · intro ty h i hi
    exact h.bit_eq_false hi
  · intro a b ha hb
    exact ha.eq_iff hb
  · intro r
    exact ⟨pack r, obtained_pack r, record_pack r⟩
  · intro ty h
    exact h.isVoid_iff

/-- An index past the capacity, a flag set and cleared again and the option of another id, against
the same type made directly. -/
theorem packed_faithful_detour :
    let ty := (((ofIndex 0x1000004).set .generic).clear .generic).wrappedLike (string.set .option)
    ty.bit 31 = false ∧ ty = i32.set .option ∧ ty.isVoid = false := by
  obtain ⟨hbits, heq, -, -, -, hvoid⟩ := packed_faithful
  intro ty
  have hty : Obtained ty :=
    .perform (.wrappedLike (string.set .option))
      (.perform (.clear .generic) (.perform (.set .generic) (.ofIndex 0x1000004)))
  have hi32 : Obtained (i32.set .option) := .perform (.set .option) (.constant (by decide))
  refine ⟨hbits ty hty 31 (by decide), ?_, ?_⟩
  · refine (heq ty (i32.set .option) hty hi32).2 ⟨by decide, fun flag => ?_⟩
    cases flag with
    | option => decide
    | result => decide
    | generic => decide
  · rw [← Bool.not_eq_true, hvoid ty hty]
    rintro ⟨hindex, -⟩
    exact absurd hindex (by decide)

end TypeId

end Unroll
