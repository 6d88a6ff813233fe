import Mathlib.Tactic.ByContra
import Mathlib.Tactic.SplitIfs
import Unroll.Table
import Unroll.TypeId.Lemmas

/-!
# Growth of a table

`Extends t t'` says that `t'` has every entry of `t` at its place, and `InternedAt t c i` that the
container `c` was interned at the index `i`. A table is `Canonical` when no container has two
indices and every index fits into an id. Interning a container extends the table, keeps it
canonical as long as there is room, and answers the id of the one index of the container.
-/

namespace Unroll

@[simp] theorem Container.parts_array (elem : TypeId) : (array elem).parts = [elem] := rfl

@[simp] theorem Container.parts_fixedArray (elem : TypeId) (size : Nat) :
    (fixedArray elem size).parts = [elem] := rfl

@[simp] theorem Container.parts_map (key value : TypeId) :
    (map key value).parts = [key, value] := rfl

namespace Table

variable {t t' t'' : Table} {c : Container} {ty : TypeId} {i j : Nat}

/-! ## Entries -/

theorem lt_size_of_entry {e : Entry} (h : t.entries[i]? = some e) : i < t.size :=
  (Array.getElem?_eq_some_iff.1 h).1

theorem exists_entry (h : i < t.size) : ∃ e, t.entries[i]? = some e :=
  ⟨_, Array.getElem?_eq_getElem h⟩

theorem entry_push (t : Table) (e : Entry) (j : Nat) :
    (t.push e).entries[j]? = if j = t.size then some e else t.entries[j]? :=
  Array.getElem?_push

@[simp] theorem size_push (t : Table) (e : Entry) : (t.push e).size = t.size + 1 :=
  Array.size_push e

theorem kind?_eq_some_iff {k : SymbolKind} :
    t.kind? ty = some k ↔ ∃ e, t.entries[ty.index]? = some e ∧ e.symbol.kind = k := by
  simp [kind?, symbol?]

theorem lt_size_of_kind? {k : SymbolKind} (h : t.kind? ty = some k) : ty.index < t.size := by
  obtain ⟨e, he, -⟩ := kind?_eq_some_iff.1 h
  exact lt_size_of_entry he

theorem kind?_congr {ty' : TypeId} (h : ty.index = ty'.index) : t.kind? ty = t.kind? ty' := by
  simp only [kind?, symbol?, h]

/-! ## Extension -/

/-- `t'` has every entry of `t` at its place. -/
def Extends (t t' : Table) : Prop :=
  ∀ (i : Nat) e, t.entries[i]? = some e → t'.entries[i]? = some e

theorem Extends.refl (t : Table) : Extends t t := fun _ _ h => h

theorem Extends.trans (h : Extends t t') (h' : Extends t' t'') : Extends t t'' :=
  fun i e he => h' i e (h i e he)

theorem Extends.antisymm (h : Extends t t') (h' : Extends t' t) : t = t' := by
  obtain ⟨entries⟩ := t
  obtain ⟨entries'⟩ := t'
  congr 1
  refine Array.ext_getElem? fun i => ?_
  rcases he : entries[i]? with _ | e
  · rcases he' : entries'[i]? with _ | e'
    · rfl
    · exact absurd (he.symm.trans (h' i e' he')) (by simp)
  · exact (h i e he).symm

theorem Extends.size_le (h : Extends t t') : t.size ≤ t'.size := by
  by_contra hlt
  obtain ⟨e, he⟩ := exists_entry (Nat.lt_of_not_le hlt)
  exact Nat.lt_irrefl _ (lt_size_of_entry (h _ e he))

theorem Extends.entry_eq (h : Extends t t') (hi : i < t.size) :
    t'.entries[i]? = t.entries[i]? := by
  obtain ⟨e, he⟩ := exists_entry hi
  rw [he, h i e he]

theorem Extends.symbol?_eq (h : Extends t t') (hty : ty.index < t.size) :
    t'.symbol? ty = t.symbol? ty := by
  rw [symbol?, symbol?, h.entry_eq hty]

theorem Extends.kind?_eq (h : Extends t t') (hty : ty.index < t.size) :
    t'.kind? ty = t.kind? ty := by
  rw [kind?, kind?, h.symbol?_eq hty]

theorem Extends.describe_eq (h : Extends t t') (hty : ty.index < t.size) :
    t'.describe ty = t.describe ty := by
  rw [describe, describe, h.symbol?_eq hty]

/-- The name of a container depends on how its parts are written. -/
theorem containerName_congr (h : ∀ p ∈ c.parts, t'.describe p = t.describe p) :
    t'.containerName c = t.containerName c := by
  cases c with
  | array elem => rw [containerName, containerName, h elem (by simp)]
  | fixedArray elem size => rw [containerName, containerName, h elem (by simp)]
  | map key value =>
    rw [containerName, containerName, h key (by simp), h value (by simp)]

theorem Extends.containerName_eq (h : Extends t t') (hc : ∀ p ∈ c.parts, p.index < t.size) :
    t'.containerName c = t.containerName c :=
  containerName_congr fun p hp => h.describe_eq (hc p hp)

theorem extends_push (t : Table) (e : Entry) : Extends t (t.push e) := by
  intro i e' he
  rw [entry_push, if_neg (Nat.ne_of_lt (lt_size_of_entry he)), he]

/-! ## Ids of containers -/

theorem index_containerId (h : i < TypeId.capacity) : (containerId c i).index = i := by
  unfold containerId
  split_ifs
  · rw [TypeId.index_set, TypeId.index_ofIndex_of_lt h]
  · exact TypeId.index_ofIndex_of_lt h

theorem index_containerId_le (c : Container) (i : Nat) : (containerId c i).index ≤ i := by
  have h : (containerId c i).index = i % TypeId.capacity := by
    unfold containerId
    split_ifs <;> simp
  rw [h]
  exact Nat.mod_le _ _

@[simp] theorem isOption_containerId (c : Container) (i : Nat) :
    (containerId c i).has .option = false := by
  unfold containerId
  split_ifs <;> simp

@[simp] theorem isResult_containerId (c : Container) (i : Nat) :
    (containerId c i).has .result = false := by
  unfold containerId
  split_ifs <;> simp

@[simp] theorem isGeneric_containerId (c : Container) (i : Nat) :
    (containerId c i).has .generic = c.isGeneric := by
  unfold containerId
  split_ifs with h <;> simp [h]

/-! ## Interned containers -/

/-- The container was interned at that index. -/
def InternedAt (t : Table) (c : Container) (i : Nat) : Prop :=
  ∃ e, t.entries[i]? = some e ∧ e.origin = .interned ∧ e.symbol.kind = .container c

theorem InternedAt.lt_size (h : t.InternedAt c i) : i < t.size := by
  obtain ⟨e, he, -⟩ := h
  exact lt_size_of_entry he

theorem InternedAt.kind? (h : t.InternedAt c ty.index) : t.kind? ty = some (.container c) := by
  obtain ⟨e, he, -, hk⟩ := h
  exact kind?_eq_some_iff.2 ⟨e, he, hk⟩

/-- An index holds one container. -/
theorem InternedAt.container_eq {c' : Container} (h : t.InternedAt c i) (h' : t.InternedAt c' i) :
    c = c' := by
  obtain ⟨e, he, -, hk⟩ := h
  obtain ⟨e', he', -, hk'⟩ := h'
  obtain rfl : e = e' := Option.some.inj (he.symm.trans he')
  exact SymbolKind.container.inj (hk.symm.trans hk')

theorem Extends.internedAt (h : Extends t t') (hc : t.InternedAt c i) : t'.InternedAt c i := by
  obtain ⟨e, he, ho, hk⟩ := hc
  exact ⟨e, h i e he, ho, hk⟩

/-- No container has two indices, and every index fits into an id. -/
structure Canonical (t : Table) : Prop where
  size_le : t.size ≤ TypeId.capacity
  unique : ∀ {c i j}, t.InternedAt c i → t.InternedAt c j → i = j

theorem Canonical.index_containerId (h : t.Canonical) (hc : t.InternedAt c i) :
    (containerId c i).index = i :=
  Table.index_containerId (Nat.lt_of_lt_of_le hc.lt_size h.size_le)

theorem interned?_eq_none_iff : t.interned? c = none ↔ ∀ i, ¬ t.InternedAt c i := by
  rw [interned?, Option.map_eq_none_iff, Array.findIdx?_eq_none_iff]
  constructor
  · rintro h i ⟨e, he, ho, hk⟩
    have := h e (Array.mem_of_getElem? he)
    simp [ho, hk] at this
  · intro h e he
    obtain ⟨i, hi⟩ := Array.getElem?_of_mem he
    by_contra hp
    simp only [Bool.not_eq_false, Bool.and_eq_true, beq_iff_eq] at hp
    exact h i ⟨e, hi, hp.1, hp.2⟩

theorem exists_internedAt_of_interned? (h : t.interned? c = some ty) :
    ∃ i, t.InternedAt c i ∧ ty = containerId c i := by
  obtain ⟨i, hi, rfl⟩ := Option.map_eq_some_iff.1 h
  obtain ⟨hlt, hp, -⟩ := Array.findIdx?_eq_some_iff_getElem.1 hi
  simp only [Bool.and_eq_true, beq_iff_eq] at hp
  exact ⟨i, ⟨_, Array.getElem?_eq_getElem hlt, hp.1, hp.2⟩, rfl⟩

theorem Canonical.interned?_eq_some_iff (h : t.Canonical) :
    t.interned? c = some ty ↔ ∃ i, t.InternedAt c i ∧ ty = containerId c i := by
  refine ⟨exists_internedAt_of_interned?, ?_⟩
  rintro ⟨i, hi, rfl⟩
  rcases hc : t.interned? c with _ | ty
  · exact absurd hi (interned?_eq_none_iff.1 hc i)
  · obtain ⟨j, hj, rfl⟩ := exists_internedAt_of_interned? hc
    rw [h.unique hi hj]

/-! ## Interning -/

/-- The entry that interning a new container adds. -/
def containerEntry (t : Table) (c : Container) : Entry :=
  ⟨{ name := t.containerName c, kind := .container c }, .interned⟩

theorem Extends.containerEntry_eq (h : Extends t t') (hc : ∀ p ∈ c.parts, p.index < t.size) :
    t'.containerEntry c = t.containerEntry c := by
  rw [containerEntry, h.containerName_eq hc, containerEntry]

theorem intern_of_interned? (h : t.interned? c = some ty) : t.intern c = (ty, t) := by
  rw [intern, h]

theorem intern_of_new (h : t.interned? c = none) :
    t.intern c = (containerId c t.size, t.push (t.containerEntry c)) := by
  rw [intern, h]
  rfl

theorem Canonical.intern_eq (h : t.Canonical) (hc : t.InternedAt c i) :
    t.intern c = (containerId c i, t) :=
  intern_of_interned? (h.interned?_eq_some_iff.2 ⟨i, hc, rfl⟩)

theorem extends_intern (t : Table) (c : Container) : Extends t (t.intern c).2 := by
  rcases h : t.interned? c with _ | ty
  · rw [intern_of_new h]
    exact extends_push _ _
  · rw [intern_of_interned? h]
    exact .refl t

theorem exists_internedAt_intern (t : Table) (c : Container) :
    ∃ i, (t.intern c).2.InternedAt c i ∧ (t.intern c).1 = containerId c i := by
  rcases h : t.interned? c with _ | ty
  · rw [intern_of_new h]
    exact ⟨t.size, ⟨t.containerEntry c, by rw [entry_push, if_pos rfl], rfl, rfl⟩, rfl⟩
  · rw [intern_of_interned? h]
    exact exists_internedAt_of_interned? h

/-- Below the new entry a push of a container holds the containers that were there. -/
theorem internedAt_push_iff {c' : Container} :
    (t.push (t.containerEntry c)).InternedAt c' i ↔ t.InternedAt c' i ∨ (i = t.size ∧ c' = c) := by
  constructor
  · rintro ⟨e, he, ho, hk⟩
    rw [entry_push] at he
    split_ifs at he with hi
    · cases he
      exact .inr ⟨hi, (SymbolKind.container.inj hk).symm⟩
    · exact .inl ⟨e, he, ho, hk⟩
  · rintro (h | ⟨rfl, rfl⟩)
    · exact (extends_push _ _).internedAt h
    · exact ⟨_, by rw [entry_push, if_pos rfl], rfl, rfl⟩

theorem internedAt_of_intern {c' : Container} (h : (t.intern c).2.InternedAt c' i) :
    t.InternedAt c' i ∨ c' = c := by
  rcases hc : t.interned? c with _ | id
  · rw [intern_of_new hc] at h
    exact (internedAt_push_iff.1 h).imp_right And.right
  · rw [intern_of_interned? hc] at h
    exact .inl h

/-- A container that an id refers to after interning was there before or is the one interned. -/
theorem kind?_of_intern {c' : Container} (hk : (t.intern c).2.kind? ty = some (.container c')) :
    t.kind? ty = some (.container c') ∨ (ty.index = t.size ∧ c' = c) := by
  rcases hc : t.interned? c with _ | id
  · rw [intern_of_new hc] at hk
    obtain ⟨e, he, hk⟩ := kind?_eq_some_iff.1 hk
    rw [entry_push] at he
    split_ifs at he with hi
    · cases he
      exact .inr ⟨hi, (SymbolKind.container.inj hk).symm⟩
    · exact .inl (kind?_eq_some_iff.2 ⟨e, he, hk⟩)
  · rw [intern_of_interned? hc] at hk
    exact .inl hk

/-- A container that was interned is found. -/
theorem interned?_intern (t : Table) (c : Container) :
    (t.intern c).2.interned? c = some (t.intern c).1 := by
  rcases h : t.interned? c with _ | ty
  · rw [intern_of_new h]
    rcases h' : (t.push (t.containerEntry c)).interned? c with _ | ty
    · exact absurd (internedAt_push_iff.2 (.inr ⟨rfl, rfl⟩)) (interned?_eq_none_iff.1 h' t.size)
    · obtain ⟨j, hj, rfl⟩ := exists_internedAt_of_interned? h'
      rcases internedAt_push_iff.1 hj with hj | ⟨rfl, -⟩
      · exact absurd hj (interned?_eq_none_iff.1 h j)
      · rfl
  · rw [intern_of_interned? h]
    exact h

theorem Canonical.intern (h : t.Canonical) (hs : (t.intern c).2.size ≤ TypeId.capacity) :
    (t.intern c).2.Canonical := by
  rcases hc : t.interned? c with _ | ty
  · rw [intern_of_new hc] at hs ⊢
    refine ⟨hs, fun {c' i j} hi hj => ?_⟩
    have new := interned?_eq_none_iff.1 hc
    rcases internedAt_push_iff.1 hi with hi | ⟨rfl, rfl⟩ <;>
      rcases internedAt_push_iff.1 hj with hj | ⟨rfl, hc'⟩
    · exact h.unique hi hj
    · exact absurd (hc' ▸ hi) (new i)
    · exact absurd hj (new j)
    · rfl
  · rw [intern_of_interned? hc]
    exact h

/-- The answer of interning has the index of the container. -/
theorem internedAt_index_intern (hs : (t.intern c).2.size ≤ TypeId.capacity) :
    (t.intern c).2.InternedAt c (t.intern c).1.index := by
  obtain ⟨i, hi, hty⟩ := exists_internedAt_intern t c
  rwa [hty, index_containerId (Nat.lt_of_lt_of_le hi.lt_size hs)]

theorem index_intern_lt (t : Table) (c : Container) :
    (t.intern c).1.index < (t.intern c).2.size := by
  obtain ⟨i, hi, hty⟩ := exists_internedAt_intern t c
  rw [hty]
  exact Nat.lt_of_le_of_lt (index_containerId_le c i) hi.lt_size

theorem intern_fst_eq (hs : (t.intern c).2.size ≤ TypeId.capacity) :
    (t.intern c).1 = containerId c (t.intern c).1.index := by
  obtain ⟨i, hi, hty⟩ := exists_internedAt_intern t c
  rw [hty, index_containerId (Nat.lt_of_lt_of_le hi.lt_size hs)]

end Table

end Unroll
