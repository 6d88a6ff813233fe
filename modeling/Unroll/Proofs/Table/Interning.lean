import Unroll.Proofs.Table.Run

/-!
# Interned containers are canonical and permanent

In every run from the initial table, whatever is declared in it, a container keeps the id it was
first given, and its index is shared neither with another container nor with a declared symbol
(`interned_container_permanent`).
-/

namespace Unroll

namespace Table

variable {t : Table} {c : Container} {ty : TypeId}

/-! ## Element types of containers -/

theorem unalias_of_not_alias (hk : ∀ parent, t.kind? ty ≠ some (.aliasOf parent)) :
    t.unalias ty = ty := by
  unfold unalias aliasLimit
  rw [unaliasWithin]
  split
  · exact absurd ‹_› (hk _)
  · rfl

theorem valueType_of_container (hk : t.kind? ty = some (.container c))
    (hs : ty.index ≠ TypeId.string.index) : t.valueType ty = c.valueType := by
  obtain ⟨s, hsym, hkind⟩ := Option.map_eq_some_iff.1 hk
  have hc : s.container? = some c := by rw [Symbol.container?, hkind]
  unfold valueType
  rw [unalias_of_not_alias (by simp [hk])]
  simp [hs, hsym, hc]

end Table

/-! ## Answers along a run -/

namespace Run

variable {ok : List Call → Table → Operation → Prop} {t₀ t : Table} {calls : List Call}
  {c : Container} {ty : TypeId}

theorem internedAt_of_call (run : Run ok t₀ calls t) (h₀ : t₀.Canonical)
    (h : ⟨.intern c, some ty⟩ ∈ calls) : ∃ i, t.InternedAt c i ∧ ty = Table.containerId c i := by
  refine run.forall_call (A := fun call t => ∀ c ty, call = ⟨.intern c, some ty⟩ →
    ∃ i, t.InternedAt c i ∧ ty = Table.containerId c i) h₀ ?_ ?_ _ h c ty rfl
  · intro op answer t t' _ hp _ c ty heq
    cases heq
    cases hp
    exact Table.exists_internedAt_intern t c
  · intro call t t' hper hcall c ty heq
    obtain ⟨i, hi, hty⟩ := hcall c ty heq
    exact ⟨i, hper.internedAt hi, hty⟩

theorem declaredAt_of_call {op : Operation} (run : Run ok t₀ calls t) (h₀ : t₀.Canonical)
    (hop : op.symbol?.isSome) (h : ⟨op, some ty⟩ ∈ calls) : t.DeclaredAt ty.index := by
  refine run.forall_call (A := fun call t => ∀ op ty, op.symbol?.isSome → call = ⟨op, some ty⟩ →
    t.DeclaredAt ty.index) h₀ ?_ ?_ _ h op ty hop rfl
  · intro op answer t t' hc hp hc' op' ty hop heq
    cases heq
    obtain ⟨s, hs⟩ := Option.isSome_iff_exists.1 hop
    obtain ⟨rfl, ty', hty', hidx⟩ := Table.perform_of_symbol? hs hp
    cases hty'
    rw [hidx]
    exact Table.declaredAt_declare hc hc'.size_le
  · intro call t t' hper hcall op ty hop heq
    exact hper.declaredAt (hcall op ty hop heq)

end Run

/-! ## Permanence -/

/-- A container holds elements, or values of a map, of the type that indexing yields. -/
theorem Container.eq_of_valueType (c : Container) : c = .array c.valueType ∨
    (∃ size, c = .fixedArray c.valueType size) ∨ ∃ key, c = .map key c.valueType := by
  cases c <;> simp [valueType]

/-- An interned container keeps its id, the id keeps its parts, and no other type ever has its
index. -/
theorem interned_container_permanent {calls : List Call} {t : Table}
    (run : Run anyCall .initial calls t) {c : Container} {id : TypeId}
    (hcall : ⟨.intern c, some id⟩ ∈ calls) :
    t.intern c = (id, t) ∧ t.kind? id = some (.container c) ∧
      (c = .array (t.valueType id) ∨ (∃ size, c = .fixedArray (t.valueType id) size) ∨
        ∃ key, c = .map key (t.valueType id)) ∧
      id.isOption = false ∧ id.isResult = false ∧
      (id.isGeneric = true ↔ ∃ p ∈ c.parts, p.isGeneric = true) ∧
      (∀ c' id', ⟨.intern c', some id'⟩ ∈ calls → c' ≠ c → id'.index ≠ id.index) ∧
      (∀ op ty, op.symbol?.isSome → ⟨op, some ty⟩ ∈ calls → ty.index ≠ id.index) ∧
      ∀ name ty, t.findType? name = some ty → ty.index ≠ id.index := by
  have hc := run.canonical Table.canonical_initial
  obtain ⟨i, hi, rfl⟩ := run.internedAt_of_call Table.canonical_initial hcall
  have hidx := hc.index_containerId hi
  have hk : t.kind? (Table.containerId c i) = some (.container c) :=
    Table.InternedAt.kind? (hidx.symm ▸ hi)
  have apart : ∀ {j}, t.DeclaredAt j → j ≠ i := by
    rintro j hj rfl
    exact hj.not_internedAt hi
  have hvalue : t.valueType (Table.containerId c i) = c.valueType := by
    refine Table.valueType_of_container hk ?_
    rw [hidx]
    exact (apart ((run.persists Table.canonical_initial).declaredAt
      (Table.declaredAt_initial (by decide +kernel)))).symm
  refine ⟨hc.intern_eq hi, hk, ?_, by simp, by simp, by simp [Container.isGeneric], ?_, ?_, ?_⟩
  · rw [hvalue]
    exact c.eq_of_valueType
  · intro c' id' hcall' hne heq
    obtain ⟨j, hj, rfl⟩ := run.internedAt_of_call Table.canonical_initial hcall'
    rw [hc.index_containerId hj, hidx] at heq
    subst heq
    exact hne (hj.container_eq hi)
  · intro op ty hop hcall'
    rw [hidx]
    exact apart (run.declaredAt_of_call Table.canonical_initial hop hcall')
  · intro name ty hty
    rw [hidx]
    exact apart (Table.declaredAt_findType? hc hty)

theorem interned_container_permanent_sample :
    sampleMap.2.intern (.array sampleParam.1) = (sampleArray.1, sampleMap.2) ∧
      sampleMap.2.valueType sampleArray.1 = sampleParam.1 ∧
      sampleMap.2.valueType sampleMap.1 = sampleArray.1.set .option ∧
      sampleArray.1.isGeneric = true ∧ sampleMap.1.index ≠ sampleArray.1.index := by
  obtain ⟨hagain, -, helem, -, -, hgeneric, hother, -⟩ :=
    interned_container_permanent run_sample sampleArray_mem
  obtain ⟨-, -, hvalue, -⟩ := interned_container_permanent run_sample
    (c := .map .string (sampleArray.1.set .option)) List.mem_cons_self
  refine ⟨hagain, by simpa [eq_comm] using helem, by simpa [eq_comm] using hvalue,
    hgeneric.2 ⟨sampleParam.1, List.mem_cons_self, by decide +kernel⟩, ?_⟩
  exact hother _ _ List.mem_cons_self (by simp)

end Unroll
