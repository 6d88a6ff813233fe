import Unroll.Proofs.Instantiation.Complete
import Unroll.Proofs.Resolver.Indexing
import Unroll.Proofs.Table.Interning

/-!
# Elements of generic containers

A generic container and its elements are looked up apart from each other: the container among those
that the instantiation has recorded, and the type of its elements as a parameter or as another
container. Both are what substitution answers (`Settled.substitutes_unwrap`), and substitution in a
container answers the container of what it answers for the parts (`Substitutes.exists_valueType`).
So the two ways from a generic container to the type of a concrete element meet
(`Settled.valueType_unwrap`).
-/

namespace Unroll

theorem Container.valueType_mem_parts (c : Container) : c.valueType ∈ c.parts := by
  cases c <;> simp [valueType]

namespace Table

variable {subs : Bindings} {t t' t₁ : Table} {c : Container} {ty r : TypeId}

theorem valueType_of_internedAt (hstring : t.DeclaredAt TypeId.string.index)
    (hi : t.InternedAt c ty.index) : t.valueType ty = c.valueType :=
  valueType_of_container hi.kind? fun heq => hstring.not_internedAt (heq ▸ hi)

/-- The answer of interning is the id of the container in every later table. -/
theorem Extends.internedAt_intern (hext : Extends (t₁.intern c).2 t)
    (hs : t.size ≤ TypeId.capacity) (ty : TypeId) :
    t.InternedAt c ((t₁.intern c).1.wrappedLike ty).index := by
  rw [TypeId.index_wrappedLike]
  exact hext.internedAt (internedAt_index_intern (Nat.le_trans hext.size_le hs))

/-- Where substitution in a container adds nothing to the table, the answer holds what substitution
answers for the elements. -/
theorem Substitutes.exists_valueType (h : Substitutes subs t ty r t') (hext : Extends t' t)
    (hs : t.size ≤ TypeId.capacity) (hi : t.InternedAt c ty.index)
    (hg : ty.isGeneric = c.isGeneric) :
    ∃ c', t.InternedAt c' r.index ∧ Substitutes subs t c.valueType c'.valueType t := by
  have hc : ∀ {c'}, t.kind? ty = some (.container c') → c = c' := fun hk =>
    SymbolKind.container.inj (Option.some.inj (hi.kind?.symm.trans hk))
  cases h with
  | closed h =>
    refine ⟨c, hi, .closed (h.imp_right fun hty => ?_)⟩
    exact Container.isGeneric_eq_false_iff.1 (hg.symm.trans hty) _ c.valueType_mem_parts
  | unbound hk _ => exact absurd hi.kind? (hk c)
  | bound _ hk _ => cases hi.kind?.symm.trans hk
  | array _ _ hk he =>
    obtain rfl := hc hk
    obtain rfl := he.extends.antisymm ((extends_intern _ _).trans hext)
    exact ⟨_, hext.internedAt_intern hs ty, he⟩
  | fixedArray _ _ hk he =>
    obtain rfl := hc hk
    obtain rfl := he.extends.antisymm ((extends_intern _ _).trans hext)
    exact ⟨_, hext.internedAt_intern hs ty, he⟩
  | map _ _ hk h₁ h₂ =>
    obtain rfl := hc hk
    -- Neither the key nor the value has added anything.
    have hvalue := (extends_intern _ _).trans hext
    obtain rfl := h₁.extends.antisymm (h₂.extends.trans hvalue)
    obtain rfl := h₂.extends.antisymm hvalue
    exact ⟨_, hext.internedAt_intern hs ty, h₂⟩

end Table

open Table Instantiation

theorem Instantiation.Settled.valueType_unwrap {s : Instantiation} {t t' : Table} {c : Container}
    {ty : TypeId} (h : Settled t.genericContainers s t') (ht : t.WellFormed) (hext : Extends t t')
    (hc : t'.Canonical) (hkeys : s.BindsParams t) (hstring : t'.DeclaredAt TypeId.string.index)
    (hty : t.Sound ty) (hi : t.InternedAt c ty.index) :
    t'.valueType (s.unwrap ty) = s.unwrap c.valueType := by
  have rules : ∀ {ty}, t.Sound ty → Substitutes s.bindings t' ty (s.unwrap ty) t' :=
    h.substitutes_unwrap ht.toStratified hext hc hkeys
  obtain ⟨c', hi', hvalue⟩ := (rules hty).exists_valueType (.refl t') hc.size_le
    (hext.internedAt hi) (hty.isGeneric_eq hi.kind?)
  have hpart := rules (ht.sound_part hi.kind? _ c.valueType_mem_parts)
  rw [valueType_of_internedAt hstring hi', (hvalue.unique hpart).1]

/-- Indexing a parameter yields the type of the elements of its declared type. -/
theorem Resolver.getType_index_param (r : Resolver) {x : Ident} {v : Variable}
    (hx : x.isStatic = true) (hv : x.binding = some v) (hk : v.kind = .genericParam) (s : Span)
    (i : Expr) (span : Span) :
    r.getType (.index (.ident x s) i span) = .ok (r.elementType v.typ) := by
  have hobject : r.getType (.ident x s) = .ok v.typ := by
    rw [getType, hv, Option.elim_some, variableType, hk]
  rw [getType_index_of_ok hobject, isStatic, if_pos hx]

/-- The elements of what a container unwraps to are what its declared elements unwrap to, and so
indexing a parameter yields. -/
theorem valueType_unwrap_eq {calls : List Call} {t : Table} (run : WellBuilt calls t)
    {s : Instantiation} (hkeys : s.BindsParams t) {l : List TypeId}
    (hl : l.Perm t.genericContainers) :
    ∃ s' t', { s with containers := {} }.instantiateInOrder t l = some (s', t') ∧
      (t'.size ≤ TypeId.capacity → ∀ c id, t.interned? c = some id → ∀ other,
        ∃ elem, (c = .array elem ∨ (∃ size, c = .fixedArray elem size) ∨ ∃ key, c = .map key elem) ∧
          t'.valueType (id.wrappedLike other) = elem ∧
          t'.valueType (s'.unwrap (id.wrappedLike other)) =
            s'.unwrap (t'.valueType (id.wrappedLike other)) ∧
          ∀ r : Resolver, r.table = t' → r.instantiation = s' →
            ∀ x v, x.isStatic = true → x.binding = some v → v.kind = .genericParam →
              v.typ = id.wrappedLike other → ∀ identSpan i span,
                r.getType (.index (.ident x identSpan) i span) = .ok (s'.unwrap elem)) := by
  obtain ⟨ht, -⟩ := run.wellFormed
  obtain ⟨s', t', hrun, rules, hend⟩ := exists_settled ht.toStratified hl s
  have hext := rules.extends
  have hkeys' : s'.BindsParams t := hkeys.congr rules.bindings_eq
  refine ⟨s', t', hrun, fun hs c id hid other => ?_⟩
  obtain ⟨hc, hset⟩ := hend hs
  obtain ⟨i, hi, rfl⟩ := exists_internedAt_of_interned? hid
  have hidx : ((containerId c i).wrappedLike other).index = i := by
    rw [TypeId.index_wrappedLike, ht.index_containerId hi]
  have hstring : t'.DeclaredAt TypeId.string.index :=
    hext.persists.declaredAt ((run.persists canonical_initial).declaredAt
      (declaredAt_initial (by decide +kernel)))
  have hvalue := valueType_of_internedAt hstring (hidx.symm ▸ hext.internedAt hi)
  have hunwrap := hset.valueType_unwrap ht hext hc hkeys' hstring
    ((ht.sound_containerId hi).wrappedLike other) (hidx.symm ▸ hi)
  refine ⟨c.valueType, c.eq_of_valueType, hvalue, by rw [hunwrap, hvalue], ?_⟩
  rintro r rfl rfl x v hx hv hk hty identSpan index span
  rw [r.getType_index_param hx hv hk, hty]
  exact congrArg Except.ok hunwrap

/-- A parameter of type `!map[string]?[]T`. -/
def mapParam : Variable :=
  { name := "m", typ := sampleMap.1.wrappedLike (TypeId.void.set .result), kind := .genericParam }

/-- Where `T` stands for `?i32`, the values of `!map[string]?[]T` are of type `?[]?i32`. -/
theorem valueType_unwrap_eq_sample :
    ∃ s' t', sampleInstantiation.instantiateInOrder sampleMap.2 sampleOrder = some (s', t') ∧
      t'.describe (s'.unwrap mapParam.typ) = "!map[string]?[]?i32" ∧
      t'.describe (s'.unwrap (sampleArray.1.set .option)) = "?[]?i32" ∧
      t'.valueType (s'.unwrap mapParam.typ) = s'.unwrap (t'.valueType mapParam.typ) ∧
      ({ table := t', instantiation := s' } : Resolver).getType
        (.mkIndex (.ident (.ofVariable mapParam) {}) (.string "k" {})) =
          .ok (s'.unwrap (sampleArray.1.set .option)) := by
  have hkeys : sampleInstantiation.BindsParams sampleMap.2 := bindsParams_sample _
  obtain ⟨s', t', hrun, h⟩ := valueType_unwrap_eq wellBuilt_sample hkeys sampleOrder_perm
  obtain ⟨hsize, -, -, hname, helem⟩ := sampleInstantiation_end hrun
  have hid : sampleMap.2.interned? (.map .string (sampleArray.1.set .option)) = some sampleMap.1 :=
    interned?_intern _ _
  obtain ⟨elem, hdeclared, -, hvalue, hget⟩ :=
    h (by rw [hsize]; decide) _ _ hid (TypeId.void.set .result)
  obtain rfl : sampleArray.1.set .option = elem := by simpa using hdeclared
  exact ⟨s', t', hrun, hname, helem, hvalue,
    hget _ rfl rfl (.ofVariable mapParam) mapParam rfl rfl rfl rfl _ _ _⟩

end Unroll
