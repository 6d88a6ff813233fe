import Unroll.Proofs.Instantiation.Loop

/-!
# Unwrapping agrees with substitution

After an instantiation two ways lead from a generic type to a concrete one: a look-up in what the
instantiation records, and substitution in the table. They give the same id for every type issued
before, and types made later are left alone until the next instantiation (`unwrap_eq_substitute`).
This holds in whatever order the instantiation has visited the generic containers.
-/

namespace Unroll

namespace Table

variable {t t' : Table} {c : Container} {k : Nat}

/-- The index holds a symbol that is no interned container. -/
def NoContainerAt (t : Table) (k : Nat) : Prop := k < t.size ∧ ∀ c, ¬ t.InternedAt c k

theorem noContainerAt_of_param {e : Entry} (he : t.entries[k]? = some e)
    (hk : e.symbol.kind = .genericParam) : t.NoContainerAt k := by
  refine ⟨lt_size_of_entry he, ?_⟩
  rintro c ⟨e', he', -, hk'⟩
  obtain rfl : e = e' := Option.some.inj (he.symm.trans he')
  cases hk.symm.trans hk'

theorem NoContainerAt.persists (h : t.NoContainerAt k) (hper : Persists t t') :
    t'.NoContainerAt k :=
  ⟨Nat.lt_of_lt_of_le h.1 hper.size_le, fun c hi => h.2 c ((hper.internedAt_iff h.1).1 hi)⟩

end Table

namespace Instantiation

open Table

variable {s s' s₀ : Instantiation} {t t' t₀ : Table} {ty : TypeId} {c : Container}

/-- Only generic parameters of the table are bound. -/
def BindsParams (s : Instantiation) (t : Table) : Prop :=
  ∀ (k : Nat) b, s.bindings[k]? = some b →
    ∃ e, t.entries[k]? = some e ∧ e.symbol.kind = .genericParam

theorem BindsParams.congr (h : s.BindsParams t) (hb : s'.bindings = s.bindings) :
    s'.BindsParams t := fun k b hk => h k b (hb ▸ hk)

theorem BindsParams.kind? {b : TypeId} (h : s.BindsParams t)
    (hb : s.bindings[ty.index]? = some b) : t.kind? ty = some .genericParam :=
  kind?_eq_some_iff.2 (h _ b hb)

theorem BindsParams.eq_none (h : s.BindsParams t) (hk : t.kind? ty ≠ some .genericParam) :
    s.bindings[ty.index]? = none :=
  Option.eq_none_iff_forall_ne_some.2 fun _ hb => hk (h.kind? hb)

/-! ## Types issued before -/

/-- Where the generic containers are settled, unwrapping a type follows the rules of substitution,
and these add nothing to the table. -/
theorem Settled.substitutes_unwrap (h : Settled t.genericContainers s t') (ht : t.Stratified)
    (hext : Extends t t') (hc : t'.Canonical) (hkeys : s.BindsParams t) (hty : t.Sound ty) :
    Substitutes s.bindings t' ty (s.unwrap ty) t' := by
  by_cases hg : ty.isGeneric = true
  · rw [unwrap, if_pos hg]
    by_cases hk : ∃ c, t.kind? ty = some (.container c)
    · obtain ⟨c, hk⟩ := hk
      have hi := ht.internedAt hk
      have hidx := ht.index_containerId hi
      have heq := hty.eq_containerId hk
      have hnone : s.bindings[ty.index]? = none := hkeys.eq_none (by simp [hk])
      have hmem : containerId c ty.index ∈ t.genericContainers :=
        mem_genericContainers.2 ⟨c, _, hi, hty.isGeneric_eq hk ▸ hg, rfl⟩
      obtain ⟨r, hr, hrec⟩ := h.answer _ hmem
      have hwrapped := hr.wrappedLike ty
      rw [← heq] at hwrapped
      rw [hidx] at hrec
      rw [hnone, hrec]
      split_ifs with hsame
      · -- What is not recorded is the container itself.
        have hself : r = containerId c ty.index :=
          hr.eq_of_index_eq hc (hidx.symm ▸ hext.internedAt hi) (by rw [hidx])
            (hsame.trans hidx.symm)
        rwa [hself, ← heq] at hwrapped
      · exact hwrapped
    · have hleaf : ∀ c, t'.kind? ty ≠ some (.container c) := fun c hc =>
        hk ⟨c, (hext.kind?_eq hty.lt_size).symm.trans hc⟩
      have hnone : s.containers[ty.index]? = none := by
        refine h.containers_eq_none fun g hmem hgi => ?_
        obtain ⟨c, hi, -⟩ := ht.internedAt_of_mem hmem
        exact hk ⟨c, (hgi ▸ hi).kind?⟩
      rcases hb : s.bindings[ty.index]? with _ | b
      · rw [hnone]
        exact .unbound hleaf fun _ => hb
      · exact .bound hg ((hext.kind?_eq hty.lt_size).trans (hkeys.kind? hb)) hb
  · rw [unwrap, if_neg hg]
    exact .closed (.inr (by simpa using hg))

/-! ## Types made later -/

/-- What an instantiation and a table become until the next instantiation: by operations on the
table, bindings of generic parameters and clearing. -/
inductive Continues (s₀ : Instantiation) (t₀ : Table) : Instantiation → Table → Prop where
  | start : Continues s₀ t₀ s₀ t₀
  | perform {s : Instantiation} {t t' : Table} {op : Operation} {answer : Option TypeId}
      (h : Continues s₀ t₀ s t) (hp : op.perform t = some (answer, t'))
      (hs : t'.size ≤ TypeId.capacity) : Continues s₀ t₀ s t'
  | bind {s : Instantiation} {t : Table} {param : TypeId} (h : Continues s₀ t₀ s t)
      (hk : t.kind? param = some .genericParam) (ty : TypeId) : Continues s₀ t₀ (s.bind param ty) t
  | clear {s : Instantiation} {t : Table} (h : Continues s₀ t₀ s t) : Continues s₀ t₀ s.clear t

/-- What holds until the next instantiation. -/
structure Kept (s₀ : Instantiation) (t₀ : Table) (s : Instantiation) (t : Table) : Prop where
  canonical : t.Canonical
  persists : Persists t₀ t
  bindings : ∀ (k : Nat) b, s.bindings[k]? = some b → t.NoContainerAt k
  containers : ∀ (k : Nat) r, s.containers[k]? = some r → s₀.containers[k]? = some r

theorem Continues.kept (h : Continues s₀ t₀ s t) (hc : t₀.Canonical)
    (hkeys : ∀ (k : Nat) b, s₀.bindings[k]? = some b → t₀.NoContainerAt k) : Kept s₀ t₀ s t := by
  induction h with
  | start => exact ⟨hc, .refl t₀, hkeys, fun _ _ hk => hk⟩
  | perform _ hp hs ih =>
    obtain ⟨hc', hper⟩ := ih.canonical.perform hp hs
    exact ⟨hc', ih.persists.trans hper, fun k b hb => (ih.bindings k b hb).persists hper,
      ih.containers⟩
  | @bind s t param _ hk ty ih =>
    refine ⟨ih.canonical, ih.persists, fun k b hb => ?_, ih.containers⟩
    by_cases hparam : param.index = k
    · obtain ⟨e, he, hkind⟩ := kind?_eq_some_iff.1 hk
      exact noContainerAt_of_param (hparam ▸ he) hkind
    · refine ih.bindings k b ?_
      simpa [Instantiation.bind, Std.TreeMap.getElem?_insert, hparam] using hb
  | clear _ ih => exact ⟨ih.canonical, ih.persists, by simp [Instantiation.clear],
      by simp [Instantiation.clear]⟩

/-- A container at an index about which nothing is recorded or bound unwraps to itself. -/
theorem unwrap_of_none (hb : s.bindings[ty.index]? = none) (hc : s.containers[ty.index]? = none) :
    s.unwrap ty = ty := by
  rw [unwrap, hb, hc]
  split_ifs <;> rfl

theorem Kept.unwrap_eq_self {id : TypeId} (h : Kept s₀ t₀ s t) (ht : Stratified t')
    (hset : Settled t'.genericContainers s₀ t₀) (hext : Extends t' t₀)
    (hnew : t₀.interned? c = none) (hid : t.interned? c = some id) (other : TypeId) :
    s.unwrap (id.wrappedLike other) = id.wrappedLike other := by
  obtain ⟨i, hi, rfl⟩ := exists_internedAt_of_interned? hid
  have hidx : ((containerId c i).wrappedLike other).index = i := by
    rw [TypeId.index_wrappedLike, h.canonical.index_containerId hi]
  refine unwrap_of_none ?_ ?_ <;> rw [hidx]
  · exact Option.eq_none_iff_forall_ne_some.2 fun b hb => (h.bindings i b hb).2 c hi
  · refine Option.eq_none_iff_forall_ne_some.2 fun r hr => ?_
    -- What is recorded at `i` is a container of the table before, and it is still there.
    obtain ⟨g, hmem, rfl⟩ := hset.visited i r (h.containers i r hr)
    obtain ⟨c', hi', -⟩ := ht.internedAt_of_mem hmem
    obtain rfl := (h.persists.internedAt (hext.internedAt hi')).container_eq hi
    exact interned?_eq_none_iff.1 hnew _ (hext.internedAt hi')

end Instantiation

open Table Instantiation

/-- After an instantiation, types issued before it unwrap to what substitution answers, and
containers interned later unwrap to themselves. -/
theorem unwrap_eq_substitute {calls : List Call} {t : Table} (run : WellBuilt calls t)
    {s : Instantiation} (hkeys : s.BindsParams t) {l : List TypeId}
    (hl : l.Perm t.genericContainers) :
    ∃ s' t', { s with containers := {} }.instantiateInOrder t l = some (s', t') ∧
      (t'.size ≤ TypeId.capacity →
        (∀ ty, Issued calls ty → t'.substitute s.bindings ty = some (s'.unwrap ty, t')) ∧
        ∀ s'' t'', Continues s' t' s'' t'' → ∀ c id, t'.interned? c = none →
          t''.interned? c = some id → ∀ other,
            s''.unwrap (id.wrappedLike other) = id.wrappedLike other) := by
  obtain ⟨ht, hsound⟩ := run.wellFormed
  obtain ⟨s', t', hrun, rules, hend⟩ := exists_settled ht.toStratified hl s
  have hext := rules.extends
  have hb : s'.bindings = s.bindings := rules.bindings_eq
  have hkeys' : s'.BindsParams t := hkeys.congr hb
  refine ⟨s', t', hrun, fun hs => ?_⟩
  obtain ⟨hc, hset⟩ := hend hs
  refine ⟨fun ty hty => ?_, fun s'' t'' hlater c id hnew hid other => ?_⟩
  · have hty := hsound ty hty
    rw [← hb]
    exact (substitute_eq_some_iff ht.layered hext hty.lt_size).2
      (hset.substitutes_unwrap ht.toStratified hext hc hkeys' hty)
  · have hkept := hlater.kept hc fun k b hk => by
      obtain ⟨e, he, hkind⟩ := hkeys' k b hk
      exact noContainerAt_of_param (hext k e he) hkind
    exact hkept.unwrap_eq_self ht.toStratified hset hext hnew hid other

/-- In the sample table only `T` is bound, whatever it stands for. -/
theorem bindsParams_sample (ty : TypeId) :
    (Instantiation.bind {} sampleParam.1 ty).BindsParams sampleMap.2 := by
  intro k b hb
  obtain ⟨rfl, -⟩ := eq_of_single_binding hb
  exact kind?_eq_some_iff.1 (by decide +kernel : sampleMap.2.kind? sampleParam.1 = _)

/-- Among the types issued is `map[string]?[]T`. The type `[][]T` is made afterwards. -/
theorem unwrap_eq_substitute_sample :
    ∃ s' t', sampleInstantiation.instantiateInOrder sampleMap.2 sampleOrder = some (s', t') ∧
      t'.describe (s'.unwrap sampleMap.1) = "map[string]?[]?i32" ∧
      t'.substitute sampleBindings sampleMap.1 = some (s'.unwrap sampleMap.1, t') ∧
      ∀ other, s'.unwrap ((t'.intern (.array sampleArray.1)).1.wrappedLike other) =
        (t'.intern (.array sampleArray.1)).1.wrappedLike other := by
  have hkeys : sampleInstantiation.BindsParams sampleMap.2 := bindsParams_sample _
  obtain ⟨s', t', hrun, h⟩ := unwrap_eq_substitute wellBuilt_sample hkeys sampleOrder_perm
  obtain ⟨hsize, hnew, hname, -⟩ := sampleInstantiation_end hrun
  have hs : t'.size ≤ TypeId.capacity := by
    rw [hsize]
    decide
  have hs' : (t'.intern (.array sampleArray.1)).2.size ≤ TypeId.capacity := by
    rw [intern_of_new hnew, size_push, hsize]
    decide
  obtain ⟨hsame, hlater⟩ := h hs
  have hp : Operation.perform (.intern (.array sampleArray.1)) t' =
      some (some (t'.intern (.array sampleArray.1)).1, (t'.intern (.array sampleArray.1)).2) := rfl
  have made : Continues s' t' s' (t'.intern (.array sampleArray.1)).2 := .perform .start hp hs'
  exact ⟨s', t', hrun, hname, hsame _ (.answer List.mem_cons_self),
    hlater s' _ made _ _ hnew (interned?_intern t' _)⟩

end Unroll
