import Unroll.Proofs.Instantiation.Loop
import Unroll.Proofs.Table.Marks
import Unroll.Proofs.Table.Unfolding

/-!
# Complete instantiations

An instantiation is complete if it binds every generic parameter of the table and everything it
binds is free of generic types. Then no type issued before leads to a generic one: what it unwraps
to is not generic, nor is any type that is a part of it, at any depth (`unwrap_complete`). The names
of the parameters must not be declared as something else, for such a name is no parameter any more.
-/

namespace Unroll

theorem Container.isGeneric_eq_false_iff {c : Container} :
    c.isGeneric = false ↔ ∀ p ∈ c.parts, p.isGeneric = false := by
  simp [isGeneric]

namespace Table

variable {subs : Bindings} {t t' t₀ : Table} {c : Container} {ty r q : TypeId} {i : Nat}

/-! ## Parts at any depth -/

/-- What is not generic has no generic part. -/
theorem Reaches.isGeneric_eq_false (h : t.Reaches ty q) (ht : t.WellFormed) (hty : t.Sound ty)
    (hg : ty.isGeneric = false) : q.isGeneric = false := by
  have both : t.Sound q ∧ q.isGeneric = false := by
    induction h with
    | self => exact ⟨hty, hg⟩
    | part _ hk hp ih =>
      have hc := (ih.1.isGeneric_eq hk).symm.trans ih.2
      exact ⟨ht.sound_part hk _ hp, Container.isGeneric_eq_false_iff.1 hc _ hp⟩
  exact both.2

/-! ## Complete bindings -/

/-- The index holds a generic parameter. -/
def HasParam (t : Table) (i : Nat) : Prop :=
  ∃ e, t.entries[i]? = some e ∧ e.symbol.kind = .genericParam

/-- Every generic parameter of the table is bound, and nothing is bound to a generic type. -/
structure Completes (subs : Bindings) (t : Table) : Prop where
  bound : ∀ i, t.HasParam i → ∃ b, subs[i]? = some b
  closed : ∀ (k : Nat) b, subs[k]? = some b → b.isGeneric = false

/-- A generic type has a generic parameter in it, so the bindings of a table with one are not
empty. -/
theorem Completes.isEmpty_eq_false (h : Completes subs t) (ht : t.Marked t.HasParam) (ty : TypeId)
    (hty : t.Grounded t.HasParam ty) (hg : ty.isGeneric = true) : subs.isEmpty = false := by
  induction ty using ht.layered.induction with
  | leaf ty hk =>
    rcases hty.generic hg with hparam | ⟨c, hc⟩
    · obtain ⟨b, hb⟩ := h.bound _ hparam
      by_contra hs
      rw [Std.TreeMap.getElem?_of_isEmpty (by simpa using hs)] at hb
      cases hb
    · exact absurd hc.kind? (hk c)
  | container ty c hk ih =>
    have hc : c.isGeneric = true := (hty.isGeneric_eq hk).symm.trans hg
    obtain ⟨p, hp, hpg⟩ := List.any_eq_true.1 hc
    exact ih p hp (ht.grounded_part (ht.internedAt hk) p hp) hpg

theorem isGeneric_intern (hp : ∀ p ∈ c.parts, p.isGeneric = false) (other : TypeId) :
    ((t.intern c).1.wrappedLike other).isGeneric = false := by
  obtain ⟨i, -, hid⟩ := exists_internedAt_intern t c
  have hc : c.isGeneric = false := Container.isGeneric_eq_false_iff.2 hp
  simp [hid, hc]

/-- Complete bindings leave nothing generic, also when the table has grown since. -/
theorem Substitutes.isGeneric_eq_false (h : Substitutes subs t ty r t')
    (hsubs : Completes subs t₀) (h₀ : t₀.Marked t₀.HasParam) (ht : Extends t₀ t)
    (hty : t₀.Grounded t₀.HasParam ty) : r.isGeneric = false := by
  have part : ∀ {t : Table} {ty c}, Extends t₀ t → t₀.Grounded t₀.HasParam ty →
      t.kind? ty = some (.container c) → ∀ p ∈ c.parts, t₀.Grounded t₀.HasParam p :=
    fun ht hty hk => h₀.grounded_part (h₀.internedAt (ht.kind?_eq hty.lt_size ▸ hk))
  induction h with
  | @closed t ty h =>
    rcases h with hs | hg
    · by_contra hg
      have := hsubs.isEmpty_eq_false h₀ ty hty (by simpa using hg)
      simp [this] at hs
    · exact hg
  | @unbound t ty hk h =>
    by_contra hg
    rcases hty.generic (by simpa using hg) with hparam | ⟨c, hc⟩
    · obtain ⟨b, hb⟩ := hsubs.bound _ hparam
      have hkind : t.kind? ty = some .genericParam :=
        (ht.kind?_eq hty.lt_size).trans (kind?_eq_some_iff.2 hparam)
      cases (h hkind).symm.trans hb
    · exact hk c (ht.internedAt hc).kind?
  | bound _ _ hb => exact (TypeId.isGeneric_wrappedLike _ _).trans (hsubs.closed _ _ hb)
  | array _ _ hk _ ih | fixedArray _ _ hk _ ih =>
    apply isGeneric_intern
    simpa using ih ht (part ht hty hk _ (by simp))
  | map _ _ hk h₁ _ ih₁ ih₂ =>
    apply isGeneric_intern
    have hkey := ih₁ ht (part ht hty hk _ (by simp))
    have hvalue := ih₂ (ht.trans h₁.extends) (part ht hty hk _ (by simp))
    simpa using ⟨hkey, hvalue⟩

end Table

namespace Instantiation

open Table

variable {s s' : Instantiation} {t t' : Table} {ty r : TypeId} {l : List TypeId}

/-- The loop over sound types leaves the table well formed. -/
theorem Instantiates.wellFormed (run : Instantiates s t l s' t') (ht : t.WellFormed)
    (hl : ∀ g ∈ l, t.Sound g) (hb : ∀ (k : Nat) b, s.bindings[k]? = some b → t.Sound b)
    (hs : t'.size ≤ TypeId.capacity) : t'.WellFormed := by
  induction run with
  | nil => exact ht
  | @cons s s' t t₁ t' g r l rules rest ih =>
    have ht₁ := (rules.wellFormed ht (hl g List.mem_cons_self) hb
      (Nat.le_trans rest.extends.size_le hs)).1
    have later : ∀ {ty}, t.Sound ty → t₁.Sound ty := fun h => ht₁.sound_mono h rules.extends
    refine ih ht₁ (fun g' hg' => later (hl g' (List.mem_cons_of_mem _ hg'))) (fun k b hk => ?_) hs
    rw [bindings_record] at hk
    exact later (hb k b hk)

/-- What a type unwraps to if not to itself is bound or recorded at its index. -/
theorem unwrap_cases (s : Instantiation) (ty : TypeId) :
    s.unwrap ty = ty ∨ ∃ b, (s.bindings[ty.index]? = some b ∨ s.containers[ty.index]? = some b) ∧
      s.unwrap ty = b.wrappedLike ty := by
  unfold unwrap
  split_ifs
  · rcases s.bindings[ty.index]? with _ | b
    · rcases s.containers[ty.index]? with _ | r
      · exact .inl rfl
      · exact .inr ⟨r, .inr rfl, rfl⟩
    · exact .inr ⟨b, .inl rfl, rfl⟩
  · exact .inl rfl

theorem isOption_unwrap (s : Instantiation) (h : ty.isOption = true) :
    (s.unwrap ty).isOption = true := by
  rcases s.unwrap_cases ty with heq | ⟨b, -, heq⟩ <;> simp [heq, h]

theorem isResult_unwrap (s : Instantiation) (h : ty.isResult = true) :
    (s.unwrap ty).isResult = true := by
  rcases s.unwrap_cases ty with heq | ⟨b, -, heq⟩ <;> simp [heq, h]

/-- After the loop over sound types, a sound type unwraps to a sound one. -/
theorem Settled.sound_unwrap (h : Settled l s t') (ht' : t'.WellFormed)
    (hl : ∀ g ∈ l, t'.Sound g) (hb : ∀ (k : Nat) b, s.bindings[k]? = some b → t'.Sound b)
    (hty : t'.Sound ty) : t'.Sound (s.unwrap ty) := by
  rcases s.unwrap_cases ty with heq | ⟨b, hb' | hr, heq⟩ <;> rw [heq]
  · exact hty
  · exact (hb _ b hb').wrappedLike ty
  · obtain ⟨g, hg, hgi⟩ := h.visited _ b hr
    obtain ⟨r, rules, hrec⟩ := h.answer g hg
    rw [hgi, hr] at hrec
    split_ifs at hrec
    cases hrec
    exact (rules.wellFormed ht' (hl g hg) hb ht'.size_le).2.wrappedLike ty

/-- Where the bindings are complete, no type of the table unwraps to a generic one. -/
theorem Settled.isGeneric_unwrap (h : Settled t.genericContainers s t')
    (hsubs : Completes s.bindings t) (ht : t.Marked t.HasParam) (hext : Extends t t')
    (hc : t'.Canonical) (hty : t.Grounded t.HasParam ty) : (s.unwrap ty).isGeneric = false := by
  by_cases hg : ty.isGeneric = true
  · rw [unwrap, if_pos hg]
    rcases hb : s.bindings[ty.index]? with _ | b
    · -- A parameter would be bound, so this is a container.
      obtain ⟨c, hi⟩ := (hty.generic hg).resolve_left fun hparam => by
        obtain ⟨b, hb'⟩ := hsubs.bound _ hparam
        cases hb.symm.trans hb'
      have hidx := ht.index_containerId hi
      have hgen : c.isGeneric = true := (hty.isGeneric_eq hi.kind?).symm.trans hg
      obtain ⟨r, rules, hrec⟩ := h.answer _ (mem_genericContainers.2 ⟨c, _, hi, hgen, rfl⟩)
      have hr := rules.isGeneric_eq_false hsubs ht hext
        ⟨ht.toWellFormed.sound_containerId hi, fun _ => .inr ⟨c, hidx.symm ▸ hi⟩⟩
      have hne : r.index ≠ (containerId c ty.index).index := fun heq => by
        have hself := rules.eq_of_index_eq hc (hidx.symm ▸ hext.internedAt hi) (by rw [hidx]) heq
        simp [hself, hgen] at hr
      rw [if_neg hne, hidx] at hrec
      rw [hrec]
      exact (TypeId.isGeneric_wrappedLike _ _).trans hr
    · exact (TypeId.isGeneric_wrappedLike _ _).trans (hsubs.closed _ _ hb)
  · rw [unwrap, if_neg hg]
    simpa using hg

end Instantiation

open Table Instantiation

/-- After a complete instantiation, nothing that an issued type unwraps to reaches a generic type,
and its wrappers stay. -/
theorem unwrap_complete {calls : List Call} {t : Table} (run : WellBuilt calls t)
    (hkept : ParamsKept calls) {s : Instantiation}
    (hparams : ∀ i, t.HasParam i → ∃ b, s.bindings[i]? = some b)
    (hbound : ∀ (k : Nat) b, s.bindings[k]? = some b → b.isGeneric = false ∧ Issued calls b)
    {l : List TypeId} (hl : l.Perm t.genericContainers) :
    ∃ s' t', { s with containers := {} }.instantiateInOrder t l = some (s', t') ∧
      (t'.size ≤ TypeId.capacity → ∀ ty, Issued calls ty →
        (∀ q, t'.Reaches (s'.unwrap ty) q → q.isGeneric = false) ∧
        (ty.isOption = true → (s'.unwrap ty).isOption = true) ∧
        (ty.isResult = true → (s'.unwrap ty).isResult = true)) := by
  obtain ⟨ht, hissued⟩ : t.Marked t.HasParam ∧ ∀ ty, Issued calls ty → t.Grounded t.HasParam ty :=
    run.marked fun name id hcall => by
      obtain ⟨e, he, -, hk⟩ := run.paramAt canonical_initial hkept hcall
      exact ⟨e, he, hk⟩
  obtain ⟨s', t', hrun, rules, hend⟩ := exists_settled ht.toStratified hl s
  have hb : s'.bindings = s.bindings := rules.bindings_eq
  have hsound : ∀ (k : Nat) b, s.bindings[k]? = some b → t.Sound b := fun k b hk =>
    (hissued b (hbound k b hk).2).toSound
  have visited : ∀ g ∈ t.genericContainers, t.Sound g := fun _ => ht.toWellFormed.sound_of_mem
  refine ⟨s', t', hrun, fun hs ty hty => ⟨fun q hq => ?_, s'.isOption_unwrap, s'.isResult_unwrap⟩⟩
  obtain ⟨hc, hset⟩ := hend hs
  have ht' := rules.wellFormed ht.toWellFormed (fun g hg => visited g (hl.mem_iff.1 hg)) hsound hs
  have later : ∀ {ty}, t.Sound ty → t'.Sound ty := fun h => ht'.sound_mono h rules.extends
  have hsubs : Completes s'.bindings t := hb.symm ▸ ⟨hparams, fun k b hk => (hbound k b hk).1⟩
  refine hq.isGeneric_eq_false ht' ?_ ?_
  · exact hset.sound_unwrap ht' (fun g hg => later (visited g hg))
      (fun k b hk => later (hsound k b (hb ▸ hk))) (later (hissued ty hty).toSound)
  · exact hset.isGeneric_unwrap hsubs ht rules.extends hc (hissued ty hty)

theorem paramsKept_sample : ParamsKept sampleCalls := by
  simp [ParamsKept, sampleCalls, Operation.symbol?]

theorem hasParam_sample {i : Nat} (h : sampleMap.2.HasParam i) : i = sampleParam.1.index := by
  have only : ∀ i < sampleMap.2.size,
      sampleMap.2.entries[i]?.map (·.symbol.kind) = some .genericParam →
        i = sampleParam.1.index := by decide +kernel
  obtain ⟨e, he, hk⟩ := h
  exact only i (lt_size_of_entry he) (by rw [he, Option.map_some, hk])

theorem sampleBindings_param :
    sampleBindings[sampleParam.1.index]? = some (TypeId.i32.set .option) := by
  decide +kernel

theorem issued_sample : Issued sampleCalls (TypeId.i32.set .option) :=
  .wrapped (.builtin (by decide)) (by decide)

theorem unwrap_complete_sample :
    ∃ s' t', sampleInstantiation.instantiateInOrder sampleMap.2 sampleOrder = some (s', t') ∧
      t'.describe (s'.unwrap (sampleMap.1.set .result)) = "!map[string]?[]?i32" ∧
      (s'.unwrap (sampleMap.1.set .result)).isResult = true ∧
      ∀ q, t'.Reaches (s'.unwrap (sampleMap.1.set .result)) q → q.isGeneric = false := by
  have hparams : ∀ i, sampleMap.2.HasParam i → ∃ b, sampleInstantiation.bindings[i]? = some b := by
    intro i hi
    obtain rfl := hasParam_sample hi
    exact ⟨_, sampleBindings_param⟩
  have hbound : ∀ (k : Nat) b, sampleInstantiation.bindings[k]? = some b →
      b.isGeneric = false ∧ Issued sampleCalls b := by
    intro k b hb
    obtain ⟨-, rfl⟩ := sampleBindings_eq hb
    exact ⟨by decide, issued_sample⟩
  obtain ⟨s', t', hrun, h⟩ := unwrap_complete wellBuilt_sample paramsKept_sample hparams hbound
    sampleOrder_perm
  obtain ⟨hsize, -, -, hname, -⟩ := sampleInstantiation_end hrun
  have hs : t'.size ≤ TypeId.capacity := by
    rw [hsize]
    decide
  have hty : Issued sampleCalls (sampleMap.1.set .result) :=
    .wrapped (.answer List.mem_cons_self) (by decide)
  obtain ⟨hclosed, -, hresult⟩ := h hs _ hty
  exact ⟨s', t', hrun, hname, hresult (by decide +kernel), hclosed⟩

/-- `T` stands for `?i32` and, though it is no parameter, `[]T` for `T`. -/
def sampleStray : Instantiation := sampleInstantiation.bind sampleArray.1 sampleParam.1

/-- It is not enough that the parameters are bound to types that are not generic: a generic type
that another index is bound to comes out. -/
theorem unwrap_stray :
    WellBuilt sampleCalls sampleMap.2 ∧ ParamsKept sampleCalls ∧
      (∀ i, sampleMap.2.HasParam i →
        ∃ b, sampleStray.bindings[i]? = some b ∧ b.isGeneric = false ∧ Issued sampleCalls b) ∧
      ∃ s' t', sampleStray.instantiate sampleMap.2 = some (s', t') ∧
        t'.size ≤ TypeId.capacity ∧ Issued sampleCalls sampleArray.1 ∧
        (s'.unwrap sampleArray.1).isGeneric = true := by
  refine ⟨wellBuilt_sample, paramsKept_sample, fun i hi => ?_, ?_⟩
  · obtain rfl := hasParam_sample hi
    exact ⟨TypeId.i32.set .option, by decide +kernel, by decide, issued_sample⟩
  · have hend : (sampleStray.instantiate sampleMap.2).any (fun p =>
        p.2.size ≤ TypeId.capacity ∧ (p.1.unwrap sampleArray.1).isGeneric = true) = true := by
      decide +kernel
    obtain ⟨⟨s', t'⟩, hrun, hp⟩ := (Option.any_eq_true _ _).1 hend
    obtain ⟨hs, hg⟩ := of_decide_eq_true hp
    exact ⟨s', t', hrun, hs, .answer sampleArray_mem, hg⟩

end Unroll
