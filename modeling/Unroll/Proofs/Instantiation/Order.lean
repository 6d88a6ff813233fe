import Unroll.Proofs.Instantiation.Loop
import Unroll.Proofs.Table.Renaming

/-!
# The order of an instantiation

The loop of an instantiation may visit the generic containers in any order: two orders end in the
same table up to a renaming of the new indices (`instantiateInOrder_perm`). A loop is compared with
the table that another one ends in. That table has all the answers, so each container that the loop
adds has a place in it (`Substitutes.embeds`, `Instantiates.embeds`). Two tables that embed into
each other have the same size, and so each embedding is a renaming.
-/

namespace Unroll

namespace Table

variable {subs : Bindings} {t t' t₀ t₁ : Table} {c : Container} {ty r r' : TypeId} {f : Nat → Nat}

/-! ## Answers that the table has -/

/-- Where substitution in a container adds nothing, the table has the answers for its parts and the
container that they make. -/
theorem Substitutes.exists_parts (h : Substitutes subs t ty r t') (hback : Extends t' t)
    (hs : subs.isEmpty = false) (hg : ty.isGeneric = true)
    (hk : t.kind? ty = some (.container c)) :
    ∃ φ i, (∀ p ∈ c.parts, Substitutes subs t p (φ p) t) ∧ t.InternedAt (c.mapTypes φ) i ∧
      r = (containerId (c.mapTypes φ) i).wrappedLike ty := by
  have made : ∀ {t₁ : Table} {c' : Container}, Extends t t₁ → Extends (t₁.intern c').2 t →
      t₁ = t ∧ ∃ i, t.InternedAt c' i ∧ (t₁.intern c').1 = containerId c' i := by
    intro t₁ c' h₁ h₂
    obtain ⟨i, hi, hid⟩ := exists_internedAt_intern t₁ c'
    exact ⟨((extends_intern _ _).trans h₂).antisymm h₁, i, h₂.internedAt hi, hid⟩
  cases h with
  | closed h =>
    rcases h with h | h
    · exact absurd (h.symm.trans hs) (by decide)
    · exact absurd (h.symm.trans hg) (by decide)
  | unbound h => exact absurd hk (h c)
  | bound _ hp _ => cases hk.symm.trans hp
  | @array _ _ _ elem elem' _ _ hk' he =>
    cases hk.symm.trans hk'
    obtain ⟨rfl, i, hi, hid⟩ := made he.extends hback
    exact ⟨fun _ => elem', i, by simpa using he, hi, by rw [hid]; rfl⟩
  | @fixedArray _ _ _ elem elem' _ _ _ hk' he =>
    cases hk.symm.trans hk'
    obtain ⟨rfl, i, hi, hid⟩ := made he.extends hback
    exact ⟨fun _ => elem', i, by simpa using he, hi, by rw [hid]; rfl⟩
  | @map _ t₁ t₂ _ key key' value value' _ _ hk' h₁ h₂ =>
    cases hk.symm.trans hk'
    obtain ⟨rfl, i, hi, hid⟩ := made (h₁.extends.trans h₂.extends) hback
    obtain rfl := h₁.extends.antisymm h₂.extends
    -- A key and a value of one type have one answer.
    have hvalue : (if value = key then key' else value') = value' := by
      split_ifs with heq
      · subst heq
        exact (h₁.unique h₂).1
      · rfl
    refine ⟨fun p => if p = key then key' else value', i, ?_, ?_, ?_⟩
    · simpa [hvalue] using ⟨h₁, h₂⟩
    · simpa [Container.mapTypes, hvalue] using hi
    · simp [Container.mapTypes, hvalue, hid]

/-! ## Substitution embeds -/

/-- Substitution in `t` follows that in a table `t'` which has the answer already. -/
theorem Substitutes.embeds (h : Substitutes subs t ty r t₁) (h₀ : t₀.WellFormed)
    (ht : Grown t₀ t) (ht' : Grown t₀ t') (hc : t'.Canonical) (hty : ty.index < t₀.size)
    (hsubs : ∀ (k : Nat) b, subs[k]? = some b → b.index < t₀.size) (hf : Embeds t₀ f t t')
    (hr : Substitutes subs t' ty r' t') :
    ∃ g, (∀ i < t.size, g i = f i) ∧ Embeds t₀ g t₁ t' ∧ r.rename g = r' := by
  -- Types of `t₀` have the same kind in both tables.
  have kind : ∀ {t ty}, Grown t₀ t → ty.index < t₀.size → t'.kind? ty = t.kind? ty :=
    fun ht hty => (ht'.base.kind?_eq hty).trans (ht.base.kind?_eq hty).symm
  have grown : ∀ {g t t₁ p q}, Substitutes subs t p q t₁ → Grown t₀ t → p.index < t₀.size →
      Embeds t₀ g t₁ t' → Grown t₀ t₁ ∧ q.index < t₁.size := fun h ht hp hg =>
    h.grown h₀ ht (Nat.lt_of_lt_of_le hp ht.base.size_le)
      (fun k b hb => Nat.lt_of_lt_of_le (hsubs k b hb) ht.base.size_le)
      (Nat.le_trans hg.size_le hc.size_le)
  induction h generalizing f r' with
  | closed hclosed =>
    exact ⟨f, fun _ _ => rfl, hf, (hf.rename_eq_self hty).trans (unique (.closed hclosed) hr).1⟩
  | unbound hk hb =>
    rw [← kind ht hty] at hk hb
    exact ⟨f, fun _ _ => rfl, hf, (hf.rename_eq_self hty).trans (unique (.unbound hk hb) hr).1⟩
  | bound hg hk hb =>
    rw [← kind ht hty] at hk
    refine ⟨f, fun _ _ => rfl, hf, ?_⟩
    rw [TypeId.wrappedLike_rename, hf.rename_eq_self (hsubs _ _ hb)]
    exact (unique (.bound hg hk hb) hr).1
  | @array t t₁ ty elem elem' hs hg hk he ih =>
    have hlt := h₀.layered (ht.base.kind?_eq hty ▸ hk) elem (by simp)
    rw [← kind ht hty] at hk
    obtain ⟨φ, j, hφ, hj, rfl⟩ := hr.exists_parts (.refl t') hs hg hk
    obtain ⟨g₁, hagree₁, hg₁, helem⟩ := ih ht (by omega) hf (hφ elem (by simp))
    obtain ⟨ht₁, hlt'⟩ := grown he ht (by omega) hg₁
    rw [Container.mapTypes, ← helem] at hj ⊢
    obtain ⟨g₂, hagree₂, hg₂, hid⟩ :=
      hg₁.intern (c := .array elem') h₀ ht₁ ht' hc (by simpa using hlt') hj
    refine ⟨g₂, fun i hi => ?_, hg₂, by rw [TypeId.wrappedLike_rename, hid]; rfl⟩
    rw [hagree₂ i (Nat.lt_of_lt_of_le hi he.extends.size_le), hagree₁ i hi]
  | @fixedArray t t₁ ty elem elem' size hs hg hk he ih =>
    have hlt := h₀.layered (ht.base.kind?_eq hty ▸ hk) elem (by simp)
    rw [← kind ht hty] at hk
    obtain ⟨φ, j, hφ, hj, rfl⟩ := hr.exists_parts (.refl t') hs hg hk
    obtain ⟨g₁, hagree₁, hg₁, helem⟩ := ih ht (by omega) hf (hφ elem (by simp))
    obtain ⟨ht₁, hlt'⟩ := grown he ht (by omega) hg₁
    rw [Container.mapTypes, ← helem] at hj ⊢
    obtain ⟨g₂, hagree₂, hg₂, hid⟩ := hg₁.intern (c := .fixedArray elem' size) h₀ ht₁ ht' hc
      (by simpa using hlt') hj
    refine ⟨g₂, fun i hi => ?_, hg₂, by rw [TypeId.wrappedLike_rename, hid]; rfl⟩
    rw [hagree₂ i (Nat.lt_of_lt_of_le hi he.extends.size_le), hagree₁ i hi]
  | @map t t₁ t₂ ty key key' value value' hs hg hk hkey hvalue ih₁ ih₂ =>
    have hparts := h₀.layered (ht.base.kind?_eq hty ▸ hk)
    have hltk := hparts key (by simp)
    have hltv := hparts value (by simp)
    rw [← kind ht hty] at hk
    obtain ⟨φ, j, hφ, hj, rfl⟩ := hr.exists_parts (.refl t') hs hg hk
    obtain ⟨g₁, hagree₁, hg₁, hqk⟩ := ih₁ ht (by omega) hf (hφ key (by simp))
    obtain ⟨ht₁, hk'⟩ := grown hkey ht (by omega) hg₁
    obtain ⟨g₂, hagree₂, hg₂, hqv⟩ := ih₂ ht₁ (by omega) hg₁ (hφ value (by simp))
    obtain ⟨ht₂, hv'⟩ := grown hvalue ht₁ (by omega) hg₂
    rw [Container.mapTypes, ← hqk, ← hqv, TypeId.rename_congr (hagree₂ _ hk').symm] at hj ⊢
    obtain ⟨g₃, hagree₃, hg₃, hid⟩ := hg₂.intern (c := .map key' value') h₀ ht₂ ht' hc
      (by simpa using ⟨Nat.lt_of_lt_of_le hk' hvalue.extends.size_le, hv'⟩) hj
    refine ⟨g₃, fun i hi => ?_, hg₃, by rw [TypeId.wrappedLike_rename, hid]; rfl⟩
    have hi₁ := Nat.lt_of_lt_of_le hi hkey.extends.size_le
    rw [hagree₃ i (Nat.lt_of_lt_of_le hi₁ hvalue.extends.size_le), hagree₂ i hi₁, hagree₁ i hi]

end Table

namespace Instantiation

open Table

variable {s s' s₁ s₂ : Instantiation} {t t' t₀ t₁ t₂ : Table} {l : List TypeId} {f : Nat → Nat}

/-! ## Loops embed -/

theorem Instantiates.grown (run : Instantiates s t l s' t') (h₀ : t₀.WellFormed)
    (ht : Grown t₀ t) (hl : ∀ g ∈ l, g.index < t₀.size)
    (hsubs : ∀ (k : Nat) b, s.bindings[k]? = some b → b.index < t₀.size)
    (hs : t'.size ≤ TypeId.capacity) : Grown t₀ t' := by
  induction run with
  | nil => exact ht
  | @cons s s' t t₁ t' g r l rules rest ih =>
    have lt_size : ∀ {i}, i < t₀.size → i < t.size := fun hi =>
      Nat.lt_of_lt_of_le hi ht.base.size_le
    obtain ⟨ht₁, -⟩ := rules.grown h₀ ht (lt_size (hl g List.mem_cons_self))
      (fun k b hb => lt_size (hsubs k b hb)) (Nat.le_trans rest.extends.size_le hs)
    exact ih ht₁ (fun x hx => hl x (List.mem_cons_of_mem _ hx))
      (by simpa only [bindings_record] using hsubs) hs

/-- A loop embeds into a table that has the answers for all containers it visits. -/
theorem Instantiates.embeds (run : Instantiates s t l s' t₁) (h₀ : t₀.WellFormed)
    (ht : Grown t₀ t) (ht' : Grown t₀ t') (hc : t'.Canonical)
    (hl : ∀ g ∈ l, g.index < t₀.size ∧ ∃ r, Substitutes s.bindings t' g r t')
    (hsubs : ∀ (k : Nat) b, s.bindings[k]? = some b → b.index < t₀.size)
    (hf : Embeds t₀ f t t') : ∃ g, Embeds t₀ g t₁ t' := by
  induction run generalizing f with
  | nil => exact ⟨f, hf⟩
  | @cons s s' t t₁ t₂ x r l rules rest ih =>
    obtain ⟨hx, r', hr'⟩ := hl x List.mem_cons_self
    obtain ⟨g, -, hg, -⟩ := rules.embeds h₀ ht ht' hc hx hsubs hf hr'
    obtain ⟨ht₁, -⟩ := rules.grown h₀ ht (Nat.lt_of_lt_of_le hx ht.base.size_le)
      (fun k b hb => Nat.lt_of_lt_of_le (hsubs k b hb) ht.base.size_le)
      (Nat.le_trans hg.size_le hc.size_le)
    refine ih ht₁ (fun y hy => ?_) (by simpa only [bindings_record] using hsubs) hg
    simpa only [bindings_record] using hl y (List.mem_cons_of_mem _ hy)

/-- What two settled instantiations record differs by the renaming of their tables. -/
theorem Settled.containers_rename (h₁ : Settled l s₁ t₁) (h₂ : Settled l s₂ t₂)
    (hb : s₁.bindings = s₂.bindings) (h₀ : t₀.WellFormed) (ht₁ : Grown t₀ t₁)
    (ht₂ : Grown t₀ t₂) (hc : t₂.Canonical) (hl : ∀ g ∈ l, g.index < t₀.size)
    (hsubs : ∀ (k : Nat) b, s₁.bindings[k]? = some b → b.index < t₀.size)
    (hf : Embeds t₀ f t₁ t₂) (k : Nat) :
    s₂.containers[k]? = (s₁.containers[k]?).map (TypeId.rename f) := by
  by_cases hk : ∃ g ∈ l, g.index = k
  · obtain ⟨g, hg, rfl⟩ := hk
    obtain ⟨r₁, hr₁, hrec₁⟩ := h₁.answer g hg
    obtain ⟨r₂, hr₂, hrec₂⟩ := h₂.answer g hg
    have lt_size : ∀ {i}, i < t₀.size → i < t₁.size := fun hi =>
      Nat.lt_of_lt_of_le hi ht₁.base.size_le
    have hs := Nat.le_trans hf.size_le hc.size_le
    have hr₁lt := (hr₁.grown h₀ ht₁ (lt_size (hl g hg)) (fun k b hb => lt_size (hsubs k b hb)) hs).2
    obtain ⟨f', hagree, -, hr⟩ := hr₁.embeds h₀ ht₁ ht₂ hc (hl g hg) hsubs hf (hb ▸ hr₂)
    have hren : r₁.rename f = r₂ := (TypeId.rename_congr (hagree _ hr₁lt).symm).trans hr
    have hsame : r₂.index = g.index ↔ r₁.index = g.index := by
      rw [← hren, hf.index_rename hc.size_le hr₁lt]
      refine ⟨fun heq => hf.inj hr₁lt (lt_size (hl g hg)) ?_, fun heq => ?_⟩
      · rw [heq, hf.fixed _ (hl g hg)]
      · rw [heq, hf.fixed _ (hl g hg)]
    rw [hrec₁, hrec₂]
    by_cases heq : r₁.index = g.index
    · rw [if_pos heq, if_pos (hsame.2 heq), Option.map_none]
    · rw [if_neg heq, if_neg (fun h => heq (hsame.1 h)), Option.map_some, hren]
  · have none₁ : s₁.containers[k]? = none :=
      h₁.containers_eq_none fun g hg hgk => hk ⟨g, hg, hgk⟩
    have none₂ : s₂.containers[k]? = none :=
      h₂.containers_eq_none fun g hg hgk => hk ⟨g, hg, hgk⟩
    rw [none₁, none₂, Option.map_none]

end Instantiation

open Table Instantiation

/-- In two orders the loop ends in tables and with records that a renaming of the new indices
carries onto each other. -/
theorem instantiateInOrder_perm {calls : List Call} {t : Table} (run : WellBuilt calls t)
    {s : Instantiation} (hsubs : ∀ (k : Nat) b, s.bindings[k]? = some b → b.index < t.size)
    {l₁ l₂ : List TypeId} (h₁ : l₁.Perm t.genericContainers) (h₂ : l₂.Perm t.genericContainers) :
    ∃ s₁ t₁ s₂ t₂, { s with containers := {} }.instantiateInOrder t l₁ = some (s₁, t₁) ∧
      { s with containers := {} }.instantiateInOrder t l₂ = some (s₂, t₂) ∧
      (t₁.size ≤ TypeId.capacity → t₂.size = t₁.size ∧
        (∀ k, k ∈ s₂.containers ↔ k ∈ s₁.containers) ∧
        ∃ f : Equiv.Perm Nat, (∀ i, i < t.size ∨ t₁.size ≤ i → f i = i) ∧ Carries f t₁ t₂ ∧
          ∀ k : Nat, s₂.containers[k]? = (s₁.containers[k]?).map (TypeId.rename f)) := by
  obtain ⟨ht, -⟩ := run.wellFormed
  have visited : ∀ {l : List TypeId}, l.Perm t.genericContainers → ∀ g ∈ l, g.index < t.size := by
    intro l hl g hg
    exact ht.index_lt_of_mem (hl.mem_iff.1 hg)
  obtain ⟨s₁, t₁, hrun₁, rules₁, hend₁⟩ := exists_settled ht.toStratified h₁ s
  obtain ⟨s₂, t₂, hrun₂, rules₂, hend₂⟩ := exists_settled ht.toStratified h₂ s
  have hb₁ : s₁.bindings = s.bindings := rules₁.bindings_eq
  have hb₂ : s₂.bindings = s.bindings := rules₂.bindings_eq
  refine ⟨s₁, t₁, s₂, t₂, hrun₁, hrun₂, fun hs₁ => ?_⟩
  -- The second loop embeds into the first table, so its table is not larger.
  obtain ⟨hc₁, hset₁⟩ := hend₁ hs₁
  have hgrown₁ := rules₁.grown ht (.refl t) (visited h₁) hsubs hs₁
  obtain ⟨f₂, hf₂⟩ := rules₂.embeds ht (.refl t) hgrown₁ hc₁ (fun g hg => by
    obtain ⟨r, hr, -⟩ := hset₁.answer g (h₂.mem_iff.1 hg)
    exact ⟨visited h₂ g hg, r, hb₁ ▸ hr⟩) hsubs (embeds_id hgrown₁.base)
  have hs₂ := Nat.le_trans hf₂.size_le hs₁
  -- The first loop embeds into the second table as well.
  obtain ⟨hc₂, hset₂⟩ := hend₂ hs₂
  have hgrown₂ := rules₂.grown ht (.refl t) (visited h₂) hsubs hs₂
  obtain ⟨f₁, hf₁⟩ := rules₁.embeds ht (.refl t) hgrown₂ hc₂ (fun g hg => by
    obtain ⟨r, hr, -⟩ := hset₂.answer g (h₁.mem_iff.1 hg)
    exact ⟨visited h₁ g hg, r, hb₂ ▸ hr⟩) hsubs (embeds_id hgrown₂.base)
  have hsize : t₂.size = t₁.size := Nat.le_antisymm hf₂.size_le hf₁.size_le
  obtain ⟨f, hf, hout⟩ := exists_perm_of_injOn (fun i hi => hsize ▸ hf₁.lt_size hi) hf₁.inj
  have hemb : Embeds t f t₁ t₂ := hf₁.congr ht hgrown₁ hf
  have hrec := hset₁.containers_rename hset₂ (hb₁.trans hb₂.symm) ht hgrown₁ hgrown₂ hc₂
    (fun g hg => ht.index_lt_of_mem hg) (hb₁.symm ▸ hsubs) hemb
  refine ⟨hsize, fun k => ?_, f, ?_, hemb.carries ht hgrown₁ hgrown₂ hc₂ hsize hout, hrec⟩
  · rw [Std.TreeMap.mem_iff_isSome_getElem?, Std.TreeMap.mem_iff_isSome_getElem?, hrec,
      Option.isSome_map]
  · rintro i (hi | hi)
    · exact hemb.fixed i hi
    · exact hout i hi

/-- The loop forwards and backwards: `[]?i32` and `[4]?i32` change places. -/
theorem instantiateInOrder_perm_sample :
    ∃ s₁ t₁ s₂ t₂, sampleInstantiation.instantiateInOrder sampleMap.2
        sampleMap.2.genericContainers = some (s₁, t₁) ∧
      sampleInstantiation.instantiateInOrder sampleMap.2
        sampleMap.2.genericContainers.reverse = some (s₂, t₂) ∧ t₁ ≠ t₂ ∧
      ∃ f : Equiv.Perm Nat, Carries f t₁ t₂ ∧
        ∀ k : Nat, s₂.containers[k]? = (s₁.containers[k]?).map (TypeId.rename f) := by
  have hsubs : ∀ (k : Nat) b, sampleInstantiation.bindings[k]? = some b →
      b.index < sampleMap.2.size := by
    intro k b hb
    obtain ⟨-, rfl⟩ := sampleBindings_eq hb
    decide +kernel
  obtain ⟨s₁, t₁, s₂, t₂, hrun₁, hrun₂, h⟩ :=
    instantiateInOrder_perm wellBuilt_sample hsubs (.refl _) (List.reverse_perm _)
  change sampleInstantiation.instantiateInOrder _ _ = _ at hrun₁ hrun₂
  have hend : (sampleInstantiation.instantiateInOrder sampleMap.2
      sampleMap.2.genericContainers).map (·.2.size) = some 20 := by decide +kernel
  have hne : (sampleInstantiation.instantiateInOrder sampleMap.2
      sampleMap.2.genericContainers).map (·.2) ≠ (sampleInstantiation.instantiateInOrder sampleMap.2
        sampleMap.2.genericContainers.reverse).map (·.2) := by decide +kernel
  rw [hrun₁] at hend hne
  rw [hrun₂] at hne
  have hsize : t₁.size = 20 := Option.some.inj hend
  have hs : t₁.size ≤ TypeId.capacity := by
    rw [hsize]
    decide
  obtain ⟨-, -, f, -, hcarry, hrec⟩ := h hs
  exact ⟨s₁, t₁, s₂, t₂, hrun₁, hrun₂, fun heq => hne (congrArg some heq), f, hcarry, hrec⟩

end Unroll
