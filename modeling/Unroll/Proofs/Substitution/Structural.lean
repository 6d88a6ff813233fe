import Unroll.Proofs.Table.Unfolding

/-!
# Substitution is structural

Substitution interns every container it rebuilds, in a table that grows while it runs. Seen through
unfoldings it is plain simultaneous substitution in a tree (`unfolding_substitute`).
-/

namespace Unroll

namespace Table

variable {subs : Bindings} {t t' t₀ : Table} {ty r : TypeId}

/-- The tree that stands for a leaf: that of the type bound to it, if the leaf is marked generic and
is a generic parameter. -/
def boundTree? (t : Table) (subs : Bindings) (ty : TypeId) : Option TypeTree :=
  if ty.isGeneric = true ∧ t.kind? ty = some .genericParam then (subs[ty.index]?).map t.unfolding
  else none

theorem boundTree?_of_closed (h : subs.isEmpty = true ∨ ty.isGeneric = false) :
    t.boundTree? subs ty = none := by
  rw [boundTree?]
  split_ifs with hp
  · rcases h with h | h
    · rw [Std.TreeMap.getElem?_of_isEmpty h, Option.map_none]
    · exact absurd (hp.1.symm.trans h) (by decide)
  · rfl

/-- Where substitution stops at once, the tree has no leaf to replace. -/
theorem WellFormed.substitute_unfolding_of_closed (h : t.WellFormed) (hty : t.Sound ty)
    (hc : subs.isEmpty = true ∨ ty.isGeneric = false) :
    (t.unfolding ty).substitute (t.boundTree? subs) = t.unfolding ty := by
  have hex := h.exact_unfolding ty hty
  refine TypeTree.substitute_eq_self hex fun l hl => boundTree?_of_closed ?_
  refine hc.imp_right fun hg => ?_
  exact TypeTree.isGeneric_leaf_of_not_generic hex ((isGeneric_unfolding t ty).trans hg) l hl

/-- The flags of a rebuilt container: the wrappers of the type it replaces, and generic as its
parts are. -/
theorem flags_intern_wrappedLike {c : Container} (hs : (t.intern c).2.size ≤ TypeId.capacity) :
    ((t.intern c).1.wrappedLike ty).flags = { ty.flags with generic := c.isGeneric } := by
  rw [intern_fst_eq hs]
  simp [TypeId.flags]

theorem kind?_intern_wrappedLike {c : Container} (hs : (t.intern c).2.size ≤ TypeId.capacity) :
    (t.intern c).2.kind? ((t.intern c).1.wrappedLike ty) = some (.container c) := by
  rw [kind?_congr (TypeId.index_wrappedLike _ ty)]
  exact (internedAt_index_intern hs).kind?

/-! ## Rebuilt containers -/

theorem WellFormed.unfolding_intern_array (ht : t.WellFormed) {elem : TypeId}
    (he : t.Sound elem) (hs : (t.intern (.array elem)).2.size ≤ TypeId.capacity) :
    (t.intern (.array elem)).2.unfolding ((t.intern (.array elem)).1.wrappedLike ty) =
      .array { ty.flags with generic := (t.unfolding elem).isGeneric } (t.unfolding elem) := by
  have ht' := ht.intern (by simpa using he) hs
  rw [ht'.layered.unfolding_array (kind?_intern_wrappedLike hs), flags_intern_wrappedLike hs,
    (extends_intern _ _).unfolding_eq ht.layered he.lt_size, isGeneric_unfolding]
  simp [Container.isGeneric]

theorem WellFormed.unfolding_intern_fixedArray (ht : t.WellFormed) {elem : TypeId} {size : Nat}
    (he : t.Sound elem) (hs : (t.intern (.fixedArray elem size)).2.size ≤ TypeId.capacity) :
    (t.intern (.fixedArray elem size)).2.unfolding
        ((t.intern (.fixedArray elem size)).1.wrappedLike ty) =
      .fixedArray { ty.flags with generic := (t.unfolding elem).isGeneric } (t.unfolding elem)
        size := by
  have ht' := ht.intern (by simpa using he) hs
  rw [ht'.layered.unfolding_fixedArray (kind?_intern_wrappedLike hs), flags_intern_wrappedLike hs,
    (extends_intern _ _).unfolding_eq ht.layered he.lt_size, isGeneric_unfolding]
  simp [Container.isGeneric]

theorem WellFormed.unfolding_intern_map (ht : t.WellFormed) {key value : TypeId}
    (hk : t.Sound key) (hv : t.Sound value)
    (hs : (t.intern (.map key value)).2.size ≤ TypeId.capacity) :
    (t.intern (.map key value)).2.unfolding ((t.intern (.map key value)).1.wrappedLike ty) =
      .map { ty.flags with
          generic := (t.unfolding key).isGeneric || (t.unfolding value).isGeneric }
        (t.unfolding key) (t.unfolding value) := by
  have ht' := ht.intern (by simpa using ⟨hk, hv⟩) hs
  rw [ht'.layered.unfolding_map (kind?_intern_wrappedLike hs), flags_intern_wrappedLike hs,
    (extends_intern _ _).unfolding_eq ht.layered hk.lt_size,
    (extends_intern _ _).unfolding_eq ht.layered hv.lt_size, isGeneric_unfolding,
    isGeneric_unfolding]
  simp [Container.isGeneric]

/-! ## The rules on trees -/

/-- The rules, seen through unfoldings. The leaves to replace are looked up in the table `t₀` of the
start, which the tables in between extend. -/
theorem Substitutes.unfolding_eq (h : Substitutes subs t ty r t') (h₀ : t₀.WellFormed)
    (hext : Extends t₀ t) (ht : t.WellFormed) (hty : t₀.Sound ty)
    (hsubs : ∀ (k : Nat) b, subs[k]? = some b → t₀.Sound b) (hs : t'.size ≤ TypeId.capacity) :
    t'.unfolding r = (t₀.unfolding ty).substitute (t₀.boundTree? subs) := by
  have same : ∀ {t ty}, Extends t₀ t → t₀.Sound ty → t.unfolding ty = t₀.unfolding ty :=
    fun hext hty => hext.unfolding_eq h₀.layered hty.lt_size
  -- A part is sound where its substitution starts, and so is its answer where it ends.
  have part : ∀ {t t' p r}, Substitutes subs t p r t' → Extends t₀ t → t.WellFormed →
      t₀.Sound p → t'.size ≤ TypeId.capacity → t'.WellFormed ∧ t'.Sound r :=
    fun h hext ht hp hs => h.wellFormed ht (ht.sound_mono hp hext)
      (fun k b hb => ht.sound_mono (hsubs k b hb) hext) hs
  induction h with
  | closed hc => rw [same hext hty, h₀.substitute_unfolding_of_closed hty hc]
  | @unbound t ty hk hb =>
    rw [hext.kind?_eq hty.lt_size] at hb
    have hleaf : t₀.unfolding ty = .leaf ty :=
      unfolding_leaf fun c hc => hk c ((hext.kind?_eq hty.lt_size).trans hc)
    have hnone : t₀.boundTree? subs ty = none := by
      rw [boundTree?]
      split_ifs with hp
      · rw [hb hp.2, Option.map_none]
      · rfl
    rw [same hext hty, hleaf, TypeTree.substitute, hnone, Option.elim_none]
  | @bound t ty b hg hk hb =>
    rw [hext.kind?_eq hty.lt_size] at hk
    have hleaf : t₀.unfolding ty = .leaf ty := unfolding_leaf (by simp [hk])
    have hsome : t₀.boundTree? subs ty = some (t₀.unfolding b) := by
      rw [boundTree?, if_pos ⟨hg, hk⟩, hb, Option.map_some]
    rw [unfolding_wrappedLike, same hext (hsubs _ _ hb), hleaf, TypeTree.substitute, hsome,
      Option.elim_some]
  | @array t t₁ ty elem elem' _ _ hk he ih =>
    rw [hext.kind?_eq hty.lt_size] at hk
    have hs₁ := Nat.le_trans (extends_intern _ _).size_le hs
    have hp := h₀.sound_part hk elem (by simp)
    obtain ⟨ht₁, helem⟩ := part he hext ht hp hs₁
    rw [ht₁.unfolding_intern_array helem hs, ih hext ht hp hs₁, h₀.layered.unfolding_array hk,
      TypeTree.substitute]
  | @fixedArray t t₁ ty elem elem' size _ _ hk he ih =>
    rw [hext.kind?_eq hty.lt_size] at hk
    have hs₁ := Nat.le_trans (extends_intern _ _).size_le hs
    have hp := h₀.sound_part hk elem (by simp)
    obtain ⟨ht₁, helem⟩ := part he hext ht hp hs₁
    rw [ht₁.unfolding_intern_fixedArray helem hs, ih hext ht hp hs₁,
      h₀.layered.unfolding_fixedArray hk, TypeTree.substitute]
  | @map t t₁ t₂ ty key key' value value' _ _ hk hkey hvalue ih₁ ih₂ =>
    rw [hext.kind?_eq hty.lt_size] at hk
    have hs₂ := Nat.le_trans (extends_intern _ _).size_le hs
    have hs₁ := Nat.le_trans hvalue.extends.size_le hs₂
    have hpk := h₀.sound_part hk key (by simp)
    have hpv := h₀.sound_part hk value (by simp)
    have hext₁ := hext.trans hkey.extends
    obtain ⟨ht₁, hk'⟩ := part hkey hext ht hpk hs₁
    obtain ⟨ht₂, hv'⟩ := part hvalue hext₁ ht₁ hpv hs₂
    rw [ht₂.unfolding_intern_map (ht₂.sound_mono hk' hvalue.extends) hv' hs,
      hvalue.extends.unfolding_eq ht₁.layered hk'.lt_size, ih₁ hext ht hpk hs₁,
      ih₂ hext₁ ht₁ hpv hs₂, h₀.layered.unfolding_map hk, TypeTree.substitute]

end Table

open Table

/-- Substitution ends, and the unfolding of its answer is that of the type with bound types in the
place of bound leaves. -/
theorem unfolding_substitute {calls : List Call} {t : Table} (run : WellBuilt calls t) {ty : TypeId}
    (hty : Issued calls ty) {subs : Bindings}
    (hsubs : ∀ (k : Nat) b, subs[k]? = some b → Issued calls b) :
    ∃ r t', t.substitute subs ty = some (r, t') ∧ (t'.size ≤ TypeId.capacity →
      t'.unfolding r = (t.unfolding ty).substitute (t.boundTree? subs) ∧
      (∀ l ∈ (t.unfolding ty).leaves, ∀ c, t.kind? l ≠ some (.container c)) ∧
      ∀ l ∈ (t'.unfolding r).leaves, ∀ c, t'.kind? l ≠ some (.container c)) := by
  obtain ⟨ht, hsound⟩ := run.wellFormed
  have hty := hsound ty hty
  have hsubs : ∀ (k : Nat) b, subs[k]? = some b → t.Sound b :=
    fun k b hb => hsound b (hsubs k b hb)
  obtain ⟨r, t', hr⟩ := exists_substitute (t := t) ht.layered (.refl t) hty.lt_size
  have rules := substituteWithin_sound hr
  refine ⟨r, t', hr, fun hs => ⟨?_, ht.layered.leaf_unfolding ty, ?_⟩⟩
  · exact rules.unfolding_eq ht (.refl t) ht hty hsubs hs
  · exact (rules.wellFormed ht hty hsubs hs).1.layered.leaf_unfolding r

theorem unfolding_substitute_sample :
    ∃ r t', sampleMap.2.substitute sampleBindings (sampleMap.1.set .result) = some (r, t') ∧
      t'.describe r = "!map[string]?[]?i32" ∧
      t'.unfolding r = (sampleMap.2.unfolding (sampleMap.1.set .result)).substitute
        (sampleMap.2.boundTree? sampleBindings) := by
  have hsubs : ∀ (k : Nat) b, sampleBindings[k]? = some b → Issued sampleCalls b := by
    intro k b hb
    obtain ⟨-, rfl⟩ := sampleBindings_eq hb
    exact .wrapped (.builtin (i := 4) (by decide)) (by decide)
  obtain ⟨r, t', hr, htree⟩ := unfolding_substitute wellBuilt_sample
    (.wrapped (.answer List.mem_cons_self) (by decide : TypeFlag.result ≠ .generic)) hsubs
  have hend : (sampleMap.2.substitute sampleBindings (sampleMap.1.set .result)).map (fun p =>
      (p.2.size, p.2.describe p.1)) = some (19, "!map[string]?[]?i32") := by decide +kernel
  rw [hr] at hend
  obtain ⟨hsize, hname⟩ := Prod.mk.inj (Option.some.inj hend)
  exact ⟨r, t', hr, hname, (htree (by rw [hsize]; decide)).1⟩

end Unroll
