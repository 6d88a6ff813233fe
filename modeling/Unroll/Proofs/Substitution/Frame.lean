import Unroll.Proofs.Substitution.Structural
import Unroll.Proofs.Table.Renaming

/-!
# What substitution adds

Substitution writes at the end of the table only, and every container that it adds is its answer or
a part of it at some depth (`Substitutes.reaches_new`): nothing is made on the way that the answer
does not need. A type with nothing to replace in it is its own answer, although its containers are
interned anew (`WellFormed.substitutes_self`). Together with repetition this is `substitute_frame`.
-/

namespace Unroll

namespace Table

variable {subs : Bindings} {t t₁ t' : Table} {c : Container} {ty r : TypeId}

/-! ## No garbage -/

/-- If the parts of a container reach all that was added since `t`, then so does the container. -/
theorem reaches_new_intern (hs : (t₁.intern c).2.size ≤ TypeId.capacity)
    (hparts : ∀ i, t.size ≤ i → i < t₁.size → ∃ p ∈ c.parts, ∃ q, t₁.Reaches p q ∧ q.index = i)
    (i : Nat) (hi : t.size ≤ i) (hlt : i < (t₁.intern c).2.size) :
    ∃ q, (t₁.intern c).2.Reaches ((t₁.intern c).1.wrappedLike ty) q ∧ q.index = i := by
  by_cases hold : i < t₁.size
  · obtain ⟨p, hp, q, hq, hqi⟩ := hparts i hi hold
    have hk : (t₁.intern c).2.kind? ((t₁.intern c).1.wrappedLike ty) = some (.container c) :=
      kind?_intern_wrappedLike hs
    exact ⟨q, (Reaches.self.part hk hp).trans (hq.mono (extends_intern t₁ c)), hqi⟩
  · refine ⟨_, .self, ?_⟩
    rw [TypeId.index_wrappedLike]
    rcases hc : t₁.interned? c with _ | id
    · rw [intern_of_new hc, size_push] at hs hlt
      rw [intern_of_new hc, index_containerId (by omega)]
      omega
    · rw [intern_of_interned? hc] at hlt
      exact absurd hlt hold

/-- The answer reaches every symbol that substitution adds. -/
theorem Substitutes.reaches_new (h : Substitutes subs t ty r t') (hs : t'.size ≤ TypeId.capacity) :
    ∀ i, t.size ≤ i → i < t'.size → ∃ q, t'.Reaches r q ∧ q.index = i := by
  induction h with
  | closed | unbound | bound =>
    intro i hi hlt
    omega
  | array _ _ _ _ ih | fixedArray _ _ _ _ ih =>
    refine reaches_new_intern hs fun i hi hlt => ?_
    obtain ⟨q, hq⟩ := ih (Nat.le_trans (extends_intern _ _).size_le hs) i hi hlt
    exact ⟨_, by simp, q, hq⟩
  | @map t t₁ t₂ _ _ key' _ value' _ _ _ _ hvalue ih₁ ih₂ =>
    have hs₂ := Nat.le_trans (extends_intern _ _).size_le hs
    refine reaches_new_intern hs fun i hi hlt => ?_
    by_cases hkey : i < t₁.size
    · obtain ⟨q, hq, hqi⟩ := ih₁ (Nat.le_trans hvalue.extends.size_le hs₂) i hi hkey
      exact ⟨key', by simp, q, hq.mono hvalue.extends, hqi⟩
    · obtain ⟨q, hq⟩ := ih₂ hs₂ i (Nat.le_of_not_lt hkey) hlt
      exact ⟨value', by simp, q, hq⟩

/-! ## Nothing to replace -/

/-- Every leaf of a part is a leaf of the container. -/
theorem Layered.mem_leaves_of_part (h : t.Layered) (hk : t.kind? ty = some (.container c))
    {p l : TypeId} (hp : p ∈ c.parts) (hl : l ∈ (t.unfolding p).leaves) :
    l ∈ (t.unfolding ty).leaves := by
  rw [h.unfolding_container hk, TypeTree.leaves_ofContainer]
  exact List.mem_flatMap.2 ⟨p, hp, hl⟩

/-- A type none of whose leaves is bound is left alone. -/
theorem WellFormed.substitutes_self (h : t.WellFormed) (ty : TypeId) (hty : t.Sound ty)
    (hfree : ∀ l ∈ (t.unfolding ty).leaves, l.isGeneric = true → t.kind? l = some .genericParam →
      subs[l.index]? = none) : Substitutes subs t ty ty t := by
  induction ty using h.layered.induction with
  | leaf ty hk =>
    rw [unfolding_leaf hk] at hfree
    by_cases hg : ty.isGeneric = true
    · exact .unbound hk (hfree ty List.mem_cons_self hg)
    · exact .closed (.inr (by simpa using hg))
  | container ty c hk ih =>
    -- The id is the one its parts determine, so interning these parts again answers it.
    have hparts : ∀ p ∈ c.parts, Substitutes subs t p p t := fun p hp =>
      ih p hp (h.sound_part hk p hp) fun l hl => hfree l (h.layered.mem_leaves_of_part hk hp hl)
    have hself := Substitutes.of_parts h.toCanonical (h.internedAt hk) hparts ty
    rwa [← hty.eq_containerId hk] at hself

end Table

open Table

/-- Substitution leaves all that is there as it is, adds only what its answer reaches, and adds
nothing the second time. -/
theorem substitute_frame {calls : List Call} {t : Table} (run : WellBuilt calls t) {ty : TypeId}
    (hty : Issued calls ty) {subs : Bindings}
    (hsubs : ∀ (k : Nat) b, subs[k]? = some b → b.index < t.size) :
    ∃ r t', t.substitute subs ty = some (r, t') ∧
      ((∀ l ∈ (t.unfolding ty).leaves, l.isGeneric = true → t.kind? l = some .genericParam →
        subs[l.index]? = none) → r = ty ∧ t' = t) ∧
      (∀ i < t.size, t'.entries[i]? = t.entries[i]?) ∧
      (t'.size ≤ TypeId.capacity →
        (∀ name, t'.findType? name = t.findType? name) ∧
        (∀ c id, t.interned? c = some id → t'.interned? c = some id) ∧
        (∀ i, t.size ≤ i → i < t'.size →
          ∃ c q, t'.InternedAt c i ∧ t'.Reaches r q ∧ q.index = i) ∧
        t'.substitute subs ty = some (r, t')) := by
  obtain ⟨ht, hsound⟩ := run.wellFormed
  have hty := hsound ty hty
  obtain ⟨r, t', hr⟩ : ∃ r t', t.substitute subs ty = some (r, t') :=
    exists_substitute ht.layered (.refl t) hty.lt_size
  have rules := substituteWithin_sound hr
  have hext := rules.extends
  refine ⟨r, t', hr, fun hfree => rules.unique (ht.substitutes_self ty hty hfree),
    fun i hi => hext.entry_eq hi, fun hs => ?_⟩
  have hc := rules.canonical ht.toCanonical hs
  obtain ⟨hgrown, -⟩ := rules.grown ht (.refl t) hty.lt_size hsubs hs
  refine ⟨hgrown.findType?_eq, fun c id hid => ?_, fun i hi hlt => ?_, ?_⟩
  · obtain ⟨i, hi, rfl⟩ := exists_internedAt_of_interned? hid
    exact hc.interned?_eq_some_iff.2 ⟨i, hext.internedAt hi, rfl⟩
  · obtain ⟨e, he⟩ := exists_entry hlt
    obtain ⟨c, rfl, -⟩ := hgrown.entry hi he
    obtain ⟨q, hq, hqi⟩ := rules.reaches_new hs i hi hlt
    exact ⟨c, q, ⟨_, he, rfl, rfl⟩, hq, hqi⟩
  · exact (substitute_eq_some_iff ht.layered hext hty.lt_size).2
      (rules.replay ht.layered (.refl t) hty.lt_size (.refl t') hc)

/-- For `!map[string]?[]T` with `T` bound to `?i32` two containers are added. A binding of `i32`
replaces nothing in `map[string]?[]T`. -/
theorem substitute_frame_sample :
    (∃ r t', sampleMap.2.substitute sampleBindings (sampleMap.1.set .result) = some (r, t') ∧
      t'.size = sampleMap.2.size + 2 ∧ t'.findType? "T" = some (.ofIndex sampleParam.1.index) ∧
      t'.interned? (.array sampleParam.1) = some sampleArray.1 ∧
      (∃ c q, t'.InternedAt c sampleMap.2.size ∧ t'.Reaches r q ∧ q.index = sampleMap.2.size) ∧
      t'.substitute sampleBindings (sampleMap.1.set .result) = some (r, t')) ∧
    sampleMap.2.substitute (({} : Bindings).insert TypeId.i32.index .string) sampleMap.1 =
      some (sampleMap.1, sampleMap.2) := by
  have hmap : Issued sampleCalls sampleMap.1 := .answer List.mem_cons_self
  constructor
  · have hsubs : ∀ (k : Nat) b, sampleBindings[k]? = some b → b.index < sampleMap.2.size := by
      intro k b hb
      obtain ⟨-, rfl⟩ := sampleBindings_eq hb
      decide +kernel
    obtain ⟨r, t', hr, -, -, hframe⟩ := substitute_frame wellBuilt_sample
      (.wrapped hmap (by decide : TypeFlag.result ≠ .generic)) hsubs
    have hend : (sampleMap.2.substitute sampleBindings (sampleMap.1.set .result)).map
        (·.2.size) = some 19 := by decide +kernel
    rw [hr] at hend
    have hsize : t'.size = 19 := Option.some.inj hend
    obtain ⟨hnames, hinterned, hnew, hagain⟩ := hframe (by rw [hsize]; decide)
    refine ⟨r, t', hr, hsize.trans (by decide +kernel), ?_, ?_, ?_, hagain⟩
    · rw [hnames]
      decide +kernel
    · exact hinterned _ _ (by decide +kernel)
    · exact hnew _ (Nat.le_refl _) (by rw [hsize]; decide +kernel)
  · have hsubs : ∀ (k : Nat) b, (({} : Bindings).insert TypeId.i32.index .string)[k]? = some b →
        b.index < sampleMap.2.size := by
      intro k b hb
      obtain ⟨-, rfl⟩ := eq_of_single_binding hb
      decide +kernel
    obtain ⟨r, t', hr, hself, -⟩ := substitute_frame wellBuilt_sample hmap hsubs
    obtain ⟨rfl, rfl⟩ := hself fun l _ _ hk => by
      refine Option.eq_none_iff_forall_ne_some.2 fun b hb => ?_
      obtain ⟨hl, -⟩ := eq_of_single_binding hb
      have hi32 : sampleMap.2.kind? .i32 = some .builtin := by decide +kernel
      rw [kind?_congr hl, hi32] at hk
      cases hk
    exact hr

end Unroll
