import Unroll.Proofs.Table.Growth

/-!
# Rules of substitution

`Substitutes subs t ty r t'` says that substitution in `ty` starting from the table `t` ends with
the type `r` in the table `t'`. The bounded function follows these rules (`substituteWithin_sound`),
a larger bound never changes an answer (`substituteWithin_mono`), and where the parts of a container
are older than the container itself the bound is never met (`exists_substitute`). So properties of
substitution are proved by induction on the rules, and the bound does not appear in them.
-/

namespace Unroll.Table

variable {subs : Bindings} {t t' t₀ t₁ t₂ : Table} {ty r : TypeId}

/-- Substitution as a set of rules. The parts of a container are replaced first, in order, and the
container they make is interned last. -/
inductive Substitutes (subs : Bindings) : Table → TypeId → TypeId → Table → Prop where
  | closed {t : Table} {ty : TypeId} (h : subs.isEmpty = true ∨ ty.isGeneric = false) :
      Substitutes subs t ty ty t
  | unbound {t : Table} {ty : TypeId} (hk : ∀ c, t.kind? ty ≠ some (.container c))
      (h : t.kind? ty = some .genericParam → subs[ty.index]? = none) :
      Substitutes subs t ty ty t
  | bound {t : Table} {ty b : TypeId} (hty : ty.isGeneric = true)
      (hk : t.kind? ty = some .genericParam) (hb : subs[ty.index]? = some b) :
      Substitutes subs t ty (b.wrappedLike ty) t
  | array {t t₁ : Table} {ty elem elem' : TypeId} (hs : subs.isEmpty = false)
      (hty : ty.isGeneric = true) (hk : t.kind? ty = some (.container (.array elem)))
      (he : Substitutes subs t elem elem' t₁) :
      Substitutes subs t ty ((t₁.intern (.array elem')).1.wrappedLike ty)
        (t₁.intern (.array elem')).2
  | fixedArray {t t₁ : Table} {ty elem elem' : TypeId} {size : Nat} (hs : subs.isEmpty = false)
      (hty : ty.isGeneric = true) (hk : t.kind? ty = some (.container (.fixedArray elem size)))
      (he : Substitutes subs t elem elem' t₁) :
      Substitutes subs t ty ((t₁.intern (.fixedArray elem' size)).1.wrappedLike ty)
        (t₁.intern (.fixedArray elem' size)).2
  | map {t t₁ t₂ : Table} {ty key key' value value' : TypeId} (hs : subs.isEmpty = false)
      (hty : ty.isGeneric = true) (hk : t.kind? ty = some (.container (.map key value)))
      (h₁ : Substitutes subs t key key' t₁) (h₂ : Substitutes subs t₁ value value' t₂) :
      Substitutes subs t ty ((t₂.intern (.map key' value')).1.wrappedLike ty)
        (t₂.intern (.map key' value')).2

/-! ## The bounded function, case by case -/

section Cases

variable {depth : Nat}

theorem substituteWithin_closed (h : subs.isEmpty = true ∨ ty.isGeneric = false) :
    substituteWithin subs (depth + 1) t ty = some (ty, t) := by
  rw [substituteWithin, if_pos (by simpa using h)]

theorem substituteWithin_open (hs : subs.isEmpty = false) (hty : ty.isGeneric = true) :
    ¬ (subs.isEmpty || !ty.isGeneric) = true := by
  simp [hs, hty]

theorem substituteWithin_array {elem : TypeId} (hs : subs.isEmpty = false)
    (hty : ty.isGeneric = true) (hk : t.kind? ty = some (.container (.array elem))) :
    substituteWithin subs (depth + 1) t ty = (substituteWithin subs depth t elem).map fun p =>
      ((p.2.intern (.array p.1)).1.wrappedLike ty, (p.2.intern (.array p.1)).2) := by
  rw [substituteWithin, if_neg (substituteWithin_open hs hty), hk]
  dsimp only
  rcases substituteWithin subs depth t elem with _ | ⟨e, t₁⟩ <;> rfl

theorem substituteWithin_fixedArray {elem : TypeId} {size : Nat} (hs : subs.isEmpty = false)
    (hty : ty.isGeneric = true) (hk : t.kind? ty = some (.container (.fixedArray elem size))) :
    substituteWithin subs (depth + 1) t ty = (substituteWithin subs depth t elem).map fun p =>
      ((p.2.intern (.fixedArray p.1 size)).1.wrappedLike ty,
        (p.2.intern (.fixedArray p.1 size)).2) := by
  rw [substituteWithin, if_neg (substituteWithin_open hs hty), hk]
  dsimp only
  rcases substituteWithin subs depth t elem with _ | ⟨e, t₁⟩ <;> rfl

theorem substituteWithin_map {key value : TypeId} (hs : subs.isEmpty = false)
    (hty : ty.isGeneric = true) (hk : t.kind? ty = some (.container (.map key value))) :
    substituteWithin subs (depth + 1) t ty = (substituteWithin subs depth t key).bind fun p =>
      (substituteWithin subs depth p.2 value).map fun q =>
        ((q.2.intern (.map p.1 q.1)).1.wrappedLike ty, (q.2.intern (.map p.1 q.1)).2) := by
  rw [substituteWithin, if_neg (substituteWithin_open hs hty), hk]
  dsimp only
  rcases substituteWithin subs depth t key with _ | ⟨k, t₁⟩
  · rfl
  · show ((substituteWithin subs depth t₁ value).bind _) = Option.map _ _
    rcases substituteWithin subs depth t₁ value with _ | ⟨v, t₂⟩ <;> rfl

theorem substituteWithin_leaf (hs : subs.isEmpty = false) (hty : ty.isGeneric = true)
    (hk : ∀ c, t.kind? ty ≠ some (.container c)) :
    substituteWithin subs (depth + 1) t ty = some (if t.kind? ty = some .genericParam then
      (subs[ty.index]?).elim ty (·.wrappedLike ty) else ty, t) := by
  rw [substituteWithin, if_neg (substituteWithin_open hs hty)]
  split
  · rename_i h
    rw [if_pos h]
  · exact absurd ‹_› (hk _)
  · exact absurd ‹_› (hk _)
  · exact absurd ‹_› (hk _)
  · rename_i h _ _ _
    rw [if_neg h]

end Cases

/-! ## The function and the rules -/

theorem substituteWithin_sound : ∀ {depth : Nat} {t : Table} {ty r : TypeId} {t' : Table},
    substituteWithin subs depth t ty = some (r, t') → Substitutes subs t ty r t'
  | 0, _, _, _, _, h => by cases h
  | depth + 1, t, ty, r, t', h => by
    by_cases hc : subs.isEmpty = true ∨ ty.isGeneric = false
    · rw [substituteWithin_closed hc] at h
      cases h
      exact .closed hc
    obtain ⟨hs, hty⟩ : subs.isEmpty = false ∧ ty.isGeneric = true := by simpa using hc
    by_cases hk : ∃ c, t.kind? ty = some (.container c)
    · obtain ⟨c, hk⟩ := hk
      cases c with
      | array elem =>
        rw [substituteWithin_array hs hty hk] at h
        obtain ⟨⟨e, t₁⟩, he, hr⟩ := Option.map_eq_some_iff.1 h
        cases hr
        exact .array hs hty hk (substituteWithin_sound he)
      | fixedArray elem size =>
        rw [substituteWithin_fixedArray hs hty hk] at h
        obtain ⟨⟨e, t₁⟩, he, hr⟩ := Option.map_eq_some_iff.1 h
        cases hr
        exact .fixedArray hs hty hk (substituteWithin_sound he)
      | map key value =>
        rw [substituteWithin_map hs hty hk] at h
        obtain ⟨⟨k, t₁⟩, hkey, h⟩ := Option.bind_eq_some_iff.1 h
        obtain ⟨⟨v, t₂⟩, hvalue, hr⟩ := Option.map_eq_some_iff.1 h
        cases hr
        exact .map hs hty hk (substituteWithin_sound hkey) (substituteWithin_sound hvalue)
    · have hleaf : ∀ c, t.kind? ty ≠ some (.container c) := fun c hc => hk ⟨c, hc⟩
      rw [substituteWithin_leaf hs hty hleaf] at h
      split_ifs at h with hp
      · rcases hb : subs[ty.index]? with _ | b <;> rw [hb] at h <;> cases h
        · exact .unbound hleaf fun _ => hb
        · exact .bound hty hp hb
      · cases h
        exact .unbound hleaf fun h => absurd h hp

/-- A larger bound gives the same answer. -/
theorem substituteWithin_mono : ∀ {depth depth' : Nat} {t : Table} {ty : TypeId}
    {x : TypeId × Table}, substituteWithin subs depth t ty = some x → depth ≤ depth' →
    substituteWithin subs depth' t ty = some x
  | 0, _, _, _, _, h, _ => by cases h
  | _ + 1, 0, _, _, _, _, hle => absurd hle (by omega)
  | depth + 1, depth' + 1, t, ty, x, h, hle => by
    have hle : depth ≤ depth' := by omega
    by_cases hc : subs.isEmpty = true ∨ ty.isGeneric = false
    · rw [substituteWithin_closed hc] at h ⊢
      exact h
    obtain ⟨hs, hty⟩ : subs.isEmpty = false ∧ ty.isGeneric = true := by simpa using hc
    by_cases hk : ∃ c, t.kind? ty = some (.container c)
    · obtain ⟨c, hk⟩ := hk
      cases c with
      | array elem =>
        rw [substituteWithin_array hs hty hk] at h ⊢
        obtain ⟨p, hp, hr⟩ := Option.map_eq_some_iff.1 h
        rw [substituteWithin_mono hp hle, Option.map_some, hr]
      | fixedArray elem size =>
        rw [substituteWithin_fixedArray hs hty hk] at h ⊢
        obtain ⟨p, hp, hr⟩ := Option.map_eq_some_iff.1 h
        rw [substituteWithin_mono hp hle, Option.map_some, hr]
      | map key value =>
        rw [substituteWithin_map hs hty hk] at h ⊢
        obtain ⟨p, hp, h⟩ := Option.bind_eq_some_iff.1 h
        obtain ⟨q, hq, hr⟩ := Option.map_eq_some_iff.1 h
        rw [substituteWithin_mono hp hle, Option.bind_some, substituteWithin_mono hq hle,
          Option.map_some, hr]
    · have hleaf : ∀ c, t.kind? ty ≠ some (.container c) := fun c hc => hk ⟨c, hc⟩
      rw [substituteWithin_leaf hs hty hleaf] at h ⊢
      exact h

theorem Substitutes.exists_depth (h : Substitutes subs t ty r t') :
    ∃ depth, substituteWithin subs depth t ty = some (r, t') := by
  induction h with
  | closed h => exact ⟨1, substituteWithin_closed h⟩
  | @unbound t ty hk h =>
    by_cases hc : subs.isEmpty = true ∨ ty.isGeneric = false
    · exact ⟨1, substituteWithin_closed hc⟩
    obtain ⟨hs, hty⟩ : subs.isEmpty = false ∧ ty.isGeneric = true := by simpa using hc
    refine ⟨1, ?_⟩
    rw [substituteWithin_leaf hs hty hk]
    split_ifs with hp
    · rw [h hp, Option.elim_none]
    · rfl
  | @bound t ty b hty hk hb =>
    have hs : subs.isEmpty = false := by
      by_contra hs
      rw [Std.TreeMap.getElem?_of_isEmpty (by simpa using hs)] at hb
      cases hb
    refine ⟨1, ?_⟩
    rw [substituteWithin_leaf hs hty (by simp [hk]), if_pos hk, hb, Option.elim_some]
  | array hs hty hk _ ih =>
    obtain ⟨d, hd⟩ := ih
    exact ⟨d + 1, by rw [substituteWithin_array hs hty hk, hd, Option.map_some]⟩
  | fixedArray hs hty hk _ ih =>
    obtain ⟨d, hd⟩ := ih
    exact ⟨d + 1, by rw [substituteWithin_fixedArray hs hty hk, hd, Option.map_some]⟩
  | map hs hty hk _ _ ih₁ ih₂ =>
    obtain ⟨d₁, hd₁⟩ := ih₁
    obtain ⟨d₂, hd₂⟩ := ih₂
    refine ⟨max d₁ d₂ + 1, ?_⟩
    rw [substituteWithin_map hs hty hk, substituteWithin_mono hd₁ (by omega), Option.bind_some,
      substituteWithin_mono hd₂ (by omega), Option.map_some]

theorem Substitutes.unique {r' : TypeId} (h : Substitutes subs t ty r t₁)
    (h' : Substitutes subs t ty r' t₂) : r = r' ∧ t₁ = t₂ := by
  obtain ⟨d, hd⟩ := h.exists_depth
  obtain ⟨d', hd'⟩ := h'.exists_depth
  have h₁ := substituteWithin_mono hd (Nat.le_max_left d d')
  have h₂ := substituteWithin_mono hd' (Nat.le_max_right d d')
  cases h₁.symm.trans h₂
  exact ⟨rfl, rfl⟩

/-! ## Growth -/

theorem Substitutes.extends (h : Substitutes subs t ty r t') : Extends t t' := by
  induction h with
  | closed | unbound | bound => exact .refl _
  | array _ _ _ _ ih => exact ih.trans (extends_intern _ _)
  | fixedArray _ _ _ _ ih => exact ih.trans (extends_intern _ _)
  | map _ _ _ _ _ ih₁ ih₂ => exact (ih₁.trans ih₂).trans (extends_intern _ _)

/-- What interning keeps, substitution keeps: `P` is a property of the table and `Q` one of its
types, which goes to parts and back to containers. -/
theorem Substitutes.preserves {P : Table → Prop} {Q : Table → TypeId → Prop} {n : Nat}
    (mono : ∀ {t t' ty}, Extends t t' → P t' → Q t ty → Q t' ty)
    (parts : ∀ {t ty c}, P t → Q t ty → t.kind? ty = some (.container c) → ∀ p ∈ c.parts, Q t p)
    (wrapped : ∀ {t b} (ty : TypeId), P t → Q t b → Q t (b.wrappedLike ty))
    (intern : ∀ {t c}, P t → (∀ p ∈ c.parts, Q t p) → (t.intern c).2.size ≤ n →
      P (t.intern c).2 ∧ Q (t.intern c).2 (t.intern c).1)
    (h : Substitutes subs t ty r t') (ht : P t) (hty : Q t ty)
    (hsubs : ∀ (k : Nat) b, subs[k]? = some b → Q t b) (hs : t'.size ≤ n) : P t' ∧ Q t' r := by
  induction h with
  | closed => exact ⟨ht, hty⟩
  | unbound => exact ⟨ht, hty⟩
  | bound _ _ hb => exact ⟨ht, wrapped _ ht (hsubs _ _ hb)⟩
  | array _ _ hk _ ih =>
    obtain ⟨ht₁, he⟩ := ih ht (parts ht hty hk _ (by simp)) hsubs
      (Nat.le_trans (extends_intern _ _).size_le hs)
    obtain ⟨ht₂, hr⟩ := intern ht₁ (by simpa using he) hs
    exact ⟨ht₂, wrapped _ ht₂ hr⟩
  | fixedArray _ _ hk _ ih =>
    obtain ⟨ht₁, he⟩ := ih ht (parts ht hty hk _ (by simp)) hsubs
      (Nat.le_trans (extends_intern _ _).size_le hs)
    obtain ⟨ht₂, hr⟩ := intern ht₁ (by simpa using he) hs
    exact ⟨ht₂, wrapped _ ht₂ hr⟩
  | map _ _ hk h₁ h₂ ih₁ ih₂ =>
    have hs₂ := Nat.le_trans (extends_intern _ _).size_le hs
    obtain ⟨ht₁, hkey⟩ := ih₁ ht (parts ht hty hk _ (by simp)) hsubs
      (Nat.le_trans h₂.extends.size_le hs₂)
    obtain ⟨ht₂, hvalue⟩ := ih₂ ht₁
      (mono h₁.extends ht₁ (parts ht hty hk _ (by simp)))
      (fun k b hb => mono h₁.extends ht₁ (hsubs k b hb)) hs₂
    obtain ⟨ht₃, hr⟩ := intern ht₂
      (by simpa using ⟨mono h₂.extends ht₂ hkey, hvalue⟩) hs
    exact ⟨ht₃, wrapped _ ht₃ hr⟩

/-- What interning containers of types of the table keeps, substitution of such types keeps. -/
theorem Substitutes.preserves_lt {P : Table → Prop} {n : Nat}
    (parts : ∀ {t ty c}, P t → t.kind? ty = some (.container c) → ∀ p ∈ c.parts, p.index < t.size)
    (intern : ∀ {t c}, P t → (∀ p ∈ c.parts, p.index < t.size) → (t.intern c).2.size ≤ n →
      P (t.intern c).2)
    (h : Substitutes subs t ty r t') (ht : P t) (hty : ty.index < t.size)
    (hsubs : ∀ (k : Nat) b, subs[k]? = some b → b.index < t.size) (hs : t'.size ≤ n) :
    P t' ∧ r.index < t'.size :=
  h.preserves (Q := fun t ty => ty.index < t.size)
    (fun hext _ hty => Nat.lt_of_lt_of_le hty hext.size_le) (fun ht _ hk => parts ht hk)
    (fun ty _ hb => by rwa [TypeId.index_wrappedLike])
    (fun ht hp hs => ⟨intern ht hp hs, index_intern_lt _ _⟩) ht hty hsubs hs

theorem Substitutes.canonical (h : Substitutes subs t ty r t') (ht : t.Canonical)
    (hs : t'.size ≤ TypeId.capacity) : t'.Canonical :=
  (h.preserves (Q := fun _ _ => True) (fun _ _ _ => trivial) (fun _ _ _ _ _ => trivial)
    (fun _ _ _ => trivial) (fun ht _ hs => ⟨ht.intern hs, trivial⟩) ht trivial
    (fun _ _ _ => trivial) hs).1

/-! ## Layers -/

/-- Every part of a container is older than the container. -/
def Layered (t : Table) : Prop :=
  ∀ ⦃ty c⦄, t.kind? ty = some (.container c) → ∀ p ∈ c.parts, p.index < ty.index

theorem Layered.part_lt {c : Container} (h : t.Layered) (hk : t.kind? ty = some (.container c)) :
    ∀ p ∈ c.parts, p.index < t.size :=
  fun p hp => Nat.lt_trans (h hk p hp) (lt_size_of_kind? hk)

/-- Induction over the nesting of containers. -/
theorem Layered.induction (h : t.Layered) {P : TypeId → Prop}
    (leaf : ∀ ty, (∀ c, t.kind? ty ≠ some (.container c)) → P ty)
    (container : ∀ ty c, t.kind? ty = some (.container c) → (∀ p ∈ c.parts, P p) → P ty) :
    ∀ ty, P ty := by
  have below : ∀ n, ∀ ty : TypeId, ty.index < n → P ty := by
    intro n
    induction n with
    | zero => exact fun ty hty => absurd hty (Nat.not_lt_zero _)
    | succ n ih =>
      intro ty hty
      by_cases hk : ∃ c, t.kind? ty = some (.container c)
      · obtain ⟨c, hk⟩ := hk
        refine container ty c hk fun p hp => ih p ?_
        have := h hk p hp
        omega
      · exact leaf ty fun c hc => hk ⟨c, hc⟩
  exact fun ty => below (ty.index + 1) ty (Nat.lt_succ_self _)

theorem Layered.intern {c : Container} (h : t.Layered) (hp : ∀ p ∈ c.parts, p.index < t.size) :
    (t.intern c).2.Layered := by
  intro ty c' hk p hp'
  rcases kind?_of_intern hk with hk | ⟨hty, rfl⟩
  · exact h hk p hp'
  · rw [hty]
    exact hp p hp'

/-- Substitution of types of the table puts every container above its parts. -/
theorem Substitutes.layered (h : Substitutes subs t ty r t') (ht : t.Layered)
    (hty : ty.index < t.size) (hsubs : ∀ (k : Nat) b, subs[k]? = some b → b.index < t.size) :
    t'.Layered ∧ r.index < t'.size :=
  h.preserves_lt (P := Layered) Layered.part_lt (fun ht hp _ => ht.intern hp) ht hty hsubs
    (Nat.le_refl _)

theorem exists_substituteWithin (h₀ : t₀.Layered) :
    ∀ {depth : Nat} {t : Table} {ty : TypeId}, Extends t₀ t → ty.index < t₀.size →
      ty.index < depth → ∃ r t', substituteWithin subs depth t ty = some (r, t')
  | 0, _, _, _, _, h => absurd h (by omega)
  | depth + 1, t, ty, ht, hty, hd => by
    by_cases hc : subs.isEmpty = true ∨ ty.isGeneric = false
    · exact ⟨_, _, substituteWithin_closed hc⟩
    obtain ⟨hs, hg⟩ : subs.isEmpty = false ∧ ty.isGeneric = true := by simpa using hc
    by_cases hk : ∃ c, t.kind? ty = some (.container c)
    · obtain ⟨c, hk⟩ := hk
      have hk₀ := ht.kind?_eq hty ▸ hk
      have hpart : ∀ p ∈ c.parts, p.index < t₀.size ∧ p.index < depth := fun p hp => by
        have := h₀ hk₀ p hp
        omega
      cases c with
      | array elem =>
        obtain ⟨h₁, h₂⟩ := hpart elem (by simp)
        obtain ⟨r, t', hr⟩ := exists_substituteWithin h₀ ht h₁ h₂
        exact ⟨_, _, by rw [substituteWithin_array hs hg hk, hr, Option.map_some]⟩
      | fixedArray elem size =>
        obtain ⟨h₁, h₂⟩ := hpart elem (by simp)
        obtain ⟨r, t', hr⟩ := exists_substituteWithin h₀ ht h₁ h₂
        exact ⟨_, _, by rw [substituteWithin_fixedArray hs hg hk, hr, Option.map_some]⟩
      | map key value =>
        obtain ⟨h₁, h₂⟩ := hpart key (by simp)
        obtain ⟨h₃, h₄⟩ := hpart value (by simp)
        obtain ⟨k, t₁, hkey⟩ := exists_substituteWithin h₀ ht h₁ h₂
        obtain ⟨v, t₂, hvalue⟩ := exists_substituteWithin h₀
          (ht.trans (substituteWithin_sound hkey).extends) h₃ h₄
        exact ⟨_, _, by rw [substituteWithin_map hs hg hk, hkey, Option.bind_some, hvalue,
          Option.map_some]⟩
    · exact ⟨_, _, substituteWithin_leaf hs hg fun c hc => hk ⟨c, hc⟩⟩

/-- Substitution in a type of a layered table ends, also when other symbols were added since. -/
theorem exists_substitute (h₀ : t₀.Layered) (ht : Extends t₀ t) (hty : ty.index < t₀.size) :
    ∃ r t', t.substitute subs ty = some (r, t') :=
  exists_substituteWithin h₀ ht hty (Nat.lt_succ_of_lt ty.index_lt)

theorem kind?_eq_none (hty : t.size ≤ ty.index) : t.kind? ty = none := by
  simp [kind?, symbol?, Array.getElem?_eq_none (show t.entries.size ≤ ty.index from hty)]

/-- An id of no symbol is left alone. -/
theorem Substitutes.eq_of_size_le (h : Substitutes subs t ty r t') (hty : t.size ≤ ty.index) :
    r = ty ∧ t' = t :=
  h.unique (.unbound (by simp [kind?_eq_none hty]) (by simp [kind?_eq_none hty]))

/-- In a layered table substitution ends for every id, also one of no symbol, and goes through no
more nested containers than there are older indices. -/
theorem Layered.exists_substitute (h : t.Layered) (subs : Bindings) (ty : TypeId) :
    ∃ r t', ∀ depth, ty.index < depth → substituteWithin subs depth t ty = some (r, t') := by
  obtain ⟨r, t', hr⟩ : ∃ r t', substituteWithin subs (ty.index + 1) t ty = some (r, t') := by
    by_cases hty : ty.index < t.size
    · exact exists_substituteWithin h (.refl t) hty (Nat.lt_succ_self _)
    · have hk := kind?_eq_none (Nat.le_of_not_lt hty)
      by_cases hc : subs.isEmpty = true ∨ ty.isGeneric = false
      · exact ⟨ty, t, substituteWithin_closed hc⟩
      · obtain ⟨hs, hg⟩ : subs.isEmpty = false ∧ ty.isGeneric = true := by simpa using hc
        exact ⟨_, _, substituteWithin_leaf hs hg (by simp [hk])⟩
  exact ⟨r, t', fun depth hd => substituteWithin_mono hr hd⟩

/-- In a layered table the rules describe the function exactly. -/
theorem substitute_eq_some_iff (h₀ : t₀.Layered) (ht : Extends t₀ t) (hty : ty.index < t₀.size) :
    t.substitute subs ty = some (r, t') ↔ Substitutes subs t ty r t' := by
  refine ⟨substituteWithin_sound, fun h => ?_⟩
  obtain ⟨r', t'', hx⟩ : ∃ r' t'', t.substitute subs ty = some (r', t'') :=
    exists_substitute h₀ ht hty
  obtain ⟨rfl, rfl⟩ := h.unique (substituteWithin_sound hx)
  exact hx

/-! ## Repetition -/

/-- Once substitution in a type of a layered table was carried out, it can be repeated in any later
table with the same answer. -/
theorem Substitutes.replay (h : Substitutes subs t ty r t₁) (h₀ : t₀.Layered)
    (ht : Extends t₀ t) (hty : ty.index < t₀.size) (h₂ : Extends t₁ t₂) (hc : t₂.Canonical) :
    Substitutes subs t₂ ty r t₂ := by
  -- The rule used last is used again. A container interned by then is found, not added.
  have found : ∀ {t₁ : Table} {c : Container}, Extends (t₁.intern c).2 t₂ →
      t₂.intern c = ((t₁.intern c).1, t₂) := by
    intro t₁ c h
    obtain ⟨i, hi, hid⟩ := exists_internedAt_intern t₁ c
    rw [hid, hc.intern_eq (h.internedAt hi)]
  have kind : ∀ {t ty}, Extends t₀ t → Extends t t₂ → ty.index < t₀.size →
      t₂.kind? ty = t.kind? ty := by
    intro t ty h₁ h₂ hty
    rw [(h₁.trans h₂).kind?_eq hty, h₁.kind?_eq hty]
  induction h with
  | closed h => exact .closed h
  | unbound hk h =>
    rw [← kind ht h₂ hty] at h
    exact .unbound (fun c => kind ht h₂ hty ▸ hk c) h
  | bound hg hk hb => exact .bound hg (kind ht h₂ hty ▸ hk) hb
  | @array t t₁ ty elem elem' hs hg hk he ih =>
    have h₁ := (extends_intern t₁ (.array elem')).trans h₂
    have hlt := h₀ (ht.kind?_eq hty ▸ hk) elem (by simp)
    have key := Substitutes.array hs hg (kind ht (he.extends.trans h₁) hty ▸ hk)
      (ih ht (by omega) h₁)
    rwa [found h₂] at key
  | @fixedArray t t₁ ty elem elem' size hs hg hk he ih =>
    have h₁ := (extends_intern t₁ (.fixedArray elem' size)).trans h₂
    have hlt := h₀ (ht.kind?_eq hty ▸ hk) elem (by simp)
    have key := Substitutes.fixedArray hs hg (kind ht (he.extends.trans h₁) hty ▸ hk)
      (ih ht (by omega) h₁)
    rwa [found h₂] at key
  | @map t t₁ t₃ ty key key' value value' hs hg hk hkey hvalue ih₁ ih₂ =>
    have h₃ := (extends_intern t₃ (.map key' value')).trans h₂
    have h₁ := hvalue.extends.trans h₃
    have hlt₁ := h₀ (ht.kind?_eq hty ▸ hk) key (by simp)
    have hlt₂ := h₀ (ht.kind?_eq hty ▸ hk) value (by simp)
    have again := Substitutes.map hs hg (kind ht (hkey.extends.trans h₁) hty ▸ hk)
      (ih₁ ht (by omega) h₁) (ih₂ (ht.trans hkey.extends) (by omega) h₃)
    rwa [found h₂] at again

/-- A container of the table stays as it is if its parts do. -/
theorem Substitutes.of_parts {c : Container} {i : Nat} (hc : t.Canonical) (hi : t.InternedAt c i)
    (hp : ∀ p ∈ c.parts, Substitutes subs t p p t) (other : TypeId) :
    Substitutes subs t ((containerId c i).wrappedLike other)
      ((containerId c i).wrappedLike other) t := by
  have hk : t.kind? ((containerId c i).wrappedLike other) = some (.container c) := by
    apply InternedAt.kind?
    rwa [TypeId.index_wrappedLike, hc.index_containerId hi]
  have hfound := hc.intern_eq hi
  by_cases h : subs.isEmpty = true ∨ ((containerId c i).wrappedLike other).isGeneric = false
  · exact .closed h
  obtain ⟨hs, hg⟩ :
      subs.isEmpty = false ∧ ((containerId c i).wrappedLike other).isGeneric = true := by
    simpa using h
  cases c with
  | array elem =>
    have key := Substitutes.array hs hg hk (hp elem (by simp))
    rwa [hfound, TypeId.wrappedLike_wrappedLike_self] at key
  | fixedArray elem size =>
    have key := Substitutes.fixedArray hs hg hk (hp elem (by simp))
    rwa [hfound, TypeId.wrappedLike_wrappedLike_self] at key
  | map key value =>
    have key := Substitutes.map hs hg hk (hp key (by simp)) (hp value (by simp))
    rwa [hfound, TypeId.wrappedLike_wrappedLike_self] at key

end Unroll.Table
