import Unroll.Proofs.Table.WellBuilt

/-!
# Unfoldings

A type as a tree: containers are opened down to types that are none, and each node keeps the flags
of its id. Trees have their own substitution, with no table and no interning. In a layered table
the unfolding is complete, and growth of the table does not change it. `Reaches` leads from a type
to its parts at any depth.
-/

namespace Unroll

/-! ## Trees -/

/-- The flags of an id. -/
structure Flags where
  option : Bool
  result : Bool
  generic : Bool
deriving DecidableEq

def TypeId.flags (ty : TypeId) : Flags := ⟨ty.isOption, ty.isResult, ty.isGeneric⟩

/-- Wrapped once more in the option and result of `other`. -/
def Flags.wrappedLike (flags : Flags) (other : TypeId) : Flags :=
  { flags with option := flags.option || other.isOption, result := flags.result || other.isResult }

inductive TypeTree where
  | leaf (ty : TypeId)
  | array (flags : Flags) (elem : TypeTree)
  | fixedArray (flags : Flags) (elem : TypeTree) (size : Nat)
  | map (flags : Flags) (key value : TypeTree)
deriving DecidableEq

namespace TypeTree

def isGeneric : TypeTree → Bool
  | leaf ty => ty.isGeneric
  | array flags _ | fixedArray flags _ _ | map flags _ _ => flags.generic

def wrappedLike (other : TypeId) : TypeTree → TypeTree
  | leaf ty => leaf (ty.wrappedLike other)
  | array flags elem => array (flags.wrappedLike other) elem
  | fixedArray flags elem size => fixedArray (flags.wrappedLike other) elem size
  | map flags key value => map (flags.wrappedLike other) key value

def leaves : TypeTree → List TypeId
  | leaf ty => [ty]
  | array _ elem | fixedArray _ elem _ => elem.leaves
  | map _ key value => key.leaves ++ value.leaves

/-- Puts a tree in the place of each leaf that has one, wrapped as the leaf was. Containers keep
their wrappers and are marked anew. -/
def substitute (σ : TypeId → Option TypeTree) : TypeTree → TypeTree
  | leaf ty => (σ ty).elim (leaf ty) (·.wrappedLike ty)
  | array flags elem =>
    array { flags with generic := (elem.substitute σ).isGeneric } (elem.substitute σ)
  | fixedArray flags elem size =>
    fixedArray { flags with generic := (elem.substitute σ).isGeneric } (elem.substitute σ) size
  | map flags key value =>
    map { flags with generic := (key.substitute σ).isGeneric || (value.substitute σ).isGeneric }
      (key.substitute σ) (value.substitute σ)

/-- Every container is marked generic exactly if a part of it is. -/
def Exact : TypeTree → Prop
  | leaf _ => True
  | array flags elem | fixedArray flags elem _ => flags.generic = elem.isGeneric ∧ elem.Exact
  | map flags key value =>
    flags.generic = (key.isGeneric || value.isGeneric) ∧ key.Exact ∧ value.Exact

/-- The tree of a container, given those of its parts. -/
def ofContainer (flags : Flags) (f : TypeId → TypeTree) : Container → TypeTree
  | .array elem => array flags (f elem)
  | .fixedArray elem size => fixedArray flags (f elem) size
  | .map key value => map flags (f key) (f value)

variable {σ : TypeId → Option TypeTree} {u : TypeTree}

theorem leaves_ofContainer (flags : Flags) (f : TypeId → TypeTree) (c : Container) :
    (ofContainer flags f c).leaves = c.parts.flatMap fun p => (f p).leaves := by
  cases c <;> simp [ofContainer, leaves]

theorem ofContainer_inj {flags flags' : Flags} {f : TypeId → TypeTree} {c c' : Container}
    (h : ofContainer flags f c = ofContainer flags' f c')
    (hf : ∀ p ∈ c.parts, ∀ q ∈ c'.parts, f p = f q → p = q) : flags = flags' ∧ c = c' := by
  cases c <;> cases c' <;> simp_all [ofContainer]

theorem substitute_eq_self (h : u.Exact) (hσ : ∀ ty ∈ u.leaves, σ ty = none) :
    u.substitute σ = u := by
  induction u with
  | leaf ty => rw [substitute, hσ ty List.mem_cons_self, Option.elim_none]
  | array flags elem ih | fixedArray flags elem size ih =>
    rw [substitute, ih h.2 hσ, ← h.1]
  | map flags key value ihk ihv =>
    have hk := ihk h.2.1 fun ty hty => hσ ty (List.mem_append_left _ hty)
    have hv := ihv h.2.2 fun ty hty => hσ ty (List.mem_append_right _ hty)
    rw [substitute, hk, hv, ← h.1]

theorem isGeneric_leaf_of_not_generic (h : u.Exact) (hu : u.isGeneric = false) :
    ∀ ty ∈ u.leaves, ty.isGeneric = false := by
  induction u with
  | leaf ty =>
    intro ty' hty'
    rw [List.mem_singleton.1 hty']
    exact hu
  | array flags elem ih | fixedArray flags elem size ih =>
    exact ih h.2 (h.1.symm.trans hu)
  | map flags key value ihk ihv =>
    obtain ⟨hk, hv⟩ := Bool.or_eq_false_iff.1 (h.1.symm.trans hu)
    intro ty hty
    rcases List.mem_append.1 hty with hty | hty
    · exact ihk h.2.1 hk ty hty
    · exact ihv h.2.2 hv ty hty

end TypeTree

namespace Table

variable {t t' : Table} {ty : TypeId}

/-! ## Unfolding an id -/

/-- Opens at most `depth` nested containers. -/
def unfoldWithin (t : Table) : Nat → TypeId → TypeTree
  | 0, ty => .leaf ty
  | depth + 1, ty =>
    match t.kind? ty with
    | some (.container (.array elem)) => .array ty.flags (t.unfoldWithin depth elem)
    | some (.container (.fixedArray elem size)) =>
      .fixedArray ty.flags (t.unfoldWithin depth elem) size
    | some (.container (.map key value)) =>
      .map ty.flags (t.unfoldWithin depth key) (t.unfoldWithin depth value)
    | _ => .leaf ty

/-- The tree of a type. Only a container that contains itself is nested deeper than there are
indices. -/
def unfolding (t : Table) (ty : TypeId) : TypeTree := t.unfoldWithin TypeId.capacity ty

section Within

variable {depth : Nat}

theorem unfoldWithin_array {elem : TypeId} (hk : t.kind? ty = some (.container (.array elem))) :
    t.unfoldWithin (depth + 1) ty = .array ty.flags (t.unfoldWithin depth elem) := by
  rw [unfoldWithin, hk]

theorem unfoldWithin_fixedArray {elem : TypeId} {size : Nat}
    (hk : t.kind? ty = some (.container (.fixedArray elem size))) :
    t.unfoldWithin (depth + 1) ty = .fixedArray ty.flags (t.unfoldWithin depth elem) size := by
  rw [unfoldWithin, hk]

theorem unfoldWithin_map {key value : TypeId}
    (hk : t.kind? ty = some (.container (.map key value))) :
    t.unfoldWithin (depth + 1) ty =
      .map ty.flags (t.unfoldWithin depth key) (t.unfoldWithin depth value) := by
  rw [unfoldWithin, hk]

theorem unfoldWithin_leaf (hk : ∀ c, t.kind? ty ≠ some (.container c)) :
    t.unfoldWithin depth ty = .leaf ty := by
  cases depth with
  | zero => rfl
  | succ depth =>
    rw [unfoldWithin]
    split
    · exact absurd ‹_› (hk _)
    · exact absurd ‹_› (hk _)
    · exact absurd ‹_› (hk _)
    · rfl

/-- Parts are older, so an index bounds the depth. -/
theorem Layered.unfoldWithin_eq (h : t.Layered) {m : Nat} : ∀ {ty : TypeId}, ty.index < depth →
    ty.index < m → t.unfoldWithin depth ty = t.unfoldWithin m ty := by
  induction depth generalizing m with
  | zero => exact fun hd => absurd hd (Nat.not_lt_zero _)
  | succ depth ih =>
    intro ty hd hm
    obtain ⟨m, rfl⟩ : ∃ n, m = n + 1 := ⟨m - 1, by omega⟩
    by_cases hk : ∃ c, t.kind? ty = some (.container c)
    · obtain ⟨c, hk⟩ := hk
      have part : ∀ p ∈ c.parts, t.unfoldWithin depth p = t.unfoldWithin m p := by
        intro p hp
        have := h hk p hp
        exact ih (by omega) (by omega)
      cases c with
      | array elem =>
        rw [unfoldWithin_array hk, unfoldWithin_array hk, part elem (by simp)]
      | fixedArray elem size =>
        rw [unfoldWithin_fixedArray hk, unfoldWithin_fixedArray hk,
          part elem (by simp)]
      | map key value =>
        rw [unfoldWithin_map hk, unfoldWithin_map hk, part key (by simp),
          part value (by simp)]
    · rw [unfoldWithin_leaf fun c hc => hk ⟨c, hc⟩, unfoldWithin_leaf fun c hc => hk ⟨c, hc⟩]

end Within

theorem capacity_eq_succ : TypeId.capacity = 0xffffff + 1 := rfl

theorem unfolding_leaf (hk : ∀ c, t.kind? ty ≠ some (.container c)) : t.unfolding ty = .leaf ty :=
  unfoldWithin_leaf hk

theorem Layered.unfoldWithin_part (h : t.Layered) {c : Container} {p : TypeId}
    (hk : t.kind? ty = some (.container c)) (hp : p ∈ c.parts) :
    t.unfoldWithin 0xffffff p = t.unfolding p := by
  have hlt := h hk p hp
  have hty := ty.index_lt
  have hcap := capacity_eq_succ
  exact h.unfoldWithin_eq (by omega) (by omega)

theorem Layered.unfolding_array (h : t.Layered) {elem : TypeId}
    (hk : t.kind? ty = some (.container (.array elem))) :
    t.unfolding ty = .array ty.flags (t.unfolding elem) := by
  rw [unfolding, capacity_eq_succ, unfoldWithin_array hk,
    h.unfoldWithin_part hk (by simp)]

theorem Layered.unfolding_fixedArray (h : t.Layered) {elem : TypeId} {size : Nat}
    (hk : t.kind? ty = some (.container (.fixedArray elem size))) :
    t.unfolding ty = .fixedArray ty.flags (t.unfolding elem) size := by
  rw [unfolding, capacity_eq_succ, unfoldWithin_fixedArray hk,
    h.unfoldWithin_part hk (by simp)]

theorem Layered.unfolding_map (h : t.Layered) {key value : TypeId}
    (hk : t.kind? ty = some (.container (.map key value))) :
    t.unfolding ty = .map ty.flags (t.unfolding key) (t.unfolding value) := by
  rw [unfolding, capacity_eq_succ, unfoldWithin_map hk,
    h.unfoldWithin_part hk (by simp),
    h.unfoldWithin_part hk (by simp)]

theorem Layered.unfolding_container (h : t.Layered) {c : Container}
    (hk : t.kind? ty = some (.container c)) :
    t.unfolding ty = .ofContainer ty.flags t.unfolding c := by
  cases c with
  | array elem => exact h.unfolding_array hk
  | fixedArray elem size => exact h.unfolding_fixedArray hk
  | map key value => exact h.unfolding_map hk

/-! ## Nodes -/

theorem isGeneric_unfolding (t : Table) (ty : TypeId) :
    (t.unfolding ty).isGeneric = ty.isGeneric := by
  rw [unfolding, capacity_eq_succ, unfoldWithin]
  split <;> rfl

theorem flags_wrappedLike (ty other : TypeId) :
    (ty.wrappedLike other).flags = ty.flags.wrappedLike other := by
  simp [TypeId.flags, Flags.wrappedLike]

theorem unfolding_wrappedLike (t : Table) (ty other : TypeId) :
    t.unfolding (ty.wrappedLike other) = (t.unfolding ty).wrappedLike other := by
  have hk : t.kind? (ty.wrappedLike other) = t.kind? ty :=
    kind?_congr (TypeId.index_wrappedLike ty other)
  rw [unfolding, unfolding, capacity_eq_succ, unfoldWithin, unfoldWithin, hk]
  split <;> simp only [TypeTree.wrappedLike, flags_wrappedLike]

theorem Layered.leaf_unfolding (h : t.Layered) (ty : TypeId) :
    ∀ l ∈ (t.unfolding ty).leaves, ∀ c, t.kind? l ≠ some (.container c) := by
  induction ty using h.induction with
  | leaf ty hk =>
    rw [unfolding_leaf hk]
    intro l hl
    rw [List.mem_singleton.1 hl]
    exact hk
  | container ty c hk ih =>
    rw [h.unfolding_container hk, TypeTree.leaves_ofContainer]
    intro l hl
    obtain ⟨p, hp, hl⟩ := List.mem_flatMap.1 hl
    exact ih p hp l hl

/-! ## Growth -/

theorem Extends.unfoldWithin_eq (hext : Extends t t') (h : t.Layered) :
    ∀ {depth : Nat} {ty : TypeId}, ty.index < t.size →
      t'.unfoldWithin depth ty = t.unfoldWithin depth ty
  | 0, _, _ => rfl
  | depth + 1, ty, hty => by
    have hkind := hext.kind?_eq hty
    by_cases hk : ∃ c, t.kind? ty = some (.container c)
    · obtain ⟨c, hk⟩ := hk
      have part : ∀ p ∈ c.parts, t'.unfoldWithin depth p = t.unfoldWithin depth p := fun p hp =>
        hext.unfoldWithin_eq h (Nat.lt_trans (h hk p hp) hty)
      cases c with
      | array elem =>
        rw [unfoldWithin_array hk, unfoldWithin_array (hkind.trans hk),
          part elem (by simp)]
      | fixedArray elem size =>
        rw [unfoldWithin_fixedArray hk, unfoldWithin_fixedArray (hkind.trans hk),
          part elem (by simp)]
      | map key value =>
        rw [unfoldWithin_map hk, unfoldWithin_map (hkind.trans hk),
          part key (by simp), part value (by simp)]
    · rw [unfoldWithin_leaf fun c hc => hk ⟨c, hc⟩,
        unfoldWithin_leaf fun c hc => hk ⟨c, hkind.symm.trans hc⟩]

/-- An id of a layered table unfolds to the same tree in every extension. -/
theorem Extends.unfolding_eq (hext : Extends t t') (h : t.Layered) (hty : ty.index < t.size) :
    t'.unfolding ty = t.unfolding ty :=
  hext.unfoldWithin_eq h hty

theorem WellFormed.exact_unfolding (h : t.WellFormed) (ty : TypeId) (hty : t.Sound ty) :
    (t.unfolding ty).Exact := by
  induction ty using h.layered.induction with
  | leaf ty hk =>
    rw [unfolding_leaf hk]
    trivial
  | container ty c hk ih =>
    have hgen := hty.isGeneric_eq hk
    have part : ∀ p ∈ c.parts, (t.unfolding p).Exact := fun p hp => ih p hp (h.sound_part hk p hp)
    cases c with
    | array elem =>
      rw [h.layered.unfolding_array hk]
      refine ⟨?_, part elem (by simp)⟩
      rw [isGeneric_unfolding]
      simpa [TypeId.flags, Container.isGeneric] using hgen
    | fixedArray elem size =>
      rw [h.layered.unfolding_fixedArray hk]
      refine ⟨?_, part elem (by simp)⟩
      rw [isGeneric_unfolding]
      simpa [TypeId.flags, Container.isGeneric] using hgen
    | map key value =>
      rw [h.layered.unfolding_map hk]
      refine ⟨?_, part key (by simp), part value (by simp)⟩
      rw [isGeneric_unfolding, isGeneric_unfolding]
      simpa [TypeId.flags, Container.isGeneric] using hgen

/-! ## Parts at any depth -/

/-- `q` is `ty` or a part of a type that `ty` reaches. -/
inductive Reaches (t : Table) (ty : TypeId) : TypeId → Prop where
  | self : Reaches t ty ty
  | part {q p : TypeId} {c : Container} (h : Reaches t ty q)
      (hk : t.kind? q = some (.container c)) (hp : p ∈ c.parts) : Reaches t ty p

theorem Reaches.mono {q : TypeId} (h : t.Reaches ty q) (hext : Extends t t') : t'.Reaches ty q := by
  induction h with
  | self => exact .self
  | part _ hk hp ih =>
    obtain ⟨e, he, hk⟩ := kind?_eq_some_iff.1 hk
    exact ih.part (kind?_eq_some_iff.2 ⟨e, hext _ _ he, hk⟩) hp

theorem Reaches.trans {p q : TypeId} (h : t.Reaches ty p) (h' : t.Reaches p q) :
    t.Reaches ty q := by
  induction h' with
  | self => exact h
  | part _ hk hp ih => exact ih.part hk hp

end Table

end Unroll
