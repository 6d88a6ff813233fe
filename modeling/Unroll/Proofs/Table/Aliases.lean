import Unroll.Proofs.Table.Interning

/-!
# Alias chains

The alias chain of an id leads from each alias to its parent, until it meets a symbol that is no
alias or an index without a symbol, or for ever if it comes back to an index. The search takes at
most so many steps along the chain (`exists_chain_unaliasWithin`), and the wrappers of all ids that
it passes add up (`has_unaliasWithin`). Both follow the chain through `unaliasWithin_of_parent`: the
wrappers of an alias are those of the answer for its parent and its own.

So the end of a chain of at most 64 steps is found, with its index, its mark and its elements, and a
chain that is longer or comes back stops at an alias, which has no elements unless an alias has
taken the place of `string` (`unalias_exact`).
-/

namespace Unroll

namespace Table

variable {t : Table} {ty x e p : TypeId} {flag : TypeFlag} {i j k n : Nat}

/-! ## The chain -/

/-- The type that an alias stands for. -/
def aliasParent? (t : Table) (ty : TypeId) : Option TypeId :=
  match t.kind? ty with
  | some (.aliasOf parent) => some parent
  | _ => none

/-- The id that is met after so many steps along the chain, if the chain goes that far. -/
def aliasChain (t : Table) (ty : TypeId) : Nat → Option TypeId
  | 0 => some ty
  | k + 1 => (t.aliasChain ty k).bind t.aliasParent?

/-- After `k` steps the chain is at `e`, which is no alias: another symbol, or none. -/
structure ChainEnds (t : Table) (ty : TypeId) (k : Nat) (e : TypeId) : Prop where
  reached : t.aliasChain ty k = some e
  final : ∀ parent, t.kind? e ≠ some (.aliasOf parent)

/-- The chain comes back to an index. -/
def ChainCyclic (t : Table) (ty : TypeId) : Prop :=
  ∃ i j a b, i < j ∧ t.aliasChain ty i = some a ∧ t.aliasChain ty j = some b ∧ a.index = b.index

theorem aliasParent?_eq_some_iff : t.aliasParent? ty = some p ↔ t.kind? ty = some (.aliasOf p) := by
  unfold aliasParent?
  split
  next parent h => simp [h]
  next h => simpa using h p

theorem aliasParent?_eq_none_iff :
    t.aliasParent? ty = none ↔ ∀ parent, t.kind? ty ≠ some (.aliasOf parent) := by
  simp only [Option.eq_none_iff_forall_ne_some, ne_eq, aliasParent?_eq_some_iff]

theorem aliasParent?_congr (h : ty.index = x.index) : t.aliasParent? ty = t.aliasParent? x := by
  unfold aliasParent?
  rw [kind?_congr h]

theorem aliasChain_add (t : Table) (ty : TypeId) (i k : Nat) :
    t.aliasChain ty (i + k) = (t.aliasChain ty i).bind (t.aliasChain · k) := by
  induction k with
  | zero => simp [aliasChain]
  | succ k ih =>
    rw [← Nat.add_assoc, aliasChain, ih, Option.bind_assoc]
    rfl

/-- The chain from its first step on. -/
theorem aliasChain_succ (t : Table) (ty : TypeId) (k : Nat) :
    t.aliasChain ty (k + 1) = (t.aliasParent? ty).bind (t.aliasChain · k) := by
  rw [Nat.add_comm, aliasChain_add]
  rfl

/-- Some id of the chain has a property: the first one, or one of the chain of its parent. -/
theorem exists_aliasChain_succ_iff {Q : TypeId → Prop} :
    (∃ i a, i ≤ n + 1 ∧ t.aliasChain ty i = some a ∧ Q a) ↔
      Q ty ∨ ∃ p, t.aliasParent? ty = some p ∧
        ∃ i a, i ≤ n ∧ t.aliasChain p i = some a ∧ Q a := by
  constructor
  · rintro ⟨i, a, hi, ha, hq⟩
    cases i with
    | zero =>
      cases ha
      exact .inl hq
    | succ i =>
      rw [aliasChain_succ] at ha
      obtain ⟨p, hp, ha⟩ := Option.bind_eq_some_iff.1 ha
      exact .inr ⟨p, hp, i, a, by omega, ha, hq⟩
  · rintro (hq | ⟨p, hp, i, a, hi, ha, hq⟩)
    · exact ⟨0, ty, Nat.zero_le _, rfl, hq⟩
    · refine ⟨i + 1, a, by omega, ?_, hq⟩
      rw [aliasChain_succ, hp]
      exact ha

theorem isSome_aliasChain_of_le (hle : i ≤ j) (h : (t.aliasChain ty j).isSome = true) :
    (t.aliasChain ty i).isSome = true := by
  obtain ⟨k, rfl⟩ := Nat.exists_eq_add_of_le hle
  rw [aliasChain_add] at h
  rcases hi : t.aliasChain ty i with _ | a
  · rw [hi] at h
    cases h
  · rfl

/-- Behind its end a chain meets nothing. -/
theorem ChainEnds.aliasChain_eq_none (h : t.ChainEnds ty k e) (hlt : k < j) :
    t.aliasChain ty j = none := by
  rcases hj : t.aliasChain ty j with _ | a
  · rfl
  · have hnext := isSome_aliasChain_of_le (Nat.succ_le_of_lt hlt) (by rw [hj]; rfl)
    rw [aliasChain, h.reached, Option.bind_some, aliasParent?_eq_none_iff.2 h.final] at hnext
    cases hnext

/-- A chain that comes back to an index never ends: what follows an index is always the same. -/
theorem ChainCyclic.isSome (h : t.ChainCyclic ty) (n : Nat) :
    (t.aliasChain ty n).isSome = true := by
  obtain ⟨i, j, a, b, hij, ha, hb, hidx⟩ := h
  have again : ∀ m, t.aliasChain ty (j + (m + 1)) = t.aliasChain ty (i + (m + 1)) := by
    intro m
    rw [aliasChain_add, aliasChain_add, ha, hb, Option.bind_some, Option.bind_some,
      aliasChain_succ, aliasChain_succ, aliasParent?_congr hidx]
  induction n using Nat.strongRecOn with
  | ind n ih =>
    rcases Nat.lt_or_ge j n with hlt | hge
    · obtain ⟨m, rfl⟩ := Nat.exists_eq_add_of_lt hlt
      rw [Nat.add_assoc, again]
      exact ih _ (by omega)
    · exact isSome_aliasChain_of_le hge (by rw [hb]; rfl)

/-! ## The search along the chain -/

theorem unaliasWithin_of_final (n : Nat) (h : t.aliasParent? ty = none) :
    t.unaliasWithin n ty = ty := by
  cases n with
  | zero => rfl
  | succ n =>
    rw [unaliasWithin]
    split
    next parent hk => exact absurd hk (aliasParent?_eq_none_iff.1 h parent)
    next => rfl

theorem unaliasWithin_succ (n : Nat) (h : t.aliasParent? ty = some p) :
    t.unaliasWithin (n + 1) ty = t.unaliasWithin n (p.wrappedLike ty) := by
  rw [unaliasWithin, aliasParent?_eq_some_iff.1 h]

/-- Wrappers play no part in the search, and the answer has them. -/
theorem unaliasWithin_wrappedLike (t : Table) (n : Nat) (ty other : TypeId) :
    t.unaliasWithin n (ty.wrappedLike other) = (t.unaliasWithin n ty).wrappedLike other := by
  have hsame : ∀ ty : TypeId, t.aliasParent? (ty.wrappedLike other) = t.aliasParent? ty :=
    fun ty => aliasParent?_congr (TypeId.index_wrappedLike ty other)
  induction n generalizing ty with
  | zero => rfl
  | succ n ih =>
    rcases h : t.aliasParent? ty with _ | p
    · rw [unaliasWithin_of_final _ h, unaliasWithin_of_final _ ((hsame ty).trans h)]
    · rw [unaliasWithin_succ n h, unaliasWithin_succ n ((hsame ty).trans h), ← ih,
        TypeId.wrappedLike_assoc]

theorem unaliasWithin_of_parent (n : Nat) (h : t.aliasParent? ty = some p) :
    t.unaliasWithin (n + 1) ty = (t.unaliasWithin n p).wrappedLike ty := by
  rw [unaliasWithin_succ n h, unaliasWithin_wrappedLike]

/-- The search stops at the end of the chain or when its steps are used up. -/
theorem exists_chain_unaliasWithin (t : Table) (n : Nat) (ty : TypeId) :
    ∃ k e, k ≤ n ∧ t.aliasChain ty k = some e ∧ (k = n ∨ t.aliasParent? e = none) ∧
      (t.unaliasWithin n ty).index = e.index ∧
      (t.unaliasWithin n ty).isGeneric = e.isGeneric := by
  induction n generalizing ty with
  | zero => exact ⟨0, ty, Nat.le_refl 0, rfl, .inl rfl, rfl, rfl⟩
  | succ n ih =>
    rcases h : t.aliasParent? ty with _ | p
    · rw [unaliasWithin_of_final _ h]
      exact ⟨0, ty, Nat.zero_le _, rfl, .inr h, rfl, rfl⟩
    · obtain ⟨k, e, hk, he, hstop, hidx, hgen⟩ := ih p
      refine ⟨k + 1, e, by omega, ?_, hstop.imp_left (congrArg (· + 1)), ?_, ?_⟩
      · rw [aliasChain_succ, h]
        exact he
      · rw [unaliasWithin_of_parent n h, TypeId.index_wrappedLike, hidx]
      · rw [unaliasWithin_of_parent n h]
        exact (TypeId.isGeneric_wrappedLike _ _).trans hgen

/-- The answer is wrapped in all that an id of the chain is wrapped in, as far as the search goes. -/
theorem has_unaliasWithin (hf : flag ≠ .generic) (n : Nat) (ty : TypeId) :
    (t.unaliasWithin n ty).has flag = true ↔
      ∃ i a, i ≤ n ∧ t.aliasChain ty i = some a ∧ a.has flag = true := by
  induction n generalizing ty with
  | zero =>
    refine ⟨fun h => ⟨0, ty, Nat.le_refl 0, rfl, h⟩, ?_⟩
    rintro ⟨i, a, hi, ha, hflag⟩
    obtain rfl : i = 0 := by omega
    cases ha
    exact hflag
  | succ n ih =>
    rw [exists_aliasChain_succ_iff]
    rcases h : t.aliasParent? ty with _ | p
    · simp [unaliasWithin_of_final _ h]
    · rw [unaliasWithin_of_parent n h, TypeId.has_wrappedLike hf, Bool.or_eq_true, ih]
      simp [or_comm]

/-! ## Where the search ends -/

/-- With enough steps for the chain the search finds its end. -/
theorem ChainEnds.unaliasWithin_eq (h : t.ChainEnds ty k e) (hk : k ≤ n) :
    (t.unaliasWithin n ty).index = e.index ∧ (t.unaliasWithin n ty).isGeneric = e.isGeneric := by
  obtain ⟨k', e', hk', he', hstop, hidx, hgen⟩ := exists_chain_unaliasWithin t n ty
  -- Neither of the two steps lies behind the other: the chain ends at `k`, and the search at `k'`.
  have hle : k' ≤ k := by
    refine Nat.le_of_not_lt fun hlt => ?_
    rw [h.aliasChain_eq_none hlt] at he'
    cases he'
  have hge : k ≤ k' := by
    rcases hstop with rfl | hfinal
    · exact hk
    · refine Nat.le_of_not_lt fun hlt => ?_
      have hnone := ChainEnds.aliasChain_eq_none ⟨he', aliasParent?_eq_none_iff.1 hfinal⟩ hlt
      rw [h.reached] at hnone
      cases hnone
  obtain rfl : k' = k := Nat.le_antisymm hle hge
  obtain rfl : e' = e := Option.some.inj (he'.symm.trans h.reached)
  exact ⟨hidx, hgen⟩

/-- With too few steps the search stops at an alias. -/
theorem kind?_unaliasWithin (h : (t.aliasChain ty (n + 1)).isSome = true) :
    ∃ e, t.aliasChain ty n = some e ∧ (t.unaliasWithin n ty).index = e.index ∧
      ∃ parent, t.kind? (t.unaliasWithin n ty) = some (.aliasOf parent) := by
  obtain ⟨k, e, hk, he, hstop, hidx, -⟩ := exists_chain_unaliasWithin t n ty
  have hnext := isSome_aliasChain_of_le (Nat.succ_le_succ hk) h
  rw [aliasChain, he] at hnext
  obtain ⟨p, hp⟩ : ∃ p, t.aliasParent? e = some p := Option.isSome_iff_exists.1 hnext
  rcases hstop with rfl | hfinal
  · refine ⟨e, he, hidx, p, ?_⟩
    rw [kind?_congr hidx]
    exact aliasParent?_eq_some_iff.1 hp
  · cases hfinal.symm.trans hp

/-- A chain ends within so many steps exactly if it does not go on. -/
theorem exists_chainEnds_iff (t : Table) (ty : TypeId) (n : Nat) :
    (∃ k e, k ≤ n ∧ t.ChainEnds ty k e) ↔ t.aliasChain ty (n + 1) = none := by
  constructor
  · rintro ⟨k, e, hk, h⟩
    exact h.aliasChain_eq_none (Nat.lt_succ_of_le hk)
  · intro hnone
    obtain ⟨k, e, hk, he, hstop, -⟩ := exists_chain_unaliasWithin t n ty
    refine ⟨k, e, hk, he, aliasParent?_eq_none_iff.1 ?_⟩
    rcases hstop with rfl | hfinal
    · rw [aliasChain, he] at hnone
      exact hnone
    · exact hfinal

theorem valueType_congr (h : (t.unalias ty).index = (t.unalias x).index) :
    t.valueType ty = t.valueType x := by
  unfold valueType symbol?
  simp only [h]

theorem valueType_of_alias (h : t.kind? (t.unalias ty) = some (.aliasOf p)) :
    t.valueType ty = if (t.unalias ty).index = TypeId.string.index then .u8 else .void := by
  obtain ⟨s, hs, hk⟩ := Option.map_eq_some_iff.1 h
  have hc : s.container? = none := by rw [Symbol.container?, hk]
  unfold valueType
  simp [hs, hc]

end Table

open Table

/-- A chain that ends within 64 steps is followed to its end; else the search stops at the alias it
meets after 64 steps. -/
theorem unalias_exact (t : Table) (ty : TypeId) :
    (∀ k e, k ≤ 64 → t.ChainEnds ty k e →
      (t.unalias ty).index = e.index ∧
      (∀ flag, flag ≠ .generic → ((t.unalias ty).has flag = true ↔
        ∃ i a, i ≤ k ∧ t.aliasChain ty i = some a ∧ a.has flag = true)) ∧
      (t.unalias ty).isGeneric = e.isGeneric ∧
      t.unalias (t.unalias ty) = t.unalias ty ∧
      t.valueType ty = t.valueType e) ∧
    (t.ChainCyclic ty ∨ (t.aliasChain ty 65).isSome = true →
      (∃ e, t.aliasChain ty 64 = some e ∧ (t.unalias ty).index = e.index) ∧
      (∃ s, t.symbol? (t.unalias ty) = some s ∧ s.isAlias = true) ∧
      t.valueType ty = if (t.unalias ty).index = TypeId.string.index then .u8 else .void) ∧
    ((∃ k e, k ≤ 64 ∧ t.ChainEnds ty k e) ↔
      ¬ (t.ChainCyclic ty ∨ (t.aliasChain ty 65).isSome = true)) := by
  have hlong : t.ChainCyclic ty ∨ (t.aliasChain ty 65).isSome = true ↔
      (t.aliasChain ty 65).isSome = true :=
    or_iff_right_of_imp fun h => h.isSome 65
  refine ⟨fun k e hk h => ?_, fun h => ?_, ?_⟩
  · obtain ⟨hidx, hgen⟩ : (t.unalias ty).index = e.index ∧ _ := h.unaliasWithin_eq hk
    have hend : t.unalias e = e := unalias_of_not_alias h.final
    have hself : t.unalias (t.unalias ty) = t.unalias ty := by
      apply unalias_of_not_alias
      rw [kind?_congr hidx]
      exact h.final
    refine ⟨hidx, fun flag hf => ?_, hgen, hself, valueType_congr (by rw [hend]; exact hidx)⟩
    rw [unalias, has_unaliasWithin hf]
    -- Behind the end nothing is met, so the limit may be replaced by the length of the chain.
    constructor
    · rintro ⟨i, a, -, ha, hflag⟩
      refine ⟨i, a, Nat.le_of_not_lt fun hlt => ?_, ha, hflag⟩
      rw [h.aliasChain_eq_none hlt] at ha
      cases ha
    · rintro ⟨i, a, hi, ha, hflag⟩
      exact ⟨i, a, Nat.le_trans hi hk, ha, hflag⟩
  · obtain ⟨e, he, hidx, parent, hkind⟩ := kind?_unaliasWithin (n := 64) (hlong.1 h)
    obtain ⟨s, hs, hsk⟩ := Option.map_eq_some_iff.1 hkind
    exact ⟨⟨e, he, hidx⟩, ⟨s, hs, by rw [Symbol.isAlias, hsk]⟩, valueType_of_alias hkind⟩
  · rw [exists_chainEnds_iff, hlong, Bool.not_eq_true, Option.isSome_eq_false_iff,
      Option.isNone_iff_eq_none]

/-- An alias of the one below it, or of `string` at the bottom, made optional. -/
def towerAlias (i : Nat) : Symbol :=
  { name := "A" ++ toString i
    kind := .aliasOf ((TypeId.ofIndex (TypeId.string.index + i)).set .option) }

/-- `n` aliases above `string`. -/
def aliasTower (n : Nat) : Table :=
  ⟨Table.initial.entries ++ (Array.range n).map fun i => ⟨towerAlias i, .declared⟩⟩

/-- Two aliases of each other. -/
def aliasPair : Table :=
  ((Table.initial.declareAlias "A" (.ofIndex 14)).2.declareAlias "B" (.ofIndex 13)).2

/-- The sixty-fourth alias of the tower still leads to `string`. The sixty-fifth stops at an alias,
and so does an alias of itself. -/
theorem unalias_exact_tower :
    (aliasTower 65).ChainEnds (.ofIndex 76) 64 (TypeId.string.set .option) ∧
    ((aliasTower 65).unalias (.ofIndex 76)).isOption = true ∧
    (aliasTower 65).valueType (.ofIndex 76) = .u8 ∧
    ((aliasTower 65).aliasChain (.ofIndex 77) 65).isSome = true ∧
    (aliasTower 65).valueType (.ofIndex 77) = .void ∧
    aliasPair.ChainCyclic (.ofIndex 13) ∧ aliasPair.valueType (.ofIndex 13) = .void := by
  have hends : (aliasTower 65).ChainEnds (.ofIndex 76) 64 (TypeId.string.set .option) := by
    have hk : (aliasTower 65).kind? (TypeId.string.set .option) = some .builtin := by
      decide +kernel
    exact ⟨by decide +kernel, fun parent => by simp [hk]⟩
  have hfirst : (aliasTower 65).aliasChain (.ofIndex 77) 64 =
      some ((TypeId.ofIndex 13).set .option) := by decide +kernel
  have hlong : ((aliasTower 65).aliasChain (.ofIndex 77) 65).isSome = true := by
    rw [aliasChain, hfirst]
    decide +kernel
  have hcyclic : aliasPair.ChainCyclic (.ofIndex 13) :=
    ⟨0, 2, .ofIndex 13, .ofIndex 13, by decide, by decide +kernel, by decide +kernel, rfl⟩
  obtain ⟨-, hflags, -, -, hvalue⟩ :=
    (unalias_exact (aliasTower 65) (.ofIndex 76)).1 64 _ (Nat.le_refl _) hends
  obtain ⟨⟨e, he, hidx⟩, -, hvoid⟩ := (unalias_exact (aliasTower 65) (.ofIndex 77)).2.1 (.inr hlong)
  obtain ⟨⟨e', he', hidx'⟩, -, hvoid'⟩ :=
    (unalias_exact aliasPair (.ofIndex 13)).2.1 (.inl hcyclic)
  have hagain : aliasPair.aliasChain (.ofIndex 13) 64 = some (.ofIndex 13) := by decide +kernel
  refine ⟨hends, ?_, hvalue.trans (by decide +kernel), hlong, ?_, hcyclic, ?_⟩
  · exact (hflags .option (by decide)).2 ⟨64, _, Nat.le_refl _, hends.reached, by decide⟩
  · obtain rfl := Option.some.inj (hfirst.symm.trans he)
    rw [hvoid, hidx, if_neg (by decide)]
  · obtain rfl := Option.some.inj (hagain.symm.trans he')
    rw [hvoid', hidx', if_neg (by decide)]

end Unroll
