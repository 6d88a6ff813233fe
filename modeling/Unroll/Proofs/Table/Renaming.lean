import Mathlib.Data.Finset.Card
import Unroll.Proofs.Table.WellBuilt

/-!
# Renaming of indices

A map of indices acts on ids, and through these on everything in a table that mentions types.
`Embeds t₀ f t t'` says that `f` carries the table `t` into `t'` and fixes the indices of `t₀`. The
main step is `Embeds.intern`: a container that `t'` holds can be interned in `t` as well, and the
map of indices extends to it.
-/

namespace Unroll

/-! ## Maps of types -/

section MapTypes

variable (φ : TypeId → TypeId)

def Method.mapTypes (m : Method) : Method :=
  { m with params := m.params.map fun p => { p with typ := φ p.typ }, returnType := φ m.returnType }

def StructDecl.mapTypes (decl : StructDecl) : StructDecl where
  fields := decl.fields.map fun f => { f with typ := φ f.typ }
  generics := decl.generics.map φ
  embeds := decl.embeds.map φ

def Container.mapTypes : Container → Container
  | array elem => array (φ elem)
  | fixedArray elem size => fixedArray (φ elem) size
  | map key value => map (φ key) (φ value)

def SymbolKind.mapTypes : SymbolKind → SymbolKind
  | builtin => builtin
  | struct decl => struct (decl.mapTypes φ)
  | genericParam => genericParam
  | container shape => container (shape.mapTypes φ)
  | aliasOf parent => aliasOf (φ parent)
  | enum values => enum values

def Symbol.mapTypes (s : Symbol) : Symbol :=
  { s with kind := s.kind.mapTypes φ, methods := s.methods.map (·.mapTypes φ) }

def Entry.mapTypes (e : Entry) : Entry := { e with symbol := e.symbol.mapTypes φ }

end MapTypes

section

variable {φ ψ : TypeId → TypeId}

theorem Method.mapTypes_congr {m : Method} (h : ∀ ty ∈ m.types, φ ty = ψ ty) :
    m.mapTypes φ = m.mapTypes ψ := by
  simp only [Method.types, List.mem_cons, List.mem_map, forall_eq_or_imp, forall_exists_index,
    and_imp, forall_apply_eq_imp_iff₂] at h
  obtain ⟨hret, hparams⟩ := h
  rw [mapTypes, mapTypes, hret]
  congr 1
  exact List.map_congr_left fun p hp => by rw [hparams p hp]

theorem StructDecl.mapTypes_congr {decl : StructDecl} (h : ∀ ty ∈ decl.types, φ ty = ψ ty) :
    decl.mapTypes φ = decl.mapTypes ψ := by
  simp only [StructDecl.types, List.mem_append, List.mem_map] at h
  rw [mapTypes, mapTypes]
  congr 1
  · exact List.map_congr_left fun f hf => by rw [h f.typ (.inl (.inl ⟨f, hf, rfl⟩))]
  · exact List.map_congr_left fun ty hty => h ty (.inl (.inr hty))
  · exact List.map_congr_left fun ty hty => h ty (.inr hty)

theorem Container.mapTypes_congr {c : Container} (h : ∀ ty ∈ c.parts, φ ty = ψ ty) :
    c.mapTypes φ = c.mapTypes ψ := by
  cases c <;> simp_all [mapTypes]

theorem SymbolKind.mapTypes_congr {kind : SymbolKind} (h : ∀ ty ∈ kind.types, φ ty = ψ ty) :
    kind.mapTypes φ = kind.mapTypes ψ := by
  cases kind with
  | builtin | genericParam | enum _ => rfl
  | struct decl => exact congrArg struct (StructDecl.mapTypes_congr h)
  | container shape => exact congrArg container (Container.mapTypes_congr h)
  | aliasOf parent => exact congrArg aliasOf (h parent List.mem_cons_self)

theorem Symbol.mapTypes_congr {s : Symbol} (h : ∀ ty ∈ s.types, φ ty = ψ ty) :
    s.mapTypes φ = s.mapTypes ψ := by
  simp only [Symbol.types, List.mem_append, List.mem_flatMap] at h
  rw [mapTypes, mapTypes, SymbolKind.mapTypes_congr fun ty hty => h ty (.inl hty)]
  congr 1
  exact List.map_congr_left fun m hm =>
    Method.mapTypes_congr fun ty hty => h ty (.inr ⟨m, hm, hty⟩)

theorem Symbol.mapTypes_id (s : Symbol) : s.mapTypes id = s := by
  have hmethod : ∀ m : Method, m.mapTypes id = m := fun m => by simp [Method.mapTypes]
  have hkind : s.kind.mapTypes id = s.kind := by
    rcases s.kind with _ | decl | _ | (_ | _ | _) | _ | _ <;>
      simp [SymbolKind.mapTypes, StructDecl.mapTypes, Container.mapTypes]
  simp [mapTypes, hmethod, hkind]

theorem SymbolKind.mapTypes_eq_container_iff {kind : SymbolKind} {c : Container} :
    kind.mapTypes φ = .container c ↔ ∃ c', kind = .container c' ∧ c'.mapTypes φ = c := by
  cases kind <;> simp [mapTypes]

theorem Entry.mapTypes_congr {e : Entry} (h : ∀ ty ∈ e.symbol.types, φ ty = ψ ty) :
    e.mapTypes φ = e.mapTypes ψ := by
  rw [mapTypes, mapTypes, Symbol.mapTypes_congr h]

theorem Entry.mapTypes_eq_self {e : Entry} (h : ∀ ty ∈ e.symbol.types, φ ty = ty) :
    e.mapTypes φ = e := by
  rw [mapTypes_congr (ψ := id) h, mapTypes, Symbol.mapTypes_id]

theorem Container.parts_mapTypes (φ : TypeId → TypeId) (c : Container) :
    (c.mapTypes φ).parts = c.parts.map φ := by
  cases c <;> rfl

theorem Container.mem_parts_mapTypes {c : Container} {p : TypeId} (h : p ∈ c.parts) :
    φ p ∈ (c.mapTypes φ).parts := by
  rw [parts_mapTypes]
  exact List.mem_map_of_mem h

theorem Container.mapTypes_inj {c c' : Container}
    (h : ∀ p ∈ c.parts, ∀ q ∈ c'.parts, φ p = φ q → p = q)
    (heq : c.mapTypes φ = c'.mapTypes φ) : c = c' := by
  cases c <;> cases c' <;> simp_all [mapTypes]

end

/-! ## Renaming -/

/-- The id at the index that `f` gives. -/
def TypeId.rename (f : Nat → Nat) (ty : TypeId) : TypeId := ty.withIndex (f ty.index)

namespace TypeId

variable {f g : Nat → Nat} {ty : TypeId}

theorem rename_congr (h : f ty.index = g ty.index) : ty.rename f = ty.rename g := by
  rw [rename, rename, h]

theorem ofIndex_withIndex (i n : Nat) : (ofIndex i).withIndex n = ofIndex n := by
  refine eq_of_bit_eq fun b => ?_
  rw [bit_withIndex, bit_ofIndex, bit_ofIndex]
  split_ifs with hb <;> simp [hb]

theorem set_withIndex (ty : TypeId) (flag : TypeFlag) (n : Nat) :
    (ty.set flag).withIndex n = (ty.withIndex n).set flag := by
  refine eq_of_bit_eq fun b => ?_
  rw [bit_withIndex, bit_set, bit_set, bit_withIndex]
  split_ifs with hb
  · have hne : b ≠ flag.place := by
      have := flag.le_place
      omega
    simp [hne]
  · rfl

theorem withIndex_index (ty : TypeId) : ty.withIndex ty.index = ty := by
  refine eq_of_bit_eq fun i => ?_
  rw [bit_withIndex, testBit_index]
  split_ifs with h <;> simp [h]

theorem rename_eq_self (h : f ty.index = ty.index) : ty.rename f = ty := by
  rw [rename, h, withIndex_index]

theorem index_rename (h : f ty.index < capacity) : (ty.rename f).index = f ty.index := by
  rw [rename, index_withIndex, Nat.mod_eq_of_lt h]

@[simp] theorem has_rename (f : Nat → Nat) (ty : TypeId) (flag : TypeFlag) :
    (ty.rename f).has flag = ty.has flag :=
  has_withIndex _ _ _

theorem wrappedLike_rename (f : Nat → Nat) (ty other : TypeId) :
    (ty.wrappedLike other).rename f = (ty.rename f).wrappedLike other := by
  refine eq_of_bit_eq fun i => ?_
  rw [rename, rename, index_wrappedLike, bit_withIndex, bit_wrappedLike, bit_wrappedLike,
    bit_withIndex]
  split_ifs with h
  · have h₁ : i ≠ 24 := by omega
    have h₂ : i ≠ 25 := by omega
    simp [h₁, h₂]
  · rfl

/-- Renaming tells apart what the map of indices tells apart. -/
theorem rename_inj {a b : TypeId} (hf : f a.index = f b.index → a.index = b.index)
    (ha : f a.index < capacity) (hb : f b.index < capacity) (h : a.rename f = b.rename f) :
    a = b := by
  have hidx : a.index = b.index := by
    apply hf
    rw [← index_rename ha, h, index_rename hb]
  refine eq_of_bit_eq fun i => ?_
  by_cases hi : i < 24
  · have := congrArg (·.testBit i) hidx
    simpa [testBit_index, hi] using this
  · have := congrArg (·.bit i) h
    simpa [rename, bit_withIndex, hi] using this

end TypeId

namespace Table

variable {t t' t₀ : Table} {c : Container} {ty : TypeId} {f : Nat → Nat} {i j : Nat}

theorem isGeneric_mapTypes_rename (f : Nat → Nat) (c : Container) :
    (c.mapTypes (TypeId.rename f)).isGeneric = c.isGeneric := by
  simp [Container.isGeneric, Container.parts_mapTypes, List.any_map, Function.comp_def]

theorem containerId_rename (hi : i < TypeId.capacity) :
    (containerId c i).rename f = containerId (c.mapTypes (TypeId.rename f)) (f i) := by
  rw [TypeId.rename, index_containerId hi]
  unfold containerId
  rw [isGeneric_mapTypes_rename]
  split_ifs
  · rw [TypeId.set_withIndex, TypeId.ofIndex_withIndex]
  · exact TypeId.ofIndex_withIndex i (f i)

/-! ## Tables grown by interning -/

/-- `t` is `t₀` with entries added as interning makes them, for containers of types in the table. -/
structure Grown (t₀ t : Table) : Prop where
  base : Extends t₀ t
  entry : ∀ {i : Nat} {e}, t₀.size ≤ i → t.entries[i]? = some e →
    ∃ c, e = t.containerEntry c ∧ ∀ p ∈ c.parts, p.index < t.size

theorem Grown.refl (t : Table) : Grown t t :=
  ⟨.refl t, fun hi he => absurd (lt_size_of_entry he) (Nat.not_lt.2 hi)⟩

theorem Grown.mentions_lt (h : Grown t₀ t) (h₀ : t₀.WellFormed) {e : Entry}
    (he : t.entries[i]? = some e) : ∀ ty ∈ e.symbol.types, ty.index < t.size := by
  intro ty hty
  by_cases hi : i < t₀.size
  · rw [h.base.entry_eq hi] at he
    exact Nat.lt_of_lt_of_le (h₀.mentions_lt he ty hty) h.base.size_le
  · obtain ⟨c, rfl, hc⟩ := h.entry (Nat.le_of_not_lt hi) he
    exact hc ty (by simpa [containerEntry, Symbol.types, SymbolKind.types] using hty)

theorem Grown.part_lt (h : Grown t₀ t) (h₀ : t₀.WellFormed) {e : Entry}
    (he : t.entries[i]? = some e) (hk : e.symbol.kind = .container c) :
    ∀ p ∈ c.parts, p.index < t.size := by
  intro p hp
  refine h.mentions_lt h₀ he p ?_
  rw [Symbol.types, hk]
  exact List.mem_append_left _ hp

theorem Grown.intern (h : Grown t₀ t) (hp : ∀ p ∈ c.parts, p.index < t.size) :
    Grown t₀ (t.intern c).2 := by
  rcases hc : t.interned? c with _ | id
  · rw [intern_of_new hc]
    have hext := extends_push t (t.containerEntry c)
    have lt_push : ∀ {c' : Container}, (∀ p ∈ c'.parts, p.index < t.size) →
        ∀ p ∈ c'.parts, p.index < (t.push (t.containerEntry c)).size :=
      fun hp' p hmem => Nat.lt_of_lt_of_le (hp' p hmem) hext.size_le
    refine ⟨h.base.trans hext, fun {i e} hi he => ?_⟩
    rw [entry_push] at he
    split_ifs at he
    · exact ⟨c, (Option.some.inj he).symm.trans (hext.containerEntry_eq hp).symm, lt_push hp⟩
    · obtain ⟨c', rfl, hp'⟩ := h.entry hi he
      exact ⟨c', (hext.containerEntry_eq hp').symm, lt_push hp'⟩
  · rw [intern_of_interned? hc]
    exact h

theorem Substitutes.grown {subs : Bindings} {r : TypeId} (h : Substitutes subs t ty r t')
    (h₀ : t₀.WellFormed) (ht : Grown t₀ t) (hty : ty.index < t.size)
    (hsubs : ∀ (k : Nat) b, subs[k]? = some b → b.index < t.size)
    (hs : t'.size ≤ TypeId.capacity) : Grown t₀ t' ∧ r.index < t'.size :=
  h.preserves_lt (P := Grown t₀)
    (fun ht hk => by
      obtain ⟨e, he, hk⟩ := kind?_eq_some_iff.1 hk
      exact ht.part_lt h₀ he hk)
    (fun ht hp _ => ht.intern hp) ht hty hsubs hs

/-! ## Embeddings -/

/-- `f` carries the entries of `t` to entries of `t'`, tells them apart, and fixes those of `t₀`. -/
structure Embeds (t₀ : Table) (f : Nat → Nat) (t t' : Table) : Prop where
  fixed : ∀ i < t₀.size, f i = i
  entry : ∀ {i : Nat} {e}, t.entries[i]? = some e →
    t'.entries[f i]? = some (e.mapTypes (TypeId.rename f))
  inj : ∀ {i j}, i < t.size → j < t.size → f i = f j → i = j

theorem embeds_id (h : Extends t₀ t) : Embeds t₀ id t₀ t where
  fixed := fun _ _ => rfl
  entry := fun he => by
    rw [Entry.mapTypes_eq_self fun ty _ => TypeId.rename_eq_self rfl]
    exact h _ _ he
  inj := fun _ _ heq => heq

namespace Embeds

theorem rename_eq_self (h : Embeds t₀ f t t') (hty : ty.index < t₀.size) : ty.rename f = ty :=
  TypeId.rename_eq_self (h.fixed _ hty)

theorem lt_size (h : Embeds t₀ f t t') (hi : i < t.size) : f i < t'.size := by
  obtain ⟨e, he⟩ := exists_entry hi
  exact lt_size_of_entry (h.entry he)

theorem size_le (h : Embeds t₀ f t t') : t.size ≤ t'.size := by
  have hcard := Finset.card_le_card_of_injOn (s := Finset.range t.size)
    (t := Finset.range t'.size) f (fun i hi => by simpa using h.lt_size (by simpa using hi))
    (fun i hi j hj => h.inj (by simpa using hi) (by simpa using hj))
  simpa using hcard

theorem index_rename (h : Embeds t₀ f t t') (hs : t'.size ≤ TypeId.capacity)
    (hty : ty.index < t.size) : (ty.rename f).index = f ty.index :=
  TypeId.index_rename (Nat.lt_of_lt_of_le (h.lt_size hty) hs)

theorem congr (h : Embeds t₀ f t t') (h₀ : t₀.WellFormed) (ht : Grown t₀ t)
    {g : Nat → Nat} (hg : ∀ i < t.size, g i = f i) : Embeds t₀ g t t' where
  fixed := fun i hi => by rw [hg i (Nat.lt_of_lt_of_le hi ht.base.size_le), h.fixed i hi]
  entry := fun {i e} he => by
    have hsame : e.mapTypes (TypeId.rename g) = e.mapTypes (TypeId.rename f) :=
      Entry.mapTypes_congr fun ty hty =>
        TypeId.rename_congr (hg _ (ht.mentions_lt h₀ he ty hty))
    rw [hg i (lt_size_of_entry he), hsame, h.entry he]
  inj := fun {i j} hi hj heq => h.inj hi hj (by rw [← hg i hi, ← hg j hj, heq])

theorem internedAt (h : Embeds t₀ f t t') (hi : t.InternedAt c i) :
    t'.InternedAt (c.mapTypes (TypeId.rename f)) (f i) := by
  obtain ⟨e, he, ho, hk⟩ := hi
  exact ⟨_, h.entry he, ho, SymbolKind.mapTypes_eq_container_iff.2 ⟨c, hk, rfl⟩⟩

theorem containerName_eq (h : Embeds t₀ f t t') (hs : t'.size ≤ TypeId.capacity)
    (hp : ∀ p ∈ c.parts, p.index < t.size) :
    t'.containerName (c.mapTypes (TypeId.rename f)) = t.containerName c := by
  have part : ∀ p ∈ c.parts, t'.describe (p.rename f) = t.describe p := by
    intro p hmem
    obtain ⟨e, he⟩ := exists_entry (hp p hmem)
    have he' := h.entry he
    rw [← h.index_rename hs (hp p hmem)] at he'
    simp [describe, symbol?, he, he', Entry.mapTypes, Symbol.mapTypes]
  cases c <;> simp_all [Container.mapTypes, containerName]

theorem container_inj {c' : Container} (h : Embeds t₀ f t t') (hs : t'.size ≤ TypeId.capacity)
    (hp : ∀ p ∈ c.parts, p.index < t.size) (hp' : ∀ p ∈ c'.parts, p.index < t.size)
    (heq : c.mapTypes (TypeId.rename f) = c'.mapTypes (TypeId.rename f)) : c = c' :=
  Container.mapTypes_inj (fun p hmem q hmem' => TypeId.rename_inj (h.inj (hp p hmem) (hp' q hmem'))
    (Nat.lt_of_lt_of_le (h.lt_size (hp p hmem)) hs)
    (Nat.lt_of_lt_of_le (h.lt_size (hp' q hmem')) hs)) heq

theorem internedAt_iff (h : Embeds t₀ f t t') (h₀ : t₀.WellFormed) (ht : Grown t₀ t)
    (hs : t'.size ≤ TypeId.capacity) (hp : ∀ p ∈ c.parts, p.index < t.size) (hi : i < t.size) :
    t'.InternedAt (c.mapTypes (TypeId.rename f)) (f i) ↔ t.InternedAt c i := by
  refine ⟨?_, h.internedAt⟩
  rintro ⟨e', he', ho, hk⟩
  obtain ⟨e, he⟩ := exists_entry hi
  obtain rfl : e.mapTypes (TypeId.rename f) = e' := Option.some.inj ((h.entry he).symm.trans he')
  obtain ⟨c', hk', hc'⟩ := SymbolKind.mapTypes_eq_container_iff.1 hk
  obtain rfl := h.container_inj hs (ht.part_lt h₀ he hk') hp hc'
  exact ⟨e, he, ho, hk'⟩

/-- A container that `t` lacks is not at an index of `t₀` in `t'`. -/
theorem size_le_of_new (h : Embeds t₀ f t t') (h₀ : t₀.WellFormed) (ht : Grown t₀ t)
    (ht' : Extends t₀ t') (hs : t'.size ≤ TypeId.capacity) (hp : ∀ p ∈ c.parts, p.index < t.size)
    (hnew : ∀ i, ¬ t.InternedAt c i) (hj : t'.InternedAt (c.mapTypes (TypeId.rename f)) j) :
    t₀.size ≤ j := by
  by_contra hlt
  have hj₀ := (ht'.persists.internedAt_iff (Nat.lt_of_not_le hlt)).1 hj
  -- Its parts are then types of `t₀`, which `f` fixes.
  have hfix : ∀ p ∈ c.parts, p.rename f = id p := by
    intro p hmem
    obtain ⟨e, he, -, hk⟩ := id hj₀
    have hidx := h.index_rename hs (hp p hmem)
    have hpart := (Grown.refl t₀).part_lt h₀ he hk _ (Container.mem_parts_mapTypes hmem)
    rw [hidx] at hpart
    refine TypeId.rename_eq_self (h.inj ?_ (hp p hmem) (h.fixed _ hpart))
    exact Nat.lt_of_lt_of_le hpart ht.base.size_le
  have hself : c.mapTypes (TypeId.rename f) = c := by
    rw [Container.mapTypes_congr hfix]
    cases c <;> rfl
  rw [hself] at hj₀
  exact hnew j (ht.base.internedAt hj₀)

/-- A new container of `t` goes to the place that it has in `t'`. -/
theorem push (h : Embeds t₀ f t t') (h₀ : t₀.WellFormed) (ht : Grown t₀ t) (ht' : Grown t₀ t')
    (hs : t'.size ≤ TypeId.capacity) (hp : ∀ p ∈ c.parts, p.index < t.size)
    (hnew : ∀ i, ¬ t.InternedAt c i)
    (hj : t'.InternedAt (c.mapTypes (TypeId.rename f)) (f t.size)) :
    Embeds t₀ f (t.push (t.containerEntry c)) t' := by
  have apart : ∀ {i}, i < t.size → f i ≠ f t.size := fun hi heq =>
    hnew _ ((h.internedAt_iff h₀ ht hs hp hi).1 (heq ▸ hj))
  refine ⟨h.fixed, fun {i e} he => ?_, fun {i k} hi hk heq => ?_⟩
  · rw [entry_push] at he
    split_ifs at he with hi
    · cases he
      obtain ⟨e', he', -, hk⟩ := id hj
      obtain ⟨c', rfl, -⟩ := ht'.entry (h.size_le_of_new h₀ ht ht'.base hs hp hnew hj) he'
      obtain rfl := SymbolKind.container.inj hk
      rw [hi, he', containerEntry, h.containerName_eq hs hp]
      rfl
    · exact h.entry he
  · rw [size_push] at hi hk
    by_cases hit : i = t.size <;> by_cases hkt : k = t.size
    · rw [hit, hkt]
    · exact absurd (hit ▸ heq).symm (apart (by omega))
    · exact absurd (hkt ▸ heq) (apart (by omega))
    · exact h.inj (by omega) (by omega) heq

/-- A container that `t'` holds is interned in `t` with the same answer, up to renaming. -/
theorem intern (h : Embeds t₀ f t t') (h₀ : t₀.WellFormed) (ht : Grown t₀ t) (ht' : Grown t₀ t')
    (hc : t'.Canonical) (hp : ∀ p ∈ c.parts, p.index < t.size)
    (hj : t'.InternedAt (c.mapTypes (TypeId.rename f)) j) :
    ∃ g, (∀ i < t.size, g i = f i) ∧ Embeds t₀ g (t.intern c).2 t' ∧
      (t.intern c).1.rename g = containerId (c.mapTypes (TypeId.rename f)) j := by
  have lt_capacity : ∀ {t g}, Embeds t₀ g t t' → ∀ {i}, i < t.size → i < TypeId.capacity :=
    fun hg _ hi => Nat.lt_of_lt_of_le hi (Nat.le_trans hg.size_le hc.size_le)
  rcases hfound : t.interned? c with _ | id
  · obtain ⟨g, hg, rfl⟩ : ∃ g : Nat → Nat, (∀ i < t.size, g i = f i) ∧ g t.size = j :=
      ⟨Function.update f t.size j, fun i hi => Function.update_of_ne (Nat.ne_of_lt hi) _ _,
        Function.update_self _ _ _⟩
    have hsame : c.mapTypes (TypeId.rename g) = c.mapTypes (TypeId.rename f) :=
      Container.mapTypes_congr fun p hmem => TypeId.rename_congr (hg _ (hp p hmem))
    rw [← hsame] at hj ⊢
    have hnew := interned?_eq_none_iff.1 hfound
    have hpush := (h.congr h₀ ht hg).push h₀ ht ht' hc.size_le hp hnew hj
    rw [intern_of_new hfound]
    exact ⟨g, hg, hpush, containerId_rename (lt_capacity hpush (by simp))⟩
  · obtain ⟨i, hi, rfl⟩ := exists_internedAt_of_interned? hfound
    rw [intern_of_interned? hfound]
    refine ⟨f, fun _ _ => rfl, h, ?_⟩
    rw [containerId_rename (lt_capacity h hi.lt_size), hc.unique (h.internedAt hi) hj]

end Embeds

/-! ## Renamed tables -/

/-- `t'` is `t` with its indices renamed: the entries, the containers that are found by their parts
and the types that are found by name. -/
structure Carries (f : Nat → Nat) (t t' : Table) : Prop where
  entry : ∀ i : Nat, t'.entries[f i]? = (t.entries[i]?).map (·.mapTypes (TypeId.rename f))
  interned? : ∀ c, t'.interned? (c.mapTypes (TypeId.rename f)) =
    (t.interned? c).map (TypeId.rename f)
  findType? : ∀ name, t'.findType? name = (t.findType? name).map (TypeId.rename f)

/-- Interning adds nothing that is found by name. -/
theorem Grown.findType?_eq (h : Grown t₀ t) (name : String) :
    t.findType? name = t₀.findType? name := by
  rw [findType?, findType?]
  congr 1
  rcases hfind : t₀.entries.findIdx? (fun e => e.origin == .declared && e.symbol.name == name)
    with _ | i
  · rw [hfind]
    rw [Array.findIdx?_eq_none_iff] at hfind ⊢
    intro e he
    obtain ⟨i, hi⟩ := Array.getElem?_of_mem he
    by_cases hlt : i < t₀.size
    · exact hfind e (Array.mem_of_getElem? ((h.base.entry_eq hlt).symm.trans hi))
    · obtain ⟨c, rfl, -⟩ := h.entry (Nat.le_of_not_lt hlt) hi
      rfl
  · obtain ⟨hi, hp, hmin⟩ := Array.findIdx?_eq_some_iff_getElem.1 hfind
    have same : ∀ {j} (hj : j < t₀.entries.size), ∃ hj' : j < t.entries.size,
        t.entries[j] = t₀.entries[j] := fun hj =>
      Array.getElem?_eq_some_iff.1 (h.base _ _ (Array.getElem?_eq_getElem hj))
    rw [hfind]
    refine Array.findIdx?_eq_some_iff_getElem.2 ⟨(same hi).1, ?_, fun j hj => ?_⟩
    · rw [(same hi).2]
      exact hp
    · rw [(same (Nat.lt_trans hj hi)).2]
      exact hmin j hj

theorem exists_perm_of_injOn {n : Nat} (hlt : ∀ i < n, f i < n)
    (hinj : ∀ {i j}, i < n → j < n → f i = f j → i = j) :
    ∃ g : Equiv.Perm Nat, (∀ i < n, g i = f i) ∧ ∀ i, n ≤ i → g i = i := by
  have hsurj : ∀ k < n, ∃ i < n, f i = k := by
    have := Finset.surjOn_of_injOn_of_card_le (s := Finset.range n) (t := Finset.range n) f
      (fun i hi => by simpa using hlt i (by simpa using hi))
      (fun i hi j hj => hinj (by simpa using hi) (by simpa using hj)) (Nat.le_refl _)
    intro k hk
    obtain ⟨i, hi, rfl⟩ := this (Finset.mem_coe.2 (Finset.mem_range.2 hk))
    exact ⟨i, by simpa using hi, rfl⟩
  have hbij : Function.Bijective fun i => if i < n then f i else i := by
    constructor
    · intro i j heq
      dsimp only at heq
      split_ifs at heq with hi hj hj
      · exact hinj hi hj heq
      · exact absurd (heq ▸ hlt i hi) hj
      · exact absurd (heq ▸ hlt j hj) hi
      · exact heq
    · intro k
      by_cases hk : k < n
      · obtain ⟨i, hi, rfl⟩ := hsurj k hk
        exact ⟨i, if_pos hi⟩
      · exact ⟨k, if_neg hk⟩
  exact ⟨.ofBijective _ hbij, fun i hi => if_pos hi, fun i hi => if_neg (Nat.not_lt.2 hi)⟩

/-- An embedding onto a table of the same size renames the table. -/
theorem Embeds.carries {f : Equiv.Perm Nat} (h : Embeds t₀ f t t') (h₀ : t₀.WellFormed)
    (ht : Grown t₀ t) (ht' : Grown t₀ t') (hc' : t'.Canonical) (hsize : t'.size = t.size)
    (hf : ∀ i, t.size ≤ i → f i = i) : Carries f t t' := by
  have hs : t.size ≤ TypeId.capacity := hsize ▸ hc'.size_le
  constructor
  · intro i
    by_cases hi : i < t.size
    · obtain ⟨e, he⟩ := exists_entry hi
      rw [he, h.entry he, Option.map_some]
    · have hi := Nat.le_of_not_lt hi
      rw [hf i hi, Array.getElem?_eq_none (show t'.size ≤ i from hsize ▸ hi),
        Array.getElem?_eq_none (show t.size ≤ i from hi), Option.map_none]
  · intro c
    rcases hfound : t.interned? c with _ | id
    · rw [Option.map_none, interned?_eq_none_iff]
      intro j hj
      obtain ⟨i, rfl⟩ := f.surjective j
      have hi : i < t.size := by
        by_contra hge
        have := hj.lt_size
        rw [hf i (Nat.le_of_not_lt hge)] at this
        omega
      -- A part from outside the table is renamed to itself, so it is no part of `t'` either.
      have hp : ∀ p ∈ c.parts, p.index < t.size := by
        intro p hmem
        by_contra hge
        have hfix := hf p.index (Nat.le_of_not_lt hge)
        obtain ⟨e, he, -, hk⟩ := id hj
        have := ht'.part_lt h₀ he hk _ (Container.mem_parts_mapTypes hmem)
        rw [TypeId.rename_eq_self hfix] at this
        omega
      exact interned?_eq_none_iff.1 hfound i ((h.internedAt_iff h₀ ht hc'.size_le hp hi).1 hj)
    · obtain ⟨i, hi, rfl⟩ := exists_internedAt_of_interned? hfound
      rw [Option.map_some, containerId_rename (Nat.lt_of_lt_of_le hi.lt_size hs)]
      exact hc'.interned?_eq_some_iff.2 ⟨f i, h.internedAt hi, rfl⟩
  · intro name
    rw [ht.findType?_eq, ht'.findType?_eq]
    rcases hfind : t₀.findType? name with _ | ty
    · rfl
    · obtain ⟨i, e, he, -, -, rfl⟩ := exists_declared_of_findType? hfind
      have hi := lt_size_of_entry he
      have hidx : (TypeId.ofIndex i).index = i :=
        TypeId.index_ofIndex_of_lt (Nat.lt_of_lt_of_le hi h₀.size_le)
      rw [Option.map_some, TypeId.rename_eq_self (by rw [hidx, h.fixed i hi])]

end Table

end Unroll
