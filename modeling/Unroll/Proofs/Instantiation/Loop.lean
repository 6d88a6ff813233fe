import Unroll.Instantiation
import Unroll.Proofs.Table.WellBuilt

/-!
# The loop of an instantiation

`Instantiates s t l s' t'` says that the loop over the containers `l` leads from the instantiation
`s` and the table `t` to `s'` and `t'`. What holds along the loop is `Settled done s t`: for each
container visited the table has all that its substitution adds, so substituting again changes
nothing, and the instantiation records the answer where its index is a new one
(`Instantiates.settled`). A table lists its generic containers in an order that is of no account, so
what is known at the end of the loop is known for every order (`exists_settled`).
-/

namespace Unroll

namespace Table

variable {subs : Bindings} {t t' t₀ : Table} {c : Container} {ty r g : TypeId} {i : Nat}

/-! ## Generic containers -/

theorem mem_genericContainersOf {kind : Container.Kind} : g ∈ t.genericContainersOf kind ↔
    ∃ c i, t.InternedAt c i ∧ c.kind = kind ∧ c.isGeneric = true ∧ g = containerId c i := by
  simp only [genericContainersOf, List.mem_filterMap, Prod.exists]
  constructor
  · rintro ⟨e, i, hmem, hg⟩
    have he : t.entries[i]? = some e := by simpa using List.mem_zipIdx_iff_getElem?.1 hmem
    split at hg
    · rename_i c ho hk
      split_ifs at hg with hgen
      exact ⟨c, i, ⟨e, he, ho, hk⟩, hgen.1, hgen.2, (Option.some.inj hg).symm⟩
    · cases hg
  · rintro ⟨c, i, ⟨e, he, ho, hk⟩, hkind, hgen, rfl⟩
    refine ⟨e, i, List.mem_zipIdx_iff_getElem?.2 (by simpa using he), ?_⟩
    simp [ho, hk, hkind, hgen]

theorem mem_genericContainers : g ∈ t.genericContainers ↔
    ∃ c i, t.InternedAt c i ∧ c.isGeneric = true ∧ g = containerId c i := by
  simp only [genericContainers, List.mem_flatMap, mem_genericContainersOf]
  constructor
  · rintro ⟨-, -, c, i, hi, -, hgen, hg⟩
    exact ⟨c, i, hi, hgen, hg⟩
  · rintro ⟨c, i, hi, hgen, hg⟩
    exact ⟨c.kind, by cases c <;> simp [Container.kind], c, i, hi, rfl, hgen, hg⟩

theorem Canonical.internedAt_of_mem (h : t.Canonical) (hg : g ∈ t.genericContainers) :
    ∃ c, t.InternedAt c g.index ∧ c.isGeneric = true ∧ g = containerId c g.index := by
  obtain ⟨c, i, hi, hgen, rfl⟩ := mem_genericContainers.1 hg
  rw [h.index_containerId hi]
  exact ⟨c, hi, hgen, rfl⟩

theorem Canonical.index_lt_of_mem (h : t.Canonical) (hg : g ∈ t.genericContainers) :
    g.index < t.size := by
  obtain ⟨c, hi, -⟩ := h.internedAt_of_mem hg
  exact hi.lt_size

theorem Canonical.index_injOn_genericContainers (h : t.Canonical) {g' : TypeId}
    (hg : g ∈ t.genericContainers) (hg' : g' ∈ t.genericContainers) (heq : g.index = g'.index) :
    g = g' := by
  obtain ⟨c, hi, -, hid⟩ := h.internedAt_of_mem hg
  obtain ⟨c', hi', -, hid'⟩ := h.internedAt_of_mem hg'
  rw [heq] at hi hid
  obtain rfl := hi.container_eq hi'
  exact hid.trans hid'.symm

theorem WellFormed.sound_of_mem (h : t.WellFormed) (hg : g ∈ t.genericContainers) :
    t.Sound g := by
  obtain ⟨c, i, hi, -, rfl⟩ := mem_genericContainers.1 hg
  exact h.sound_containerId hi

/-! ## Repeated substitution -/

/-- Substitution in a wrapped type wraps the answer. -/
theorem Substitutes.wrappedLike (h : Substitutes subs t ty r t') (other : TypeId) :
    Substitutes subs t (ty.wrappedLike other) (r.wrappedLike other) t' := by
  have hidx := TypeId.index_wrappedLike ty other
  have hg : (ty.wrappedLike other).isGeneric = ty.isGeneric := by simp
  have hkind : ∀ t : Table, t.kind? (ty.wrappedLike other) = t.kind? ty := fun t => kind?_congr hidx
  cases h with
  | closed h => exact .closed (hg.symm ▸ h)
  | unbound hk h =>
    exact .unbound (by simpa only [hkind] using hk) (by simpa only [hkind, hidx] using h)
  | bound hty hk hb =>
    rw [TypeId.wrappedLike_assoc]
    exact .bound (hg.trans hty) ((hkind _).trans hk) (hidx.symm ▸ hb)
  | array hs hty hk he =>
    rw [TypeId.wrappedLike_assoc]
    exact .array hs (hg.trans hty) ((hkind _).trans hk) he
  | fixedArray hs hty hk he =>
    rw [TypeId.wrappedLike_assoc]
    exact .fixedArray hs (hg.trans hty) ((hkind _).trans hk) he
  | map hs hty hk h₁ h₂ =>
    rw [TypeId.wrappedLike_assoc]
    exact .map hs (hg.trans hty) ((hkind _).trans hk) h₁ h₂

/-- Substitution answers the type itself, a bound type or an interned container. -/
theorem Substitutes.answer_cases (h : Substitutes subs t ty r t') :
    r = ty ∨
      (∃ b, t.kind? ty = some .genericParam ∧ subs[ty.index]? = some b ∧ r = b.wrappedLike ty) ∨
      ∃ c i, t'.InternedAt c i ∧ r = (containerId c i).wrappedLike ty := by
  cases h with
  | closed => exact .inl rfl
  | unbound => exact .inl rfl
  | bound _ hp hb => exact .inr (.inl ⟨_, hp, hb, rfl⟩)
  | array | fixedArray | map =>
    obtain ⟨i, hi, hid⟩ := exists_internedAt_intern _ _
    exact .inr (.inr ⟨_, i, hi, by rw [hid]⟩)

/-- Substitution in a container answers the container itself or an interned one. -/
theorem Substitutes.answer_of_container (h : Substitutes subs t ty r t')
    (hk : t.kind? ty = some (.container c)) :
    r = ty ∨ ∃ c' i, t'.InternedAt c' i ∧ r = (containerId c' i).wrappedLike ty := by
  rcases h.answer_cases with hself | ⟨b, hp, -⟩ | hmade
  · exact .inl hself
  · cases hk.symm.trans hp
  · exact .inr hmade

/-- An answer at the index of the container that is substituted in is that container. -/
theorem Substitutes.eq_of_index_eq (h : Substitutes subs t g r t') (ht' : t'.Canonical)
    (hi : t.InternedAt c g.index) (hg : g = containerId c g.index) (heq : r.index = g.index) :
    r = g := by
  rcases h.answer_of_container hi.kind? with rfl | ⟨c', i, hi', rfl⟩
  · rfl
  · rw [TypeId.index_wrappedLike, ht'.index_containerId hi'] at heq
    subst heq
    obtain rfl := hi'.container_eq (h.extends.internedAt hi)
    rw [← hg]
    exact TypeId.wrappedLike_of_unwrapped _ (hg ▸ isOption_containerId _ _)
      (hg ▸ isResult_containerId _ _)

/-- An answer that a table has is the answer that an extension of it has. -/
theorem Substitutes.answer_unique {r' : TypeId} (h : Substitutes subs t ty r t)
    (h' : Substitutes subs t' ty r' t') (h₀ : t₀.Layered) (ht : Extends t₀ t)
    (hty : ty.index < t₀.size) (hext : Extends t t') (hc : t'.Canonical) : r = r' :=
  ((h.replay h₀ ht hty hext hc).unique h').1

end Table

namespace Instantiation

open Table

variable {s s' : Instantiation} {t t' t₀ : Table} {g r : TypeId} {l done : List TypeId}

/-! ## The loop as rules -/

/-- Records that the container `g` becomes `r`, unless their indices are the same. -/
def record (s : Instantiation) (g r : TypeId) : Instantiation :=
  if r.index = g.index then s else { s with containers := s.containers.insert g.index r }

@[simp] theorem bindings_record (s : Instantiation) (g r : TypeId) :
    (s.record g r).bindings = s.bindings := by
  unfold record
  split_ifs <;> rfl

theorem containers_record (s : Instantiation) (g r : TypeId) (k : Nat) :
    (s.record g r).containers[k]? =
      if k = g.index ∧ r.index ≠ g.index then some r else s.containers[k]? := by
  unfold record
  split_ifs with h₁ h₂ h₂
  · exact absurd h₁ h₂.2
  · rfl
  · obtain ⟨rfl, -⟩ := h₂
    simp
  · have hne : g.index ≠ k := fun h => h₂ ⟨h.symm, h₁⟩
    simp [Std.TreeMap.getElem?_insert, hne]

theorem instantiateContainer_eq (s : Instantiation) (t : Table) (g : TypeId) :
    s.instantiateContainer t g =
      (t.substitute s.bindings g).map fun p => (s.record g p.1, p.2) := by
  unfold instantiateContainer
  rcases t.substitute s.bindings g with _ | ⟨r, t'⟩
  · rfl
  · show (if (r.index == g.index) = true then _ else _) = some (s.record g r, t')
    unfold record
    by_cases h : r.index = g.index <;> simp [h]

/-- The loop over a list of containers. -/
inductive Instantiates :
    Instantiation → Table → List TypeId → Instantiation → Table → Prop where
  | nil {s : Instantiation} {t : Table} : Instantiates s t [] s t
  | cons {s s' : Instantiation} {t t₁ t' : Table} {g r : TypeId} {l : List TypeId}
      (h : Substitutes s.bindings t g r t₁) (rest : Instantiates (s.record g r) t₁ l s' t') :
      Instantiates s t (g :: l) s' t'

/-- The loop over containers of a layered table ends, and it follows the rules. -/
theorem exists_instantiateInOrder (h₀ : t₀.Layered) (ht : Extends t₀ t)
    (hl : ∀ g ∈ l, g.index < t₀.size) :
    ∃ s' t', s.instantiateInOrder t l = some (s', t') ∧ Instantiates s t l s' t' := by
  induction l generalizing s t with
  | nil => exact ⟨s, t, rfl, .nil⟩
  | cons g l ih =>
    obtain ⟨r, t₁, hr⟩ : ∃ r t₁, t.substitute s.bindings g = some (r, t₁) :=
      exists_substitute h₀ ht (hl g List.mem_cons_self)
    have rules := substituteWithin_sound hr
    obtain ⟨s', t', hrun, hrest⟩ := ih (s := s.record g r) (ht.trans rules.extends)
      fun g' hg' => hl g' (List.mem_cons_of_mem _ hg')
    refine ⟨s', t', ?_, .cons rules hrest⟩
    rw [instantiateInOrder, instantiateContainer_eq, hr]
    exact hrun

theorem Instantiates.bindings_eq (h : Instantiates s t l s' t') : s'.bindings = s.bindings := by
  induction h with
  | nil => rfl
  | cons _ _ ih => rw [ih, bindings_record]

theorem Instantiates.extends (h : Instantiates s t l s' t') : Extends t t' := by
  induction h with
  | nil => exact .refl _
  | cons h _ ih => exact h.extends.trans ih

theorem Instantiates.canonical (h : Instantiates s t l s' t') (ht : t.Canonical)
    (hs : t'.size ≤ TypeId.capacity) : t'.Canonical := by
  induction h with
  | nil => exact ht
  | cons h rest ih => exact ih (h.canonical ht (Nat.le_trans rest.extends.size_le hs)) hs

/-! ## The invariant of the loop -/

/-- Each container visited so far has its answer in the table, and `s` records the answers that have
another index than their container, and nothing else. -/
structure Settled (done : List TypeId) (s : Instantiation) (t : Table) : Prop where
  answer : ∀ g ∈ done, ∃ r, Substitutes s.bindings t g r t ∧
    s.containers[g.index]? = if r.index = g.index then none else some r
  visited : ∀ (k : Nat) r, s.containers[k]? = some r → ∃ g ∈ done, g.index = k

theorem Settled.of_mem_iff {done' : List TypeId} (h : Settled done s t)
    (hmem : ∀ g, g ∈ done ↔ g ∈ done') : Settled done' s t := by
  refine ⟨fun g hg => h.answer g ((hmem g).2 hg), fun k r hk => ?_⟩
  obtain ⟨g, hg, hgk⟩ := h.visited k r hk
  exact ⟨g, (hmem g).1 hg, hgk⟩

theorem Settled.containers_eq_none {k : Nat} (h : Settled done s t)
    (hk : ∀ g ∈ done, g.index ≠ k) : s.containers[k]? = none := by
  refine Option.eq_none_iff_forall_ne_some.2 fun r hr => ?_
  obtain ⟨g, hg, hgk⟩ := h.visited k r hr
  exact hk g hg hgk

/-- One container is visited. -/
theorem Settled.record (h : Settled done s t) (h₀ : t₀.Layered) (ht : Extends t₀ t)
    (hlt : ∀ x ∈ g :: done, x.index < t₀.size)
    (hinj : ∀ x ∈ g :: done, ∀ y ∈ g :: done, x.index = y.index → x = y)
    (rules : Substitutes s.bindings t g r t') (hc : t'.Canonical) :
    Settled (g :: done) (s.record g r) t' := by
  have hg := hlt g List.mem_cons_self
  have again := rules.replay h₀ ht hg (.refl t') hc
  constructor
  · intro x hx
    rw [bindings_record, containers_record]
    by_cases hxg : x = g
    · subst hxg
      refine ⟨r, again, ?_⟩
      by_cases hr : r.index = x.index
      · rw [if_neg (fun h => h.2 hr), if_pos hr]
        -- A record for this index would be one for `x` itself, and say the same.
        rcases hk : s.containers[x.index]? with _ | r'
        · rfl
        · obtain ⟨y, hy, hyx⟩ := h.visited _ _ hk
          obtain rfl := hinj y (List.mem_cons_of_mem _ hy) x List.mem_cons_self hyx
          obtain ⟨r₁, hr₁, hrec⟩ := h.answer y hy
          rw [hr₁.answer_unique again h₀ ht hg rules.extends hc, if_pos hr, hk] at hrec
          exact hrec
      · rw [if_pos ⟨rfl, hr⟩, if_neg hr]
    · have hmem : x ∈ done := (List.mem_cons.1 hx).resolve_left hxg
      obtain ⟨r', hr', hrec⟩ := h.answer x hmem
      refine ⟨r', hr'.replay h₀ ht (hlt x hx) rules.extends hc, ?_⟩
      rw [if_neg (fun hk => hxg (hinj x hx g List.mem_cons_self hk.1)), hrec]
  · intro k r' hk
    rw [containers_record] at hk
    split_ifs at hk with hkg
    · exact ⟨g, List.mem_cons_self, hkg.1.symm⟩
    · obtain ⟨x, hx, hxk⟩ := h.visited k r' hk
      exact ⟨x, List.mem_cons_of_mem _ hx, hxk⟩

/-- A whole loop. -/
theorem Instantiates.settled (run : Instantiates s t l s' t') (h : Settled done s t)
    (h₀ : t₀.Layered) (ht : Extends t₀ t) (hlt : ∀ x ∈ l.reverse ++ done, x.index < t₀.size)
    (hinj : ∀ x ∈ l.reverse ++ done, ∀ y ∈ l.reverse ++ done, x.index = y.index → x = y)
    (hc : t.Canonical) (hs : t'.size ≤ TypeId.capacity) : Settled (l.reverse ++ done) s' t' := by
  induction run generalizing done with
  | nil => exact h
  | @cons s s' t t₁ t' g r l rules rest ih =>
    have hc₁ := rules.canonical hc (Nat.le_trans rest.extends.size_le hs)
    have heq : (g :: l).reverse ++ done = l.reverse ++ (g :: done) := by simp
    rw [heq] at hlt hinj ⊢
    have hsub : ∀ x ∈ g :: done, x ∈ l.reverse ++ (g :: done) :=
      fun x hx => List.mem_append_right _ hx
    have h₁ := h.record h₀ ht (fun x hx => hlt x (hsub x hx))
      (fun x hx y hy => hinj x (hsub x hx) y (hsub y hy)) rules hc₁
    exact ih h₁ (ht.trans rules.extends) hlt hinj hc₁ hs

/-- The loop over the generic containers of a table ends, in whatever order it visits them, and all
of them are settled then. -/
theorem exists_settled (ht : t.Stratified) (hl : l.Perm t.genericContainers) (s : Instantiation) :
    ∃ s' t', { s with containers := {} }.instantiateInOrder t l = some (s', t') ∧
      Instantiates { s with containers := {} } t l s' t' ∧
      (t'.size ≤ TypeId.capacity → t'.Canonical ∧ Settled t.genericContainers s' t') := by
  have hlt : ∀ g ∈ l, g.index < t.size := fun g hg => ht.index_lt_of_mem (hl.mem_iff.1 hg)
  obtain ⟨s', t', hrun, rules⟩ := exists_instantiateInOrder (s := { s with containers := {} })
    ht.layered (.refl t) hlt
  refine ⟨s', t', hrun, rules, fun hs => ⟨rules.canonical ht.toCanonical hs, ?_⟩⟩
  have start : Settled [] { s with containers := {} } t := ⟨by simp, by simp⟩
  have hmem : ∀ g, g ∈ l.reverse ++ [] ↔ g ∈ t.genericContainers := fun g => by
    simpa using hl.mem_iff
  have hset := rules.settled start ht.layered (.refl t)
    (fun g hg => ht.index_lt_of_mem ((hmem g).1 hg))
    (fun x hx y hy => ht.index_injOn_genericContainers ((hmem x).1 hx) ((hmem y).1 hy))
    ht.toCanonical hs
  exact hset.of_mem_iff hmem

end Instantiation

/-! ## A sample -/

/-- `T` stands for `?i32` in the sample table. -/
def sampleInstantiation : Instantiation := { bindings := sampleBindings }

/-- The generic containers of the sample table, the map first. -/
def sampleOrder : List TypeId := sampleMap.2.genericContainers.reverse

theorem sampleOrder_perm : sampleOrder.Perm sampleMap.2.genericContainers := List.reverse_perm _

/-- The loop adds `[]?i32`, `map[string]?[]?i32` and `[4]?i32`, and no `[][]T`. -/
theorem sampleInstantiation_end {s' : Instantiation} {t' : Table}
    (h : sampleInstantiation.instantiateInOrder sampleMap.2 sampleOrder = some (s', t')) :
    t'.size = 20 ∧ t'.interned? (.array sampleArray.1) = none ∧
      t'.describe (s'.unwrap sampleMap.1) = "map[string]?[]?i32" ∧
      t'.describe (s'.unwrap (sampleMap.1.set .result)) = "!map[string]?[]?i32" ∧
      t'.describe (s'.unwrap (sampleArray.1.set .option)) = "?[]?i32" := by
  have hend : (sampleInstantiation.instantiateInOrder sampleMap.2 sampleOrder).map (fun p =>
      (p.2.size, p.2.interned? (.array sampleArray.1), p.2.describe (p.1.unwrap sampleMap.1),
        p.2.describe (p.1.unwrap (sampleMap.1.set .result)),
        p.2.describe (p.1.unwrap (sampleArray.1.set .option)))) =
      some (20, none, "map[string]?[]?i32", "!map[string]?[]?i32", "?[]?i32") := by decide +kernel
  rw [h] at hend
  simpa using hend

end Unroll
