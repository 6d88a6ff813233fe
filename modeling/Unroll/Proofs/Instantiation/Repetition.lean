import Unroll.Proofs.Instantiation.Complete
import Unroll.Proofs.Instantiation.Idempotent

/-!
# Instantiating twice

If some parameters are left unbound, an instantiation adds containers that are generic, and the next
one visits them. Each of these is made of answers (`Instantiates.parts_new`), which the same
bindings leave alone, so it stays as it is (`Instantiates.substitutes_new`). A second instantiation
therefore changes neither the table nor what types unwrap to, in whatever orders the two of them
visit the containers (`instantiate_twice`).
-/

namespace Unroll

namespace Table

variable {subs : Bindings} {t t' t₀ last : Table} {c : Container} {ty r g : TypeId} {i : Nat}

/-- The parts of a container that substitution adds are answers for types that were there at the
start. `last` is any later table. -/
theorem Substitutes.parts_new (h : Substitutes subs t ty r t') (h₀ : t₀.Layered)
    (ht : Extends t₀ t) (hty : ty.index < t₀.size) (hlast : Extends t' last)
    (hc : last.Canonical) (hi : t'.InternedAt c i) :
    t.InternedAt c i ∨ ∀ p ∈ c.parts, ∃ q, q.index < t₀.size ∧ Substitutes subs last q p last := by
  induction h with
  | closed | unbound | bound => exact .inl hi
  | array _ _ hk he ih | fixedArray _ _ hk he ih =>
    have hlast₁ := (extends_intern _ _).trans hlast
    have hlt := Nat.lt_trans (h₀ (ht.kind?_eq hty ▸ hk) _ List.mem_cons_self) hty
    rcases internedAt_of_intern hi with hi | rfl
    · exact ih ht hlt hlast₁ hi
    · right
      simpa using ⟨_, hlt, he.replay h₀ ht hlt hlast₁ hc⟩
  | @map t t₁ t₂ ty key key' value value' _ _ hk hkey hvalue ih₁ ih₂ =>
    have hparts := h₀ (ht.kind?_eq hty ▸ hk)
    have hltk := Nat.lt_trans (hparts key (by simp)) hty
    have hltv := Nat.lt_trans (hparts value (by simp)) hty
    have hlast₂ := (extends_intern t₂ _).trans hlast
    have hlast₁ := hvalue.extends.trans hlast₂
    have ht₁ := ht.trans hkey.extends
    rcases internedAt_of_intern hi with hi | rfl
    · rcases ih₂ ht₁ hltv hlast₂ hi with hi | hnew
      · exact ih₁ ht hltk hlast₁ hi
      · exact .inr hnew
    · right
      simpa using ⟨⟨key, hltk, hkey.replay h₀ ht hltk hlast₁ hc⟩,
        ⟨value, hltv, hvalue.replay h₀ ht₁ hltv hlast₂ hc⟩⟩

/-- The generic containers of a table are those of a later one that it has an index for. -/
theorem mem_genericContainers_iff (hext : Extends t t') (hc : t'.Canonical)
    (hlt : g.index < t.size) : g ∈ t.genericContainers ↔ g ∈ t'.genericContainers := by
  simp only [mem_genericContainers]
  constructor
  · rintro ⟨c, i, hi, hgen, rfl⟩
    exact ⟨c, i, hext.internedAt hi, hgen, rfl⟩
  · rintro ⟨c, i, hi, hgen, rfl⟩
    rw [hc.index_containerId hi] at hlt
    exact ⟨c, i, (hext.persists.internedAt_iff hlt).1 hi, hgen, rfl⟩

end Table

namespace Instantiation

open Table

variable {s s' s₁ s₂ : Instantiation} {t t' t₀ last : Table} {c : Container} {ty : TypeId} {i : Nat}
  {l l₁ l₂ : List TypeId}

/-! ## Containers that a loop adds -/

theorem Instantiates.parts_new (run : Instantiates s t l s' t') (h₀ : t₀.Layered)
    (ht : Extends t₀ t) (hl : ∀ g ∈ l, g.index < t₀.size) (hlast : Extends t' last)
    (hc : last.Canonical) (hi : t'.InternedAt c i) :
    t.InternedAt c i ∨
      ∀ p ∈ c.parts, ∃ q, q.index < t₀.size ∧ Substitutes s.bindings last q p last := by
  induction run with
  | nil => exact .inl hi
  | cons rules rest ih =>
    rcases ih (ht.trans rules.extends) (fun g hg => hl g (List.mem_cons_of_mem _ hg)) hlast hi
      with hi | hnew
    · exact rules.parts_new h₀ ht (hl _ List.mem_cons_self) (rest.extends.trans hlast) hc hi
    · rw [bindings_record] at hnew
      exact .inr hnew

/-- The bindings of a loop leave the containers alone that the loop added. -/
theorem Instantiates.substitutes_new (run : Instantiates s t l s' t') (ht : t.Layered)
    (hl : ∀ g ∈ l, g.index < t.size) (hc : t'.Canonical)
    (hclosed : ∀ (k : Nat) b, s.bindings[k]? = some b → b.isGeneric = false)
    (hi : t'.InternedAt c i) (hnew : t.size ≤ i) :
    Substitutes s.bindings t' (containerId c i) (containerId c i) t' := by
  have answers := (run.parts_new ht (.refl t) hl (.refl t') hc hi).resolve_left fun hold =>
    absurd hold.lt_size (Nat.not_lt.2 hnew)
  have hparts : ∀ p ∈ c.parts, Substitutes s.bindings t' p p t' := by
    intro p hp
    obtain ⟨q, hq, hqp⟩ := answers p hp
    exact hqp.idempotent ht run.extends hc hclosed q hq
  have hself := Substitutes.of_parts hc hi hparts (containerId c i)
  rwa [TypeId.wrappedLike_of_unwrapped _ (isOption_containerId c i) (isResult_containerId c i)]
    at hself

theorem Instantiates.stratified (run : Instantiates s t l s' t') (ht : t.Stratified)
    (hl : ∀ g ∈ l, g.index < t.size)
    (hsubs : ∀ (k : Nat) b, s.bindings[k]? = some b → b.index < t.size)
    (hs : t'.size ≤ TypeId.capacity) : t'.Stratified := by
  induction run with
  | nil => exact ht
  | @cons s s' t t₁ t' g r l rules rest ih =>
    have later : ∀ {i}, i < t.size → i < t₁.size := fun hi =>
      Nat.lt_of_lt_of_le hi rules.extends.size_le
    have ht₁ := rules.stratified ht (hl g List.mem_cons_self) hsubs
      (Nat.le_trans rest.extends.size_le hs)
    refine ih ht₁ (fun x hx => later (hl x (List.mem_cons_of_mem _ hx))) (fun k b hb => ?_) hs
    rw [bindings_record] at hb
    exact later (hsubs k b hb)

/-! ## A second loop -/

/-- A loop over containers whose answers the table has adds nothing. -/
theorem Instantiates.table_eq (run : Instantiates s t l s' t')
    (hl : ∀ g ∈ l, ∃ r, Substitutes s.bindings t g r t) : t' = t := by
  induction run with
  | nil => rfl
  | cons rules rest ih =>
    obtain ⟨r', hr'⟩ := hl _ List.mem_cons_self
    obtain ⟨rfl, rfl⟩ := rules.unique hr'
    refine ih fun g hg => ?_
    rw [bindings_record]
    exact hl g (List.mem_cons_of_mem _ hg)

/-- Containers that stay as they are add no record. -/
theorem Settled.containers_eq (h₁ : Settled l₁ s₁ t) (h₂ : Settled l₂ s₂ t)
    (hb : s₂.bindings = s₁.bindings) (hsub : ∀ g ∈ l₁, g ∈ l₂)
    (hself : ∀ g ∈ l₂, g ∈ l₁ ∨ Substitutes s₁.bindings t g g t) (k : Nat) :
    s₂.containers[k]? = s₁.containers[k]? := by
  by_cases hk : ∃ g ∈ l₁, g.index = k
  · obtain ⟨g, hg, rfl⟩ := hk
    obtain ⟨r₁, hr₁, hrec₁⟩ := h₁.answer g hg
    obtain ⟨r₂, hr₂, hrec₂⟩ := h₂.answer g (hsub g hg)
    obtain ⟨rfl, -⟩ := hr₁.unique (hb ▸ hr₂)
    rw [hrec₁, hrec₂]
  · rw [h₁.containers_eq_none fun g hg hgk => hk ⟨g, hg, hgk⟩]
    by_cases hk₂ : ∃ g ∈ l₂, g.index = k
    · obtain ⟨g, hg, rfl⟩ := hk₂
      have hfixed := (hself g hg).resolve_left fun hold => hk ⟨g, hold, rfl⟩
      obtain ⟨r₂, hr₂, hrec₂⟩ := h₂.answer g hg
      obtain ⟨rfl, -⟩ := hfixed.unique (hb ▸ hr₂)
      rw [hrec₂, if_pos rfl]
    · exact h₂.containers_eq_none fun g hg hgk => hk₂ ⟨g, hg, hgk⟩

theorem unwrap_congr (hb : s₂.bindings = s₁.bindings)
    (hc : ∀ k : Nat, s₂.containers[k]? = s₁.containers[k]?) (ty : TypeId) :
    s₂.unwrap ty = s₁.unwrap ty := by
  rw [unwrap, unwrap, hb, hc]

/-! ## Unwrapping twice -/

theorem unwrap_wrappedLike (s : Instantiation) (ty other : TypeId) :
    s.unwrap (ty.wrappedLike other) = (s.unwrap ty).wrappedLike other := by
  have hg : (ty.wrappedLike other).isGeneric = ty.isGeneric := by simp
  rw [unwrap, unwrap, hg, TypeId.index_wrappedLike]
  split_ifs
  · rcases s.bindings[ty.index]? <|> s.containers[ty.index]? with _ | b
    · rfl
    · exact (TypeId.wrappedLike_assoc b ty other).symm
  · rfl

/-- Any id unwraps to one that unwraps to itself, also an id that no operation answers. -/
theorem Settled.unwrap_idempotent (h : Settled t.genericContainers s t') (ht : t.WellFormed)
    (hext : Extends t t') (hc : t'.Canonical) (hkeys : s.BindsParams t)
    (hclosed : ∀ (k : Nat) b, s.bindings[k]? = some b → b.isGeneric = false) (ty : TypeId) :
    s.unwrap (s.unwrap ty) = s.unwrap ty := by
  rcases s.unwrap_cases ty with heq | ⟨b, hb | hr, heq⟩
  · rw [heq, heq]
  · apply s.unwrap_of_not_generic
    rw [heq]
    exact (TypeId.isGeneric_wrappedLike _ _).trans (hclosed _ b hb)
  · -- What is recorded is what a container with no wrappers unwraps to.
    obtain ⟨g, hg, hgi⟩ := h.visited _ b hr
    obtain ⟨c, hi, hgen, hid⟩ := ht.internedAt_of_mem hg
    have hgb : s.unwrap g = b := by
      have hgg : g.isGeneric = true := by rw [hid]; simpa using hgen
      rw [unwrap, if_pos hgg, hkeys.eq_none (by simp [hi.kind?]), hgi, hr]
      exact TypeId.wrappedLike_of_unwrapped b (hid ▸ isOption_containerId _ _)
        (hid ▸ isResult_containerId _ _)
    have hbb : s.unwrap b = b := by
      rw [← hgb]
      exact h.unwrap_unwrap ht hext hc hkeys hclosed (ht.sound_of_mem hg)
    rw [heq, unwrap_wrappedLike, hbb]

end Instantiation

open Table Instantiation

/-- A second instantiation leaves the table and what types unwrap to as they are, and what a type
unwraps to unwraps to itself. -/
theorem instantiate_twice {calls : List Call} {t : Table} (run : WellBuilt calls t)
    {s : Instantiation} (hkeys : s.BindsParams t)
    (hbound : ∀ (k : Nat) b, s.bindings[k]? = some b → b.index < t.size ∧ b.isGeneric = false)
    {l : List TypeId} (hl : l.Perm t.genericContainers) :
    ∃ s' t', { s with containers := {} }.instantiateInOrder t l = some (s', t') ∧
      (t'.size ≤ TypeId.capacity →
        (∀ l' : List TypeId, l'.Perm t'.genericContainers → ∃ s'',
          { s' with containers := {} }.instantiateInOrder t' l' = some (s'', t') ∧
            ∀ ty, s''.unwrap ty = s'.unwrap ty) ∧
        ∀ ty, s'.unwrap (s'.unwrap ty) = s'.unwrap ty) := by
  obtain ⟨ht, -⟩ := run.wellFormed
  have hlt : ∀ g ∈ l, g.index < t.size := fun g hg => ht.index_lt_of_mem (hl.mem_iff.1 hg)
  obtain ⟨s', t', hrun, rules, hend⟩ := exists_settled ht.toStratified hl s
  have hb : s'.bindings = s.bindings := rules.bindings_eq
  have hclosed : ∀ (k : Nat) b, s'.bindings[k]? = some b → b.isGeneric = false := fun k b hk =>
    (hbound k b (hb ▸ hk)).2
  refine ⟨s', t', hrun, fun hs => ?_⟩
  obtain ⟨hc, hset⟩ := hend hs
  have hext := rules.extends
  refine ⟨fun l' hl' => ?_, ?_⟩
  · -- The table has the answers for the containers it had, and the new ones stay as they are.
    have ht' := rules.stratified ht.toStratified hlt (fun k b hk => (hbound k b hk).1) hs
    have visited : ∀ g ∈ t'.genericContainers,
        g ∈ t.genericContainers ∨ Substitutes s'.bindings t' g g t' := by
      intro g hg
      by_cases hold : g.index < t.size
      · exact .inl ((mem_genericContainers_iff hext hc hold).2 hg)
      · obtain ⟨c, hi, -, hid⟩ := hc.internedAt_of_mem hg
        right
        rw [hid, hb]
        exact rules.substitutes_new ht.layered hlt hc (hb ▸ hclosed) hi (Nat.le_of_not_lt hold)
    obtain ⟨s'', t'', hrun', rules', hend'⟩ := exists_settled ht' hl' s'
    obtain rfl : t'' = t' := rules'.table_eq fun g hg => by
      rcases visited g (hl'.mem_iff.1 hg) with hold | hself
      · obtain ⟨r, hr, -⟩ := hset.answer g hold
        exact ⟨r, hr⟩
      · exact ⟨g, hself⟩
    obtain ⟨-, hset'⟩ := hend' hs
    have hb' : s''.bindings = s'.bindings := rules'.bindings_eq
    refine ⟨s'', hrun', unwrap_congr hb' (hset.containers_eq hset' hb' (fun g hg => ?_) visited)⟩
    exact (mem_genericContainers_iff hext hc (ht.index_lt_of_mem hg)).1 hg
  · exact hset.unwrap_idempotent ht hext hc (hkeys.congr hb) hclosed

/-- `K` stands for `string` and `V` for nothing. -/
def pairInstantiation : Instantiation := { bindings := pairKeyBindings }

/-- The first instantiation adds `map[string][]V`, which the second one visits as a third generic
container. -/
theorem instantiate_twice_pair :
    ∃ s' t', pairInstantiation.instantiate pairMap.2 = some (s', t') ∧
      t'.genericContainers.map t'.describe = ["[]V", "map[K][]V", "map[string][]V"] ∧
      t'.describe (s'.unwrap pairMap.1) = "map[string][]V" ∧
      s'.unwrap (s'.unwrap pairMap.1) = s'.unwrap pairMap.1 ∧
      ∃ s'', s'.instantiate t' = some (s'', t') ∧ ∀ ty, s''.unwrap ty = s'.unwrap ty := by
  have hkeys : pairInstantiation.BindsParams pairMap.2 := by
    intro k b hb
    obtain ⟨rfl, -⟩ := eq_of_single_binding hb
    exact kind?_eq_some_iff.1 (by decide +kernel : pairMap.2.kind? pairKey.1 = _)
  have hbound : ∀ (k : Nat) b, pairInstantiation.bindings[k]? = some b →
      b.index < pairMap.2.size ∧ b.isGeneric = false := by
    intro k b hb
    obtain ⟨-, rfl⟩ := eq_of_single_binding hb
    decide +kernel
  obtain ⟨s', t', hrun, h⟩ := instantiate_twice wellBuilt_pair hkeys hbound (.refl _)
  change pairInstantiation.instantiate pairMap.2 = some (s', t') at hrun
  have hend : (pairInstantiation.instantiate pairMap.2).map (fun p => (p.2.size,
      p.2.genericContainers.map p.2.describe, p.2.describe (p.1.unwrap pairMap.1))) =
      some (18, ["[]V", "map[K][]V", "map[string][]V"], "map[string][]V") := by decide +kernel
  rw [hrun] at hend
  obtain ⟨hsize, hgeneric, hname⟩ : t'.size = 18 ∧ _ ∧ _ := by simpa using hend
  obtain ⟨htwice, hidem⟩ := h (by rw [hsize]; decide)
  exact ⟨s', t', hrun, hgeneric, hname, hidem _, htwice _ (.refl _)⟩

end Unroll
