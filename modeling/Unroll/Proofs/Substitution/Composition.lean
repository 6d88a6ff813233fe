import Unroll.Proofs.Substitution.Structural
import Unroll.Proofs.Table.Renaming

/-!
# Substitution in steps

Bindings may be substituted all at once or some of them after others. The routes intern different
containers on the way and meet at one id (`substitute_in_steps`). Seen through unfoldings each route
is a composition of substitutions in trees, where the order does not matter
(`TypeTree.substitute_substitute`), and in a well-formed table the unfolding tells a sound id from
every other (`WellFormed.unfolding_inj`).
-/

namespace Unroll

/-! ## Trees -/

namespace TypeTree

variable {σ τ : TypeId → Option TypeTree}

/-- Two substitutions in turn are one, if the second finds nothing in what the first puts in. -/
theorem substitute_substitute
    (hclosed : ∀ ty v, σ ty = some v → (v.wrappedLike ty).substitute τ = v.wrappedLike ty)
    (u : TypeTree) :
    (u.substitute σ).substitute τ = u.substitute fun ty => (σ ty).or (τ ty) := by
  induction u with
  | leaf ty =>
    rcases h : σ ty with _ | v
    · simp [substitute, h]
    · simpa [substitute, h] using hclosed ty v h
  | array flags elem ih | fixedArray flags elem size ih => simp only [substitute, ih]
  | map flags key value ihk ihv => simp only [substitute, ihk, ihv]

end TypeTree

namespace Table

variable {subs s₁ s₂ : Bindings} {t t' t₀ : Table} {ty r : TypeId} {route : List Bindings}
  {routes : List (List Bindings)}

/-- Ids with the same index and wrappers are the same, if both are that of one container. -/
theorem Sound.eq_of_container {c : Container} {a b : TypeId} (ha : t.Sound a) (hb : t.Sound b)
    (hc : t.Canonical) (hia : t.InternedAt c a.index) (hib : t.InternedAt c b.index)
    (hflags : a.flags = b.flags) : a = b := by
  have hidx := hc.unique hia hib
  have hwrap : (containerId c b.index).wrappedLike a = (containerId c b.index).wrappedLike b := by
    apply TypeId.wrappedLike_congr
    · exact congrArg Flags.option hflags
    · exact congrArg Flags.result hflags
  calc a = (containerId c a.index).wrappedLike a := ha.eq_containerId hia.kind?
    _ = (containerId c b.index).wrappedLike b := by rw [hidx, hwrap]
    _ = b := (hb.eq_containerId hib.kind?).symm

/-- In a well-formed table sound ids with the same unfolding are the same id. -/
theorem WellFormed.unfolding_inj (h : t.WellFormed) (a : TypeId) {b : TypeId} (ha : t.Sound a)
    (hb : t.Sound b) (heq : t.unfolding a = t.unfolding b) : a = b := by
  induction a using h.layered.induction generalizing b with
  | leaf a hk =>
    rw [unfolding_leaf hk] at heq
    by_cases hkb : ∃ c, t.kind? b = some (.container c)
    · obtain ⟨c, hkb⟩ := hkb
      rw [h.layered.unfolding_container hkb] at heq
      cases c <;> cases heq
    · rw [unfolding_leaf fun c hc => hkb ⟨c, hc⟩] at heq
      exact TypeTree.leaf.inj heq
  | container a c hk ih =>
    rw [h.layered.unfolding_container hk] at heq
    by_cases hkb : ∃ c', t.kind? b = some (.container c')
    · obtain ⟨c', hkb⟩ := hkb
      rw [h.layered.unfolding_container hkb] at heq
      obtain ⟨hflags, rfl⟩ := TypeTree.ofContainer_inj heq fun p hp q hq hpq =>
        ih p hp (h.sound_part hk p hp) (h.sound_part hkb q hq) hpq
      exact ha.eq_of_container hb h.toCanonical (h.internedAt hk) (h.internedAt hkb) hflags
    · rw [unfolding_leaf fun c hc => hkb ⟨c, hc⟩] at heq
      cases c <;> cases heq

/-! ## Leaves to replace -/

/-- A table that grows by interning has the same leaves to replace. -/
theorem Grown.boundTree?_eq (h : Grown t₀ t) (h₀ : t₀.Layered)
    (hsubs : ∀ (k : Nat) b, subs[k]? = some b → b.index < t₀.size) :
    t.boundTree? subs = t₀.boundTree? subs := by
  funext ty
  by_cases hty : ty.index < t₀.size
  · rw [boundTree?, boundTree?, h.base.kind?_eq hty]
    split_ifs
    · rcases hb : subs[ty.index]? with _ | b
      · rw [Option.map_none, Option.map_none]
      · rw [Option.map_some, Option.map_some, h.base.unfolding_eq h₀ (hsubs _ b hb)]
    · rfl
  · -- What is new is a container.
    have hnew : t.kind? ty ≠ some .genericParam := by
      intro hk
      obtain ⟨e, he, hk⟩ := kind?_eq_some_iff.1 hk
      obtain ⟨c, rfl, -⟩ := h.entry (Nat.le_of_not_lt hty) he
      cases hk
    rw [boundTree?, boundTree?, if_neg (fun hp => hnew hp.2),
      if_neg (by simp [kind?_eq_none (Nat.le_of_not_lt hty)])]

/-- Where both have a binding, that of the second counts. -/
theorem boundTree?_union (t : Table) (s₁ s₂ : Bindings) (ty : TypeId) :
    t.boundTree? (s₁ ∪ s₂) ty = (t.boundTree? s₂ ty).or (t.boundTree? s₁ ty) := by
  rw [boundTree?, boundTree?, boundTree?]
  split_ifs
  · rw [Std.TreeMap.getElem?_union]
    rcases s₂[ty.index]? with _ | b
    · rw [Option.none_or, Option.map_none, Option.none_or]
    · rw [Option.some_or, Option.map_some, Option.some_or]
  · rfl

theorem boundTree?_union_comm (hdisjoint : ∀ k, k ∈ s₁ → k ∉ s₂) :
    t.boundTree? (s₁ ∪ s₂) = t.boundTree? (s₂ ∪ s₁) := by
  funext ty
  rw [boundTree?, boundTree?, Std.TreeMap.getElem?_union, Std.TreeMap.getElem?_union]
  rcases h₁ : s₁[ty.index]? with _ | b
  · rw [Option.or_none, Option.none_or]
  · have hmem : ty.index ∈ s₁ := Std.TreeMap.mem_iff_isSome_getElem?.2 (by simp [h₁])
    have h₂ : s₂[ty.index]? = none := Std.TreeMap.getElem?_eq_none (hdisjoint _ hmem)
    rw [h₂, Option.or_none, Option.none_or]

/-- Nothing is replaced in what is put in for a leaf, since it is not generic. -/
theorem WellFormed.substitute_boundTree? (h : t.WellFormed)
    (h₁ : ∀ (k : Nat) b, s₁[k]? = some b → t.Sound b ∧ b.isGeneric = false) {v : TypeTree}
    (hv : t.boundTree? s₁ ty = some v) :
    (v.wrappedLike ty).substitute (t.boundTree? s₂) = v.wrappedLike ty := by
  rw [boundTree?] at hv
  split_ifs at hv
  obtain ⟨b, hb, rfl⟩ := Option.map_eq_some_iff.1 hv
  obtain ⟨hsound, hg⟩ := h₁ _ b hb
  rw [← unfolding_wrappedLike]
  exact h.substitute_unfolding_of_closed (hsound.wrappedLike ty)
    (.inr ((TypeId.isGeneric_wrappedLike _ _).trans hg))

/-- In trees, bindings to types that are not generic and then others are both at once. -/
theorem WellFormed.substitute_union (h : t.WellFormed)
    (h₁ : ∀ (k : Nat) b, s₁[k]? = some b → t.Sound b ∧ b.isGeneric = false) (u : TypeTree) :
    (u.substitute (t.boundTree? s₁)).substitute (t.boundTree? s₂) =
      u.substitute (t.boundTree? (s₂ ∪ s₁)) := by
  rw [TypeTree.substitute_substitute fun ty v hv => h.substitute_boundTree? h₁ hv]
  congr 1
  funext ty
  exact (boundTree?_union t s₂ s₁ ty).symm

/-! ## Routes -/

/-- Substitutes each of the bindings in the answer for those before it. -/
def substituteEach (t : Table) (ty : TypeId) : List Bindings → Option (TypeId × Table)
  | [] => some (ty, t)
  | subs :: route => (t.substitute subs ty).bind fun p => p.2.substituteEach p.1 route

/-- The answers of several routes from one type, each taken in the table that those before it have
left. -/
def substituteRoutes (t : Table) (ty : TypeId) :
    List (List Bindings) → Option (List TypeId × Table)
  | [] => some ([], t)
  | route :: routes => (t.substituteEach ty route).bind fun p =>
    (p.2.substituteRoutes ty routes).map fun q => (p.1 :: q.1, q.2)

/-- A route through a tree. -/
def treeRoute (t : Table) (route : List Bindings) (u : TypeTree) : TypeTree :=
  route.foldl (fun u subs => u.substitute (t.boundTree? subs)) u

theorem extends_substituteEach (hr : t.substituteEach ty route = some (r, t')) : Extends t t' := by
  induction route generalizing t ty with
  | nil =>
    cases hr
    exact .refl _
  | cons subs route ih =>
    obtain ⟨⟨r₁, t₁⟩, hr₁, hr⟩ := Option.bind_eq_some_iff.1 hr
    exact (substituteWithin_sound hr₁).extends.trans (ih hr)

/-- A route ends, whatever it adds to the table. -/
theorem exists_substituteEach (ht : t.Layered) (hty : ty.index < t.size)
    (hroute : ∀ subs ∈ route, ∀ (k : Nat) b, subs[k]? = some b → b.index < t.size) :
    ∃ r t', t.substituteEach ty route = some (r, t') ∧ t'.Layered := by
  induction route generalizing t ty with
  | nil => exact ⟨ty, t, rfl, ht⟩
  | cons subs route ih =>
    obtain ⟨r₁, t₁, hr₁⟩ : ∃ r₁ t₁, t.substitute subs ty = some (r₁, t₁) :=
      exists_substitute ht (.refl t) hty
    have rules := substituteWithin_sound hr₁
    obtain ⟨ht₁, hlt₁⟩ := rules.layered ht hty (hroute subs List.mem_cons_self)
    obtain ⟨r, t', hr, ht'⟩ := ih ht₁ hlt₁ fun subs' hmem k b hb =>
      Nat.lt_of_lt_of_le (hroute subs' (List.mem_cons_of_mem _ hmem) k b hb) rules.extends.size_le
    refine ⟨r, t', ?_, ht'⟩
    rw [substituteEach, hr₁, Option.bind_some, hr]

theorem exists_substituteRoutes (ht : t.Layered) (hty : ty.index < t.size)
    (hroutes : ∀ route ∈ routes, ∀ subs ∈ route, ∀ (k : Nat) b, subs[k]? = some b →
      b.index < t.size) :
    ∃ rs t', t.substituteRoutes ty routes = some (rs, t') ∧ rs.length = routes.length := by
  induction routes generalizing t with
  | nil => exact ⟨[], t, rfl, rfl⟩
  | cons route routes ih =>
    obtain ⟨r, t₁, hr, ht₁⟩ := exists_substituteEach ht hty (hroutes route List.mem_cons_self)
    have later : ∀ {i}, i < t.size → i < t₁.size := fun hi =>
      Nat.lt_of_lt_of_le hi (extends_substituteEach hr).size_le
    obtain ⟨rs, t', hrs, hlen⟩ := ih ht₁ (later hty) fun route' hmem subs hsubs k b hb =>
      later (hroutes route' (List.mem_cons_of_mem _ hmem) subs hsubs k b hb)
    refine ⟨r :: rs, t', ?_, by rw [List.length_cons, List.length_cons, hlen]⟩
    rw [substituteRoutes, hr, Option.bind_some, hrs, Option.map_some]

/-- A sound id of a well-formed table that has grown from `t₀`. -/
structure Standing (t₀ t : Table) (ty : TypeId) : Prop where
  grown : Grown t₀ t
  wellFormed : t.WellFormed
  sound : t.Sound ty

/-- One substitution, seen through unfoldings. The leaves to replace are those of `t₀`. -/
theorem Standing.substitutes (h : Standing t₀ t ty) (h₀ : t₀.WellFormed)
    (hsubs : ∀ (k : Nat) b, subs[k]? = some b → t₀.Sound b) (rules : Substitutes subs t ty r t')
    (hs : t'.size ≤ TypeId.capacity) :
    Standing t₀ t' r ∧ t'.unfolding r = (t.unfolding ty).substitute (t₀.boundTree? subs) := by
  have hbound : ∀ (k : Nat) b, subs[k]? = some b → t.Sound b := fun k b hb =>
    h.wellFormed.sound_mono (hsubs k b hb) h.grown.base
  obtain ⟨hwf, hr⟩ := rules.wellFormed h.wellFormed h.sound hbound hs
  obtain ⟨hgrown, -⟩ := rules.grown h₀ h.grown h.sound.lt_size
    (fun k b hb => (hbound k b hb).lt_size) hs
  refine ⟨⟨hgrown, hwf, hr⟩, ?_⟩
  rw [rules.unfolding_eq h.wellFormed (.refl t) h.wellFormed h.sound hbound hs,
    h.grown.boundTree?_eq h₀.layered fun k b hb => (hsubs k b hb).lt_size]

/-- A whole route. -/
theorem Standing.substituteEach (h : Standing t₀ t ty) (h₀ : t₀.WellFormed)
    (hroute : ∀ subs ∈ route, ∀ (k : Nat) b, subs[k]? = some b → t₀.Sound b)
    (hr : t.substituteEach ty route = some (r, t')) (hs : t'.size ≤ TypeId.capacity) :
    Standing t₀ t' r ∧ t'.unfolding r = t₀.treeRoute route (t.unfolding ty) := by
  induction route generalizing t ty with
  | nil =>
    cases hr
    exact ⟨h, rfl⟩
  | cons subs route ih =>
    obtain ⟨⟨r₁, t₁⟩, hr₁, hr⟩ := Option.bind_eq_some_iff.1 hr
    obtain ⟨h₁, htree⟩ := h.substitutes h₀ (hroute subs List.mem_cons_self)
      (substituteWithin_sound hr₁) (Nat.le_trans (extends_substituteEach hr).size_le hs)
    obtain ⟨h', htree'⟩ := ih h₁ (fun subs' hmem => hroute subs' (List.mem_cons_of_mem _ hmem)) hr
    exact ⟨h', by rw [htree', htree]; rfl⟩

theorem extends_substituteRoutes {rs : List TypeId}
    (hrs : t.substituteRoutes ty routes = some (rs, t')) : Extends t t' := by
  induction routes generalizing t rs with
  | nil =>
    cases hrs
    exact .refl _
  | cons route routes ih =>
    obtain ⟨⟨r, t₁⟩, hr, hrest⟩ := Option.bind_eq_some_iff.1 hrs
    obtain ⟨⟨rs', t₂⟩, hrs', heq⟩ := Option.map_eq_some_iff.1 hrest
    cases heq
    exact (extends_substituteEach hr).trans (ih hrs')

/-- Routes that are the same in trees have answers with the same unfolding. -/
theorem Standing.substituteRoutes {rs : List TypeId} {u : TypeTree} (h : Standing t₀ t ty)
    (h₀ : t₀.WellFormed)
    (hroutes : ∀ route ∈ routes, t₀.treeRoute route (t.unfolding ty) = u ∧
      ∀ subs ∈ route, ∀ (k : Nat) b, subs[k]? = some b → t₀.Sound b)
    (hrs : t.substituteRoutes ty routes = some (rs, t')) (hs : t'.size ≤ TypeId.capacity) :
    t'.WellFormed ∧ ∀ r ∈ rs, t'.Sound r ∧ t'.unfolding r = u := by
  induction routes generalizing t rs with
  | nil =>
    cases hrs
    exact ⟨h.wellFormed, by simp⟩
  | cons route routes ih =>
    obtain ⟨⟨r, t₁⟩, hr, hrest⟩ := Option.bind_eq_some_iff.1 hrs
    obtain ⟨⟨rs', t₂⟩, hrs', heq⟩ := Option.map_eq_some_iff.1 hrest
    cases heq
    have hext := extends_substituteEach hr
    have hext' := extends_substituteRoutes hrs'
    obtain ⟨htree, hsubs⟩ := hroutes route List.mem_cons_self
    obtain ⟨hr₁, hu⟩ := h.substituteEach h₀ hsubs hr (Nat.le_trans hext'.size_le hs)
    -- The next route starts from the same type, which the table still has.
    have h₁ : Standing t₀ t₁ ty :=
      ⟨hr₁.grown, hr₁.wellFormed, hr₁.wellFormed.sound_mono h.sound hext⟩
    obtain ⟨hwf, hall⟩ := ih h₁ (fun route' hmem => by
      rw [hext.unfolding_eq h.wellFormed.layered h.sound.lt_size]
      exact hroutes route' (List.mem_cons_of_mem _ hmem)) hrs'
    refine ⟨hwf, fun r' hmem => ?_⟩
    rcases List.mem_cons.1 hmem with rfl | hmem
    · refine ⟨hwf.sound_mono hr₁.sound hext', ?_⟩
      rw [hext'.unfolding_eq hr₁.wellFormed.layered hr₁.sound.lt_size, hu, htree]
    · exact hall r' hmem

end Table

open Table

/-- Disjoint bindings to closed types lead to the same id in either order and at once, however often
these routes are taken on one table. -/
theorem substitute_in_steps {calls : List Call} {t : Table} (run : WellBuilt calls t) {ty : TypeId}
    (hty : Issued calls ty) {s₁ s₂ : Bindings} (hdisjoint : ∀ k, k ∈ s₁ → k ∉ s₂)
    (h₁ : ∀ (k : Nat) b, s₁[k]? = some b → Issued calls b ∧ b.isGeneric = false)
    (h₂ : ∀ (k : Nat) b, s₂[k]? = some b → Issued calls b ∧ b.isGeneric = false)
    {routes : List (List Bindings)}
    (hroutes : ∀ route ∈ routes, route = [s₁, s₂] ∨ route = [s₂, s₁] ∨ route = [s₁ ∪ s₂]) :
    ∃ rs t', t.substituteRoutes ty routes = some (rs, t') ∧ rs.length = routes.length ∧
      (t'.size ≤ TypeId.capacity → (∀ r ∈ rs, ∀ r' ∈ rs, r = r') ∧
        ∀ r ∈ rs, t'.unfolding r = (t.unfolding ty).substitute (t.boundTree? (s₁ ∪ s₂))) := by
  obtain ⟨ht, hsound⟩ := run.wellFormed
  have hty := hsound ty hty
  have bound₁ : ∀ (k : Nat) b, s₁[k]? = some b → t.Sound b ∧ b.isGeneric = false := fun k b hb =>
    ⟨hsound b (h₁ k b hb).1, (h₁ k b hb).2⟩
  have bound₂ : ∀ (k : Nat) b, s₂[k]? = some b → t.Sound b ∧ b.isGeneric = false := fun k b hb =>
    ⟨hsound b (h₂ k b hb).1, (h₂ k b hb).2⟩
  have bound : ∀ (k : Nat) b, (s₁ ∪ s₂)[k]? = some b → t.Sound b := by
    intro k b hb
    rw [Std.TreeMap.getElem?_union] at hb
    rcases Option.or_eq_some_iff.1 hb with hb | ⟨-, hb⟩
    · exact (bound₂ k b hb).1
    · exact (bound₁ k b hb).1
  -- In trees both ways in two steps are the one step.
  have same : ∀ route ∈ routes, t.treeRoute route (t.unfolding ty) =
      (t.unfolding ty).substitute (t.boundTree? (s₁ ∪ s₂)) ∧
      ∀ subs ∈ route, ∀ (k : Nat) b, subs[k]? = some b → t.Sound b := by
    intro route hmem
    rcases hroutes route hmem with rfl | rfl | rfl
    · rw [boundTree?_union_comm hdisjoint]
      refine ⟨ht.substitute_union bound₁ _, ?_⟩
      simpa using ⟨fun k b hb => (bound₁ k b hb).1, fun k b hb => (bound₂ k b hb).1⟩
    · refine ⟨ht.substitute_union bound₂ _, ?_⟩
      simpa using ⟨fun k b hb => (bound₂ k b hb).1, fun k b hb => (bound₁ k b hb).1⟩
    · exact ⟨rfl, by simpa using bound⟩
  obtain ⟨rs, t', hrs, hlen⟩ := exists_substituteRoutes ht.layered hty.lt_size
    fun route hmem subs hsubs k b hb => ((same route hmem).2 subs hsubs k b hb).lt_size
  refine ⟨rs, t', hrs, hlen, fun hs => ?_⟩
  obtain ⟨hwf, hall⟩ := Standing.substituteRoutes ⟨.refl t, ht, hty⟩ ht same hrs hs
  refine ⟨fun r hr r' hr' => ?_, fun r hr => (hall r hr).2⟩
  exact hwf.unfolding_inj r (hall r hr).1 (hall r' hr').1 ((hall r hr).2.trans (hall r' hr').2.symm)

/-- The three ways to bind `K` to `string` and `V` to `?i32`. -/
def pairRoutes : List (List Bindings) :=
  [[pairKeyBindings, pairValueBindings], [pairValueBindings, pairKeyBindings],
    [pairKeyBindings ∪ pairValueBindings]]

theorem substitute_in_steps_pair :
    ∃ r t', pairMap.2.substituteRoutes (pairMap.1.set .option) pairRoutes = some ([r, r, r], t') ∧
      t'.describe r = "?map[string][]?i32" := by
  have hdisjoint : ∀ k, k ∈ pairKeyBindings → k ∉ pairValueBindings := by
    have hne : pairKey.1.index ≠ pairValue.1.index := by decide +kernel
    intro k hk hv
    simp only [pairKeyBindings, pairValueBindings, Std.TreeMap.mem_insert] at hk hv
    simp_all
  have hkey : ∀ (k : Nat) b, pairKeyBindings[k]? = some b →
      Issued pairCalls b ∧ b.isGeneric = false := by
    intro k b hb
    obtain ⟨-, rfl⟩ := eq_of_single_binding hb
    exact ⟨.builtin (i := 12) (by decide), by decide⟩
  have hvalue : ∀ (k : Nat) b, pairValueBindings[k]? = some b →
      Issued pairCalls b ∧ b.isGeneric = false := by
    intro k b hb
    obtain ⟨-, rfl⟩ := eq_of_single_binding hb
    exact ⟨.wrapped (.builtin (i := 4) (by decide)) (by decide), by decide⟩
  have hty : Issued pairCalls (pairMap.1.set .option) :=
    .wrapped (.answer List.mem_cons_self) (by decide)
  have hroutes : ∀ route ∈ pairRoutes, route = [pairKeyBindings, pairValueBindings] ∨
      route = [pairValueBindings, pairKeyBindings] ∨
      route = [pairKeyBindings ∪ pairValueBindings] := by simp [pairRoutes]
  obtain ⟨rs, t', hrs, hlen, h⟩ :=
    substitute_in_steps wellBuilt_pair hty hdisjoint hkey hvalue hroutes
  have hend : (pairMap.2.substituteRoutes (pairMap.1.set .option) pairRoutes).map (fun p =>
      (p.2.size, p.1.map p.2.describe)) = some (21, List.replicate 3 "?map[string][]?i32") := by
    decide +kernel
  rw [hrs] at hend
  obtain ⟨hsize, hnames⟩ : t'.size = 21 ∧ rs.map t'.describe = _ := by simpa using hend
  obtain ⟨hsame, -⟩ := h (by rw [hsize]; decide)
  obtain ⟨r₁, r₂, r₃, rfl⟩ : ∃ r₁ r₂ r₃, rs = [r₁, r₂, r₃] := List.length_eq_three.1 hlen
  obtain rfl : r₁ = r₂ := hsame r₁ (by simp) r₂ (by simp)
  obtain rfl : r₁ = r₃ := hsame r₁ (by simp) r₃ (by simp)
  exact ⟨r₁, t', hrs, (List.cons.inj hnames).1⟩

end Unroll
