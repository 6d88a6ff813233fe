import Unroll.Proofs.Table.Names
import Unroll.Proofs.Table.WellBuilt

/-!
# Where generic marks come from

A generic mark starts at the declaration of a generic parameter and is passed on by containers. So
in a well-built table an id marked generic is that of a declared parameter or of a container
(`WellBuilt.marked`). The parameter is still one later, unless its name is declared as something
else (`Run.paramAt`).
-/

namespace Unroll

/-- No name of a generic parameter is declared as another kind of symbol later. The latest call is
the first of the list. -/
def ParamsKept (calls : List Call) : Prop :=
  calls.Pairwise fun later earlier => ∀ name s, earlier.op = .declareGenericParam name →
    later.op.symbol? = some s → s.name = name → s.kind = .genericParam

namespace Table

variable {t t' : Table} {c : Container} {ty r : TypeId} {i : Nat} {name : String} {op : Operation}
  {answer : Option TypeId}

/-! ## Generic parameters -/

def ParamAt (t : Table) (name : String) (i : Nat) : Prop :=
  ∃ e, t.entries[i]? = some e ∧ e.symbol.name = name ∧ e.symbol.kind = .genericParam

theorem ParamAt.perform (h : t.ParamAt name i) (hc : t.Canonical)
    (hp : op.perform t = some (answer, t')) (hs : t'.size ≤ TypeId.capacity)
    (hkeep : ∀ s, op.symbol? = some s → s.name = name → s.kind = .genericParam) :
    t'.ParamAt name i := by
  obtain ⟨e, he, hn, hk⟩ := h
  by_cases hd : op.Declares name
  · obtain ⟨s, hsym, hname⟩ := hd
    obtain ⟨rfl, -⟩ := perform_of_symbol? hsym hp
    obtain ⟨j, -, hw, -⟩ := exists_writes_declare hc.size_le s
    by_cases hj : i = j
    · exact ⟨_, by rw [hw, if_pos hj], hname, hkeep s hsym hname⟩
    · exact ⟨e, by rw [hw, if_neg hj, he], hn, hk⟩
  · exact ⟨_, entry_perform hc hp hs he (hn ▸ hd), hn, hk⟩

end Table

theorem Run.paramAt {ok : List Call → Table → Operation → Prop} {t₀ t : Table} {calls : List Call}
    {name : String} {id : TypeId} (run : Run ok t₀ calls t) (h₀ : t₀.Canonical)
    (hkept : ParamsKept calls) (h : ⟨.declareGenericParam name, some id⟩ ∈ calls) :
    t.ParamAt name id.index := by
  induction run with
  | start => cases h
  | call run _ hp hs ih =>
    obtain ⟨hlast, hkept⟩ := List.pairwise_cons.1 hkept
    have hc := run.canonical h₀
    rcases List.mem_cons.1 h with heq | h
    · cases heq
      obtain ⟨rfl, ty, hty, hidx⟩ := Table.perform_of_symbol? rfl hp
      cases hty
      obtain ⟨e, he, hsym⟩ := Option.map_eq_some_iff.1 (Table.symbol?_declare hc.size_le hs)
      exact ⟨e, by rw [hidx, he], by rw [hsym], by rw [hsym]⟩
    · exact (ih hkept h).perform hc hp hs fun s => hlast _ h name s rfl

namespace Table

variable {params : Nat → Prop} {t t' : Table} {c : Container} {ty r : TypeId} {i : Nat}
  {op : Operation} {answer : Option TypeId}

/-! ## Marked ids -/

/-- A sound id that is generic only as that of a parameter or a container. -/
structure Grounded (params : Nat → Prop) (t : Table) (ty : TypeId) : Prop extends Sound t ty where
  generic : ty.isGeneric = true → params ty.index ∨ ∃ c, t.InternedAt c ty.index

theorem Grounded.wrappedLike (h : t.Grounded params ty) (other : TypeId) :
    t.Grounded params (ty.wrappedLike other) := by
  refine ⟨h.toSound.wrappedLike other, fun hg => ?_⟩
  rw [TypeId.index_wrappedLike]
  exact h.generic (by simpa using hg)

theorem Grounded.persists (h : t.Grounded params ty) (hper : Persists t t') (ht' : t'.WellFormed) :
    t'.Grounded params ty := by
  refine ⟨h.toSound.persists hper ht'.internedAt, fun hg => ?_⟩
  rcases h.generic hg with hparam | ⟨c, hc⟩
  · exact .inl hparam
  · exact .inr ⟨c, hper.internedAt hc⟩

theorem Sound.grounded_of_not_generic (h : t.Sound ty) (hg : ty.isGeneric = false) :
    t.Grounded params ty :=
  ⟨h, fun h' => absurd h' (by simp [hg])⟩

/-- A well-formed table in which also the parts of containers are grounded. -/
structure Marked (params : Nat → Prop) (t : Table) : Prop extends WellFormed t where
  grounded_part : ∀ {c i}, t.InternedAt c i → ∀ p ∈ c.parts, t.Grounded params p

theorem Marked.of_persists (h : t.Marked params) (ht' : t'.WellFormed) (hper : Persists t t')
    (hold : ∀ {c i}, t'.InternedAt c i → t.InternedAt c i) : t'.Marked params :=
  ⟨ht', fun hi p hp => (h.grounded_part (hold hi) p hp).persists hper ht'⟩

theorem Marked.intern (h : t.Marked params) (hp : ∀ p ∈ c.parts, t.Grounded params p)
    (hs : (t.intern c).2.size ≤ TypeId.capacity) :
    (t.intern c).2.Marked params ∧ (t.intern c).2.Grounded params (t.intern c).1 := by
  have hsound : ∀ p ∈ c.parts, t.Sound p := fun p hmem => (hp p hmem).toSound
  have ht' := h.toWellFormed.intern hsound hs
  have hper := (extends_intern t c).persists
  refine ⟨⟨ht', fun hi p hmem => ?_⟩, h.toWellFormed.sound_intern hsound hs, fun _ => ?_⟩
  · rcases internedAt_of_intern hi with hi | rfl
    · exact (h.grounded_part hi p hmem).persists hper ht'
    · exact (hp p hmem).persists hper ht'
  · exact .inr ⟨c, internedAt_index_intern hs⟩

theorem Substitutes.marked {subs : Bindings} (h : Substitutes subs t ty r t') (ht : t.Marked params)
    (hty : t.Grounded params ty) (hsubs : ∀ (k : Nat) b, subs[k]? = some b → t.Grounded params b)
    (hs : t'.size ≤ TypeId.capacity) : t'.Marked params ∧ t'.Grounded params r :=
  h.preserves (P := Marked params) (Q := Grounded params)
    (fun hext ht' hty => hty.persists hext.persists ht'.toWellFormed)
    (fun ht _ hk => ht.grounded_part (ht.internedAt hk)) (fun ty _ hb => hb.wrappedLike ty)
    Marked.intern ht hty hsubs hs

/-! ## Runs -/

theorem isGeneric_declare (hs : t.size ≤ TypeId.capacity) (s : Symbol) :
    (t.declare s).1.isGeneric = false := by
  obtain ⟨i, hid, -⟩ := exists_writes_declare hs s
  rw [hid]
  exact TypeId.has_ofIndex i .generic

theorem isGeneric_findType? {name : String} (h : t.findType? name = some ty) :
    ty.isGeneric = false := by
  obtain ⟨i, rfl, -⟩ := findType?_eq_some_iff.1 h
  exact TypeId.has_ofIndex i .generic

/-- An operation that is passed grounded types answers one, provided that the index of a generic
parameter it declares counts as one. -/
theorem Marked.perform (h : t.Marked params) (hop : ∀ s, op ≠ .declare s)
    (htypes : ∀ ty ∈ op.types, t.Grounded params ty)
    (hp : op.perform t = some (answer, t')) (hs : t'.size ≤ TypeId.capacity)
    (hparam : ∀ name ty, op = .declareGenericParam name → answer = some ty → params ty.index) :
    t'.Marked params ∧ ∀ ty, answer = some ty → t'.Grounded params ty := by
  obtain ⟨ht', hsound⟩ := h.toWellFormed.perform hop (fun ty hty => (htypes ty hty).toSound) hp hs
  have hper := (h.toCanonical.perform hp hs).2
  cases op with
  | declare s => exact absurd rfl (hop s)
  | declareGenericParam name =>
    cases hp
    refine ⟨h.of_persists ht' hper (internedAt_of_declare h.size_le), fun ty hty => ?_⟩
    exact ⟨hsound ty hty, fun _ => .inl (hparam name ty rfl hty)⟩
  | declareStruct | declareAlias | declareEnum =>
    cases hp
    refine ⟨h.of_persists ht' hper (internedAt_of_declare h.size_le), fun ty hty => ?_⟩
    refine (hsound ty hty).grounded_of_not_generic ?_
    cases hty
    exact isGeneric_declare h.size_le _
  | addMethod ty m =>
    cases hp
    refine ⟨h.of_persists ht' hper internedAt_of_addMethod, fun ty hty => ?_⟩
    cases hty
  | intern c =>
    cases hp
    obtain ⟨hmarked, hid⟩ := h.intern htypes hs
    refine ⟨hmarked, fun ty hty => ?_⟩
    cases hty
    exact hid
  | substitute subs ty =>
    obtain ⟨⟨r, t₁⟩, hr, heq⟩ := Option.map_eq_some_iff.1 hp
    cases heq
    obtain ⟨hmarked, hid⟩ := (substituteWithin_sound hr).marked h
      (htypes ty List.mem_cons_self) (fun k b hb => htypes b (Operation.mem_types_substitute hb)) hs
    refine ⟨hmarked, fun ty hty => ?_⟩
    cases hty
    exact hid
  | findType name =>
    cases hp
    exact ⟨h, fun ty hty => (hsound ty hty).grounded_of_not_generic (isGeneric_findType? hty)⟩

theorem marked_initial : initial.Marked params where
  toWellFormed := wellFormed_initial
  grounded_part := fun hi => absurd (canonical_initial.index_containerId hi ▸ hi).kind?
    kind?_initial_ne

end Table

open Table

theorem WellBuilt.marked {params : Nat → Prop} {calls : List Call} {t : Table}
    (run : WellBuilt calls t)
    (hparams : ∀ name id, ⟨.declareGenericParam name, some id⟩ ∈ calls → params id.index) :
    t.Marked params ∧ ∀ ty, Issued calls ty → t.Grounded params ty := by
  refine WellBuilt.preserves (R := fun call => ∀ name id,
      call = ⟨.declareGenericParam name, some id⟩ → params id.index) marked_initial
    (fun run ht i hi => ?_) (fun other h => h.wrappedLike other) ?_ run ?_
  · exact (sound_builtin run ht.toWellFormed hi).grounded_of_not_generic (TypeId.has_ofIndex i _)
  · intro t t' op answer ht hop htypes hp hs hparam
    obtain ⟨ht', hanswer⟩ := ht.perform hop htypes hp hs fun name ty hname hty =>
      hparam name ty (by rw [hname, hty])
    have hper := (ht.toCanonical.perform hp hs).2
    exact ⟨ht', hanswer, fun ty hty => hty.persists hper ht'.toWellFormed⟩
  · rintro call hcall name id rfl
    exact hparams name id hcall

end Unroll
