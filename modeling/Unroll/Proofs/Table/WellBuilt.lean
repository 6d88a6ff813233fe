import Unroll.Proofs.Table.Run

/-!
# Well-built tables

What a table is like when every type passed to its operations was issued before
(`WellBuilt.wellFormed`): its containers are interned, their parts are older than they are, and each
id in use is `Sound`, that is, an id of a container is the one its parts determine, up to wrappers.
-/

namespace Unroll

namespace Table

variable {subs : Bindings} {t t' : Table} {c : Container} {ty r : TypeId}

/-! ## Sound ids -/

/-- An id of the table. If it is that of a container, it is marked generic as the container is. -/
structure Sound (t : Table) (ty : TypeId) : Prop where
  lt_size : ty.index < t.size
  eq_containerId : ∀ {c}, t.kind? ty = some (.container c) →
    ty = (containerId c ty.index).wrappedLike ty

theorem Sound.isGeneric_eq (h : t.Sound ty) (hk : t.kind? ty = some (.container c)) :
    ty.isGeneric = c.isGeneric := by
  have := congrArg (·.has .generic) (h.eq_containerId hk)
  simpa using this

theorem Sound.wrappedLike (h : t.Sound ty) (other : TypeId) : t.Sound (ty.wrappedLike other) := by
  have hidx : (ty.wrappedLike other).index = ty.index := TypeId.index_wrappedLike ty other
  refine ⟨by rw [hidx]; exact h.lt_size, fun {c} hk => ?_⟩
  have heq := h.eq_containerId (kind?_congr hidx ▸ hk)
  calc ty.wrappedLike other
      = ((containerId c ty.index).wrappedLike ty).wrappedLike other :=
        congrArg (·.wrappedLike other) heq
    _ = (containerId c ty.index).wrappedLike (ty.wrappedLike other) :=
        TypeId.wrappedLike_assoc _ _ _
    _ = (containerId c (ty.wrappedLike other).index).wrappedLike (ty.wrappedLike other) := by
        rw [hidx]

/-- A container of a later table that is at an index of an earlier one was there already. -/
theorem Persists.kind?_container (h : Persists t t')
    (hi : ∀ {ty c}, t'.kind? ty = some (.container c) → t'.InternedAt c ty.index)
    (hty : ty.index < t.size) (hk : t'.kind? ty = some (.container c)) :
    t.kind? ty = some (.container c) :=
  ((h.internedAt_iff hty).1 (hi hk)).kind?

theorem Sound.persists (h : t.Sound ty) (hper : Persists t t')
    (hi : ∀ {ty c}, t'.kind? ty = some (.container c) → t'.InternedAt c ty.index) :
    t'.Sound ty :=
  ⟨Nat.lt_of_lt_of_le h.lt_size hper.size_le,
    fun hk => h.eq_containerId (hper.kind?_container hi h.lt_size hk)⟩

/-! ## Well-formed tables -/

/-- The table is canonical, its containers are interned, and their parts are older. -/
structure Stratified (t : Table) : Prop extends Canonical t where
  layered : t.Layered
  internedAt : ∀ {ty c}, t.kind? ty = some (.container c) → t.InternedAt c ty.index

/-- In addition the parts of containers are sound and no symbol mentions a missing type. -/
structure WellFormed (t : Table) : Prop extends Stratified t where
  sound_part : ∀ {ty c}, t.kind? ty = some (.container c) → ∀ p ∈ c.parts, t.Sound p
  mentions_lt : ∀ {i : Nat} {e}, t.entries[i]? = some e → ∀ ty ∈ e.symbol.types, ty.index < t.size

theorem kind?_initial_ne : initial.kind? ty ≠ some (.container c) := by
  intro h
  obtain ⟨e, he, hk⟩ := kind?_eq_some_iff.1 h
  obtain ⟨name, rfl⟩ := entry_initial he
  cases hk

theorem wellFormed_initial : initial.WellFormed where
  toCanonical := canonical_initial
  layered := fun _ _ hk => absurd hk kind?_initial_ne
  internedAt := fun hk => absurd hk kind?_initial_ne
  sound_part := fun hk => absurd hk kind?_initial_ne
  mentions_lt := by
    intro i e he ty hty
    obtain ⟨name, rfl⟩ := entry_initial he
    cases hty

/-- An operation that makes no container leaves the table well formed. -/
theorem WellFormed.of_persists (h : t.WellFormed) (hc : t'.Canonical) (hper : Persists t t')
    (hk : ∀ {ty c}, t'.kind? ty = some (.container c) → t.kind? ty = some (.container c))
    (hm : ∀ {i : Nat} {e}, t'.entries[i]? = some e → ∀ ty ∈ e.symbol.types, ty.index < t'.size) :
    t'.WellFormed := by
  have hi : ∀ {ty c}, t'.kind? ty = some (.container c) → t'.InternedAt c ty.index :=
    fun h' => hper.internedAt (h.internedAt (hk h'))
  exact {
    toCanonical := hc
    layered := fun _ _ h' => h.layered (hk h')
    internedAt := hi
    sound_part := fun h' p hp => (h.sound_part (hk h') p hp).persists hper hi
    mentions_lt := hm }

theorem WellFormed.of_writes {i : Nat} {e : Entry} (h : t.WellFormed) (hc : t'.Canonical)
    (hper : Persists t t') (hw : t.Writes i e t')
    (hk : ∀ c, e.symbol.kind = .container c →
      ∃ e₀, t.entries[i]? = some e₀ ∧ e₀.symbol.kind = .container c)
    (hm : ∀ ty ∈ e.symbol.types, ty.index < t.size) : t'.WellFormed := by
  refine h.of_persists hc hper (hw.kind?_container hk) fun {j e'} he' ty hty => ?_
  rw [hw] at he'
  split_ifs at he' with hj
  · cases he'
    exact Nat.lt_of_lt_of_le (hm ty hty) hper.size_le
  · exact Nat.lt_of_lt_of_le (h.mentions_lt he' ty hty) hper.size_le

theorem WellFormed.declare (h : t.WellFormed) {s : Symbol} (hk : ∀ c, s.kind ≠ .container c)
    (hm : ∀ ty ∈ s.types, ty.index < t.size) (hs : (t.declare s).2.size ≤ TypeId.capacity) :
    (t.declare s).2.WellFormed := by
  obtain ⟨i, -, hw, -⟩ := exists_writes_declare h.size_le s
  exact h.of_writes (h.toCanonical.declare hs) (persists_declare h.size_le s) hw
    (fun c hc => absurd hc (hk c)) hm

theorem WellFormed.addMethod (h : t.WellFormed) {m : Method}
    (hm : ∀ ty ∈ m.types, ty.index < t.size)
    (hs : ((t.addMethod? ty m).getD t).size ≤ TypeId.capacity) :
    ((t.addMethod? ty m).getD t).WellFormed := by
  rcases addMethod_cases t ty m with heq | ⟨e, he, hw⟩
  · rwa [heq]
  · refine h.of_writes (h.toCanonical.addMethod ty m hs) (persists_addMethod t ty m) hw
      (fun c hc => ⟨e, he, hc⟩) fun ty' hty' => ?_
    have hold := h.mentions_lt he
    simp only [Entry.withMethod, Symbol.types, List.flatMap_append, List.flatMap_cons,
      List.flatMap_nil, List.append_nil, List.mem_append] at hty' hold
    rcases hty' with hty' | hty' | hty'
    · exact hold ty' (.inl hty')
    · exact hold ty' (.inr hty')
    · exact hm ty' hty'

theorem WellFormed.sound_of_declaredAt (h : t.WellFormed) (hd : t.DeclaredAt ty.index) :
    t.Sound ty := by
  obtain ⟨e, he, -⟩ := id hd
  exact ⟨lt_size_of_entry he, fun hk => absurd (h.internedAt hk) hd.not_internedAt⟩

theorem WellFormed.sound_mono (h : t'.WellFormed) (hty : t.Sound ty) (hext : Extends t t') :
    t'.Sound ty :=
  hty.persists hext.persists h.internedAt

theorem Stratified.intern (h : t.Stratified) (hp : ∀ p ∈ c.parts, p.index < t.size)
    (hs : (t.intern c).2.size ≤ TypeId.capacity) : (t.intern c).2.Stratified where
  toCanonical := h.toCanonical.intern hs
  layered := h.layered.intern hp
  internedAt := by
    intro ty c' hk
    rcases hc : t.interned? c with _ | id
    · rcases kind?_of_intern hk with hk | hnew
      · exact (extends_intern t c).internedAt (h.internedAt hk)
      · rw [intern_of_new hc]
        exact internedAt_push_iff.2 (.inr hnew)
    · rw [intern_of_interned? hc] at hk ⊢
      exact h.internedAt hk

theorem Substitutes.stratified (h : Substitutes subs t ty r t') (ht : t.Stratified)
    (hty : ty.index < t.size) (hsubs : ∀ (k : Nat) b, subs[k]? = some b → b.index < t.size)
    (hs : t'.size ≤ TypeId.capacity) : t'.Stratified :=
  (h.preserves_lt (P := Stratified) (fun ht hk => ht.layered.part_lt hk) Stratified.intern ht hty
    hsubs hs).1

theorem WellFormed.intern (h : t.WellFormed) (hp : ∀ p ∈ c.parts, t.Sound p)
    (hs : (t.intern c).2.size ≤ TypeId.capacity) : (t.intern c).2.WellFormed := by
  have hlt : ∀ p ∈ c.parts, p.index < t.size := fun p hmem => (hp p hmem).lt_size
  have ht' := h.toStratified.intern hlt hs
  have hext := extends_intern t c
  refine ⟨ht', fun {ty c'} hk p hp' => ?_, fun {i e} he ty hty => ?_⟩
  · rcases kind?_of_intern hk with hk | ⟨-, rfl⟩
    · exact (h.sound_part hk p hp').persists hext.persists ht'.internedAt
    · exact (hp p hp').persists hext.persists ht'.internedAt
  · refine Nat.lt_of_lt_of_le ?_ hext.size_le
    rcases hc : t.interned? c with _ | id
    · rw [intern_of_new hc, entry_push] at he
      split_ifs at he with hi
      · cases he
        exact hlt ty (by simpa [containerEntry, Symbol.types, SymbolKind.types] using hty)
      · exact h.mentions_lt he ty hty
    · rw [intern_of_interned? hc] at he
      exact h.mentions_lt he ty hty

theorem WellFormed.sound_containerId {i : Nat} (h : t.WellFormed) (hi : t.InternedAt c i) :
    t.Sound (containerId c i) := by
  have hidx := h.index_containerId hi
  refine ⟨hidx.symm ▸ hi.lt_size, fun {c'} hk => ?_⟩
  obtain rfl := hi.container_eq (hidx ▸ h.internedAt hk)
  rw [hidx, TypeId.wrappedLike_of_unwrapped _ (isOption_containerId _ _) (isResult_containerId _ _)]

theorem WellFormed.sound_intern (h : t.WellFormed) (hp : ∀ p ∈ c.parts, t.Sound p)
    (hs : (t.intern c).2.size ≤ TypeId.capacity) : (t.intern c).2.Sound (t.intern c).1 := by
  obtain ⟨i, hi, hid⟩ := exists_internedAt_intern t c
  rw [hid]
  exact (h.intern hp hs).sound_containerId hi

/-- Substitution of sound types leaves the table well formed, and its answer is sound. -/
theorem Substitutes.wellFormed (h : Substitutes subs t ty r t') (ht : t.WellFormed)
    (hty : t.Sound ty) (hsubs : ∀ (k : Nat) b, subs[k]? = some b → t.Sound b)
    (hs : t'.size ≤ TypeId.capacity) : t'.WellFormed ∧ t'.Sound r :=
  h.preserves (P := WellFormed) (Q := Sound) (fun hext ht' hty => ht'.sound_mono hty hext)
    (fun ht _ hk => ht.sound_part hk) (fun ty _ hb => hb.wrappedLike ty)
    (fun ht hp hs => ⟨ht.intern hp hs, ht.sound_intern hp hs⟩) ht hty hsubs hs

end Table

/-! ## Runs -/

open Table

theorem sound_builtin {calls : List Call} {t : Table} {ok : List Call → Table → Operation → Prop}
    (run : Run ok .initial calls t) (h : t.WellFormed) {i : Nat}
    (hi : i < TypeId.builtinNames.length) : t.Sound (.ofIndex i) := by
  have hlen : TypeId.builtinNames.length ≤ TypeId.capacity := by decide +kernel
  have hidx : (TypeId.ofIndex i).index = i :=
    TypeId.index_ofIndex_of_lt (Nat.lt_of_lt_of_le hi hlen)
  refine h.sound_of_declaredAt ?_
  rw [hidx]
  exact (run.persists canonical_initial).declaredAt
    (declaredAt_initial (by simpa [Table.size, initial] using hi))

/-- A symbol that is declared by the operation for its kind is no container. -/
theorem Operation.types_symbol? {op : Operation} {s : Symbol} (hop : ∀ s, op ≠ .declare s)
    (h : op.symbol? = some s) : (∀ c, s.kind ≠ .container c) ∧ s.types = op.types := by
  cases op <;> cases h
  case declare => exact absurd rfl (hop s)
  all_goals
    refine ⟨fun c hc => ?_, by simp [Symbol.types, SymbolKind.types, Operation.types]⟩
    cases hc

/-- An operation that is passed sound types leaves the table well formed and answers a sound id. -/
theorem Table.WellFormed.perform {t t' : Table} {op : Operation} {answer : Option TypeId}
    (h : t.WellFormed) (hop : ∀ s, op ≠ .declare s) (htypes : ∀ ty ∈ op.types, t.Sound ty)
    (hp : op.perform t = some (answer, t')) (hs : t'.size ≤ TypeId.capacity) :
    t'.WellFormed ∧ ∀ ty, answer = some ty → t'.Sound ty := by
  rcases hsym : op.symbol? with _ | s
  · cases op with
    | declare | declareStruct | declareGenericParam | declareAlias | declareEnum => cases hsym
    | addMethod ty m =>
      cases hp
      have hm : ∀ ty ∈ m.types, ty.index < t.size := fun ty hty =>
        (htypes ty (List.mem_cons_of_mem _ hty)).lt_size
      refine ⟨h.addMethod hm hs, fun ty heq => ?_⟩
      cases heq
    | intern c =>
      cases hp
      refine ⟨h.intern htypes hs, fun ty heq => ?_⟩
      cases heq
      exact h.sound_intern htypes hs
    | substitute subs ty =>
      obtain ⟨⟨r, t₁⟩, hr, heq⟩ := Option.map_eq_some_iff.1 hp
      cases heq
      have hsubs : ∀ (k : Nat) b, subs[k]? = some b → t.Sound b := fun k b hb =>
        htypes b (Operation.mem_types_substitute hb)
      obtain ⟨ht', hr'⟩ := (substituteWithin_sound hr).wellFormed h
        (htypes ty List.mem_cons_self) hsubs hs
      refine ⟨ht', fun ty' heq => ?_⟩
      cases heq
      exact hr'
    | findType name =>
      cases hp
      exact ⟨h, fun ty hty => h.sound_of_declaredAt (declaredAt_findType? h.toCanonical hty)⟩
  · obtain ⟨hk, hsame⟩ := Operation.types_symbol? hop hsym
    obtain ⟨rfl, ty, rfl, hidx⟩ := perform_of_symbol? hsym hp
    have hwf := h.declare hk (fun ty hty => (htypes ty (hsame ▸ hty)).lt_size) hs
    refine ⟨hwf, fun ty' heq => ?_⟩
    cases heq
    exact hwf.sound_of_declaredAt (hidx ▸ declaredAt_declare h.toCanonical hs)

/-- A property `P` of tables and one `Q` of their ids hold along a well-built run if each call keeps
them. `R` is known of the calls. -/
theorem WellBuilt.preserves {P : Table → Prop} {Q : Table → TypeId → Prop} {R : Call → Prop}
    {calls : List Call} {t : Table} (start : P initial)
    (builtin : ∀ {calls t}, WellBuilt calls t → P t →
      ∀ i < TypeId.builtinNames.length, Q t (.ofIndex i))
    (wrapped : ∀ {t ty} (other : TypeId), Q t ty → Q t (ty.wrappedLike other))
    (step : ∀ {t t' op answer}, P t → (∀ s, op ≠ .declare s) → (∀ ty ∈ op.types, Q t ty) →
      op.perform t = some (answer, t') → t'.size ≤ TypeId.capacity → R ⟨op, answer⟩ →
      P t' ∧ (∀ ty, answer = some ty → Q t' ty) ∧ ∀ ty, Q t ty → Q t' ty)
    (run : WellBuilt calls t) (hcalls : ∀ call ∈ calls, R call) :
    P t ∧ ∀ ty, Issued calls ty → Q t ty := by
  induction run with
  | start =>
    refine ⟨start, fun ty hty => ?_⟩
    induction hty with
    | builtin hi => exact builtin .start start _ hi
    | answer h => cases h
    | wrapped _ hf ih =>
      rw [TypeId.set_eq_wrappedLike _ hf]
      exact wrapped _ ih
  | call run hop hp hs ih =>
    obtain ⟨ht, hissued⟩ := ih fun call h => hcalls call (List.mem_cons_of_mem _ h)
    obtain ⟨ht', hanswer, hold⟩ := step ht hop.1 (fun ty hty => hissued ty (hop.2 ty hty)) hp hs
      (hcalls _ List.mem_cons_self)
    refine ⟨ht', fun ty hty => ?_⟩
    induction hty with
    | builtin hi => exact builtin (.call run hop hp hs) ht' _ hi
    | answer h =>
      rcases List.mem_cons.1 h with heq | h
      · cases heq
        exact hanswer _ rfl
      · exact hold _ (hissued _ (.answer h))
    | wrapped _ hf ih =>
      rw [TypeId.set_eq_wrappedLike _ hf]
      exact wrapped _ ih

theorem WellBuilt.wellFormed {calls : List Call} {t : Table} (run : WellBuilt calls t) :
    t.WellFormed ∧ ∀ ty, Issued calls ty → t.Sound ty := by
  refine WellBuilt.preserves (R := fun _ => True) wellFormed_initial
    (fun run ht _ hi => sound_builtin run ht hi) (fun other h => h.wrappedLike other) ?_ run
    fun _ _ => trivial
  intro t t' op answer ht hop htypes hp hs _
  obtain ⟨ht', hanswer⟩ := ht.perform hop htypes hp hs
  have hper := (ht.toCanonical.perform hp hs).2
  exact ⟨ht', hanswer, fun ty hty => hty.persists hper ht'.internedAt⟩

end Unroll
