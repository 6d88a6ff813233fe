import Unroll.Proofs.Table.Run

/-!
# Names

Which names a table knows, what their symbols are, and how containers are named, read off the calls
that led to the table: a name belongs to the index it was first declared at, its symbol is that of
the last declaration with the methods added since, and a container's name stays the one its parts
give: `[]E`, `[N]E` or `map[K]V` (`names_follow_declarations`).
-/

namespace Unroll

/-! ## What the calls say -/

/-- The operation declares a symbol of that name. -/
def Operation.Declares (op : Operation) (name : String) : Prop :=
  ∃ s, op.symbol? = some s ∧ s.name = name

/-- The method that an operation adds at an index. -/
def Operation.method? (i : Nat) : Operation → Option Method
  | addMethod ty m => if ty.index = i then some m else none
  | _ => none

theorem Operation.method?_of_symbol? {op : Operation} {s : Symbol} (h : op.symbol? = some s)
    (i : Nat) : op.method? i = none := by
  cases op with
  | addMethod => cases h
  | _ => rfl

/-- The methods added at an index, in the order of the calls. -/
def addedMethods (i : Nat) (calls : List Call) : List Method :=
  (calls.filterMap fun call => call.op.method? i).reverse

theorem addedMethods_cons (i : Nat) (call : Call) (calls : List Call) :
    addedMethods i (call :: calls) = addedMethods i calls ++ (call.op.method? i).toList := by
  rw [addedMethods, List.filterMap_cons]
  cases call.op.method? i <;> simp [addedMethods]

def Symbol.addMethods (s : Symbol) (ms : List Method) : Symbol :=
  { s with methods := s.methods ++ ms }

@[simp] theorem Symbol.addMethods_nil (s : Symbol) : s.addMethods [] = s := by
  simp [addMethods]

theorem Symbol.addMethods_append (s : Symbol) (ms ms' : List Method) :
    s.addMethods (ms ++ ms') = (s.addMethods ms).addMethods ms' := by
  simp [addMethods]

/-- A run can be cut at any of its calls. -/
theorem Run.exists_split {t₀ t : Table} {later earlier : List Call} {call : Call}
    (run : Run anyCall t₀ (later ++ call :: earlier) t) :
    ∃ t₁ t₂, Run anyCall t₀ earlier t₁ ∧ call.op.perform t₁ = some (call.answer, t₂) ∧
      t₂.size ≤ TypeId.capacity ∧ Run anyCall t₂ later t := by
  induction later generalizing t with
  | nil =>
    cases run with
    | call run _ hp hs => exact ⟨_, t, run, hp, hs, .start⟩
  | cons last later ih =>
    cases run with
    | call run _ hp hs =>
      obtain ⟨t₁, t₂, hrun, hperform, hsize, hlater⟩ := ih run
      exact ⟨t₁, t₂, hrun, hperform, hsize, .call hlater trivial hp hs⟩

namespace Table

variable {t t' : Table} {c : Container} {ty : TypeId} {i j : Nat} {name : String}

/-! ## Names of declared symbols -/

/-- A symbol of that name was declared at the index. -/
def NamedAt (t : Table) (name : String) (i : Nat) : Prop :=
  ∃ e, t.entries[i]? = some e ∧ e.origin = .declared ∧ e.symbol.name = name

theorem NamedAt.lt_size (h : t.NamedAt name i) : i < t.size := by
  obtain ⟨e, he, -⟩ := h
  exact lt_size_of_entry he

theorem NamedAt.name_eq {name' : String} (h : t.NamedAt name i) (h' : t.NamedAt name' i) :
    name = name' := by
  obtain ⟨e, he, -, hn⟩ := h
  obtain ⟨e', he', -, hn'⟩ := h'
  obtain rfl : e = e' := Option.some.inj (he.symm.trans he')
  exact hn.symm.trans hn'

theorem findType?_eq_none_iff : t.findType? name = none ↔ ∀ i, ¬ t.NamedAt name i := by
  rw [findType?, Option.map_eq_none_iff, Array.findIdx?_eq_none_iff]
  constructor
  · rintro h i ⟨e, he, ho, hn⟩
    have := h e (Array.mem_of_getElem? he)
    simp [ho, hn] at this
  · intro h e he
    obtain ⟨i, hi⟩ := Array.getElem?_of_mem he
    by_contra hp
    simp only [Bool.not_eq_false, Bool.and_eq_true, beq_iff_eq] at hp
    exact h i ⟨e, hi, hp.1, hp.2⟩

/-- A name belongs to the first index it was declared at. -/
theorem findType?_eq_some_iff : t.findType? name = some ty ↔
    ∃ i, ty = .ofIndex i ∧ t.NamedAt name i ∧ ∀ j < i, ¬ t.NamedAt name j := by
  rw [findType?, Option.map_eq_some_iff]
  constructor
  · rintro ⟨i, hi, rfl⟩
    obtain ⟨hlt, hp, hmin⟩ := Array.findIdx?_eq_some_iff_getElem.1 hi
    simp only [Bool.and_eq_true, beq_iff_eq] at hp
    refine ⟨i, rfl, ⟨_, Array.getElem?_eq_getElem hlt, hp.1, hp.2⟩, ?_⟩
    rintro j hj ⟨e, he, ho, hn⟩
    obtain ⟨hj', rfl⟩ := Array.getElem?_eq_some_iff.1 he
    have := hmin j hj
    simp [ho, hn] at this
  · rintro ⟨i, rfl, ⟨e, he, ho, hn⟩, hmin⟩
    obtain ⟨hlt, rfl⟩ := Array.getElem?_eq_some_iff.1 he
    refine ⟨i, Array.findIdx?_eq_some_iff_getElem.2 ⟨hlt, by simp [ho, hn], fun j hj hp => ?_⟩, rfl⟩
    simp only [Bool.and_eq_true, beq_iff_eq] at hp
    exact hmin j hj ⟨_, Array.getElem?_eq_getElem (Nat.lt_trans hj hlt), hp.1, hp.2⟩

theorem Persists.namedAt (h : Persists t t') (hi : t.NamedAt name i) : t'.NamedAt name i := by
  obtain ⟨e, he, ho, hn⟩ := hi
  obtain ⟨e', he', hb⟩ := h i e he
  exact ⟨e', he', hb.origin.trans ho, hb.name.trans hn⟩

theorem Persists.namedAt_iff (h : Persists t t') (hi : i < t.size) :
    t'.NamedAt name i ↔ t.NamedAt name i := by
  refine ⟨?_, h.namedAt⟩
  rintro ⟨e', he', ho, hn⟩
  obtain ⟨e, he⟩ := exists_entry hi
  obtain ⟨e₁, he₁, hb⟩ := h i e he
  obtain rfl : e₁ = e' := Option.some.inj (he₁.symm.trans he')
  exact ⟨e, he, hb.origin.symm.trans ho, hb.name.symm.trans hn⟩

/-- A name that is found keeps its id. -/
theorem Persists.findType?_eq (h : Persists t t') (hf : t.findType? name = some ty) :
    t'.findType? name = some ty := by
  obtain ⟨i, rfl, hi, hmin⟩ := findType?_eq_some_iff.1 hf
  refine findType?_eq_some_iff.2 ⟨i, rfl, h.namedAt hi, fun j hj hn => hmin j hj ?_⟩
  exact (h.namedAt_iff (Nat.lt_trans hj hi.lt_size)).1 hn

/-- A declared symbol is found by its name. -/
theorem findType?_declare (hs : t.size ≤ TypeId.capacity) (s : Symbol) :
    (t.declare s).2.findType? s.name = some (t.declare s).1 := by
  rcases h : t.findType? s.name with _ | ty
  · rw [declare, h]
    have hnone := findType?_eq_none_iff.1 h
    refine findType?_eq_some_iff.2
      ⟨t.size, rfl, ⟨_, by rw [entry_push, if_pos rfl], rfl, rfl⟩, fun j hj hn => ?_⟩
    exact hnone j (((extends_push t _).persists.namedAt_iff hj).1 hn)
  · have hsame := (persists_declare hs s).findType?_eq h
    rw [declare, h] at hsame ⊢
    exact hsame

/-! ## What an operation adds -/

/-- `t'` is `t` with containers interned behind its entries. One whose parts were there before it
has the name that they give. -/
structure AddsContainers (t t' : Table) : Prop where
  base : Extends t t'
  interned : ∀ {i : Nat} {e}, t.size ≤ i → t'.entries[i]? = some e → e.origin = .interned
  named : ∀ {i : Nat} {e c}, t.size ≤ i → t'.entries[i]? = some e →
    e.symbol.kind = .container c → (∀ p ∈ c.parts, p.index < i) → e.symbol.name = t'.containerName c

theorem AddsContainers.refl (t : Table) : AddsContainers t t where
  base := .refl t
  interned := fun hi he => absurd (lt_size_of_entry he) (Nat.not_lt.2 hi)
  named := fun hi he => absurd (lt_size_of_entry he) (Nat.not_lt.2 hi)

theorem AddsContainers.intern {t₀ : Table} (h : AddsContainers t₀ t) (c : Container) :
    AddsContainers t₀ (t.intern c).2 := by
  rcases hc : t.interned? c with _ | ty
  · rw [intern_of_new hc]
    have hext := extends_push t (t.containerEntry c)
    refine ⟨h.base.trans hext, fun hi he => ?_, fun {i e c'} hi he hk hparts => ?_⟩ <;>
      rw [entry_push] at he <;> split_ifs at he with hlast
    · cases he
      rfl
    · exact h.interned hi he
    · cases he
      obtain rfl := SymbolKind.container.inj hk
      exact (hext.containerName_eq fun p hp => hlast ▸ hparts p hp).symm
    · rw [h.named hi he hk hparts, hext.containerName_eq fun p hp =>
        Nat.lt_trans (hparts p hp) (lt_size_of_entry he)]
  · rw [intern_of_interned? hc]
    exact h

theorem Substitutes.addsContainers {subs : Bindings} {r : TypeId} (h : Substitutes subs t ty r t')
    (hs : t'.size ≤ TypeId.capacity) : AddsContainers t t' :=
  (h.preserves (P := AddsContainers t) (Q := fun _ _ => True) (fun _ _ _ => trivial)
    (fun _ _ _ _ _ => trivial) (fun _ _ _ => trivial) (fun ht _ _ => ⟨ht.intern _, trivial⟩)
    (.refl t) trivial (fun _ _ _ => trivial) hs).1

theorem AddsContainers.namedAt (h : AddsContainers t t') (hi : t'.NamedAt name i) :
    t.NamedAt name i := by
  by_cases hlt : i < t.size
  · exact (h.base.persists.namedAt_iff hlt).1 hi
  · obtain ⟨e, he, ho, -⟩ := hi
    exact absurd (ho.symm.trans (h.interned (Nat.le_of_not_lt hlt) he)) (by decide)

/-- An operation declares a symbol, or adds a method, or adds containers. -/
theorem perform_cases {op : Operation} {answer : Option TypeId}
    (hp : op.perform t = some (answer, t')) (hs : t'.size ≤ TypeId.capacity) :
    (∃ s, op.symbol? = some s ∧ t' = (t.declare s).2) ∨
      (∃ ty m, op = .addMethod ty m ∧ t' = (t.addMethod? ty m).getD t) ∨
      (op.symbol? = none ∧ (∀ i, op.method? i = none) ∧ AddsContainers t t') := by
  rcases hsym : op.symbol? with _ | s
  · right
    cases op with
    | declare | declareStruct | declareGenericParam | declareAlias | declareEnum => cases hsym
    | addMethod ty m =>
      cases hp
      exact .inl ⟨ty, m, rfl, rfl⟩
    | intern c =>
      cases hp
      exact .inr ⟨rfl, fun _ => rfl, (AddsContainers.refl t).intern c⟩
    | substitute subs ty =>
      obtain ⟨⟨r, t₁⟩, hr, heq⟩ := Option.map_eq_some_iff.1 hp
      cases heq
      exact .inr ⟨rfl, fun _ => rfl, (substituteWithin_sound hr).addsContainers hs⟩
    | findType =>
      cases hp
      exact .inr ⟨rfl, fun _ => rfl, .refl t⟩
  · exact .inl ⟨s, rfl, (perform_of_symbol? hsym hp).1⟩

/-- The names after an operation are those before it and the one it declares. -/
theorem exists_namedAt_perform {op : Operation} {answer : Option TypeId} (hc : t.Canonical)
    (hp : op.perform t = some (answer, t')) (hs : t'.size ≤ TypeId.capacity) :
    (∃ i, t'.NamedAt name i) ↔ (∃ i, t.NamedAt name i) ∨ op.Declares name := by
  have hper := (hc.perform hp hs).2
  constructor
  · rintro ⟨i, hi⟩
    rcases perform_cases hp hs with ⟨s, hsym, rfl⟩ | ⟨ty, m, -, rfl⟩ | ⟨-, -, hadds⟩
    · obtain ⟨j, -, hw, -⟩ := exists_writes_declare hc.size_le s
      obtain ⟨e, he, ho, hn⟩ := hi
      rw [hw] at he
      split_ifs at he
      · cases he
        exact .inr ⟨s, hsym, hn⟩
      · exact .inl ⟨i, e, he, ho, hn⟩
    · refine .inl ⟨i, (hper.namedAt_iff ?_).1 hi⟩
      rcases addMethod_cases t ty m with heq | ⟨e, he, hw⟩
      · rw [heq] at hi
        exact hi.lt_size
      · obtain ⟨e', he', -⟩ := hi
        rw [hw] at he'
        split_ifs at he' with hj
        · exact hj ▸ lt_size_of_entry he
        · exact lt_size_of_entry he'
    · exact .inl ⟨i, hadds.namedAt hi⟩
  · rintro (⟨i, hi⟩ | ⟨s, hsym, rfl⟩)
    · exact ⟨i, hper.namedAt hi⟩
    · obtain ⟨rfl, -⟩ := perform_of_symbol? hsym hp
      obtain ⟨i, -, hi, -⟩ := findType?_eq_some_iff.1 (findType?_declare hc.size_le s)
      exact ⟨i, hi⟩

/-- An operation that does not declare its name leaves a symbol alone, up to a method added. -/
theorem entry_perform {op : Operation} {answer : Option TypeId} {e : Entry} (hc : t.Canonical)
    (hp : op.perform t = some (answer, t')) (hs : t'.size ≤ TypeId.capacity)
    (he : t.entries[i]? = some e) (hn : ¬ op.Declares e.symbol.name) :
    t'.entries[i]? = some { e with symbol := e.symbol.addMethods (op.method? i).toList } := by
  rcases perform_cases hp hs with ⟨s, hsym, rfl⟩ | ⟨ty, m, rfl, rfl⟩ | ⟨-, hnone, hadds⟩
  · obtain ⟨j, -, hw, hj⟩ := exists_writes_declare hc.size_le s
    -- The entry written is new, or has the name of the symbol that is declared.
    have hne : i ≠ j := by
      rintro rfl
      rcases hj with rfl | ⟨e₀, he₀, -, hn₀⟩
      · exact Nat.lt_irrefl _ (lt_size_of_entry he)
      · obtain rfl : e = e₀ := Option.some.inj (he.symm.trans he₀)
        exact hn ⟨s, hsym, hn₀.symm⟩
    rw [hw, if_neg hne, he, Operation.method?_of_symbol? hsym]
    simp
  · by_cases hi : ty.index = i
    · subst hi
      obtain ⟨t₁, h₁, hw⟩ := exists_addMethod? he m
      rw [h₁, Option.getD_some, hw, if_pos rfl]
      simp [Operation.method?, Entry.withMethod, Symbol.addMethods]
    · have hsame : ((t.addMethod? ty m).getD t).entries[i]? = t.entries[i]? := by
        rcases addMethod_cases t ty m with heq | ⟨e₀, -, hw⟩
        · rw [heq]
        · rw [hw, if_neg (Ne.symm hi)]
      rw [hsame, he]
      simp [Operation.method?, hi]
  · rw [hnone, hadds.base i e he]
    simp

/-! ## Names of containers -/

theorem Persists.describe_eq (h : Persists t t') (hty : ty.index < t.size) :
    t'.describe ty = t.describe ty := by
  obtain ⟨e, he⟩ := exists_entry hty
  obtain ⟨e', he', hb⟩ := h _ e he
  simp [describe, symbol?, he, he', hb.name]

theorem Persists.containerName_eq (h : Persists t t') (hc : ∀ p ∈ c.parts, p.index < t.size) :
    t'.containerName c = t.containerName c :=
  containerName_congr fun p hp => h.describe_eq (hc p hp)

/-- The container was interned when its parts were in the table: they have smaller indices, since a
container gets the one behind all in use. -/
def InternedOverParts (t : Table) (c : Container) (i : Nat) : Prop :=
  t.InternedAt c i ∧ ∀ p ∈ c.parts, p.index < i

/-- Each container that was interned behind all its parts has the name that they give. -/
def NamesContainers (t : Table) : Prop :=
  ∀ {i : Nat} {e : Entry} {c : Container}, t.entries[i]? = some e → e.origin = .interned →
    e.symbol.kind = .container c → (∀ p ∈ c.parts, p.index < i) → e.symbol.name = t.containerName c

theorem NamesContainers.of_persists (h : t.NamesContainers) (hper : Persists t t')
    (hnew : ∀ {i : Nat} {e : Entry} {c : Container}, t.size ≤ i → t'.entries[i]? = some e →
      e.origin = .interned → e.symbol.kind = .container c → (∀ p ∈ c.parts, p.index < i) →
      e.symbol.name = t'.containerName c) : t'.NamesContainers := by
  intro i e' c he' ho hk hparts
  by_cases hi : i < t.size
  · obtain ⟨e, he⟩ := exists_entry hi
    obtain ⟨e₁, he₁, hb⟩ := hper i e he
    obtain rfl : e₁ = e' := Option.some.inj (he₁.symm.trans he')
    have ho₁ := hb.origin.symm.trans ho
    rw [hb.name, h he ho₁ ((hb.kind ho₁).symm.trans hk) hparts]
    exact (hper.containerName_eq fun p hp => Nat.lt_trans (hparts p hp) hi).symm
  · exact hnew (Nat.le_of_not_lt hi) he' ho hk hparts

theorem NamesContainers.perform {op : Operation} {answer : Option TypeId} (h : t.NamesContainers)
    (hc : t.Canonical) (hp : op.perform t = some (answer, t')) (hs : t'.size ≤ TypeId.capacity) :
    t'.NamesContainers := by
  refine h.of_persists (hc.perform hp hs).2 fun {i e c} hi he ho hk hparts => ?_
  rcases perform_cases hp hs with ⟨s, -, rfl⟩ | ⟨ty, m, -, rfl⟩ | ⟨-, -, hadds⟩
  · obtain ⟨j, -, hw, -⟩ := exists_writes_declare hc.size_le s
    rw [hw] at he
    split_ifs at he
    · cases he
      cases ho
    · exact absurd (lt_size_of_entry he) (Nat.not_lt.2 hi)
  · rcases addMethod_cases t ty m with heq | ⟨e₀, he₀, hw⟩
    · rw [heq] at he
      exact absurd (lt_size_of_entry he) (Nat.not_lt.2 hi)
    · rw [hw] at he
      split_ifs at he with hj
      · exact absurd (lt_size_of_entry he₀) (Nat.not_lt.2 (hj ▸ hi))
      · exact absurd (lt_size_of_entry he) (Nat.not_lt.2 hi)
  · exact hadds.named hi he hk hparts

end Table

/-! ## Along a run -/

namespace Run

open Table

variable {ok : List Call → Table → Operation → Prop} {t₀ t : Table} {calls : List Call}
  {name : String} {i : Nat} {e : Entry}

theorem exists_namedAt_iff (run : Run ok t₀ calls t) (h₀ : t₀.Canonical) :
    (∃ i, t.NamedAt name i) ↔
      (∃ i, t₀.NamedAt name i) ∨ ∃ call ∈ calls, call.op.Declares name := by
  induction run with
  | start => simp
  | call run _ hp hs ih =>
    rw [exists_namedAt_perform (run.canonical h₀) hp hs, ih]
    simp [or_comm, or_left_comm]

/-- A symbol whose name is not declared again gets the methods added at its index. -/
theorem entry_eq (run : Run ok t₀ calls t) (h₀ : t₀.Canonical) (he : t₀.entries[i]? = some e)
    (hn : ∀ call ∈ calls, ¬ call.op.Declares e.symbol.name) :
    t.entries[i]? = some { e with symbol := e.symbol.addMethods (addedMethods i calls) } := by
  induction run with
  | start => simpa [addedMethods] using he
  | call run _ hp hs ih =>
    have hbefore := ih fun call hmem => hn call (List.mem_cons_of_mem _ hmem)
    have hlast := hn _ List.mem_cons_self
    rw [entry_perform (run.canonical h₀) hp hs hbefore hlast, addedMethods_cons,
      Symbol.addMethods_append]

theorem symbol?_eq {ty : TypeId} {s : Symbol} (run : Run ok t₀ calls t) (h₀ : t₀.Canonical)
    (hs : t₀.symbol? ty = some s) (hn : ∀ call ∈ calls, ¬ call.op.Declares s.name) :
    t.symbol? ty = some (s.addMethods (addedMethods ty.index calls)) := by
  obtain ⟨e, he, rfl⟩ := Option.map_eq_some_iff.1 hs
  rw [symbol?, run.entry_eq h₀ he hn, Option.map_some]

theorem namesContainers (run : Run ok t₀ calls t) (h₀ : t₀.Canonical)
    (h : t₀.NamesContainers) : t.NamesContainers := by
  induction run with
  | start => exact h
  | call run _ hp hs ih => exact ih.perform (run.canonical h₀) hp hs

end Run

/-! ## Names follow the declarations -/

namespace Table

variable {t : Table} {ty : TypeId} {name : String} {i : Nat} {e : Entry} {s : Symbol}

theorem namesContainers_initial : initial.NamesContainers := by
  intro i e c he ho
  obtain ⟨name, rfl⟩ := entry_initial he
  cases ho

theorem exists_namedAt_initial :
    (∃ i, initial.NamedAt name i) ↔ name ∈ TypeId.builtinNames := by
  constructor
  · rintro ⟨i, e, he, -, rfl⟩
    have hmem := Array.mem_of_getElem? he
    simp only [initial, List.mem_toArray, List.mem_map] at hmem
    obtain ⟨name, hname, rfl⟩ := hmem
    exact hname
  · intro h
    obtain ⟨i, hi⟩ := List.getElem?_of_mem h
    exact ⟨i, ⟨{ name }, .declared⟩, by simp [initial, hi], rfl, rfl⟩

theorem isSome_findType?_iff : (t.findType? name).isSome ↔ ∃ i, t.NamedAt name i := by
  rw [Option.isSome_iff_ne_none, Ne, findType?_eq_none_iff]
  simp

theorem namedAt_of_findType? (hs : t.size ≤ TypeId.capacity) (h : t.findType? name = some ty) :
    t.NamedAt name ty.index ∧ ty = .ofIndex ty.index := by
  obtain ⟨i, rfl, hi, -⟩ := findType?_eq_some_iff.1 h
  rw [TypeId.index_ofIndex_of_lt (Nat.lt_of_lt_of_le hi.lt_size hs)]
  exact ⟨hi, rfl⟩

theorem symbol?_ofIndex (hs : t.size ≤ TypeId.capacity) (he : t.entries[i]? = some e) :
    t.symbol? (.ofIndex i) = some e.symbol := by
  rw [symbol?, TypeId.index_ofIndex_of_lt (Nat.lt_of_lt_of_le (lt_size_of_entry he) hs), he,
    Option.map_some]

theorem symbol?_declare (hs : t.size ≤ TypeId.capacity)
    (hs' : (t.declare s).2.size ≤ TypeId.capacity) :
    (t.declare s).2.symbol? (t.declare s).1 = some s := by
  obtain ⟨i, hid, hw, -⟩ := exists_writes_declare hs s
  rw [hid, symbol?_ofIndex hs' (by rw [hw, if_pos rfl])]

/-- Adding a method changes the table exactly if there is a symbol to add it to. -/
theorem getD_addMethod?_eq_iff {m : Method} :
    (t.addMethod? ty m).getD t = t ↔ t.size ≤ ty.index := by
  refine ⟨fun h => Nat.le_of_not_lt fun hlt => ?_, fun h => ?_⟩
  · obtain ⟨e, he⟩ := exists_entry hlt
    obtain ⟨t', ht', hw⟩ := exists_addMethod? he m
    rw [ht', Option.getD_some] at h
    subst h
    have hsame := (hw ty.index).symm.trans he
    rw [if_pos rfl] at hsame
    simpa [Entry.withMethod] using congrArg (·.symbol.methods) (Option.some.inj hsame)
  · rw [addMethod?_eq_none_iff.2 h, Option.getD_none]

end Table

namespace Run

open Table

variable {t : Table} {calls : List Call} {name : String} {id : TypeId}

theorem symbol?_of_declared {later earlier : List Call} {op : Operation} {answer : Option TypeId}
    {s : Symbol} (run : Run anyCall .initial (later ++ ⟨op, answer⟩ :: earlier) t)
    (hsym : op.symbol? = some s) (hid : t.findType? s.name = some id)
    (hlast : ∀ call ∈ later, ¬ call.op.Declares s.name) :
    t.symbol? id = some (s.addMethods (addedMethods id.index later)) := by
  obtain ⟨t₁, t₂, hrun, hp, hs, hlater⟩ := run.exists_split
  have hc₁ := hrun.canonical canonical_initial
  have hc₂ := (hc₁.perform hp hs).1
  obtain ⟨rfl, -⟩ := perform_of_symbol? hsym hp
  have hfound := (hlater.persists hc₂).findType?_eq (findType?_declare hc₁.size_le s)
  rw [Option.some.inj (hid.symm.trans hfound)]
  exact hlater.symbol?_eq hc₂ (symbol?_declare hc₁.size_le hs) hlast

theorem symbol?_of_builtin (run : Run anyCall .initial calls t)
    (hid : t.findType? name = some id) (hname : name ∈ TypeId.builtinNames)
    (hlast : ∀ call ∈ calls, ¬ call.op.Declares name) :
    t.symbol? id = some (({ name } : Symbol).addMethods (addedMethods id.index calls)) := by
  obtain ⟨id₀, hid₀⟩ := Option.isSome_iff_exists.1
    (isSome_findType?_iff.2 (exists_namedAt_initial.2 hname))
  have hfound := (run.persists canonical_initial).findType?_eq hid₀
  rw [Option.some.inj (hid.symm.trans hfound)]
  obtain ⟨e, he, -, hn⟩ := (namedAt_of_findType? canonical_initial.size_le hid₀).1
  obtain ⟨name', rfl⟩ := entry_initial he
  obtain rfl : name' = name := hn
  exact run.symbol?_eq canonical_initial (by rw [symbol?, he, Option.map_some]) hlast

/-- A container whose parts were there when it was interned is called after them. -/
theorem name_of_internedOverParts {c : Container} {i : Nat} (run : Run anyCall .initial calls t)
    (h : t.InternedOverParts c i) :
    (t.symbol? (.ofIndex i)).map (·.name) = some (t.containerName c) := by
  obtain ⟨⟨e, he, ho, hk⟩, hparts⟩ := h
  have hs := (run.canonical canonical_initial).size_le
  rw [symbol?_ofIndex hs he, Option.map_some,
    run.namesContainers canonical_initial namesContainers_initial he ho hk hparts]

end Run

open Table

/-- Names, symbols and methods are those of the calls that led to the table, and containers are
named after their parts. -/
theorem names_follow_declarations {calls : List Call} {t : Table}
    (run : Run anyCall .initial calls t) :
    (∀ name, (t.findType? name).isSome ↔
      name ∈ TypeId.builtinNames ∨ ∃ call ∈ calls, call.op.Declares name) ∧
    (∀ name id, t.findType? name = some id →
      id = .ofIndex id.index ∧
      (∀ name' id', t.findType? name' = some id' → id'.index = id.index → name' = name) ∧
      (∀ later t', Run anyCall t later t' → t'.findType? name = some id) ∧
      (∀ later earlier op answer s, calls = later ++ ⟨op, answer⟩ :: earlier →
        op.symbol? = some s → s.name = name → (∀ call ∈ later, ¬ call.op.Declares name) →
        t.symbol? id = some { s with methods := s.methods ++ addedMethods id.index later }) ∧
      (name ∈ TypeId.builtinNames → (∀ call ∈ calls, ¬ call.op.Declares name) →
        t.symbol? id = some { name, methods := addedMethods id.index calls })) ∧
    (∀ ty m, (t.addMethod? ty m = none ↔ t.size ≤ ty.index) ∧
      ((t.addMethod? ty m).getD t = t ↔ t.size ≤ ty.index)) ∧
    (∀ later t', Run anyCall t later t' → ∀ ty s, t.symbol? ty = some s →
      ∃ s', t'.symbol? ty = some s' ∧ s'.name = s.name) ∧
    (∀ elem i, t.InternedOverParts (.array elem) i →
      (t.symbol? (.ofIndex i)).map (·.name) = some ("[]" ++ t.describe elem)) ∧
    (∀ elem size i, t.InternedOverParts (.fixedArray elem size) i →
      (t.symbol? (.ofIndex i)).map (·.name) =
        some ("[" ++ toString size ++ "]" ++ t.describe elem)) ∧
    (∀ key value i, t.InternedOverParts (.map key value) i →
      (t.symbol? (.ofIndex i)).map (·.name) =
        some ("map[" ++ t.describe key ++ "]" ++ t.describe value)) := by
  have hc := run.canonical canonical_initial
  refine ⟨fun name => ?_, fun name id hid => ?_,
    fun ty m => ⟨addMethod?_eq_none_iff, getD_addMethod?_eq_iff⟩, ?_,
    fun elem i h => run.name_of_internedOverParts h,
    fun elem size i h => run.name_of_internedOverParts h,
    fun key value i h => run.name_of_internedOverParts h⟩
  · rw [isSome_findType?_iff, run.exists_namedAt_iff canonical_initial, exists_namedAt_initial]
  · obtain ⟨hnamed, hflagless⟩ := namedAt_of_findType? hc.size_le hid
    refine ⟨hflagless, fun name' id' hid' heq => ?_, fun later t' hlater => ?_, ?_, ?_⟩
    · exact (heq ▸ (namedAt_of_findType? hc.size_le hid').1).name_eq hnamed
    · exact (hlater.persists hc).findType?_eq hid
    · rintro later earlier op answer s rfl hsym rfl hlast
      exact run.symbol?_of_declared hsym hid hlast
    · exact run.symbol?_of_builtin hid
  · intro later t' hlater ty s hs
    obtain ⟨e, he, rfl⟩ := Option.map_eq_some_iff.1 hs
    obtain ⟨e', he', hb⟩ := hlater.persists hc _ e he
    exact ⟨e'.symbol, by rw [symbol?, he', Option.map_some], hb.name⟩

/-- The parameter `T` of the sample table gets a method, is declared again as an alias, and gets
another method. -/
def sampleRedeclared : Table :=
  let t := (sampleMap.2.addMethod? sampleParam.1 { name := "old" }).getD sampleMap.2
  let t := (t.declareAlias "T" .i32).2
  (t.addMethod? sampleParam.1 { name := "len" }).getD t

/-- The first method is gone, and `[]T` is still called after its element. -/
theorem names_follow_declarations_sample :
    sampleRedeclared.findType? "T" = some (.ofIndex 13) ∧
      sampleRedeclared.symbol? (.ofIndex 13) =
        some { name := "T", kind := .aliasOf .i32, methods := [{ name := "len" }] } ∧
      (sampleRedeclared.symbol? (.ofIndex 14)).map (·.name) = some "[]T" := by
  have run : Run anyCall .initial
      ([⟨.addMethod sampleParam.1 { name := "len" }, none⟩] ++
        ⟨.declareAlias "T" .i32, some (.ofIndex 13)⟩ ::
        ⟨.addMethod sampleParam.1 { name := "old" }, none⟩ :: sampleCalls) sampleRedeclared := by
    refine .call (.call (.call run_sample trivial rfl ?_) trivial ?_ ?_) trivial rfl ?_
    all_goals decide +kernel
  have hid : sampleRedeclared.findType? "T" = some (.ofIndex 13) := by decide +kernel
  obtain ⟨-, hnames, -, -, harrays, -⟩ := names_follow_declarations run
  obtain ⟨-, -, -, hdeclared, -⟩ := hnames "T" _ hid
  have harray : sampleRedeclared.entries[14]? =
      some ⟨{ name := "[]T", kind := .container (.array sampleParam.1) }, .interned⟩ := by
    decide +kernel
  refine ⟨hid, ?_, ?_⟩
  · rw [hdeclared _ _ _ _ _ rfl rfl rfl (by simp [Operation.Declares, Operation.symbol?])]
    decide +kernel
  · rw [harrays _ _ ⟨⟨_, harray, rfl, rfl⟩, by decide +kernel⟩]
    decide +kernel

end Unroll
