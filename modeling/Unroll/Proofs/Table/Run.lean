import Unroll.Proofs.Substitution.Rules

/-!
# Runs of a table

The operations on a table as data, and the runs they make. Every operation changes at most one
entry of the table and adds entries at its end; `Persists t t'` collects what it leaves alone: the
origin and the name of each entry, and the kind of an interned one. A run from a canonical table
stays canonical and persists.
-/

namespace Unroll

/-! ## Types that are mentioned -/

def Method.types (m : Method) : List TypeId := m.returnType :: m.params.map (·.typ)

def StructDecl.types (decl : StructDecl) : List TypeId :=
  decl.fields.map (·.typ) ++ decl.generics ++ decl.embeds

def SymbolKind.types : SymbolKind → List TypeId
  | builtin | genericParam | enum _ => []
  | struct decl => decl.types
  | container shape => shape.parts
  | aliasOf parent => [parent]

def Symbol.types (s : Symbol) : List TypeId := s.kind.types ++ s.methods.flatMap (·.types)

/-! ## Operations -/

/-- An operation on a table, with its arguments. -/
inductive Operation where
  | declare (s : Symbol)
  | declareStruct (name : String) (decl : StructDecl)
  | declareGenericParam (name : String)
  | declareAlias (name : String) (parent : TypeId)
  | declareEnum (name : String) (values : List String)
  | addMethod (ty : TypeId) (m : Method)
  | intern (c : Container)
  | substitute (subs : Bindings) (ty : TypeId)
  | findType (name : String)

namespace Operation

/-- The id an operation answers, if it answers one, and the table it leaves. There is no result
where substitution does not end. -/
def perform : Operation → Table → Option (Option TypeId × Table)
  | declare s, t => some (some (t.declare s).1, (t.declare s).2)
  | declareStruct name decl, t =>
    some (some (t.declareStruct name decl).1, (t.declareStruct name decl).2)
  | declareGenericParam name, t =>
    some (some (t.declareGenericParam name).1, (t.declareGenericParam name).2)
  | declareAlias name parent, t =>
    some (some (t.declareAlias name parent).1, (t.declareAlias name parent).2)
  | declareEnum name values, t =>
    some (some (t.declareEnum name values).1, (t.declareEnum name values).2)
  | addMethod ty m, t => some (none, (t.addMethod? ty m).getD t)
  | intern c, t => some (some (t.intern c).1, (t.intern c).2)
  | substitute subs ty, t => (t.substitute subs ty).map fun p => (some p.1, p.2)
  | findType name, t => some (t.findType? name, t)

/-- The types passed to an operation. -/
def types : Operation → List TypeId
  | declare s => s.types
  | declareStruct _ decl => decl.types
  | declareAlias _ parent => [parent]
  | addMethod ty m => ty :: m.types
  | intern c => c.parts
  | substitute subs ty => ty :: subs.toList.map (·.2)
  | declareGenericParam _ | declareEnum _ _ | findType _ => []

theorem mem_values {subs : Bindings} {b : TypeId} {k : Nat} (h : subs[k]? = some b) :
    b ∈ subs.toList.map (·.2) :=
  List.mem_map.2 ⟨(k, b), Std.TreeMap.mem_toList_iff_getElem?_eq_some.2 h, rfl⟩

theorem mem_types_substitute {subs : Bindings} {ty b : TypeId} {k : Nat} (h : subs[k]? = some b) :
    b ∈ (substitute subs ty).types :=
  List.mem_cons_of_mem _ (mem_values h)

/-- The symbol that an operation declares. -/
def symbol? : Operation → Option Symbol
  | declare s => some s
  | declareStruct name decl => some { name, kind := .struct decl }
  | declareGenericParam name => some { name, kind := .genericParam }
  | declareAlias name parent => some { name, kind := .aliasOf parent }
  | declareEnum name values => some { name, kind := .enum values }
  | _ => none

end Operation

/-- An operation that was performed, and the id it answered. -/
structure Call where
  op : Operation
  answer : Option TypeId

/-- The tables that operations lead to from `t₀`, with the calls so far, the latest first. `ok` says
which operations may follow which calls. -/
inductive Run (ok : List Call → Table → Operation → Prop) (t₀ : Table) :
    List Call → Table → Prop where
  | start : Run ok t₀ [] t₀
  | call {calls : List Call} {t t' : Table} {op : Operation} {answer : Option TypeId}
      (run : Run ok t₀ calls t) (hop : ok calls t op) (hp : op.perform t = some (answer, t'))
      (hs : t'.size ≤ TypeId.capacity) : Run ok t₀ (⟨op, answer⟩ :: calls) t'

/-- No restriction on the operations of a run. -/
def anyCall : List Call → Table → Operation → Prop := fun _ _ _ => True

/-- The ids a caller has after some calls: those of the predeclared types and those that were
answered, wrapped as one likes. -/
inductive Issued (calls : List Call) : TypeId → Prop where
  | builtin {i : Nat} (hi : i < TypeId.builtinNames.length) : Issued calls (.ofIndex i)
  | answer {op : Operation} {ty : TypeId} (h : ⟨op, some ty⟩ ∈ calls) : Issued calls ty
  | wrapped {ty : TypeId} {flag : TypeFlag} (h : Issued calls ty) (hf : flag ≠ .generic) :
      Issued calls (ty.set flag)

/-- Operations that are passed issued types only. A symbol is declared by the operation for its
kind, so containers come into the table by interning alone. -/
def issuedCall : List Call → Table → Operation → Prop := fun calls _ op =>
  (∀ s, op ≠ .declare s) ∧ ∀ ty ∈ op.types, Issued calls ty

/-- The table of a run from the initial one in which every type passed was issued before. -/
abbrev WellBuilt (calls : List Call) (t : Table) : Prop := Run issuedCall .initial calls t

theorem Run.mono {ok ok' : List Call → Table → Operation → Prop} {t₀ t : Table}
    {calls : List Call} (h : ∀ calls t op, ok calls t op → ok' calls t op)
    (run : Run ok t₀ calls t) : Run ok' t₀ calls t := by
  induction run with
  | start => exact .start
  | call _ hop hp hs ih => exact .call ih (h _ _ _ hop) hp hs

/-- An entry with a method behind those it had. -/
def Entry.withMethod (e : Entry) (m : Method) : Entry :=
  { e with symbol := { e.symbol with methods := e.symbol.methods ++ [m] } }

/-- What every operation leaves of an entry: its origin, its name, and an interned container. -/
structure Entry.Becomes (e e' : Entry) : Prop where
  origin : e'.origin = e.origin
  name : e'.symbol.name = e.symbol.name
  kind : e.origin = .interned → e'.symbol.kind = e.symbol.kind

namespace Table

variable {t t' t'' t₀ : Table} {c : Container} {ty : TypeId} {i j : Nat}

/-! ## One entry changes -/

/-- `t'` is `t` with the entry `e` at index `i`. -/
def Writes (t : Table) (i : Nat) (e : Entry) (t' : Table) : Prop :=
  ∀ j : Nat, t'.entries[j]? = if j = i then some e else t.entries[j]?

theorem writes_push (t : Table) (e : Entry) : t.Writes t.size e (t.push e) := entry_push t e

theorem writes_set (e : Entry) (hi : i < t.size) :
    t.Writes i e ⟨t.entries.setIfInBounds i e⟩ := by
  intro j
  show (t.entries.setIfInBounds i e)[j]? = _
  rw [Array.getElem?_setIfInBounds]
  by_cases hj : j = i
  · rw [if_pos hj.symm, if_pos hj, if_pos (show i < t.entries.size from hi)]
  · rw [if_neg (Ne.symm hj), if_neg hj]

/-- Where no container is written, none is new. -/
theorem Writes.kind?_container {e : Entry} (h : t.Writes i e t')
    (he : ∀ c, e.symbol.kind = .container c →
      ∃ e₀, t.entries[i]? = some e₀ ∧ e₀.symbol.kind = .container c)
    (hk : t'.kind? ty = some (.container c)) : t.kind? ty = some (.container c) := by
  obtain ⟨e', he', hk'⟩ := kind?_eq_some_iff.1 hk
  rw [h] at he'
  split_ifs at he' with hi
  · cases he'
    obtain ⟨e₀, he₀, hk₀⟩ := he c hk'
    exact kind?_eq_some_iff.2 ⟨e₀, hi ▸ he₀, hk₀⟩
  · exact kind?_eq_some_iff.2 ⟨e', he', hk'⟩

theorem exists_declared_of_findType? {name : String} (h : t.findType? name = some ty) :
    ∃ i e, t.entries[i]? = some e ∧ e.origin = .declared ∧ e.symbol.name = name ∧
      ty = TypeId.ofIndex i := by
  obtain ⟨i, hi, rfl⟩ := Option.map_eq_some_iff.1 h
  obtain ⟨hlt, hp, -⟩ := Array.findIdx?_eq_some_iff_getElem.1 hi
  simp only [Bool.and_eq_true, beq_iff_eq] at hp
  exact ⟨i, _, Array.getElem?_eq_getElem hlt, hp.1, hp.2, rfl⟩

/-- A declaration writes one entry: a new one, or in place of a declaration of the same name. -/
theorem exists_writes_declare (hs : t.size ≤ TypeId.capacity) (s : Symbol) :
    ∃ i, (t.declare s).1 = TypeId.ofIndex i ∧ t.Writes i ⟨s, .declared⟩ (t.declare s).2 ∧
      (i = t.size ∨ ∃ e, t.entries[i]? = some e ∧ e.origin = .declared ∧
        e.symbol.name = s.name) := by
  rcases h : t.findType? s.name with _ | ty
  · rw [declare, h]
    exact ⟨t.size, rfl, writes_push t _, .inl rfl⟩
  · obtain ⟨i, e, he, ho, hn, rfl⟩ := exists_declared_of_findType? h
    have hi := lt_size_of_entry he
    rw [declare, h]
    refine ⟨i, rfl, ?_, .inr ⟨e, he, ho, hn⟩⟩
    have hidx := TypeId.index_ofIndex_of_lt (Nat.lt_of_lt_of_le hi hs)
    show t.Writes i _ ⟨t.entries.setIfInBounds (TypeId.ofIndex i).index _⟩
    rw [hidx]
    exact writes_set _ hi

theorem addMethod?_eq_none_iff {m : Method} : t.addMethod? ty m = none ↔ t.size ≤ ty.index := by
  simp [addMethod?, size]

theorem exists_addMethod? {e : Entry} (he : t.entries[ty.index]? = some e) (m : Method) :
    ∃ t', t.addMethod? ty m = some t' ∧ t.Writes ty.index (e.withMethod m) t' := by
  rw [addMethod?, he]
  exact ⟨_, rfl, writes_set _ (lt_size_of_entry he)⟩

theorem addMethod_cases (t : Table) (ty : TypeId) (m : Method) :
    (t.addMethod? ty m).getD t = t ∨ ∃ e, t.entries[ty.index]? = some e ∧
      t.Writes ty.index (e.withMethod m) ((t.addMethod? ty m).getD t) := by
  rcases h : t.addMethod? ty m with _ | t'
  · exact .inl rfl
  · obtain ⟨e, he⟩ : ∃ e, t.entries[ty.index]? = some e := by
      refine exists_entry (Nat.lt_of_not_le fun hle => ?_)
      rw [addMethod?_eq_none_iff.2 hle] at h
      cases h
    obtain ⟨t₁, h₁, hw⟩ := exists_addMethod? he m
    cases h.symm.trans h₁
    exact .inr ⟨e, he, hw⟩

/-! ## What every operation leaves -/

/-- Every entry of `t` is still in `t'`, up to what a later declaration or method may change. -/
def Persists (t t' : Table) : Prop :=
  ∀ (i : Nat) e, t.entries[i]? = some e → ∃ e', t'.entries[i]? = some e' ∧ e.Becomes e'

theorem Extends.persists (h : Extends t t') : Persists t t' :=
  fun i e he => ⟨e, h i e he, rfl, rfl, fun _ => rfl⟩

theorem Persists.refl (t : Table) : Persists t t := (Extends.refl t).persists

theorem Persists.trans (h : Persists t t') (h' : Persists t' t'') : Persists t t'' := by
  intro i e he
  obtain ⟨e', he', hb⟩ := h i e he
  obtain ⟨e'', he'', hb'⟩ := h' i e' he'
  refine ⟨e'', he'', hb'.origin.trans hb.origin, hb'.name.trans hb.name, fun ho => ?_⟩
  rw [hb'.kind (hb.origin.trans ho), hb.kind ho]

theorem Persists.size_le (h : Persists t t') : t.size ≤ t'.size := by
  by_contra hlt
  obtain ⟨e, he⟩ := exists_entry (Nat.lt_of_not_le hlt)
  obtain ⟨e', he', -⟩ := h _ e he
  exact Nat.lt_irrefl _ (lt_size_of_entry he')

theorem Persists.internedAt (h : Persists t t') (hc : t.InternedAt c i) : t'.InternedAt c i := by
  obtain ⟨e, he, ho, hk⟩ := hc
  obtain ⟨e', he', hb⟩ := h i e he
  exact ⟨e', he', hb.origin.trans ho, (hb.kind ho).trans hk⟩

/-- An interned container stays, and no other symbol becomes one. -/
theorem Persists.internedAt_iff (h : Persists t t') (hi : i < t.size) :
    t'.InternedAt c i ↔ t.InternedAt c i := by
  refine ⟨?_, h.internedAt⟩
  rintro ⟨e', he', ho, hk⟩
  obtain ⟨e, he⟩ := exists_entry hi
  obtain ⟨e₁, he₁, hb⟩ := h i e he
  obtain rfl : e₁ = e' := Option.some.inj (he₁.symm.trans he')
  have ho' := hb.origin.symm.trans ho
  exact ⟨e, he, ho', (hb.kind ho').symm.trans hk⟩

/-- The index holds a declared symbol. -/
def DeclaredAt (t : Table) (i : Nat) : Prop := ∃ e, t.entries[i]? = some e ∧ e.origin = .declared

theorem Persists.declaredAt (h : Persists t t') (hi : t.DeclaredAt i) : t'.DeclaredAt i := by
  obtain ⟨e, he, ho⟩ := hi
  obtain ⟨e', he', hb⟩ := h i e he
  exact ⟨e', he', hb.origin.trans ho⟩

theorem DeclaredAt.not_internedAt (h : t.DeclaredAt i) : ¬ t.InternedAt c i := by
  rintro ⟨e', he', ho', -⟩
  obtain ⟨e, he, ho⟩ := h
  obtain rfl : e = e' := Option.some.inj (he.symm.trans he')
  exact absurd (ho.symm.trans ho') (by decide)

theorem Writes.persists {e : Entry} (h : t.Writes i e t')
    (he : ∀ e₀, t.entries[i]? = some e₀ → e₀.Becomes e) : Persists t t' := by
  intro j e₀ he₀
  by_cases hj : j = i
  · subst hj
    exact ⟨e, by rw [h, if_pos rfl], he e₀ he₀⟩
  · exact ⟨e₀, by rw [h, if_neg hj, he₀], rfl, rfl, fun _ => rfl⟩

theorem persists_declare (hs : t.size ≤ TypeId.capacity) (s : Symbol) :
    Persists t (t.declare s).2 := by
  obtain ⟨i, -, hw, hi⟩ := exists_writes_declare hs s
  refine hw.persists fun e₀ he₀ => ?_
  rcases hi with rfl | ⟨e, he, ho, hn⟩
  · exact absurd (lt_size_of_entry he₀) (Nat.lt_irrefl _)
  · obtain rfl : e = e₀ := Option.some.inj (he.symm.trans he₀)
    exact ⟨ho.symm, hn.symm, fun h => absurd (ho.symm.trans h) (by decide)⟩

theorem persists_addMethod (t : Table) (ty : TypeId) (m : Method) :
    Persists t ((t.addMethod? ty m).getD t) := by
  rcases addMethod_cases t ty m with h | ⟨e, he, hw⟩
  · rw [h]
    exact .refl t
  · refine hw.persists fun e₀ he₀ => ?_
    obtain rfl : e = e₀ := Option.some.inj (he.symm.trans he₀)
    exact ⟨rfl, rfl, fun _ => rfl⟩

/-- Symbols that are written in place of others, or get a method, were and are no new container. -/
theorem Canonical.of_internedAt (h : t.Canonical) (hs : t'.size ≤ TypeId.capacity)
    (hc : ∀ {c i}, t'.InternedAt c i → t.InternedAt c i) : t'.Canonical :=
  ⟨hs, fun hi hj => h.unique (hc hi) (hc hj)⟩

theorem Writes.internedAt_of {e : Entry} (hw : t.Writes j e t')
    (he : ∀ c, e.origin = .interned → e.symbol.kind = .container c → t.InternedAt c j)
    (h : t'.InternedAt c i) : t.InternedAt c i := by
  obtain ⟨e', he', ho, hk⟩ := h
  rw [hw] at he'
  split_ifs at he' with hi
  · cases he'
    exact hi ▸ he c ho hk
  · exact ⟨e', he', ho, hk⟩

theorem internedAt_of_declare (hs : t.size ≤ TypeId.capacity) {s : Symbol}
    (h : (t.declare s).2.InternedAt c i) : t.InternedAt c i := by
  obtain ⟨j, -, hw, -⟩ := exists_writes_declare hs s
  refine hw.internedAt_of (fun c ho => ?_) h
  cases ho

theorem internedAt_of_addMethod {m : Method}
    (h : ((t.addMethod? ty m).getD t).InternedAt c i) : t.InternedAt c i := by
  rcases addMethod_cases t ty m with heq | ⟨e, he, hw⟩
  · rwa [heq] at h
  · exact hw.internedAt_of (fun c ho hk => ⟨e, he, ho, hk⟩) h

theorem Canonical.declare (h : t.Canonical) {s : Symbol}
    (hs : (t.declare s).2.size ≤ TypeId.capacity) : (t.declare s).2.Canonical :=
  h.of_internedAt hs (internedAt_of_declare h.size_le)

theorem Canonical.addMethod (h : t.Canonical) (ty : TypeId) (m : Method)
    (hs : ((t.addMethod? ty m).getD t).size ≤ TypeId.capacity) :
    ((t.addMethod? ty m).getD t).Canonical :=
  h.of_internedAt hs internedAt_of_addMethod

theorem declaredAt_declare (h : t.Canonical) {s : Symbol}
    (hs : (t.declare s).2.size ≤ TypeId.capacity) :
    (t.declare s).2.DeclaredAt (t.declare s).1.index := by
  obtain ⟨i, hid, hw, -⟩ := exists_writes_declare h.size_le s
  have he : (t.declare s).2.entries[i]? = some ⟨s, .declared⟩ := by rw [hw, if_pos rfl]
  rw [hid, TypeId.index_ofIndex_of_lt (Nat.lt_of_lt_of_le (lt_size_of_entry he) hs)]
  exact ⟨_, he, rfl⟩

theorem declaredAt_findType? (h : t.Canonical) {name : String} (hty : t.findType? name = some ty) :
    t.DeclaredAt ty.index := by
  obtain ⟨i, e, he, ho, -, rfl⟩ := exists_declared_of_findType? hty
  rw [TypeId.index_ofIndex_of_lt (Nat.lt_of_lt_of_le (lt_size_of_entry he) h.size_le)]
  exact ⟨e, he, ho⟩

/-! ## Steps and runs -/

/-- An operation of each declaring form declares its symbol. A generic parameter's answer differs
from the declared id by a flag. -/
theorem perform_of_symbol? {op : Operation} {s : Symbol} {answer : Option TypeId}
    (h : op.symbol? = some s) (hp : op.perform t = some (answer, t')) :
    t' = (t.declare s).2 ∧ ∃ ty, answer = some ty ∧ ty.index = (t.declare s).1.index := by
  cases op <;> simp only [Operation.symbol?, Option.some.injEq, reduceCtorEq] at h <;>
    subst h <;> cases hp
  case declareGenericParam name => exact ⟨rfl, _, rfl, TypeId.index_set _ _⟩
  all_goals exact ⟨rfl, _, rfl, rfl⟩

theorem Canonical.perform {op : Operation} {answer : Option TypeId} (h : t.Canonical)
    (hp : op.perform t = some (answer, t')) (hs : t'.size ≤ TypeId.capacity) :
    t'.Canonical ∧ Persists t t' := by
  rcases hsym : op.symbol? with _ | s
  · cases op with
    | declare | declareStruct | declareGenericParam | declareAlias | declareEnum => cases hsym
    | addMethod ty m =>
      cases hp
      exact ⟨h.addMethod ty m hs, persists_addMethod t ty m⟩
    | intern c =>
      cases hp
      exact ⟨h.intern hs, (extends_intern t c).persists⟩
    | substitute subs ty =>
      obtain ⟨⟨r, t₁⟩, hr, heq⟩ := Option.map_eq_some_iff.1 hp
      cases heq
      have rules := substituteWithin_sound hr
      exact ⟨rules.canonical h hs, rules.extends.persists⟩
    | findType name =>
      cases hp
      exact ⟨h, .refl t⟩
  · obtain ⟨rfl, -⟩ := perform_of_symbol? hsym hp
    exact ⟨h.declare hs, persists_declare h.size_le s⟩

theorem entry_initial {i : Nat} {e : Entry} (h : initial.entries[i]? = some e) :
    ∃ name, e = ⟨{ name }, .declared⟩ := by
  have hmem := Array.mem_of_getElem? h
  simp only [initial, List.mem_toArray, List.mem_map] at hmem
  obtain ⟨name, -, rfl⟩ := hmem
  exact ⟨name, rfl⟩

theorem canonical_initial : initial.Canonical := by
  refine ⟨by decide +kernel, ?_⟩
  rintro c i j ⟨e, he, ho, -⟩ -
  obtain ⟨name, rfl⟩ := entry_initial he
  cases ho

/-- The predeclared types are declared. -/
theorem declaredAt_initial {i : Nat} (hi : i < initial.size) : initial.DeclaredAt i := by
  obtain ⟨e, he⟩ := exists_entry hi
  obtain ⟨name, rfl⟩ := entry_initial he
  exact ⟨_, he, rfl⟩

end Table

namespace Run

variable {ok : List Call → Table → Operation → Prop} {t₀ t : Table} {calls : List Call}

theorem canonical (run : Run ok t₀ calls t) (h₀ : t₀.Canonical) : t.Canonical := by
  induction run with
  | start => exact h₀
  | call _ _ hp hs ih => exact (ih.perform hp hs).1

theorem persists (run : Run ok t₀ calls t) (h₀ : t₀.Canonical) : Table.Persists t₀ t := by
  induction run with
  | start => exact .refl t₀
  | call run _ hp hs ih => exact ih.trans ((run.canonical h₀).perform hp hs).2

/-- What each call establishes and persistence keeps holds of every call of a run. -/
theorem forall_call {A : Call → Table → Prop} (h₀ : t₀.Canonical)
    (made : ∀ {op answer t t'}, t.Canonical → op.perform t = some (answer, t') → t'.Canonical →
      A ⟨op, answer⟩ t')
    (kept : ∀ {call t t'}, Table.Persists t t' → A call t → A call t')
    (run : Run ok t₀ calls t) : ∀ call ∈ calls, A call t := by
  induction run with
  | start => simp
  | call run _ hp hs ih =>
    obtain ⟨hc, hper⟩ := (run.canonical h₀).perform hp hs
    intro call hmem
    rcases List.mem_cons.1 hmem with rfl | hmem
    · exact made (run.canonical h₀) hp hc
    · exact kept hper (ih call hmem)

end Run

/-! ## A sample

A table with a generic parameter `T` and the types `[]T`, `[4]T` and `map[string]?[]T`. -/

def sampleParam : TypeId × Table := Table.initial.declareGenericParam "T"

def sampleArray : TypeId × Table := sampleParam.2.intern (.array sampleParam.1)

def sampleFixedArray : TypeId × Table := sampleArray.2.intern (.fixedArray sampleParam.1 4)

def sampleMap : TypeId × Table :=
  sampleFixedArray.2.intern (.map .string (sampleArray.1.set .option))

def sampleCalls : List Call :=
  [⟨.intern (.map .string (sampleArray.1.set .option)), some sampleMap.1⟩,
    ⟨.intern (.fixedArray sampleParam.1 4), some sampleFixedArray.1⟩,
    ⟨.intern (.array sampleParam.1), some sampleArray.1⟩,
    ⟨.declareGenericParam "T", some sampleParam.1⟩]

theorem wellBuilt_sample : WellBuilt sampleCalls sampleMap.2 := by
  refine .call (.call (.call (.call .start ?_ rfl ?_) ?_ rfl ?_) ?_ rfl ?_) ?_ rfl ?_
  · exact ⟨by simp, by simp [Operation.types]⟩
  · decide +kernel
  · refine ⟨by simp, fun ty hty => ?_⟩
    obtain rfl : ty = sampleParam.1 := by simpa [Operation.types] using hty
    exact .answer List.mem_cons_self
  · decide +kernel
  · refine ⟨by simp, fun ty hty => ?_⟩
    obtain rfl : ty = sampleParam.1 := by simpa [Operation.types] using hty
    exact .answer (List.mem_cons_of_mem _ List.mem_cons_self)
  · decide +kernel
  · refine ⟨by simp, fun ty hty => ?_⟩
    obtain rfl | rfl : ty = .string ∨ ty = sampleArray.1.set .option := by
      simpa [Operation.types] using hty
    · exact .builtin (by decide)
    · exact .wrapped (.answer (List.mem_cons_of_mem _ List.mem_cons_self)) (by decide)
  · decide +kernel

theorem run_sample : Run anyCall .initial sampleCalls sampleMap.2 :=
  wellBuilt_sample.mono fun _ _ _ _ => trivial

theorem sampleArray_mem : ⟨.intern (.array sampleParam.1), some sampleArray.1⟩ ∈ sampleCalls :=
  List.mem_cons_of_mem _ (List.mem_cons_of_mem _ List.mem_cons_self)

/-- The binding of `T` to `?i32`. -/
def sampleBindings : Bindings := ({} : Bindings).insert sampleParam.1.index (TypeId.i32.set .option)

/-- One binding binds nothing else. -/
theorem eq_of_single_binding {k k' : Nat} {b b' : TypeId}
    (h : (({} : Bindings).insert k b)[k']? = some b') : k' = k ∧ b' = b := by
  by_cases hk : k = k'
  · simpa [hk, eq_comm] using h
  · simp [hk] at h

theorem sampleBindings_eq {k : Nat} {b : TypeId} (h : sampleBindings[k]? = some b) :
    k = sampleParam.1.index ∧ b = TypeId.i32.set .option :=
  eq_of_single_binding h

/-! ## A sample with two parameters

A table with the generic parameters `K` and `V` and the types `[]V` and `map[K][]V`. -/

def pairKey : TypeId × Table := Table.initial.declareGenericParam "K"

def pairValue : TypeId × Table := pairKey.2.declareGenericParam "V"

def pairArray : TypeId × Table := pairValue.2.intern (.array pairValue.1)

def pairMap : TypeId × Table := pairArray.2.intern (.map pairKey.1 pairArray.1)

def pairCalls : List Call :=
  [⟨.intern (.map pairKey.1 pairArray.1), some pairMap.1⟩,
    ⟨.intern (.array pairValue.1), some pairArray.1⟩,
    ⟨.declareGenericParam "V", some pairValue.1⟩,
    ⟨.declareGenericParam "K", some pairKey.1⟩]

theorem wellBuilt_pair : WellBuilt pairCalls pairMap.2 := by
  refine .call (.call (.call (.call .start ?_ rfl ?_) ?_ rfl ?_) ?_ rfl ?_) ?_ rfl ?_
  · exact ⟨by simp, by simp [Operation.types]⟩
  · decide +kernel
  · exact ⟨by simp, by simp [Operation.types]⟩
  · decide +kernel
  · refine ⟨by simp, fun ty hty => ?_⟩
    obtain rfl : ty = pairValue.1 := by simpa [Operation.types] using hty
    exact .answer List.mem_cons_self
  · decide +kernel
  · refine ⟨by simp, fun ty hty => ?_⟩
    obtain rfl | rfl : ty = pairKey.1 ∨ ty = pairArray.1 := by
      simpa [Operation.types] using hty
    · exact .answer (List.mem_cons_of_mem _ (List.mem_cons_of_mem _ List.mem_cons_self))
    · exact .answer List.mem_cons_self
  · decide +kernel

/-- The binding of `K` to `string`. -/
def pairKeyBindings : Bindings := ({} : Bindings).insert pairKey.1.index .string

/-- The binding of `V` to `?i32`. -/
def pairValueBindings : Bindings :=
  ({} : Bindings).insert pairValue.1.index (TypeId.i32.set .option)

end Unroll
