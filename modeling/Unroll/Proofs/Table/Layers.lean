import Unroll.Proofs.Table.WellBuilt

/-!
# Containers stay above their parts

Here an operation may be passed any id whose index is in the table, with any flags, whether the
table issued it or not (`presentCall`). Every container still has a larger index than its parts:
interning writes at the end of the table, and a declaration writes no container (`Layered.perform`).
The index of a container therefore bounds how deep substitution descends, and substitution ends for
every id (`substitute_terminates`).
-/

namespace Unroll

/-- The types an operation may make parts of containers. -/
def Operation.partTypes : Operation → List TypeId
  | intern c => c.parts
  | substitute subs _ => subs.toList.map (·.2)
  | _ => []

/-- Operations that make containers of types of the table only. A symbol is declared by the
operation for its kind. -/
def presentCall : List Call → Table → Operation → Prop := fun _ t op =>
  (∀ s, op ≠ .declare s) ∧ ∀ ty ∈ op.partTypes, ty.index < t.size

namespace Table

variable {subs : Bindings} {t t' : Table} {ty : TypeId} {op : Operation} {answer : Option TypeId}
  {calls : List Call}

theorem Layered.of_kind? (h : t.Layered)
    (hk : ∀ {ty c}, t'.kind? ty = some (.container c) → t.kind? ty = some (.container c)) :
    t'.Layered :=
  fun _ _ h' => h (hk h')

theorem Layered.declare (h : t.Layered) (hs : t.size ≤ TypeId.capacity) {s : Symbol}
    (hk : ∀ c, s.kind ≠ .container c) : (t.declare s).2.Layered := by
  obtain ⟨i, -, hw, -⟩ := exists_writes_declare hs s
  exact h.of_kind? (hw.kind?_container fun c hc => absurd hc (hk c))

theorem Layered.addMethod (h : t.Layered) (ty : TypeId) (m : Method) :
    ((t.addMethod? ty m).getD t).Layered := by
  rcases addMethod_cases t ty m with heq | ⟨e, he, hw⟩
  · rwa [heq]
  · exact h.of_kind? (hw.kind?_container fun c hc => ⟨e, he, hc⟩)

/-- Every operation has a result: substitution ends, and nothing else can fail. -/
theorem Layered.exists_perform (h : t.Layered) (op : Operation) :
    ∃ answer t', op.perform t = some (answer, t') := by
  cases op with
  | substitute subs ty =>
    obtain ⟨r, t', hr⟩ := h.exists_substitute subs ty
    have hend : t.substitute subs ty = some (r, t') := hr _ (Nat.lt_succ_of_lt ty.index_lt)
    exact ⟨some r, t', by rw [Operation.perform, hend, Option.map_some]⟩
  | _ => exact ⟨_, _, rfl⟩

/-- One operation. -/
theorem Layered.perform (h : t.Layered) (hs : t.size ≤ TypeId.capacity)
    (hop : presentCall calls t op) (hp : op.perform t = some (answer, t')) : t'.Layered := by
  rcases hsym : op.symbol? with _ | s
  · cases op with
    | declare | declareStruct | declareGenericParam | declareAlias | declareEnum => cases hsym
    | addMethod ty m =>
      cases hp
      exact h.addMethod ty m
    | intern c =>
      cases hp
      exact h.intern hop.2
    | substitute subs ty =>
      obtain ⟨⟨r, t₁⟩, hr, heq⟩ := Option.map_eq_some_iff.1 hp
      cases heq
      have rules := substituteWithin_sound hr
      have hsubs : ∀ (k : Nat) b, subs[k]? = some b → b.index < t.size := fun k b hb =>
        hop.2 b (Operation.mem_values hb)
      by_cases hty : ty.index < t.size
      · exact (rules.layered h hty hsubs).1
      · rwa [(rules.eq_of_size_le (Nat.le_of_not_lt hty)).2]
    | findType name =>
      cases hp
      exact h
  · obtain ⟨hk, -⟩ := Operation.types_symbol? hop.1 hsym
    obtain ⟨rfl, -⟩ := perform_of_symbol? hsym hp
    exact h.declare hs hk

end Table

open Table

/-- A whole run. -/
theorem Run.layered {calls : List Call} {t : Table} (run : Run presentCall .initial calls t) :
    t.Layered := by
  induction run with
  | start => exact wellFormed_initial.layered
  | call run hop hp _ ih => exact ih.perform (run.canonical canonical_initial).size_le hop hp

/-- In a run over indices of the table containers are above their parts, and substitution ends
within as many nested calls as the index says. -/
theorem substitute_terminates {calls : List Call} {t : Table}
    (run : Run presentCall .initial calls t) :
    (∀ ty c, t.kind? ty = some (.container c) → ∀ p ∈ c.parts, p.index < ty.index) ∧
      (∀ op, presentCall calls t op → ∃ answer t', op.perform t = some (answer, t') ∧ t'.Layered) ∧
      ∀ (ty : TypeId) (subs : Bindings), ∃ r t', t.substitute subs ty = some (r, t') ∧
        ∀ depth, ty.index < depth → substituteWithin subs depth t ty = some (r, t') := by
  have ht := run.layered
  refine ⟨fun ty c hk => ht hk, fun op hop => ?_, fun ty subs => ?_⟩
  · obtain ⟨answer, t', hp⟩ := ht.exists_perform op
    exact ⟨answer, t', hp, ht.perform (run.canonical canonical_initial).size_le hop hp⟩
  · obtain ⟨r, t', hr⟩ := ht.exists_substitute subs ty
    exact ⟨r, t', hr _ (Nat.lt_succ_of_lt ty.index_lt), hr⟩

/-! ## A sample

The table has `T`, an array of `i32` marked generic, which no operation answers, and a map from that
array to `T`. In between `T` was a struct. -/

def strayParam : TypeId × Table := Table.initial.declareGenericParam "T"

def strayArray : TypeId × Table := strayParam.2.intern (.array (TypeId.i32.set .generic))

def strayStruct : TypeId × Table := strayArray.2.declareStruct "T" {}

def strayMap : TypeId × Table := strayStruct.2.intern (.map strayArray.1 strayParam.1)

def strayTable : Table := (strayMap.2.declareGenericParam "T").2

def strayCalls : List Call :=
  [⟨.declareGenericParam "T", some strayParam.1⟩,
    ⟨.intern (.map strayArray.1 strayParam.1), some strayMap.1⟩,
    ⟨.declareStruct "T" {}, some strayStruct.1⟩,
    ⟨.intern (.array (TypeId.i32.set .generic)), some strayArray.1⟩,
    ⟨.declareGenericParam "T", some strayParam.1⟩]

theorem run_stray : Run presentCall .initial strayCalls strayTable := by
  have last : Operation.perform (.declareGenericParam "T") strayMap.2 =
      some (some strayParam.1, strayTable) := by decide +kernel
  refine .call (.call (.call (.call (.call .start ?_ rfl ?_) ?_ rfl ?_) ?_ rfl ?_) ?_ rfl ?_) ?_
    last ?_
  · exact ⟨by simp, by simp [Operation.partTypes]⟩
  · decide +kernel
  · exact ⟨by simp, by decide +kernel⟩
  · decide +kernel
  · exact ⟨by simp, by simp [Operation.partTypes]⟩
  · decide +kernel
  · exact ⟨by simp, by decide +kernel⟩
  · decide +kernel
  · exact ⟨by simp, by simp [Operation.partTypes]⟩
  · decide +kernel

/-- `T` stands for the map that it is a part of. -/
def strayBindings : Bindings := ({} : Bindings).insert strayParam.1.index strayMap.1

theorem substitute_terminates_stray :
    ∃ r t', strayTable.substitute strayBindings strayMap.1 = some (r, t') ∧ t'.Layered ∧
      t'.describe r = "map[[]i32]map[[]i32]T" ∧
      substituteWithin strayBindings (strayMap.1.index + 1) strayTable strayMap.1 =
        some (r, t') := by
  obtain ⟨-, hstep, hends⟩ := substitute_terminates run_stray
  obtain ⟨r, t', hr, hdepth⟩ := hends strayMap.1 strayBindings
  obtain ⟨answer, t'', hp, ht''⟩ := hstep (.substitute strayBindings strayMap.1)
    ⟨by simp, by decide +kernel⟩
  rw [Operation.perform, hr] at hp
  cases hp
  have hname : (strayTable.substitute strayBindings strayMap.1).map (fun p => p.2.describe p.1) =
      some "map[[]i32]map[[]i32]T" := by decide +kernel
  rw [hr] at hname
  exact ⟨r, t', hr, ht'', Option.some.inj hname, hdepth _ (Nat.lt_succ_self _)⟩

end Unroll
