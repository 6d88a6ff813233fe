import Unroll.Proofs.Instantiation.Idempotent
import Unroll.Resolver.Typing

/-!
# Generic code and its concrete form

Generic code can be resolved under an instantiation as it is, or after each type in it was
unwrapped. `mapTypes f` replaces the types that the resolution of an expression starts from: those
of variables and of receivers in the expression, and those recorded in the resolver. With `f`
unwrapping, both ways fail with the same error or give types that unwrap to the same one
(`getType_concrete`).
-/

namespace Unroll

/-! ## Types in an expression -/

def Variable.types (v : Variable) : List TypeId := v.typ :: v.casts

def Variable.mapTypes (f : TypeId → TypeId) (v : Variable) : Variable :=
  { v with typ := f v.typ, casts := v.casts.map f }

@[simp] theorem Variable.lastCast?_mapTypes (f : TypeId → TypeId) (v : Variable) :
    (v.mapTypes f).lastCast? = v.lastCast?.map f :=
  List.getLast?_map

def Ident.types (x : Ident) : List TypeId := x.binding.elim [] (·.types)

def Ident.mapTypes (f : TypeId → TypeId) (x : Ident) : Ident :=
  { x with binding := x.binding.map (·.mapTypes f) }

namespace Expr

mutual

/-- The types of the variables and of the receivers of spliced members, but not those that the
source names. -/
def types : Expr → List TypeId
  | int .. | float .. | bool .. | string .. => []
  | ident x _ => x.types
  | selector base _ _ _ => types base
  | spliceField receiver ty field _ => ty :: (types receiver ++ types field)
  | spliceCall receiver ty args _ _ => ty :: (types receiver ++ typesList args)
  | call _ args _ _ => typesList args
  | index object i _ => types object ++ types i
  | group inner _ => types inner
  | binary left _ right _ => types left ++ types right
  | cast operand _ _ => types operand

def typesList : List Expr → List TypeId
  | [] => []
  | e :: es => types e ++ typesList es

end

mutual

/-- The expression with `f ty` in the place of each of its types. -/
def mapTypes (f : TypeId → TypeId) : Expr → Expr
  | int v s => int v s
  | float v s => float v s
  | bool v s => bool v s
  | string v s => string v s
  | ident x s => ident (x.mapTypes f) s
  | selector base field fieldSpan s => selector (mapTypes f base) field fieldSpan s
  | spliceField receiver ty field s =>
    spliceField (mapTypes f receiver) (f ty) (mapTypes f field) s
  | spliceCall receiver ty args methodSpan s =>
    spliceCall (mapTypes f receiver) (f ty) (mapTypesList f args) methodSpan s
  | call name args typeArgs s => call name (mapTypesList f args) typeArgs s
  | index object i s => index (mapTypes f object) (mapTypes f i) s
  | group inner s => group (mapTypes f inner) s
  | binary left op right s => binary (mapTypes f left) op (mapTypes f right) s
  | cast operand ty s => cast (mapTypes f operand) ty s

def mapTypesList (f : TypeId → TypeId) : List Expr → List Expr
  | [] => []
  | e :: es => mapTypes f e :: mapTypesList f es

end

variable {f : TypeId → TypeId}

theorem ident?_mapTypes (e : Expr) : (e.mapTypes f).ident? = e.ident?.map (·.mapTypes f) := by
  cases e <;> rfl

theorem isSome_staticIdent?_mapTypes (e : Expr) :
    (e.mapTypes f).staticIdent?.isSome = e.staticIdent?.isSome := by
  unfold staticIdent?
  rw [ident?_mapTypes]
  cases e.ident? with
  | none => rfl
  | some x => cases h : x.isStatic <;> simp [Ident.mapTypes, Option.filter, h]

end Expr

/-! ## Types in a resolver -/

def Context.mapTypes (f : TypeId → TypeId) (ctx : Context) : Context :=
  { ctx with fieldType := f ctx.fieldType }

def TypeMap.types (m : TypeMap) : List TypeId := m.toList.map (·.2)

def TypeMap.mapTypes (f : TypeId → TypeId) (m : TypeMap) : TypeMap :=
  ⟨m.entries.map fun _ ty => f ty⟩

theorem TypeMap.mem_types {m : TypeMap} {key : TypeMapKey} {ty : TypeId}
    (h : m.getKey? key = some ty) : ty ∈ m.types :=
  List.mem_map.2 ⟨(key.render, ty), Std.TreeMap.mem_toList_iff_getElem?_eq_some.2 h, rfl⟩

@[simp] theorem TypeMap.getKey?_mapTypes (f : TypeId → TypeId) (m : TypeMap) (key : TypeMapKey) :
    (m.mapTypes f).getKey? key = (m.getKey? key).map f :=
  Std.TreeMap.getElem?_map

theorem TypeMap.bind_getKey?_mapTypes (f : TypeId → TypeId) (m : TypeMap) (var : Option String) :
    (var.bind fun x => (m.mapTypes f).getKey? (.selector x)) =
      (var.bind fun x => m.getKey? (.selector x)).map f := by
  cases var <;> simp

theorem Context.isFieldSelector_mapTypes (f : TypeId → TypeId) (ctx : Context) (base : Expr) :
    (ctx.mapTypes f).isFieldSelector (base.mapTypes f) = ctx.isFieldSelector base := by
  unfold isFieldSelector
  rw [Expr.ident?_mapTypes]
  cases base.ident? <;> rfl

theorem Context.isTypeSelector_mapTypes (f : TypeId → TypeId) (ctx : Context) (base : Expr)
    (field : String) :
    (ctx.mapTypes f).isTypeSelector (base.mapTypes f) field = ctx.isTypeSelector base field := by
  unfold isTypeSelector
  rw [Expr.ident?_mapTypes]
  cases base.ident? <;> rfl

namespace Resolver

def types (r : Resolver) : List TypeId := r.context.fieldType :: r.typeMap.types

/-- The resolver with `f ty` in the place of the current field's type and of each recorded type. -/
def mapTypes (f : TypeId → TypeId) (r : Resolver) : Resolver :=
  { r with context := r.context.mapTypes f, typeMap := r.typeMap.mapTypes f }

theorem isStatic_mapTypes (f : TypeId → TypeId) : ∀ e, isStatic (e.mapTypes f) = isStatic e
  | .ident _ _ => rfl
  | .index object _ _ => Expr.isSome_staticIdent?_mapTypes object
  | .selector base _ _ _ => Expr.isSome_staticIdent?_mapTypes base
  | .binary left op right _ => by
    rw [Expr.mapTypes, isStatic, isStatic, isStatic_mapTypes f left, isStatic_mapTypes f right]
  | .group inner _ => by rw [Expr.mapTypes, isStatic, isStatic, isStatic_mapTypes f inner]
  | .spliceField .. | .spliceCall .. | .int .. | .float .. | .bool .. | .string .. | .call ..
  | .cast .. => rfl

/-! ## Resolution -/

section

variable {r : Resolver} {f : TypeId → TypeId}

theorem apply_variableType (hr : ∀ ty ∈ r.types, f (f ty) = f ty)
    (hclear : ∀ ty : TypeId, f (ty.clear .option) = (f ty).clear .option) (v : Variable)
    (hv : ∀ ty ∈ v.types, f (f ty) = f ty) :
    f ((r.mapTypes f).variableType (v.mapTypes f)) = f (r.variableType v) := by
  have htyp : f (f v.typ) = f v.typ := hv _ List.mem_cons_self
  have hkey : ∀ {key ty}, r.typeMap.getKey? key = some ty → f (f ty) = f ty := fun h =>
    hr _ (List.mem_cons_of_mem _ (TypeMap.mem_types h))
  have hkind : (v.mapTypes f).kind = v.kind := rfl
  unfold variableType
  rw [hkind]
  cases v.kind with
  | genericParam => exact htyp
  | genericVar =>
    show f (((v.mapTypes f).lastCast? <|>
      (r.typeMap.mapTypes f).getKey? (.genericVar v.name v.pos.start)).getD (f v.typ)) = _
    rw [Variable.lastCast?_mapTypes, TypeMap.getKey?_mapTypes]
    rcases hcast : v.lastCast? with _ | ty
    · rcases hrec : r.typeMap.getKey? (.genericVar v.name v.pos.start) with _ | ty
      · exact htyp
      · exact hkey hrec
    · exact hv ty (List.mem_cons_of_mem _ (List.mem_of_getLast? hcast))
  | smartcast =>
    have hnarrow : ∀ ty, f (f ty) = f ty →
        f (if v.isUnwrapped = true then (f ty).clear .option else f ty) =
          f (if v.isUnwrapped = true then ty.clear .option else ty) := by
      intro ty hty
      split_ifs
      · rw [hclear, hclear, hty]
      · exact hty
    dsimp only [mapTypes, Context.mapTypes]
    rw [TypeMap.bind_getKey?_mapTypes, show (v.mapTypes f).typ = f v.typ from rfl, Option.getD_map]
    refine hnarrow _ ?_
    rcases hrec : r.context.variantVar.bind fun x => r.typeMap.getKey? (.selector x) with _ | ty
    · exact htyp
    · obtain ⟨x, -, hx⟩ := Option.bind_eq_some_iff.1 hrec
      exact hkey hx
  | keyVar | valueVar =>
    show f (((r.typeMap.mapTypes f).getKey? (.var v.name)).getD .void) = _
    rw [TypeMap.getKey?_mapTypes]
    rcases hrec : r.typeMap.getKey? (.var v.name) with _ | ty
    · rfl
    · exact hkey hrec
  | fieldVar => exact hr _ List.mem_cons_self
  | other => rfl

theorem apply_loopVarType (hr : ∀ ty ∈ r.types, f (f ty) = f ty) (name : String) :
    f ((r.mapTypes f).loopVarType name) = f (r.loopVarType name) := by
  show f (if r.context.variantVar == some name || r.context.methodParamVar == some name then
    ((r.typeMap.mapTypes f).getKey? (.selector name)).getD .void else f r.context.fieldType) = _
  rw [TypeMap.getKey?_mapTypes, loopVarType]
  split_ifs
  · rcases hrec : r.typeMap.getKey? (.selector name) with _ | ty
    · rfl
    · exact hr _ (List.mem_cons_of_mem _ (TypeMap.mem_types hrec))
  · exact hr _ List.mem_cons_self

theorem apply_spliceFieldType (hr : ∀ ty ∈ r.types, f (f ty) = f ty) (hf : ∀ ty, r.unwrap ty = f ty)
    (field : Expr) (default : TypeId) :
    f ((r.mapTypes f).spliceFieldType (field.mapTypes f) default) =
      f (r.spliceFieldType field default) := by
  cases field with
  | selector base name fieldSpan s =>
    by_cases hname : name = "name"
    · subst hname
      show f (if (r.context.mapTypes f).isFieldSelector (base.mapTypes f) then
          r.unwrap (f r.context.fieldType) else default) =
        f (if r.context.isFieldSelector base then r.unwrap r.context.fieldType else default)
      rw [Context.isFieldSelector_mapTypes, hf, hf, hr _ List.mem_cons_self]
    · unfold spliceFieldType Expr.mapTypes
      simp [hname]
  | _ => rfl

theorem spliceCallType_mapTypes {ty : TypeId} (hty : r.unwrap (f ty) = r.unwrap ty) (span : Span) :
    (r.mapTypes f).spliceCallType (f ty) span = r.spliceCallType ty span := by
  have hreceiver : (r.mapTypes f).unwrap (f ty) = r.unwrap ty := hty
  unfold spliceCallType
  rw [hreceiver]
  rfl

theorem getType_index (object i : Expr) (span : Span) : r.getType (.index object i span) =
    if isStatic object then ((r.getType object).map r.unwrap).map r.table.valueType
    else .ok .void := by
  rw [getType]
  cases r.getType object <;> rfl

/-- Where `f` is how the resolver unwraps types and does so at once, it may as well be applied to
all types before. -/
theorem getType_mapTypes (hr : ∀ ty ∈ r.types, f (f ty) = f ty) (hf : ∀ ty, r.unwrap ty = f ty)
    (hclear : ∀ ty : TypeId, f (ty.clear .option) = (f ty).clear .option) :
    ∀ e : Expr, (∀ ty ∈ e.types, f (f ty) = f ty) →
      ((r.mapTypes f).getType (e.mapTypes f)).map f = (r.getType e).map f
  | .ident x _, he => by
    show Except.ok (f ((x.binding.map (·.mapTypes f)).elim .void (r.mapTypes f).variableType)) = _
    rcases hx : x.binding with _ | v
    · simp [getType, hx, Except.map]
    · have hv := apply_variableType hr hclear v (by simpa [Expr.types, Ident.types, hx] using he)
      simp [getType, hx, Except.map, hv]
  | .spliceField _ _ field _, _ => congrArg Except.ok (apply_spliceFieldType hr hf field .void)
  | .selector base field _ _, _ => by
    unfold getType Expr.mapTypes
    refine congrArg Except.ok ?_
    rw [Expr.ident?_mapTypes]
    rcases base.ident? with _ | x
    · rfl
    · show f (if (r.context.mapTypes f).isTypeSelector (base.mapTypes f) field then
        (r.mapTypes f).loopVarType x.name else .void) = _
      rw [Context.isTypeSelector_mapTypes]
      dsimp only
      split_ifs
      · exact apply_loopVarType hr x.name
      · rfl
  | .spliceCall _ ty _ span _, he => by
    have hty : r.unwrap (f ty) = r.unwrap ty := by
      rw [hf, hf]
      exact he ty List.mem_cons_self
    exact congrArg (Except.map f) (spliceCallType_mapTypes hty span)
  | .index object i _, he => by
    have ih := getType_mapTypes hr hf hclear object fun ty hty =>
      he ty (List.mem_append_left _ hty)
    have hunwrap : (r.mapTypes f).unwrap = f := funext hf
    rw [Expr.mapTypes, getType_index, getType_index, isStatic_mapTypes, hunwrap, ih, funext hf]
    rfl
  | .int .., _ | .float .., _ | .bool .., _ | .string .., _ | .call .., _ | .group .., _
  | .binary .., _ | .cast .., _ => rfl

end

end Resolver

open Table Instantiation

/-- Under an instantiation an expression is resolved as its concrete form is: with the same error,
or with types that unwrap to the same. -/
theorem getType_concrete {calls : List Call} {t : Table} (run : WellBuilt calls t)
    {s : Instantiation} (hkeys : s.BindsParams t)
    (hbound : ∀ (k : Nat) b, s.bindings[k]? = some b → b.isGeneric = false ∧ b.isOption = false)
    {l : List TypeId} (hl : l.Perm t.genericContainers) :
    ∃ s' t', { s with containers := {} }.instantiateInOrder t l = some (s', t') ∧
      (t'.size ≤ TypeId.capacity → ∀ r : Resolver, r.table = t' → r.instantiation = s' →
      ∀ e : Expr, (∀ ty ∈ r.types ++ e.types, Issued calls ty) →
        ((r.mapTypes s'.unwrap).getType (e.mapTypes s'.unwrap)).map s'.unwrap =
          (r.getType e).map s'.unwrap) := by
  obtain ⟨ht, hsound⟩ := run.wellFormed
  obtain ⟨s', t', hrun, rules, hend⟩ := exists_settled ht.toStratified hl s
  have hb : s'.bindings = s.bindings := rules.bindings_eq
  refine ⟨s', t', hrun, fun hs r _ hr e he => ?_⟩
  obtain ⟨hc, hset⟩ := hend hs
  have hkeys' : s'.BindsParams t := hkeys.congr hb
  have hidem : ∀ ty, Issued calls ty → s'.unwrap (s'.unwrap ty) = s'.unwrap ty := fun ty hty =>
    hset.unwrap_unwrap ht rules.extends hc hkeys' (fun k b hk => (hbound k b (hb ▸ hk)).1)
      (hsound ty hty)
  refine Resolver.getType_mapTypes ?_ ?_ ?_ e ?_
  · exact fun ty hty => hidem ty (he ty (List.mem_append_left _ hty))
  · intro ty
    rw [Resolver.unwrap, hr]
  · exact hset.unwrap_clear_option ht.toCanonical rules.extends fun k b hk =>
      (hbound k b (hb ▸ hk)).2
  · exact fun ty hty => hidem ty (he ty (List.mem_append_right _ hty))

/-- `T` stands for `i32` in the sample table. -/
def sampleConcrete : Instantiation := Instantiation.bind {} sampleParam.1 .i32

/-- `xs[0]`, where `xs` was narrowed from `?[]T` to `[]T`. -/
def sampleIndex : Expr :=
  let xs : Variable :=
    { name := "xs", typ := sampleArray.1.set .option, kind := .genericVar,
      casts := [sampleArray.1] }
  .mkIndex (.ident (.ofVariable xs) {}) (.int 0 {})

theorem getType_concrete_sample :
    ∃ s' t', sampleConcrete.instantiateInOrder sampleMap.2 sampleOrder = some (s', t') ∧
      (({ table := t', instantiation := s' } : Resolver).getType sampleIndex).map s'.unwrap =
        .ok .i32 ∧
      ((({ table := t', instantiation := s' } : Resolver).mapTypes s'.unwrap).getType
        (sampleIndex.mapTypes s'.unwrap)).map s'.unwrap = .ok .i32 := by
  have hkeys : sampleConcrete.BindsParams sampleMap.2 := bindsParams_sample _
  have hbound : ∀ (k : Nat) b, sampleConcrete.bindings[k]? = some b →
      b.isGeneric = false ∧ b.isOption = false := by
    intro k b hb
    obtain ⟨-, rfl⟩ := eq_of_single_binding hb
    decide
  obtain ⟨s', t', hrun, h⟩ := getType_concrete wellBuilt_sample hkeys hbound sampleOrder_perm
  change sampleConcrete.instantiateInOrder sampleMap.2 sampleOrder = some (s', t') at hrun
  have hend : (sampleConcrete.instantiateInOrder sampleMap.2 sampleOrder).map (fun p => (p.2.size,
      ((({ table := p.2, instantiation := p.1 } : Resolver).getType sampleIndex).map
        p.1.unwrap).toOption)) = some (20, some .i32) := by decide +kernel
  rw [hrun] at hend
  obtain ⟨hsize, hty⟩ := Prod.ext_iff.1 (Option.some.inj hend)
  have hgeneric : (({ table := t', instantiation := s' } : Resolver).getType sampleIndex).map
      s'.unwrap = .ok .i32 := by
    cases hr : (({ table := t', instantiation := s' } : Resolver).getType sampleIndex).map
        s'.unwrap with
    | error e => simp [hr, Except.toOption] at hty
    | ok ty => simpa [hr, Except.toOption] using hty
  have hs : t'.size ≤ TypeId.capacity := by
    rw [show t'.size = 20 from hsize]
    decide
  have htypes : ({ table := t', instantiation := s' } : Resolver).types ++ sampleIndex.types =
      [.void, sampleArray.1.set .option, sampleArray.1] := rfl
  have harray : Issued sampleCalls sampleArray.1 := .answer sampleArray_mem
  refine ⟨s', t', hrun, hgeneric, (h hs _ rfl rfl _ fun ty hty => ?_).trans hgeneric⟩
  rw [htypes] at hty
  obtain rfl | rfl | rfl : ty = .void ∨ ty = sampleArray.1.set .option ∨ ty = sampleArray.1 := by
    simpa using hty
  · exact .builtin (by decide)
  · exact .wrapped harray (by decide)
  · exact harray

end Unroll
