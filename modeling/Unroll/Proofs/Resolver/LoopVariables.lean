import Unroll.Proofs.Resolver.Reads

/-!
# The types of loop variables

`x.typ` stands for the type of the member that the loop over `x` is at. That type is recorded for
variants and method parameters, and is the current field's type otherwise. The slots of a context
are asked by name and not by loop: those that an outer loop has left take part where its variable
has the same name, and so does the type of an outer loop's field (`Loop.typeSource`).

* In a variant loop the recorded type is found. In a parameter loop `x` itself has it, but `x.typ`
  only if an outer loop over enum values, variants, fields or methods has a variable `x` too
  (`getType_recorded`).
* A loop entered from two contexts gives its variable the same type under all recorded types exactly
  if the source is the same (`getType_enter_eq_iff`). Outer loops do no harm in a variant loop, nor
  where their variables have other names, but for the type of an outer loop's field in a loop over
  enum values or methods.
-/

namespace Unroll

/-- The expression is `name.typ`, however the name is bound. -/
inductive Expr.IsTypeOf (name : String) : Expr → Prop where
  | intro (x : Ident) (h : x.name = name) (identSpan fieldSpan span : Span) :
      IsTypeOf name (.selector (.ident x identSpan) "typ" fieldSpan span)

/-- Where the type of a loop variable comes from. -/
inductive TypeSource where
  /-- From what is recorded for the variable. It is `void` if nothing is. -/
  | recorded
  | given (ty : TypeId)
deriving DecidableEq

namespace TypeSource

def resolve (types : TypeMap) (name : String) : TypeSource → TypeId
  | recorded => (types.getKey? (.selector name)).getD .void
  | given ty => ty

theorem resolve_insertKey (types : TypeMap) (name : String) (ty : TypeId) :
    recorded.resolve (types.insertKey (.selector name) ty) name = ty := by
  rw [resolve, TypeMap.getKey?_insertKey_self]
  rfl

theorem exists_resolve_ne (name : String) (ty : TypeId) :
    ∃ types, recorded.resolve types name ≠ ty := by
  by_cases h : ty = .void
  · refine ⟨TypeMap.insertKey {} (.selector name) .bool, ?_⟩
    rw [resolve_insertKey, h]
    decide
  · exact ⟨{}, fun heq => h heq.symm⟩

/-- What is recorded can be any type, so no other source stands in for it. -/
theorem resolve_eq_iff {a b : TypeSource} {name : String} :
    (∀ types, a.resolve types name = b.resolve types name) ↔ a = b := by
  constructor
  · intro h
    cases a with
    | recorded =>
      cases b with
      | recorded => rfl
      | given ty =>
        obtain ⟨types, hne⟩ := exists_resolve_ne name ty
        exact absurd (h types) hne
    | given ty =>
      cases b with
      | recorded =>
        obtain ⟨types, hne⟩ := exists_resolve_ne name ty
        exact absurd (h types).symm hne
      | given ty' => exact congrArg given (h {})
  · rintro rfl types
    rfl

end TypeSource

/-! ## Names in a context -/

namespace Context

/-- A loop over enum values, variants, fields or methods has left this name. -/
def HasTypedVar (ctx : Context) (name : String) : Prop :=
  ctx.enumVar = some name ∨ ctx.variantVar = some name ∨ ctx.fieldVar = some name ∨
    ctx.methodVar = some name

/-- A loop that records the types of its members, over variants or parameters, has left this
name. -/
def HasRecordedVar (ctx : Context) (name : String) : Prop :=
  ctx.variantVar = some name ∨ ctx.methodParamVar = some name

instance (ctx : Context) (name : String) : Decidable (ctx.HasTypedVar name) :=
  inferInstanceAs (Decidable (_ ∨ _))

instance (ctx : Context) (name : String) : Decidable (ctx.HasRecordedVar name) :=
  inferInstanceAs (Decidable (_ ∨ _))

/-- No loop whose variable could be asked for a type has left this name. -/
structure Unused (ctx : Context) (name : String) : Prop where
  typed : ¬ ctx.HasTypedVar name
  recorded : ¬ ctx.HasRecordedVar name

/-- Where the type that `name.typ` stands for comes from. -/
def typeSource (ctx : Context) (name : String) : TypeSource :=
  if ctx.insideLoop = true ∧ ctx.HasTypedVar name then
    if ctx.HasRecordedVar name then .recorded else .given ctx.fieldType
  else .given .void

theorem isTypeSelector_ident (ctx : Context) (x : Ident) (s : Span) :
    ctx.isTypeSelector (.ident x s) "typ" = true ↔
      ctx.insideLoop = true ∧ ctx.HasTypedVar x.name := by
  unfold isTypeSelector HasTypedVar
  simp [Expr.ident?, eq_comm (a := some x.name)]

end Context

namespace Resolver

variable {r : Resolver} {e : Expr} {name : String}

theorem loopVarType_eq (r : Resolver) (name : String) : r.loopVarType name =
    if r.context.HasRecordedVar name then (r.typeMap.getKey? (.selector name)).getD .void
    else r.context.fieldType := by
  unfold loopVarType Context.HasRecordedVar
  simp only [Bool.or_eq_true, beq_iff_eq]
  rfl

theorem getType_typeOf (h : e.IsTypeOf name) :
    r.getType e = .ok ((r.context.typeSource name).resolve r.typeMap name) := by
  obtain ⟨x, rfl, identSpan, fieldSpan, span⟩ := h
  show Except.ok (if r.context.isTypeSelector (.ident x identSpan) "typ" then
    r.loopVarType x.name else .void) = _
  simp only [Context.isTypeSelector_ident, loopVarType_eq, Context.typeSource]
  congr 1
  split_ifs <;> rfl

end Resolver

/-! ## The innermost loop -/

namespace Loop

/-- Whether the loop's variable may be asked for a type. -/
def isTyped : Loop → Bool
  | variant _ | field _ _ | enumValue _ | method _ _ => true
  | attr _ | methodParam _ => false

/-- Whether the types of the loop's members are recorded. -/
def isRecorded : Loop → Bool
  | variant _ | methodParam _ => true
  | field _ _ | enumValue _ | attr _ | method _ _ => false

/-- Whether the loop has no type for its variable but that of an outer loop's field. -/
def borrowsFieldType : Loop → Bool
  | enumValue _ | method _ _ => true
  | variant _ | field _ _ | attr _ | methodParam _ => false

/-- Where the type of the loop's own variable comes from when the loop is entered from a context. -/
def typeSource : Loop → Context → TypeSource
  | variant _, _ => .recorded
  | field v f, ctx => if ctx.HasRecordedVar v then .recorded else .given f.typ
  | enumValue v, ctx | method v _, ctx =>
      if ctx.HasRecordedVar v then .recorded else .given ctx.fieldType
  | attr v, ctx =>
      if ctx.HasTypedVar v then
        if ctx.HasRecordedVar v then .recorded else .given ctx.fieldType
      else .given .void
  | methodParam v, ctx => if ctx.HasTypedVar v then .recorded else .given .void

variable (l : Loop) (id : UInt32) (ctx : Context)

@[simp] theorem insideLoop_apply : (l.apply id ctx).insideLoop = true := by
  cases l <;> rfl

theorem hasTypedVar_apply :
    (l.apply id ctx).HasTypedVar l.var ↔ l.isTyped = true ∨ ctx.HasTypedVar l.var := by
  cases l <;> simp [Context.HasTypedVar, apply, var, isTyped]

theorem hasRecordedVar_apply :
    (l.apply id ctx).HasRecordedVar l.var ↔ l.isRecorded = true ∨ ctx.HasRecordedVar l.var := by
  cases l <;> simp [Context.HasRecordedVar, apply, var, isRecorded]

/-- A loop's variable has the source that the context of its body gives it. -/
theorem typeSource_apply : (l.apply id ctx).typeSource l.var = l.typeSource ctx := by
  unfold Context.typeSource
  simp only [insideLoop_apply, hasTypedVar_apply, hasRecordedVar_apply, true_and]
  cases l <;> simp [typeSource, isTyped, isRecorded, var, apply]

/-- Where outer loops have other variables, nothing but the type of a field can come from them. -/
theorem typeSource_eq_of_unused {l : Loop} {c₁ c₂ : Context} (h₁ : c₁.Unused l.var)
    (h₂ : c₂.Unused l.var) (hfield : l.borrowsFieldType = true → c₁.fieldType = c₂.fieldType) :
    l.typeSource c₁ = l.typeSource c₂ := by
  have hr₁ := h₁.recorded
  have hr₂ := h₂.recorded
  have ht₁ := h₁.typed
  have ht₂ := h₂.typed
  cases l <;> rw [var] at hr₁ hr₂ ht₁ ht₂
  case variant => rfl
  case field => rw [typeSource, typeSource, if_neg hr₁, if_neg hr₂]
  case enumValue | method =>
    rw [typeSource, typeSource, if_neg hr₁, if_neg hr₂, hfield rfl]
  case attr | methodParam => rw [typeSource, typeSource, if_neg ht₁, if_neg ht₂]

end Loop

namespace Resolver

/-- Records the type of the member that the loop over `var` is at. -/
def record (r : Resolver) (var : String) (ty : TypeId) : Resolver :=
  r.modifyTypeMap (·.insertKey (.selector var) ty)

/-- The type of a loop's variable in its body, whatever is recorded there. -/
theorem getType_enter {l : Loop} {e : Expr} (he : e.IsTypeOf l.var) (r : Resolver)
    (f : TypeMap → TypeMap) :
    ((r.enter l).modifyTypeMap f).getType e =
      .ok ((l.typeSource r.context).resolve (f r.typeMap) l.var) := by
  rw [getType_typeOf he, ← Loop.typeSource_apply l r.push.nextLoopId.1]
  rfl

theorem getType_entered {l : Loop} {e : Expr} (he : e.IsTypeOf l.var) (r : Resolver) :
    (r.enter l).getType e = .ok ((l.typeSource r.context).resolve r.typeMap l.var) :=
  getType_enter he r fun types => types

/-- A recorded type is that of the loop's variable, but in a parameter loop `var.typ` is `void`
unless an outer loop has the name too. -/
theorem getType_recorded (r : Resolver) (var : String) {e : Expr} (he : e.IsTypeOf var)
    (ty : TypeId) :
    ((r.enter (.variant var)).record var ty).getType e = .ok ty ∧
    ((r.enter (.methodParam var)).record var ty).loopVarType var = ty ∧
    ((r.enter (.methodParam var)).record var ty).getType e =
      .ok (if r.context.HasTypedVar var then ty else .void) ∧
    (((r.enter (.methodParam var)).record var ty).getType e = .ok ty ↔
      r.context.HasTypedVar var ∨ ty = .void) ∧
    (r.typeMap.getKey? (.selector var) = none →
      (r.enter (.variant var)).getType e = .ok .void ∧
      (r.enter (.methodParam var)).getType e = .ok .void) := by
  have hparam : ((r.enter (.methodParam var)).record var ty).getType e =
      .ok (if r.context.HasTypedVar var then ty else .void) := by
    rw [record, getType_enter (l := .methodParam var) he, Loop.typeSource]
    split
    · exact congrArg Except.ok (TypeSource.resolve_insertKey r.typeMap var ty)
    · rfl
  refine ⟨?_, ?_, hparam, ?_, ?_⟩
  · rw [record, getType_enter (l := .variant var) he]
    exact congrArg Except.ok (TypeSource.resolve_insertKey r.typeMap var ty)
  · rw [loopVarType_eq, if_pos (.inr rfl)]
    exact TypeSource.resolve_insertKey r.typeMap var ty
  · -- The answer is `void` where the type is not given, so only `void` is right there.
    rw [hparam, Except.ok.injEq]
    by_cases h : r.context.HasTypedVar var
    · rw [if_pos h]
      exact iff_of_true rfl (.inl h)
    · rw [if_neg h, or_iff_right h, eq_comm]
  · intro hnone
    have hvoid : TypeSource.recorded.resolve r.typeMap var = .void := by
      rw [TypeSource.resolve, hnone]
      rfl
    constructor
    · rw [getType_entered (l := .variant var) he]
      exact congrArg Except.ok hvoid
    · rw [getType_entered (l := .methodParam var) he, Loop.typeSource]
      split
      · exact congrArg Except.ok hvoid
      · rfl

/-- `name.typ` with a name that is not bound to a variable. -/
def sampleTypeOf (name : String) : Expr := .mkSelector (.ident { name } {}) "typ" {}

theorem isTypeOf_sampleTypeOf (name : String) : (sampleTypeOf name).IsTypeOf name :=
  .intro { name } rfl _ _ _

theorem getType_recorded_sample :
    ((sampleResolver.enter (.variant "v")).record "v" .i32).getType (sampleTypeOf "v") = .ok .i32 ∧
    (((sampleResolver.enter (.enumValue "p")).enter (.methodParam "p")).record "p" .i32).getType
      (sampleTypeOf "p") = .ok .i32 ∧
    sampleResolver.typeMap.getKey? (.selector "v") = none ∧
    (sampleResolver.enter (.variant "v")).getType (sampleTypeOf "v") = .ok .void := by
  obtain ⟨hvariant, -, -, -, hnone⟩ :=
    getType_recorded sampleResolver "v" (isTypeOf_sampleTypeOf "v") .i32
  obtain ⟨-, -, -, hparam, -⟩ :=
    getType_recorded (sampleResolver.enter (.enumValue "p")) "p" (isTypeOf_sampleTypeOf "p") .i32
  exact ⟨hvariant, hparam.2 (.inl (.inl rfl)), rfl, (hnone rfl).1⟩

/-- The type recorded for a parameter is there, but the parameter's own `typ` does not give it. -/
theorem paramType_not_selected :
    ((sampleResolver.enter (.methodParam "p")).record "p" .i32).typeMap.getKey? (.selector "p") =
      some .i32 ∧
    ((sampleResolver.enter (.methodParam "p")).record "p" .i32).loopVarType "p" = .i32 ∧
    ((sampleResolver.enter (.methodParam "p")).record "p" .i32).getType (sampleTypeOf "p") =
      .ok .void := by
  refine ⟨by decide +kernel, by decide +kernel, rfl⟩

/-- In a loop's body the type of its variable comes from `typeSource`, and it depends on the outer
loops exactly as that does. -/
theorem getType_enter_eq_iff (l : Loop) {e : Expr} (he : e.IsTypeOf l.var) :
    (∀ r : Resolver, (r.enter l).getType e =
      .ok ((l.typeSource r.context).resolve r.typeMap l.var)) ∧
    (∀ r₁ r₂ : Resolver,
      (∀ types, ((r₁.withTypeMap types).enter l).getType e =
        ((r₂.withTypeMap types).enter l).getType e) ↔
      l.typeSource r₁.context = l.typeSource r₂.context) ∧
    (∀ v f, l = .field v f → ∀ r : Resolver,
      (∀ types, ((r.withTypeMap types).enter l).getType e = .ok f.typ) ↔
      ¬ r.context.HasRecordedVar v) ∧
    (∀ v, l = .variant v → ∀ c₁ c₂ : Context, l.typeSource c₁ = l.typeSource c₂) ∧
    ∀ c₁ c₂ : Context, c₁.Unused l.var → c₂.Unused l.var →
      (l.borrowsFieldType = true → c₁.fieldType = c₂.fieldType) →
      l.typeSource c₁ = l.typeSource c₂ := by
  have hget : ∀ (r : Resolver) types, ((r.withTypeMap types).enter l).getType e =
      .ok ((l.typeSource r.context).resolve types l.var) := fun r types =>
    getType_entered he (r.withTypeMap types)
  refine ⟨getType_entered he, ?_, ?_, ?_, ?_⟩
  · intro r₁ r₂
    simp only [hget, Except.ok.injEq]
    exact TypeSource.resolve_eq_iff
  · rintro v f rfl r
    -- The field's type is itself a source, and the one source that gives it under all maps.
    have hfield : (∀ types, (Loop.typeSource (.field v f) r.context).resolve types v = f.typ) ↔
        Loop.typeSource (.field v f) r.context = .given f.typ :=
      TypeSource.resolve_eq_iff (b := .given f.typ)
    simp only [hget, Except.ok.injEq]
    refine hfield.trans ?_
    rw [Loop.typeSource]
    by_cases h : r.context.HasRecordedVar v <;> simp [h]
  · rintro v rfl c₁ c₂
    rfl
  · intro c₁ c₂ h₁ h₂ hfield
    exact Loop.typeSource_eq_of_unused h₁ h₂ hfield

/-- An iteration over the fields of a struct, at a field of type `i32`. -/
def sampleFieldLoop (var : String) : Loop := .field var { name := "a", typ := .i32 }

theorem getType_enter_eq_iff_sample :
    ({} : Context).Unused "x" ∧ (sampleResolver.enter (.variant "v")).context.Unused "x" ∧
    (∀ types, ((sampleResolver.withTypeMap types).enter (sampleFieldLoop "x")).getType
        (sampleTypeOf "x") =
      (((sampleResolver.enter (.variant "v")).withTypeMap types).enter
        (sampleFieldLoop "x")).getType (sampleTypeOf "x")) ∧
    ∀ types, ((sampleResolver.withTypeMap types).enter (sampleFieldLoop "x")).getType
      (sampleTypeOf "x") = .ok .i32 := by
  obtain ⟨-, hiff, hfield, -, hunused⟩ :=
    getType_enter_eq_iff (sampleFieldLoop "x") (isTypeOf_sampleTypeOf "x")
  have h₁ : ({} : Context).Unused "x" := ⟨by decide, by decide⟩
  have h₂ : (sampleResolver.enter (.variant "v")).context.Unused "x" := ⟨by decide, by decide⟩
  refine ⟨h₁, h₂, ?_, ?_⟩
  · exact (hiff sampleResolver (sampleResolver.enter (.variant "v"))).2
      (hunused _ _ h₁ h₂ fun h => absurd h (by decide))
  · exact (hfield "x" _ rfl sampleResolver).2 h₁.recorded

/-- A field loop takes its variable for that of an outer variant loop, and a loop over enum values
takes an outer field's type. -/
theorem outer_loops_interfere :
    (sampleResolver.enter (sampleFieldLoop "x")).getType (sampleTypeOf "x") = .ok .i32 ∧
    ((sampleResolver.enter (.variant "x")).enter (sampleFieldLoop "x")).getType
      (sampleTypeOf "x") = .ok .void ∧
    (sampleResolver.enter (.enumValue "x")).getType (sampleTypeOf "x") = .ok .void ∧
    ((sampleResolver.enter (sampleFieldLoop "f")).enter (.enumValue "x")).getType
      (sampleTypeOf "x") = .ok .i32 := by
  refine ⟨rfl, rfl, rfl, rfl⟩

end Resolver

end Unroll
