import Unroll.Proofs.Resolver.Failure

/-!
# What is read of the recorded types

Each way to ask for the type of an expression looks at one recorded type, or at none. Which one is
known from the expression and the active context before anything is looked up (`Query.key?`), so
all other entries may differ, be changed or be dropped without a change of the answer
(`answer_reads_one_entry`).
-/

namespace Unroll

/-! ## Edits of a type map -/

namespace TypeMap

/-- A change to the recorded types. -/
inductive Edit where
  | insert (key : String) (ty : TypeId)
  | erase (key : String)
  | clear

namespace Edit

def perform : Edit → TypeMap → TypeMap
  | insert key ty, m => m.insert key ty
  | erase key, m => m.erase key
  | clear, _ => {}

/-- Whether the edit is made under a key. A map is cleared under every key. -/
def touches (key : String) : Edit → Bool
  | insert k _ | erase k => k == key
  | clear => true

end Edit

/-- The recorded types after edits made one after another. -/
def edited (m : TypeMap) (edits : List Edit) : TypeMap := edits.foldl (fun m d => d.perform m) m

/-- The maps have the same entry under a key, if there is a key to look under. -/
def AgreeAt (key : Option TypeMapKey) (m m' : TypeMap) : Prop :=
  ∀ k ∈ key, m.get? k.render = m'.get? k.render

variable {m m' : TypeMap} {key : String}

theorem get?_insert (m : TypeMap) (key k : String) (ty : TypeId) :
    (m.insert key ty).get? k = if key = k then some ty else m.get? k := by
  unfold get? insert
  rw [Std.TreeMap.getElem?_insert]
  simp only [Std.LawfulEqCmp.compare_eq_iff_eq]

@[simp] theorem getKey?_insertKey_self (m : TypeMap) (k : TypeMapKey) (ty : TypeId) :
    (m.insertKey k ty).getKey? k = some ty := by
  rw [insertKey, getKey?, get?_insert, if_pos rfl]

theorem get?_insertKey_of_ne (m : TypeMap) {k : TypeMapKey} (h : key ≠ k.render) (ty : TypeId) :
    (m.insertKey k ty).get? key = m.get? key := by
  rw [insertKey, get?_insert, if_neg h.symm]

theorem get?_erase (m : TypeMap) (key k : String) :
    (m.erase key).get? k = if key = k then none else m.get? k := by
  unfold get? erase
  rw [Std.TreeMap.getElem?_erase]
  simp only [Std.LawfulEqCmp.compare_eq_iff_eq]

theorem Edit.get?_perform {d : Edit} (h : d.touches key = false) :
    (d.perform m).get? key = m.get? key := by
  cases d with
  | insert k ty => rw [perform, get?_insert, if_neg (by simpa [touches] using h)]
  | erase k => rw [perform, get?_erase, if_neg (by simpa [touches] using h)]
  | clear => cases h

theorem get?_edited {edits : List Edit} (h : ∀ d ∈ edits, d.touches key = false) :
    (m.edited edits).get? key = m.get? key := by
  induction edits generalizing m with
  | nil => rfl
  | cons d edits ih =>
    calc ((d.perform m).edited edits).get? key
        = (d.perform m).get? key := ih fun d' hd' => h d' (List.mem_cons_of_mem _ hd')
      _ = m.get? key := Edit.get?_perform (h d List.mem_cons_self)

theorem AgreeAt.getKey?_eq {k : TypeMapKey} (h : AgreeAt (some k) m m') :
    m.getKey? k = m'.getKey? k :=
  h k rfl

end TypeMap

/-! ## The key of an expression -/

namespace Context

/-- Under what the type of a variable is looked up. -/
def variableKey? (ctx : Context) (v : Variable) : Option TypeMapKey :=
  match v.kind with
  | .genericVar => if v.casts.isEmpty then some (.genericVar v.name v.pos.start) else none
  | .smartcast => ctx.variantVar.map .selector
  | .keyVar | .valueVar => some (.var v.name)
  | .genericParam | .fieldVar | .other => none

def identKey? (ctx : Context) (x : Ident) : Option TypeMapKey := x.binding.bind ctx.variableKey?

/-- Under what the type that `name.typ` stands for is looked up. -/
def loopVarKey? (ctx : Context) (name : String) : Option TypeMapKey :=
  if ctx.variantVar == some name || ctx.methodParamVar == some name then some (.selector name)
  else none

def typeKey? (ctx : Context) : Expr → Option TypeMapKey
  | .ident x _ => ctx.identKey? x
  | .selector base field _ _ =>
      if ctx.isTypeSelector base field then base.ident?.bind (ctx.loopVarKey? ·.name) else none
  | .index object _ _ => if Resolver.isStatic object then ctx.typeKey? object else none
  | _ => none

/-- The key for an expression that is its own leftmost operand: that of the variable it is, or of
the variable it selects a field from. -/
def knownTypeKey? (ctx : Context) : Expr → Option TypeMapKey
  | .ident x _ => if x.isStatic then ctx.identKey? x else none
  | .selector base _ _ _ => base.staticIdent?.bind ctx.identKey?
  | _ => none

end Context

namespace Resolver

/-- The ways to ask for the type of an expression. -/
inductive Query where
  | type
  | typeD
  | staticTypeD

namespace Query

/-- The answer of a resolver. Two of the queries fall back on `default`. -/
def answer (default : TypeId) (e : Expr) : Query → Resolver → Except ResolveError TypeId
  | type, r => r.getType e
  | typeD, r => r.getTypeD default e
  | staticTypeD, r => r.getStaticTypeD default e

/-- The key of the only recorded type that the answer depends on. -/
def key? (ctx : Context) (e : Expr) : Query → Option TypeMapKey
  | type => ctx.typeKey? e
  | typeD => ctx.knownTypeKey? e.leftmost
  | staticTypeD => if isStatic e then ctx.typeKey? e else none

end Query

def withTypeMap (r : Resolver) (m : TypeMap) : Resolver := { r with typeMap := m }

@[simp] theorem context_withTypeMap (r : Resolver) (m : TypeMap) :
    (r.withTypeMap m).context = r.context := rfl

@[simp] theorem typeMap_withTypeMap (r : Resolver) (m : TypeMap) :
    (r.withTypeMap m).typeMap = m := rfl

@[simp] theorem table_withTypeMap (r : Resolver) (m : TypeMap) :
    (r.withTypeMap m).table = r.table := rfl

@[simp] theorem unwrap_withTypeMap (r : Resolver) (m : TypeMap) :
    (r.withTypeMap m).unwrap = r.unwrap := rfl

/-! ## Maps with the same entry there -/

section Congr

variable {r : Resolver} {m m' : TypeMap}

theorem variableType_congr {v : Variable} (h : m.AgreeAt (r.context.variableKey? v) m') :
    (r.withTypeMap m).variableType v = (r.withTypeMap m').variableType v := by
  unfold variableType
  unfold Context.variableKey? at h
  cases hk : v.kind with
  | genericParam | fieldVar | other => rfl
  | genericVar =>
    rw [hk] at h
    cases hc : v.lastCast? with
    | some ty => rfl
    | none =>
      -- Only a variable that was never narrowed has a key.
      have hnil : v.casts = [] := List.getLast?_eq_none_iff.1 hc
      simp only [hnil, List.isEmpty_nil, if_true] at h
      simp only [typeMap_withTypeMap, h.getKey?_eq]
  | smartcast =>
    rw [hk] at h
    simp only [context_withTypeMap, typeMap_withTypeMap]
    cases hv : r.context.variantVar with
    | none => rfl
    | some x =>
      rw [hv] at h
      simp only [Option.bind_some, h.getKey?_eq]
  | keyVar | valueVar =>
    rw [hk] at h
    simp only [typeMap_withTypeMap, h.getKey?_eq]

theorem identType_congr {x : Ident} (h : m.AgreeAt (r.context.identKey? x) m') :
    (r.withTypeMap m).identType x = (r.withTypeMap m').identType x := by
  unfold Context.identKey? at h
  unfold identType
  cases hx : x.binding with
  | none => rfl
  | some v =>
    rw [hx] at h
    exact variableType_congr h

theorem loopVarType_congr {name : String} (h : m.AgreeAt (r.context.loopVarKey? name) m') :
    (r.withTypeMap m).loopVarType name = (r.withTypeMap m').loopVarType name := by
  have heq : ∀ m, (r.withTypeMap m).loopVarType name =
      if r.context.variantVar == some name || r.context.methodParamVar == some name then
        (m.getKey? (.selector name)).getD .void
      else r.context.fieldType := fun _ => rfl
  rw [heq, heq]
  unfold Context.loopVarKey? at h
  split
  next hname =>
    rw [if_pos hname] at h
    rw [h.getKey?_eq]
  next => rfl

theorem getType_congr : ∀ e : Expr, m.AgreeAt (r.context.typeKey? e) m' →
    (r.withTypeMap m).getType e = (r.withTypeMap m').getType e
  | .ident x _, h => congrArg Except.ok (identType_congr h)
  | .selector base field _ _, h => by
    unfold Context.typeKey? at h
    unfold getType
    cases hx : base.ident? with
    | none => rfl
    | some x =>
      have heq : ∀ m, (if (r.withTypeMap m).context.isTypeSelector base field then
            (r.withTypeMap m).loopVarType x.name else .void) =
          if r.context.isTypeSelector base field then (r.withTypeMap m).loopVarType x.name
          else .void := fun _ => rfl
      refine congrArg Except.ok ((heq m).trans (Eq.trans ?_ (heq m').symm))
      split
      next hsel =>
        rw [if_pos hsel, hx] at h
        exact loopVarType_congr h
      next => rfl
  | .index object i s, h => by
    unfold Context.typeKey? at h
    rw [getType_index, getType_index]
    split
    next hstatic =>
      rw [if_pos hstatic] at h
      simp only [getType_congr object h, table_withTypeMap, unwrap_withTypeMap]
    next => rfl
  | .spliceField .., _ | .spliceCall .., _ | .int .., _ | .float .., _ | .bool .., _
  | .string .., _ | .call .., _ | .group .., _ | .binary .., _ | .cast .., _ => rfl

theorem knownType?_congr {e : Expr} (h : m.AgreeAt (r.context.knownTypeKey? e) m') :
    (r.withTypeMap m).knownType? e = (r.withTypeMap m').knownType? e := by
  cases e with
  | ident x s =>
    rw [Context.knownTypeKey?] at h
    rw [knownType?, knownType?]
    split
    next hstatic =>
      rw [if_pos hstatic] at h
      rw [identType_congr h]
    next => rfl
  | selector base field fieldSpan s =>
    rw [Context.knownTypeKey?] at h
    rw [knownType?, knownType?]
    cases hx : base.staticIdent? with
    | none => rw [Option.bind_none, Option.bind_none]
    | some x =>
      rw [hx] at h
      -- The table and the instantiation are not looked into: only the variable's type can differ.
      rw [Option.bind_some, Option.bind_some]
      simp only [identFieldType?, table_withTypeMap, unwrap_withTypeMap, identType_congr h]
  | _ => rfl

theorem answer_congr {q : Query} {e : Expr} (h : m.AgreeAt (q.key? r.context e) m')
    (default : TypeId) :
    q.answer default e (r.withTypeMap m) = q.answer default e (r.withTypeMap m') := by
  cases q with
  | type => exact getType_congr e h
  | typeD =>
    show (r.withTypeMap m).getTypeD default e = (r.withTypeMap m').getTypeD default e
    rw [getTypeD_eq, getTypeD_eq, knownType?_congr h]
  | staticTypeD =>
    show (r.withTypeMap m).getStaticTypeD default e = (r.withTypeMap m').getStaticTypeD default e
    unfold getStaticTypeD
    split
    next hstatic =>
      rw [Query.key?, if_pos hstatic] at h
      rw [getType_congr e h]
    next => rfl

end Congr

/-! ## Variables -/

section Variables

variable {r : Resolver} {v : Variable} {x : Ident} {k : TypeMapKey} {ty : TypeId}

/-- The type of a variable with a key is the one recorded there, but for its option. -/
theorem variableType_of_recorded (hk : k ∈ r.context.variableKey? v)
    (hty : r.typeMap.getKey? k = some ty) (hopt : ty.clear .option = ty) :
    r.variableType v = ty := by
  unfold Context.variableKey? at hk
  unfold variableType
  cases hkind : v.kind with
  | genericParam | fieldVar | other =>
    rw [hkind] at hk
    cases hk
  | genericVar =>
    simp only [hkind] at hk
    split at hk
    next hempty =>
      cases hk
      have hcast : v.lastCast? = none :=
        List.getLast?_eq_none_iff.2 (List.isEmpty_iff.1 hempty)
      simp [hcast, hty]
    next => cases hk
  | smartcast =>
    simp only [hkind] at hk
    obtain ⟨y, hy, rfl⟩ := Option.map_eq_some_iff.1 hk
    simp [hy, hty, hopt]
  | keyVar | valueVar =>
    rw [hkind] at hk
    cases hk
    simp [hty]

theorem key?_ident (q : Query) (ctx : Context) (hstatic : x.isStatic = true) (s : Span) :
    q.key? ctx (.ident x s) = ctx.identKey? x := by
  cases q with
  | type => rfl
  | typeD =>
    show ctx.knownTypeKey? (.ident x s) = _
    rw [Context.knownTypeKey?, if_pos hstatic]
  | staticTypeD => exact if_pos hstatic

theorem answer_ident (q : Query) (hstatic : x.isStatic = true) (hty : r.identType x = ty)
    (hvoid : ty.isVoid = false) (default : TypeId) (s : Span) :
    q.answer default (.ident x s) r = .ok ty := by
  have hget : r.getType (.ident x s) = .ok ty := congrArg Except.ok hty
  have hsome : (if ty.isVoid = true then default else ty) = ty := by simp [hvoid]
  cases q with
  | type => exact hget
  | typeD =>
    show r.getTypeD default (.ident x s) = .ok ty
    rw [getTypeD, if_pos hstatic, hget]
    exact congrArg Except.ok hsome
  | staticTypeD =>
    show r.getStaticTypeD default (.ident x s) = .ok ty
    rw [getStaticTypeD, if_pos (show isStatic (.ident x s) = true from hstatic), hget]
    exact congrArg Except.ok hsome

/-- The entry under a variable's key is not only looked at: the answer follows it. -/
theorem answer_ident_recorded (q : Query) (hstatic : x.isStatic = true)
    (hk : k ∈ r.context.identKey? x) (hopt : ty.clear .option = ty) (hvoid : ty.isVoid = false)
    (default : TypeId) (s : Span) :
    q.answer default (.ident x s) (r.withTypeMap (TypeMap.insertKey {} k ty)) = .ok ty := by
  obtain ⟨v, hv, hk⟩ := Option.bind_eq_some_iff.1 hk
  refine answer_ident q hstatic ?_ hvoid default s
  unfold identType
  rw [hv]
  exact variableType_of_recorded (r := r.withTypeMap _) hk (TypeMap.getKey?_insertKey_self ..) hopt

theorem exists_answer_ident_ne (q : Query) (hstatic : x.isStatic = true)
    (hk : k ∈ r.context.identKey? x) (default : TypeId) (s : Span) :
    ∃ m m' : TypeMap, (∀ other, other ≠ k.render → m.get? other = m'.get? other) ∧
      q.answer default (.ident x s) (r.withTypeMap m) ≠
        q.answer default (.ident x s) (r.withTypeMap m') := by
  refine ⟨TypeMap.insertKey {} k .i32, TypeMap.insertKey {} k .i64, ?_, ?_⟩
  · intro other hother
    rw [TypeMap.get?_insertKey_of_ne _ hother, TypeMap.get?_insertKey_of_ne _ hother]
  · rw [answer_ident_recorded q hstatic hk (by decide) (by decide),
      answer_ident_recorded q hstatic hk (by decide) (by decide)]
    intro h
    cases h

end Variables

/-- At most one recorded type has a part in an answer, and for a compile-time variable the way it
was bound says which. -/
theorem answer_reads_one_entry (q : Query) (ctx : Context) (e : Expr) :
    (∀ (r : Resolver) (default : TypeId) (m m' : TypeMap), r.context = ctx →
      m.AgreeAt (q.key? ctx e) m' →
      q.answer default e (r.withTypeMap m) = q.answer default e (r.withTypeMap m')) ∧
    (∀ (r : Resolver) (default : TypeId) (edits : List TypeMap.Edit), r.context = ctx →
      ((r.typeMap.edited edits).AgreeAt (q.key? ctx e) r.typeMap ∨
        ∀ k ∈ q.key? ctx e, ∀ d ∈ edits, d.touches k.render = false) →
      q.answer default e (r.modifyTypeMap (·.edited edits)) = q.answer default e r) ∧
    ∀ (x : Ident) (s : Span) (v : Variable), e = .ident x s → x.isStatic = true →
      x.binding = some v →
      (v.kind = .genericParam ∨ v.kind = .fieldVar → q.key? ctx e = none) ∧
      (v.kind = .genericVar → v.casts ≠ [] → q.key? ctx e = none) ∧
      (v.kind = .genericVar → v.casts = [] → (q.key? ctx e).map TypeMapKey.render =
        some ("t." ++ v.name ++ "." ++ toString v.pos.start)) ∧
      (v.kind = .smartcast →
        (q.key? ctx e).map TypeMapKey.render = ctx.variantVar.map (· ++ ".typ")) ∧
      (v.kind = .keyVar ∨ v.kind = .valueVar →
        (q.key? ctx e).map TypeMapKey.render = some v.name) ∧
      ∀ k ∈ q.key? ctx e, ∀ (r : Resolver) (default : TypeId), r.context = ctx →
        ∃ m m' : TypeMap, (∀ other, other ≠ k.render → m.get? other = m'.get? other) ∧
          q.answer default e (r.withTypeMap m) ≠ q.answer default e (r.withTypeMap m') := by
  refine ⟨?_, ?_, ?_⟩
  · rintro r default m m' rfl h
    exact answer_congr h default
  · rintro r default edits rfl h
    show q.answer default e (r.withTypeMap (r.typeMap.edited edits)) =
      q.answer default e (r.withTypeMap r.typeMap)
    refine answer_congr ?_ default
    rcases h with hsame | huntouched
    · exact hsame
    · exact fun k hk => TypeMap.get?_edited (huntouched k hk)
  · rintro x s v rfl hstatic hv
    have hkey : q.key? ctx (.ident x s) = ctx.variableKey? v := by
      rw [key?_ident q ctx hstatic, Context.identKey?, hv]
      rfl
    rw [hkey]
    refine ⟨?_, ?_, ?_, ?_, ?_, ?_⟩
    · rintro (hk | hk) <;> rw [Context.variableKey?, hk]
    · intro hk hcasts
      simp [Context.variableKey?, hk, hcasts]
    · intro hk hcasts
      simp [Context.variableKey?, hk, hcasts, TypeMapKey.render]
    · intro hk
      simp [Context.variableKey?, hk, TypeMapKey.render, Function.comp_def]
    · rintro (hk | hk) <;> rw [Context.variableKey?, hk] <;> rfl
    · rintro k hk r default rfl
      refine exists_answer_ident_ne q hstatic ?_ default s
      rw [Context.identKey?, hv]
      exact hk

/-- In a variant loop over `v` at `i32`. -/
def sampleVariant : Resolver :=
  (sampleResolver.enter (.variant "v")).withTypeMap (TypeMap.insertKey {} (.selector "v") .i32)

/-- `x`, declared as a string and narrowed to the variant that the loop is at. -/
def sampleNarrowed : Ident := .ofVariable { name := "x", typ := .string, kind := .smartcast }

theorem answer_reads_one_entry_sample :
    (Query.typeD.key? sampleVariant.context (.ident sampleNarrowed {})).map TypeMapKey.render =
      some "v.typ" ∧
    Query.typeD.answer .bool (.ident sampleNarrowed {})
      (sampleVariant.modifyTypeMap (·.edited [.insert "x" .u8, .erase "t.x.0"])) = .ok .i32 ∧
    ∃ m m' : TypeMap, (∀ other, other ≠ "v.typ" → m.get? other = m'.get? other) ∧
      Query.typeD.answer .bool (.ident sampleNarrowed {}) (sampleVariant.withTypeMap m) ≠
        Query.typeD.answer .bool (.ident sampleNarrowed {}) (sampleVariant.withTypeMap m') := by
  obtain ⟨-, hedits, hident⟩ :=
    answer_reads_one_entry .typeD sampleVariant.context (.ident sampleNarrowed {})
  obtain ⟨-, -, -, hkey, -, hread⟩ := hident sampleNarrowed {} _ rfl rfl rfl
  have hk : TypeMapKey.selector "v" ∈
      Query.typeD.key? sampleVariant.context (.ident sampleNarrowed {}) := rfl
  refine ⟨hkey rfl, ?_, hread _ hk sampleVariant .bool rfl⟩
  rw [hedits sampleVariant .bool [.insert "x" .u8, .erase "t.x.0"] rfl (.inr ?_)]
  · exact answer_ident_recorded .typeD rfl rfl (by decide) (by decide) .bool {}
  · intro k hk'
    obtain rfl := Option.some.inj (hk.symm.trans hk')
    decide

end Resolver

end Unroll
