import Unroll.Proofs.Resolver.Concrete
import Unroll.Proofs.Resolver.Stack

/-!
# Failures and fallbacks

A resolution fails for one reason: the method that the enclosing loop is at is missing from the
receiver of a spliced call. Only the call itself fails, and an expression that indexes it directly;
from under anything else a failure does not get out (`getType_fails_iff`). The error names the
method, the receiver's type and the place of the method's name.

The resolution with a fallback asks about nothing but variables and fields of variables, so it never
fails: it looks through parentheses and to the left of arithmetic (`Expr.leftmost`), answers the
type known there (`knownType?`), and else the fallback (`getTypeD_known`).
-/

namespace Unroll

namespace Resolver

/-! ## Missing methods -/

/-- The name of the method that the enclosing loop is at, empty outside of method loops. -/
def methodName (r : Resolver) : String := r.context.method.elim "" (·.name)

/-- The receiver's type is not in the table, or has no method of the current name. -/
def LacksMethod (r : Resolver) (receiverType : TypeId) : Prop :=
  r.table.symbol? (r.unwrap receiverType) = none ∨
    ∃ s, r.table.symbol? (r.unwrap receiverType) = some s ∧ ∀ m ∈ s.methods, m.name ≠ r.methodName

/-- The error about a receiver that lacks the current method. -/
def methodError (r : Resolver) (receiverType : TypeId) (methodSpan : Span) : ResolveError :=
  .methodNotFound r.methodName (r.table.describe (r.unwrap receiverType)) r.instantiation.file
    ⟨methodSpan.start, methodSpan.stop - methodSpan.start⟩

/-- The expression is itself a spliced call, of a method that its receiver lacks. -/
inductive FailingCall (r : Resolver) : Expr → ResolveError → Prop where
  | intro {receiver : Expr} {receiverType : TypeId} {args : List Expr} {methodSpan s : Span}
      (h : r.LacksMethod receiverType) :
      FailingCall r (.spliceCall receiver receiverType args methodSpan s)
        (r.methodError receiverType methodSpan)

section

variable {r : Resolver} {err : ResolveError}

theorem spliceCallType_eq_error_iff {receiverType : TypeId} {methodSpan : Span} :
    r.spliceCallType receiverType methodSpan = .error err ↔
      r.LacksMethod receiverType ∧ err = r.methodError receiverType methodSpan := by
  have hlacks : (r.table.symbol? (r.unwrap receiverType)).bind (·.findMethod? r.methodName) = none ↔
      r.LacksMethod receiverType := by
    unfold LacksMethod Symbol.findMethod?
    cases r.table.symbol? (r.unwrap receiverType) <;> simp
  rw [← hlacks, spliceCallType]
  split
  next m hm =>
    constructor
    · intro h
      cases h
    · rintro ⟨hnone, -⟩
      cases hm.symm.trans hnone
  next hm =>
    constructor
    · intro h
      exact ⟨hm, (Except.error.inj h).symm⟩
    · rintro ⟨-, rfl⟩
      rfl

theorem failingCall_spliceCall_iff {receiver : Expr} {receiverType : TypeId} {args : List Expr}
    {methodSpan s : Span} :
    r.FailingCall (.spliceCall receiver receiverType args methodSpan s) err ↔
      r.LacksMethod receiverType ∧ err = r.methodError receiverType methodSpan := by
  constructor
  · rintro ⟨h⟩
    exact ⟨h, rfl⟩
  · rintro ⟨h, rfl⟩
    exact ⟨h⟩

theorem FailingCall.isStatic {e : Expr} (h : r.FailingCall e err) : isStatic e = true := by
  cases h
  rfl

/-- An expression that indexes a spliced call is not static. -/
theorem FailingCall.isStatic_index {e : Expr} (h : r.FailingCall e err) (i : Expr) (s : Span) :
    Resolver.isStatic (.index e i s) = false := by
  cases h
  rfl

/-- A failure gets out of a call, and through one index. A second index does not look at the type of
its object. -/
theorem getType_eq_error_iff : ∀ e : Expr, r.getType e = .error err ↔
    r.FailingCall e err ∨ ∃ object i s, e = .index object i s ∧ r.FailingCall object err
  | .spliceCall _ receiverType _ methodSpan _ => by
    rw [getType, spliceCallType_eq_error_iff, failingCall_spliceCall_iff]
    simp
  | .index object i s => by
    have ih := getType_eq_error_iff object
    rw [getType_index]
    constructor
    · intro h
      split at h
      next hstatic =>
        have hobject : r.getType object = .error err := by
          cases hty : r.getType object with
          | error e =>
            rw [hty] at h
            cases h
            rfl
          | ok ty =>
            rw [hty] at h
            cases h
        rcases ih.1 hobject with hcall | ⟨o, j, s', rfl, hcall⟩
        · exact .inr ⟨object, i, s, rfl, hcall⟩
        · rw [hcall.isStatic_index j s'] at hstatic
          cases hstatic
      next => cases h
    · rintro (hcall | ⟨o, j, s', heq, hcall⟩)
      · cases hcall
      · cases heq
        rw [if_pos hcall.isStatic, ih.2 (.inl hcall)]
        rfl
  | .ident .. | .spliceField .. | .selector .. | .int .. | .float .. | .bool .. | .string ..
  | .call .. | .group .. | .binary .. | .cast .. => by
    constructor
    · intro h
      cases h
    · rintro (hcall | ⟨_, _, _, heq, -⟩)
      · cases hcall
      · cases heq

theorem getStaticTypeD_eq_error_iff {default : TypeId} {e : Expr} :
    r.getStaticTypeD default e = .error err ↔ isStatic e = true ∧ r.getType e = .error err := by
  unfold getStaticTypeD
  cases isStatic e with
  | false => simp
  | true => cases r.getType e <;> simp [bind, Except.bind, pure, Except.pure]

end

/-- A resolution fails exactly for a spliced call of a missing method, or for an index directly on
one, and the error says which. -/
theorem getType_fails_iff (r : Resolver) (e : Expr) (err : ResolveError) :
    (r.getType e = .error err ↔
      r.FailingCall e err ∨ ∃ object i s, e = .index object i s ∧ r.FailingCall object err) ∧
    ∀ default, r.getStaticTypeD default e = .error err ↔ r.FailingCall e err := by
  refine ⟨getType_eq_error_iff e, fun default => ?_⟩
  rw [getStaticTypeD_eq_error_iff, getType_eq_error_iff]
  constructor
  · rintro ⟨hstatic, hcall | ⟨object, i, s, rfl, hcall⟩⟩
    · exact hcall
    · rw [hcall.isStatic_index i s] at hstatic
      cases hstatic
  · intro hcall
    exact ⟨hcall.isStatic, .inl hcall⟩

end Resolver

/-! ## The leftmost operand -/

namespace Expr

/-- What is left when parentheses are dropped and of arithmetic only the left operand is kept, as
often as there are any. -/
def leftmost : Expr → Expr
  | group inner _ => inner.leftmost
  | binary left op right s => if op.isArithmetic then left.leftmost else binary left op right s
  | e => e

theorem leftmost_leftmost : ∀ e : Expr, e.leftmost.leftmost = e.leftmost
  | group inner _ => leftmost_leftmost inner
  | binary left op right s => by
    by_cases h : op.isArithmetic = true
    · rw [leftmost, if_pos h, leftmost_leftmost left]
    · rw [leftmost, if_neg h, leftmost, if_neg h]
  | int .. | float .. | bool .. | string .. | ident .. | selector .. | spliceField ..
  | spliceCall .. | call .. | index .. | cast .. => rfl

/-- The expression with all right operands, indices, arguments and operands of casts left out. -/
def trunk : Expr → Expr
  | selector base field fieldSpan s => selector base.trunk field fieldSpan s
  | spliceField receiver ty field s => spliceField receiver.trunk ty field.trunk s
  | spliceCall receiver ty _ methodSpan s => spliceCall receiver.trunk ty [] methodSpan s
  | call name _ typeArgs s => call name [] typeArgs s
  | index object _ s => index object.trunk (bool false {}) s
  | group inner s => group inner.trunk s
  | binary left op _ s => binary left.trunk op (bool false {}) s
  | cast _ ty s => cast (bool false {}) ty s
  | e => e

theorem ident?_trunk (e : Expr) : e.trunk.ident? = e.ident? := by
  cases e <;> rfl

theorem leftmost_trunk : ∀ e : Expr, e.trunk.leftmost = e.leftmost.trunk
  | group inner _ => leftmost_trunk inner
  | binary left op _ _ => by
    rw [trunk, leftmost, leftmost]
    split
    · exact leftmost_trunk left
    · rfl
  | int .. | float .. | bool .. | string .. | ident .. | selector .. | spliceField ..
  | spliceCall .. | call .. | index .. | cast .. => rfl

end Expr

/-- The type, unless it is not known. -/
def TypeId.known? (ty : TypeId) : Option TypeId := if ty.isVoid then none else some ty

theorem TypeId.known?_ne_void (ty : TypeId) : ty.known? ≠ some .void := by
  unfold known?
  split
  next => exact nofun
  next h =>
    intro heq
    rw [Option.some.inj heq] at h
    exact h rfl

theorem TypeId.getD_known? (ty default : TypeId) :
    ty.known?.getD default = if ty.isVoid then default else ty := by
  unfold known?
  split <;> rfl

theorem TypeId.filter_some_eq_known? (ty : TypeId) :
    (some ty).filter (!·.isVoid) = ty.known? := by
  unfold known?
  cases h : ty.isVoid <;> simp [Option.filter, h]

namespace Resolver

variable {r : Resolver}

/-- The type of a variable as far as compile-time knowledge gives one. -/
def identType (r : Resolver) (x : Ident) : TypeId := x.binding.elim .void r.variableType

/-- The declared type of a field of a variable whose type is a generic struct. -/
def identFieldType? (r : Resolver) (field : String) (x : Ident) : Option TypeId := do
  let s ← r.table.finalSymbol? (r.unwrap (r.identType x))
  if s.isGenericStruct then (s.findField? field).bind (·.typ.known?) else none

/-- The type known of a compile-time variable or of a field of one, and of nothing else. -/
def knownType? (r : Resolver) : Expr → Option TypeId
  | .ident x _ => if x.isStatic then (r.identType x).known? else none
  | .selector base field _ _ => base.staticIdent?.bind (r.identFieldType? field)
  | _ => none

theorem identFieldType?_ne_void (field : String) (x : Ident) :
    r.identFieldType? field x ≠ some .void := by
  intro h
  obtain ⟨s, -, h⟩ := Option.bind_eq_some_iff.1 h
  split at h
  · obtain ⟨f, -, h⟩ := Option.bind_eq_some_iff.1 h
    exact f.typ.known?_ne_void h
  · cases h

theorem knownType?_ne_void (e : Expr) : r.knownType? e ≠ some .void := by
  cases e with
  | ident x s =>
    rw [knownType?]
    split
    · exact (r.identType x).known?_ne_void
    · exact nofun
  | selector base field fieldSpan s =>
    intro h
    obtain ⟨x, -, h⟩ := Option.bind_eq_some_iff.1 h
    exact identFieldType?_ne_void field x h
  | _ => exact nofun

theorem knownType?_trunk (e : Expr) : r.knownType? e.trunk = r.knownType? e := by
  cases e with
  | selector base field fieldSpan s =>
    rw [Expr.trunk, knownType?, knownType?, Expr.staticIdent?, Expr.ident?_trunk]
    rfl
  | _ => rfl

theorem genericFieldType?_eq (base : Expr) (field : String) :
    r.genericFieldType? base field = .ok (base.staticIdent?.bind (r.identFieldType? field)) := by
  unfold genericFieldType?
  rcases hx : base.staticIdent? with _ | x
  · rfl
  · have hty : r.getType base = .ok (r.identType x) := by
      cases base with
      | ident y s =>
        obtain ⟨rfl, -⟩ : y = x ∧ _ := by simpa [Expr.staticIdent?, Expr.ident?] using hx
        rfl
      | _ => cases hx
    rw [hty, Option.bind_some, identFieldType?]
    rcases hs : r.table.finalSymbol? (r.unwrap (r.identType x)) with _ | s
    · simp [bind, Except.bind, hs, pure, Except.pure]
    · have hfield : ((s.findField? field).map (·.typ)).filter (!·.isVoid) =
          (s.findField? field).bind (·.typ.known?) := by
        rcases s.findField? field with _ | f
        · rfl
        · exact f.typ.filter_some_eq_known?
      cases hg : s.isGenericStruct <;>
        simp [bind, Except.bind, hs, hg, hfield, pure, Except.pure]

theorem getTypeD_eq (default : TypeId) : ∀ e : Expr,
    r.getTypeD default e = .ok ((r.knownType? e.leftmost).getD default)
  | .ident x s => by
    show r.getTypeD default (.ident x s) =
      .ok ((if x.isStatic then (r.identType x).known? else none).getD default)
    rw [getTypeD]
    split
    · rw [TypeId.getD_known?]
      rfl
    · rfl
  | .selector base field fieldSpan s => by
    rw [getTypeD, genericFieldType?_eq]
    rfl
  | .group inner _ => getTypeD_eq default inner
  | .binary left op _ _ => by
    unfold getTypeD Expr.leftmost
    split
    · exact getTypeD_eq default left
    · rfl
  | .int .. | .float .. | .bool .. | .string .. | .spliceField .. | .spliceCall .. | .call ..
  | .index .. | .cast .. => rfl

/-- The resolution with a default answers the type known at the leftmost operand, and the default
where none is known. -/
theorem getTypeD_known (r : Resolver) (e : Expr) :
    ∃ known : Option TypeId, known ≠ some .void ∧
      (∀ default, r.getTypeD default e = .ok (known.getD default)) ∧
      (∀ default, r.getTypeD default e.leftmost = .ok (known.getD default)) ∧
      known = r.knownType? e.leftmost ∧
      ∀ e', e'.trunk = e.trunk → ∀ default, r.getTypeD default e' = .ok (known.getD default) := by
  refine ⟨_, knownType?_ne_void e.leftmost, fun default => getTypeD_eq default e, ?_, rfl, ?_⟩
  · intro default
    rw [getTypeD_eq, Expr.leftmost_leftmost]
  · intro e' htrunk default
    have hknown : r.knownType? e'.leftmost = r.knownType? e.leftmost := by
      rw [← knownType?_trunk, ← Expr.leftmost_trunk, htrunk, Expr.leftmost_trunk, knownType?_trunk]
    rw [getTypeD_eq, hknown]

/-- A spliced call outside of all method loops, on a type without methods. -/
def sampleCall : Expr := .mkSpliceCall (.ident { name := "x" } {}) .i32 [] {}

/-- `(x + right)` with `x` a parameter of type `i32`. -/
def sampleSum (right : Expr) : Expr :=
  .group (.binary (.ident (.ofVariable { name := "x", typ := .i32, kind := .genericParam }) {})
    .add right {}) {}

theorem getTypeD_known_sample :
    (∃ err, sampleResolver.getType sampleCall = .error err) ∧
    sampleResolver.getTypeD .string (sampleSum sampleCall) = .ok .i32 ∧
    (sampleSum (.int 1 {})).trunk = (sampleSum sampleCall).trunk ∧
    sampleResolver.getTypeD .string (sampleSum (.int 1 {})) = .ok .i32 := by
  obtain ⟨known, -, hanswer, -, hknown, hsame⟩ :=
    getTypeD_known sampleResolver (sampleSum sampleCall)
  obtain rfl : known = some .i32 := hknown.trans (by decide +kernel)
  exact ⟨⟨_, rfl⟩, hanswer _, rfl, hsame _ rfl _⟩

end Resolver

end Unroll
