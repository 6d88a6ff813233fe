import Unroll.Proofs.Resolver.LoopIds
import Unroll.Resolver.Typing

/-!
# Coherent contexts

The slots of a context are written together when a loop is entered, and a restore brings back a
context as it was saved. So as long as no context is edited by hand, the variable, the member and
the type of a field loop belong together in the active context and in every saved one, those of a
method loop do too, and a context is inside a loop exactly if it has a loop id (`Coherent.run`).
For the members of a field variable this means that those that are asked for as true or false are
the ones that have a value.
-/

namespace Unroll

/-- The slots of a loop over typed members are all empty, or the variable stands for a member and
the type is the member's. -/
def SlotsAgree {α : Type} (typeOf : α → TypeId) (var : Option String) (member : Option α)
    (ty : TypeId) : Prop :=
  (var = none ∧ member = none ∧ ty = .void) ∨
    ∃ v m, var = some v ∧ member = some m ∧ ty = typeOf m

theorem SlotsAgree.isSome_iff {α : Type} {typeOf : α → TypeId} {var : Option String}
    {member : Option α} {ty : TypeId} (h : SlotsAgree typeOf var member ty) :
    var.isSome = true ↔ member.isSome = true := by
  obtain ⟨rfl, rfl, -⟩ | ⟨v, m, rfl, rfl, -⟩ := h <;> simp

namespace Context

/-- What holds of a context that only loops have written. -/
structure Coherent (ctx : Context) : Prop where
  field : SlotsAgree Field.typ ctx.fieldVar ctx.field ctx.fieldType
  method : SlotsAgree Method.returnType ctx.methodVar ctx.method ctx.methodReturnType
  insideLoop : ctx.insideLoop = true ↔ ctx.loopId ≠ 0

theorem coherent_empty : ({} : Context).Coherent where
  field := .inl ⟨rfl, rfl, rfl⟩
  method := .inl ⟨rfl, rfl, rfl⟩
  insideLoop := by decide

/-- Whichever loop is entered, it writes its own slots together and leaves the others. -/
theorem Coherent.apply {ctx : Context} (h : ctx.Coherent) (l : Loop) {id : UInt32} (hid : id ≠ 0) :
    (l.apply id ctx).Coherent := by
  have hinside : (true = true) ↔ id ≠ 0 := iff_of_true rfl hid
  cases l with
  | field v f => exact ⟨.inr ⟨v, f, rfl, rfl, rfl⟩, h.method, hinside⟩
  | method v m => exact ⟨h.field, .inr ⟨v, m, rfl, rfl, rfl⟩, hinside⟩
  | variant | enumValue | attr | methodParam => exact ⟨h.field, h.method, hinside⟩

theorem isFieldSelector_eq_true_iff (ctx : Context) (base : Expr) :
    ctx.isFieldSelector base = true ↔ ∃ x, base.ident? = some x ∧ ctx.fieldVar = some x.name := by
  rw [isFieldSelector, Option.any_eq_true]
  simp

theorem isFieldProperty_eq_true_iff (ctx : Context) (base : Expr) (field : String) :
    ctx.isFieldProperty base field = true ↔
      ctx.isFieldSelector base = true ∧ field ∈ fieldProperties := by
  rw [isFieldProperty, Bool.and_eq_true, List.contains_iff_mem]

end Context

namespace Resolver

variable {r r' : Resolver} {a : Action} {w : List Action}

/-- The active context and every saved one are coherent. -/
def Coherent (r : Resolver) : Prop := ∀ ctx ∈ r.context :: r.saved, ctx.Coherent

/-- Anything but an edit of the context by hand. -/
def Action.IsGuarded : Action → Prop
  | editContext _ => False
  | _ => True

theorem IsFresh.coherent (h : r.IsFresh) : r.Coherent := by
  intro ctx hctx
  rw [h.context_eq, h.saved_eq, List.mem_singleton] at hctx
  rw [hctx]
  exact Context.coherent_empty

theorem nextLoopId_ne_zero (r : Resolver) : r.nextLoopId.1 ≠ 0 := by
  show (if r.loopCounter + 1 ≤ 1 then 1 else r.loopCounter + 1) ≠ 0
  split_ifs with h
  · decide
  · intro hzero
    rw [hzero] at h
    exact h (by decide)

theorem Coherent.push (h : r.Coherent) : r.push.Coherent := by
  intro ctx hctx
  rcases List.mem_cons.1 hctx with rfl | hctx
  · exact h _ List.mem_cons_self
  · exact h ctx hctx

theorem Coherent.enter (h : r.Coherent) (l : Loop) : (r.enter l).Coherent := by
  intro ctx hctx
  rcases List.mem_cons.1 hctx with rfl | hctx
  · exact (h _ List.mem_cons_self).apply l (nextLoopId_ne_zero r.push)
  · exact h ctx hctx

theorem Coherent.pop (h : r.Coherent) (hp : r.pop = .ok r') : r'.Coherent := by
  obtain ⟨context, saved, hs, rfl⟩ | rfl := pop_cases hp
  · intro ctx hctx
    apply h ctx
    rw [hs]
    exact List.mem_cons_of_mem _ hctx
  · exact h

/-- One action. -/
theorem Coherent.perform (h : r.Coherent) (ha : a.IsGuarded) (hp : a.perform r = .ok r') :
    r'.Coherent := by
  cases a with
  | push =>
    cases hp
    exact h.push
  | pop | leave => exact h.pop hp
  | enter l =>
    cases hp
    exact h.enter l
  | editContext f => cases ha
  | editTypeMap f =>
    cases hp
    exact h
  | nextLoopId =>
    cases hp
    exact h

/-- A whole run. -/
theorem Coherent.run (h : r.Coherent) (hw : ∀ a ∈ w, a.IsGuarded) (hr : r.run w = .ok r') :
    r'.Coherent := by
  induction w generalizing r with
  | nil =>
    cases hr
    exact h
  | cons a w ih =>
    obtain ⟨r₁, ha, hr⟩ := run_cons_eq_ok_iff.1 hr
    exact ih (h.perform (hw a List.mem_cons_self) ha)
      (fun b hb => hw b (List.mem_cons_of_mem _ hb)) hr

/-- The names with a value are those of the list, whatever the field. -/
theorem isSome_fieldProperty?_iff (r : Resolver) (name : String) :
    (r.fieldProperty? name).isSome = true ↔
      r.context.field.isSome = true ∧ name ∈ Context.fieldProperties := by
  unfold fieldProperty? Context.fieldProperties
  rcases r.context.field with _ | f
  · simp
  · dsimp only [Option.bind_some]
    split <;> simp_all

end Resolver

open Resolver

/-- Where no context is edited by hand, the active context and the saved ones are coherent, and a
member asked for as true or false has a value. -/
theorem contexts_coherent {r r' : Resolver} (h : r.IsFresh) {w : List Action}
    (hw : ∀ a ∈ w, a.IsGuarded) (hr : r.run w = .ok r') :
    (∀ ctx ∈ r'.context :: r'.saved, ctx.Coherent) ∧
    ∀ base field, r'.context.isFieldSelector base = true →
      (r'.context.isFieldProperty base field = true ↔ (r'.fieldProperty? field).isSome = true) := by
  have hcoherent : r'.Coherent := h.coherent.run hw hr
  refine ⟨hcoherent, fun base field hbase => ?_⟩
  obtain ⟨x, -, hvar⟩ := (r'.context.isFieldSelector_eq_true_iff base).1 hbase
  -- A field variable comes with its field, and only a field has properties.
  have hfield : r'.context.field.isSome = true := by
    rw [← (hcoherent _ List.mem_cons_self).field.isSome_iff, hvar]
    rfl
  rw [Context.isFieldProperty_eq_true_iff, isSome_fieldProperty?_iff, and_iff_right hbase,
    and_iff_right hfield]

/-- A context saved by hand, and in it a field loop inside a method loop. -/
def sampleNested : List Action :=
  [.push, .enter (.method "m" { name := "size", returnType := .u64 }),
    .enter (.field "f" { name := "a", typ := .i32 }), .editTypeMap (·.insert "f.typ" .bool),
    .nextLoopId]

/-- Inside both loops, and after they are left and one restore too many is ignored. -/
theorem contexts_coherent_sample :
    ∃ r₁ r₂, sampleResolver.run sampleNested = .ok r₁ ∧
      r₁.context.fieldType = .i32 ∧ r₁.context.methodReturnType = .u64 ∧
      (∀ ctx ∈ r₁.context :: r₁.saved, ctx.Coherent) ∧
      r₁.context.isFieldSelector (.ident { name := "f" } {}) = true ∧
      (r₁.context.isFieldProperty (.ident { name := "f" } {}) "is_enum" = true ↔
        (r₁.fieldProperty? "is_enum").isSome = true) ∧
      sampleResolver.run (sampleNested ++ [.leave, .leave, .pop, .pop]) = .ok r₂ ∧
      ∀ ctx ∈ r₂.context :: r₂.saved, ctx.Coherent := by
  have hguarded : ∀ a ∈ sampleNested ++ [.leave, .leave, .pop, .pop], a.IsGuarded := by
    simp [sampleNested, Action.IsGuarded]
  have h₁ := contexts_coherent isFresh_sample
    (fun a ha => hguarded a (List.mem_append_left _ ha)) rfl
  have h₂ := contexts_coherent isFresh_sample hguarded rfl
  exact ⟨_, _, rfl, rfl, rfl, h₁.1, rfl, h₁.2 _ _ rfl, rfl, h₂.1⟩

end Unroll
