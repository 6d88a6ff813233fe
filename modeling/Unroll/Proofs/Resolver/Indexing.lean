import Mathlib.Data.List.Induction
import Mathlib.Logic.Function.Iterate
import Unroll.Proofs.Resolver.Concrete

/-!
# Indexing again and again

`x[i₁]…[iₙ]` is resolved through its object, and an object counts as static if it is a compile-time
variable or indexes one directly. So the elements of a variable have a type, and their elements,
and nothing below them (`getType_indexed`).
-/

namespace Unroll

/-- `object[i₁]…[iₙ]`, with the source range of each step. -/
def Expr.indexed (object : Expr) (indices : List (Expr × Span)) : Expr :=
  indices.foldl (fun e i => .index e i.1 i.2) object

theorem Expr.indexed_concat (object : Expr) (indices : List (Expr × Span)) (i : Expr × Span) :
    object.indexed (indices ++ [i]) = .index (object.indexed indices) i.1 i.2 :=
  List.foldl_concat ..

namespace Resolver

/-- The type of the elements of a type, under the instantiation. -/
def elementType (r : Resolver) (ty : TypeId) : TypeId := r.table.valueType (r.unwrap ty)

section

variable {r : Resolver} {x : Ident} {s : Span}

theorem isSome_staticIdent?_indexed (hx : x.isStatic = true) (indices : List (Expr × Span)) :
    ((Expr.ident x s).indexed indices).staticIdent?.isSome = true ↔ indices = [] := by
  induction indices using List.reverseRecOn with
  | nil => simp [Expr.indexed, Expr.staticIdent?, Expr.ident?, hx]
  | append_singleton indices i _ =>
    rw [Expr.indexed_concat]
    simp [Expr.staticIdent?, Expr.ident?]

/-- The test for static expressions looks one index deep. -/
theorem isStatic_indexed (hx : x.isStatic = true) (indices : List (Expr × Span)) :
    isStatic ((Expr.ident x s).indexed indices) = true ↔ indices.length ≤ 1 := by
  induction indices using List.reverseRecOn with
  | nil => simpa [Expr.indexed, isStatic] using hx
  | append_singleton indices i _ =>
    rw [Expr.indexed_concat, isStatic, isSome_staticIdent?_indexed hx, List.length_append]
    simp

theorem getType_index_of_ok {object : Expr} {ty : TypeId} (h : r.getType object = .ok ty)
    (i : Expr) (span : Span) : r.getType (.index object i span) =
      .ok (if isStatic object then r.elementType ty else .void) := by
  rw [getType_index, h]
  split <;> rfl

theorem getType_indexed_eq (hx : x.isStatic = true) {ty : TypeId}
    (hty : r.getType (.ident x s) = .ok ty) (indices : List (Expr × Span)) :
    r.getType ((Expr.ident x s).indexed indices) =
      .ok (if indices.length ≤ 2 then r.elementType^[indices.length] ty else .void) := by
  -- The last index is the outermost node, so the induction is from the end of the list.
  induction indices using List.reverseRecOn with
  | nil => exact hty
  | append_singleton indices i ih =>
    rw [Expr.indexed_concat, getType_index_of_ok ih, List.length_append, List.length_singleton]
    congr 1
    by_cases hlen : indices.length ≤ 1
    · rw [if_pos ((isStatic_indexed hx indices).2 hlen), if_pos (by omega), if_pos (by omega),
        Function.iterate_succ_apply']
    · rw [if_neg (mt (isStatic_indexed hx indices).1 hlen), if_neg (by omega)]

end

/-- Indexing a compile-time variable always succeeds, and it is right for `n` indices exactly if `n
≤ 2` or the elements there have no type. -/
theorem getType_indexed (r : Resolver) (x : Ident) (s : Span) (hx : x.isStatic = true)
    (indices : List (Expr × Span)) :
    ∃ ty, r.getType (.ident x s) = .ok ty ∧
      r.getType ((Expr.ident x s).indexed indices) =
        .ok (if indices.length ≤ 2 then r.elementType^[indices.length] ty else .void) ∧
      (r.getType ((Expr.ident x s).indexed indices) = .ok (r.elementType^[indices.length] ty) ↔
        indices.length ≤ 2 ∨ r.elementType^[indices.length] ty = .void) := by
  refine ⟨_, rfl, getType_indexed_eq hx rfl indices, ?_⟩
  rw [getType_indexed_eq hx rfl indices, Except.ok.injEq]
  by_cases hlen : indices.length ≤ 2
  · rw [if_pos hlen]
    exact iff_of_true rfl (.inl hlen)
  · rw [if_neg hlen, or_iff_right hlen, eq_comm]

/-- The table with `[]string` and `[][]string`, and the latter's id. -/
def sampleGrid : TypeId × Table :=
  let row := Table.initial.intern (.array .string)
  row.2.intern (.array row.1)

def gridResolver : Resolver := { table := sampleGrid.2, instantiation := {} }

/-- A parameter of type `[][]string`. -/
def gridParam : Ident := .ofVariable { name := "x", typ := sampleGrid.1, kind := .genericParam }

/-- `x[0]…[0]` with `n` indices. -/
def gridCell (n : Nat) : Expr :=
  (Expr.ident gridParam {}).indexed (List.replicate n (.int 0 {}, {}))

theorem getType_indexed_sample :
    gridParam.isStatic = true ∧ gridResolver.getType (gridCell 2) = .ok .string := by
  refine ⟨rfl, ?_⟩
  obtain ⟨ty, hty, hget, -⟩ :=
    getType_indexed gridResolver gridParam {} rfl (List.replicate 2 (.int 0 {}, {}))
  obtain rfl : sampleGrid.1 = ty := Except.ok.inj hty
  exact hget.trans (congrArg Except.ok (by decide +kernel))

/-- A third index into `[][]string` is into a string, whose elements are bytes. -/
theorem getType_indexed_three_void :
    gridParam.isStatic = true ∧ gridResolver.getType (gridCell 0) = .ok sampleGrid.1 ∧
    gridResolver.elementType^[3] sampleGrid.1 = .u8 ∧
    gridResolver.getType (gridCell 3) = .ok .void ∧ TypeId.u8 ≠ .void := by
  refine ⟨rfl, rfl, by decide +kernel, rfl, by decide⟩

end Resolver

end Unroll
