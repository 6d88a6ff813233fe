import Unroll.Expr.Basic

/-!
# Ranges of built expressions

Leaves, field names and method names are read from source with ranges of their own; the range of any
other node is computed when the node is built. Whatever the ranges of the parts are, it begins where
the leftmost leaf begins (`Built.begins`) and ends with the farthest end (`Built.covers`). Where the
parts begin in the order in which they stand, it encloses the ranges of all nodes below
(`Built.encloses`), and what a diagnostic points at never reaches past the parts (`span_covers`).
-/

namespace Unroll

/-! ## Covering ranges -/

namespace Span

/-- The range begins with the first of the parts and ends with the farthest of their ends. -/
structure Covers (s : Span) (parts : List Span) : Prop where
  first : (parts.map (·.start)).head? = some s.start
  farthest : (parts.map (·.stop)).max? = some s.stop

/-- All of `t` lies between the start and the end of `s`. -/
def Encloses (s t : Span) : Prop := s.start ≤ t.start ∧ t.stop ≤ s.stop

variable {s t : Span} {l l' : List Span}

theorem covers_singleton (s : Span) : s.Covers [s] := ⟨rfl, rfl⟩

theorem Covers.through (h : s.Covers l) (h' : t.Covers l') : (s.through t).Covers (l ++ l') := by
  obtain ⟨hmem, hle⟩ := List.max?_eq_some_iff.1 h.farthest
  obtain ⟨hmem', hle'⟩ := List.max?_eq_some_iff.1 h'.farthest
  constructor
  · rw [List.map_append, List.head?_append, h.first, Option.some_or]
    rfl
  · rw [List.map_append, List.max?_eq_some_iff]
    constructor
    · -- The farther of the two ends is one of them.
      rw [List.mem_append]
      rcases Nat.le_total s.stop t.stop with hst | hst
      · right
        rwa [Span.through, Nat.max_eq_right hst]
      · left
        rwa [Span.through, Nat.max_eq_left hst]
    · intro b hb
      rcases List.mem_append.1 hb with hb | hb
      · exact Nat.le_trans (hle b hb) (Nat.le_max_left _ _)
      · exact Nat.le_trans (hle' b hb) (Nat.le_max_right _ _)

theorem Covers.stop_le (h : s.Covers l) (ht : t ∈ l) : t.stop ≤ s.stop :=
  (List.max?_eq_some_iff.1 h.farthest).2 _ (List.mem_map_of_mem ht)

theorem Covers.exists_stop (h : s.Covers l) : ∃ p ∈ l, p.stop = s.stop :=
  List.mem_map.1 (List.max?_eq_some_iff.1 h.farthest).1

theorem Covers.exists_start (h : s.Covers l) : ∃ p ∈ l, p.start = s.start :=
  List.mem_map.1 (List.mem_of_head? h.first)

/-- Parts that begin in order begin no earlier than the first of them. -/
theorem Covers.start_le (h : s.Covers l) (hl : l.Pairwise (·.start ≤ ·.start)) (ht : t ∈ l) :
    s.start ≤ t.start := by
  cases l with
  | nil => cases ht
  | cons p rest =>
    have hstart : p.start = s.start := Option.some.inj h.first
    rw [← hstart]
    rcases List.mem_cons.1 ht with rfl | ht
    · exact Nat.le_refl _
    · exact List.rel_of_pairwise_cons hl ht

/-- What covers some of the parts lies within what covers them all. -/
theorem Covers.encloses (h : s.Covers l) (h' : t.Covers l') (hsub : l' ⊆ l)
    (hl : l.Pairwise (·.start ≤ ·.start)) : s.Encloses t := by
  obtain ⟨p, hp, hstart⟩ := h'.exists_start
  obtain ⟨q, hq, hstop⟩ := h'.exists_stop
  constructor
  · rw [← hstart]
    exact h.start_le hl (hsub hp)
  · rw [← hstop]
    exact h.stop_le (hsub hq)

theorem offset_add_length (s : Span) :
    s.extent.offset + s.extent.length = max s.start s.stop := by
  simp only [extent, length]
  omega

end Span

/-! ## Building expressions -/

namespace Expr

/-- The nodes directly below a node, from left to right. The arguments of a call play no part in its
range. -/
def operands : Expr → List Expr
  | selector base _ _ _ => [base]
  | spliceField receiver _ field _ => [receiver, field]
  | spliceCall receiver _ args _ _ => receiver :: args
  | index object i _ => [object, i]
  | group inner _ => [inner]
  | binary left _ right _ => [left, right]
  | cast operand _ _ => [operand]
  | int .. | float .. | bool .. | string .. | ident .. | call .. => []

def IsLeaf (e : Expr) : Prop := e.operands = []

/-- Expressions that the constructors build over leaves. A spliced call is built before it has
arguments. -/
inductive Built : Expr → Prop where
  | leaf {e : Expr} (h : e.IsLeaf) : Built e
  | selector {base : Expr} (h : Built base) (field : String) (fieldSpan : Span) :
      Built (mkSelector base field fieldSpan)
  | spliceField {receiver field : Expr} (h : Built receiver) (ty : TypeId) (h' : Built field) :
      Built (mkSpliceField receiver ty field)
  | spliceCall {receiver : Expr} (h : Built receiver) (ty : TypeId) (methodSpan : Span) :
      Built (mkSpliceCall receiver ty [] methodSpan)
  | index {object i : Expr} (h : Built object) (h' : Built i) : Built (mkIndex object i)
  | group {inner : Expr} (h : Built inner) : Built (mkGroup inner)
  | binary {left right : Expr} (h : Built left) (op : BinaryOp) (h' : Built right) :
      Built (mkBinary left op right)
  | cast {operand : Expr} (h : Built operand) (ty : TypeId) : Built (mkCast operand ty)

/-- The leaf that stands farthest to the left. -/
def firstLeaf : Expr → Expr
  | selector base _ _ _ => base.firstLeaf
  | spliceField receiver _ _ _ => receiver.firstLeaf
  | spliceCall receiver _ _ _ _ => receiver.firstLeaf
  | index object _ _ => object.firstLeaf
  | group inner _ => inner.firstLeaf
  | binary left _ _ _ => left.firstLeaf
  | cast operand _ _ => operand.firstLeaf
  | e => e

mutual

/-- The ranges of all leaves, field names and method names, from left to right. -/
def parts : Expr → List Span
  | selector base _ fieldSpan _ => parts base ++ [fieldSpan]
  | spliceField receiver _ field _ => parts receiver ++ parts field
  | spliceCall receiver _ args methodSpan _ => parts receiver ++ (methodSpan :: partsList args)
  | index object i _ => parts object ++ parts i
  | group inner _ => parts inner
  | binary left _ right _ => parts left ++ parts right
  | cast operand _ _ => parts operand
  | int _ s | float _ s | bool _ s | string _ s | ident _ s | call _ _ _ s => [s]

def partsList : List Expr → List Span
  | [] => []
  | e :: es => parts e ++ partsList es

end

/-- The first expression is a node of the second one: the whole or a node below it. -/
inductive Occurs : Expr → Expr → Prop where
  | here (e : Expr) : Occurs e e
  | operand {d c e : Expr} (hc : c ∈ e.operands) (h : Occurs d c) : Occurs d e

section Built

variable {d c e : Expr}

theorem IsLeaf.parts_eq (h : e.IsLeaf) : e.parts = [e.span] := by
  cases e with
  | int | float | bool | string | ident | call => rfl
  | selector | spliceField | spliceCall | index | group | binary | cast => cases h

theorem IsLeaf.firstLeaf_eq (h : e.IsLeaf) : e.firstLeaf = e := by
  cases e with
  | int | float | bool | string | ident | call => rfl
  | selector | spliceField | spliceCall | index | group | binary | cast => cases h

/-- Each constructor covers the parts of its operands and the name it adds. -/
theorem Built.covers (h : e.Built) : e.span.Covers e.parts := by
  induction h with
  | leaf h =>
    rw [h.parts_eq]
    exact Span.covers_singleton _
  | selector _ _ fieldSpan ih => exact ih.through (Span.covers_singleton fieldSpan)
  | spliceField _ _ _ ih ih' => exact ih.through ih'
  | spliceCall _ _ methodSpan ih => exact ih.through (Span.covers_singleton methodSpan)
  | index _ _ ih ih' => exact ih.through ih'
  | group _ ih => exact ih
  | binary _ _ _ ih ih' => exact ih.through ih'
  | cast _ _ ih => exact ih

/-- Each constructor begins where its first operand begins. -/
theorem Built.begins (h : e.Built) :
    e.span.start = e.firstLeaf.span.start ∧ e.span.line = e.firstLeaf.span.line ∧
      e.span.column = e.firstLeaf.span.column := by
  induction h with
  | leaf h =>
    rw [h.firstLeaf_eq]
    exact ⟨rfl, rfl, rfl⟩
  | selector _ _ _ ih | spliceCall _ _ _ ih | group _ ih | cast _ _ ih => exact ih
  | spliceField _ _ _ ih _ | index _ _ ih _ | binary _ _ _ ih _ => exact ih

theorem operand_of_join {a b : Expr} (ha : a.Built) (hb : b.Built) (hc : c ∈ [a, b]) :
    c.Built ∧ c.parts ⊆ a.parts ++ b.parts := by
  obtain rfl | hc := List.mem_cons.1 hc
  · exact ⟨ha, List.subset_append_left _ _⟩
  · obtain rfl := List.mem_singleton.1 hc
    exact ⟨hb, List.subset_append_right _ _⟩

theorem operand_of_named {a : Expr} (ha : a.Built) (s : Span) (hc : c ∈ [a]) :
    c.Built ∧ c.parts ⊆ a.parts ++ [s] := by
  obtain rfl := List.mem_singleton.1 hc
  exact ⟨ha, List.subset_append_left _ _⟩

theorem Built.operand (h : e.Built) (hc : c ∈ e.operands) : c.Built ∧ c.parts ⊆ e.parts := by
  cases h with
  | leaf h =>
    rw [h] at hc
    cases hc
  | selector h _ fieldSpan => exact operand_of_named h fieldSpan hc
  | spliceField h _ h' => exact operand_of_join h h' hc
  | spliceCall h _ methodSpan => exact operand_of_named h methodSpan hc
  | index h h' => exact operand_of_join h h' hc
  | group h =>
    obtain rfl := List.mem_singleton.1 hc
    exact ⟨h, List.Subset.refl _⟩
  | binary h _ h' => exact operand_of_join h h' hc
  | cast h =>
    obtain rfl := List.mem_singleton.1 hc
    exact ⟨h, List.Subset.refl _⟩

theorem Built.occurs (h : e.Built) (hd : d.Occurs e) : d.Built ∧ d.parts ⊆ e.parts := by
  induction hd with
  | here => exact ⟨h, List.Subset.refl _⟩
  | operand hc _ ih =>
    obtain ⟨hb, hsub⟩ := h.operand hc
    obtain ⟨hd, hsub'⟩ := ih hb
    exact ⟨hd, List.Subset.trans hsub' hsub⟩

theorem Built.encloses (h : e.Built) (hd : d.Occurs e)
    (hord : e.parts.Pairwise (·.start ≤ ·.start)) : e.span.Encloses d.span := by
  obtain ⟨hb, hsub⟩ := h.occurs hd
  exact h.covers.encloses hb.covers hsub hord

end Built

/-- The range of a built expression runs from the leftmost leaf to the farthest end of a part, and no
diagnostic reaches past the parts. -/
theorem span_covers {e : Expr} (h : e.Built) :
    e.span.start = e.firstLeaf.span.start ∧ e.span.line = e.firstLeaf.span.line ∧
    e.span.column = e.firstLeaf.span.column ∧
    (e.parts.map (·.stop)).max? = some e.span.stop ∧
    (e.parts.Pairwise (·.start ≤ ·.start) →
      (∀ d : Expr, d.Occurs e → e.span.Encloses d.span) ∧ ∀ p ∈ e.parts, e.span.Encloses p) ∧
    ∀ d : Expr, d.Occurs e →
      d.span.extent.offset = d.span.start ∧
      d.span.extent.offset + d.span.extent.length = max d.span.start d.span.stop ∧
      ∀ bound, (∀ p ∈ e.parts, p.start < bound ∧ p.stop < bound) →
        d.span.extent.offset + d.span.extent.length < bound := by
  obtain ⟨hstart, hline, hcolumn⟩ := h.begins
  refine ⟨hstart, hline, hcolumn, h.covers.farthest, fun hord => ⟨?_, ?_⟩, fun d hd => ?_⟩
  · intro d hd
    exact h.encloses hd hord
  · intro p hp
    have hsub : [p] ⊆ e.parts := List.cons_subset.2 ⟨hp, List.nil_subset _⟩
    exact h.covers.encloses (Span.covers_singleton p) hsub hord
  · refine ⟨rfl, d.span.offset_add_length, fun bound hbound => ?_⟩
    obtain ⟨hb, hsub⟩ := h.occurs hd
    obtain ⟨p, hp, hstart⟩ := hb.covers.exists_start
    obtain ⟨q, hq, hstop⟩ := hb.covers.exists_stop
    have hlt := (hbound p (hsub hp)).1
    have hlt' := (hbound q (hsub hq)).2
    rw [d.span.offset_add_length]
    omega

/-- `a.b[i] + c`, where the range of `a` was read as reaching past the index. -/
def sampleChain : Expr :=
  mkBinary
    (mkIndex (mkSelector (ident { name := "a" } ⟨0, 9, 1, 1⟩) "b" ⟨2, 3, 1, 3⟩)
      (ident { name := "i" } ⟨4, 5, 1, 5⟩))
    .add (ident { name := "c" } ⟨9, 8, 1, 10⟩)

theorem built_sampleChain : sampleChain.Built := by
  have name : ∀ (x : Ident) (s : Span), (ident x s).Built := fun _ _ => .leaf rfl
  exact .binary (.index (.selector (name _ _) "b" ⟨2, 3, 1, 3⟩) (name _ _)) .add (name _ _)

/-- The end comes from the leftmost leaf, and the last one has its end before its start. -/
theorem span_covers_sampleChain :
    sampleChain.span.start = 0 ∧ sampleChain.span.line = 1 ∧ sampleChain.span.column = 1 ∧
    (sampleChain.parts.map (·.stop)).max? = some 9 ∧
    sampleChain.span.Encloses ⟨4, 5, 1, 5⟩ ∧ sampleChain.span.Encloses ⟨9, 8, 1, 10⟩ ∧
    sampleChain.span.extent.offset + sampleChain.span.extent.length < UInt64.size := by
  obtain ⟨hstart, hline, hcolumn, hstop, hencl, hext⟩ := span_covers built_sampleChain
  have hord : sampleChain.parts.Pairwise (·.start ≤ ·.start) := by decide
  refine ⟨hstart, hline, hcolumn, hstop, ?_, ?_, ?_⟩
  · have hi : Occurs (ident { name := "i" } ⟨4, 5, 1, 5⟩) sampleChain :=
      .operand List.mem_cons_self (.operand (List.mem_cons_of_mem _ List.mem_cons_self) (.here _))
    exact (hencl hord).1 _ hi
  · exact (hencl hord).2 _ (by decide)
  · exact (hext _ (.here _)).2.2 _ (by decide)

end Expr

end Unroll
