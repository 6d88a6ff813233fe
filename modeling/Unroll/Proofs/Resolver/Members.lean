import Mathlib.Data.List.Forall2
import Mathlib.Data.List.Nodup
import Unroll.Proofs.Resolver.Coherence
import Unroll.Proofs.Resolver.Embeds

/-!
# Loops over the members of a receiver

A loop over the fields or the methods of a receiver is unrolled by entering it at one member after
another, asking for types inside, and leaving it (`visitEach`). Inside, a spliced member is looked
up by the name of the member that the loop is at. It is the first of that name among those that the
receiver's type declares itself, so no embedded struct is searched and no look-up fails. Fields are
those of the struct that the receiver's type finally names, and methods those of the type as it is,
which may be an alias. Where no two names are the same, the first of a name is the member itself
(`members_resolve`).
-/

namespace Unroll

/-! ## First of a name -/

section FirstNamed

variable {α : Type} {nameOf : α → String} {xs : List α} {name : String} {x y : α}

theorem FirstNamed.unique (hx : FirstNamed nameOf xs name x) (hy : FirstNamed nameOf xs name y) :
    x = y :=
  Option.some.inj ((firstNamed_iff.1 hx).symm.trans (firstNamed_iff.1 hy))

theorem FirstNamed.eq_of_nodup (h : FirstNamed nameOf xs (nameOf x) y) (hx : x ∈ xs)
    (hnames : (xs.map nameOf).Nodup) : y = x := by
  obtain ⟨before, after, rfl, hy, -⟩ := h
  exact List.inj_on_of_nodup_map hnames (by simp) hx hy

/-- Some member is the first of a member's name, and it is that member where no name is repeated. -/
theorem exists_firstNamed (nameOf : α → String) (hx : x ∈ xs) :
    ∃ y, FirstNamed nameOf xs (nameOf x) y ∧ ((xs.map nameOf).Nodup → y = x) := by
  have hsome : (xs.find? fun y => nameOf y == nameOf x).isSome = true := by
    rw [List.find?_isSome]
    exact ⟨x, hx, by simp⟩
  obtain ⟨y, hy⟩ := Option.isSome_iff_exists.1 hsome
  have hfirst : FirstNamed nameOf xs (nameOf x) y := firstNamed_iff.2 hy
  exact ⟨y, hfirst, hfirst.eq_of_nodup hx⟩

end FirstNamed

/-- The expression is `name.name`, however the first name is bound. -/
inductive Expr.IsNameOf (name : String) : Expr → Prop where
  | intro (x : Ident) (h : x.name = name) (identSpan fieldSpan span : Span) :
      IsNameOf name (.selector (.ident x identSpan) "name" fieldSpan span)

namespace Resolver

variable {r : Resolver} {ty : TypeId} {s : Symbol} {v : String}

/-! ## At one member -/

theorem spliceFieldDecl_of_firstNamed {decl : StructDecl} {f f' : Field}
    (hs : r.table.finalSymbol? (r.unwrap ty) = some s) (hdecl : s.kind = .struct decl)
    (hf : r.context.field = some f) (hfirst : FirstNamed Field.name decl.fields f.name f')
    (receiver : Expr) : r.spliceFieldDecl receiver ty = .ok f' := by
  have hfound : (r.table.finalSymbol? (r.unwrap ty)).bind
      (r.table.findField? · (r.context.field.elim "" (·.name))) = some f' := by
    rw [hs, hf]
    exact Table.findField?_of_own ⟨decl, hdecl, hfirst⟩
  rw [spliceFieldDecl, hfound]

theorem getType_spliceField_name {field : Expr} (hfield : field.IsNameOf v)
    (hv : r.context.fieldVar = some v) (receiver : Expr) (ty : TypeId) (span : Span) :
    r.getType (.spliceField receiver ty field span) = .ok (r.unwrap r.context.fieldType) := by
  obtain ⟨x, hx, identSpan, fieldSpan, nameSpan⟩ := hfield
  have hsel : r.context.isFieldSelector (.ident x identSpan) = true :=
    (r.context.isFieldSelector_eq_true_iff _).2 ⟨x, rfl, hx ▸ hv⟩
  rw [getType, spliceFieldType, if_pos hsel]

theorem getType_spliceCall_of_firstNamed {m m' : Method}
    (hs : r.table.symbol? (r.unwrap ty) = some s) (hm : r.context.method = some m)
    (hfirst : FirstNamed Method.name s.methods m.name m') (receiver : Expr) (args : List Expr)
    (methodSpan span : Span) :
    r.getType (.spliceCall receiver ty args methodSpan span) = .ok m'.returnType := by
  have hfound : (r.table.symbol? (r.unwrap ty)).bind
      (·.findMethod? (r.context.method.elim "" (·.name))) = some m' := by
    rw [hs, hm]
    exact firstNamed_iff.1 hfirst
  rw [getType, spliceCallType, hfound]

/-! ## One member after another -/

/-- Enters the iterations of a loop in turn and leaves them again, and collects what is answered
inside. -/
def visitEach {α : Type} (r : Resolver) (ask : Resolver → α) :
    List Loop → Except StackFault (List α × Resolver)
  | [] => .ok ([], r)
  | l :: ls => do
    let here ← r.withLoop l fun r => .ok (ask r, r)
    let rest ← here.2.visitEach ask ls
    return (here.1 :: rest.1, rest.2)

section VisitEach

variable {α β : Type} {ask : Resolver → α} {loopAt : β → Loop} {P : β → α → Prop} {xs : List β}

/-- An iteration in which nothing is changed leaves nothing but the loop id it has taken. -/
theorem withLoop_ask (r : Resolver) (l : Loop) :
    r.withLoop l (fun r => .ok (ask r, r)) = .ok (ask (r.enter l),
      { r with loopCounter := (Action.enter l).count r.loopCounter }) := rfl

theorem exists_visitEach
    (h : ∀ n, ∀ x ∈ xs, P x (ask ({ r with loopCounter := n }.enter (loopAt x)))) :
    ∃ answers, r.visitEach ask (xs.map loopAt) = .ok (answers,
        { r with loopCounter := counted (xs.map fun x => .enter (loopAt x)) r.loopCounter }) ∧
      List.Forall₂ P xs answers := by
  induction xs generalizing r with
  | nil => exact ⟨[], rfl, .nil⟩
  | cons x xs ih =>
    -- the counter is all that the first iteration leaves behind, and `h` holds at any counter
    obtain ⟨answers, hrun, hall⟩ :=
      ih (r := { r with loopCounter := (Action.enter (loopAt x)).count r.loopCounter })
        fun n y hy => h n y (List.mem_cons_of_mem _ hy)
    have hx : P x (ask (r.enter (loopAt x))) := h r.loopCounter x List.mem_cons_self
    refine ⟨ask (r.enter (loopAt x)) :: answers, ?_, .cons hx hall⟩
    rw [List.map_cons, visitEach, withLoop_ask]
    simp only [bind, Except.bind, hrun]
    rfl

end VisitEach

end Resolver

open Resolver

/-- In a loop over a receiver's members each spliced member is the first of its name, nothing fails,
and only ids are used up. -/
theorem members_resolve (r : Resolver) (v : String) (receiver : Expr) (ty : TypeId) :
    (∀ s decl, r.table.finalSymbol? (r.unwrap ty) = some s → s.kind = .struct decl →
      ∀ e eTy field span, field.IsNameOf v →
      ∃ answers, r.visitEach
          (fun r => (r.spliceFieldDecl receiver ty, r.getType (.spliceField e eTy field span)))
          (decl.fields.map (.field v)) =
          .ok (answers, { r with
            loopCounter := counted (decl.fields.map fun f => .enter (.field v f)) r.loopCounter }) ∧
        List.Forall₂ (fun f answer =>
          (∃ f', FirstNamed Field.name decl.fields f.name f' ∧
            ((decl.fields.map Field.name).Nodup → f' = f) ∧ answer.1 = .ok f') ∧
          answer.2 = .ok (r.unwrap f.typ)) decl.fields answers) ∧
    (∀ s, r.table.symbol? (r.unwrap ty) = some s →
      ∀ args methodSpan span,
      ∃ answers, r.visitEach
          (fun r => r.getType (.spliceCall receiver ty args methodSpan span))
          (s.methods.map (.method v)) =
          .ok (answers, { r with
            loopCounter := counted (s.methods.map fun m => .enter (.method v m)) r.loopCounter }) ∧
        List.Forall₂ (fun m answer =>
          ∃ m', FirstNamed Method.name s.methods m.name m' ∧
            ((s.methods.map Method.name).Nodup → m' = m) ∧ answer = .ok m'.returnType)
          s.methods answers) := by
  refine ⟨fun s decl hs hdecl e eTy field span hfield => ?_, fun s hs args methodSpan span => ?_⟩
  · refine exists_visitEach fun n f hf => ?_
    obtain ⟨f', hfirst, hself⟩ := exists_firstNamed Field.name hf
    let inside := { r with loopCounter := n }.enter (.field v f)
    have hin : inside.table.finalSymbol? (inside.unwrap ty) = some s := hs
    refine ⟨⟨f', hfirst, hself, ?_⟩, ?_⟩
    · exact spliceFieldDecl_of_firstNamed hin hdecl rfl hfirst receiver
    · exact getType_spliceField_name hfield rfl e eTy span
  · refine exists_visitEach fun n m hm => ?_
    obtain ⟨m', hfirst, hself⟩ := exists_firstNamed Method.name hm
    let inside := { r with loopCounter := n }.enter (.method v m)
    have hin : inside.table.symbol? (inside.unwrap ty) = some s := hs
    refine ⟨m', hfirst, hself, ?_⟩
    exact getType_spliceCall_of_firstNamed hin rfl hfirst receiver args methodSpan span

/-- A generic parameter. -/
def rowParam : TypeId := (TypeId.ofIndex 13).set .generic

/-- A struct that declares one name twice. -/
def rowDecl : StructDecl :=
  { fields := [{ name := "id", typ := .i32 }, { name := "next", typ := rowParam },
      { name := "id", typ := .bool }] }

/-- An alias of the struct, with methods of its own. -/
def rowAlias : Symbol :=
  { name := "Row", kind := .aliasOf (.ofIndex 14),
    methods := [{ name := "size", returnType := .u64 },
      { name := "next", returnType := rowParam }] }

/-- The parameter stands for the alias, and a field loop with the same variable is entered. -/
def rowResolver : Resolver :=
  { table := ⟨Table.initial.entries ++ #[⟨{ name := "T", kind := .genericParam }, .declared⟩,
      ⟨{ name := "Pair", kind := .struct rowDecl }, .declared⟩, ⟨rowAlias, .declared⟩]⟩
    instantiation := ({} : Instantiation).bind rowParam (.ofIndex 15) : Resolver }.enter
      (.field "v" { name := "outer" })

/-- The second field of the name `id` is looked up as the first one, and has its own type. -/
theorem members_resolve_row :
    ∃ r₁ r₂, rowResolver.visitEach (fun r => (r.spliceFieldDecl (.string "x" {}) rowParam,
        r.getType (.spliceField (.string "x" {}) rowParam
          (.selector (.ident { name := "v" } {}) "name" {} {}) {})))
        (rowDecl.fields.map (.field "v")) =
          .ok ([(.ok { name := "id", typ := .i32 }, .ok .i32),
            (.ok { name := "next", typ := rowParam }, .ok (.ofIndex 15)),
            (.ok { name := "id", typ := .i32 }, .ok .bool)], r₁) ∧
      r₁.context = rowResolver.context ∧ r₁.saved = rowResolver.saved ∧
      rowResolver.visitEach (fun r => r.getType (.spliceCall (.string "x" {}) rowParam [] {} {}))
        (rowAlias.methods.map (.method "v")) = .ok ([.ok .u64, .ok rowParam], r₂) ∧
      r₂.context = rowResolver.context ∧ r₂.saved = rowResolver.saved := by
  have hunwrap : rowResolver.unwrap rowParam = .ofIndex 15 := by decide +kernel
  have hi32 : rowResolver.unwrap .i32 = .i32 := by decide +kernel
  have hbool : rowResolver.unwrap .bool = .bool := by decide +kernel
  have hstruct : rowResolver.table.finalSymbol? (rowResolver.unwrap rowParam) =
      some { name := "Pair", kind := .struct rowDecl } := by decide +kernel
  have halias : rowResolver.table.symbol? (rowResolver.unwrap rowParam) = some rowAlias := by
    decide +kernel
  obtain ⟨hstructs, hmethods⟩ := members_resolve rowResolver "v" (.string "x" {}) rowParam
  obtain ⟨fields, hrun₁, hall₁⟩ := hstructs _ _ hstruct rfl (.string "x" {}) rowParam
    (.selector (.ident { name := "v" } {}) "name" {} {}) {} (.intro { name := "v" } rfl _ _ _)
  obtain ⟨calls, hrun₂, hall₂⟩ := hmethods _ halias [] {} {}
  have hid : FirstNamed Field.name rowDecl.fields "id" { name := "id", typ := .i32 } :=
    ⟨[], _, rfl, rfl, by simp⟩
  have hnext : FirstNamed Field.name rowDecl.fields "next" { name := "next", typ := rowParam } :=
    ⟨[_], _, rfl, rfl, by simp⟩
  have hfields : fields = [(.ok { name := "id", typ := .i32 }, .ok .i32),
      (.ok { name := "next", typ := rowParam }, .ok (.ofIndex 15)),
      (.ok { name := "id", typ := .i32 }, .ok .bool)] := by
    obtain _ | ⟨⟨⟨f₁, hf₁, -, hd₁⟩, ht₁⟩, hall₁⟩ := hall₁
    obtain _ | ⟨⟨⟨f₂, hf₂, -, hd₂⟩, ht₂⟩, hall₁⟩ := hall₁
    obtain _ | ⟨⟨⟨f₃, hf₃, -, hd₃⟩, ht₃⟩, _ | _⟩ := hall₁
    rw [hf₁.unique hid] at hd₁
    rw [hf₂.unique hnext] at hd₂
    rw [hf₃.unique hid] at hd₃
    simp [Prod.ext_iff, hd₁, ht₁, hd₂, ht₂, hd₃, ht₃, hunwrap, hi32, hbool]
  have hcalls : calls = [.ok .u64, .ok rowParam] := by
    obtain _ | ⟨⟨m₁, -, hm₁, hc₁⟩, _ | ⟨⟨m₂, -, hm₂, hc₂⟩, _ | _⟩⟩ := hall₂
    rw [hc₁, hc₂, hm₁ (by decide), hm₂ (by decide)]
  rw [hfields] at hrun₁
  rw [hcalls] at hrun₂
  exact ⟨_, _, hrun₁, rfl, rfl, hrun₂, rfl, rfl⟩

end Unroll
