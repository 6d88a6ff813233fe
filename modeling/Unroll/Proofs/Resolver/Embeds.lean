import Mathlib.Tactic.SplitIfs
import Unroll.Proofs.Table.Growth
import Unroll.Resolver.Typing

/-!
# Fields of embedded structs

The embeds of a struct form levels: those it lists itself, those that the structs named by these
list, and so on, without end if there is a cycle. `FirstDeclared` says which field comes first level
by level and from left to right. The search keeps a queue and visits no index twice; `Searches` is
that search as it goes, and it ends (`searches_searchEmbeds`). What it skips was passed before, at
the same level or above it, so it finds what comes first in the unpruned levels
(`Searches.eq_some_iff`, `findField?_breadth_first`). So the declaration of a spliced field is
missing exactly if no struct reached from the receiver declares the name of the current field.
-/

namespace Unroll

/-! ## First answers -/

/-- `x` is what a sequence answers where it answers first. -/
def FirstAnswer {α : Type} (a : Nat → Option α) (x : α) : Prop :=
  ∃ d, a d = some x ∧ ∀ k < d, a k = none

section

variable {α : Type} {a b : Nat → Option α} {x : α}

theorem exists_firstAnswer_iff : (∃ x, FirstAnswer a x) ↔ ∃ d, a d ≠ none := by
  constructor
  · rintro ⟨x, d, hd, -⟩
    exact ⟨d, by simp [hd]⟩
  · rintro ⟨d, hd⟩
    induction d using Nat.strongRecOn with
    | ind d ih =>
      by_cases h : ∃ k, k < d ∧ a k ≠ none
      · obtain ⟨k, hk, hne⟩ := h
        exact ih k hk hne
      · obtain ⟨x, hx⟩ := Option.ne_none_iff_exists'.1 hd
        refine ⟨x, d, hx, fun k hk => ?_⟩
        by_contra hne
        exact h ⟨k, hk, hne⟩

/-- Two sequences read in turns answer the same when the first of them, silent at the start, is read
after the other. -/
theorem firstAnswer_or_shift (h : a 0 = none) :
    FirstAnswer (fun d => (a d).or (b d)) x ↔ FirstAnswer (fun d => (b d).or (a (d + 1))) x := by
  unfold FirstAnswer
  simp only [Option.or_eq_none_iff, Option.or_eq_some_iff]
  constructor
  · rintro ⟨d, hd, before⟩
    rcases hd with hd | ⟨hnone, hd⟩
    · cases d with
      | zero =>
        rw [h] at hd
        cases hd
      | succ d =>
        refine ⟨d, .inr ⟨(before d (Nat.lt_succ_self d)).2, hd⟩, fun k hk => ?_⟩
        exact ⟨(before k (by omega)).2, (before (k + 1) (by omega)).1⟩
    · refine ⟨d, .inl hd, fun k hk => ⟨(before k hk).2, ?_⟩⟩
      rcases Nat.lt_or_ge (k + 1) d with hlt | hge
      · exact (before (k + 1) hlt).1
      · obtain rfl : k + 1 = d := by omega
        exact hnone
  · rintro ⟨d, hd, before⟩
    have silent : ∀ k ≤ d, a k = none := by
      intro k hk
      cases k with
      | zero => exact h
      | succ k => exact (before k (by omega)).2
    rcases hd with hd | ⟨hnone, hd⟩
    · refine ⟨d, .inr ⟨silent d (Nat.le_refl d), hd⟩, fun k hk => ?_⟩
      exact ⟨silent k (by omega), (before k hk).1⟩
    · refine ⟨d + 1, .inl hd, fun k hk => ⟨silent k (by omega), ?_⟩⟩
      rcases Nat.lt_or_ge k d with hlt | hge
      · exact (before k hlt).1
      · obtain rfl : k = d := by omega
        exact hnone

/-- A sequence that never answers before another adds nothing to it. -/
theorem firstAnswer_or_of_silent (h : ∀ d, (∀ k ≤ d, b k = none) → a d = none) :
    FirstAnswer (fun d => (b d).or (a d)) x ↔ FirstAnswer b x := by
  unfold FirstAnswer
  simp only [Option.or_eq_none_iff, Option.or_eq_some_iff]
  constructor
  · rintro ⟨d, hd | ⟨hnone, hd⟩, before⟩
    · exact ⟨d, hd, fun k hk => (before k hk).1⟩
    · have hsilent : a d = none := by
        refine h d fun k hk => ?_
        rcases Nat.lt_or_ge k d with hlt | hge
        · exact (before k hlt).1
        · obtain rfl : k = d := by omega
          exact hnone
      rw [hsilent] at hd
      cases hd
  · rintro ⟨d, hd, before⟩
    refine ⟨d, .inl hd, fun k hk => ⟨before k hk, ?_⟩⟩
    exact h k fun j hj => before j (by omega)

end

/-! ## First of a name -/

/-- Nothing before `x` has the name that `x` has. -/
def FirstNamed {α : Type} (nameOf : α → String) (xs : List α) (name : String) (x : α) : Prop :=
  ∃ before after, xs = before ++ x :: after ∧ nameOf x = name ∧ ∀ y ∈ before, nameOf y ≠ name

theorem firstNamed_iff {α : Type} {nameOf : α → String} {xs : List α} {name : String} {x : α} :
    FirstNamed nameOf xs name x ↔ xs.find? (fun y => nameOf y == name) = some x := by
  rw [List.find?_eq_some_iff_append]
  constructor
  · rintro ⟨before, after, hxs, hx, hbefore⟩
    exact ⟨by simpa using hx, before, after, hxs, by simpa using hbefore⟩
  · rintro ⟨hx, before, after, hxs, hbefore⟩
    exact ⟨before, after, hxs, by simpa using hx, by simpa using hbefore⟩

namespace Symbol

variable {s : Symbol} {name : String} {f : Field}

/-- The symbol is a struct with a field of that name of its own. -/
def Declares (s : Symbol) (name : String) : Prop :=
  ∃ decl, s.kind = .struct decl ∧ ∃ f ∈ decl.fields, f.name = name

/-- The symbol is a struct, and `f` is the first field of that name of its own. -/
def DeclaresFirst (s : Symbol) (name : String) (f : Field) : Prop :=
  ∃ decl, s.kind = .struct decl ∧ FirstNamed Field.name decl.fields name f

theorem findField?_eq_none_iff : s.findField? name = none ↔ ¬ s.Declares name := by
  unfold findField? struct? Declares
  cases s.kind <;> simp

theorem findField?_eq_some_iff : s.findField? name = some f ↔ s.DeclaresFirst name f := by
  unfold findField? struct? DeclaresFirst
  simp only [firstNamed_iff]
  cases s.kind <;> simp

theorem Declares.exists_first (h : s.Declares name) : ∃ f, s.DeclaresFirst name f := by
  simp only [← findField?_eq_some_iff, ← Option.ne_none_iff_exists']
  exact fun hnone => findField?_eq_none_iff.1 hnone h

end Symbol

namespace Table

variable {t : Table} {name : String} {s u : Symbol} {ty x : TypeId} {f : Field}
  {p q queue : List TypeId} {seen unseen : List Nat} {answer : Option Field} {d : Nat}

/-! ## Levels -/

/-- The first field of that name declared by the struct that an id finally names. -/
def ownField? (t : Table) (name : String) (ty : TypeId) : Option Field :=
  (t.finalSymbol? ty).bind (·.findField? name)

/-- The embeds of the struct that an id finally names, in order. -/
def embedsOf (t : Table) (ty : TypeId) : List TypeId := (t.finalSymbol? ty).elim [] (·.embeds)

/-- The ids `d` embeddings below `embeds`, from left to right. -/
def embedLevel (t : Table) (embeds : List TypeId) : Nat → List TypeId
  | 0 => embeds
  | d + 1 => (t.embedLevel embeds d).flatMap t.embedsOf

/-- The id finally names a struct with a field of that name of its own. -/
def NamesDeclaring (t : Table) (name : String) (ty : TypeId) : Prop :=
  ∃ s, t.finalSymbol? ty = some s ∧ s.Declares name

/-- On the lowest level with a struct that declares the name, `f` is the first such field of the
leftmost one. -/
def FirstDeclared (t : Table) (name : String) (embeds : List TypeId) (f : Field) : Prop :=
  ∃ d before ty after s, t.embedLevel embeds d = before ++ ty :: after ∧
    t.finalSymbol? ty = some s ∧ s.DeclaresFirst name f ∧
    (∀ x ∈ before, ¬ t.NamesDeclaring name x) ∧
    ∀ k < d, ∀ x ∈ t.embedLevel embeds k, ¬ t.NamesDeclaring name x

/-- The field of that name of the leftmost struct of a level that declares one. -/
def levelField? (t : Table) (name : String) (embeds : List TypeId) (d : Nat) : Option Field :=
  (t.embedLevel embeds d).findSome? (t.ownField? name)

theorem index_unaliasWithin_congr {n : Nat} (h : ty.index = x.index) :
    (t.unaliasWithin n ty).index = (t.unaliasWithin n x).index := by
  induction n generalizing ty x with
  | zero => exact h
  | succ n ih =>
    unfold unaliasWithin
    rw [kind?_congr h]
    split
    · apply ih
      simp
    · exact h

/-- Flags play no part in which symbol an id finally names. -/
theorem finalSymbol?_congr (h : ty.index = x.index) : t.finalSymbol? ty = t.finalSymbol? x := by
  unfold finalSymbol? symbol? unalias
  rw [index_unaliasWithin_congr h]

theorem ownField?_congr (h : ty.index = x.index) : t.ownField? name ty = t.ownField? name x := by
  unfold ownField?
  rw [finalSymbol?_congr h]

theorem embedsOf_congr (h : ty.index = x.index) : t.embedsOf ty = t.embedsOf x := by
  unfold embedsOf
  rw [finalSymbol?_congr h]

theorem embedLevel_append (t : Table) (p q : List TypeId) (d : Nat) :
    t.embedLevel (p ++ q) d = t.embedLevel p d ++ t.embedLevel q d := by
  induction d with
  | zero => rfl
  | succ d ih => rw [embedLevel, ih, List.flatMap_append, embedLevel, embedLevel]

theorem embedLevel_singleton_succ (t : Table) (ty : TypeId) (d : Nat) :
    t.embedLevel [ty] (d + 1) = t.embedLevel (t.embedsOf ty) d := by
  induction d with
  | zero => simp [embedLevel]
  | succ d ih => rw [embedLevel, ih, embedLevel]

theorem levelField?_append (t : Table) (name : String) (p q : List TypeId) (d : Nat) :
    t.levelField? name (p ++ q) d = (t.levelField? name p d).or (t.levelField? name q d) := by
  unfold levelField?
  rw [embedLevel_append, List.findSome?_append]

theorem ownField?_eq_none_iff : t.ownField? name ty = none ↔ ¬ t.NamesDeclaring name ty := by
  unfold ownField? NamesDeclaring
  simp [Option.bind_eq_none_iff, Symbol.findField?_eq_none_iff]

theorem ownField?_eq_some_iff : t.ownField? name ty = some f ↔
    ∃ s, t.finalSymbol? ty = some s ∧ s.DeclaresFirst name f := by
  unfold ownField?
  simp [Option.bind_eq_some_iff, Symbol.findField?_eq_some_iff]

theorem levelField?_eq_none_iff :
    t.levelField? name p d = none ↔ ∀ ty ∈ t.embedLevel p d, t.ownField? name ty = none :=
  List.findSome?_eq_none_iff

/-- What is declared first is what the levels, searched one after another, answer first. -/
theorem firstDeclared_iff : t.FirstDeclared name p f ↔ FirstAnswer (t.levelField? name p) f := by
  unfold FirstDeclared FirstAnswer
  refine exists_congr fun d => ?_
  simp only [levelField?_eq_none_iff]
  rw [levelField?, List.findSome?_eq_some_iff]
  simp only [ownField?_eq_none_iff, ownField?_eq_some_iff]
  constructor
  · rintro ⟨before, ty, after, s, hlevel, hs, hf, hbefore, hlower⟩
    exact ⟨⟨before, ty, after, hlevel, ⟨s, hs, hf⟩, hbefore⟩, hlower⟩
  · rintro ⟨⟨before, ty, after, hlevel, ⟨s, hs, hf⟩, hbefore⟩, hlower⟩
    exact ⟨before, ty, after, s, hlevel, hs, hf, hbefore, hlower⟩

/-! ## The first field along a queue -/

theorem firstDeclared_cons_of_some (h : t.ownField? name ty = some f) (q : List TypeId)
    (g : Field) : t.FirstDeclared name (ty :: q) g ↔ g = f := by
  have hzero : t.levelField? name (ty :: q) 0 = some f := by
    show List.findSome? _ (ty :: q) = _
    rw [List.findSome?_cons, h]
  rw [firstDeclared_iff]
  constructor
  · rintro ⟨d, hd, before⟩
    cases d with
    | zero => exact Option.some.inj (hd.symm.trans hzero)
    | succ d => cases hzero.symm.trans (before 0 (Nat.zero_lt_succ d))
  · rintro rfl
    exact ⟨0, hzero, fun k hk => absurd hk (Nat.not_lt_zero k)⟩

/-- An id that declares nothing may give its place to its embeds at the end of the queue. -/
theorem firstDeclared_cons_of_none (h : t.ownField? name ty = none) (q : List TypeId) (f : Field) :
    t.FirstDeclared name (ty :: q) f ↔ t.FirstDeclared name (q ++ t.embedsOf ty) f := by
  have hzero : t.levelField? name [ty] 0 = none := by
    rw [levelField?_eq_none_iff]
    exact fun x hx => by rwa [List.mem_singleton.1 hx]
  have hcons : t.levelField? name (ty :: q) =
      fun d => (t.levelField? name [ty] d).or (t.levelField? name q d) :=
    funext (t.levelField?_append name [ty] q)
  have hqueue : t.levelField? name (q ++ t.embedsOf ty) =
      fun d => (t.levelField? name q d).or (t.levelField? name [ty] (d + 1)) := by
    funext d
    rw [levelField?_append]
    unfold levelField?
    rw [embedLevel_singleton_succ]
  rw [firstDeclared_iff, firstDeclared_iff, hcons, hqueue]
  exact firstAnswer_or_shift hzero

/-! ## What has been visited -/

/-- The index was visited or is waiting in the queue. -/
def Covered (seen : List Nat) (queue : List TypeId) (ty : TypeId) : Prop :=
  ty.index ∈ seen ∨ ∃ x ∈ queue, x.index = ty.index

/-- What was visited declares nothing, and what it embeds was visited or is waiting. -/
structure Passed (t : Table) (name : String) (seen : List Nat) (queue : List TypeId) : Prop where
  silent : ∀ ty, ty.index ∈ seen → t.ownField? name ty = none
  covered : ∀ ty, ty.index ∈ seen → ∀ e ∈ t.embedsOf ty, Covered seen queue e

theorem passed_nil (t : Table) (name : String) (queue : List TypeId) :
    t.Passed name [] queue := by
  constructor <;> intro ty hty <;> cases hty

theorem Passed.skip (h : t.Passed name seen (ty :: queue)) (hty : ty.index ∈ seen) :
    t.Passed name seen queue := by
  refine ⟨h.silent, fun y hy e he => ?_⟩
  rcases h.covered y hy e he with hseen | ⟨x, hx, heq⟩
  · exact .inl hseen
  · rcases List.mem_cons.1 hx with rfl | hx
    · exact .inl (heq ▸ hty)
    · exact .inr ⟨x, hx, heq⟩

theorem Passed.visit (h : t.Passed name seen (ty :: queue)) (hf : t.ownField? name ty = none) :
    t.Passed name (ty.index :: seen) (queue ++ t.embedsOf ty) := by
  constructor
  · intro y hy
    rcases List.mem_cons.1 hy with hy | hy
    · rw [ownField?_congr hy, hf]
    · exact h.silent y hy
  · intro y hy e he
    rcases List.mem_cons.1 hy with hy | hy
    · rw [embedsOf_congr hy] at he
      exact .inr ⟨e, List.mem_append_right _ he, rfl⟩
    · rcases h.covered y hy e he with hseen | ⟨x, hx, heq⟩
      · exact .inl (List.mem_cons_of_mem _ hseen)
      · rcases List.mem_cons.1 hx with rfl | hx
        · exact .inl (heq ▸ List.mem_cons_self)
        · exact .inr ⟨x, List.mem_append_left _ hx, heq⟩

/-- Whatever lies below ids that are covered was visited or lies below the queue, and there at the
same level or above it. -/
theorem Passed.exists_level (h : t.Passed name seen q) (hp : ∀ e ∈ p, Covered seen q e) :
    ∀ e ∈ t.embedLevel p d,
      e.index ∈ seen ∨ ∃ k ≤ d, ∃ x ∈ t.embedLevel q k, x.index = e.index := by
  have queued : ∀ {e}, Covered seen q e →
      e.index ∈ seen ∨ ∃ k ≤ 0, ∃ x ∈ t.embedLevel q k, x.index = e.index := by
    rintro e (hseen | hx)
    · exact .inl hseen
    · exact .inr ⟨0, Nat.le_refl 0, hx⟩
  induction d with
  | zero => exact fun e he => queued (hp e he)
  | succ d ih =>
    intro e he
    obtain ⟨y, hy, hey⟩ := List.mem_flatMap.1 he
    rcases ih y hy with hseen | ⟨k, hk, x, hx, heq⟩
    -- Below a visited id one gets no further down than to the queue itself.
    · rcases queued (h.covered y hseen e hey) with hseen | ⟨k, hk, hx⟩
      · exact .inl hseen
      · exact .inr ⟨k, by omega, hx⟩
    · rw [← embedsOf_congr heq] at hey
      exact .inr ⟨k + 1, by omega, e, List.mem_flatMap.2 ⟨x, hx, hey⟩, rfl⟩

theorem Passed.levelField?_eq_none (h : t.Passed name seen q) (hp : ∀ e ∈ p, Covered seen q e)
    (hq : ∀ k ≤ d, t.levelField? name q k = none) : t.levelField? name p d = none := by
  rw [levelField?_eq_none_iff]
  intro e he
  rcases h.exists_level hp e he with hseen | ⟨k, hk, x, hx, heq⟩
  · exact h.silent e hseen
  · rw [← ownField?_congr heq]
    exact levelField?_eq_none_iff.1 (hq k hk) x hx

/-- Ids that are covered add nothing behind the queue. -/
theorem Passed.firstDeclared_append (h : t.Passed name seen q)
    (hp : ∀ e ∈ p, Covered seen q e) (f : Field) :
    t.FirstDeclared name (q ++ p) f ↔ t.FirstDeclared name q f := by
  rw [firstDeclared_iff, firstDeclared_iff, funext (t.levelField?_append name q p)]
  exact firstAnswer_or_of_silent fun d hq => h.levelField?_eq_none hp hq

theorem Passed.firstDeclared_skip (h : t.Passed name seen (ty :: queue)) (hty : ty.index ∈ seen)
    (f : Field) : t.FirstDeclared name (ty :: queue) f ↔ t.FirstDeclared name queue f := by
  have hrest := h.skip hty
  rw [firstDeclared_cons_of_none (h.silent ty hty), hrest.firstDeclared_append]
  exact hrest.covered ty hty

/-! ## The search -/

/-- With the indices in `seen` visited, the search through the queue ends with this answer. -/
inductive Searches (t : Table) (name : String) :
    List Nat → List TypeId → Option Field → Prop where
  | empty {seen : List Nat} : Searches t name seen [] none
  | skip {seen : List Nat} {ty : TypeId} {queue : List TypeId} {answer : Option Field}
      (h : ty.index ∈ seen) (rest : Searches t name seen queue answer) :
      Searches t name seen (ty :: queue) answer
  | found {seen : List Nat} {ty : TypeId} {queue : List TypeId} {f : Field}
      (h : ty.index ∉ seen) (hf : t.ownField? name ty = some f) :
      Searches t name seen (ty :: queue) (some f)
  | visit {seen : List Nat} {ty : TypeId} {queue : List TypeId} {answer : Option Field}
      (h : ty.index ∉ seen) (hf : t.ownField? name ty = none)
      (rest : Searches t name (ty.index :: seen) (queue ++ t.embedsOf ty) answer) :
      Searches t name seen (ty :: queue) answer

/-- The search finds what comes first along the queue. -/
theorem Searches.eq_some_iff (h : t.Searches name seen queue answer)
    (hp : t.Passed name seen queue) (f : Field) :
    answer = some f ↔ t.FirstDeclared name queue f := by
  -- Along the run `Passed` holds, and each step keeps what comes first.
  induction h with
  | empty =>
    refine ⟨nofun, ?_⟩
    rintro ⟨d, before, ty, after, s, hlevel, -⟩
    have hnone : ∀ d, t.embedLevel [] d = [] := by
      intro d
      induction d with
      | zero => rfl
      | succ d ih => rw [embedLevel, ih, List.flatMap_nil]
    rw [hnone] at hlevel
    simp at hlevel
  | skip hty rest ih => rw [hp.firstDeclared_skip hty, ih (hp.skip hty)]
  | found hty hf =>
    rw [firstDeclared_cons_of_some hf, Option.some.injEq, eq_comm]
  | visit hty hf rest ih => rw [firstDeclared_cons_of_none hf, ih (hp.visit hf)]

theorem mem_embedIndices_iff {i : Nat} : i ∈ t.embedIndices queue ↔
    i ∈ queue.map (·.index) ∨ i ∈ (t.entries.toList.flatMap (·.symbol.embeds)).map (·.index) := by
  unfold embedIndices
  rw [List.map_append, List.mem_append]

theorem mem_embedIndices_cons {i : Nat} (h : i ∈ t.embedIndices queue) :
    i ∈ t.embedIndices (ty :: queue) :=
  List.mem_cons_of_mem _ h

/-- What an id embeds is listed in the table. -/
theorem mem_embedIndices_append_embedsOf {i : Nat}
    (h : i ∈ t.embedIndices (queue ++ t.embedsOf ty)) : i ∈ t.embedIndices (ty :: queue) := by
  rw [mem_embedIndices_iff, List.map_append, List.mem_append] at h
  rcases h with (h | h) | h
  · exact mem_embedIndices_cons (mem_embedIndices_iff.2 (.inl h))
  · obtain ⟨e, he, rfl⟩ := List.mem_map.1 h
    unfold embedsOf finalSymbol? symbol? at he
    rcases hentry : t.entries[(t.unalias ty).index]? with _ | entry
    · rw [hentry] at he
      cases he
    · rw [hentry] at he
      have hmem : entry ∈ t.entries.toList :=
        Array.mem_toList_iff.2 (Array.mem_of_getElem? hentry)
      refine mem_embedIndices_iff.2 (.inr (List.mem_map_of_mem ?_))
      exact List.mem_flatMap.2 ⟨entry, hmem, he⟩
  · exact mem_embedIndices_cons (mem_embedIndices_iff.2 (.inr h))

/-- Each index that the search can still meet was visited or is among those left. -/
def Tracks (t : Table) (seen unseen : List Nat) (queue : List TypeId) : Prop :=
  ∀ i ∈ t.embedIndices queue, i ∈ seen ↔ i ∉ unseen

theorem Tracks.head (h : t.Tracks seen unseen (ty :: queue)) :
    ty.index ∈ seen ↔ ty.index ∉ unseen :=
  h _ (mem_embedIndices_iff.2 (.inl List.mem_cons_self))

theorem Tracks.skip (h : t.Tracks seen unseen (ty :: queue)) : t.Tracks seen unseen queue :=
  fun i hi => h i (mem_embedIndices_cons hi)

theorem Tracks.visit (h : t.Tracks seen unseen (ty :: queue)) :
    t.Tracks (ty.index :: seen) (unseen.filter (· != ty.index)) (queue ++ t.embedsOf ty) := by
  intro i hi
  have hiff := h i (mem_embedIndices_append_embedsOf hi)
  by_cases heq : i = ty.index <;> simp [heq, hiff]

/-- The search ends, since each visit takes an index from those left. -/
theorem searches_searchEmbeds (h : t.Tracks seen unseen queue) :
    t.Searches name seen queue (t.searchEmbeds name unseen queue) := by
  fun_induction searchEmbeds t name unseen queue generalizing seen with
  | case1 => exact .empty
  | case2 unseen ty queue hty _ hs ih =>
    have hnone : t.embedsOf ty = [] := by simp [embedsOf, hs]
    refine .visit (fun hseen => h.head.1 hseen hty) (by simp [ownField?, hs]) ?_
    have hvisit := h.visit
    rw [hnone, List.append_nil] at hvisit ⊢
    simp only [List.unattach_filter, List.unattach_attach] at ih ⊢
    exact ih hvisit
  | case3 unseen ty queue hty _ s hs f hf =>
    exact .found (fun hseen => h.head.1 hseen hty) (by simp [ownField?, hs, hf])
  | case4 unseen ty queue hty _ s hs hf ih =>
    have hembeds : t.embedsOf ty = s.embeds := by simp [embedsOf, hs]
    refine .visit (fun hseen => h.head.1 hseen hty) (by simp [ownField?, hs, hf]) ?_
    have hvisit := h.visit
    rw [hembeds] at hvisit ⊢
    simp only [List.unattach_filter, List.unattach_attach] at ih ⊢
    exact ih hvisit
  | case5 unseen ty queue hty ih => exact .skip (h.head.2 hty) (ih h.skip)

/-! ## Fields found -/

/-- `u` is `s` or a struct embedded in one that `s` reaches. -/
inductive EmbedReaches (t : Table) (s : Symbol) : Symbol → Prop where
  | self : EmbedReaches t s s
  | embed {u v : Symbol} {ty : TypeId} (h : EmbedReaches t s u) (he : ty ∈ u.embeds)
      (hv : t.finalSymbol? ty = some v) : EmbedReaches t s v

theorem embedReaches_iff : t.EmbedReaches s u ↔
    u = s ∨ ∃ d, ∃ ty ∈ t.embedLevel s.embeds d, t.finalSymbol? ty = some u := by
  constructor
  · intro h
    induction h with
    | self => exact .inl rfl
    | embed _ he hv ih =>
      refine .inr ?_
      rcases ih with rfl | ⟨d, y, hy, hu⟩
      · exact ⟨0, _, he, hv⟩
      · refine ⟨d + 1, _, List.mem_flatMap.2 ⟨y, hy, ?_⟩, hv⟩
        simpa [embedsOf, hu] using he
  · rintro (rfl | ⟨d, ty, hty, hu⟩)
    · exact .self
    · induction d generalizing ty u with
      | zero => exact .embed .self hty hu
      | succ d ih =>
        obtain ⟨y, hy, hty⟩ := List.mem_flatMap.1 hty
        rcases hv : t.finalSymbol? y with _ | v
        · simp [embedsOf, hv] at hty
        · exact .embed (ih y hy hv) (by simpa [embedsOf, hv] using hty) hu

theorem searches_embeds (t : Table) (name : String) (s : Symbol) :
    t.Searches name [] s.embeds (t.searchEmbeds name (t.embedIndices s.embeds) s.embeds) := by
  apply searches_searchEmbeds
  intro i hi
  simp [hi]

/-- A struct's own field hides those of the structs it embeds. -/
theorem findField?_of_own (h : s.DeclaresFirst name f) : t.findField? s name = some f := by
  rw [findField?, Symbol.findField?_eq_some_iff.2 h]
  rfl

theorem findField?_of_not_declares (h : ¬ s.Declares name) (f : Field) :
    t.findField? s name = some f ↔ t.FirstDeclared name s.embeds f := by
  unfold findField?
  rw [Symbol.findField?_eq_none_iff.2 h]
  exact (searches_embeds t name s).eq_some_iff (passed_nil t name s.embeds) f

theorem findField?_eq_none_iff : t.findField? s name = none ↔
    ¬ s.Declares name ∧ ∀ d, ∀ ty ∈ t.embedLevel s.embeds d, ¬ t.NamesDeclaring name ty := by
  simp only [← ownField?_eq_none_iff, ← levelField?_eq_none_iff]
  by_cases h : s.Declares name
  · obtain ⟨f, hf⟩ := h.exists_first
    simp [h, findField?_of_own hf]
  · have hfirst : (∃ f, t.findField? s name = some f) ↔
        ∃ d, t.levelField? name s.embeds d ≠ none := by
      simp only [findField?_of_not_declares h, firstDeclared_iff]
      exact exists_firstAnswer_iff
    rw [Option.eq_none_iff_forall_ne_some]
    simpa [h] using not_congr hfirst

theorem findField?_eq_none_iff_reaches :
    t.findField? s name = none ↔ ∀ u, t.EmbedReaches s u → ¬ u.Declares name := by
  rw [findField?_eq_none_iff]
  simp only [embedReaches_iff]
  constructor
  · rintro ⟨hs, hlevels⟩ u (rfl | ⟨d, ty, hty, hu⟩)
    · exact hs
    · exact fun hdecl => hlevels d ty hty ⟨u, hu, hdecl⟩
  · intro h
    refine ⟨h s (.inl rfl), ?_⟩
    rintro d ty hty ⟨u, hu, hdecl⟩
    exact h u (.inr ⟨d, ty, hty, hu⟩) hdecl

end Table

/-- The search finds the symbol's own first field of the name, or else what is `FirstDeclared` among
its embeds, and always ends. -/
theorem findField?_breadth_first :
    (∀ (t : Table) (s : Symbol) (name : String),
      (∃ answer, t.Searches name [] s.embeds answer ∧
        t.findField? s name = (s.findField? name <|> answer)) ∧
      (∀ decl f, s.kind = .struct decl → FirstNamed Field.name decl.fields name f →
        t.findField? s name = some f) ∧
      (¬ s.Declares name →
        ∀ f, t.findField? s name = some f ↔ t.FirstDeclared name s.embeds f) ∧
      (t.findField? s name = none ↔ ¬ s.Declares name ∧
        ∀ d, ∀ ty ∈ t.embedLevel s.embeds d, ¬ t.NamesDeclaring name ty)) ∧
    ∀ (r : Resolver) (receiver : Expr) (receiverType : TypeId) (err : ResolveError),
      r.spliceFieldDecl receiver receiverType = .error err ↔
        err = .fieldNotFound receiver.text (r.context.field.elim "" (·.name))
          r.instantiation.file receiver.span.extent ∧
        ∀ s u, r.table.finalSymbol? (r.unwrap receiverType) = some s →
          r.table.EmbedReaches s u → ¬ u.Declares (r.context.field.elim "" (·.name)) := by
  refine ⟨fun t s name => ⟨?_, ?_, ?_, ?_⟩, fun r receiver receiverType err => ?_⟩
  · exact ⟨_, t.searches_embeds name s, rfl⟩
  · exact fun decl f hdecl hf => Table.findField?_of_own ⟨decl, hdecl, hf⟩
  · exact Table.findField?_of_not_declares
  · exact Table.findField?_eq_none_iff
  · have hmissing : (r.table.finalSymbol? (r.unwrap receiverType)).bind
        (r.table.findField? · (r.context.field.elim "" (·.name))) = none ↔
        ∀ s u, r.table.finalSymbol? (r.unwrap receiverType) = some s →
          r.table.EmbedReaches s u → ¬ u.Declares (r.context.field.elim "" (·.name)) := by
      simp only [Option.bind_eq_none_iff, Table.findField?_eq_none_iff_reaches]
      exact ⟨fun h s u hs hu => h s hs u hu, fun h s hs u hu => h s u hs hu⟩
    rw [← hmissing, Resolver.spliceFieldDecl]
    split
    next f hf => simp [hf]
    next hf => simp [hf, eq_comm]

/-- A struct that embeds another by an alias and by its name. -/
def sampleNode : Symbol :=
  { name := "Node", kind := .struct { embeds := [.ofIndex 14, .ofIndex 15] } }

/-- `Node` embeds `Link`, an alias of `Inner`, and `Inner`, which embeds `Node` again and `Base`. -/
def sampleEmbeds : Table :=
  let t := (Table.initial.declare sampleNode).2
  let t := (t.declareAlias "Link" (.ofIndex 15)).2
  let t := (t.declareStruct "Inner" { embeds := [.ofIndex 13, .ofIndex 16] }).2
  (t.declareStruct "Base" { fields := [{ name := "id", typ := .u32 }] }).2

theorem findField?_breadth_first_sample :
    ¬ sampleNode.Declares "id" ∧
    sampleEmbeds.embedLevel sampleNode.embeds 1 =
      [.ofIndex 13, .ofIndex 16, .ofIndex 13, .ofIndex 16] ∧
    sampleEmbeds.FirstDeclared "id" sampleNode.embeds { name := "id", typ := .u32 } ∧
    sampleEmbeds.findField? sampleNode "id" = some { name := "id", typ := .u32 } := by
  have hown : ¬ sampleNode.Declares "id" := Symbol.findField?_eq_none_iff.1 rfl
  have hfirst :
      sampleEmbeds.FirstDeclared "id" sampleNode.embeds { name := "id", typ := .u32 } := by
    refine Table.firstDeclared_iff.2 ⟨1, by decide +kernel, fun k hk => ?_⟩
    obtain rfl : k = 0 := by omega
    decide +kernel
  obtain ⟨-, -, hfind, -⟩ := findField?_breadth_first.1 sampleEmbeds sampleNode "id"
  exact ⟨hown, by decide +kernel, hfirst, (hfind hown _).2 hfirst⟩

end Unroll
