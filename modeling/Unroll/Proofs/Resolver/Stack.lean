import Mathlib.Data.List.Induction
import Mathlib.Tactic.ByContra
import Mathlib.Tactic.SplitIfs
import Unroll.Resolver.Basic

/-!
# Saved contexts

The operations on a resolver as data, and the sequences they make. A context is saved by a push and
by entering a loop, and restored by a pop and by leaving one. A sequence that restores no more than
it has saved never reaches the contexts saved before it (`run_above`), so a restore brings back the
context of the save that matches it, and recorded types and the loop counter stay as they have
become (`stack_discipline`). A restore too many is a fault, at the first such restore and nowhere
else, or it changes nothing, and then all other restores still have their save: one of the run, or
one before it.
-/

namespace Unroll.Resolver

/-! ## Actions -/

/-- An operation on the state of a resolver. -/
inductive Action where
  | push
  | pop
  | enter (l : Loop)
  | leave
  | editContext (f : Context → Context)
  | editTypeMap (f : TypeMap → TypeMap)
  | nextLoopId

namespace Action

def perform : Action → Resolver → Except StackFault Resolver
  | push, r => .ok r.push
  | pop, r => r.pop
  | enter l, r => .ok (r.enter l)
  | leave, r => r.leave
  | editContext f, r => .ok (r.modifyContext f)
  | editTypeMap f, r => .ok (r.modifyTypeMap f)
  | nextLoopId, r => .ok r.nextLoopId.2

def saves : Action → Bool
  | push | enter _ => true
  | _ => false

def restores : Action → Bool
  | pop | leave => true
  | _ => false

/-- What an action makes of the recorded types. -/
def record : Action → TypeMap → TypeMap
  | editTypeMap f, types => f types
  | _, types => types

/-- What an action makes of the loop counter. -/
def count : Action → UInt32 → UInt32
  | enter _, n | nextLoopId, n => max (n + 1) 1
  | _, n => n

end Action

/-- Performs actions one after another, up to the first fault. -/
def run (r : Resolver) : List Action → Except StackFault Resolver
  | [] => .ok r
  | a :: w => a.perform r >>= fun r => r.run w

/-- The number of contexts that a sequence saves. -/
def pushes (w : List Action) : Nat := w.countP (·.saves)

/-- The number of contexts that a sequence is to restore. -/
def pops (w : List Action) : Nat := w.countP (·.restores)

/-- As many contexts are restored as are saved, and at no point more. -/
structure Balanced (w : List Action) : Prop where
  pops_le : ∀ u, u <+: w → pops u ≤ pushes u
  pops_eq : pops w = pushes w

/-- The recorded types after a sequence: those before it with every edit made. -/
def recorded (w : List Action) (types : TypeMap) : TypeMap :=
  w.foldl (fun types a => a.record types) types

/-- The loop counter after a sequence, which nothing sets back. -/
def counted (w : List Action) (n : UInt32) : UInt32 := w.foldl (fun n a => a.count n) n

/-- After `u` the action is the first that restores more than was saved. -/
structure FirstExcess (r : Resolver) (u : List Action) (a : Action) : Prop where
  before : ∀ p, p <+: u → pops p ≤ r.saved.depth + pushes p
  excess : r.saved.depth + pushes (u ++ [a]) < pops (u ++ [a])

/-- No action of `u` saved the context that a restore after `u` asks for: behind each save, more is
restored or less than is saved. -/
def Unmatched (u : List Action) : Prop :=
  ∀ p a v, u = p ++ a :: v → a.saves = true → ¬ Balanced v

/-! ## Counting -/

section Counting

variable {a : Action} {u v w : List Action}

@[simp] theorem pushes_nil : pushes [] = 0 := rfl

@[simp] theorem pops_nil : pops [] = 0 := rfl

@[simp] theorem pushes_cons (a : Action) (w : List Action) :
    pushes (a :: w) = pushes w + if a.saves then 1 else 0 := by
  simp [pushes, List.countP_cons]

@[simp] theorem pops_cons (a : Action) (w : List Action) :
    pops (a :: w) = pops w + if a.restores then 1 else 0 := by
  simp [pops, List.countP_cons]

@[simp] theorem pushes_append (u v : List Action) : pushes (u ++ v) = pushes u + pushes v :=
  List.countP_append

@[simp] theorem pops_append (u v : List Action) : pops (u ++ v) = pops u + pops v :=
  List.countP_append

theorem Action.restores_of_saves (h : a.saves = true) : a.restores = false := by
  cases a <;> simp_all [saves, restores]

theorem Action.saves_of_restores (h : a.restores = true) : a.saves = false := by
  cases a <;> simp_all [saves, restores]

/-- A sequence saved nothing for a later restore exactly if no end of it saves more than it
restores. -/
theorem unmatched_iff : Unmatched u ↔ ∀ v, v <:+ u → pushes v ≤ pops v := by
  constructor
  · intro h
    induction u with
    | nil =>
      intro v hv
      simp [List.suffix_nil.1 hv]
    | cons a u ih =>
      have hu : ∀ v, v <:+ u → pushes v ≤ pops v :=
        ih fun p o v heq => h (a :: p) o v (by rw [heq, List.cons_append])
      intro v hv
      rcases List.suffix_cons_iff.1 hv with rfl | hv
      · have hle := hu u (List.suffix_refl u)
        by_contra hlt
        simp only [pushes_cons, pops_cons] at hlt
        have ha : a.saves = true := by
          by_contra ha
          simp only [ha] at hlt
          split_ifs at hlt <;> omega
        simp only [ha, Action.restores_of_saves ha, if_true, Bool.false_eq_true, if_false] at hlt
        refine h [] a u rfl ha ⟨fun p hp => ?_, by omega⟩
        obtain ⟨q, rfl⟩ := hp
        have hq := hu q (List.suffix_append p q)
        simp only [pushes_append, pops_append] at hlt hle
        omega
      · exact hu v hv
  · rintro h p a v rfl ha hv
    have hle := h (a :: v) (List.suffix_append p _)
    have heq := hv.pops_eq
    simp [ha, Action.restores_of_saves ha] at hle
    omega

end Counting

/-! ## Steps -/

section Steps

variable {r r' : Resolver} {a : Action} {u v w : List Action}

theorem run_cons (r : Resolver) (a : Action) (w : List Action) :
    r.run (a :: w) = a.perform r >>= fun r => r.run w := rfl

theorem run_cons_of_ok (h : a.perform r = .ok r') (w : List Action) :
    r.run (a :: w) = r'.run w := by
  rw [run_cons, h]
  rfl

theorem run_cons_eq_ok_iff :
    r.run (a :: w) = .ok r' ↔ ∃ r₁, a.perform r = .ok r₁ ∧ r₁.run w = .ok r' := by
  constructor
  · intro h
    rw [run_cons] at h
    cases ha : a.perform r with
    | error f =>
      rw [ha] at h
      cases h
    | ok r₁ =>
      rw [ha] at h
      exact ⟨r₁, rfl, h⟩
  · rintro ⟨r₁, ha, h⟩
    rwa [run_cons_of_ok ha]

theorem run_append (r : Resolver) (u v : List Action) :
    r.run (u ++ v) = r.run u >>= fun r => r.run v := by
  induction u generalizing r with
  | nil => rfl
  | cons a u ih =>
    rw [List.cons_append, run_cons, run_cons]
    rcases a.perform r with f | r₁
    · rfl
    · exact ih r₁

theorem run_append_of_ok (h : r.run u = .ok r') (v : List Action) :
    r.run (u ++ v) = r'.run v := by
  rw [run_append, h]
  rfl

theorem Action.perform_of_restores (h : a.restores = true) (r : Resolver) :
    a.perform r = r.pop := by
  cases a with
  | pop | leave => rfl
  | _ => cases h

/-- A save puts the active context on top of the saved ones. -/
theorem Action.perform_of_saves (h : a.saves = true) (r : Resolver) :
    ∃ context, a.perform r = .ok { r with
      context, saved := r.context :: r.saved, loopCounter := a.count r.loopCounter } := by
  cases a with
  | push => exact ⟨r.context, rfl⟩
  | enter l => exact ⟨_, rfl⟩
  | _ => cases h

theorem pop_of_saved {context : Context} {saved : ContextStack} (h : r.saved = context :: saved) :
    r.pop = .ok { r with context, saved } := by
  rw [pop, h]
  rfl

theorem pop_of_ignore (h : r.saved = []) (hp : r.policy = .ignore) : r.pop = .ok r := by
  rw [pop, h, hp]
  rfl

theorem pop_of_abort (h : r.saved = []) (hp : r.policy = .abort) : r.pop = .error .underflow := by
  rw [pop, h, hp]
  rfl

/-- A restore takes the context saved last, or changes nothing. -/
theorem pop_cases (h : r.pop = .ok r') :
    (∃ context saved, r.saved = context :: saved ∧ r' = { r with context, saved }) ∨ r' = r := by
  rcases hs : r.saved with _ | ⟨context, saved⟩
  · cases hp : r.policy with
    | ignore =>
      rw [pop_of_ignore hs hp] at h
      exact .inr (Except.ok.inj h).symm
    | abort =>
      rw [pop_of_abort hs hp] at h
      cases h
  · rw [pop_of_saved hs] at h
    exact .inl ⟨context, saved, rfl, (Except.ok.inj h).symm⟩

/-- An action that finds what it restores in `top` leaves the contexts below alone. -/
theorem Action.perform_above {top base : ContextStack} (hr : r.saved = top ++ base)
    (h : a.restores = true → top ≠ []) :
    ∃ context top', a.perform r = .ok { r with
        context, saved := top' ++ base, typeMap := a.record r.typeMap,
        loopCounter := a.count r.loopCounter } ∧
      top'.length + pops [a] = top.length + pushes [a] := by
  cases a with
  | push | enter => exact ⟨_, r.context :: top, by rw [List.cons_append, ← hr]; rfl, rfl⟩
  | pop | leave =>
    obtain ⟨context, top, rfl⟩ := List.exists_cons_of_ne_nil (h rfl)
    exact ⟨context, top, pop_of_saved hr, by simp [saves, restores]⟩
  | editContext | editTypeMap | nextLoopId => exact ⟨_, top, by rw [← hr]; rfl, rfl⟩

end Steps

/-! ## Sequences -/

section Sequences

variable {r r' : Resolver} {a b : Action} {u w : List Action}

/-- A sequence that restores no more than `top` and what it saved itself leaves the contexts below
alone. -/
theorem run_above {top base : ContextStack} (hr : r.saved = top ++ base)
    (h : ∀ u, u <+: w → pops u ≤ top.length + pushes u) :
    ∃ context top', r.run w = .ok { r with
        context, saved := top' ++ base, typeMap := recorded w r.typeMap,
        loopCounter := counted w r.loopCounter } ∧
      top'.length + pops w = top.length + pushes w := by
  induction w generalizing r top with
  | nil => exact ⟨r.context, top, by rw [← hr]; rfl, rfl⟩
  | cons a w ih =>
    have hroom : a.restores = true → top ≠ [] := by
      rintro ha rfl
      have := h [a] (by simp)
      simp [ha, Action.saves_of_restores ha] at this
    obtain ⟨context, top₁, hp, hlen⟩ := Action.perform_above hr hroom
    simp only [pushes_cons, pops_cons, pushes_nil, pops_nil, Nat.zero_add] at hlen
    have hrest : ∀ u, u <+: w → pops u ≤ top₁.length + pushes u := by
      intro u hu
      have := h (a :: u) (List.cons_prefix_cons.2 ⟨rfl, hu⟩)
      simp only [pushes_cons, pops_cons] at this
      omega
    obtain ⟨context', top', hrun, hlen'⟩ := ih (r := { r with
      context, saved := top₁ ++ base, typeMap := a.record r.typeMap,
      loopCounter := a.count r.loopCounter }) rfl hrest
    refine ⟨context', top', (run_cons_of_ok hp w).trans hrun, ?_⟩
    simp only [pushes_cons, pops_cons]
    omega

/-- What a balanced sequence behind a save leaves, and what the matching restore makes of it. -/
theorem run_matched (ha : a.saves = true) (hb : b.restores = true) (hw : Balanced w)
    (r : Resolver) :
    ∃ r₁, r.run (a :: w) = .ok r₁ ∧
      b.perform r₁ = .ok { r₁ with context := r.context, saved := r.saved } ∧
      { r₁ with context := r.context, saved := r.saved } = { r with
        typeMap := recorded w r.typeMap, loopCounter := counted (a :: w) r.loopCounter } := by
  obtain ⟨context, hp⟩ := Action.perform_of_saves ha r
  have hsaved : { r with
      context, saved := r.context :: r.saved, loopCounter := a.count r.loopCounter }.saved =
      [] ++ (r.context :: r.saved) := rfl
  obtain ⟨context', top, hrun, hlen⟩ := run_above hsaved (by simpa using hw.pops_le)
  obtain rfl : top = [] := by
    have := hw.pops_eq
    apply List.length_eq_zero_iff.1
    simp at hlen
    omega
  refine ⟨_, (run_cons_of_ok hp w).trans hrun, ?_, rfl⟩
  rw [Action.perform_of_restores hb]
  exact pop_of_saved rfl

end Sequences

/-! ## Unmatched restores -/

section Policies

variable {r r' : Resolver} {a : Action} {u w : List Action} {f : StackFault}

/-- A run that faults does so at one of its actions. -/
theorem exists_fault (h : r.run w = .error f) :
    ∃ u a v r₁, w = u ++ a :: v ∧ r.run u = .ok r₁ ∧ a.perform r₁ = .error f := by
  induction w generalizing r with
  | nil => cases h
  | cons a w ih =>
    rcases ha : a.perform r with f' | r'
    · rw [run_cons, ha] at h
      cases h
      exact ⟨[], a, w, r, rfl, rfl, ha⟩
    · rw [run_cons_of_ok ha] at h
      obtain ⟨u, b, v, r₁, rfl, hu, hb⟩ := ih h
      exact ⟨a :: u, b, v, r₁, rfl, (run_cons_of_ok ha u).trans hu, hb⟩

/-- An action that finds what it restores does not fault. -/
theorem Action.exists_perform (h : a.restores = true → r.saved ≠ []) :
    ∃ r₁, a.perform r = .ok r₁ ∧ r₁.policy = r.policy ∧
      r₁.saved.depth + pops [a] = r.saved.depth + pushes [a] := by
  obtain ⟨context, top, hperform, hlen⟩ := perform_above (List.append_nil r.saved).symm h
  exact ⟨_, hperform, rfl, by simpa [ContextStack.depth] using hlen⟩

/-- Where a restore without a saved context is a fault, a run without fault restores no more than
was saved. -/
theorem run_abort (hp : r.policy = .abort) (h : r.run u = .ok r') :
    r'.policy = .abort ∧ (∀ p, p <+: u → pops p ≤ r.saved.depth + pushes p) ∧
      r'.saved.depth + pops u = r.saved.depth + pushes u := by
  induction u generalizing r with
  | nil =>
    cases h
    refine ⟨hp, fun p hpre => ?_, rfl⟩
    simp [List.prefix_nil.1 hpre]
  | cons a u ih =>
    obtain ⟨r₁, ha, h⟩ := run_cons_eq_ok_iff.1 h
    have hroom : a.restores = true → r.saved ≠ [] := by
      intro hr hnil
      rw [Action.perform_of_restores hr, pop_of_abort hnil hp] at ha
      cases ha
    obtain ⟨r₂, ha₂, hp₂, hlen⟩ := Action.exists_perform hroom
    obtain rfl : r₁ = r₂ := Except.ok.inj (ha.symm.trans ha₂)
    obtain ⟨hp', hle, hdepth⟩ := ih (hp₂.trans hp) h
    simp only [pushes_cons, pops_cons, pushes_nil, pops_nil] at hlen ⊢
    refine ⟨hp', fun p hpre => ?_, by omega⟩
    rcases List.prefix_cons_iff.1 hpre with rfl | ⟨q, rfl, hq⟩
    · simp
    · have := hle q hq
      simp only [pushes_cons, pops_cons]
      omega

/-- Up to the first restore too many all is well, and it finds nothing to restore. -/
theorem FirstExcess.exists_run (h : FirstExcess r u a) :
    a.restores = true ∧ ∃ r₁, r.run u = .ok r₁ ∧ r₁.saved = [] ∧ r₁.policy = r.policy := by
  obtain ⟨context, top, hrun, hlen⟩ := run_above (List.append_nil r.saved).symm h.before
  have hle := h.before u (List.prefix_refl u)
  have excess := h.excess
  simp only [ContextStack.depth, pushes_append, pops_append, pushes_cons, pops_cons, pushes_nil,
    pops_nil, Nat.zero_add] at excess hle
  have ha : a.restores = true := by
    by_contra ha
    simp only [ha] at excess
    split_ifs at excess <;> omega
  simp only [ha, Action.saves_of_restores ha, if_true, Bool.false_eq_true, if_false] at excess
  obtain rfl : top = [] := List.length_eq_zero_iff.1 (by omega)
  exact ⟨ha, _, hrun, rfl, rfl⟩

theorem firstExcess_iff (hp : r.policy = .abort) :
    FirstExcess r u a ↔ ∃ r₁, r.run u = .ok r₁ ∧ a.perform r₁ = .error .underflow := by
  constructor
  · intro h
    obtain ⟨ha, r₁, hrun, hsaved, hp₁⟩ := h.exists_run
    exact ⟨r₁, hrun, by rw [Action.perform_of_restores ha, pop_of_abort hsaved (hp₁.trans hp)]⟩
  · rintro ⟨r₁, hrun, hfault⟩
    obtain ⟨hp₁, before, hdepth⟩ := run_abort hp hrun
    refine ⟨before, ?_⟩
    by_contra hle
    have hroom : a.restores = true → r₁.saved ≠ [] := by
      intro ha hnil
      have hzero : r₁.saved.depth = 0 := by rw [hnil]; rfl
      simp [ha, Action.saves_of_restores ha] at hle
      omega
    obtain ⟨r₂, hperform, -⟩ := Action.exists_perform hroom
    cases hfault.symm.trans hperform

/-- Where faults are ignored, the saved contexts are those that an end `v` of the run saved and did
not restore, above those left of the start. -/
theorem run_ignore (hp : r.policy = .ignore) (u : List Action) :
    ∃ r₁ top k v, r.run u = .ok r₁ ∧ r₁.policy = .ignore ∧ r₁.saved = top ++ r.saved.drop k ∧
      top.length + pops u = pushes u + k ∧ v <:+ u ∧ top.length + pops v = pushes v := by
  induction u using List.reverseRecOn with
  | nil => exact ⟨r, [], 0, [], rfl, hp, rfl, rfl, List.suffix_refl _, rfl⟩
  | append_singleton u a ih =>
    obtain ⟨r₁, top, k, v, hrun, hp₁, hsaved, hlen, hv, hopen⟩ := ih
    have hlast : ∀ {r₂}, a.perform r₁ = .ok r₂ → r.run (u ++ [a]) = .ok r₂ := by
      intro r₂ ha
      rw [run_append_of_ok hrun, run_cons_of_ok ha]
      rfl
    have hv' : v ++ [a] <:+ u ++ [a] := by
      obtain ⟨q, rfl⟩ := hv
      exact ⟨q, (List.append_assoc _ _ _).symm⟩
    by_cases hroom : a.restores = true → top ≠ []
    · obtain ⟨context, top', hperform, hlen'⟩ := Action.perform_above hsaved hroom
      simp only [pushes_cons, pops_cons, pushes_nil, pops_nil, Nat.zero_add] at hlen'
      refine ⟨_, top', k, v ++ [a], hlast hperform, hp₁, rfl, ?_, hv', ?_⟩ <;>
        simp only [pushes_append, pops_append, pushes_cons, pops_cons, pushes_nil, pops_nil] <;>
        omega
    · obtain ⟨ha, htop⟩ : a.restores = true ∧ top = [] := by simpa using hroom
      subst htop
      -- A context from before the run is restored, if there is one left.
      have hnext : ∃ r₂, a.perform r₁ = .ok r₂ ∧ r₂.policy = .ignore ∧
          r₂.saved = r.saved.drop (k + 1) := by
        rw [Action.perform_of_restores ha]
        rcases hdrop : r.saved.drop k with _ | ⟨context, rest⟩
        · rw [hdrop] at hsaved
          refine ⟨r₁, pop_of_ignore hsaved hp₁, hp₁, hsaved.trans ?_⟩
          rw [← List.tail_drop, hdrop]
          rfl
        · rw [hdrop] at hsaved
          refine ⟨_, pop_of_saved hsaved, hp₁, ?_⟩
          rw [← List.tail_drop, hdrop]
          rfl
      obtain ⟨r₂, hperform, hp₂, hsaved₂⟩ := hnext
      refine ⟨r₂, [], k + 1, [], hlast hperform, hp₂, hsaved₂, ?_, List.nil_suffix, rfl⟩
      simp [ha, Action.saves_of_restores ha] at hlen ⊢
      omega

theorem Unmatched.run_ignore (h : Unmatched u) (hp : r.policy = .ignore) :
    ∃ r₁, r.run u = .ok r₁ ∧ r₁.policy = .ignore ∧ r₁.saved = r.saved.drop (pops u - pushes u) := by
  obtain ⟨r₁, top, k, v, hrun, hp₁, hsaved, hlen, hv, hopen⟩ := Resolver.run_ignore hp u
  have hle := unmatched_iff.1 h v hv
  obtain rfl : top = [] := List.length_eq_zero_iff.1 (by omega)
  obtain rfl : k = pops u - pushes u := by
    simp at hlen
    omega
  exact ⟨r₁, hrun, hp₁, hsaved⟩

end Policies

/-! ## Stack discipline -/

/-- A loop whose body performs a sequence, whatever the body answers, is that sequence between
entering and leaving. -/
theorem withLoop_eq_run {α : Type} {r : Resolver} {l : Loop} {w : List Action} {answer : α}
    {body : Resolver → Except StackFault (α × Resolver)}
    (h : body (r.enter l) = ((r.enter l).run w).map fun r => (answer, r)) :
    r.withLoop l body = (r.run (.enter l :: w ++ [.leave])).map fun r => (answer, r) := by
  have henter : Action.perform (.enter l) r = .ok (r.enter l) := rfl
  rw [withLoop, h, List.cons_append, run_cons_of_ok henter, run_append]
  rcases (r.enter l).run w with f | r₁
  · rfl
  · show (r₁.leave >>= fun r => .ok (answer, r)) =
      ((r₁.leave >>= Except.ok).map fun r => (answer, r))
    rcases r₁.leave with f | r₂ <;> rfl

/-- A restore brings back what the matching save saved and keeps all else, and a restore too many is
a fault or does nothing. -/
theorem stack_discipline (r : Resolver) :
    (∀ a b w, a.saves = true → b.restores = true → Balanced w →
      r.run (a :: w ++ [b]) = .ok { r with
        typeMap := recorded w r.typeMap, loopCounter := counted (a :: w) r.loopCounter }) ∧
    (∀ (α : Type) (answer : α) l w body,
      body (r.enter l) = ((r.enter l).run w).map (fun r => (answer, r)) →
      r.withLoop l body = (r.run (.enter l :: w ++ [.leave])).map (fun r => (answer, r)) ∧
      (Balanced w → r.withLoop l body = .ok (answer, { r with
        typeMap := recorded w r.typeMap, loopCounter := counted (.enter l :: w) r.loopCounter }))) ∧
    (r.policy = .abort →
      (∀ u a, FirstExcess r u a ↔ ∃ r₁, r.run u = .ok r₁ ∧ a.perform r₁ = .error .underflow) ∧
      ∀ w, (∃ f, r.run w = .error f) ↔ ∃ u a v, w = u ++ a :: v ∧ FirstExcess r u a) ∧
    (r.policy = .ignore → ∀ (u : List Action) (b : Action), b.restores = true →
      ∃ r₁, r.run u = .ok r₁ ∧
      (∀ p a v, u = p ++ a :: v → a.saves = true → Balanced v → ∃ r₀, r.run p = .ok r₀ ∧
        b.perform r₁ = .ok { r₁ with context := r₀.context, saved := r₀.saved }) ∧
      (FirstExcess r u b → b.perform r₁ = .ok r₁) ∧
      (Unmatched u → r.saved.depth + pushes u ≤ pops u → b.perform r₁ = .ok r₁) ∧
      (Unmatched u → ∀ context saved, r.saved.drop (pops u - pushes u) = context :: saved →
        b.perform r₁ = .ok { r₁ with context, saved })) := by
  have bracket : ∀ a b w, a.saves = true → b.restores = true → Balanced w →
      r.run (a :: w ++ [b]) = .ok { r with
        typeMap := recorded w r.typeMap, loopCounter := counted (a :: w) r.loopCounter } := by
    intro a b w ha hb hw
    obtain ⟨r₁, hrun, hperform, heq⟩ := run_matched ha hb hw r
    rw [run_append_of_ok hrun, run_cons_of_ok hperform, heq]
    rfl
  refine ⟨bracket, ?_, ?_, ?_⟩
  · intro α answer l w body hbody
    refine ⟨withLoop_eq_run hbody, fun hw => ?_⟩
    rw [withLoop_eq_run hbody, bracket _ _ w rfl rfl hw]
    rfl
  · intro hp
    refine ⟨fun u a => firstExcess_iff hp, fun w => ⟨?_, ?_⟩⟩
    · rintro ⟨⟨⟩, hfault⟩
      obtain ⟨u, a, v, r₁, hw, hrun, ha⟩ := exists_fault hfault
      exact ⟨u, a, v, hw, (firstExcess_iff hp).2 ⟨r₁, hrun, ha⟩⟩
    · rintro ⟨u, a, v, rfl, hfirst⟩
      obtain ⟨r₁, hrun, ha⟩ := (firstExcess_iff hp).1 hfirst
      refine ⟨.underflow, ?_⟩
      rw [run_append_of_ok hrun, run_cons, ha]
      rfl
  · intro hp u b hb
    obtain ⟨r₁, -, -, -, hrun, -⟩ := run_ignore hp u
    refine ⟨r₁, hrun, ?_, ?_, ?_, ?_⟩
    · rintro p a v rfl ha hv
      obtain ⟨r₀, -, -, -, hrun₀, -⟩ := run_ignore hp p
      obtain ⟨r₂, hrun₂, hperform, -⟩ := run_matched ha hb hv r₀
      rw [run_append_of_ok hrun₀, hrun₂] at hrun
      cases hrun
      exact ⟨r₀, hrun₀, hperform⟩
    · intro hfirst
      obtain ⟨-, r₂, hrun₂, hsaved, hp₂⟩ := hfirst.exists_run
      obtain rfl : r₁ = r₂ := Except.ok.inj (hrun.symm.trans hrun₂)
      rw [Action.perform_of_restores hb, pop_of_ignore hsaved (hp₂.trans hp)]
    · intro hu hle
      obtain ⟨r₂, hrun₂, hp₂, hsaved⟩ := hu.run_ignore hp
      obtain rfl : r₁ = r₂ := Except.ok.inj (hrun.symm.trans hrun₂)
      rw [Action.perform_of_restores hb, pop_of_ignore ?_ hp₂]
      rw [hsaved, List.drop_eq_nil_iff]
      simp only [ContextStack.depth] at hle
      omega
    · intro hu context saved hdrop
      obtain ⟨r₂, hrun₂, hp₂, hsaved⟩ := hu.run_ignore hp
      obtain rfl : r₁ = r₂ := Except.ok.inj (hrun.symm.trans hrun₂)
      rw [Action.perform_of_restores hb, pop_of_saved (hsaved.trans hdrop)]

/-- A resolver over the predeclared types, before any loop. -/
def sampleResolver : Resolver := { table := .initial, instantiation := {} }

/-- A body that fails after a nested save, a restore too many as a fault, and one that is ignored
before a matched save. -/
theorem stack_discipline_sample :
    sampleResolver.withLoop (.variant "v") (fun r => (r.run [.push, .nextLoopId, .pop]).map fun r =>
        ((.error "failed" : Except String Unit), r)) =
      .ok (.error "failed", { sampleResolver with loopCounter := 2 }) ∧
    (∃ f, { sampleResolver with policy := .abort }.run [.push, .pop, .pop, .push] = .error f) ∧
    ∃ r₁, sampleResolver.run [.pop, .push, .enter (.attr "a")] = .ok r₁ ∧
      Action.pop.perform r₁ = .ok { r₁ with context := {}, saved := [{}] } := by
  have hw : Balanced [.push, .nextLoopId, .pop] := by
    refine ⟨fun u hu => ?_, rfl⟩
    simp only [List.prefix_cons_iff, List.prefix_nil] at hu
    obtain rfl | ⟨_, rfl, rfl | ⟨_, rfl, rfl | ⟨_, rfl, rfl⟩⟩⟩ := hu <;> decide
  have hfirst : FirstExcess { sampleResolver with policy := .abort } [.push, .pop] .pop := by
    refine ⟨fun p hp => ?_, by decide⟩
    simp only [List.prefix_cons_iff, List.prefix_nil] at hp
    obtain rfl | ⟨_, rfl, rfl | ⟨_, rfl, rfl⟩⟩ := hp <;> decide
  have hnil : Balanced [] := ⟨fun u hu => by simp [List.prefix_nil.1 hu], rfl⟩
  refine ⟨?_, ?_, ?_⟩
  · exact ((stack_discipline sampleResolver).2.1 _ _ (.variant "v") _ _ rfl).2 hw
  · exact ((stack_discipline { sampleResolver with policy := .abort }).2.2.1 rfl).2 _ |>.2
      ⟨[.push, .pop], .pop, [.push], rfl, hfirst⟩
  · obtain ⟨r₁, hrun, hmatched, -⟩ :=
      (stack_discipline sampleResolver).2.2.2 rfl [.pop, .push, .enter (.attr "a")] .pop rfl
    obtain ⟨r₀, hrun₀, hperform⟩ := hmatched [.pop, .push] (.enter (.attr "a")) [] rfl rfl hnil
    cases hrun₀
    exact ⟨r₁, hrun, hperform⟩

end Unroll.Resolver
