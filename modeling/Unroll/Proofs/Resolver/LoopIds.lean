import Std.Data.String.ToNat
import Unroll.Proofs.Resolver.Stack

/-!
# Loop ids

A loop id is taken when a loop is entered and when one is asked for. The counter is never set back,
not even when a context with an old id is restored, so as long as it does not wrap around each id is
greater than all before it (`toNat_counted`, `le_loopCounter_of_mem_handedOut`). Without contexts
saved by hand the ids ascend from the outermost context to the active one (`Ascending.run`). A
generated name ends in its loop id, and can be read back from the last underscore
(`uniqueName_eq_iff`). Together, names generated in different loops never collide
(`loop_names_distinct`).
-/

namespace Unroll

/-! ## Generated names -/

/-- What stands before and behind the last occurrence of `a` is determined. -/
theorem append_cons_eq_iff_of_not_mem {α : Type} {a : α} {l l' d d' : List α} (hd : a ∉ d)
    (hd' : a ∉ d') : l ++ a :: d = l' ++ a :: d' ↔ l = l' ∧ d = d' := by
  -- Whatever one of the two has more before `a` would bring an `a` behind the other's.
  have nothing : ∀ {m e e' : List α}, a ∉ e → a :: e = m ++ a :: e' → m = [] := by
    intro m e e' he h
    cases m with
    | nil => rfl
    | cons y m =>
      rw [(List.cons.inj h).2] at he
      exact absurd (List.mem_append_right m List.mem_cons_self) he
  constructor
  · intro h
    rcases List.append_eq_append_iff.1 h with ⟨m, rfl, hm⟩ | ⟨m, rfl, hm⟩
    · obtain rfl := nothing hd hm
      simpa using hm
    · obtain rfl := nothing hd' hm
      simpa using hm.symm
  · rintro ⟨rfl, rfl⟩
    rfl

theorem Context.toList_uniqueName (ctx : Context) (base : String) :
    (ctx.uniqueName base).toList = base.toList ++ '_' :: Nat.toDigits 10 ctx.loopId.toNat := by
  have hid : (toString ctx.loopId).toList = Nat.toDigits 10 ctx.loopId.toNat := Nat.toList_repr
  simp [uniqueName, hid]

/-- No digit is an underscore, so a generated name tells the name it was made from and the loop,
whatever underscores and digits that name itself has. -/
theorem Context.uniqueName_eq_iff (ctx ctx' : Context) (base base' : String) :
    ctx.uniqueName base = ctx'.uniqueName base' ↔ base = base' ∧ ctx.loopId = ctx'.loopId := by
  rw [← String.toList_inj, toList_uniqueName, toList_uniqueName,
    append_cons_eq_iff_of_not_mem Nat.underscore_not_in_toDigits Nat.underscore_not_in_toDigits,
    String.toList_inj, ← Nat.toList_repr, ← Nat.toList_repr, String.toList_inj, Nat.repr_inj,
    UInt32.toNat_inj]

namespace Resolver

/-! ## Ids handed out -/

/-- Whether an action takes a new loop id. -/
def Action.takesId : Action → Bool
  | enter _ | nextLoopId => true
  | _ => false

/-- The loop id that an action hands out. -/
def Action.id? : Action → Resolver → Option UInt32
  | enter l, r => some (r.enter l).context.loopId
  | nextLoopId, r => some r.nextLoopId.1
  | _, _ => none

/-- The number of loop ids that a sequence asks for. -/
def requests (w : List Action) : Nat := w.countP (·.takesId)

/-- The loop ids that a run hands out, in order, up to the first fault. -/
def handedOut (r : Resolver) : List Action → List UInt32
  | [] => []
  | a :: w => (a.id? r).toList ++ (a.perform r).toOption.elim [] fun r => r.handedOut w

section Counter

variable {r r' : Resolver} {a : Action} {w : List Action} {n : UInt32} {id : UInt32}

@[simp] theorem requests_nil : requests [] = 0 := rfl

@[simp] theorem requests_cons (a : Action) (w : List Action) :
    requests (a :: w) = requests w + if a.takesId then 1 else 0 := by
  simp [requests, List.countP_cons]

@[simp] theorem requests_append (u v : List Action) :
    requests (u ++ v) = requests u + requests v :=
  List.countP_append

theorem handedOut_cons_of_ok (h : a.perform r = .ok r') (w : List Action) :
    r.handedOut (a :: w) = (a.id? r).toList ++ r'.handedOut w := by
  rw [handedOut, h]
  rfl

theorem toNat_max_succ (h : n.toNat + 1 < UInt32.size) :
    (max (n + 1) 1).toNat = n.toNat + 1 := by
  have hadd : (n + 1).toNat = n.toNat + 1 := by
    rw [UInt32.toNat_add]
    exact Nat.mod_eq_of_lt h
  show (if n + 1 ≤ 1 then 1 else n + 1).toNat = n.toNat + 1
  split
  next hle =>
    rw [UInt32.le_iff_toNat_le, hadd] at hle
    have hone : (1 : UInt32).toNat = 1 := rfl
    omega
  next => exact hadd

/-- The counter below its bound grows by one with each id taken. -/
theorem Action.toNat_count_add (h : n.toNat + requests (a :: w) < UInt32.size) :
    (a.count n).toNat + requests w = n.toNat + requests (a :: w) := by
  rw [requests_cons] at h ⊢
  cases a with
  | enter | nextLoopId =>
    simp only [takesId, if_true] at h ⊢
    rw [count, toNat_max_succ (by omega)]
    omega
  | _ => rfl

/-- Whatever an action restores, the counter goes on from where it is. -/
theorem Action.loopCounter_perform (h : a.perform r = .ok r') :
    r'.loopCounter = a.count r.loopCounter := by
  cases a with
  | pop | leave =>
    obtain ⟨context, saved, -, rfl⟩ | rfl := pop_cases h
    · rfl
    · rfl
  | _ => cases h; rfl

theorem Action.id?_eq (a : Action) (r : Resolver) :
    a.id? r = if a.takesId then some (a.count r.loopCounter) else none := by
  cases a with
  | enter l => cases l <;> rfl
  | _ => rfl

theorem loopCounter_run (h : r.run w = .ok r') : r'.loopCounter = counted w r.loopCounter := by
  induction w generalizing r with
  | nil => cases h; rfl
  | cons a w ih =>
    obtain ⟨r₁, ha, h⟩ := run_cons_eq_ok_iff.1 h
    rw [ih h, a.loopCounter_perform ha]
    rfl

/-- A counter that does not reach its bound has counted the ids that were asked for. -/
theorem toNat_counted (h : n.toNat + requests w < UInt32.size) :
    (counted w n).toNat = n.toNat + requests w := by
  induction w generalizing n with
  | nil => rfl
  | cons a w ih =>
    have hcount := Action.toNat_count_add h
    rw [← hcount] at h ⊢
    exact ih h

/-- No id handed out by a run lies above the counter at its end. -/
theorem le_loopCounter_of_mem_handedOut (h : r.run w = .ok r')
    (hn : r.loopCounter.toNat + requests w < UInt32.size) (hid : id ∈ r.handedOut w) :
    id ≤ r'.loopCounter := by
  induction w generalizing r with
  | nil => cases hid
  | cons a w ih =>
    obtain ⟨r₁, ha, h⟩ := run_cons_eq_ok_iff.1 h
    have hrest : r₁.loopCounter.toNat + requests w < UInt32.size := by
      rwa [a.loopCounter_perform ha, Action.toNat_count_add hn]
    rw [handedOut_cons_of_ok ha, List.mem_append, Action.id?_eq] at hid
    rcases hid with hid | hid
    · -- The id of this step is where the rest of the run begins to count.
      split at hid
      next =>
        obtain rfl : id = r₁.loopCounter := by
          simpa [a.loopCounter_perform ha] using hid
        rw [loopCounter_run h, UInt32.le_iff_toNat_le, toNat_counted hrest]
        exact Nat.le_add_right _ _
      next => cases hid
    · exact ih h hrest hid

/-- A loop is entered under an id that was not reached before. -/
theorem loopCounter_lt_enter (l : Loop) (h : r.loopCounter.toNat + 1 < UInt32.size) :
    r.loopCounter < (r.enter l).context.loopId := by
  have hid : (r.enter l).context.loopId = (Action.enter l).count r.loopCounter := by
    cases l <;> rfl
  rw [hid, Action.count, UInt32.lt_iff_toNat_lt, toNat_max_succ h]
  exact Nat.lt_succ_self _

end Counter

/-! ## Ids of enclosing loops -/

/-- Entering and leaving loops, and whatever else saves no context and sets no loop id by hand. -/
def Action.IsScoped : Action → Prop
  | push => False
  | editContext f => ∀ ctx, (f ctx).loopId = ctx.loopId
  | _ => True

/-- The ids of the enclosing loops, innermost first, descend from one that was handed out. -/
structure Ascending (r : Resolver) : Prop where
  ids : ((r.context :: r.saved).map (·.loopId)).Pairwise (· > ·)
  le : r.context.loopId ≤ r.loopCounter

section Enclosing

variable {r r' : Resolver} {a : Action} {w : List Action}

theorem Ascending.enter (h : r.Ascending) (l : Loop)
    (hn : r.loopCounter.toNat + 1 < UInt32.size) : (r.enter l).Ascending := by
  have hlt := loopCounter_lt_enter l hn
  have hsaved : (r.enter l).saved = r.context :: r.saved := rfl
  have hle : (r.enter l).context.loopId ≤ (r.enter l).loopCounter := by
    cases l <;> exact UInt32.le_refl _
  refine ⟨?_, hle⟩
  rw [List.map_cons, hsaved, List.pairwise_cons]
  refine ⟨fun id hid => ?_, h.ids⟩
  -- The active context has the greatest id of those that become saved.
  have hid' : id ≤ r.context.loopId := by
    rcases List.mem_cons.1 hid with rfl | hid
    · exact UInt32.le_refl _
    · exact UInt32.le_of_lt (List.rel_of_pairwise_cons h.ids hid)
  exact UInt32.lt_of_le_of_lt (UInt32.le_trans hid' h.le) hlt

theorem Ascending.pop (h : r.Ascending) (hp : r.pop = .ok r') : r'.Ascending := by
  obtain ⟨context, saved, hs, rfl⟩ | rfl := pop_cases hp
  · have hids := h.ids
    rw [hs, List.map_cons, List.map_cons] at hids
    refine ⟨hids.of_cons, ?_⟩
    have hlt : context.loopId < r.context.loopId :=
      List.rel_of_pairwise_cons hids List.mem_cons_self
    exact UInt32.le_trans (UInt32.le_of_lt hlt) h.le
  · exact h

theorem Ascending.perform (h : r.Ascending) (ha : a.IsScoped)
    (hn : r.loopCounter.toNat + requests (a :: w) < UInt32.size) (hp : a.perform r = .ok r') :
    r'.Ascending := by
  rw [requests_cons] at hn
  cases a with
  | push => cases ha
  | pop | leave => exact h.pop hp
  | enter l =>
    cases hp
    simp only [Action.takesId, if_true] at hn
    exact h.enter l (by omega)
  | editContext f =>
    cases hp
    have hid : (f r.context).loopId = r.context.loopId := ha r.context
    refine ⟨?_, ?_⟩
    · show (((f r.context).loopId) :: r.saved.map (·.loopId)).Pairwise (· > ·)
      rw [hid]
      exact h.ids
    · show (f r.context).loopId ≤ r.loopCounter
      rw [hid]
      exact h.le
  | editTypeMap f =>
    cases hp
    exact ⟨h.ids, h.le⟩
  | nextLoopId =>
    cases hp
    refine ⟨h.ids, UInt32.le_trans h.le ?_⟩
    show r.loopCounter ≤ max (r.loopCounter + 1) 1
    simp only [Action.takesId, if_true] at hn
    rw [UInt32.le_iff_toNat_le, toNat_max_succ (by omega)]
    exact Nat.le_succ _

theorem Ascending.run (h : r.Ascending) (hw : ∀ a ∈ w, a.IsScoped)
    (hn : r.loopCounter.toNat + requests w < UInt32.size) (hr : r.run w = .ok r') :
    r'.Ascending := by
  induction w generalizing r with
  | nil => cases hr; exact h
  | cons a w ih =>
    obtain ⟨r₁, ha, hr⟩ := run_cons_eq_ok_iff.1 hr
    apply ih (h.perform (hw a List.mem_cons_self) hn ha)
    · exact fun b hb => hw b (List.mem_cons_of_mem _ hb)
    · rwa [a.loopCounter_perform ha, Action.toNat_count_add hn]
    · exact hr

end Enclosing

/-! ## Different loops -/

/-- No loop was entered and no id handed out. -/
structure IsFresh (r : Resolver) : Prop where
  context_eq : r.context = {}
  saved_eq : r.saved = []
  loopCounter_eq : r.loopCounter = 0

section Names

variable {r r₁ : Resolver} {u : List Action} {l : Loop}

theorem IsFresh.ascending (h : r.IsFresh) : r.Ascending := by
  constructor
  · simp [h.saved_eq]
  · simp [h.context_eq, h.loopCounter_eq]

/-- A loop entered in a run has an id of its own. -/
theorem IsFresh.lt_enter (h : r.IsFresh) (hn : requests (u ++ [.enter l]) < UInt32.size)
    (hr : r.run u = .ok r₁) :
    1 ≤ (r₁.enter l).context.loopId ∧
      ∀ id ∈ r.handedOut u, id < (r₁.enter l).context.loopId := by
  have hzero : r.loopCounter.toNat = 0 := by rw [h.loopCounter_eq]; rfl
  simp only [requests_append, requests_cons, requests_nil, Action.takesId, if_true] at hn
  have hu : r.loopCounter.toNat + requests u < UInt32.size := by omega
  have hlt : r₁.loopCounter < (r₁.enter l).context.loopId := by
    apply loopCounter_lt_enter
    rw [loopCounter_run hr, toNat_counted hu]
    omega
  refine ⟨?_, fun id hid => ?_⟩
  · rw [UInt32.lt_iff_toNat_lt] at hlt
    rw [UInt32.le_iff_toNat_le]
    exact Nat.succ_le_of_lt (Nat.zero_lt_of_lt hlt)
  · exact UInt32.lt_of_le_of_lt (le_loopCounter_of_mem_handedOut hr hu hid) hlt

theorem mem_handedOut_enter (hr : r.run u = .ok r₁) (v : List Action) :
    (r₁.enter l).context.loopId ∈ r.handedOut (u ++ .enter l :: v) := by
  induction u generalizing r with
  | nil =>
    cases hr
    exact List.mem_cons_self
  | cons a u ih =>
    obtain ⟨r₂, ha, hr⟩ := run_cons_eq_ok_iff.1 hr
    rw [List.cons_append, handedOut_cons_of_ok ha]
    exact List.mem_append_right _ (ih hr)

end Names

/-- As long as ids last, each loop gets a new one, nested loops have ascending ones, and names
generated in different loops differ. -/
theorem loop_names_distinct {r : Resolver} (h : r.IsFresh) :
    (∀ u l r₁, requests (u ++ [.enter l]) < UInt32.size → r.run u = .ok r₁ →
      1 ≤ (r₁.enter l).context.loopId ∧
        ∀ id ∈ r.handedOut u, id < (r₁.enter l).context.loopId) ∧
    (∀ w r₁, requests w < UInt32.size → (∀ a ∈ w, a.IsScoped) → r.run w = .ok r₁ →
      ((r₁.saved.reverse ++ [r₁.context]).map (·.loopId)).Pairwise (· < ·)) ∧
    (∀ (ctx ctx' : Context) base base', ctx.uniqueName base = ctx'.uniqueName base' →
      base = base' ∧ ctx.loopId = ctx'.loopId) ∧
    ∀ u l v l' r₁ r₂, requests (u ++ .enter l :: v ++ [.enter l']) < UInt32.size →
      r.run u = .ok r₁ → r.run (u ++ .enter l :: v) = .ok r₂ →
      ∀ base base',
        (r₁.enter l).context.uniqueName base ≠ (r₂.enter l').context.uniqueName base' := by
  refine ⟨fun u l r₁ hn hr => h.lt_enter hn hr, ?_, ?_, ?_⟩
  · intro w r₁ hn hw hr
    have hzero : r.loopCounter.toNat = 0 := by rw [h.loopCounter_eq]; rfl
    have hids := (h.ascending.run hw (by omega) hr).ids
    rw [← List.reverse_cons, List.map_reverse, List.pairwise_reverse]
    exact hids
  · intro ctx ctx' base base' heq
    exact (ctx.uniqueName_eq_iff ctx' base base').1 heq
  · intro u l v l' r₁ r₂ hn hr₁ hr₂ base base' heq
    have hlt := (h.lt_enter hn hr₂).2 _ (mem_handedOut_enter hr₁ v)
    rw [((r₁.enter l).context.uniqueName_eq_iff _ base base').1 heq |>.2] at hlt
    exact UInt32.lt_irrefl _ hlt

theorem isFresh_sample : sampleResolver.IsFresh := ⟨rfl, rfl, rfl⟩

/-- A loop after another, two nested loops, and names of the second loop that end in the id of the
first. -/
theorem loop_names_distinct_sample :
    (∃ r₁, sampleResolver.run [.push, .enter (.variant "v"), .nextLoopId, .leave] = .ok r₁ ∧
      sampleResolver.handedOut [.push, .enter (.variant "v"), .nextLoopId, .leave] = [1, 2] ∧
      (r₁.enter (.attr "a")).context.loopId = 3 ∧
      ∀ id ∈ [1, 2], id < (r₁.enter (.attr "a")).context.loopId) ∧
    (∃ r₁, sampleResolver.run [.enter (.variant "v"), .enter (.attr "a")] = .ok r₁ ∧
      (r₁.saved.reverse ++ [r₁.context]).map (·.loopId) = [0, 1, 2] ∧
      ((r₁.saved.reverse ++ [r₁.context]).map (·.loopId)).Pairwise (· < ·)) ∧
    ∃ r₂, sampleResolver.run [.enter (.variant "v"), .leave] = .ok r₂ ∧
      (sampleResolver.enter (.variant "v")).context.uniqueName "tmp_1" ≠
        (r₂.enter (.variant "v")).context.uniqueName "tmp" := by
  obtain ⟨hfresh, hascend, -, hnames⟩ := loop_names_distinct isFresh_sample
  refine ⟨⟨_, rfl, rfl, rfl, ?_⟩, ⟨_, rfl, rfl, ?_⟩, ⟨_, rfl, ?_⟩⟩
  · exact (hfresh [.push, .enter (.variant "v"), .nextLoopId, .leave] (.attr "a") _ (by decide)
      rfl).2
  · refine hascend [.enter (.variant "v"), .enter (.attr "a")] _ (by decide) ?_ rfl
    simp [Action.IsScoped]
  · exact hnames [] (.variant "v") [.leave] (.variant "v") _ _ (by decide) rfl rfl _ _

end Resolver

end Unroll
