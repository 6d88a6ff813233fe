import Unroll.Proofs.Resolver.LoopIds
import Unroll.Proofs.Resolver.Reads

/-!
# Keys of recorded types

Three kinds of keys share one space of texts. A key that is joined from parts can be read back from
its last dot: behind it stand the digits of a position or the word `typ`, which tells the two kinds
apart, and before it stands the name, whatever dots and digits it has itself (`render_inj`). A
variable is kept under its bare name, so its key can be taken for another only where the name is
written like a joined key, with a dot in it (`render_eq_iff`). Keys over names without dots are
entries of their own (`keys_separate`).
-/

namespace Unroll

namespace TypeMapKey

/-- What stands before and behind the last dot of a key that is joined from parts. -/
def parts? : TypeMapKey → Option (String × String)
  | var _ => none
  | genericVar name pos => some ("t." ++ name, toString pos)
  | selector v => some (v, "typ")

/-- The key is joined from parts: that of a local variable of generic type or of a selector. -/
def IsJoined (k : TypeMapKey) : Prop := k.parts?.isSome

/-- A variable's name has no dot. Joined keys may be over any names. -/
def IsDotFree : TypeMapKey → Prop
  | var name => '.' ∉ name.toList
  | _ => True

variable {k k' : TypeMapKey} {p p' : String × String}

theorem isJoined_or_eq_var (k : TypeMapKey) : k.IsJoined ∨ k = .var k.render := by
  cases k with
  | var name => exact .inr rfl
  | genericVar name pos => exact .inl rfl
  | selector v => exact .inl rfl

/-! ## Reading a joined key back -/

theorem toList_render (h : k.parts? = some p) :
    k.render.toList = p.1.toList ++ '.' :: p.2.toList := by
  cases k with
  | var name => cases h
  | genericVar name pos =>
    cases h
    simp [render]
  | selector v =>
    cases h
    simp [render]

/-- A position is written in digits. -/
theorem not_mem_toString {c : Char} (hc : c.isDigit = false) (pos : Nat) :
    c ∉ (toString pos).toList := by
  have hpos : (toString pos).toList = Nat.toDigits 10 pos := Nat.toList_repr
  intro h
  rw [hpos] at h
  have hdigit : c.isDigit = true := Nat.isDigit_of_mem_toDigits (by decide) (by decide) h
  rw [hc] at hdigit
  cases hdigit

theorem dot_not_mem_last (h : k.parts? = some p) : '.' ∉ p.2.toList := by
  cases k with
  | var name => cases h
  | genericVar name pos =>
    cases h
    exact not_mem_toString rfl pos
  | selector v =>
    cases h
    have hdot : '.' ∉ "typ".toList := by decide
    exact hdot

theorem toString_ne_typ (pos : Nat) : toString pos ≠ "typ" := by
  intro h
  have hmem : 't' ∈ (toString pos).toList := by
    rw [h]
    decide
  exact not_mem_toString rfl pos hmem

theorem parts?_inj (h : k.parts? = some p) (h' : k'.parts? = some p) : k = k' := by
  cases k with
  | var name => cases h
  | genericVar name pos =>
    cases h
    cases k' with
    | var name' => cases h'
    | genericVar name' pos' =>
      have hparts := Prod.mk.inj (Option.some.inj h')
      have hname : name' = name := (String.append_right_inj _).1 hparts.1
      have hpos : pos' = pos := Nat.repr_inj.1 hparts.2
      rw [hname, hpos]
    | selector v' =>
      have hlast := (Prod.mk.inj (Option.some.inj h')).2
      exact absurd hlast.symm (toString_ne_typ pos)
  | selector v =>
    cases h
    cases k' with
    | var name' => cases h'
    | genericVar name' pos' =>
      have hlast := (Prod.mk.inj (Option.some.inj h')).2
      exact absurd hlast (toString_ne_typ pos')
    | selector v' =>
      have hname : v' = v := (Prod.mk.inj (Option.some.inj h')).1
      rw [hname]

/-- The text of a joined key determines the key. -/
theorem render_inj (h : k.IsJoined) (h' : k'.IsJoined) (heq : k.render = k'.render) : k = k' := by
  obtain ⟨p, hp⟩ := Option.isSome_iff_exists.1 h
  obtain ⟨p', hp'⟩ := Option.isSome_iff_exists.1 h'
  have htexts : p.1.toList ++ '.' :: p.2.toList = p'.1.toList ++ '.' :: p'.2.toList := by
    rw [← toList_render hp, ← toList_render hp', heq]
  obtain ⟨hfirst, hlast⟩ := (append_cons_eq_iff_of_not_mem (dot_not_mem_last hp)
    (dot_not_mem_last hp')).1 htexts
  have hparts : p' = p :=
    Prod.ext (String.toList_inj.1 hfirst.symm) (String.toList_inj.1 hlast.symm)
  exact parts?_inj hp (hparts ▸ hp')

theorem dot_mem_render (h : k.IsJoined) : '.' ∈ k.render.toList := by
  obtain ⟨p, hp⟩ := Option.isSome_iff_exists.1 h
  rw [toList_render hp]
  exact List.mem_append_right _ List.mem_cons_self

/-! ## Collisions -/

/-- The only keys with the same text are a joined key and the variable named like it. -/
theorem render_eq_iff (hne : k ≠ k') :
    k.render = k'.render ↔ k'.IsJoined ∧ k = .var k'.render ∨ k.IsJoined ∧ k' = .var k.render := by
  constructor
  · intro heq
    rcases k.isJoined_or_eq_var with h | h
    · rcases k'.isJoined_or_eq_var with h' | h'
      · exact absurd (render_inj h h' heq) hne
      · exact .inr ⟨h, heq ▸ h'⟩
    · rcases k'.isJoined_or_eq_var with h' | h'
      · exact .inl ⟨h', heq ▸ h⟩
      · -- Two variables of the same text are the same.
        exact absurd (h.trans (heq ▸ h'.symm)) hne
  · rintro (⟨-, h⟩ | ⟨-, h⟩)
    · rw [h]
      rfl
    · rw [h]
      rfl

theorem IsDotFree.not_spelled (h : k.IsDotFree) (h' : k'.IsJoined) : k ≠ .var k'.render := by
  rintro rfl
  exact h (dot_mem_render h')

theorem IsDotFree.render_ne (h : k.IsDotFree) (h' : k'.IsDotFree) (hne : k ≠ k') :
    k.render ≠ k'.render := by
  rw [Ne, render_eq_iff hne]
  rintro (⟨hj, heq⟩ | ⟨hj, heq⟩)
  · exact h.not_spelled hj heq
  · exact h'.not_spelled hj heq

end TypeMapKey

/-- Different keys share a text only if one is a variable with a dot in its name, and otherwise they
are entries of their own. -/
theorem keys_separate {k k' : TypeMapKey} (hne : k ≠ k') :
    (k.render = k'.render ↔ ∃ n, '.' ∈ n.toList ∧
      (k = .var n ∧ k'.IsJoined ∧ k'.render = n ∨ k' = .var n ∧ k.IsJoined ∧ k.render = n)) ∧
    ∀ (m : TypeMap) (ty : TypeId),
      (m.insertKey k ty).getKey? k = some ty ∧
      (k.IsDotFree → k'.IsDotFree → (m.insertKey k ty).getKey? k' = m.getKey? k') := by
  refine ⟨?_, fun m ty => ⟨m.getKey?_insertKey_self k ty, fun h h' => ?_⟩⟩
  · rw [TypeMapKey.render_eq_iff hne]
    constructor
    · rintro (⟨hj, heq⟩ | ⟨hj, heq⟩)
      · exact ⟨_, TypeMapKey.dot_mem_render hj, .inl ⟨heq, hj, rfl⟩⟩
      · exact ⟨_, TypeMapKey.dot_mem_render hj, .inr ⟨heq, hj, rfl⟩⟩
    · rintro ⟨n, -, ⟨heq, hj, rfl⟩ | ⟨heq, hj, rfl⟩⟩
      · exact .inl ⟨hj, heq⟩
      · exact .inr ⟨hj, heq⟩
  · exact m.get?_insertKey_of_ne (h.render_ne h' hne).symm ty

/-- A name that ends like a position; a variable named like the selector of another; and the same
two without the dot. -/
theorem keys_separate_dotted :
    (∀ (m : TypeMap) (ty : TypeId),
      (m.insertKey (.genericVar "res.1" 2) ty).getKey? (.genericVar "res" 12) =
        m.getKey? (.genericVar "res" 12)) ∧
    (TypeMapKey.var "v.typ").render = (TypeMapKey.selector "v").render ∧
    ∀ (m : TypeMap) (ty : TypeId), (m.insertKey (.var "v") ty).getKey? (.selector "v") =
      m.getKey? (.selector "v") := by
  refine ⟨fun m ty => ?_, ?_, fun m ty => ?_⟩
  · have hne : TypeMapKey.genericVar "res.1" 2 ≠ .genericVar "res" 12 := by decide
    exact ((keys_separate hne).2 m ty).2 trivial trivial
  · have hne : TypeMapKey.var "v.typ" ≠ .selector "v" := by decide
    exact (keys_separate hne).1.2 ⟨"v.typ", by decide, .inl ⟨rfl, rfl, by decide⟩⟩
  · have hne : TypeMapKey.var "v" ≠ .selector "v" := by decide
    have hdot : '.' ∉ "v".toList := by decide
    exact ((keys_separate hne).2 m ty).2 hdot trivial

end Unroll
