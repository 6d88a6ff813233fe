import Unroll.Proofs.Instantiation.Order
import Unroll.Proofs.Instantiation.Unwrap

/-!
# Unwrapping twice

Where nothing is bound to a generic type, the answer of a substitution is left alone by the same
substitution (`Substitutes.idempotent`). So a type that was unwrapped unwraps to itself
(`Settled.unwrap_unwrap`). If nothing is bound to an optional type either, it makes no difference
whether an option is removed before or after (`Settled.unwrap_clear_option`).
-/

namespace Unroll

namespace Table

variable {subs : Bindings} {t t₀ : Table} {r : TypeId}

/-- Substitution that adds nothing to a table leaves its own answers alone. -/
theorem Substitutes.idempotent (h₀ : t₀.Layered) (ht : Extends t₀ t) (hc : t.Canonical)
    (hclosed : ∀ (k : Nat) b, subs[k]? = some b → b.isGeneric = false) (ty : TypeId)
    (hty : ty.index < t₀.size) (h : Substitutes subs t ty r t) : Substitutes subs t r r t := by
  induction ty using h₀.induction generalizing r with
  | leaf ty hk =>
    cases h with
    | closed h => exact .closed h
    | unbound hk h => exact .unbound hk h
    | bound _ _ hb =>
      exact .closed (.inr ((TypeId.isGeneric_wrappedLike _ _).trans (hclosed _ _ hb)))
    | array _ _ hk' | fixedArray _ _ hk' | map _ _ hk' =>
      exact absurd ((ht.kind?_eq hty).symm.trans hk') (hk _)
  | container ty c hk ih =>
    by_cases hopen : subs.isEmpty = true ∨ ty.isGeneric = false
    · have hself := Substitutes.closed (t := t) hopen
      rwa [(h.unique hself).1]
    obtain ⟨hs, hg⟩ : subs.isEmpty = false ∧ ty.isGeneric = true := by simpa using hopen
    obtain ⟨φ, i, hφ, hi, rfl⟩ :=
      h.exists_parts (.refl t) hs hg ((ht.kind?_eq hty).trans hk)
    refine .of_parts hc hi (fun p hp => ?_) ty
    rw [Container.parts_mapTypes] at hp
    obtain ⟨q, hq, rfl⟩ := List.mem_map.1 hp
    exact ih q hq (Nat.lt_trans (h₀ hk q hq) hty) (hφ q hq)

end Table

namespace Instantiation

open Table

variable {s : Instantiation} {t t' : Table} {ty r : TypeId} {k : Nat}

theorem unwrap_of_not_generic (s : Instantiation) (h : ty.isGeneric = false) :
    s.unwrap ty = ty := by
  simp [unwrap, h]

/-- A type that was unwrapped unwraps to itself. -/
theorem Settled.unwrap_unwrap (h : Settled t.genericContainers s t') (ht : t.WellFormed)
    (hext : Extends t t') (hc : t'.Canonical) (hkeys : s.BindsParams t)
    (hclosed : ∀ (k : Nat) b, s.bindings[k]? = some b → b.isGeneric = false) (hty : t.Sound ty) :
    s.unwrap (s.unwrap ty) = s.unwrap ty := by
  have rules := h.substitutes_unwrap ht.toStratified hext hc hkeys hty
  have again := rules.idempotent ht.layered hext hc hclosed ty hty.lt_size
  rcases rules.answer_cases with hself | ⟨b, -, hb, heq⟩ | ⟨c, i, hi, heq⟩
  · rw [hself, hself]
  · refine s.unwrap_of_not_generic ?_
    rw [heq]
    exact (TypeId.isGeneric_wrappedLike _ _).trans (hclosed _ _ hb)
  · have hidx : (s.unwrap ty).index = i := by
      rw [heq, TypeId.index_wrappedLike, hc.index_containerId hi]
    by_cases hlt : i < t.size
    · -- The container was in the table before, so substitution says what it unwraps to.
      have hsound : t.Sound (s.unwrap ty) := by
        rw [heq]
        exact (ht.sound_containerId ((hext.persists.internedAt_iff hlt).1 hi)).wrappedLike ty
      exact ((h.substitutes_unwrap ht.toStratified hext hc hkeys hsound).unique again).1
    · -- Nothing is bound or recorded for a container that is new.
      refine unwrap_of_none ?_ ?_ <;> rw [hidx]
      · refine Option.eq_none_iff_forall_ne_some.2 fun b hb => hlt ?_
        obtain ⟨e, he, -⟩ := hkeys i b hb
        exact lt_size_of_entry he
      · exact h.containers_eq_none fun g hg hgi => hlt (hgi ▸ ht.index_lt_of_mem hg)

/-- What is recorded is not optional. -/
theorem Settled.isOption_container (h : Settled t.genericContainers s t') (ht : t.Canonical)
    (hext : Extends t t') (hr : s.containers[k]? = some r) : r.isOption = false := by
  obtain ⟨g, hg, rfl⟩ := h.visited k r hr
  obtain ⟨c, hi, -, hid⟩ := ht.internedAt_of_mem hg
  obtain ⟨r', rules, hrec⟩ := h.answer g hg
  rw [hr] at hrec
  split_ifs at hrec
  cases hrec
  have hgo : g.isOption = false := hid ▸ isOption_containerId _ _
  rcases rules.answer_of_container (hext.internedAt hi).kind? with rfl | ⟨c', i, -, rfl⟩
  · exact hgo
  · simp [hgo]

theorem Settled.unwrap_clear_option (h : Settled t.genericContainers s t') (ht : t.Canonical)
    (hext : Extends t t')
    (hbound : ∀ (k : Nat) b, s.bindings[k]? = some b → b.isOption = false) (ty : TypeId) :
    s.unwrap (ty.clear .option) = (s.unwrap ty).clear .option := by
  have hg : (ty.clear .option).isGeneric = ty.isGeneric := by simp
  unfold unwrap
  rw [hg, TypeId.index_clear]
  split_ifs
  · rcases hb : s.bindings[ty.index]? with _ | b
    · rcases hr : s.containers[ty.index]? with _ | r
      · rfl
      · exact TypeId.wrappedLike_clear (h.isOption_container ht hext hr) ty
    · exact TypeId.wrappedLike_clear (hbound _ b hb) ty
  · rfl

end Instantiation

end Unroll
