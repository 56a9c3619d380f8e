import Mathlib.Data.List.Count
import Mathlib.Data.List.Nodup

/-!
# Tokens with one owner

Tokens are created once, held by owners and in the end given back. Each place that can hold
tokens is a list of them; a token that two places hold, or one of them twice, is in the list of
all holdings twice. What has been created is then held or given back, and all of it is
accounted for, when the counts of every token agree.
-/

namespace NetStack.Lib

variable {α : Type} [DecidableEq α]

/-- Every token that has been created and not given back has exactly one owner, no token has been
    given back twice, and nobody holds a token that does not exist any more. -/
structure OneOwner (created held freed : List α) : Prop where
  owned : ∀ x ∈ created, x ∉ freed → held.count x = 1
  once : freed.Nodup
  live : ∀ x ∈ held, x ∈ created ∧ x ∉ freed

variable {created held freed : List α}

/-- Tokens are created once and their counts balance. -/
theorem OneOwner.of_count (hcreated : ∀ x, created.count x ≤ 1)
    (hcount : ∀ x, held.count x + freed.count x = created.count x) :
    OneOwner created held freed := by
  refine ⟨fun x hx hfreed => ?_, List.nodup_iff_count_le_one.mpr fun x => ?_, fun x hx => ?_⟩
  · have honce : created.count x = 1 :=
      Nat.le_antisymm (hcreated x) (List.count_pos_iff.mpr hx)
    have hnone : freed.count x = 0 := List.count_eq_zero.mpr hfreed
    have := hcount x
    omega
  · have hle := hcreated x
    have := hcount x
    omega
  · have hpos : 0 < held.count x := List.count_pos_iff.mpr hx
    have hle := hcreated x
    have := hcount x
    exact ⟨List.count_pos_iff.mp (by omega), List.count_eq_zero.mp (by omega)⟩

end NetStack.Lib
