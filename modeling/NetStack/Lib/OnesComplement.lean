import Mathlib.Algebra.BigOperators.Group.List.Basic

/-!
# Sums in one's complement

The one's complement sum of two words is their sum with the carry out of the highest bit added
at the lowest. Words of `w` bits then add like residues modulo `2 ^ w - 1`, of which zero has
two representations, all bits clear and all bits set; a sum is the former only if all its terms
are. A word is known by its residue and by whether it is zero.
-/

namespace NetStack.Lib

variable {w : Nat}

/-- The one's complement sum of two words. -/
def onesAdd (a b : BitVec w) : BitVec w :=
  if a.toNat + b.toNat < 2 ^ w then a + b else a + b + 1

/-- The one's complement sum of a list of words. -/
def onesSum (words : List (BitVec w)) : BitVec w := words.foldl onesAdd 0

/-- The words of a list added up as numbers. -/
def natSum (words : List (BitVec w)) : Nat := words.foldr (fun a n => a.toNat + n) 0

@[simp] theorem natSum_nil : natSum ([] : List (BitVec w)) = 0 := rfl

@[simp] theorem natSum_cons (a : BitVec w) (words : List (BitVec w)) :
    natSum (a :: words) = a.toNat + natSum words := rfl

@[simp] theorem natSum_append (words words' : List (BitVec w)) :
    natSum (words ++ words') = natSum words + natSum words' := by
  induction words with
  | nil => simp
  | cons a words ih => rw [List.cons_append, natSum_cons, natSum_cons, ih, Nat.add_assoc]

/-- The sum of two words as a number: a carry takes `2 ^ w` away and gives one back. -/
theorem toNat_onesAdd (a b : BitVec w) :
    (onesAdd a b).toNat =
      if a.toNat + b.toNat < 2 ^ w then a.toNat + b.toNat
      else a.toNat + b.toNat - (2 ^ w - 1) := by
  have ha := a.isLt
  have hb := b.isLt
  unfold onesAdd
  split
  case isTrue hfits => rw [BitVec.toNat_add, Nat.mod_eq_of_lt hfits]
  case isFalse hcarry =>
    have hone : (1 : BitVec w).toNat = 1 := by
      cases w with
      | zero => omega
      | succ w => simp
    have hsum : (a + b).toNat = a.toNat + b.toNat - 2 ^ w := by
      rw [BitVec.toNat_add, Nat.mod_eq_sub_mod (by omega), Nat.mod_eq_of_lt (by omega)]
    rw [BitVec.toNat_add, hsum, hone, Nat.mod_eq_of_lt (by omega)]
    omega

/-- A sum has the residue of the sum of the numbers, and is zero only if both terms are. -/
theorem onesAdd_spec (a b : BitVec w) :
    (onesAdd a b).toNat % (2 ^ w - 1) = (a.toNat + b.toNat) % (2 ^ w - 1) ∧
      ((onesAdd a b).toNat = 0 ↔ a.toNat + b.toNat = 0) := by
  have ha := a.isLt
  have hb := b.isLt
  rw [toNat_onesAdd]
  split
  case isTrue => exact ⟨rfl, Iff.rfl⟩
  case isFalse hcarry =>
    refine ⟨(Nat.mod_eq_sub_mod (by omega)).symm, ?_⟩
    omega

theorem foldl_onesAdd_spec (words : List (BitVec w)) (a : BitVec w) :
    (words.foldl onesAdd a).toNat % (2 ^ w - 1) = (a.toNat + natSum words) % (2 ^ w - 1) ∧
      ((words.foldl onesAdd a).toNat = 0 ↔ a.toNat + natSum words = 0) := by
  induction words generalizing a with
  | nil => exact ⟨rfl, Iff.rfl⟩
  | cons b words ih =>
    obtain ⟨hmod, hzero⟩ := ih (onesAdd a b)
    obtain ⟨hmod', hzero'⟩ := onesAdd_spec a b
    rw [List.foldl_cons, natSum_cons, ← Nat.add_assoc]
    refine ⟨?_, ?_⟩
    · rw [hmod, Nat.add_mod, hmod', ← Nat.add_mod]
    · omega

/-- The sum of a list has the residue of its sum as numbers, and is zero only if all words are. -/
theorem onesSum_spec (words : List (BitVec w)) :
    (onesSum words).toNat % (2 ^ w - 1) = natSum words % (2 ^ w - 1) ∧
      ((onesSum words).toNat = 0 ↔ natSum words = 0) := by
  have hstart : (0 : BitVec w).toNat = 0 := by simp
  have hspec := foldl_onesAdd_spec words 0
  rwa [hstart, Nat.zero_add] at hspec

/-- Numbers of `w` bits with one residue are the same number, if they are zero together. -/
theorem eq_of_residue {x y : Nat} (hx : x < 2 ^ w) (hy : y < 2 ^ w)
    (hmod : x % (2 ^ w - 1) = y % (2 ^ w - 1)) (hzero : x = 0 ↔ y = 0) : x = y := by
  have hcases : ∀ z < 2 ^ w, z % (2 ^ w - 1) = if z = 2 ^ w - 1 then 0 else z := by
    intro z hz
    split
    case isTrue hfull => rw [hfull, Nat.mod_self]
    case isFalse hless => exact Nat.mod_eq_of_lt (by omega)
  rw [hcases x hx, hcases y hy] at hmod
  split_ifs at hmod <;> omega

/-- A word with the residue of the numbers of a list, and zero together with their sum, is the one's
    complement sum of the list. -/
theorem eq_onesSum {words : List (BitVec w)} {a : BitVec w}
    (hmod : a.toNat % (2 ^ w - 1) = natSum words % (2 ^ w - 1))
    (hzero : a.toNat = 0 ↔ natSum words = 0) : a = onesSum words := by
  obtain ⟨hmod', hzero'⟩ := onesSum_spec words
  apply BitVec.eq_of_toNat_eq
  exact eq_of_residue a.isLt (onesSum words).isLt (hmod.trans hmod'.symm) (hzero.trans hzero'.symm)

end NetStack.Lib
