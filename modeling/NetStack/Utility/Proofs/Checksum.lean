import NetStack.Utility.Checksum

/-!
# The checksum verifies itself

A buffer whose checksum field was zero when the checksum was computed, and holds the checksum
afterwards, has checksum zero. The folding loop preserves the sum modulo 65535, and yields zero
only for zero; the stored complement makes the sum a multiple of 65535 that is not zero.
-/

namespace NetStack.Utility
open NetStack.Lib

variable {m m' : Memory}

/-! ### The folding loop -/

/-- The loop ends with a 16-bit sum that is the same modulo 65535, and zero only for zero. -/
theorem foldCarries_spec (sum : BitVec 32) :
    (foldCarries sum).toNat < 65536 ∧ (foldCarries sum).toNat % 65535 = sum.toNat % 65535 ∧
      ((foldCarries sum).toNat = 0 ↔ sum.toNat = 0) := by
  induction sum using foldCarries.induct with
  | case1 sum hzero =>
      have hsmall : sum.toNat / 65536 = 0 := by
        have hupper := congrArg BitVec.toNat hzero
        have hbound := sum.isLt
        rw [BitVec.toNat_setWidth, BitVec.toNat_ushiftRight, Nat.shiftRight_eq_div_pow,
          Nat.mod_eq_of_lt (by omega)] at hupper
        exact hupper
      unfold foldCarries
      rw [dif_pos hzero]
      exact ⟨by omega, rfl, Iff.rfl⟩
  | case2 sum hzero ih =>
      unfold foldCarries
      rw [dif_neg hzero]
      obtain ⟨hlt, hmod, hpos⟩ := ih
      rw [toNat_foldStep] at hmod hpos
      exact ⟨hlt, by omega, by omega⟩

/-! ### The sum -/

/-- Word `i` of a buffer, in host byte order. -/
def wordAt (m : Memory) (i : Nat) : BitVec 16 := ntohs (m.load16 (i * 2))

theorem wordSum_succ (m : Memory) (n : Nat) :
    wordSum m (n + 1) = wordSum m n + (wordAt m n).setWidth 32 := by
  simp [wordSum, wordAt, List.range_succ]

theorem wordSum_congr (n : Nat) (h : ∀ i < n, wordAt m' i = wordAt m i) :
    wordSum m' n = wordSum m n := by
  induction n with
  | zero => rfl
  | succ n ih =>
      rw [wordSum_succ, wordSum_succ, ih fun i hi => h i (Nat.lt_succ_of_lt hi),
        h n (Nat.lt_succ_self n)]

/-- The 32-bit accumulator does not overflow. -/
theorem wordSum_le (m : Memory) {n : Nat} (hn : n ≤ 32768) :
    (wordSum m n).toNat ≤ n * 65535 := by
  induction n with
  | zero => exact Nat.le_refl 0
  | succ n ih =>
      have ih := ih (by omega)
      have hword := (wordAt m n).isLt
      rw [wordSum_succ, BitVec.toNat_add, BitVec.toNat_setWidth]
      omega

/-- A value stored into a word that was zero adds to the sum. -/
theorem wordSum_store16 {p n : Nat} (hzero : wordAt m p = 0) (hp : p < n) (v : BitVec 16) :
    wordSum (m.store16 (p * 2) (htons v)) n = wordSum m n + v.setWidth 32 := by
  have hother : ∀ i, i ≠ p → wordAt (m.store16 (p * 2) (htons v)) i = wordAt m i := by
    intro i hi
    have hapart : i * 2 + 2 ≤ p * 2 ∨ p * 2 + 2 ≤ i * 2 := by omega
    exact congrArg ntohs (Memory.load16_store_outside m _ hapart)
  have hself : wordAt (m.store16 (p * 2) (htons v)) p = v := by
    rw [wordAt, Memory.load16_store16, ntohs_htons]
  induction n with
  | zero => exact absurd hp (Nat.not_lt_zero p)
  | succ n ih =>
      rw [wordSum_succ, wordSum_succ]
      by_cases hpn : p = n
      · subst hpn
        have hbefore := wordSum_congr p fun i hi => hother i (Nat.ne_of_lt hi)
        rw [hbefore, hself, hzero]
        simp
      · rw [ih (by omega), hother n (Ne.symm hpn), BitVec.add_assoc, BitVec.add_assoc,
          BitVec.add_comm (v.setWidth 32)]

/-- The sum of `net_checksum` before it is folded. -/
def checksumSum (m : Memory) (len : BitVec 16) : BitVec 32 :=
  if len &&& 1 ≠ 0 then
    wordSum m (len.toNat / 2) +
      (ntohs ((m (len.toNat / 2 * 2)).setWidth 16)).setWidth 32
  else wordSum m (len.toNat / 2)

theorem netChecksum_eq (m : Memory) (len : BitVec 16) :
    netChecksum m len = (~~~(foldCarries (checksumSum m len))).setWidth 16 := rfl

theorem toNat_netChecksum (m : Memory) (len : BitVec 16) :
    (netChecksum m len).toNat = 65535 - (foldCarries (checksumSum m len)).toNat := by
  have hlt := (foldCarries_spec (checksumSum m len)).1
  rw [netChecksum_eq, BitVec.toNat_setWidth, BitVec.toNat_not]
  omega

/-- A buffer verifies when its sum is a multiple of 65535 that is not zero. -/
theorem netChecksum_eq_zero_iff (m : Memory) (len : BitVec 16) :
    netChecksum m len = 0 ↔
      (checksumSum m len).toNat % 65535 = 0 ∧ (checksumSum m len).toNat ≠ 0 := by
  obtain ⟨hlt, hmod, hpos⟩ := foldCarries_spec (checksumSum m len)
  rw [← BitVec.toNat_inj, toNat_netChecksum]
  change 65535 - (foldCarries (checksumSum m len)).toNat = 0 ↔ _
  omega

/-- The bit that `net_checksum` tests tells odd lengths. -/
theorem odd_iff (len : BitVec 16) : len &&& 1 ≠ 0 ↔ len.toNat % 2 = 1 := by
  have hmask : (len &&& 1#16).toNat = len.toNat % 2 := by
    rw [BitVec.toNat_and]
    exact Nat.and_two_pow_sub_one_eq_mod len.toNat 1
  rw [ne_eq, ← BitVec.toNat_inj]
  change ¬(len &&& 1#16).toNat = 0 ↔ _
  rw [hmask]
  omega

/-- The checksum depends on the bytes of the buffer only. -/
theorem netChecksum_congr {len : BitVec 16} (h : ∀ k < len.toNat, m' k = m k) :
    netChecksum m' len = netChecksum m len := by
  have hwords : wordSum m' (len.toNat / 2) = wordSum m (len.toNat / 2) :=
    wordSum_congr _ fun i hi =>
      congrArg ntohs (Memory.load16_congr (h _ (by omega)) (h _ (by omega)))
  have hsum : checksumSum m' len = checksumSum m len := by
    unfold checksumSum
    split
    case isTrue hodd =>
        have hlen := (odd_iff len).mp hodd
        rw [hwords, h _ (by omega)]
    case isFalse => exact hwords
  rw [netChecksum_eq, netChecksum_eq, hsum]

theorem netChecksum_of_load {len : BitVec 16} (h : m'.load 0 len.toNat = m.load 0 len.toNat) :
    netChecksum m' len = netChecksum m len :=
  netChecksum_congr (Memory.agreeBelow_of_load h)

/-- The sum does not overflow, even with a 16-bit value added. -/
theorem checksumSum_lt (m : Memory) (len : BitVec 16) :
    (checksumSum m len).toNat < 2 ^ 32 - 65536 := by
  have hlen := len.isLt
  have hwords := wordSum_le m (n := len.toNat / 2) (by omega)
  unfold checksumSum
  split
  case isTrue =>
      have hlast := (ntohs ((m (len.toNat / 2 * 2)).setWidth 16)).isLt
      rw [BitVec.toNat_add, BitVec.toNat_setWidth]
      omega
  case isFalse => omega

theorem checksumSum_store16 {len : BitVec 16} {p : Nat} (hzero : wordAt m p = 0)
    (hp : p < len.toNat / 2) (v : BitVec 16) :
    checksumSum (m.store16 (p * 2) (htons v)) len = checksumSum m len + v.setWidth 32 := by
  have hlast : (m.store16 (p * 2) (htons v)) (len.toNat / 2 * 2) = m (len.toNat / 2 * 2) := by
    rw [store16_htons, Memory.store_outside m _ (.inr (by rw [netBytes_length]; omega))]
  unfold checksumSum
  rw [wordSum_store16 hzero hp, hlast]
  split
  · rw [BitVec.add_assoc, BitVec.add_assoc, BitVec.add_comm (v.setWidth 32)]
  · rfl

/-- With its checksum in a word that was zero, a buffer has checksum zero. -/
theorem netChecksum_store16 {len : BitVec 16} {p : Nat} (hzero : wordAt m p = 0)
    (hp : p < len.toNat / 2) :
    netChecksum (m.store16 (p * 2) (htons (netChecksum m len))) len = 0 := by
  apply BitVec.eq_of_toNat_eq
  rw [toNat_netChecksum, checksumSum_store16 hzero hp]
  have hc := toNat_netChecksum m len
  have hsum := checksumSum_lt m len
  obtain ⟨hlt, hmod, hpos⟩ := foldCarries_spec (checksumSum m len)
  have hadd : (checksumSum m len + (netChecksum m len).setWidth 32).toNat =
      (checksumSum m len).toNat + (65535 - (foldCarries (checksumSum m len)).toNat) := by
    rw [BitVec.toNat_add, BitVec.toNat_setWidth, hc]
    omega
  obtain ⟨hlt', hmod', hpos'⟩ :=
    foldCarries_spec (checksumSum m len + (netChecksum m len).setWidth 32)
  rw [hadd] at hmod' hpos'
  generalize (foldCarries (checksumSum m len + (netChecksum m len).setWidth 32)).toNat = folded
    at hlt' hmod' hpos' ⊢
  generalize (foldCarries (checksumSum m len)).toNat = before at hlt hmod hpos hmod' hpos'
  -- a multiple of 65535 that is not zero
  have hfull : folded = 65535 := by omega
  rw [hfull]
  rfl

end NetStack.Utility
