import NetStack.Lib.OnesComplement
import NetStack.Utility.Proofs.Checksum
import Mathlib.Logic.Function.Iterate

/-!
# The internet checksum

What `net_checksum` computes, in the terms of one's complement arithmetic: the complement of the
sum of the 16-bit words that the bytes make up in network order. The accumulator holds the sum of
the words as a number, which folding its carries reduces to the one's complement sum.
-/

namespace NetStack.Utility
open NetStack.Lib

/-- The words of a byte string in network order, an odd last byte padded on the right. -/
def bigEndianWords : List (BitVec 8) → List (BitVec 16)
  | [] => []
  | [high] => [high ++ 0#8]
  | high :: low :: rest => (high ++ low) :: bigEndianWords rest

theorem bigEndianWords_append {bytes : List (BitVec 8)} (heven : bytes.length % 2 = 0)
    (bytes' : List (BitVec 8)) :
    bigEndianWords (bytes ++ bytes') = bigEndianWords bytes ++ bigEndianWords bytes' := by
  induction bytes using bigEndianWords.induct with
  | case1 => rfl
  | case2 high => simp at heven
  | case3 high low rest ih =>
    rw [List.length_cons, List.length_cons] at heven
    simp only [List.cons_append, bigEndianWords, ih (by omega)]

variable {m : Memory} {len : BitVec 16} {sum : BitVec 32}

/-! ### The accumulator -/

/-- The next two bytes of a buffer are its next word. -/
theorem bigEndianWords_load_succ (m : Memory) (n : Nat) :
    bigEndianWords (m.load 0 ((n + 1) * 2)) =
      bigEndianWords (m.load 0 (n * 2)) ++ [wordAt m n] := by
  have hword : bigEndianWords (m.load (0 + n * 2) 2) = [wordAt m n] := by
    rw [wordAt, ntohs_load16, Nat.zero_add]
    rfl
  rw [Nat.succ_mul, Memory.load_add, bigEndianWords_append (by simp), hword]

/-- The loop adds up the words; the sum has room in 32 bits. -/
theorem toNat_wordSum (m : Memory) {n : Nat} (hn : n ≤ 32768) :
    (wordSum m n).toNat = natSum (bigEndianWords (m.load 0 (n * 2))) := by
  induction n with
  | zero => rfl
  | succ n ih =>
    have hword := (wordAt m n).isLt
    have hbefore := wordSum_le m (n := n) (by omega)
    rw [wordSum_succ, bigEndianWords_load_succ, natSum_append, natSum_cons, natSum_nil,
      ← ih (by omega), BitVec.toNat_add, BitVec.toNat_setWidth]
    omega

/-- The odd byte is the high byte of the last word. -/
theorem ntohs_setWidth (b : BitVec 8) : ntohs (b.setWidth 16) = b ++ 0#8 := by
  revert b
  decide

theorem toNat_checksumSum (m : Memory) (len : BitVec 16) :
    (checksumSum m len).toNat = natSum (bigEndianWords (m.load 0 len.toNat)) := by
  have hlen := len.isLt
  have hwords := toNat_wordSum m (n := len.toNat / 2) (by omega)
  have hbound := wordSum_le m (n := len.toNat / 2) (by omega)
  unfold checksumSum
  split
  case isTrue hodd =>
    have hodd := (odd_iff len).mp hodd
    have hsplit : len.toNat = len.toNat / 2 * 2 + 1 := by omega
    have hbytes : bigEndianWords (m.load 0 len.toNat) =
        bigEndianWords (m.load 0 (len.toNat / 2 * 2)) ++ [m (len.toNat / 2 * 2) ++ 0#8] := by
      rw [hsplit, Memory.load_add, bigEndianWords_append (by simp), ← hsplit, Nat.zero_add]
      rfl
    have hlast := (ntohs ((m (len.toNat / 2 * 2)).setWidth 16)).isLt
    rw [BitVec.toNat_add, BitVec.toNat_setWidth, hwords, hbytes, natSum_append, natSum_cons,
      natSum_nil, ← ntohs_setWidth]
    omega
  case isFalse heven =>
    rw [odd_iff] at heven
    have hsplit : len.toNat / 2 * 2 = len.toNat := by omega
    rw [hwords, hsplit]

/-! ### The folding loop -/

/-- `upper`. -/
def upper (sum : BitVec 32) : BitVec 16 := (sum >>> 16).setWidth 16

/-- One turn of the folding loop. -/
def foldTurn (sum : BitVec 32) : BitVec 32 := (sum &&& 0xFFFF#32) + (upper sum).setWidth 32

/-- The folding loop ends after `turns` turns. -/
structure FoldsIn (sum : BitVec 32) (turns : Nat) : Prop where
  goesOn : ∀ k < turns, upper (foldTurn^[k] sum) ≠ 0
  stops : upper (foldTurn^[turns] sum) = 0
  result : foldCarries sum = foldTurn^[turns] sum

theorem foldsIn_zero (hstops : upper sum = 0) : FoldsIn sum 0 := by
  refine ⟨fun k hk => absurd hk (Nat.not_lt_zero k), hstops, ?_⟩
  unfold foldCarries
  exact dif_pos hstops

theorem FoldsIn.turn {turns : Nat} (hgoes : upper sum ≠ 0) (h : FoldsIn (foldTurn sum) turns) :
    FoldsIn sum (turns + 1) := by
  refine ⟨fun k hk => ?_, h.stops, ?_⟩
  · cases k with
    | zero => exact hgoes
    | succ k => exact h.goesOn k (Nat.lt_of_succ_lt_succ hk)
  · unfold foldCarries
    exact (dif_neg hgoes).trans h.result

theorem toNat_foldTurn (sum : BitVec 32) :
    (foldTurn sum).toNat = sum.toNat % 65536 + sum.toNat / 65536 := toNat_foldStep sum

theorem upper_eq_zero_iff : upper sum = 0 ↔ sum.toNat < 65536 := by
  have hbound := sum.isLt
  rw [← BitVec.toNat_inj, upper, BitVec.toNat_setWidth, BitVec.toNat_ushiftRight,
    Nat.shiftRight_eq_div_pow]
  change sum.toNat / 65536 % 65536 = 0 ↔ _
  omega

/-- A first turn leaves at most one carry, and a second one takes it in. -/
theorem foldsIn_two (sum : BitVec 32) : ∃ turns ≤ 2, FoldsIn sum turns := by
  have hbound := sum.isLt
  have hfirst := toNat_foldTurn sum
  have hsecond := toNat_foldTurn (foldTurn sum)
  by_cases h0 : upper sum = 0
  · exact ⟨0, by omega, foldsIn_zero h0⟩
  by_cases h1 : upper (foldTurn sum) = 0
  · exact ⟨1, by omega, .turn h0 (foldsIn_zero h1)⟩
  have h2 : upper (foldTurn (foldTurn sum)) = 0 := by
    rw [upper_eq_zero_iff] at h1 ⊢
    omega
  exact ⟨2, by omega, .turn h0 (.turn h1 (foldsIn_zero h2))⟩

/-! ### The checksum -/

/-- Folding the carries of a sum of words gives their one's complement sum. -/
theorem setWidth_foldCarries {words : List (BitVec 16)} (hsum : sum.toNat = natSum words) :
    (foldCarries sum).setWidth 16 = onesSum words := by
  obtain ⟨hlt, hmod, hzero⟩ := foldCarries_spec sum
  have hlow : ((foldCarries sum).setWidth 16 : BitVec 16).toNat = (foldCarries sum).toNat := by
    rw [BitVec.toNat_setWidth]
    exact Nat.mod_eq_of_lt hlt
  rw [hsum] at hmod hzero
  apply eq_onesSum
  · rw [hlow]
    exact hmod
  · rw [hlow]
    exact hzero

theorem netChecksum_eq_onesSum (m : Memory) (len : BitVec 16) :
    netChecksum m len = ~~~onesSum (bigEndianWords (m.load 0 len.toNat)) := by
  rw [netChecksum_eq, BitVec.setWidth_not (by decide),
    setWidth_foldCarries (toNat_checksumSum m len)]

/-- What `net_checksum` does on the `len` bytes at `m`, and what its result is good for. -/
structure IsInternetChecksum (m : Memory) (len : BitVec 16) : Prop where
  /-- After each word the accumulator is the sum of the words so far, as a number. -/
  accumulates : ∀ n ≤ len.toNat / 2,
    (wordSum m n).toNat = natSum (bigEndianWords (m.load 0 (n * 2)))
  /-- So it is with the odd byte, before the carries are folded. -/
  accumulated : (checksumSum m len).toNat = natSum (bigEndianWords (m.load 0 len.toNat))
  /-- The loop that folds them ends, and its addition does not overflow either. -/
  folds : ∃ turns ≤ 2, FoldsIn (checksumSum m len) turns
  turn : ∀ sum, (foldTurn sum).toNat = sum.toNat % 65536 + sum.toNat / 65536
  result : netChecksum m len = ~~~onesSum (bigEndianWords (m.load 0 len.toNat))
  /-- Stored in a word of the buffer that was zero, the checksum makes the buffer verify. -/
  verifies : ∀ off, off % 2 = 0 → off + 2 ≤ len.toNat →
    let zeroed := m.store16 off 0
    netChecksum (zeroed.store16 off (htons (netChecksum zeroed len))) len = 0

theorem netChecksum_isInternetChecksum (m : Memory) (len : BitVec 16) :
    IsInternetChecksum m len := by
  have hlen := len.isLt
  constructor
  case accumulates => exact fun n hn => toNat_wordSum m (by omega)
  case accumulated => exact toNat_checksumSum m len
  case folds => exact foldsIn_two (checksumSum m len)
  case turn => exact toNat_foldTurn
  case result => exact netChecksum_eq_onesSum m len
  case verifies =>
    intro off heven hinside zeroed
    obtain ⟨p, rfl⟩ : ∃ p, off = p * 2 := ⟨off / 2, by omega⟩
    have hzero : wordAt zeroed p = 0 := by
      rw [wordAt, Memory.load16_store16]
      rfl
    exact netChecksum_store16 hzero (by omega)

end NetStack.Utility
