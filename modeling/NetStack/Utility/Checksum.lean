import NetStack.Utility.Endian

/-!
# The internet checksum

`net_checksum` of `utility/checksum.c`: 16-bit words in network order summed in a 32-bit
accumulator, an odd last byte padded on the right, the carries folded back until none is
left, and the complement of the low half.
-/

namespace NetStack.Utility
open NetStack.Lib

/-- The summing loop over the whole words. -/
def wordSum (header : Memory) (wordCount : Nat) : BitVec 32 :=
  (List.range wordCount).foldl
    (fun sum i => sum + (ntohs (header.load16 (i * 2))).setWidth 32) 0

/-- One turn of the folding loop as arithmetic. -/
theorem toNat_foldStep (sum : BitVec 32) :
    ((sum &&& 0xFFFF#32) + ((sum >>> 16).setWidth 16 : BitVec 16).setWidth 32).toNat =
      sum.toNat % 65536 + sum.toNat / 65536 := by
  have hmask : (sum &&& 0xFFFF#32).toNat = sum.toNat % 65536 := by
    rw [BitVec.toNat_and]
    exact Nat.and_two_pow_sub_one_eq_mod sum.toNat 16
  have hbound := sum.isLt
  have hupper : ((sum >>> 16).setWidth 16 : BitVec 16).toNat = sum.toNat / 65536 := by
    rw [BitVec.toNat_setWidth, BitVec.toNat_ushiftRight, Nat.shiftRight_eq_div_pow,
      Nat.mod_eq_of_lt (by omega)]
  rw [BitVec.toNat_add, hmask, BitVec.toNat_setWidth, hupper]
  omega

/-- One turn of the folding loop makes the sum smaller while its upper half is not zero. -/
theorem fold_lt (sum : BitVec 32) (h : (sum >>> 16).setWidth 16 ≠ (0 : BitVec 16)) :
    ((sum &&& 0xFFFF#32) + ((sum >>> 16).setWidth 16 : BitVec 16).setWidth 32).toNat < sum.toNat := by
  have hpos : sum.toNat / 65536 ≠ 0 := by
    intro hzero
    apply h
    apply BitVec.eq_of_toNat_eq
    simp [hzero, Nat.shiftRight_eq_div_pow]
  rw [toNat_foldStep]
  omega

/-- The folding loop. -/
def foldCarries (sum : BitVec 32) : BitVec 32 :=
  if _h : (sum >>> 16).setWidth 16 = (0 : BitVec 16) then sum
  else foldCarries ((sum &&& 0xFFFF#32) + ((sum >>> 16).setWidth 16 : BitVec 16).setWidth 32)
termination_by sum.toNat
decreasing_by exact fold_lt sum _h

/-- `net_checksum`. -/
def netChecksum (header : Memory) (headerLenBytes : BitVec 16) : BitVec 16 :=
  let wordCount := headerLenBytes.toNat / 2
  let sum := wordSum header wordCount
  let sum :=
    if headerLenBytes &&& 1 ≠ 0 then
      let word : BitVec 16 := (header (wordCount * 2)).setWidth 16
      sum + (ntohs word).setWidth 32
    else sum
  (~~~(foldCarries sum)).setWidth 16

end NetStack.Utility
