import NetStack.Lib.Memory
import Mathlib.Tactic.IntervalCases

/-!
# Byte order

The conversion helpers of `utility/endian.h`. The host is little-endian, so that a 16-bit
load followed by `ntohs` gives the two bytes in the order in which they travel.
-/

namespace NetStack.Utility
open NetStack.Lib

/-- `ntohs`: network byte order to host byte order. -/
def ntohs (netValue : BitVec 16) : BitVec 16 :=
  ((netValue &&& 0xFF) <<< 8) ||| ((netValue >>> 8) &&& 0xFF)

/-- `ntohl`: network byte order to host byte order. -/
def ntohl (netValue : BitVec 32) : BitVec 32 :=
  ((netValue &&& 0xFF) <<< 24) |||
    (((netValue >>> 8) &&& 0xFF) <<< 16) |||
    (((netValue >>> 16) &&& 0xFF) <<< 8) |||
    ((netValue >>> 24) &&& 0xFF)

/-- `htons`: byte swapping is symmetric. -/
def htons (hostValue : BitVec 16) : BitVec 16 := ntohs hostValue

/-- `htonl`: byte swapping is symmetric. -/
def htonl (hostValue : BitVec 32) : BitVec 32 := ntohl hostValue

private theorem getLsbD_byteMask16 (i : Nat) : (0xFF#16).getLsbD i = decide (i < 8) := by
  by_cases h : i < 16
  · interval_cases i <;> rfl
  · simp [BitVec.getLsbD_of_ge _ _ (Nat.le_of_not_lt h)]
    omega

private theorem getLsbD_byteMask32 (i : Nat) : (0xFF#32).getLsbD i = decide (i < 8) := by
  by_cases h : i < 32
  · interval_cases i <;> rfl
  · simp [BitVec.getLsbD_of_ge _ _ (Nat.le_of_not_lt h)]
    omega

/-- `ntohs` undoes `htons`. -/
theorem ntohs_htons (v : BitVec 16) : ntohs (htons v) = v := by
  ext i hi
  simp [ntohs, htons, ← BitVec.getLsbD_eq_getElem, getLsbD_byteMask16]
  grind

/-- `ntohl` undoes `htonl`. -/
theorem ntohl_htonl (v : BitVec 32) : ntohl (htonl v) = v := by
  ext i hi
  simp [ntohl, htonl, ← BitVec.getLsbD_eq_getElem, getLsbD_byteMask32]
  grind

/-- `ntohs` of a 16-bit load is the two bytes in the order in which they travel. -/
theorem ntohs_load16 (m : Memory) (off : Nat) : ntohs (m.load16 off) = m off ++ m (off + 1) := by
  ext i hi
  simp [ntohs, Memory.load16, ← BitVec.getLsbD_eq_getElem, getLsbD_byteMask16]
  grind

/-- A 16-bit field in network order, byte by byte. -/
theorem ntohs_load16_eq_iff {m : Memory} {off : Nat} {v : BitVec 16} :
    ntohs (m.load16 off) = v ↔
      m off = v.extractLsb' 8 8 ∧ m (off + 1) = v.extractLsb' 0 8 := by
  rw [ntohs_load16]
  constructor
  · rintro rfl
    exact ⟨BitVec.extractLsb'_append_eq_left.symm, BitVec.extractLsb'_append_eq_right.symm⟩
  · rintro ⟨hhigh, hlow⟩
    rw [hhigh, hlow]
    exact BitVec.extractLsb'_append_extractLsb'

/-- The two bytes of a value in the order in which they travel. -/
def netBytes (v : BitVec 16) : List (BitVec 8) := [v.extractLsb' 8 8, v.extractLsb' 0 8]

@[simp] theorem netBytes_length (v : BitVec 16) : (netBytes v).length = 2 := rfl

/-- Storing a value in network order stores its bytes in that order. -/
theorem store16_htons (m : Memory) (off : Nat) (v : BitVec 16) :
    m.store16 off (htons v) = m.store off (netBytes v) := by
  have hbytes := ntohs_load16_eq_iff.mp
    (show ntohs ((m.store16 off (htons v)).load16 off) = v by
      rw [Memory.load16_store16, ntohs_htons])
  funext i
  by_cases hi : i < off ∨ off + 2 ≤ i
  · rw [Memory.store16, Memory.store_outside _ _ hi, Memory.store_outside _ _ hi]
  · obtain rfl | rfl : i = off ∨ i = off + 1 := by omega
    · rw [hbytes.1]
      exact (m.store_inside i (k := 0) (netBytes v) (by simp)).symm
    · rw [hbytes.2]
      exact (m.store_inside off (k := 1) (netBytes v) (by simp)).symm

end NetStack.Utility
