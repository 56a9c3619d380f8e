import NetStack.Ipv4.Proofs.Acceptance
import NetStack.Lib.Reading

/-!
# What IPv4 reads of a packet and what it passes on

`ipv4_input` sums the header over the length that the packet gives for it, before it rejects
options, and subtracts this length from the total length without comparing the two. It stays
inside the packet exactly when the header that is summed lies in the buffer, and a packet that
passes all checks is at least as long as its header.
-/

namespace NetStack.Ipv4
open NetStack.Lib NetStack.Utility NetStack.Icmpv4

/-- The summing loop of `net_checksum`, byte by byte. -/
def readWordSum : Nat → Reading (BitVec 32)
  | 0 => return 0
  | n + 1 => do
      let sum ← readWordSum n
      let word ← Reading.load16 (n * 2)
      return sum + (ntohs word).setWidth 32

/-- `net_checksum`, byte by byte. -/
def readChecksum (headerLenBytes : BitVec 16) : Reading (BitVec 16) := do
  let wordCount := headerLenBytes.toNat / 2
  let sum ← readWordSum wordCount
  if headerLenBytes &&& 1 ≠ 0 then do
    let last ← Reading.load8 (wordCount * 2)
    return (~~~(foldCarries (sum + (ntohs (last.setWidth 16)).setWidth 32))).setWidth 16
  else return (~~~(foldCarries sum)).setWidth 16

/-- What `ipv4_input` knows of a packet that has passed its checks. -/
structure Accepted where
  header : Ipv4Header
  headerLen : BitVec 16
  totalLen : BitVec 16

/-- `ipv4_input` from the checksum to the switch on the protocol, byte by byte. -/
def readVerified (selfNet : NetContext) (header : Ipv4Header) (headerLen : BitVec 16) :
    Reading (Option Accepted) := do
  let checksum ← readChecksum headerLen
  if checksum ≠ 0 then return none
  else if header.dstIpv4Addr ≠ selfNet.ip then return none
  else if headerLen ≠ headerLength then return none
  else return some ⟨header, headerLen, ntohs header.totalLength⟩

/-- `ipv4_input` up to the switch on the protocol, byte by byte. -/
def readIpv4Input (selfNet : NetContext) (bufferLen : BitVec 16) : Reading (Option Accepted) :=
  if bufferLen < headerLength then return none
  else do
    let bytes ← Reading.load 0 20
    let header := Ipv4Header.read (.ofBytes bytes)
    if header.versionAndIhl >>> 4 ≠ 4 then return none
    else if ntohs header.totalLength > bufferLen then return none
    else readVerified selfNet header ((header.versionAndIhl &&& 0x0F).setWidth 16 * 4)

/-- The slice of the packet that is passed to a protocol: where it starts, and its length. -/
def Accepted.slice (p : Accepted) : Option (Nat × BitVec 16) :=
  if p.header.protocol = icmpProtocolNumber then some (0, p.totalLen)
  else if p.header.protocol = Tcp.tcpProtocolNumber then
    some (p.headerLen.toNat, p.totalLen - p.headerLen)
  else none

/-- The pointer and the length that a call is given. -/
def Ipv4Call.slice : Ipv4Call → Memory × BitVec 16
  | .icmpv4Input buffer bufferLen => (buffer, bufferLen)
  | .inputTcp buffer length _ => (buffer, length)

/-- `ipv4_input` reads only bytes of the buffer, `total_len - header_len` does not wrap, and
    what it passes on lies in the first `total_len` bytes. -/
structure StaysInPacket (selfNet : NetContext) (buffer : Memory) (bufferLen : BitVec 16) : Prop where
  reads : (readIpv4Input selfNet bufferLen).Inside bufferLen.toNat buffer
  noWrap : ∀ p, (readIpv4Input selfNet bufferLen).run buffer = some p →
    p.headerLen.toNat ≤ p.totalLen.toNat
  passes : ∀ p start len, (readIpv4Input selfNet bufferLen).run buffer = some p →
    p.slice = some (start, len) → start + len.toNat ≤ p.totalLen.toNat

/-- If the checksum is computed at all, the header lies in the buffer, and a packet that passes
    the checks is as long as its header. -/
def HeaderInPacket (selfNet : NetContext) (buffer : Memory) (bufferLen : BitVec 16) : Prop :=
  (20 ≤ bufferLen.toNat → buffer 0 >>> 4 = 4 → (totalLength buffer).toNat ≤ bufferLen.toNat →
    4 * (buffer 0 &&& 0x0F).toNat ≤ bufferLen.toNat) ∧
  (Passes selfNet buffer bufferLen → 20 ≤ (totalLength buffer).toNat)

/-! ### The reads are those of the code -/

section Checksum
variable (m : Memory)

@[simp] theorem run_readWordSum (n : Nat) : (readWordSum n).run m = wordSum m n := by
  induction n with
  | zero => rfl
  | succ n ih =>
      rw [wordSum_succ, ← ih]
      simp [readWordSum, wordAt]

@[simp] theorem run_readChecksum (len : BitVec 16) :
    (readChecksum len).run m = netChecksum m len := by
  unfold readChecksum netChecksum
  simp only [Reading.run_bind, run_readWordSum]
  split <;> rfl

variable {m} {k : Nat}

theorem inside_readWordSum {n : Nat} : (readWordSum n).Inside k m ↔ 2 * n ≤ k := by
  induction n with
  | zero => simp [readWordSum]
  | succ n ih =>
      simp only [readWordSum, Reading.inside_bind, ih, Reading.inside_load16,
        Reading.inside_pure, and_true]
      omega

/-- The checksum reads the bytes it is about. -/
theorem inside_readChecksum {len : BitVec 16} :
    (readChecksum len).Inside k m ↔ len.toNat ≤ k := by
  unfold readChecksum
  simp only [Reading.inside_bind, inside_readWordSum]
  split
  case isTrue hodd =>
      have hlen := (odd_iff len).mp hodd
      simp only [Reading.inside_bind, Reading.inside_load8, Reading.inside_pure, and_true]
      omega
  case isFalse heven =>
      have hlen := (odd_iff len).not.mp heven
      simp only [Reading.inside_pure, and_true]
      omega

end Checksum

section Packet
variable {selfNet : NetContext} {buffer : Memory} {bufferLen : BitVec 16}

/-- The header that is copied out of the packet. -/
theorem read_copied (buffer : Memory) :
    Ipv4Header.read (.ofBytes (buffer.load 0 20)) = Ipv4Header.read buffer := by
  have hbyte : ∀ k < 20, Memory.ofBytes (buffer.load 0 20) k = buffer k := by
    intro k hk
    simp [Memory.ofBytes, Memory.load, hk]
  simp only [Ipv4Header.read, Ipv4Addr.read, Memory.load16, hbyte, Nat.reduceLT, Nat.reduceAdd]

theorem run_readIpv4Input_eq_some_iff {p : Accepted} :
    (readIpv4Input selfNet bufferLen).run buffer = some p ↔
      Passes selfNet buffer bufferLen ∧
        p = ⟨Ipv4Header.read buffer, headerLength, totalLength buffer⟩ := by
  have hchecks : (readIpv4Input selfNet bufferLen).run buffer =
      if bufferLen < headerLength then none
      else if (Ipv4Header.read buffer).versionAndIhl >>> 4 ≠ 4 then none
      else if ntohs (Ipv4Header.read buffer).totalLength > bufferLen then none
      else if netChecksum buffer (headerLenOf buffer) ≠ 0 then none
      else if (Ipv4Header.read buffer).dstIpv4Addr ≠ selfNet.ip then none
      else if headerLenOf buffer ≠ headerLength then none
      else some ⟨Ipv4Header.read buffer, headerLenOf buffer, totalLength buffer⟩ := by
    unfold readIpv4Input
    split
    · rfl
    · simp only [Reading.run_bind, Reading.run_load, read_copied]
      split
      · rfl
      · split
        · rfl
        · simp only [readVerified, Reading.run_bind, run_readChecksum]
          split_ifs <;> first | rfl | contradiction
  rw [hchecks]
  refine checks_eq_some_iff.trans (and_congr_right fun hpasses => ?_)
  rw [hpasses.headerLen, Option.some.injEq, eq_comm]

/-- The program with the switch is `ipv4_input`. -/
theorem run_readIpv4Input :
    ((readIpv4Input selfNet bufferLen).run buffer).bind (fun p =>
      dispatchProtocol p.header buffer p.headerLen p.totalLen) =
      ipv4Input selfNet buffer bufferLen := by
  apply Option.ext
  intro call
  rw [ipv4Input_eq_some_iff, Option.bind_eq_some_iff]
  simp only [run_readIpv4Input_eq_some_iff]
  constructor
  · rintro ⟨p, ⟨hpasses, rfl⟩, hcall⟩
    exact ⟨hpasses, hcall⟩
  · rintro ⟨hpasses, hcall⟩
    exact ⟨_, ⟨hpasses, rfl⟩, hcall⟩

/-- What a protocol is given is the slice. -/
theorem slice_dispatchProtocol (p : Accepted) :
    (dispatchProtocol p.header buffer p.headerLen p.totalLen).map Ipv4Call.slice =
      p.slice.map fun s => (buffer.advance s.1, s.2) := by
  have hstart : buffer.advance 0 = buffer := by
    funext k
    rw [Memory.advance, Nat.zero_add]
  unfold dispatchProtocol Accepted.slice
  split_ifs
  · simp [Ipv4Call.slice, hstart]
  · rfl
  · rfl

theorem inside_readVerified {header : Ipv4Header} {headerLen : BitVec 16} {n : Nat} :
    (readVerified selfNet header headerLen).Inside n buffer ↔ headerLen.toNat ≤ n := by
  rw [readVerified, Reading.inside_bind, inside_readChecksum]
  apply and_iff_left
  split_ifs <;> exact Reading.inside_pure _ _

theorem toNat_headerLenOf (buffer : Memory) :
    (headerLenOf buffer).toNat = 4 * (buffer 0 &&& 0x0F).toNat := by
  have hsmall := (buffer 0 &&& 0x0F).isLt
  change (((buffer 0 &&& 0x0F).setWidth 16 : BitVec 16) * 4).toNat = _
  rw [BitVec.toNat_mul, BitVec.toNat_setWidth]
  change (buffer 0 &&& 0x0F).toNat % 65536 * 4 % 65536 = _
  omega

/-- Where the checksum is computed, the reads are inside exactly if the header is. -/
theorem inside_readIpv4Input_iff :
    (readIpv4Input selfNet bufferLen).Inside bufferLen.toNat buffer ↔
      (20 ≤ bufferLen.toNat → buffer 0 >>> 4 = 4 →
        (totalLength buffer).toNat ≤ bufferLen.toNat →
        4 * (buffer 0 &&& 0x0F).toNat ≤ bufferLen.toNat) := by
  unfold readIpv4Input
  split
  case isTrue hshort =>
      refine ⟨fun _ hlong => ?_, fun _ => Reading.inside_pure _ _⟩
      rw [BitVec.lt_def] at hshort
      exact absurd hshort (Nat.not_lt.mpr hlong)
  case isFalse hlong =>
      rw [BitVec.lt_def] at hlong
      have hlong : 20 ≤ bufferLen.toNat := Nat.not_lt.mp hlong
      simp only [Reading.inside_bind, Reading.run_load, read_copied]
      rw [and_iff_right (Reading.inside_load buffer (by omega))]
      change Reading.Inside _ _ (if buffer 0 >>> 4 ≠ 4 then _
        else if totalLength buffer > bufferLen then _
        else readVerified selfNet (Ipv4Header.read buffer) (headerLenOf buffer)) ↔ _
      split
      case isTrue hversion =>
          exact ⟨fun _ _ h => absurd h hversion, fun _ => Reading.inside_pure _ _⟩
      case isFalse hversion =>
          split
          case isTrue hover =>
              rw [gt_iff_lt, BitVec.lt_def] at hover
              exact ⟨fun _ _ _ h => absurd hover (Nat.not_lt.mpr h), fun _ => Reading.inside_pure _ _⟩
          case isFalse hfits =>
              rw [gt_iff_lt, BitVec.lt_def, Nat.not_lt] at hfits
              rw [inside_readVerified, toNat_headerLenOf]
              exact ⟨fun h _ _ _ => h, fun h => h hlong (not_not.mp hversion) hfits⟩

/-- IPv4 stays inside the packet exactly when the header does. -/
theorem staysInPacket_iff (selfNet : NetContext) (buffer : Memory) (bufferLen : BitVec 16) :
    StaysInPacket selfNet buffer bufferLen ↔ HeaderInPacket selfNet buffer bufferLen := by
  constructor
  · rintro ⟨hreads, hnoWrap, -⟩
    refine ⟨inside_readIpv4Input_iff.mp hreads, ?_⟩
    intro hpasses
    exact hnoWrap _ (run_readIpv4Input_eq_some_iff.mpr ⟨hpasses, rfl⟩)
  · rintro ⟨hreads, hlong⟩
    refine ⟨inside_readIpv4Input_iff.mpr hreads, ?_, ?_⟩
    · intro p hp
      obtain ⟨hpasses, rfl⟩ := run_readIpv4Input_eq_some_iff.mp hp
      exact hlong hpasses
    · intro p start len hp hslice
      obtain ⟨hpasses, rfl⟩ := run_readIpv4Input_eq_some_iff.mp hp
      have htotal := hlong hpasses
      unfold Accepted.slice at hslice
      split_ifs at hslice
      · obtain ⟨rfl, rfl⟩ := Prod.mk.inj (Option.some.inj hslice)
        exact Nat.le_of_eq (Nat.zero_add _)
      · obtain ⟨rfl, rfl⟩ := Prod.mk.inj (Option.some.inj hslice)
        have hbound := (totalLength buffer).isLt
        rw [BitVec.toNat_sub]
        change 20 + (2 ^ 16 - 20 + (totalLength buffer).toNat) % 2 ^ 16 ≤ (totalLength buffer).toNat
        omega

end Packet

/-- A packet for 10.0.0.2 with the protocol TCP, whose total length is zero. -/
def emptyTotal : Memory :=
  .ofBytes [0x45, 0, 0, 0, 0, 1, 0x40, 0, 128, 6, 0xE6, 0xF4, 10, 0, 0, 1, 10, 0, 0, 2]

/-- TCP is told that 65516 bytes follow the header in a buffer of 20. -/
theorem total_below_header :
    ∃ b src, ipv4Input ⟨⟨2, 0, 0, 0, 0, 2⟩, ⟨10, 0, 0, 2⟩⟩ emptyTotal 20 =
        some (.inputTcp b 65516 src) ∧
      ¬ StaysInPacket ⟨⟨2, 0, 0, 0, 0, 2⟩, ⟨10, 0, 0, 2⟩⟩ emptyTotal 20 := by
  have hpasses : Passes ⟨⟨2, 0, 0, 0, 0, 2⟩, ⟨10, 0, 0, 2⟩⟩ emptyTotal 20 := by
    decide +kernel
  have htotal : totalLength emptyTotal = 0 := by decide +kernel
  refine ⟨emptyTotal.advance 20, ⟨10, 0, 0, 1⟩, ipv4Input_eq_some_iff.mpr ⟨hpasses, ?_⟩,
    fun hstays => ?_⟩
  · rw [htotal]
    rfl
  · have hlong : 20 ≤ (totalLength emptyTotal).toNat :=
      hstays.noWrap _ (run_readIpv4Input_eq_some_iff.mpr ⟨hpasses, rfl⟩)
    rw [htotal] at hlong
    exact absurd hlong (by decide)

end NetStack.Ipv4
