import NetStack.Tcp.Input
import NetStack.Tcp.Commands

/-!
# Keys and port resolution

A request and a segment name their port by the triple that `find_port` compares. What a
triple resolves to depends on the keys of the ports only, and changes only when a port gives
up or takes over a key.
-/

namespace NetStack.Tcp
open NetStack.Lib

/-- Local port, remote port, remote address: what `find_port` compares. -/
abbrev Key := BitVec 16 × BitVec 16 × Ipv4Addr

/-- The key of a port. -/
def TcpPort.key (p : TcpPort) : Key := (p.selfPortNum, p.otherPortNum, p.otherIpv4Addr)

/-- The key a transmit request is resolved with. -/
def TcpTransmitParams.key (params : TcpTransmitParams) : Key :=
  (params.srcPort, params.dstPort, params.dstIpv4Addr)

/-- The key a segment is resolved with. -/
def Segment.key (seg : Segment) : Key :=
  (seg.header.dstPort, seg.header.srcPort, seg.srcIpv4Addr)

theorem hasKey_iff {p : TcpPort} {self other : BitVec 16} {addr : Ipv4Addr} :
    p.hasKey self other addr = true ↔ p.key = (self, other, addr) := by
  simp [TcpPort.hasKey, TcpPort.key, and_assoc]

theorem hasKey_eq_false_iff {p : TcpPort} {self other : BitVec 16} {addr : Ipv4Addr} :
    p.hasKey self other addr = false ↔ p.key ≠ (self, other, addr) := by
  rw [← Bool.not_eq_true, hasKey_iff]

theorem findPort_eq_some_iff {g : Globals} {self other : BitVec 16} {addr : Ipv4Addr}
    {i : PortIdx} :
    findPort g self other addr = some i ↔
      (g.ports i).key = (self, other, addr) ∧ ∀ j < i, (g.ports j).key ≠ (self, other, addr) := by
  simp only [findPort, firstIdx_eq_some_iff, hasKey_iff, hasKey_eq_false_iff]

theorem findPort_eq_none_iff {g : Globals} {self other : BitVec 16} {addr : Ipv4Addr} :
    findPort g self other addr = none ↔ ∀ i, (g.ports i).key ≠ (self, other, addr) := by
  simp only [findPort, firstIdx_eq_none_iff, hasKey_eq_false_iff]

theorem findParamsPort_eq_some_iff {g : Globals} {params : TcpTransmitParams} {i : PortIdx} :
    findParamsPort g params = some i ↔
      (g.ports i).key = params.key ∧ ∀ j < i, (g.ports j).key ≠ params.key :=
  findPort_eq_some_iff

theorem findParamsPort_eq_none_iff {g : Globals} {params : TcpTransmitParams} :
    findParamsPort g params = none ↔ ∀ i, (g.ports i).key ≠ params.key :=
  findPort_eq_none_iff

/-- The port a request resolves to has its key. -/
theorem findParamsPort_key {g : Globals} {params : TcpTransmitParams} {i : PortIdx}
    (h : findParamsPort g params = some i) : (g.ports i).key = params.key :=
  (findParamsPort_eq_some_iff.mp h).1

theorem findPort_congr {g g' : Globals} (hkeys : ∀ i, (g'.ports i).key = (g.ports i).key)
    (self other : BitVec 16) (addr : Ipv4Addr) :
    findPort g' self other addr = findPort g self other addr := by
  apply firstIdx_congr
  intro i
  rw [Bool.eq_iff_iff, hasKey_iff, hasKey_iff, hkeys i]

theorem findParamsPort_congr {g g' : Globals}
    (hkeys : ∀ i, (g'.ports i).key = (g.ports i).key) (params : TcpTransmitParams) :
    findParamsPort g' params = findParamsPort g params :=
  findPort_congr hkeys _ _ _

/-- When the only live port with the key of a request is `i`, the request resolves to it. -/
theorem findParamsPort_of_unique {g : Globals} {params : TcpTransmitParams} {i : PortIdx}
    (hi : (g.ports i).key = params.key) (hother : ∀ j ≠ i, (g.ports j).key ≠ params.key) :
    findParamsPort g params = some i :=
  findParamsPort_eq_some_iff.mpr ⟨hi, fun j hj => hother j (ne_of_lt hj)⟩

/-- Port `k` gets a new key that is not the one of the request: what resolved to another
    port still does. -/
theorem findParamsPort_of_moved {g g' : Globals} {k i : PortIdx} {params : TcpTransmitParams}
    (hsame : ∀ j ≠ k, (g'.ports j).key = (g.ports j).key) (hk : (g'.ports k).key ≠ params.key)
    (hi : i ≠ k) (h : findParamsPort g params = some i) : findParamsPort g' params = some i := by
  obtain ⟨hkey, hfirst⟩ := findParamsPort_eq_some_iff.mp h
  refine findParamsPort_eq_some_iff.mpr ⟨(hsame i hi).trans hkey, fun j hj => ?_⟩
  by_cases hjk : j = k
  · exact hjk ▸ hk
  · exact (hsame j hjk).symm ▸ hfirst j hj

/-- Port `k` loses the key of a request that did not resolve to it: nothing changes. -/
theorem findParamsPort_of_left {g g' : Globals} {k : PortIdx} {params : TcpTransmitParams}
    (hsame : ∀ j ≠ k, (g'.ports j).key = (g.ports j).key) (hk : (g'.ports k).key ≠ params.key)
    (hnot : findParamsPort g params ≠ some k) :
    findParamsPort g' params = findParamsPort g params := by
  cases h : findParamsPort g params with
  | some i =>
      have hi : i ≠ k := fun hik => hnot (hik ▸ h)
      exact findParamsPort_of_moved hsame hk hi h
  | none =>
      apply findParamsPort_eq_none_iff.mpr
      intro j
      by_cases hjk : j = k
      · exact hjk ▸ hk
      · exact (hsame j hjk).symm ▸ findParamsPort_eq_none_iff.mp h j

theorem findListeningPort_some {g : Globals} {self : BitVec 16} {i : PortIdx}
    (h : findListeningPort g self = some i) :
    (g.ports i).selfPortNum = self ∧ (g.ports i).state = .listen ∧
      (g.ports i).otherIpv4Addr = ipv4AllZeroes := by
  have := firstIdx_some h
  simpa [and_assoc] using this

theorem findUnusedPort_some {g : Globals} {i : PortIdx} (h : findUnusedPort g = some i) :
    (g.ports i).selfPortNum = 0 := by
  simpa using firstIdx_some h

/-- A segment resolves by its key, or it is a SYN whose key no port has and that goes to a
    listening port. -/
theorem findSegmentPort_some {g : Globals} {seg : Segment} {i : PortIdx}
    (h : findSegmentPort g seg = some i) :
    (g.ports i).key = seg.key ∨
      (∀ j, (g.ports j).key ≠ seg.key) ∧ seg.syn = true ∧
        (g.ports i).selfPortNum = seg.header.dstPort ∧ (g.ports i).state = .listen := by
  unfold findSegmentPort at h
  split at h
  case h_1 j hfind =>
      obtain rfl := Option.some.inj h
      exact .inl (findPort_eq_some_iff.mp hfind).1
  case h_2 hnone =>
      split at h
      case isTrue hsyn =>
          obtain ⟨hself, hstate, -⟩ := findListeningPort_some h
          exact .inr ⟨findPort_eq_none_iff.mp hnone, hsyn, hself, hstate⟩
      case isFalse => cases h

/-- No slot before the one that a segment resolves to has its key, and either that one has it or
    none. -/
theorem findSegmentPort_first {g : Globals} {seg : Segment} {i : PortIdx}
    (h : findSegmentPort g seg = some i) :
    (∀ j < i, (g.ports j).key ≠ seg.key) ∧
      ((g.ports i).key = seg.key ∨ ∀ j, (g.ports j).key ≠ seg.key) := by
  cases hfind : findPort g seg.header.dstPort seg.header.srcPort seg.srcIpv4Addr with
  | some j =>
      simp only [findSegmentPort, hfind] at h
      obtain rfl := Option.some.inj h
      obtain ⟨hkey, hfirst⟩ := findPort_eq_some_iff.mp hfind
      exact ⟨hfirst, .inl hkey⟩
  | none =>
      have hnone := findPort_eq_none_iff.mp hfind
      exact ⟨fun j _ => hnone j, .inr hnone⟩

/-- What `checkSegment` lets through. -/
theorem checkSegment_accept {g : Globals} {seg : Segment} {i : PortIdx}
    (h : checkSegment g seg = .accept i) :
    findSegmentPort g seg = some i ∧ (g.ports i).state ≠ .closed ∧ seg.rst = false ∧
      outOfSequence (g.ports i) seg = false ∧ (seg.ack = true ∨ seg.syn = true) := by
  unfold checkSegment at h
  split at h
  · cases h
  split at h
  · cases h
  case h_2 j hfind =>
      split_ifs at h with hclosed hrst hseq hack
      obtain rfl := Verdict.accept.inj h
      refine ⟨hfind, hclosed, by simpa using hrst, by simpa using hseq, ?_⟩
      cases hs : seg.syn <;> simp_all

theorem checkSegment_reset {g : Globals} {seg : Segment} {i : PortIdx}
    (h : checkSegment g seg = .reset i) :
    findSegmentPort g seg = some i ∧ (g.ports i).state ≠ .closed ∧ seg.rst = true := by
  unfold checkSegment at h
  split at h
  · cases h
  split at h
  · cases h
  case h_2 j hfind =>
      split_ifs at h with hclosed hrst hseq hack
      obtain rfl := Verdict.reset.inj h
      exact ⟨hfind, hclosed, hrst⟩

/-- The verdict on a segment depends on the ports only. -/
theorem checkSegment_congr {g g' : Globals} (hports : g'.ports = g.ports) (seg : Segment) :
    checkSegment g' seg = checkSegment g seg := by
  simp [checkSegment, findSegmentPort, findPort, findListeningPort, hports]

end NetStack.Tcp
