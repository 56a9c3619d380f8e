import NetStack.Utility.NetTypes

/-!
# What the transport protocols share with IPv4

What they hand to it for transmission, and the packed header, which `ipv4_input` and
`icmpv4_input` both copy out of the packet.
-/

namespace NetStack

/-- `IPV4_ETHERTYPE`. -/
def ipv4Ethertype : BitVec 16 := 0x800

/-- `struct ipv4_transmit_params_t`. -/
structure Ipv4TransmitParams where
  srcIpv4Addr : Ipv4Addr
  dstIpv4Addr : Ipv4Addr
  protocol : BitVec 8
  data : Option Block
  dataLen : BitVec 16

/-- `struct ipv4_header_t`, its 16-bit fields as they stand in memory. -/
structure Ipv4Header where
  versionAndIhl : BitVec 8
  dscpAndEcn : BitVec 8
  totalLength : BitVec 16
  identification : BitVec 16
  flagsAndFragmentOffset : BitVec 16
  ttl : BitVec 8
  protocol : BitVec 8
  headerChecksum : BitVec 16
  srcIpv4Addr : Ipv4Addr
  dstIpv4Addr : Ipv4Addr

/-- `memcpy(&header, buffer, sizeof(struct ipv4_header_t))`. -/
def Ipv4Header.read (buffer : Lib.Memory) : Ipv4Header where
  versionAndIhl := buffer 0
  dscpAndEcn := buffer 1
  totalLength := buffer.load16 2
  identification := buffer.load16 4
  flagsAndFragmentOffset := buffer.load16 6
  ttl := buffer 8
  protocol := buffer 9
  headerChecksum := buffer.load16 10
  srcIpv4Addr := .read buffer 12
  dstIpv4Addr := .read buffer 16

/-- `sizeof(struct ipv4_header_t)`. -/
def ipv4HeaderSize : BitVec 16 := 20

end NetStack
