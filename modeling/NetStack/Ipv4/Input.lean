import NetStack.Icmpv4.Echo
import NetStack.Ipv4.Transmit
import NetStack.Tcp.Types

/-!
# IPv4 packets on the way in

`ipv4_input` of `protocols/ipv4.c` checks the header of a packet and hands it to the protocol
that the header names. ICMP gets the whole packet, TCP what follows the header.
-/

namespace NetStack.Ipv4
open NetStack.Lib NetStack.Utility NetStack.Icmpv4

/-- The calls `ipv4_input` makes, with their arguments. -/
inductive Ipv4Call where
  | icmpv4Input (buffer : Memory) (bufferLen : BitVec 16)
  | inputTcp (buffer : Memory) (length : BitVec 16) (srcIpv4Addr : Ipv4Addr)

/-- The switch of `ipv4_input` on the protocol of a packet that it has accepted. -/
def dispatchProtocol (header : Ipv4Header) (buffer : Memory) (headerLen totalLen : BitVec 16) :
    Option Ipv4Call :=
  if header.protocol = icmpProtocolNumber then some (.icmpv4Input buffer totalLen)
  else if header.protocol = Tcp.tcpProtocolNumber then
    some (.inputTcp (buffer.advance headerLen.toNat) (totalLen - headerLen) header.srcIpv4Addr)
  else none

/-- `ipv4_input`: the call it makes, if it accepts the packet. -/
def ipv4Input (selfNet : NetContext) (buffer : Memory) (bufferLen : BitVec 16) :
    Option Ipv4Call :=
  if bufferLen < headerLength then none
  else
    let header := Ipv4Header.read buffer
    let version := header.versionAndIhl >>> 4
    if version ≠ 4 then none
    else
      let ihl := header.versionAndIhl &&& 0x0F
      let headerLen : BitVec 16 := ihl.setWidth 16 * 4
      let totalLen := ntohs header.totalLength
      -- the buffer includes the padding of the frame
      if totalLen > bufferLen then none
      else if netChecksum buffer headerLen ≠ 0 then none
      else if header.dstIpv4Addr ≠ selfNet.ip then none
      -- no options
      else if headerLen ≠ headerLength then none
      else dispatchProtocol header buffer headerLen totalLen

end NetStack.Ipv4
