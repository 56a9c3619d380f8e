import NetStack.Utility.NetTypes

/-!
# Ethernet frames on the way out

`protocols/eth.c`: a payload behind a 14-byte header, copied into a heap block for the time of
the call of the driver.
-/

namespace NetStack.Eth
open NetStack.Lib

/-- What goes over the air: the bytes handed to `wifi_tx_raw` and how many of them. -/
structure Frame where
  bytes : Memory
  len : BitVec 16

/-- What the environment decides in one call of `eth_tx`: the initial contents of the block
    `malloc` returns (`none` when it fails) and the result of `wifi_tx_raw`. -/
structure EthEnv where
  malloc : Option Memory
  wifiTxRaw : EspErr

/-- `eth_tx`: the frame handed to the driver, if any, and the result. -/
def ethTx (dstMac srcMac : MacAddr) (ethertype : BitVec 16) (payload : Memory)
    (payloadLen : BitVec 16) (env : EthEnv) : Option Frame × EspErr :=
  match env.malloc with
  | none => (none, .noMem)
  | some heap =>
      let frame := heap.store 0 dstMac.bytes
      let frame := frame.store 6 srcMac.bytes
      let frame := frame.store16 12 ethertype
      let frame := frame.store 14 (payload.load 0 payloadLen.toNat)
      (some ⟨frame, 14 + payloadLen⟩, env.wifiTxRaw)

end NetStack.Eth
