import NetStack.Node.System

/-!
# A network of nodes

Any number of nodes on one link, with everything that they have put on the air. Every frame that has been
sent may reach every node, at any time, as often as it likes, with any padding behind it, or not at all:
the link may lose, repeat, delay and reorder frames, but it changes none. Frames of other stations may
arrive at any time.
-/

namespace NetStack
open NetStack.Lib NetStack.Eth NetStack.WifiManager

/-- The call of `wifi_rxcb`, which is the driver's. -/
def NodeAction.isRx : NodeAction → Bool
  | .wifiRxcb _ _ _ _ => true
  | _ => false

/-- The nodes, by their names. -/
abbrev Network (ι : Type) := ι → Node

/-- The choices of the environment. -/
inductive NetworkAction (ι : Type) where
  /-- A step of a node, but for `wifi_rxcb`. -/
  | node (i : ι) (a : NodeAction)
  /-- The `k`-th frame that `sender` has sent reaches `receiver`, with `padding` behind it. -/
  | deliver (sender receiver : ι) (k : Nat) (padding : Memory) (len : BitVec 16) (eb : Option Nat)
      (env : RxEnv)
  /-- A frame of another station reaches `receiver`. -/
  | foreign (receiver : ι) (frame : Memory) (len : BitVec 16) (eb : Option Nat) (env : RxEnv)

namespace Network
variable {ι : Type} [DecidableEq ι]

/-- A step of the node `i`. -/
def stepNode (s : Network ι) (i : ι) (a : NodeAction) : Option (Network ι) :=
  (Node.step (s i) a).map (Function.update s i)

/-- One step of the network. -/
def step (s : Network ι) : NetworkAction ι → Option (Network ι)
  | .node i a => if a.isRx then none else s.stepNode i a
  | .deliver sender receiver k padding len eb env =>
      match (s sender).frames[k]? with
      | none => none
      | some frame =>
          if len < frame.len then none
          else s.stepNode receiver
            (.wifiRxcb (frame.bytes.upTo frame.len.toNat padding) len eb env)
  | .foreign receiver frame len eb env => s.stepNode receiver (.wifiRxcb frame len eb env)

/-- The network after all nodes have been started. -/
def boot (net : ι → NetContext) : Network ι := fun i => Node.boot (net i)

end Network

end NetStack
