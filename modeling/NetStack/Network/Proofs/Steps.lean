import NetStack.Network.System
import NetStack.Node.Proofs.Frames

/-!
# The nodes of a network

A step of the network is a step of one node, and what a node is given by `wifi_rxcb` is a frame of some
node or of another station. What a node does in a network is therefore a run of the node alone.
-/

namespace NetStack.Network
open NetStack.Lib NetStack.Eth NetStack.WifiManager

variable {ι : Type} [DecidableEq ι]

/-- The step of the node `j` that a step of the network is. -/
inductive Causes (s : Network ι) : NetworkAction ι → ι → NodeAction → Prop
  | own {j : ι} {a : NodeAction} (hrx : a.isRx = false) : Causes s (.node j a) j a
  | delivered {i j : ι} {k : Nat} {padding received : Memory} {len : BitVec 16} {eb : Option Nat}
      {env : RxEnv} {frame : Frame} (hsent : frame ∈ (s i).frames)
      (hlen : frame.len.toNat ≤ len.toNat)
      (hreceived : Memory.AgreeBelow frame.len.toNat frame.bytes received) :
      Causes s (.deliver i j k padding len eb env) j (.wifiRxcb received len eb env)
  | foreign {j : ι} {frame : Memory} {len : BitVec 16} {eb : Option Nat} {env : RxEnv} :
      Causes s (.foreign j frame len eb env) j (.wifiRxcb frame len eb env)

variable {s s' : Network ι} {x : NetworkAction ι}

theorem stepNode_some {i : ι} {a : NodeAction} (h : s.stepNode i a = some s') :
    ∃ n, Node.step (s i) a = some n ∧ s' = Function.update s i n := by
  obtain ⟨n, hn, rfl⟩ := Option.map_eq_some_iff.mp h
  exact ⟨n, hn, rfl⟩

/-- A step of the network is a step of one node. -/
theorem step_causes (h : step s x = some s') :
    ∃ j a n, Causes s x j a ∧ Node.step (s j) a = some n ∧ s' = Function.update s j n := by
  cases x with
  | node i a =>
      simp only [step] at h
      split at h
      case isTrue => cases h
      case isFalse hrx =>
          obtain ⟨n, hn, rfl⟩ := stepNode_some h
          exact ⟨i, a, n, .own (by simpa using hrx), hn, rfl⟩
  | deliver i j k padding len eb env =>
      simp only [step] at h
      split at h
      case h_1 => cases h
      case h_2 frame hframe =>
          split at h
          case isTrue => cases h
          case isFalse hlen =>
              obtain ⟨n, hn, rfl⟩ := stepNode_some h
              refine ⟨j, _, n, .delivered (List.mem_of_getElem? hframe) (BitVec.not_lt.mp hlen)
                (Memory.agreeBelow_upTo _ _ _), hn, rfl⟩
  | foreign j frame len eb env =>
      obtain ⟨n, hn, rfl⟩ := stepNode_some h
      exact ⟨j, _, n, .foreign, hn, rfl⟩

end NetStack.Network
