import Mathlib.Order.Defs.Unbundled
import NetStack.Tcp.Proofs.Operations

/-!
# What a call leaves

A call returns or waits in some state, if it is defined at all. `Ends P` says that this state has
the property `P`. Calls that run one after the other are related by a preorder of states if each
of them is.
-/

namespace NetStack.Tcp
open NetStack.Lib

/-- The state a call leaves, whether it returns or waits. -/
def Outcome.final? {α : Type} : Outcome α → Option Globals
  | .done g _ => some g
  | .blocked g _ => some g
  | .undefined => none

theorem Outcome.final?_ignore {α : Type} (o : Outcome α) :
    (o.bind fun g _ => .done g ()).final? = o.final? := by
  cases o <;> rfl

/-- The state that the call leaves, if it is defined, has the property. -/
def Outcome.Ends {α : Type} (P : Globals → Prop) (o : Outcome α) : Prop :=
  ∀ g, o.final? = some g → P g

section Ends
variable {α β : Type} {P : Globals → Prop} {g g' : Globals} {o : Outcome α}

theorem ends_done {a : α} (h : P g) : (Outcome.done g a).Ends P :=
  fun _ hg => Option.some.inj hg ▸ h

theorem ends_blocked {on : Resource} (h : P g) : (Outcome.blocked (α := α) g on).Ends P :=
  fun _ hg => Option.some.inj hg ▸ h

theorem ends_undefined : (Outcome.undefined : Outcome α).Ends P := by
  rintro g ⟨⟩

/-- What follows an enqueue in the code does nothing to the state. -/
theorem Outcome.Ends.ignore (h : o.Ends P) : (o.bind fun g _ => .done g ()).Ends P := by
  rw [Ends, Outcome.final?_ignore]
  exact h

/-- A request that waits has changed nothing. -/
theorem ends_tcpEnqueueReliable {params : TcpTransmitParams} {timeout : BitVec 32}
    (hdone : ∀ g' r, tcpEnqueueReliable g params timeout = .done g' r → P g') (hwait : P g) :
    (tcpEnqueueReliable g params timeout).Ends P := by
  cases hr : tcpEnqueueReliable g params timeout with
  | done g' r => exact ends_done (hdone g' r hr)
  | blocked g' on =>
      obtain ⟨rfl, -⟩ := tcpEnqueueReliable_blocked hr
      exact ends_blocked hwait
  | undefined => exact ends_undefined

variable {R : Globals → Globals → Prop} [IsPreorder Globals R]

/-- A call runs after something else has changed the state. -/
theorem Outcome.Ends.after (ho : o.Ends (R g')) (h : R g g') : o.Ends (R g) :=
  fun g'' hg'' => IsTrans.trans _ _ _ h (ho g'' hg'')

/-- One call runs after another. -/
theorem Outcome.Ends.bind {k : Globals → α → Outcome β} (ho : o.Ends (R g))
    (hk : ∀ g' a, o = .done g' a → (k g' a).Ends (R g')) : (o.bind k).Ends (R g) := by
  cases o with
  | done g' a => exact (hk g' a rfl).after (ho g' rfl)
  | blocked g' on => exact ends_blocked (ho g' rfl)
  | undefined => exact ends_undefined

end Ends

end NetStack.Tcp
