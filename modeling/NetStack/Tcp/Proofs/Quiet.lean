import NetStack.Tcp.System
import NetStack.Tcp.Proofs.Lookup

/-!
# What changes nothing

`Quiet g g'`: from `g` to `g'` nothing has changed that a property of the component
mentions. Only windows, wake-ups, heap addresses, the other queues and log lines may differ.
Beside it stand the specifications of the elementary operations that are not quiet: giving a
slot back, taking one, and resetting a port.
-/

namespace NetStack.Tcp
open NetStack.Lib

/-- Events that no property of the component mentions. -/
def Event.quiet : Event → Bool
  | .warn _ | .malloc _ | .free _ => true
  | .queued _ _ _ | .transmit _ | .acked _ _ _ | .reset _ _ | .onReceive _ _ _ _ _
  | .onConnect _ _ | .onDisconnect _ _ => false

/-- Every waiting task of `ts` is one of `us`, ready or not. -/
def SendersFrom (us ts : List Sender) : Prop :=
  ∀ t ∈ ts, ∃ u ∈ us, u.params = t.params ∧ u.port = t.port ∧ u.handle = t.handle

theorem SendersFrom.refl (ts : List Sender) : SendersFrom ts ts :=
  fun t ht => ⟨t, ht, rfl, rfl, rfl⟩

theorem SendersFrom.trans {us vs ts : List Sender} (h : SendersFrom us vs)
    (h' : SendersFrom vs ts) : SendersFrom us ts := by
  intro t ht
  obtain ⟨v, hv, hparams, hport, hhandle⟩ := h' t ht
  obtain ⟨u, hu, hparams', hport', hhandle'⟩ := h v hv
  exact ⟨u, hu, hparams'.trans hparams, hport'.trans hport, hhandle'.trans hhandle⟩

theorem SendersFrom.of_subset {us ts : List Sender} (h : ts ⊆ us) : SendersFrom us ts :=
  fun t ht => ⟨t, h ht, rfl, rfl, rfl⟩

theorem sendersFrom_wakeSender (handle : Nat) (ts : List Sender) :
    SendersFrom ts (wakeSender handle ts) := by
  induction ts with
  | nil => exact SendersFrom.refl []
  | cons u us ih =>
      intro t ht
      unfold wakeSender at ht
      split at ht
      · rcases List.mem_cons.mp ht with rfl | ht
        · exact ⟨u, List.mem_cons_self, rfl, rfl, rfl⟩
        · exact ⟨t, List.mem_cons_of_mem u ht, rfl, rfl, rfl⟩
      · rcases List.mem_cons.mp ht with rfl | ht
        · exact ⟨t, List.mem_cons_self, rfl, rfl, rfl⟩
        · obtain ⟨v, hv, hsame⟩ := ih t ht
          exact ⟨v, List.mem_cons_of_mem u hv, hsame⟩

/-- A task whose `ready` flag changes is the same task. -/
theorem sendersFrom_set {ts : List Sender} {k : Nat} {t : Sender} (ht : ts[k]? = some t)
    (ready : Bool) : SendersFrom ts (ts.set k { t with ready := ready }) := by
  intro u hu
  rcases List.mem_or_eq_of_mem_set hu with hu | rfl
  · exact ⟨u, hu, rfl, rfl, rfl⟩
  · exact ⟨t, List.mem_of_getElem? ht, rfl, rfl, rfl⟩

/-- The log has grown by quiet events. -/
def LogQuiet (g g' : Globals) : Prop := ∃ l, g'.log = g.log ++ l ∧ ∀ e ∈ l, e.quiet = true

theorem LogQuiet.refl (g : Globals) : LogQuiet g g := ⟨[], by simp⟩

theorem LogQuiet.of_eq {g g' : Globals} (h : g'.log = g.log) : LogQuiet g g' := ⟨[], by simp [h]⟩

theorem LogQuiet.trans {g g' g'' : Globals} (h : LogQuiet g g') (h' : LogQuiet g' g'') :
    LogQuiet g g'' := by
  obtain ⟨l, hl, hquiet⟩ := h
  obtain ⟨l', hl', hquiet'⟩ := h'
  refine ⟨l ++ l', by rw [hl', hl, List.append_assoc], ?_⟩
  intro e he
  exact (List.mem_append.mp he).elim (hquiet e) (hquiet' e)

theorem logQuiet_emit (g : Globals) {e : Event} (he : e.quiet = true) : LogQuiet g (g.emit e) :=
  ⟨[e], rfl, fun _ h => (List.mem_singleton.mp h) ▸ he⟩

theorem logQuiet_free (g : Globals) (data : Option Block) : LogQuiet g (g.free data) := by
  cases data with
  | none => exact LogQuiet.refl g
  | some block => exact logQuiet_emit g rfl

/-- The events that are not quiet are the same before and after. -/
theorem LogQuiet.mem_iff {g g' : Globals} (h : LogQuiet g g') {e : Event} (he : e.quiet = false) :
    e ∈ g'.log ↔ e ∈ g.log := by
  obtain ⟨l, hl, hquiet⟩ := h
  rw [hl, List.mem_append, or_iff_left]
  intro hmem
  simp [hquiet e hmem] at he

/-- A list of events in which quiet ones do not count is the same before and after. -/
theorem LogQuiet.filterMap_eq {g g' : Globals} (h : LogQuiet g g') {β : Type}
    {f : Event → Option β} (hf : ∀ e, e.quiet = true → f e = none) :
    g'.log.filterMap f = g.log.filterMap f := by
  obtain ⟨l, hl, hquiet⟩ := h
  have hnil : l.filterMap f = [] := List.filterMap_eq_nil_iff.mpr fun e he => hf e (hquiet e he)
  rw [hl, List.filterMap_append, hnil, List.append_nil]

/-- The transmission an event stands for. -/
def Event.transmission? : Event → Option Transmission
  | .transmit t => some t
  | _ => none

/-- The transmissions of a history, in their order. -/
def transmissions (log : List Event) : List Transmission := log.filterMap Event.transmission?

theorem mem_transmissions {log : List Event} {t : Transmission} :
    t ∈ transmissions log ↔ .transmit t ∈ log := by
  refine List.mem_filterMap.trans ⟨fun ⟨e, he, ht⟩ => ?_, fun h => ⟨_, h, rfl⟩⟩
  cases e <;> simp [Event.transmission?] at ht
  exact ht ▸ he

@[simp] theorem transmissions_emit (g : Globals) (t : Transmission) :
    transmissions (g.emit (.transmit t)).log = transmissions g.log ++ [t] := by
  simp [transmissions, Event.transmission?]

theorem LogQuiet.transmissions_eq {g g' : Globals} (h : LogQuiet g g') :
    transmissions g'.log = transmissions g.log :=
  h.filterMap_eq fun e he => by cases e <;> simp_all [Event.quiet, Event.transmission?]

/-- Nothing has changed that a property of the component mentions. -/
structure Quiet (g g' : Globals) : Prop where
  selfNet : g'.selfNet = g.selfNet
  ports : ∃ window : PortIdx → BitVec 16,
    g'.ports = fun i => { g.ports i with otherWindow := window i }
  sendQueue : g'.sendQueue = g.sendQueue
  senders : SendersFrom g.senders g'.senders
  log : LogQuiet g g'
  nextAddr : g.nextAddr ≤ g'.nextAddr

/-- A step that leaves the ports, the queue and the tasks alone is quiet. -/
theorem Quiet.of_ports_eq {g g' : Globals} (hnet : g'.selfNet = g.selfNet)
    (hports : g'.ports = g.ports) (hqueue : g'.sendQueue = g.sendQueue)
    (hsenders : g'.senders = g.senders) (hlog : LogQuiet g g')
    (haddr : g.nextAddr ≤ g'.nextAddr) : Quiet g g' :=
  ⟨hnet, ⟨fun i => (g.ports i).otherWindow, hports⟩, hqueue, hsenders ▸ SendersFrom.refl _, hlog,
    haddr⟩

theorem Quiet.refl (g : Globals) : Quiet g g :=
  .of_ports_eq rfl rfl rfl rfl (LogQuiet.refl g) le_rfl

theorem Quiet.trans {g g' g'' : Globals} (h : Quiet g g') (h' : Quiet g' g'') : Quiet g g'' := by
  obtain ⟨w, hw⟩ := h.ports
  obtain ⟨w', hw'⟩ := h'.ports
  exact ⟨h'.selfNet.trans h.selfNet, ⟨w', by rw [hw', hw]⟩, h'.sendQueue.trans h.sendQueue,
    h.senders.trans h'.senders, h.log.trans h'.log, h.nextAddr.trans h'.nextAddr⟩

theorem quiet_emit (g : Globals) {e : Event} (he : e.quiet = true) : Quiet g (g.emit e) :=
  .of_ports_eq rfl rfl rfl rfl (logQuiet_emit g he) le_rfl

theorem quiet_free (g : Globals) (data : Option Block) : Quiet g (g.free data) :=
  .of_ports_eq (by simp) (by simp) (by simp) (by simp) (logQuiet_free g data) (by simp)

theorem quiet_warn (g : Globals) (w : Warning) : Quiet g (g.warn w) := quiet_emit g rfl

theorem quiet_setWindow (g : Globals) (i : PortIdx) (window : BitVec 16) :
    Quiet g (g.setPort i { g.ports i with otherWindow := window }) := by
  refine ⟨rfl, ⟨fun j => if j = i then window else (g.ports j).otherWindow, funext fun j => ?_⟩, rfl,
    SendersFrom.refl _, LogQuiet.refl g, le_rfl⟩
  by_cases hj : j = i
  · subst hj; simp
  · simp [hj]

theorem quiet_allocate (g : Globals) (n : Nat) : Quiet g { g with nextAddr := g.nextAddr + n } :=
  .of_ports_eq rfl rfl rfl rfl (LogQuiet.of_eq rfl) (Nat.le_add_right _ n)

theorem quiet_dropSender (g : Globals) (k : Nat) : Quiet g (dropSender g k) :=
  ⟨rfl, ⟨fun i => (g.ports i).otherWindow, rfl⟩, rfl,
    SendersFrom.of_subset (List.eraseIdx_subset), LogQuiet.of_eq rfl, le_rfl⟩

section Fields
variable {g g' : Globals} (h : Quiet g g') (i : PortIdx)
include h

/-- What does not depend on the window is the same before and after. -/
theorem Quiet.field {β : Type} (f : TcpPort → β)
    (hf : ∀ (p : TcpPort) (w : BitVec 16), f { p with otherWindow := w } = f p) :
    f (g'.ports i) = f (g.ports i) := by
  obtain ⟨w, hw⟩ := h.ports
  rw [hw, hf]

theorem Quiet.state : (g'.ports i).state = (g.ports i).state := h.field i _ fun _ _ => rfl
theorem Quiet.seqNum : (g'.ports i).seqNum = (g.ports i).seqNum := h.field i _ fun _ _ => rfl
theorem Quiet.ackNum : (g'.ports i).ackNum = (g.ports i).ackNum := h.field i _ fun _ _ => rfl
theorem Quiet.key : (g'.ports i).key = (g.ports i).key := h.field i _ fun _ _ => rfl
theorem Quiet.unacked : (g'.ports i).unacked = (g.ports i).unacked := h.field i _ fun _ _ => rfl
theorem Quiet.slots : (g'.ports i).slots = (g.ports i).slots := h.field i _ fun _ _ => rfl

theorem Quiet.incarnation : (g'.ports i).incarnation = (g.ports i).incarnation :=
  h.field i _ fun _ _ => rfl

theorem Quiet.findParamsPort (params : TcpTransmitParams) :
    findParamsPort g' params = Tcp.findParamsPort g params :=
  findParamsPort_congr (fun i => h.key i) params

end Fields

end NetStack.Tcp
