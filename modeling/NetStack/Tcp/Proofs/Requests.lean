import NetStack.Tcp.Proofs.StepEffects
import NetStack.Tcp.Proofs.Datagram

/-!
# Where requests come from

Every request in `send_queue`, in the hands of a waiting task or behind an entry was built at
one of the emission sites, and every transmission is the transmission of such a request. What
holds of the requests at the sites where they are built therefore holds of them everywhere.
-/

namespace NetStack.Tcp
open NetStack.Lib

/-- The requests that the component builds. -/
inductive Request : TcpTransmitParams → Prop
  | data (port : TcpPort) (block : Option Block) (len : BitVec 16) :
      Request (tcpSendParams port block len)
  | syn (port : TcpPort) (dst : Ipv4Addr) : Request (synRequest port dst)
  | synAck (port : TcpPort) (dst : Ipv4Addr) : Request (replyParams port dst (SYN + ACK))
  | ack (port : TcpPort) (dst : Ipv4Addr) : Request (replyParams port dst ACK)
  | finAck (port : TcpPort) (dst : Ipv4Addr) : Request (replyParams port dst (FIN + ACK))
  | fin (port : TcpPort) (dst : Ipv4Addr) : Request (finRequest port dst)

theorem Request.first {params : TcpTransmitParams} (h : Request params) :
    params.isRetransmission = false := by
  cases h <;> rfl

/-- A request consumes sequence space exactly when its increment is not zero. -/
theorem Request.consumes_iff {params : TcpTransmitParams} (h : Request params) :
    consumesSequence params = true ↔ seqIncrement params ≠ 0 := by
  simp [consumesSequence, h.first]

/-- A SYN or FIN carries no data and consumes exactly one sequence number. -/
theorem Request.control_consumes {params : TcpTransmitParams} (h : Request params)
    (hflag : (flagSyn params.control || flagFin params.control) = true) :
    consumesSequence params = true ∧ seqIncrement params = 1 := by
  have hlen : params.dataLen = 0 := by
    cases h with
    | data => exact absurd hflag (by simp only [tcpSendParams]; decide)
    | syn | synAck | ack | finAck | fin => rfl
  have hone : seqIncrement params = 1 := by
    simp only [seqIncrement, hlen, hflag, if_true]
    rfl
  exact ⟨h.consumes_iff.mpr (by simp [hone]), hone⟩

/-- The step builds the request: the emission sites with what is known there. -/
inductive Builds (s : System) (a : Action) : TcpTransmitParams → Prop
  | data {inCallback : Bool} {src dst : BitVec 16} {addr : Ipv4Addr} {data : Option Memory}
      {len : BitVec 16} {timeout : BitVec 32} {i : PortIdx} {block : Option Block}
      (ha : a = .tcpSend inCallback src dst addr data len timeout)
      (hfind : findPort s.g src dst addr = some i) :
      Builds s a (tcpSendParams (s.g.ports i) block len)
  | syn {self other : BitVec 16} {addr : Ipv4Addr}
      {onReceive onConnect onDisconnect : Option FnPtr} {port : TcpPort}
      (hcmd : Processes s a
        (.cmd (.createAndConnect self other addr onReceive onConnect onDisconnect))) :
      Builds s a (synRequest port addr)
  | synAck {i : PortIdx} {seg : Segment} {port : TcpPort} (hacc : Accepts s a i seg)
      (hstate : (s.g.ports i).state = .listen) :
      Builds s a (replyParams port seg.srcIpv4Addr (SYN + ACK))
  | ack {i : PortIdx} {seg : Segment} (hacc : Accepts s a i seg) :
      Builds s a (replyParams (s.g.ports i) seg.srcIpv4Addr ACK)
  | finAck {i : PortIdx} {seg : Segment} (hacc : Accepts s a i seg)
      (hstate : (s.g.ports i).state = .established) :
      Builds s a (replyParams (s.g.ports i) seg.srcIpv4Addr (FIN + ACK))
  | fin {self other : BitVec 16} {addr : Ipv4Addr} {i : PortIdx}
      (hcmd : Processes s a (.cmd (.close self other addr)))
      (hfind : findPort s.g self other addr = some i) :
      Builds s a (finRequest (s.g.ports i) addr)

theorem Builds.request {s : System} {a : Action} {params : TcpTransmitParams}
    (h : Builds s a params) : Request params := by
  cases h with
  | data _ _ => exact .data _ _ _
  | syn _ => exact .syn _ _
  | synAck _ _ => exact .synAck _ _
  | ack _ => exact .ack _ _
  | finAck _ _ => exact .finAck _ _
  | fin _ _ => exact .fin _ _

variable {Q : TcpTransmitParams → Prop}

/-- Behind an entry or a transmission stands a request, of which `Q` holds, with its control
    byte and length. -/
def FromRequest (Q : TcpTransmitParams → Prop) (control : BitVec 8) (dataLen : BitVec 16)
    (consumes : Prop) : Prop :=
  ∃ params, Q params ∧ params.control = control ∧ params.dataLen = dataLen ∧
    (consumes → consumesSequence params = true)

/-- A transmission is well formed: its datagram is the one built for its request and sequence
    number, and its request stems from one of which `Q` holds. -/
structure Transmission.WellFormed (Q : TcpTransmitParams → Prop) (t : Transmission) : Prop where
  request : FromRequest Q t.params.control t.params.dataLen (t.params.isRetransmission = true)
  ipv4 : ∃ addr heap selfNet port, t.ipv4.data =
    some ⟨addr, buildDatagram heap selfNet t.params port t.seqNum⟩ ∧
      t.ipv4.dataLen = datagramLength t.params

/-- `Q` holds of every request, and of what stands behind every entry and transmission. -/
structure Requests (Q : TcpTransmitParams → Prop) (g : Globals) : Prop where
  sendQueue : ∀ params ∈ g.sendQueue, Q params
  senders : ∀ t ∈ g.senders, Q t.params
  unacked : ∀ i j, ((g.ports i).unacked j).inUse = true →
    FromRequest Q ((g.ports i).unacked j).control ((g.ports i).unacked j).dataLen True
  transmits : ∀ t, .transmit t ∈ g.log → t.WellFormed Q

namespace Requests
variable {g g' : Globals}

theorem quiet (h : Requests Q g) (hquiet : Quiet g g') : Requests Q g' := by
  refine ⟨hquiet.sendQueue ▸ h.sendQueue, ?_, ?_, ?_⟩
  · intro t ht
    obtain ⟨u, hu, hparams, -⟩ := hquiet.senders t ht
    exact hparams ▸ h.senders u hu
  · intro i j
    rw [hquiet.unacked i]
    exact h.unacked i j
  · intro t ht
    exact h.transmits t ((hquiet.log.mem_iff rfl).mp ht)

/-- A port changes, and its entries in use stem from requests. -/
theorem setPort (h : Requests Q g) {i : PortIdx} {p : TcpPort}
    (hp : ∀ j, (p.unacked j).inUse = true →
      FromRequest Q (p.unacked j).control (p.unacked j).dataLen True) :
    Requests Q (g.setPort i p) := by
  refine ⟨h.sendQueue, h.senders, fun k j => ?_, h.transmits⟩
  by_cases hk : k = i
  · subst hk
    simpa using hp j
  · simpa [hk] using h.unacked k j

/-- A port changes and keeps its entries. -/
theorem setPort_same (h : Requests Q g) {i : PortIdx} {p : TcpPort}
    (hp : p.unacked = (g.ports i).unacked) : Requests Q (g.setPort i p) :=
  h.setPort (hp ▸ h.unacked i)

theorem pushSend (h : Requests Q g) {params : TcpTransmitParams} (hparams : Q params) :
    Requests Q (g.pushSend params) :=
  ⟨by simpa [or_imp, forall_and, hparams] using h.sendQueue, h.senders, h.unacked, h.transmits⟩

/-- An event is logged that is no transmission. -/
theorem emit (h : Requests Q g) {e : Event} (he : ∀ t, e ≠ .transmit t) : Requests Q (g.emit e) := by
  refine ⟨h.sendQueue, h.senders, h.unacked, ?_⟩
  intro t ht
  rcases List.mem_append.mp ht with ht | ht
  · exact h.transmits t ht
  · exact absurd (List.mem_singleton.mp ht).symm (he t)

theorem emitTransmit (h : Requests Q g) {t : Transmission} (ht : t.WellFormed Q) :
    Requests Q (g.emit (.transmit t)) := by
  refine ⟨h.sendQueue, h.senders, h.unacked, ?_⟩
  intro u hu
  rcases List.mem_append.mp hu with hu | hu
  · exact h.transmits u hu
  · obtain rfl := Event.transmit.inj (List.mem_singleton.mp hu)
    exact ht

theorem dequeue (h : Requests Q g) {params : TcpTransmitParams} {rest : List TcpTransmitParams}
    (hqueue : g.sendQueue = params :: rest) : Requests Q { g with sendQueue := rest } :=
  ⟨fun p hp => h.sendQueue p (hqueue ▸ List.mem_cons_of_mem params hp), h.senders, h.unacked,
    h.transmits⟩

theorem taken (h : Requests Q g) {i : PortIdx} {params : TcpTransmitParams}
    (hparams : Q params) (ht : Taken g i params g') : Requests Q g' := by
  cases ht with
  | queued hsem htake hopen hroom =>
      refine .emit (.pushSend (h.setPort_same (by rfl)) hparams) ?_
      simp
  | full _ _ _ hquiet => exact h.quiet hquiet
  | lost _ _ _ hquiet => exact .quiet (h.setPort_same (by rfl)) hquiet

theorem enqueue (h : Requests Q g) {B : Prop} {params : TcpTransmitParams}
    (hparams : Q params) (he : Enqueue B g params g') : Requests Q g' := by
  cases he with
  | unfound _ hquiet => exact h.quiet hquiet
  | noSlot _ _ _ _ hquiet => exact h.quiet hquiet
  | taken _ ht => exact h.taken hparams ht

theorem released (h : Requests Q g) (i : PortIdx) (j : UnackedIdx) :
    Requests Q (g.setPort i ((g.ports i).released j)) := by
  apply h.setPort
  intro k
  by_cases hk : k = j
  · subst hk
    simp [TcpPort.released, TcpPort.given]
  · simpa [TcpPort.released, TcpPort.given, hk] using h.unacked i k

theorem reset (h : Requests Q g) {i : PortIdx} (hr : Reset g i g') : Requests Q g' := by
  obtain ⟨unacked, hunacked, hports⟩ := hr.ports
  refine ⟨hr.sendQueue ▸ h.sendQueue, ?_, ?_, ?_⟩
  · intro t ht
    obtain ⟨u, hu, hparams, -⟩ := hr.senders t ht
    exact hparams ▸ h.senders u hu
  · intro k j
    by_cases hk : k = i
    · subst hk
      obtain ⟨data, hdata⟩ := hunacked j
      simpa [hports, hdata] using h.unacked k j
    · simpa [hports, hk] using h.unacked k j
  · intro t ht
    obtain ⟨g₁, hquiet, hlog⟩ := hr.log
    have ht : .transmit t ∈ g₁.log := by simpa [hlog] using ht
    exact h.transmits t ((hquiet.mem_iff rfl).mp ht)

end Requests

/-- A transmission of a queued request is well formed. -/
theorem Sends.wellFormed {g : Globals} {i : PortIdx} {params : TcpTransmitParams}
    {seqNum : BitVec 32} {t : Transmission} (h : Sends g i params seqNum t)
    (hparams : FromRequest Q params.control params.dataLen (params.isRetransmission = true)) :
    t.WellFormed Q := by
  obtain ⟨addr, heap, hipv4⟩ := h.ipv4
  refine ⟨by rw [h.params]; exact hparams, addr, heap, _, _, by rw [hipv4], by rw [hipv4]⟩

theorem Request.fromRequest {params : TcpTransmitParams} (h : Request params) (hQ : Q params) :
    FromRequest Q params.control params.dataLen (params.isRetransmission = true) :=
  ⟨params, hQ, rfl, rfl, fun hr => absurd h.first (by simp [hr])⟩

/-- What holds of the requests that a step builds, every effect of the step keeps. -/
theorem Requests.effect {s s' : System} {a : Action} {g g' : Globals}
    (hbuild : ∀ params, Builds s a params → Q params) (hrequest : ∀ params, Q params → Request params)
    (hsenders : ∀ t ∈ s.g.senders, Q t.params) (he : Effect s a s' g g') (h : Requests Q g) :
    Requests Q g' := by
  cases he with
  | quiet hquiet => exact h.quiet hquiet
  | appSend ha _ hfind _ henq => exact h.enqueue (hbuild _ (.data ha hfind)) henq
  | appWait ha _ hfind _ _ =>
      refine ⟨h.sendQueue, fun t ht => ?_, h.unacked, h.transmits⟩
      rcases List.mem_append.mp ht with ht | ht
      · exact h.senders t ht
      · obtain rfl := List.mem_singleton.mp ht
        exact hbuild _ (.data ha hfind)
  | resumed _ ht _ _ htaken => exact h.taken (hsenders _ (List.mem_of_getElem? ht)) htaken
  | resumedStale _ ht _ _ _ _ =>
      exact .emit (.pushSend h (hsenders _ (List.mem_of_getElem? ht))) (by simp)
  | strayGive _ _ _ _ _ _ => exact h.setPort_same rfl
  | dropped _ _ _ hqueue _ => exact h.dequeue hqueue
  | passed _ _ _ hqueue _ _ _ ht =>
      refine (h.dequeue hqueue).emitTransmit (ht.wellFormed ?_)
      have hparams := h.sendQueue _ (by rw [hqueue]; exact List.mem_cons_self)
      exact (hrequest _ hparams).fromRequest hparams
  | @recorded _ params rest i j now t _ _ _ hqueue _ _ hconsumes _ ht =>
      have hparams := h.sendQueue params (by simp [hqueue])
      refine ((h.dequeue hqueue).setPort fun k => ?_).emitTransmit
        (ht.wellFormed ((hrequest _ hparams).fromRequest hparams))
      by_cases hk : k = j
      · subst hk
        simp only [recordUnacked, Function.update_self]
        exact fun _ => ⟨params, hparams, rfl, rfl, fun _ => hconsumes⟩
      · simpa [recordUnacked, hk] using h.unacked i k
  | @touched p j _ now _ =>
      apply h.setPort
      intro k
      by_cases hk : k = j
      · subst hk
        simpa using h.unacked p k
      · simpa [hk] using h.unacked p k
  | @retransmitted p q j env t hdue _ ht =>
      refine h.emitTransmit (ht.wellFormed ?_)
      have huse : ((g.ports p).unacked j).inUse = true := by
        obtain ⟨sentAt, hentry⟩ := hdue.entry
        have := hdue.due
        simp only [retransmitDue, Bool.and_eq_true] at this
        simpa [hentry] using this.1
      obtain ⟨params, hparams, hcontrol, hlen, hconsumes⟩ := h.unacked p j huse
      exact ⟨params, hparams, hcontrol, hlen, fun _ => hconsumes trivial⟩
  | gaveUp _ _ => exact h.released _ _
  | reset _ _ _ _ hr => exact h.reset hr
  | released _ _ _ _ _ _ => exact .emit (h.released _ _) (by simp)
  | acknowledged hacc _ _ _ => exact .pushSend (h.setPort_same (by rfl)) (hbuild _ (.ack hacc))
  | ackStuck _ _ _ _ _ => exact h.setPort_same rfl
  | tookOver hacc _ hstate _ _ henq =>
      exact .enqueue (h.setPort_same (by rfl)) (hbuild _ (.synAck hacc hstate)) henq
  | @established i _ _ _ _ _ =>
      have hset : Requests Q (g.setState i .established) := h.setPort_same rfl
      unfold callOnConnect
      split
      · exact hset.emit (by simp)
      · exact hset
  | delivered _ _ _ _ => exact .emit h (by simp)
  | disconnected _ _ => exact .emit h (by simp)
  | finReplied hacc _ hstate _ henq =>
      have hafter := h.enqueue (hbuild _ (.finAck hacc hstate)) henq
      exact hafter.setPort_same rfl
  | finWait2 _ _ _ _ _ => exact h.setPort_same rfl
  | timeWait _ _ _ _ => exact h.setPort_same rfl
  | closing hcmd _ hfind henq =>
      exact .enqueue (h.setPort_same (by rfl)) (hbuild _ (.fin hcmd hfind)) henq
  | listening _ _ _ =>
      refine ⟨h.sendQueue, h.senders, fun k j => ?_, h.transmits⟩
      exact (h.setPort (p := { newPort _ _ _ _ _ with state := .listen })
        (by simp [newPort])).unacked k j
  | connecting hcmd _ _ henq =>
      refine Requests.enqueue ?_ (hbuild _ (.syn hcmd)) henq
      exact ⟨h.sendQueue, h.senders, (h.setPort (by simp [connectingPort, newPort])).unacked,
        h.transmits⟩

theorem requests_boot (net : NetContext) : Requests Q (boot net).g :=
  ⟨by simp [boot], by simp [boot], by simp [boot], by simp [boot]⟩

/-- A step keeps the requests what the emission sites make them. -/
theorem step_requests {s s' : System} {a : Action} (hs : Requests Request s.g)
    (h : step s a = some s') : Requests Request s'.g :=
  step_preserves (fun _ _ he => Requests.effect (fun _ hb => hb.request) (fun _ hr => hr)
    hs.senders he) h hs

/-- What holds of every request that the steps of a run build holds of every request, and
    behind every entry and transmission, in the state reached. -/
theorem requests_of_run {C : System → Action → Prop} {net : NetContext} {as : List Action}
    {s : System} (hrequest : ∀ params, Q params → Request params)
    (hbuild : ∀ s a, C s a → ∀ params, Builds s a params → Q params)
    (hg : Guarded step C (boot net) as) (hrun : run step (boot net) as = some s) :
    Requests Q s.g :=
  run_invariant (P := fun s => Requests Q s.g)
    (fun s a _ hs hc hstep => step_preserves
      (fun _ _ he => Requests.effect (hbuild s a hc) hrequest hs.senders he) hstep hs)
    (requests_boot net) hg hrun

/-- In every state of every run every request, entry and transmission stems from an emission
    site. -/
theorem requests_of_run_any {net : NetContext} {as : List Action} {s : System}
    (hrun : run step (boot net) as = some s) : Requests Request s.g :=
  requests_of_run (C := fun _ _ => True) (fun _ h => h) (fun _ _ _ _ hb => hb.request)
    (guarded_true _ as) hrun

end NetStack.Tcp
