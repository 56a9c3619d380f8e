import NetStack.Tcp.Proofs.Lifetimes

/-!
# Accepted payloads

A payload that `tcp_send` has accepted stays in custody until it is acknowledged or its port
is reset: it is queued, or held for retransmission. A dequeue that finds no memory, no port or
no entry drops it, and so does a retransmission that finds no memory or no place in the IPv4
queue.
-/

namespace NetStack.Tcp
open NetStack.Lib

/-- The payload of a request that was queued against the semaphore `n` of port `i` is queued,
    held in one of the port's entries or acknowledged, or that port has been reset. -/
def PayloadKept (g : Globals) (i : PortIdx) (n : Nat) (params : TcpTransmitParams) : Prop :=
  .reset i (some n) ∈ g.log ∨
    (g.ports i).incarnation = some n ∧
      Custody i (some n) (· = params) (fun e => e.data = params.data) g

/-- If the request carries a payload of a port that is still live, it finds memory, that port
    and a free entry. -/
def payloadRecorded (g : Globals) (env : SendEnv) (params : TcpTransmitParams) : Bool :=
  params.data.isNone || g.log.all fun e =>
    match e with
    | .queued i n p =>
        p.data.map (·.addr) != params.data.map (·.addr) || (g.ports i).incarnation != some n ||
          (env.malloc.isSome && findParamsPort g params == some i &&
            (findEmptyUnacked (g.ports i)).isSome)
    | _ => true

/-- The scan of `p` finds a payload due, and cannot send it. -/
def losesPayload (g : Globals) (env : TaskEnv) (p : PortIdx) : Bool :=
  (g.ports p).selfPortNum != 0 && !timeWaitOver g.tick (g.ports p) &&
    (firstIdx fun j =>
      retransmitDue g.tick ((g.ports p).unacked j) && ((g.ports p).unacked j).data.isSome &&
        !((env.scan p j).malloc.isSome && (env.scan p j).ipv4Accepts)).isSome

/-- The step records the payload that it dequeues, sends those again that are due, and
    overwrites no live port. -/
def payloadsKept (s : System) (a : Action) : Bool :=
  overwritesNothing s a &&
    match a with
    | .tcpTask env =>
        match (selectInput s.g).2 with
        | .send params => params.dataLen == 0 || payloadRecorded s.g env.send params
        | .scan => (firstIdx (losesPayload s.g env)).isNone
        | _ => true
    | _ => true

/-- Every payload that was queued is kept, and every waiting task has its semaphore or that has
    been deleted. -/
structure PayloadsKept (g : Globals) : Prop where
  senders : SendersLive g
  kept : ∀ i n p, .queued i n p ∈ g.log → p.data ≠ none → p.dataLen ≠ 0 → PayloadKept g i n p

/-- A request with a payload is a first one that consumes sequence space. -/
theorem Request.payload_consumes {params : TcpTransmitParams} (h : Request params)
    (hlen : params.dataLen ≠ 0) : consumesSequence params = true := by
  rw [h.consumes_iff]
  cases h with
  | data port block len =>
      have hflag : (flagSyn (ACK + PSH) || flagFin (ACK + PSH)) = false := by decide
      simpa [seqIncrement, tcpSendParams, hflag] using hlen
  | syn | synAck | ack | finAck | fin => exact absurd rfl hlen

section Effect
variable {s s' : System} {a : Action} {g g' : Globals}

/-- Under the condition the step does not let go of a payload that was queued before it, nor
    does a step of another task. -/
theorem keeps_payload (hreq : Requests Request s.g) (hc : payloadsKept s a = true) {i : PortIdx}
    {n : Nat} {params : TcpTransmitParams} (hinc : (g.ports i).incarnation = some n)
    (hqueued : .queued i n params ∈ s.g.log ∨ ∀ env, a ≠ .tcpTask env)
    (hdata : params.data ≠ none) (hlen : params.dataLen ≠ 0) :
    Keeps s a g i (· = params) (fun e => e.data = params.data) := by
  obtain ⟨hover, hc⟩ := Bool.and_eq_true_iff.mp hc
  constructor
  case send =>
      rintro hstage env p rfl hin rfl
      obtain ⟨-, rest, hqueue, -⟩ := selectInput_send hin
      have hevent := hqueued.resolve_right fun h => h env rfl
      rw [hstage.incarnation i] at hinc
      simp only [hin, hlen, beq_iff_eq, Bool.or_eq_true, false_or, payloadRecorded,
        Option.isNone_iff_eq_none, hdata, List.all_eq_true] at hc
      have hfound := hc _ hevent
      simp only [bne_self_eq_false, hinc, Bool.false_or, Bool.and_eq_true, beq_iff_eq,
        Option.isSome_iff_ne_none] at hfound
      have hconsumes := (hreq.sendQueue p (by simp [hqueue])).payload_consumes hlen
      exact ⟨hfound.1.1, hconsumes, hfound.1.2, hfound.2⟩
  case scan =>
      intro j env hdue hentry
      obtain ⟨e, rfl, rfl⟩ := hdue.action
      obtain ⟨sentAt, hsame⟩ := hdue.entry
      simp only [hdue.input, Option.isNone_iff_eq_none, firstIdx_eq_none_iff] at hc
      have hi := hc i
      simp only [losesPayload, hdue.stays, Bool.not_false, Bool.and_true, Bool.and_eq_false_iff,
        bne_eq_false_iff_eq, hdue.live, false_or, Option.isSome_eq_false_iff,
        Option.isNone_iff_eq_none, firstIdx_eq_none_iff] at hi
      have hsome : ((s.g.ports i).unacked j).data = params.data := by simpa [hsame] using hentry
      simpa [hdue.due, hsome, hdata, Option.isSome_iff_ne_none] using hi j
  case create =>
      intro hstage hcreates
      have hnone := hcreates.incarnation hover
      rw [← hstage.incarnation i, hinc] at hnone
      cases hnone
  case records =>
      rintro p e rfl hrecords
      exact hrecords.data
  case sentAt => exact fun _ _ h => h

/-- A payload that is kept stays kept. -/
theorem PayloadKept.effect (hreq : Requests Request s.g) (hc : payloadsKept s a = true)
    (he : Effect s a s' g g') {i : PortIdx} {n : Nat} {params : TcpTransmitParams}
    (hqueued : .queued i n params ∈ s.g.log ∨ ∀ env, a ≠ .tcpTask env)
    (hdata : params.data ≠ none) (hlen : params.dataLen ≠ 0) (h : PayloadKept g i n params) :
    PayloadKept g' i n params := by
  rcases h with hreset | ⟨hinc, hcustody⟩
  · exact .inl (he.mem_log hreset)
  · have hover := (Bool.and_eq_true_iff.mp hc).1
    have hkeeps := keeps_payload hreq hc hinc hqueued hdata hlen
    rcases he.live_or_reset hover (.inl hinc) with hinc' | hreset
    · exact .inr ⟨hinc', hcustody.effect he hkeeps hinc (by simp [hinc'])⟩
    · exact .inl hreset

/-- The invariant in the middle of a step: the payloads of before the step are kept, and those
    that a step of another task has queued. -/
structure KeptSoFar (s : System) (a : Action) (g : Globals) : Prop where
  senders : SendersLive g
  waited : ∀ t ∈ s.g.senders, (g.ports t.port).incarnation = some t.handle ∨
    .reset t.port (some t.handle) ∈ g.log
  kept : ∀ i n p, .queued i n p ∈ g.log → p.data ≠ none → p.dataLen ≠ 0 →
    (.queued i n p ∈ s.g.log ∨ ∀ env, a ≠ .tcpTask env) ∧ PayloadKept g i n p

theorem KeptSoFar.effect (hreq : Requests Request s.g) (hc : payloadsKept s a = true)
    (he : Effect s a s' g g') (h : KeptSoFar s a g) : KeptSoFar s a g' := by
  have hover := (Bool.and_eq_true_iff.mp hc).1
  have hwaited : ∀ t ∈ s.g.senders, (g'.ports t.port).incarnation = some t.handle ∨
      .reset t.port (some t.handle) ∈ g'.log :=
    fun t ht => he.live_or_reset hover (h.waited t ht)
  refine ⟨h.senders.effect he hover, hwaited, ?_⟩
  intro i n p hmem hdata hlen
  rcases he.queuedEvent hmem with hbefore | hnew
  · obtain ⟨hqueued, hkept⟩ := h.kept i n p hbefore hdata hlen
    exact ⟨hqueued, hkept.effect hreq hc he hqueued hdata hlen⟩
  · refine ⟨.inr (hnew.data hdata), ?_⟩
    have howner : (g'.ports i).incarnation = some n ∨ .reset i (some n) ∈ g'.log := by
      rcases hnew.owner with hinc | ⟨k, t, -, ht, rfl, rfl⟩
      · exact .inl hinc
      · exact hwaited t (List.mem_of_getElem? ht)
    rcases howner with hinc | hreset
    · exact .inr ⟨hinc, .inl ⟨p, hnew.mem, rfl⟩⟩
    · exact .inl hreset

/-- Under the condition a step keeps the payloads. -/
theorem PayloadsKept.step (hreq : Requests Request s.g) (hc : payloadsKept s a = true)
    (hstep : step s a = some s') (h : PayloadsKept s.g) : PayloadsKept s'.g := by
  have hend : KeptSoFar s a s'.g := by
    refine step_preserves (fun _ _ he hg => hg.effect hreq hc he) hstep ⟨h.senders, h.senders, ?_⟩
    exact fun i n p hmem hdata hlen => ⟨.inl hmem, h.kept i n p hmem hdata hlen⟩
  exact ⟨hend.senders, fun i n p hmem hdata hlen => (hend.kept i n p hmem hdata hlen).2⟩

end Effect

theorem payloadsKept_boot (net : NetContext) : PayloadsKept (boot net).g :=
  ⟨by simp [SendersLive, boot], by simp [boot]⟩

/-- In every run whose steps let go of no payload, a non-empty payload that `tcp_send` has
    accepted is queued, held for retransmission or acknowledged, or its port has been reset. -/
theorem accepted_payload_kept {net : NetContext} {as : List Action} {s : System}
    (hrun : run step (boot net) as = some s)
    (hg : Guarded step (payloadsKept · ·) (boot net) as) {i : PortIdx} {n : Nat}
    {params : TcpTransmitParams} (hqueued : .queued i n params ∈ s.g.log)
    (hdata : params.data ≠ none) (hlen : params.dataLen ≠ 0) : PayloadKept s.g i n params := by
  have hinv : Requests Request s.g ∧ PayloadsKept s.g := by
    refine run_invariant (P := fun s => Requests Request s.g ∧ PayloadsKept s.g) ?_
      ⟨requests_boot net, payloadsKept_boot net⟩ hg hrun
    exact fun s a s' ⟨hreq, hs⟩ hc hstep => ⟨step_requests hreq hstep, hs.step hreq hc hstep⟩
  exact hinv.2.kept i n params hqueued hdata hlen

/-- After a handshake the application sends three bytes; they are transmitted, lost, and
    retransmitted. -/
def payloadRetransmitted : List Action :=
  handshake peerNet.ip ++ [.tcpSend false 80 5000 peerNet.ip (some fun _ => 7) 3 portMaxDelay,
    iterates] ++ List.replicate 101 .tick ++ [iterates]

/-- The history has a non-empty payload that was queued for port 0. -/
def acceptedPayload (s : System) : Bool :=
  s.g.log.any fun e =>
    match e with
    | .queued i _ p => i == 0 && p.data.isSome && p.dataLen != 0
    | _ => false

theorem queued_of_acceptedPayload {s : System} (h : acceptedPayload s = true) :
    ∃ n params, .queued 0 n params ∈ s.g.log ∧ params.data ≠ none ∧ params.dataLen ≠ 0 := by
  obtain ⟨e, he, hfields⟩ := List.any_eq_true.mp h
  cases e with
  | queued i n params =>
      simp only [Bool.and_eq_true, beq_iff_eq, bne_iff_ne, Option.isSome_iff_ne_none] at hfields
      obtain ⟨⟨rfl, hdata⟩, hlen⟩ := hfields
      exact ⟨n, params, he, hdata, hlen⟩
  | _ => cases hfields

/-- The three bytes are still kept. -/
theorem retransmitted_payload_kept :
    ∃ s n params, run step (boot hostNet) payloadRetransmitted = some s ∧
      .queued 0 n params ∈ s.g.log ∧ params.data ≠ none ∧ params.dataLen ≠ 0 ∧
      PayloadKept s.g 0 n params := by
  obtain ⟨s, hs, hsent⟩ := run_any
    (show (run step (boot hostNet) payloadRetransmitted).any acceptedPayload = true by
      decide +kernel)
  obtain ⟨n, params, hqueued, hdata, hlen⟩ := queued_of_acceptedPayload hsent
  exact ⟨s, n, params, hs, hqueued, hdata, hlen,
    accepted_payload_kept hs (by decide +kernel) hqueued hdata hlen⟩

/-- After a handshake the application sends three bytes, and there is no memory when
    `tcp_task` dequeues them. -/
def payloadDropped : List Action :=
  handshake peerNet.ip ++ [.tcpSend false 80 5000 peerNet.ip (some fun _ => 7) 3 portMaxDelay,
    .tcpTask ⟨⟨none, true⟩, fun _ _ => ⟨none, true⟩, true⟩]

/-- The three bytes are gone, although they are not acknowledged and the port is live. -/
theorem accepted_payload_lost :
    ∃ s n params, run step (boot hostNet) payloadDropped = some s ∧
      .queued 0 n params ∈ s.g.log ∧ params.data ≠ none ∧ params.dataLen ≠ 0 ∧
      ¬ PayloadKept s.g 0 n params := by
  obtain ⟨s, hs, hend⟩ := run_any
    (show (run step (boot hostNet) payloadDropped).any (fun s => acceptedPayload s &&
      s.g.sendQueue.isEmpty && (firstIdx fun j => ((s.g.ports 0).unacked j).inUse).isNone &&
        s.g.log.all fun e =>
          match e with
          | .acked _ _ entry => entry.data.isNone
          | .reset _ _ => false
          | _ => true) = true by decide +kernel)
  simp only [Bool.and_eq_true, List.isEmpty_iff, Option.isNone_iff_eq_none,
    firstIdx_eq_none_iff, List.all_eq_true] at hend
  obtain ⟨⟨⟨hsent, hqueue⟩, hentries⟩, hlog⟩ := hend
  obtain ⟨n, params, hqueued, hdata, hlen⟩ := queued_of_acceptedPayload hsent
  refine ⟨s, n, params, hs, hqueued, hdata, hlen, ?_⟩
  rintro (hreset | ⟨-, ⟨p, hp, -⟩ | ⟨j, huse, -⟩ | ⟨e, hacked, hsame⟩⟩)
  · simpa using hlog _ hreset
  · simp [hqueue] at hp
  · simp [hentries j] at huse
  · have hnone := hlog _ hacked
    simp only [Option.isNone_iff_eq_none] at hnone
    exact hdata (hsame.symm.trans hnone)

end NetStack.Tcp
