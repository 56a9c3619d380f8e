import NetStack.Lib.Session
import NetStack.Tcp.Proofs.Keys
import NetStack.Tcp.Proofs.Waiting

/-!
# The grammar of a connection

What an incarnation of a port has sent and what is queued for it, read in this order, is a
session: a SYN, data, a FIN. The phase of that session fits the state of the port as long as
data and close commands come in the states that expect them and no SYN is lost.
-/

namespace NetStack.Tcp
open NetStack.Lib

/-- What a segment does to the session of its connection. -/
def TcpTransmitParams.mark (params : TcpTransmitParams) : Mark :=
  if flagSyn params.control then .opens
  else if flagFin params.control then .closes
  else .carries

/-- The marks of what incarnation `n` of port `i` has sent: its segments that consume sequence
    space and are no retransmissions, in the order of their transmission. -/
def sentMarks (ts : List Transmission) (i : PortIdx) (n : Nat) : List Mark :=
  (ts.filter fun t => t.slot == i && t.incarnation == some n && consumesSequence t.params).map
    (·.params.mark)

/-- The marks of what is queued for a connection. -/
def queuedMarks (queue : List TcpTransmitParams) (key : Key) : List Mark :=
  (queue.filter fun p => consumesSequence p && p.key == key).map (·.mark)

/-- The states in which data can be sent. -/
def TcpState.transfers : TcpState → Bool
  | .synSent | .synReceived | .established => true
  | .closed | .listen | .finWait1 | .closeWait | .finWait2 | .lastAck | .timeWait => false

/-- The phase that the session of a port in the state can have. -/
def TcpState.phaseFits : TcpState → Phase → Bool
  | .closed, _ => true
  | .listen, phase => phase == .fresh
  | .synSent, phase | .synReceived, phase | .established, phase => phase == .opened
  | .finWait1, phase | .closeWait, phase | .finWait2, phase | .lastAck, phase
  | .timeWait, phase => phase != .broken

/-- What has been sent are sessions, and with what is queued they fit the states. -/
structure Grammatical (g : Globals) : Prop where
  marks : ∀ i n, (g.ports i).incarnation = some n →
    (g.ports i).state.phaseFits (phaseOf (sentMarks (transmissions g.log) i n ++
      queuedMarks g.sendQueue (g.ports i).key)) = true
  sent : ∀ i n, phaseOf (sentMarks (transmissions g.log) i n) ≠ .broken
  fresh : ∀ t ∈ transmissions g.log, ∀ n, t.incarnation = some n → n < g.nextAddr
  senders : ∀ t ∈ g.senders, t.params.control = ACK + PSH

/-- Data and close commands come in the states that expect them, a SYN is queued and sent, and
    a new key is that of no old segment. -/
def segmentsInOrder (s : System) : Action → Bool
  | .tcpTask env =>
      match (selectInput s.g).2 with
      | .send params =>
          !flagSyn params.control ||
            match findParamsPort s.g params with
            | some i => env.send.malloc.isSome && (findEmptyUnacked (s.g.ports i)).isSome
            | none => true
      | .segment seg =>
          match checkSegment s.g seg with
          | .accept i =>
              !((s.g.ports i).state == .listen && seg.syn) ||
                (s.g.sendQueue.length < sendQueueLength &&
                  !consumingQueued s.g ((s.g.ports i).takenOver seg).key)
          | _ => true
      | .cmd (.createAndConnect self other addr _ _ _) =>
          (findUnusedPort s.g).isNone ||
            (s.g.sendQueue.length < sendQueueLength && !consumingQueued s.g (self, other, addr))
      | .cmd (.createAndListen self _ _ _) =>
          (findUnusedPort s.g).isNone || !consumingQueued s.g (self, 0, ipv4AllZeroes)
      | .cmd (.close self other addr) =>
          match findPort s.g self other addr with
          | some i => (s.g.ports i).state.transfers
          | none => true
      | _ => true
  | .tcpSend _ src dst addr _ len _ =>
      match findPort s.g src dst addr with
      | some i => len == 0 || (s.g.ports i).state.transfers
      | none => true
  | .resumeSender k _ =>
      match s.g.senders[k]? with
      | some t =>
          t.params.dataLen == 0 || (firstIdx fun i =>
            (s.g.ports i).key == t.params.key && !(s.g.ports i).state.transfers).isNone
      | none => true
  | _ => true

/-! ### Marks -/

@[simp] theorem queuedMarks_nil (key : Key) : queuedMarks [] key = [] := rfl

theorem queuedMarks_append (queue items : List TcpTransmitParams) (key : Key) :
    queuedMarks (queue ++ items) key = queuedMarks queue key ++ queuedMarks items key := by
  simp [queuedMarks]

theorem queuedMarks_cons_self {params : TcpTransmitParams} {rest : List TcpTransmitParams}
    {key : Key} (hconsumes : consumesSequence params = true) (hkey : params.key = key) :
    queuedMarks (params :: rest) key = params.mark :: queuedMarks rest key := by
  simp [queuedMarks, hconsumes, hkey]

theorem queuedMarks_cons_other {params : TcpTransmitParams} {rest : List TcpTransmitParams}
    {key : Key} (h : consumesSequence params = true → params.key ≠ key) :
    queuedMarks (params :: rest) key = queuedMarks rest key := by
  cases hconsumes : consumesSequence params with
  | false => simp [queuedMarks, hconsumes]
  | true => simp [queuedMarks, h hconsumes]

theorem queuedMarks_eq_nil {g : Globals} {key : Key} (h : consumingQueued g key = false) :
    queuedMarks g.sendQueue key = [] := by
  simpa [queuedMarks] using consumingQueued_eq_false_iff.mp h

/-- A transmission that is not the incarnation's, or consumes nothing, does not show. -/
theorem sentMarks_concat_other {ts : List Transmission} {t : Transmission} {i : PortIdx}
    {n : Nat} (h : t.slot = i → t.incarnation = some n → consumesSequence t.params = false) :
    sentMarks (ts ++ [t]) i n = sentMarks ts i n := by
  have hnone : (t.slot == i && t.incarnation == some n && consumesSequence t.params) = false := by
    by_contra hne
    simp only [Bool.not_eq_false, Bool.and_eq_true, beq_iff_eq] at hne
    simp [h hne.1.1 hne.1.2] at hne
  simp [sentMarks, hnone]

theorem sentMarks_concat_self {ts : List Transmission} {t : Transmission} {i : PortIdx} {n : Nat}
    (hslot : t.slot = i) (hinc : t.incarnation = some n)
    (hconsumes : consumesSequence t.params = true) :
    sentMarks (ts ++ [t]) i n = sentMarks ts i n ++ [t.params.mark] := by
  simp [sentMarks, hslot, hinc, hconsumes]

/-- An incarnation that is yet to come has sent nothing. -/
theorem sentMarks_fresh {ts : List Transmission} {i : PortIdx} {n : Nat}
    (h : ∀ t ∈ ts, ∀ m, t.incarnation = some m → m < n) : sentMarks ts i n = [] := by
  simp only [sentMarks, List.map_eq_nil_iff, List.filter_eq_nil_iff, Bool.and_eq_true, beq_iff_eq]
  rintro t ht ⟨⟨-, hinc⟩, -⟩
  exact lt_irrefl n (h t ht n hinc)

theorem TcpState.phaseFits_ne_broken {state : TcpState} {phase : Phase}
    (h : state.phaseFits phase = true) (hopen : state ≠ .closed) : phase ≠ .broken := by
  rintro rfl
  cases state <;> simp_all [phaseFits]

theorem TcpState.phaseFits_transfers {state : TcpState} {phase : Phase}
    (htransfers : state.transfers = true) : state.phaseFits phase = true ↔ phase = .opened := by
  cases state <;> simp_all [phaseFits, transfers]

theorem TcpState.transfers_open {state : TcpState} (h : state.transfers = true) :
    state ≠ .closed ∧ state ≠ .listen := by
  cases state <;> simp_all [transfers]

/-- A session fits the state also without a segment that is no SYN. -/
theorem TcpState.phaseFits_remove {state : TcpState} {u v : List Mark} {m : Mark}
    (hopen : state ≠ .closed) (hm : m ≠ .opens)
    (h : state.phaseFits (phaseOf (u ++ m :: v)) = true) :
    state.phaseFits (phaseOf (u ++ v)) = true := by
  rcases phaseOf_remove hm (phaseFits_ne_broken h hopen) with hsame | ⟨hopened, hclosed⟩
  · rwa [hsame]
  · rw [hclosed] at h
    rw [hopened]
    cases state <;> simp_all [phaseFits]

namespace Grammatical
variable {g g' : Globals}

theorem alike (hsame : Alike g g') (h : Grammatical g) : Grammatical g' := by
  refine ⟨?_, ?_, ?_, ?_⟩
  · intro i n hn
    rw [hsame.state i, hsame.key i, hsame.transmissions, hsame.sendQueue]
    exact h.marks i n (hsame.incarnation i ▸ hn)
  · intro i n
    rw [hsame.transmissions]
    exact h.sent i n
  · intro t ht n hn
    exact lt_of_lt_of_le (h.fresh t (hsame.transmissions ▸ ht) n hn) hsame.nextAddr
  · intro t ht
    obtain ⟨u, hu, hparams, -⟩ := hsame.senders t ht
    exact hparams ▸ h.senders u hu

/-- A port changes and requests are queued for it, after which its session fits its state. -/
theorem update (h : Grammatical g) {i : PortIdx} {p : TcpPort} {items : List TcpTransmitParams}
    (hi : ∀ n, p.incarnation = some n → p.state.phaseFits (phaseOf
      (sentMarks (transmissions g.log) i n ++ (queuedMarks g.sendQueue p.key ++
        queuedMarks items p.key))) = true)
    (hother : ∀ j ≠ i, (g.ports j).incarnation ≠ none → queuedMarks items (g.ports j).key = []) :
    Grammatical ((g.setPort i p).queueing items) := by
  refine ⟨fun k n hn => ?_, h.sent, h.fresh, h.senders⟩
  by_cases hk : k = i
  · subst hk
    simp only [Globals.ports_queueing, Globals.ports_setPort, Function.update_self] at hn ⊢
    simpa [queuedMarks_append] using hi n hn
  · simp only [Globals.ports_queueing, Globals.ports_setPort, Function.update_of_ne hk] at hn ⊢
    have hitems := hother k hk (by simp [hn])
    simpa [queuedMarks_append, hitems] using h.marks k n hn

/-- A port changes its state to one that its session fits. -/
theorem setState (h : Grammatical g) {i : PortIdx} {p : TcpPort} (hkey : p.key = (g.ports i).key)
    (hinc : p.incarnation = (g.ports i).incarnation)
    (hfits : ∀ phase, (g.ports i).state.phaseFits phase = true →
      p.state.phaseFits phase = true) : Grammatical (g.setPort i p) := by
  rw [← Globals.queueing_nil (g.setPort i p)]
  refine h.update (fun n hn => ?_) (by simp)
  rw [hkey]
  exact hfits _ (by simpa using h.marks i n (hinc ▸ hn))

/-- A request is queued that the session of every live port with its key can take. -/
theorem queueing (h : Grammatical g) {params : TcpTransmitParams}
    (hfits : consumesSequence params = true → ∀ i, (g.ports i).key = params.key →
      (g.ports i).incarnation ≠ none → ∀ phase, (g.ports i).state.phaseFits phase = true →
        (g.ports i).state.phaseFits (phase.next params.mark) = true) :
    Grammatical (g.queueing [params]) := by
  refine ⟨fun i n hn => ?_, h.sent, h.fresh, h.senders⟩
  have hmarks := h.marks i n hn
  simp only [Globals.ports_queueing, Globals.sendQueue_queueing, Globals.log_queueing,
    queuedMarks_append] at hn ⊢
  by_cases htakes : consumesSequence params = true ∧ params.key = (g.ports i).key
  · rw [queuedMarks_cons_self htakes.1 htakes.2, queuedMarks_nil, ← List.append_assoc,
      phaseOf_concat]
    exact hfits htakes.1 i htakes.2.symm (by simp [hn]) _ hmarks
  · rw [queuedMarks_cons_other fun hc hk => htakes ⟨hc, hk⟩]
    simpa using hmarks

/-- The head of the queue leaves it and its connection keeps a session that fits. -/
theorem dequeue (h : Grammatical g) {params : TcpTransmitParams} {rest : List TcpTransmitParams}
    (hqueue : g.sendQueue = params :: rest)
    (hhead : consumesSequence params = true → ∀ i, (g.ports i).key = params.key →
      (g.ports i).state ≠ .closed → params.mark ≠ .opens) (hkeys : KeysOk g) :
    Grammatical { g with sendQueue := rest } := by
  refine ⟨fun i n hn => ?_, h.sent, h.fresh, h.senders⟩
  have hmarks := h.marks i n hn
  rw [hqueue] at hmarks
  by_cases htakes : consumesSequence params = true ∧ params.key = (g.ports i).key
  · have hopen : (g.ports i).state ≠ .closed := by
      rw [ne_eq, hkeys.incarnation i, show (g.ports i).incarnation = some n from hn]
      simp
    rw [queuedMarks_cons_self htakes.1 htakes.2] at hmarks
    exact TcpState.phaseFits_remove hopen (hhead htakes.1 i htakes.2.symm hopen) hmarks
  · rwa [queuedMarks_cons_other fun hc hk => htakes ⟨hc, hk⟩] at hmarks

/-- A transmission that consumes nothing changes nothing. -/
theorem transmit (h : Grammatical g) {t : Transmission}
    (hplain : consumesSequence t.params = false)
    (hfresh : ∀ n, t.incarnation = some n → n < g.nextAddr) :
    Grammatical (g.emit (.transmit t)) := by
  have hlog : transmissions (g.emit (.transmit t)).log = transmissions g.log ++ [t] := by
    simp [transmissions, Event.transmission?]
  have hsent : ∀ i n, sentMarks (transmissions g.log ++ [t]) i n =
      sentMarks (transmissions g.log) i n := fun i n => sentMarks_concat_other fun _ _ => hplain
  refine ⟨?_, ?_, ?_, h.senders⟩
  · intro i n hn
    rw [hlog, hsent]
    exact h.marks i n hn
  · intro i n
    rw [hlog, hsent]
    exact h.sent i n
  · rw [hlog]
    exact List.forall_mem_append.mpr ⟨h.fresh, List.forall_mem_singleton.mpr hfresh⟩

/-- A listening port has nothing queued. -/
theorem listen_empty (h : Grammatical g) {i : PortIdx} {n : Nat}
    (hn : (g.ports i).incarnation = some n) (hstate : (g.ports i).state = .listen) :
    sentMarks (transmissions g.log) i n = [] ∧
      queuedMarks g.sendQueue (g.ports i).key = [] := by
  have hmarks := h.marks i n hn
  rw [hstate, TcpState.phaseFits, beq_iff_eq, phaseOf_eq_fresh_iff, List.append_eq_nil_iff]
    at hmarks
  exact hmarks

/-- The port of a connection that has something queued does not listen. -/
theorem head_not_listen (h : Grammatical g) (hkeys : KeysOk g) {params : TcpTransmitParams}
    {rest : List TcpTransmitParams} (hqueue : g.sendQueue = params :: rest)
    (hconsumes : consumesSequence params = true) {i : PortIdx}
    (hkey : (g.ports i).key = params.key) (hopen : (g.ports i).state ≠ .closed) :
    (g.ports i).state ≠ .listen := by
  intro hlisten
  obtain ⟨n, hn⟩ := Option.ne_none_iff_exists'.mp ((hkeys.incarnation i).not.mp hopen)
  have hempty := (h.listen_empty hn hlisten).2
  rw [hqueue, queuedMarks_cons_self hconsumes hkey.symm] at hempty
  cases hempty

/-- The head of the queue is sent: its mark moves from what is queued to what has been sent. -/
theorem record (h : Grammatical g) (hkeys : KeysOk g) {params : TcpTransmitParams}
    {rest : List TcpTransmitParams} {i : PortIdx} {p : TcpPort} {t : Transmission}
    (hqueue : g.sendQueue = params :: rest) (hfind : findParamsPort g params = some i)
    (hconsumes : consumesSequence params = true) {seqNum : BitVec 32}
    (ht : Sends g i params seqNum t) (hkey : p.key = (g.ports i).key)
    (hstate : p.state = (g.ports i).state) (hinc : p.incarnation = (g.ports i).incarnation) :
    Grammatical ((Globals.setPort { g with sendQueue := rest } i p).emit (.transmit t)) := by
  have hkeyi := findParamsPort_key hfind
  have hopen : (g.ports i).state ≠ .closed := hkeys.live_of_find (by simp [hqueue]) hfind
  have hlisten := h.head_not_listen hkeys hqueue hconsumes hkeyi hopen
  obtain ⟨m, hm⟩ := Option.ne_none_iff_exists'.mp ((hkeys.incarnation i).not.mp hopen)
  have hmarks := h.marks i m hm
  rw [hqueue, queuedMarks_cons_self hconsumes hkeyi.symm] at hmarks
  have hlog : transmissions ((Globals.setPort { g with sendQueue := rest } i p).emit
      (.transmit t)).log = transmissions g.log ++ [t] := by
    simp [transmissions, Event.transmission?]
  have htinc : t.incarnation = some m := ht.incarnation.trans hm
  have hself : sentMarks (transmissions g.log ++ [t]) i m =
      sentMarks (transmissions g.log) i m ++ [params.mark] := by
    rw [sentMarks_concat_self ht.slot htinc (ht.params ▸ hconsumes), ht.params]
  have hother : ∀ k n, (k = i → n ≠ m) →
      sentMarks (transmissions g.log ++ [t]) k n = sentMarks (transmissions g.log) k n := by
    refine fun k n hne => sentMarks_concat_other ?_
    intro hslot hn
    exact absurd (Option.some.inj (hn.symm.trans htinc)) (hne (hslot.symm.trans ht.slot))
  refine ⟨?_, ?_, ?_, h.senders⟩
  · intro k n hn
    rw [hlog]
    by_cases hk : k = i
    · subst hk
      simp only [Globals.ports_emit, Globals.ports_setPort, Function.update_self] at hn ⊢
      obtain rfl : n = m := Option.some.inj (hn.symm.trans (hinc.trans hm))
      rw [hself, hstate, hkey, List.append_assoc]
      exact hmarks
    · simp only [Globals.ports_emit, Globals.ports_setPort, Function.update_of_ne hk] at hn ⊢
      rw [hother k n (fun h => absurd h hk)]
      have hmarks' := h.marks k n hn
      rw [hqueue, queuedMarks_cons_other ?_] at hmarks'
      · exact hmarks'
      · -- the segment is that of a port which does not share its key
        exact fun _ hkk => hk (hkeys.unique (hkk.symm.trans hkeyi.symm) hopen hlisten)
  · intro k n
    rw [hlog]
    by_cases hself' : k = i ∧ n = m
    · obtain ⟨rfl, rfl⟩ := hself'
      rw [hself]
      apply phaseOf_prefix (v := queuedMarks rest (g.ports k).key)
      rw [List.append_assoc]
      exact TcpState.phaseFits_ne_broken hmarks hopen
    · rw [hother k n fun hk hn => hself' ⟨hk, hn⟩]
      exact h.sent k n
  · rw [hlog]
    refine List.forall_mem_append.mpr ⟨h.fresh, List.forall_mem_singleton.mpr ?_⟩
    intro n hn
    exact hkeys.fresh i n (ht.incarnation.symm.trans hn)

theorem allocate (h : Grammatical g) : Grammatical { g with nextAddr := g.nextAddr + 1 } :=
  ⟨h.marks, h.sent, fun t ht n hn => Nat.lt_succ_of_lt (h.fresh t ht n hn), h.senders⟩

/-- A port becomes one that has sent nothing and whose key nothing queued has, and its SYN finds
    room in the queue. -/
theorem opens (h : Grammatical g) {B : Prop} {i : PortIdx} {p : TcpPort}
    {params : TcpTransmitParams} {items : List TcpTransmitParams}
    (hkeys' : KeysOk ((g.setPort i p).queueing items)) (hstate : p.state.transfers = true)
    (hkey : params.key = p.key) (hmark : params.mark = .opens)
    (hconsumes : consumesSequence params = true)
    (hsent : ∀ n, p.incarnation = some n → sentMarks (transmissions g.log) i n = [])
    (hqueued : consumingQueued g p.key = false)
    (hqueues : Queues B (g.setPort i p) params items) (hb : ¬ B)
    (hroom : g.sendQueue.length < sendQueueLength) :
    Grammatical ((g.setPort i p).queueing items) := by
  obtain ⟨hopen, hlisten⟩ := TcpState.transfers_open hstate
  have hfind : findParamsPort (g.setPort i p) params = some i :=
    hkeys'.find (by simpa using hkey) (by simpa using hopen) (by simpa using hlisten)
  obtain rfl := hqueues.items_eq hb hfind (by simpa using hopen) hroom
  refine h.update (fun n hn => ?_) fun j hj _ => ?_
  · rw [hsent n hn, queuedMarks_eq_nil hqueued, queuedMarks_cons_self hconsumes hkey, hmark]
    exact (TcpState.phaseFits_transfers hstate).mpr rfl
  · rw [queuedMarks_cons_other fun _ hk => ?_, queuedMarks_nil]
    have hkj : (g.ports j).key = p.key := hk.symm.trans hkey
    exact hj (hkeys'.unique (i := i) (by simpa [hj] using hkj) (by simpa using hopen)
      (by simpa using hlisten))

/-- A port stops transferring and its FIN is queued, or finds no place. -/
theorem closes (h : Grammatical g) (hkeys : KeysOk g) {i : PortIdx} {state : TcpState}
    {params : TcpTransmitParams} {items : List TcpTransmitParams}
    (htransfers : (g.ports i).state.transfers = true)
    (hfits : ∀ phase, phase ≠ .broken → state.phaseFits phase = true)
    (hkey : params.key = (g.ports i).key) (hmark : params.mark = .closes)
    (hitems : ∀ p ∈ items, p = params) (hone : items.length ≤ 1) :
    Grammatical ((g.setState i state).queueing items) := by
  obtain ⟨hopen, hlisten⟩ := TcpState.transfers_open htransfers
  refine h.update (fun n hn => ?_) fun j hj _ => ?_
  · have hmarks := (TcpState.phaseFits_transfers htransfers).mp (h.marks i n hn)
    apply hfits _
    rw [← List.append_assoc, show TcpPort.key { g.ports i with state := state } =
      (g.ports i).key from rfl]
    match items, hone with
    | [], _ => simp [hmarks]
    | [p], _ =>
        obtain rfl := hitems p (by simp)
        by_cases hconsumes : consumesSequence p = true
        · rw [queuedMarks_cons_self hconsumes hkey, queuedMarks_nil, phaseOf_concat, hmarks, hmark]
          simp [Phase.next]
        · rw [queuedMarks_cons_other (fun hc => absurd hc hconsumes), queuedMarks_nil,
            List.append_nil, hmarks]
          simp
  · match items, hone with
    | [], _ => rfl
    | [p], _ =>
        obtain rfl := hitems p (by simp)
        apply queuedMarks_cons_other
        intro _ hk
        exact hj (hkeys.unique (hk.symm.trans hkey) hopen hlisten)

end Grammatical

theorem TcpTransmitParams.mark_syn {params : TcpTransmitParams}
    (h : flagSyn params.control = true) : params.mark = .opens := by
  simp [mark, h]

theorem TcpTransmitParams.mark_fin {params : TcpTransmitParams}
    (hsyn : flagSyn params.control = false) (hfin : flagFin params.control = true) :
    params.mark = .closes := by
  simp [mark, hsyn, hfin]

/-- A pure ACK consumes no sequence space. -/
theorem replyParams_ack_plain (port : TcpPort) (dst : Ipv4Addr) :
    consumesSequence (replyParams port dst ACK) = false :=
  show (seqIncrement (replyParams port dst ACK) != 0 && true) = false by
    rw [show seqIncrement (replyParams port dst ACK) = 0 from
      show (0 + if flagSyn ACK || flagFin ACK then 1 else 0 : BitVec 16) = 0 by decide]
    rfl

/-- A segment with the control byte of `tcp_send` carries data. -/
theorem TcpTransmitParams.mark_data {params : TcpTransmitParams}
    (h : params.control = ACK + PSH) : params.mark = .carries ∧
      (consumesSequence params = true → params.dataLen ≠ 0) := by
  have hsyn : flagSyn params.control = false := by rw [h]; decide
  have hfin : flagFin params.control = false := by rw [h]; decide
  refine ⟨by simp [mark, hsyn, hfin], ?_⟩
  intro hconsumes hlen
  simp [consumesSequence, seqIncrement, hsyn, hfin, hlen] at hconsumes

section Step
variable {s s' : System} {a : Action} {g g' : Globals}

/-- In order, a request that consumes sequence space and answers no change of state carries data
    of a port that transfers. -/
theorem Pushes.carries {params : TcpTransmitParams} (hwhy : Pushes s a params)
    (hs : Grammatical s.g) (hkeys : KeysOk g) (hstage : Stage s.g [] g)
    (hc : segmentsInOrder s a = true) (hconsumes : consumesSequence params = true)
    {k : PortIdx} (hk : (g.ports k).key = params.key) :
    params.mark = .carries ∧ (g.ports k).state.transfers = true := by
  cases hwhy with
  | @data inCallback src dst addr data len timeout i block ha hfind _ =>
      subst ha
      obtain ⟨hmark, hlen⟩ : (tcpSendParams (s.g.ports i) block len).mark = .carries ∧
          (consumesSequence (tcpSendParams (s.g.ports i) block len) = true → _) :=
        TcpTransmitParams.mark_data rfl
      have hlen : len ≠ 0 := hlen hconsumes
      have hi : (s.g.ports i).state.transfers = true := by
        simp only [segmentsInOrder, hfind, Bool.or_eq_true, beq_iff_eq] at hc
        exact hc.resolve_left hlen
      rw [← hstage.state i] at hi
      obtain ⟨hopen, hlisten⟩ := TcpState.transfers_open hi
      obtain rfl : k = i := hkeys.unique (hk.trans (hstage.key i).symm) hopen hlisten
      exact ⟨hmark, hi⟩
  | @resumed j deletedTake t ha ht =>
      subst ha
      obtain ⟨hmark, hlen⟩ :=
        TcpTransmitParams.mark_data (hs.senders t (List.mem_of_getElem? ht))
      refine ⟨hmark, ?_⟩
      simp only [segmentsInOrder, ht, Bool.or_eq_true, beq_iff_eq, hlen hconsumes, false_or,
        Option.isNone_iff_eq_none, firstIdx_eq_none_iff, Bool.and_eq_false_iff,
        beq_eq_false_iff_ne, Bool.not_eq_false'] at hc
      rw [hstage.state k]
      exact (hc k).resolve_left (not_not.mpr ((hstage.key k).symm.trans hk))
  | ack hacc hacks =>
      exact absurd hconsumes (by rw [replyParams_ack_plain]; simp)

/-- In order, what leaves the queue unsent is no SYN of a port that is open. -/
theorem unsent_not_opens {env : TaskEnv} {params : TcpTransmitParams} {i : PortIdx}
    (hin : (selectInput s.g).2 = .send params)
    (hwhy : env.send.malloc = none ∨ findParamsPort s.g params = none ∨
      ∃ k, findParamsPort s.g params = some k ∧ consumesSequence params = true ∧
        findEmptyUnacked (s.g.ports k) = none)
    (hc : segmentsInOrder s (.tcpTask env) = true) (hfind : findParamsPort s.g params = some i) :
    params.mark ≠ .opens := by
  intro hmark
  have hsyn : flagSyn params.control = true := by
    by_contra hno
    simp only [TcpTransmitParams.mark, hno] at hmark
    split at hmark <;> [contradiction; split at hmark <;> contradiction]
  simp only [segmentsInOrder, hin, hsyn, hfind, Bool.not_true, Bool.false_or,
    Bool.and_eq_true] at hc
  rcases hwhy with hnone | hnone | ⟨k, hk, -, hfull⟩
  · simp [hnone] at hc
  · simp [hfind] at hnone
  · obtain rfl := Option.some.inj (hk.symm.trans hfind)
    simp [hfull] at hc

namespace Grammatical

/-- A listening port takes over a connection: its SYN and ACK is the first that it sends. -/
theorem takesOver (h : Grammatical g) {i : PortIdx} {seg : Segment}
    {items : List TcpTransmitParams} {B : Prop}
    (hkeys' : KeysOk ((g.setPort i ((g.ports i).takenOver seg)).queueing items))
    (hc : segmentsInOrder s a = true) (hacc : Accepts s a i seg) (hstage : Stage s.g [] g)
    (hstate : (s.g.ports i).state = .listen) (hsyn : seg.syn = true)
    (hqueues : Queues B (g.setPort i ((g.ports i).takenOver seg))
      (replyParams ((g.ports i).takenOver seg) seg.srcIpv4Addr (SYN + ACK)) items) (hb : ¬ B) :
    Grammatical ((g.setPort i ((g.ports i).takenOver seg)).queueing items) := by
  obtain ⟨⟨⟨env, rfl⟩, hin⟩, hverdict⟩ := hacc
  simp only [segmentsInOrder, hin, hverdict, hstate, hsyn, beq_self_eq_true, Bool.and_self,
    Bool.not_true, Bool.false_or, Bool.and_eq_true, decide_eq_true_eq, Bool.not_eq_true'] at hc
  obtain ⟨hroom, hqueued⟩ := hc
  have hlisten : (g.ports i).state = .listen := (hstage.state i).trans hstate
  have hkey : ((g.ports i).takenOver seg).key = ((s.g.ports i).takenOver seg).key := by
    simp [TcpPort.key, TcpPort.takenOver, TcpPort.selfPortNum_of_settled (hstage.settled i)]
  exact h.opens hkeys' (by simp [TcpPort.takenOver, TcpState.transfers]) rfl
    (TcpTransmitParams.mark_syn (show flagSyn (SYN + ACK) = true by decide))
    ((Request.synAck _ _).control_consumes (by simp only [replyParams]; decide)).1
    (fun n hn => (h.listen_empty hn hlisten).1)
    (by simpa [consumingQueued, hkey, hstage.sendQueue_eq] using hqueued) hqueues hb
    (hstage.sendQueue_eq ▸ hroom)

/-- A port that begins to listen has sent nothing and nothing is queued for it. -/
theorem listens (h : Grammatical g) {self : BitVec 16}
    {onReceive onConnect onDisconnect : Option FnPtr} {i : PortIdx}
    (hc : segmentsInOrder s a = true)
    (hcmd : Processes s a (.cmd (.createAndListen self onReceive onConnect onDisconnect)))
    (hstage : Stage s.g [] g) (hunused : findUnusedPort s.g = some i) :
    Grammatical (Globals.setPort { g with nextAddr := g.nextAddr + 1 } i
      { newPort self g.nextAddr onReceive onConnect onDisconnect with state := .listen }) := by
  obtain ⟨⟨env, rfl⟩, hin⟩ := hcmd
  simp only [segmentsInOrder, hin, hunused, Option.isNone_some, Bool.false_or,
    Bool.not_eq_true'] at hc
  have hqueued : consumingQueued g (self, 0, ipv4AllZeroes) = false := by
    simpa [consumingQueued, hstage.sendQueue_eq] using hc
  rw [← Globals.queueing_nil (Globals.setPort _ i _)]
  refine h.allocate.update (fun n hn => ?_) (by simp)
  obtain rfl : g.nextAddr = n := by
    simpa [newPort, TcpPort.incarnation, CountingSemaphore.create] using hn
  show TcpState.phaseFits .listen (phaseOf (sentMarks (transmissions g.log) i g.nextAddr ++
    (queuedMarks g.sendQueue (self, 0, ipv4AllZeroes) ++ []))) = true
  rw [sentMarks_fresh h.fresh, queuedMarks_eq_nil hqueued]
  rfl

/-- A port that begins to connect sends its SYN first. -/
theorem connects (h : Grammatical g) {self other : BitVec 16} {addr : Ipv4Addr}
    {onReceive onConnect onDisconnect : Option FnPtr} {i : PortIdx} {port : TcpPort}
    {items : List TcpTransmitParams} {B : Prop}
    (hkeys' : KeysOk
      ((Globals.setPort { g with nextAddr := g.nextAddr + 1 } i port).queueing items))
    (hc : segmentsInOrder s a = true)
    (hcmd : Processes s a
      (.cmd (.createAndConnect self other addr onReceive onConnect onDisconnect)))
    (hstage : Stage s.g [] g) (hunused : findUnusedPort s.g = some i)
    (hport : port =
      connectingPort (newPort self g.nextAddr onReceive onConnect onDisconnect) other addr)
    (hqueues : Queues B (Globals.setPort { g with nextAddr := g.nextAddr + 1 } i port)
      (synRequest port addr) items) (hb : ¬ B) :
    Grammatical
      ((Globals.setPort { g with nextAddr := g.nextAddr + 1 } i port).queueing items) := by
  obtain ⟨⟨env, rfl⟩, hin⟩ := hcmd
  have hportkey : port.key = (self, other, addr) := hport ▸ rfl
  have hstate : port.state = .synSent := hport ▸ rfl
  simp only [segmentsInOrder, hin, hunused, Option.isNone_some, Bool.false_or,
    Bool.and_eq_true, decide_eq_true_eq, Bool.not_eq_true'] at hc
  obtain ⟨hroom, hqueued⟩ := hc
  have hsent : ∀ n, port.incarnation = some n → sentMarks (transmissions g.log) i n = [] := by
    intro n hn
    obtain rfl : g.nextAddr = n := by
      simpa [hport, connectingPort, newPort, TcpPort.incarnation, CountingSemaphore.create]
        using hn
    exact sentMarks_fresh h.fresh
  exact h.allocate.opens hkeys' (by simp [hstate, TcpState.transfers]) (by subst hport; rfl)
    (TcpTransmitParams.mark_syn (show flagSyn SYN = true by decide))
    ((Request.syn _ _).control_consumes (by simp only [synRequest]; decide)).1 hsent
    (by simpa [consumingQueued, hportkey, hstage.sendQueue_eq] using hqueued) hqueues hb
    (hstage.sendQueue_eq ▸ hroom)

/-- One move of a step keeps the grammar, given the condition on the step. -/
theorem move (hs' : s'.tcpTask = .running) (hs : Grammatical s.g) (hkeys : KeysOk g)
    (hkeys' : KeysOk g') (hc : segmentsInOrder s a = true) (hm : Move s a s' g g')
    (h : Grammatical g) : Grammatical g' := by
  cases hm with
  | stay => exact h
  | @wait t _ _ _ hcontrol =>
      refine ⟨h.marks, h.sent, h.fresh, ?_⟩
      intro u hu
      rcases List.mem_append.mp hu with hu | hu
      · exact h.senders u hu
      · obtain rfl := List.mem_singleton.mp hu
        exact hcontrol
  | push hstage hwhy hroom =>
      apply h.queueing
      intro hconsumes k hk hinc phase hphase
      obtain ⟨hmark, htransfers⟩ := hwhy.carries hs hkeys hstage hc hconsumes hk
      rw [TcpState.phaseFits_transfers htransfers] at hphase ⊢
      rw [hphase, hmark]
      rfl
  | drop ha hin hstage hqueue hwhy =>
      subst ha
      refine h.dequeue hqueue (fun hconsumes i hkey hopen => ?_) hkeys
      have hlisten := h.head_not_listen hkeys hqueue hconsumes hkey hopen
      have hfind : findParamsPort s.g _ = some i :=
        hstage.findParamsPort _ ▸ hkeys.find hkey.symm hopen hlisten
      exact unsent_not_opens hin hwhy hc hfind
  | pass _ _ _ hqueue _ hplain ht =>
      refine (h.dequeue hqueue (fun hconsumes => ?_) hkeys).transmit (ht.params ▸ hplain)
        fun n hn => hkeys.fresh _ n (ht.incarnation.symm.trans hn)
      rw [hplain] at hconsumes
      cases hconsumes
  | record _ _ _ hqueue hfind hconsumes ht =>
      exact h.record hkeys hqueue hfind hconsumes ht rfl rfl rfl
  | resend _ hretransmission _ _ _ ht =>
      refine h.transmit ?_ fun n hn => hkeys.fresh _ n (ht.incarnation.symm.trans hn)
      simp [ht.params, consumesSequence, hretransmission]
  | @reset i =>
      rw [← Globals.queueing_nil (g.setPort i (g.ports i).closed)]
      exact h.update (by simp [TcpPort.closed, TcpPort.incarnation]) (by simp)
  | takeOver hacc hstage hstate hsyn hqueues =>
      exact h.takesOver hkeys' hc hacc hstage hstate hsyn hqueues (by simp [hs'])
  | @establish i seg hacc hstage hfrom hack =>
      refine h.setState rfl rfl ?_
      intro phase hphase
      rw [hstage.state i] at hphase
      rcases hfrom with ⟨hfrom, -⟩ | ⟨hfrom, -⟩ <;> rwa [hfrom] at hphase
  | @finReply i seg items hacc hstage hstate hfin hqueues =>
      have hkey := (hacc.replyKey (by simp [hstate]) (FIN + ACK)).trans (hstage.key i).symm
      exact h.closes hkeys (by simp [hstage.state i, hstate, TcpState.transfers])
        (by simp [TcpState.phaseFits]) hkey
        (TcpTransmitParams.mark_fin (show flagSyn (FIN + ACK) = false by decide)
          (show flagFin (FIN + ACK) = true by decide))
        (fun p => hqueues.mem) hqueues.length_le
  | @finWait2 i seg hacc hstage hstate =>
      refine h.setState rfl rfl ?_
      intro phase hphase
      rwa [hstage.state i, hstate] at hphase
  | @timeWait i seg now hacc hstage hstate =>
      refine h.setState rfl rfl ?_
      intro phase hphase
      rw [hstage.state i] at hphase
      rcases hstate with hstate | hstate <;> rwa [hstate] at hphase
  | @close self other addr i items hcmd hstage hfind hqueues =>
      obtain ⟨⟨env, rfl⟩, hin⟩ := hcmd
      simp only [segmentsInOrder, hin, hfind] at hc
      exact h.closes hkeys (by rwa [hstage.state i]) (by simp [TcpState.phaseFits])
        ((finRequest_key hfind).trans (hstage.key i).symm)
        (TcpTransmitParams.mark_fin (show flagSyn FIN = false by decide)
          (show flagFin FIN = true by decide))
        (fun p => hqueues.mem) hqueues.length_le
  | listen hcmd hstage hunused => exact h.listens hc hcmd hstage hunused
  | connect hcmd hstage hunused hport hqueues =>
      exact h.connects hkeys' hc hcmd hstage hunused hport hqueues (by simp [hs'])

end Grammatical
end Step

theorem grammatical_boot (net : NetContext) : Grammatical (boot net).g :=
  ⟨by simp [boot, TcpPort.incarnation], by simp [boot, transmissions, sentMarks],
    by simp [boot, transmissions], by simp [boot]⟩

/-- A step after which `tcp_task` waits has sent nothing new. -/
theorem sentMarks_of_waiting {s s' : System} {a : Action} (h : step s a = some s')
    (hs' : s'.tcpTask ≠ .running) (i : PortIdx) (n : Nat) :
    sentMarks (transmissions s'.g.log) i n = sentMarks (transmissions s.g.log) i n := by
  refine step_moves (P := fun g => sentMarks (transmissions g.log) i n =
    sentMarks (transmissions s.g.log) i n) (fun hsame hg => ?_) (fun g g' hm hg => ?_) h rfl
  · rw [hsame.transmissions, hg]
  · have hplain : ∀ t : Transmission, consumesSequence t.params = false →
        sentMarks (transmissions (g.emit (.transmit t)).log) i n =
          sentMarks (transmissions s.g.log) i n := by
      intro t ht
      rw [← hg]
      simpa [transmissions, Event.transmission?] using sentMarks_concat_other fun _ _ => ht
    cases hm with
    | pass _ _ _ _ _ hpass ht => exact hplain _ (ht.params ▸ hpass)
    | resend _ hretransmission _ _ _ ht =>
        exact hplain _ (by simp [ht.params, consumesSequence, hretransmission])
    | @record env params rest i j now t ha hin =>
        -- an iteration that sends a request does not wait
        subst ha
        refine absurd ((step_running_iff h).mpr ⟨?_, by simp [waits, hin]⟩) hs'
        cases hs : s.tcpTask with
        | running => rfl
        | blocked r => simp [step, hs] at h
    | _ => exact hg

/-- In every run whose steps keep the keys apart and the segments in order, what an incarnation
    of a port has sent is a session: a SYN, then data, then at most one FIN. -/
theorem sent_session {net : NetContext} {as : List Action} {s : System}
    (hrun : run step (boot net) as = some s)
    (hg : Guarded step (fun s a => keysApart s a && segmentsInOrder s a) (boot net) as)
    (i : PortIdx) (n : Nat) : Session (sentMarks (transmissions s.g.log) i n) := by
  have hsent : (∀ i n, phaseOf (sentMarks (transmissions s.g.log) i n) ≠ .broken) ∧
      (s.tcpTask = .running → KeysOk s.g ∧ Grammatical s.g) := by
    refine run_invariant (P := fun s =>
      (∀ i n, phaseOf (sentMarks (transmissions s.g.log) i n) ≠ .broken) ∧
        (s.tcpTask = .running → KeysOk s.g ∧ Grammatical s.g))
      (fun s a s' ⟨hsent, hs⟩ hc hstep => ?_)
      ⟨(grammatical_boot net).sent, fun _ => ⟨keysOk_boot net, grammatical_boot net⟩⟩ hg hrun
    have hc := Bool.and_eq_true_iff.mp hc
    have hgrammar : s'.tcpTask = .running → KeysOk s'.g ∧ Grammatical s'.g := fun hs' =>
      have hinv := hs (running_of_step hstep hs')
      step_moves (P := fun g => KeysOk g ∧ Grammatical g)
        (fun hsame h => ⟨h.1.alike hsame, h.2.alike hsame⟩)
        (fun g g' hm h =>
          have hkeys := hinv.1.move hc.1 hm h.1
          ⟨hkeys, hinv.2.move hs' h.1 hkeys hc.2 hm h.2⟩) hstep hinv
    refine ⟨fun i n => ?_, hgrammar⟩
    by_cases hs' : s'.tcpTask = .running
    · exact (hgrammar hs').2.sent i n
    · rw [sentMarks_of_waiting hstep hs']
      exact hsent i n
  exact session_iff.mpr (hsent.1 i n)

/-- After a handshake the host sends a byte and closes, and `tcp_task` handles it all. -/
def sendsThenCloses : List Action :=
  handshake peerNet.ip ++ [.tcpSend false 80 5000 peerNet.ip (some fun _ => 7) 1 portMaxDelay,
    iterates, .tcpClosePort 80 5000 peerNet.ip, iterates, iterates]

/-- The session of such a port has a SYN, data and a FIN. -/
theorem sent_session_of_data :
    ∃ s, run step (boot hostNet) sendsThenCloses = some s ∧
      sentMarks (transmissions s.g.log) 0 0 = [.opens, .carries, .closes] ∧
      Session (sentMarks (transmissions s.g.log) 0 0) := by
  obtain ⟨s, hs, hmarks⟩ := run_any
    (show (run step (boot hostNet) sendsThenCloses).any (fun s =>
      sentMarks (transmissions s.g.log) 0 0 == [.opens, .carries, .closes]) = true by
        decide +kernel)
  exact ⟨s, hs, beq_iff_eq.mp hmarks, sent_session hs (by decide +kernel) 0 0⟩

/-- After a handshake the host closes, and before its FIN is sent the application sends data. -/
def closesThenSends : List Action :=
  handshake peerNet.ip ++ [.tcpClosePort 80 5000 peerNet.ip, iterates,
    .tcpSend false 80 5000 peerNet.ip (some fun _ => 7) 1 portMaxDelay, iterates, iterates]

/-- The data follows the FIN. -/
theorem sent_data_after_fin :
    ∃ s, run step (boot hostNet) closesThenSends = some s ∧
      ¬ Session (sentMarks (transmissions s.g.log) 0 0) := by
  obtain ⟨s, hs, hmarks⟩ := run_any
    (show (run step (boot hostNet) closesThenSends).any (fun s =>
      sentMarks (transmissions s.g.log) 0 0 == [.opens, .closes, .carries]) = true by
        decide +kernel)
  refine ⟨s, hs, fun hsession => session_iff.mp hsession ?_⟩
  rw [beq_iff_eq.mp hmarks]
  rfl

end NetStack.Tcp
