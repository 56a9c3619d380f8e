import NetStack.Lib.Chunks
import NetStack.Tcp.Proofs.Lifetimes
import Mathlib.Data.BitVec

/-!
# The sequence space of an incarnation

The first transmissions of an incarnation take up its sequence space one behind the other, and
what is retransmitted is what an entry still holds. `seq_num` advances exactly where an entry
is made, so that both follow from what one effect does, whatever calls fail.
-/

namespace NetStack.Tcp
open NetStack.Lib

/-- The datagram that goes to IPv4. -/
def Transmission.datagram (t : Transmission) : Memory :=
  match t.ipv4.data with
  | some block => block.bytes
  | none => fun _ => 0

/-- The header of the datagram. -/
def Transmission.header (t : Transmission) : TcpHeader := TcpHeader.read t.datagram

/-- The sequence numbers that the datagram takes up: one for each byte behind the header, one
    for a SYN or a FIN. -/
def Transmission.range (t : Transmission) : Chunk (BitVec 32) where
  start := t.header.seqNum
  length := (t.ipv4.dataLen - headerSize).setWidth 32 +
    if flagSyn t.header.control || flagFin t.header.control then 1 else 0

/-- The first transmissions of the incarnation `n` of port `i` that consume sequence space, in
    their order. -/
def firstTransmissions (log : List Event) (i : PortIdx) (n : Nat) : List Transmission :=
  (transmissions log).filter fun t =>
    t.slot == i && t.incarnation == some n && !t.params.isRetransmission && t.range.length != 0

theorem mem_firstTransmissions {log : List Event} {i : PortIdx} {n : Nat} {t : Transmission} :
    t ∈ firstTransmissions log i n ↔ t ∈ transmissions log ∧ t.slot = i ∧ t.incarnation = some n ∧
      t.params.isRetransmission = false ∧ t.range.length ≠ 0 := by
  simp [firstTransmissions, and_assoc]

/-- The entry holds the segment that the transmission was the first to send. -/
structure TcpUnacked.Holds (entry : TcpUnacked) (t : Transmission) : Prop where
  seqNum : entry.seqNum = t.seqNum
  control : entry.control = t.params.control
  data : entry.data = t.params.data
  dataLen : entry.dataLen = t.params.dataLen

/-- No acknowledgement, no failed retransmission and no reset has released the entry of port
    `i` that holds the segment. -/
def Unreleased (g : Globals) (i : PortIdx) (t : Transmission) : Prop :=
  ∃ j, ((g.ports i).unacked j).inUse = true ∧ ((g.ports i).unacked j).Holds t

/-- The datagram carries the sequence number, the control bits and the payload of another. -/
structure Transmission.Repeats (t t₀ : Transmission) : Prop where
  seqNum : t.header.seqNum = t₀.header.seqNum
  control : t.header.control = t₀.header.control
  data : t.params.data = t₀.params.data
  dataLen : t.ipv4.dataLen = t₀.ipv4.dataLen
  payload : ∀ k, 20 + k < t.ipv4.dataLen.toNat → t.datagram (20 + k) = t₀.datagram (20 + k)

/-! ### The recorded transmissions -/

/-- The transmissions of the incarnation that have been recorded in an entry. -/
def recordings (log : List Event) (i : PortIdx) (n : Nat) : List Transmission :=
  (transmissions log).filter fun t =>
    t.slot == i && t.incarnation == some n && consumesSequence t.params

/-- By how much the transmission advances `seq_num`. -/
def Transmission.advance (t : Transmission) : Chunk (BitVec 32) :=
  ⟨t.seqNum, (seqIncrement t.params).setWidth 32⟩

/-- The sequence numbers taken up by the recorded transmissions. -/
def recorded (log : List Event) (i : PortIdx) (n : Nat) : List (Chunk (BitVec 32)) :=
  (recordings log i n).map (·.advance)

theorem mem_recordings {log : List Event} {i : PortIdx} {n : Nat} {t : Transmission} :
    t ∈ recordings log i n ↔ t ∈ transmissions log ∧ t.slot = i ∧ t.incarnation = some n ∧
      consumesSequence t.params = true := by
  simp [recordings, and_assoc]

theorem recordings_congr {g g' : Globals} (h : transmissions g'.log = transmissions g.log)
    (i : PortIdx) (n : Nat) : recordings g'.log i n = recordings g.log i n := by
  rw [recordings, recordings, h]

theorem recorded_congr {g g' : Globals} (h : transmissions g'.log = transmissions g.log)
    (i : PortIdx) (n : Nat) : recorded g'.log i n = recorded g.log i n := by
  rw [recorded, recorded, recordings_congr h]

/-- Every port's recorded transmissions follow one another and end at its `seq_num`; handles
    tell the incarnations apart, and a port that has given up its handle has given up its port
    number. -/
structure Tiles (g : Globals) : Prop where
  fresh : ∀ i n, (g.ports i).incarnation = some n → n < g.nextAddr
  sent : ∀ t ∈ transmissions g.log, ∀ n, t.incarnation = some n → n < g.nextAddr
  live : ∀ i, (g.ports i).incarnation = none → (g.ports i).selfPortNum = 0
  seqNum : ∀ i n, (g.ports i).incarnation = some n →
    (g.ports i).seqNum = totalLength (recorded g.log i n)
  contiguous : ∀ i n, Contiguous 0 (recorded g.log i n)

namespace Tiles
variable {g g' : Globals}

theorem alike (hsame : Alike g g') (h : Tiles g) : Tiles g' := by
  constructor
  case fresh =>
      intro i n hn
      rw [hsame.incarnation i] at hn
      exact lt_of_lt_of_le (h.fresh i n hn) hsame.nextAddr
  case sent =>
      intro t ht n hn
      rw [hsame.transmissions] at ht
      exact lt_of_lt_of_le (h.sent t ht n hn) hsame.nextAddr
  case live =>
      intro i hnone
      rw [hsame.incarnation i] at hnone
      exact (TcpPort.selfPortNum_of_settled (hsame.settled i)).trans (h.live i hnone)
  case seqNum =>
      intro i n hn
      rw [hsame.incarnation i] at hn
      rw [hsame.seqNum i, recorded_congr hsame.transmissions]
      exact h.seqNum i n hn
  case contiguous =>
      intro i n
      rw [recorded_congr hsame.transmissions]
      exact h.contiguous i n

/-- A port is replaced by one that has no handle, or has its `seq_num` where the recorded
    transmissions of its handle end. -/
theorem setPort (h : Tiles g) {i : PortIdx} {p : TcpPort}
    (hlive : p.incarnation = none → p.selfPortNum = 0)
    (hp : ∀ n, p.incarnation = some n →
      n < g.nextAddr ∧ p.seqNum = totalLength (recorded g.log i n)) : Tiles (g.setPort i p) := by
  refine ⟨fun k n hn => ?_, h.sent, fun k hnone => ?_, fun k n hn => ?_, h.contiguous⟩ <;>
    by_cases hk : k = i
  · subst hk
    exact (hp n (by simpa using hn)).1
  · exact h.fresh k n (by simpa [hk] using hn)
  · subst hk
    simpa using hlive (by simpa using hnone)
  · simpa [hk] using h.live k (by simpa [hk] using hnone)
  · subst hk
    simpa using (hp n (by simpa using hn)).2
  · simpa [hk] using h.seqNum k n (by simpa [hk] using hn)

/-- A port changes in nothing that matters here. -/
theorem setPort_same (h : Tiles g) {i : PortIdx} {p : TcpPort}
    (hinc : p.incarnation = (g.ports i).incarnation)
    (hself : p.selfPortNum = (g.ports i).selfPortNum) (hseq : p.seqNum = (g.ports i).seqNum) :
    Tiles (g.setPort i p) := by
  refine h.setPort (fun hnone => ?_) fun n hn => ?_
  · rw [hself]
    exact h.live i (hinc ▸ hnone)
  · rw [hinc] at hn
    exact ⟨h.fresh i n hn, hseq.trans (h.seqNum i n hn)⟩

theorem queueing (h : Tiles g) (items : List TcpTransmitParams) : Tiles (g.queueing items) :=
  ⟨h.fresh, h.sent, h.live, h.seqNum, h.contiguous⟩

theorem setQueue (h : Tiles g) (queue : List TcpTransmitParams) :
    Tiles { g with sendQueue := queue } :=
  ⟨h.fresh, h.sent, h.live, h.seqNum, h.contiguous⟩

/-- No transmission has the handle that the next port gets. -/
theorem recorded_nextAddr (h : Tiles g) (i : PortIdx) : recorded g.log i g.nextAddr = [] := by
  rw [recorded, List.map_eq_nil_iff, recordings, List.filter_eq_nil_iff]
  intro t ht hmatch
  simp only [Bool.and_eq_true, beq_iff_eq] at hmatch
  exact absurd (h.sent t ht _ hmatch.1.2) (lt_irrefl _)

/-- A command puts a new port into slot `i`. -/
theorem create (h : Tiles g) {i : PortIdx} {p : TcpPort} (hinc : p.incarnation = some g.nextAddr)
    (hseq : p.seqNum = 0) :
    Tiles (Globals.setPort { g with nextAddr := g.nextAddr + 1 } i p) := by
  have hcreated : Tiles { g with nextAddr := g.nextAddr + 1 } :=
    ⟨fun k n hn => Nat.lt_succ_of_lt (h.fresh k n hn),
      fun t ht n hn => Nat.lt_succ_of_lt (h.sent t ht n hn), h.live, h.seqNum, h.contiguous⟩
  refine hcreated.setPort (fun hnone => ?_) fun n hn => ?_
  · rw [hinc] at hnone
    cases hnone
  · obtain rfl := Option.some.inj (hinc.symm.trans hn)
    refine ⟨Nat.lt_succ_self _, ?_⟩
    rw [hseq]
    show 0 = totalLength (recorded g.log i g.nextAddr)
    rw [h.recorded_nextAddr]
    rfl

/-- A transmission that is not recorded. -/
theorem emit (h : Tiles g) {t : Transmission} (hinc : t.incarnation = (g.ports t.slot).incarnation)
    (hplain : consumesSequence t.params = false) : Tiles (g.emit (.transmit t)) := by
  have hsame : ∀ i n, recorded (g.emit (.transmit t)).log i n = recorded g.log i n := by
    intro i n
    rw [recorded, recordings, transmissions_emit, List.filter_append]
    simp [recorded, recordings, hplain]
  refine ⟨h.fresh, ?_, h.live, ?_, ?_⟩
  · intro u hu n hn
    rw [transmissions_emit] at hu
    rcases List.mem_append.mp hu with hu | hu
    · exact h.sent u hu n hn
    · obtain rfl := List.mem_singleton.mp hu
      exact h.fresh _ n (hinc.symm.trans hn)
  · intro i n hn
    rw [hsame]
    exact h.seqNum i n hn
  · intro i n
    rw [hsame]
    exact h.contiguous i n

/-- A transmission that is recorded starts where the last one ended, and `seq_num` moves to
    its end. -/
theorem record (h : Tiles g) {i : PortIdx} {j : UnackedIdx} {now : BitVec 32} {t : Transmission}
    (ht : Sends g i t.params (g.ports i).seqNum t) (hconsumes : consumesSequence t.params = true) :
    Tiles ((g.setPort i (recordUnacked (g.ports i) j t.params now)).emit (.transmit t)) := by
  have hlog : ∀ k n, recorded ((g.setPort i (recordUnacked (g.ports i) j t.params now)).emit
      (.transmit t)).log k n =
        recorded g.log k n ++ if k = i ∧ t.incarnation = some n then [t.advance] else [] := by
    intro k n
    rw [recorded, recordings, transmissions_emit, List.filter_append, List.map_append]
    congr 1
    by_cases hk : k = i ∧ t.incarnation = some n
    · simp [hk, ht.slot, hconsumes]
    · simp only [hk, if_false, List.map_eq_nil_iff, List.filter_eq_nil_iff, List.mem_singleton]
      rintro u rfl hmatch
      simp only [Bool.and_eq_true, beq_iff_eq, ht.slot] at hmatch
      exact hk ⟨hmatch.1.1.symm, hmatch.1.2⟩
  have hinc : (recordUnacked (g.ports i) j t.params now).incarnation = (g.ports i).incarnation :=
    rfl
  constructor
  case fresh =>
      intro k n hn
      by_cases hk : k = i
      · subst hk
        exact h.fresh k n (by simpa [hinc] using hn)
      · exact h.fresh k n (by simpa [hk] using hn)
  case sent =>
      intro u hu n hn
      rw [transmissions_emit] at hu
      rcases List.mem_append.mp hu with hu | hu
      · exact h.sent u hu n hn
      · obtain rfl := List.mem_singleton.mp hu
        exact h.fresh i n (ht.incarnation.symm.trans hn)
  case live =>
      intro k hnone
      by_cases hk : k = i
      · subst hk
        simpa [recordUnacked] using h.live k (by simpa [hinc] using hnone)
      · simpa [hk] using h.live k (by simpa [hk] using hnone)
  case seqNum =>
      intro k n hn
      rw [hlog]
      by_cases hk : k = i
      · subst hk
        have hn : (g.ports k).incarnation = some n := by simpa [hinc] using hn
        simp [ht.incarnation, hn, recordUnacked, Transmission.advance, h.seqNum k n hn]
      · simpa [hk] using h.seqNum k n (by simpa [hk] using hn)
  case contiguous =>
      intro k n
      rw [hlog]
      split
      case isTrue hk =>
          obtain ⟨rfl, hn⟩ := hk
          rw [ht.incarnation] at hn
          refine contiguous_concat.mpr ⟨h.contiguous k n, ?_⟩
          rw [zero_add, ← h.seqNum k n hn]
          exact ht.seqNum
      case isFalse => simpa using h.contiguous k n

theorem move {s s' : System} {a : Action} (hm : Move s a s' g g') (h : Tiles g) : Tiles g' := by
  cases hm with
  | stay => exact h
  | wait => exact ⟨h.fresh, h.sent, h.live, h.seqNum, h.contiguous⟩
  | push => exact h.queueing _
  | drop => exact h.setQueue _
  | @pass env params rest i t _ _ _ _ _ hplain ht =>
      refine (h.setQueue rest).emit ?_ (by rw [ht.params]; exact hplain)
      rw [ht.slot]
      exact ht.incarnation
  | @record env params rest i j now t _ _ _ _ _ hconsumes ht =>
      obtain rfl := ht.params
      exact (h.setQueue rest).record ⟨ht.slot, ht.incarnation, rfl, ht.seqNum, ht.portSeqNum,
        ht.ipv4⟩ hconsumes
  | resend _ hretransmission _ _ _ ht =>
      refine h.emit ?_ (by simp [consumesSequence, ht.params, hretransmission])
      rw [ht.slot]
      exact ht.incarnation
  | reset =>
      exact h.setPort (fun _ => rfl) (by simp [TcpPort.closed, TcpPort.incarnation])
  | takeOver => exact (h.setPort_same (by rfl) (by rfl) (by rfl)).queueing _
  | finReply =>
      refine Tiles.setPort_same (h.queueing _) ?_ ?_ ?_ <;> rfl
  | establish | finWait2 | timeWait => exact h.setPort_same rfl rfl rfl
  | close => exact (h.setPort_same (by rfl) (by rfl) (by rfl)).queueing _
  | listen =>
      exact h.create (p := { newPort _ _ _ _ _ with state := .listen }) rfl rfl
  | connect _ _ _ hport _ =>
      subst hport
      exact (h.create rfl rfl).queueing _

end Tiles

theorem tiles_boot (net : NetContext) : Tiles (boot net).g := by
  refine ⟨?_, ?_, ?_, ?_, ?_⟩ <;>
    simp [boot, TcpPort.incarnation, transmissions, recorded, recordings, Contiguous]

/-! ### What entries hold -/

/-- Where entry `j` of port `i` comes from after an effect. -/
inductive EntryOrigin (i : PortIdx) (j : UnackedIdx) (g g' : Globals) : Prop
  | kept (sentAt : BitVec 32)
      (h : (g'.ports i).unacked j = { (g.ports i).unacked j with sentAt := sentAt })
      (hinc : (g'.ports i).incarnation = (g.ports i).incarnation)
  | recorded {t : Transmission} (ht : t ∈ transmissions g'.log) (hslot : t.slot = i)
      (hinc : t.incarnation = (g'.ports i).incarnation)
      (hconsumes : consumesSequence t.params = true) (hholds : ((g'.ports i).unacked j).Holds t)
  | idle (h : ((g'.ports i).unacked j).inUse = false)
  | closed (h : (g'.ports i).incarnation = none)

section Origin
variable {s s' : System} {a : Action} {g g' : Globals} {i k : PortIdx} {j : UnackedIdx}

theorem EntryOrigin.of_eq (h : (g'.ports i).unacked = (g.ports i).unacked)
    (hinc : (g'.ports i).incarnation = (g.ports i).incarnation) : EntryOrigin i j g g' :=
  .kept ((g.ports i).unacked j).sentAt (by rw [h]) hinc

/-- Port `k` is replaced by `p`. -/
theorem EntryOrigin.setPort {p : TcpPort} (hports : g'.ports = Function.update g.ports k p)
    (h : i = k → EntryOrigin i j g g') : EntryOrigin i j g g' := by
  by_cases hi : i = k
  · exact h hi
  · exact .of_eq (by simp [hports, hi]) (by simp [hports, hi])

/-- Port `k` changes but for its entries and its handle. -/
theorem EntryOrigin.setPort_same {p : TcpPort}
    (hports : g'.ports = Function.update g.ports k p) (hp : p.unacked = (g.ports k).unacked)
    (hinc : p.incarnation = (g.ports k).incarnation) : EntryOrigin i j g g' :=
  .setPort hports fun hi => .of_eq (by simp [hports, hi, hp]) (by simp [hports, hi, hinc])

/-- Entry `l` of port `k` is released. -/
theorem EntryOrigin.released {l : UnackedIdx}
    (hports : g'.ports = Function.update g.ports k ((g.ports k).released l)) :
    EntryOrigin i j g g' := by
  refine .setPort hports ?_
  intro hi
  subst hi
  have hport : g'.ports i = (g.ports i).released l := by simp [hports]
  by_cases hj : j = l
  · subst hj
    exact .idle (by simp [hport, TcpPort.released, TcpPort.given])
  · exact .kept ((g.ports i).unacked j).sentAt
      (by simp [hport, TcpPort.released, TcpPort.given, hj]) (by simp [hport])

theorem Effect.entryOrigin (he : Effect s a s' g g') (i : PortIdx) (j : UnackedIdx) :
    EntryOrigin i j g g' := by
  cases he with
  | quiet hquiet => exact .of_eq (hquiet.unacked i) (hquiet.incarnation i)
  | appSend _ _ _ _ h => exact .of_eq (h.unacked i) (h.incarnation i)
  | resumed _ _ _ _ h => exact .of_eq (h.unacked i) (h.incarnation i)
  | appWait | resumedStale | dropped | passed | retransmitted | delivered | disconnected =>
      exact .of_eq rfl rfl
  | strayGive => exact .setPort_same rfl rfl (TcpPort.given_incarnation _)
  | acknowledged | ackStuck | finWait2 | timeWait => exact .setPort_same rfl rfl rfl
  | @recorded _ params rest k l now t _ _ _ _ _ _ hconsumes _ ht =>
      refine .setPort (k := k) rfl ?_
      intro hi
      subst hi
      by_cases hj : j = l
      · subst hj
        refine .recorded (t := t) ?_ ht.slot ?_ (by rw [ht.params]; exact hconsumes) ?_
        · rw [transmissions_emit]
          exact List.mem_append_right _ (List.mem_singleton_self t)
        · rw [ht.incarnation]
          simp [recordUnacked, TcpPort.incarnation]
        · constructor <;> simp [recordUnacked, ht.params, ht.seqNum]
      · refine .kept ((g.ports i).unacked j).sentAt (by simp [recordUnacked, hj]) ?_
        simp [recordUnacked, TcpPort.incarnation]
  | @touched p l env now _ =>
      refine .setPort (k := p) rfl ?_
      intro hi
      subst hi
      by_cases hj : j = l
      · subst hj
        exact .kept now (by simp [Globals.setUnacked])
          (by simp [Globals.setUnacked, TcpPort.incarnation])
      · exact .kept ((g.ports i).unacked j).sentAt (by simp [Globals.setUnacked, hj])
          (by simp [Globals.setUnacked, TcpPort.incarnation])
  | gaveUp | released => exact .released rfl
  | @reset _ k _ _ _ _ h =>
      obtain ⟨unacked, -, hports⟩ := h.ports
      exact .setPort hports fun hi => .closed (by simp [hports, hi, TcpPort.incarnation])
  | @tookOver _ k seg _ _ _ _ _ h =>
      refine .of_eq ((h.unacked i).trans ?_) ((h.incarnation i).trans (field_setPort rfl rfl))
      by_cases hi : i = k
      · subst hi
        simp [TcpPort.takenOver]
      · simp [hi]
  | established =>
      refine .of_eq (by rw [ports_callOnConnect, unacked_setState]) ?_
      exact field_setPort (ports_callOnConnect _ _) rfl
  | finReplied _ _ _ _ h =>
      exact .of_eq ((unacked_setState _ _ _ i).trans (h.unacked i))
        (Eq.trans (field_setPort rfl rfl) (h.incarnation i))
  | closing _ _ _ h =>
      exact .of_eq ((h.unacked i).trans (unacked_setState _ _ _ i))
        ((h.incarnation i).trans (field_setPort rfl rfl))
  | @listening self onReceive onConnect onDisconnect k hcmd hstage hunused =>
      refine .setPort (k := k) rfl fun hi => .idle ?_
      simp [hi, newPort]
  | @connecting _ self other addr onReceive onConnect onDisconnect k hcmd hstage hunused h =>
      by_cases hi : i = k
      · subst hi
        exact .idle (by simp [h.unacked, connectingPort, newPort])
      · exact .of_eq ((h.unacked i).trans (by simp [hi])) ((h.incarnation i).trans (by simp [hi]))

/-- Every entry in use holds a segment that its port's incarnation has sent. -/
def EntriesSent (g : Globals) : Prop :=
  ∀ i n j, (g.ports i).incarnation = some n → ((g.ports i).unacked j).inUse = true →
    ∃ t ∈ recordings g.log i n, ((g.ports i).unacked j).Holds t

theorem transmissions_subset (he : Effect s a s' g g') {t : Transmission}
    (ht : t ∈ transmissions g.log) : t ∈ transmissions g'.log :=
  mem_transmissions.mpr (he.mem_log (mem_transmissions.mp ht))

theorem EntriesSent.effect (he : Effect s a s' g g') (h : EntriesSent g) : EntriesSent g' := by
  intro i n j hn huse
  cases he.entryOrigin i j with
  | kept sentAt hkept hinc =>
      rw [hkept] at huse ⊢
      obtain ⟨t, ht, hholds⟩ := h i n j (hinc ▸ hn) huse
      obtain ⟨hmem, hfields⟩ := mem_recordings.mp ht
      exact ⟨t, mem_recordings.mpr ⟨transmissions_subset he hmem, hfields⟩, hholds.seqNum,
        hholds.control, hholds.data, hholds.dataLen⟩
  | @recorded t ht hslot hinc hconsumes hholds =>
      exact ⟨t, mem_recordings.mpr ⟨ht, hslot, hinc.trans hn, hconsumes⟩, hholds⟩
  | idle hidle =>
      rw [hidle] at huse
      cases huse
  | closed hnone =>
      rw [hnone] at hn
      cases hn

theorem entriesSent_of_run {net : NetContext} {as : List Action} {s : System}
    (hrun : run step (boot net) as = some s) : EntriesSent s.g := by
  refine effects_invariant (C := fun _ _ => True) ?_ (fun _ _ _ _ _ _ he h => h.effect he)
    (guarded_true _ as) hrun
  simp [EntriesSent, boot]

/-! ### What goes to IPv4 -/

/-- What an effect hands to IPv4: nothing, a dequeued request or a due entry. -/
inductive HandsOver (s : System) (a : Action) (g g' : Globals) : Prop
  | nothing (h : transmissions g'.log = transmissions g.log)
  | first {t : Transmission} (hmem : t.params ∈ g.sendQueue)
      (h : transmissions g'.log = transmissions g.log ++ [t])
  | again {t : Transmission} {p q : PortIdx} {j : UnackedIdx} {env : SendEnv}
      (hdue : Due s a p j env g)
      (hfind : findParamsPort g (retransmitParams (g.ports p) ((g.ports p).unacked j)) = some q)
      (ht : Sends g q (retransmitParams (g.ports p) ((g.ports p).unacked j))
        ((g.ports p).unacked j).seqNum t)
      (h : transmissions g'.log = transmissions g.log ++ [t])

theorem Enqueue.transmissions {B : Prop} {params : TcpTransmitParams}
    (h : Enqueue B g params g') : transmissions g'.log = transmissions g.log := by
  obtain ⟨items, -, halike⟩ := h.queues
  exact halike.transmissions

theorem Effect.handsOver (he : Effect s a s' g g') : HandsOver s a g g' := by
  cases he with
  | quiet hquiet => exact .nothing hquiet.log.transmissions_eq
  | appSend _ _ _ _ h => exact .nothing h.transmissions
  | resumed _ _ _ _ h =>
      cases h with
      | queued => exact .nothing (by simp [transmissions, Event.transmission?])
      | full _ _ _ hquiet => exact .nothing hquiet.log.transmissions_eq
      | lost _ _ _ hquiet => exact .nothing hquiet.log.transmissions_eq
  | passed _ _ _ hqueue _ _ _ ht | recorded _ _ _ hqueue _ _ _ _ ht =>
      exact .first (by simp [hqueue, ht.params]) (transmissions_emit _ _)
  | retransmitted hdue hfind ht => exact .again hdue hfind ht (transmissions_emit _ _)
  | reset _ _ _ _ h =>
      exact .nothing h.alike.transmissions
  | tookOver _ _ _ _ _ h | finReplied _ _ _ _ h | closing _ _ _ h | connecting _ _ _ h =>
      exact .nothing h.transmissions
  | established => exact .nothing (alike_callOnConnect _ _).transmissions
  | resumedStale | released | delivered | disconnected =>
      exact .nothing (by simp [transmissions, Event.transmission?])
  | appWait | strayGive | dropped | touched | gaveUp | acknowledged | ackStuck | finWait2
  | timeWait | listening => exact .nothing rfl

/-- In a scan a port keeps its key and its incarnation, or gives up its port number. -/
def ScanKeeps (s : System) (g : Globals) : Prop :=
  ∀ i, (g.ports i).key = (s.g.ports i).key ∧
      (g.ports i).incarnation = (s.g.ports i).incarnation ∨
    (g.ports i).selfPortNum = 0

theorem ScanKeeps.alike (hsame : Alike g g') (h : ScanKeeps s g) : ScanKeeps s g' := by
  intro i
  rw [hsame.key i, hsame.incarnation i, TcpPort.selfPortNum_of_settled (hsame.settled i)]
  exact h i

theorem Processes.input_eq {input input' : TaskInput} (h : Processes s a input)
    (h' : Processes s a input') : input = input' := h.2.symm.trans h'.2

theorem ScanKeeps.move (hscan : Processes s a .scan) (hm : Move s a s' g g')
    (h : ScanKeeps s g) : ScanKeeps s g' := by
  cases hm with
  | stay | wait | push | pass | resend => exact h
  | drop _ hin | record _ hin =>
      rw [hscan.2] at hin
      cases hin
  | @reset k =>
      intro i
      by_cases hi : i = k
      · subst hi
        exact .inr (by simp [TcpPort.closed])
      · simpa [hi] using h i
  | takeOver hacc | establish hacc | finReply hacc | finWait2 hacc | timeWait hacc =>
      cases hscan.input_eq hacc.processes
  | close hcmd | listen hcmd | connect hcmd => cases hscan.input_eq hcmd

end Origin

/-! ### Datagrams of bounded payloads -/

/-- The longest payload with which the checksum's length does not wrap. -/
def maxPayload : Nat := 65503

/-- A request with a payload that is not too long. -/
def Bounded (params : TcpTransmitParams) : Prop :=
  Request params ∧ params.dataLen.toNat ≤ maxPayload

/-- An application's payload is not too long. -/
def payloadBounded : Action → Bool
  | .tcpSend _ _ _ _ _ len _ => len.toNat ≤ maxPayload
  | _ => true

theorem bounded_of_builds {s : System} {a : Action} (h : payloadBounded a = true)
    {params : TcpTransmitParams} (hb : Builds s a params) : Bounded params := by
  refine ⟨hb.request, ?_⟩
  cases hb with
  | data ha _ =>
      subst ha
      simpa [payloadBounded, tcpSendParams] using h
  | syn | synAck | ack | finAck | fin => exact Nat.zero_le _

theorem fits_of_bounded {params : TcpTransmitParams} (h : params.dataLen.toNat ≤ maxPayload) :
    Fits params := by
  unfold Fits
  unfold maxPayload at h
  omega

/-- Up to that length the 16-bit increment is the one in 32 bits. -/
theorem seqIncrement_bounded {params : TcpTransmitParams}
    (h : params.dataLen.toNat ≤ maxPayload) :
    (seqIncrement params).setWidth 32 = params.dataLen.setWidth 32 +
      if flagSyn params.control || flagFin params.control then 1 else 0 := by
  unfold maxPayload at h
  unfold seqIncrement
  apply BitVec.eq_of_toNat_eq
  split
  case isTrue =>
      have h16 : (1 : BitVec 16).toNat = 1 := rfl
      have h32 : (1 : BitVec 32).toNat = 1 := rfl
      simp only [BitVec.toNat_setWidth, BitVec.toNat_add, h16, h32]
      omega
  case isFalse => simp

section WellFormed
variable {t : Transmission} (h : t.WellFormed Bounded)
include h

theorem Transmission.WellFormed.bounded : t.params.dataLen.toNat ≤ maxPayload := by
  obtain ⟨params, ⟨-, hbound⟩, -, hlen, -⟩ := h.request
  exact hlen ▸ hbound

theorem Transmission.WellFormed.header_eq :
    t.header.seqNum = t.seqNum ∧ t.header.control = t.params.control := by
  obtain ⟨addr, heap, selfNet, port, hdata, -⟩ := h.ipv4
  have hsame : ∀ k < 16, t.datagram k = buildDatagram heap selfNet t.params port t.seqNum k :=
    fun k _ => by rw [Transmission.datagram, hdata]
  have hread := read_buildDatagram (fits_of_bounded h.bounded) hsame
  rw [Transmission.header, hread]
  exact ⟨rfl, rfl⟩

theorem Transmission.WellFormed.dataLen_eq : t.ipv4.dataLen = headerSize + t.params.dataLen := by
  obtain ⟨addr, heap, selfNet, port, -, hlen⟩ := h.ipv4
  exact hlen

/-- What a datagram takes up is what its recording advances `seq_num` by. -/
theorem Transmission.WellFormed.range_eq : t.range = t.advance := by
  obtain ⟨hseq, hcontrol⟩ := h.header_eq
  have hlen : t.ipv4.dataLen - headerSize = t.params.dataLen := by
    rw [h.dataLen_eq, BitVec.add_comm, BitVec.add_sub_cancel]
  rw [Transmission.range, Transmission.advance, hseq, hcontrol, hlen, seqIncrement_bounded h.bounded]

/-- A first transmission takes up sequence numbers exactly if it is recorded. -/
theorem Transmission.WellFormed.first_eq :
    (!t.params.isRetransmission && t.range.length != 0) = consumesSequence t.params := by
  have hzero : (t.range.length != 0) = (seqIncrement t.params != 0) := by
    rw [h.range_eq, Bool.eq_iff_iff, bne_iff_ne, bne_iff_ne, ne_eq, ne_eq, not_iff_not]
    refine ⟨fun h0 => BitVec.eq_of_toNat_eq ?_, fun h0 => by simp [Transmission.advance, h0]⟩
    have hlt := (seqIncrement t.params).isLt
    have hnat := congrArg BitVec.toNat h0
    rw [Transmission.advance, BitVec.toNat_setWidth, Nat.mod_eq_of_lt (by omega)] at hnat
    exact hnat
  rw [hzero, Bool.and_comm]
  rfl

end WellFormed

theorem firstTransmissions_eq {g : Globals} (h : Requests Bounded g) (i : PortIdx) (n : Nat) :
    firstTransmissions g.log i n = recordings g.log i n := by
  apply List.filter_congr
  intro t ht
  rw [← (h.transmits t (mem_transmissions.mp ht)).first_eq, Bool.and_assoc]

/-- The first transmissions of an incarnation are contiguous. -/
theorem Tiles.ranges {g : Globals} (h : Tiles g) (hreq : Requests Bounded g) (i : PortIdx)
    (n : Nat) : Contiguous 0 ((firstTransmissions g.log i n).map (·.range)) := by
  rw [firstTransmissions_eq hreq, List.map_congr_left (g := (·.advance)) fun t ht =>
    (hreq.transmits t (mem_transmissions.mp (mem_recordings.mp ht).1)).range_eq]
  exact h.contiguous i n

/-- There is a block behind the length of the payload. -/
def Backed (params : TcpTransmitParams) : Prop := params.data = none → params.dataLen = 0

/-- Datagrams for the segment of one entry carry the same, if there is a block behind the
    payload. -/
theorem repeats_of_held {entry : TcpUnacked} {t t₀ : Transmission} (h : t.WellFormed Bounded)
    (h₀ : t₀.WellFormed Bounded) (hbacked : Backed t₀.params) (hholds : entry.Holds t)
    (hholds₀ : entry.Holds t₀) : t.Repeats t₀ := by
  have hdata : t.params.data = t₀.params.data := hholds.data.symm.trans hholds₀.data
  have hlen : t.params.dataLen = t₀.params.dataLen := hholds.dataLen.symm.trans hholds₀.dataLen
  constructor
  case seqNum => rw [h.header_eq.1, h₀.header_eq.1, ← hholds.seqNum, hholds₀.seqNum]
  case control => rw [h.header_eq.2, h₀.header_eq.2, ← hholds.control, hholds₀.control]
  case data => exact hdata
  case dataLen => rw [h.dataLen_eq, h₀.dataLen_eq, hlen]
  case payload =>
      intro k hk
      obtain ⟨addr, heap, selfNet, port, hbytes, -⟩ := h.ipv4
      obtain ⟨addr₀, heap₀, selfNet₀, port₀, hbytes₀, -⟩ := h₀.ipv4
      have hfits := fits_of_bounded h.bounded
      have hk : k < t.params.dataLen.toNat := by
        have hlength := datagramLength_toNat hfits
        rw [datagramLength, ← h.dataLen_eq] at hlength
        omega
      obtain ⟨block, hblock⟩ : ∃ block, t₀.params.data = some block := by
        refine Option.ne_none_iff_exists'.mp fun hnone => ?_
        rw [hlen, hbacked hnone] at hk
        exact absurd hk (Nat.not_lt_zero k)
      rw [Transmission.datagram, Transmission.datagram, hbytes, hbytes₀]
      simp only
      rw [payload_buildDatagram hfits (hdata.trans hblock) hk,
        payload_buildDatagram (fits_of_bounded h₀.bounded) hblock (hlen ▸ hk)]

/-! ### Retransmissions -/

/-- No two live ports share a key; a slot whose port number is 0 is free. -/
def PortsApart (g : Globals) : Prop :=
  ∀ i j, i ≠ j → (g.ports i).key = (g.ports j).key → (g.ports i).selfPortNum = 0

instance (g : Globals) : Decidable (PortsApart g) :=
  inferInstanceAs (Decidable (∀ i j, i ≠ j → _ = _ → _ = _))

/-- The transmission repeats what an entry of its port holds. -/
def Again (g : Globals) (t : Transmission) : Prop :=
  (g.ports t.slot).selfPortNum ≠ 0 ∧ t.incarnation = (g.ports t.slot).incarnation ∧
    ∃ j, ((g.ports t.slot).unacked j).inUse = true ∧ ((g.ports t.slot).unacked j).Holds t

/-- A due entry goes out through its own port. -/
theorem Due.again {s : System} {a : Action} {g : Globals} {p q : PortIdx} {j : UnackedIdx}
    {env : SendEnv} {t : Transmission} (hdue : Due s a p j env g) (hapart : PortsApart s.g)
    (hkeeps : ScanKeeps s g)
    (hfind : findParamsPort g (retransmitParams (g.ports p) ((g.ports p).unacked j)) = some q)
    (ht : Sends g q (retransmitParams (g.ports p) ((g.ports p).unacked j))
      ((g.ports p).unacked j).seqNum t) : Again s.g t := by
  have hself : (g.ports p).selfPortNum ≠ 0 := by
    rw [TcpPort.selfPortNum_of_settled hdue.settled]
    exact hdue.live
  have hkey : (g.ports q).key = (g.ports p).key := findParamsPort_key hfind
  have hq : q = p := by
    rcases hkeeps q with ⟨hsame, -⟩ | hzero
    · by_contra hne
      refine hdue.live (hapart p q (Ne.symm hne) ?_)
      rw [← hsame, hkey]
      exact (TcpPort.key_of_settled hdue.settled).symm
    · exact absurd ((congrArg Prod.fst hkey).symm.trans hzero) hself
  subst hq
  obtain ⟨-, hinc⟩ := (hkeeps q).resolve_right hself
  obtain ⟨sentAt, hentry⟩ := hdue.entry
  have huse := hdue.due
  simp only [retransmitDue, Bool.and_eq_true] at huse
  have hfields : ((s.g.ports q).unacked j).Holds t := by
    constructor <;> simp [ht.params, ht.seqNum, retransmitParams, hentry]
  rw [Again, ht.slot]
  exact ⟨hdue.live, ht.incarnation.trans hinc, j, huse.1, hfields⟩

/-- What a step retransmits repeats what an entry held before the step. -/
theorem step_retransmissions {s s' : System} {a : Action} (h : step s a = some s')
    (hreq : Requests Request s.g) (hapart : PortsApart s.g) :
    ∃ l, transmissions s'.g.log = transmissions s.g.log ++ l ∧
      ∀ t ∈ l, t.params.isRetransmission = true → Again s.g t := by
  have hend : Requests Request s'.g ∧ (Processes s a .scan → ScanKeeps s s'.g) ∧
      ∃ l, transmissions s'.g.log = transmissions s.g.log ++ l ∧
        ∀ t ∈ l, t.params.isRetransmission = true → Again s.g t := by
    refine step_preserves (P := fun g => Requests Request g ∧
      (Processes s a .scan → ScanKeeps s g) ∧
      ∃ l, transmissions g.log = transmissions s.g.log ++ l ∧
        ∀ t ∈ l, t.params.isRetransmission = true → Again s.g t) ?_ h
      ⟨hreq, fun _ i => .inl ⟨rfl, rfl⟩, [], by simp, by simp⟩
    rintro g g' he ⟨hreqg, hkeeps, l, hl, hagain⟩
    have hreqg' : Requests Request g' :=
      hreqg.effect (fun _ hb => hb.request) (fun _ hr => hr) hreq.senders he
    obtain ⟨g₁, hm, hsame⟩ := he.move
    refine ⟨hreqg', fun hscan => ScanKeeps.alike hsame ((hkeeps hscan).move hscan hm), ?_⟩
    cases he.handsOver with
    | nothing hnone => exact ⟨l, hnone.trans hl, hagain⟩
    | @first t hmem hlog =>
        refine ⟨l ++ [t], by rw [hlog, hl, List.append_assoc], ?_⟩
        refine List.forall_mem_append.mpr ⟨hagain, List.forall_mem_singleton.mpr ?_⟩
        intro hr
        rw [(hreqg.sendQueue _ hmem).first] at hr
        cases hr
    | @again t p q j env hdue hfind ht hlog =>
        obtain ⟨e, ha, -⟩ := hdue.action
        refine ⟨l ++ [t], by rw [hlog, hl, List.append_assoc], ?_⟩
        refine List.forall_mem_append.mpr ⟨hagain, List.forall_mem_singleton.mpr fun _ => ?_⟩
        exact hdue.again hapart (hkeeps ⟨⟨e, ha⟩, hdue.input⟩) hfind ht
  exact hend.2.2

/-- The step hands the datagram to IPv4. -/
def Transmits (s : System) (a : Action) (t : Transmission) : Prop :=
  ∃ s' l, step s a = some s' ∧ s'.g.log = s.g.log ++ l ∧ .transmit t ∈ l

/-- Live ports have different keys before the step, and no payload is too long. -/
def sendsApart (s : System) (a : Action) : Bool := decide (PortsApart s.g) && payloadBounded a

/-! ### Requests with their bytes -/

/-- An application's payload is not too long, and there is a block behind its length. -/
def payloadBacked : Action → Bool
  | .tcpSend _ _ _ _ data len _ => len.toNat ≤ maxPayload && (data.isSome || len == 0)
  | _ => true

/-- Live ports have different keys before the step, and a payload is what its length says. -/
def sendsWhole (s : System) (a : Action) : Bool := decide (PortsApart s.g) && payloadBacked a

theorem sendsApart_of_whole {s : System} {a : Action} (h : sendsWhole s a = true) :
    sendsApart s a = true := by
  obtain ⟨hapart, hbacked⟩ := Bool.and_eq_true_iff.mp h
  refine Bool.and_eq_true_iff.mpr ⟨hapart, ?_⟩
  cases a with
  | tcpSend => exact (Bool.and_eq_true_iff.mp hbacked).1
  | _ => rfl

/-- What is queued, what waits and what has been sent for the first time is backed. -/
structure AllBacked (g : Globals) : Prop where
  sendQueue : ∀ params ∈ g.sendQueue, Backed params
  senders : ∀ t ∈ g.senders, Backed t.params
  first : ∀ t ∈ transmissions g.log, t.params.isRetransmission = false → Backed t.params

namespace AllBacked
variable {g g' : Globals}

theorem alike (hsame : Alike g g') (h : AllBacked g) : AllBacked g' := by
  refine ⟨hsame.sendQueue ▸ h.sendQueue, fun t ht => ?_, hsame.transmissions ▸ h.first⟩
  obtain ⟨u, hu, hparams, -⟩ := hsame.senders t ht
  exact hparams ▸ h.senders u hu

theorem queueing (h : AllBacked g) {items : List TcpTransmitParams}
    (hitems : ∀ params ∈ items, Backed params) : AllBacked (g.queueing items) :=
  ⟨fun params hp => (List.mem_append.mp hp).elim (h.sendQueue params) (hitems params), h.senders,
    h.first⟩

theorem enqueue {B : Prop} {params : TcpTransmitParams} (h : AllBacked g) (hparams : Backed params)
    (he : Enqueue B g params g') : AllBacked g' := by
  obtain ⟨items, hqueues, hsame⟩ := he.queues
  exact (h.queueing fun p hp => hqueues.mem hp ▸ hparams).alike hsame

theorem taken {i : PortIdx} {params : TcpTransmitParams} (h : AllBacked g) (hparams : Backed params)
    (ht : Taken g i params g') : AllBacked g' := by
  cases ht with
  | queued hsem htake _ _ =>
      have hsame := (alike_take hsem htake).queueing [params]
      exact (((h.queueing (by simpa using hparams)).alike hsame).alike (alike_pushSend _ _)).alike
        (alike_emit _ rfl)
  | full _ _ _ hquiet => exact h.alike hquiet.alike
  | lost hsem htake _ hquiet => exact (h.alike (alike_take hsem htake)).alike hquiet.alike

/-- The head of `send_queue` is taken out. -/
theorem dequeue {params : TcpTransmitParams} {rest : List TcpTransmitParams} (h : AllBacked g)
    (hqueue : g.sendQueue = params :: rest) : AllBacked { g with sendQueue := rest } :=
  ⟨fun p hp => h.sendQueue p (hqueue ▸ List.mem_cons_of_mem params hp), h.senders, h.first⟩

theorem emit {t : Transmission} (h : AllBacked g)
    (ht : t.params.isRetransmission = false → Backed t.params) :
    AllBacked (g.emit (.transmit t)) := by
  refine ⟨h.sendQueue, h.senders, fun u hu => ?_⟩
  rw [transmissions_emit] at hu
  rcases List.mem_append.mp hu with hu | hu
  · exact h.first u hu
  · obtain rfl := List.mem_singleton.mp hu
    exact ht

theorem setPort (h : AllBacked g) (i : PortIdx) (p : TcpPort) : AllBacked (g.setPort i p) :=
  ⟨h.sendQueue, h.senders, h.first⟩

theorem backed (h : AllBacked g) {i : PortIdx} {n : Nat} {t : Transmission}
    (ht : t ∈ firstTransmissions g.log i n) : Backed t.params := by
  obtain ⟨hmem, -, -, hr, -⟩ := mem_firstTransmissions.mp ht
  exact h.first t hmem hr

end AllBacked

/-- Nothing but `tcp_send` queues data. -/
theorem backed_of_length {params : TcpTransmitParams} (h : params.dataLen = 0) : Backed params :=
  fun _ => h

theorem AllBacked.effect {s s' : System} {a : Action} {g g' : Globals}
    (hc : payloadBacked a = true) (hs : AllBacked s.g) (he : Effect s a s' g g')
    (h : AllBacked g) : AllBacked g' := by
  have hdata : ∀ {inCallback src dst addr data len timeout} {port : TcpPort} {block : Option Block},
      a = .tcpSend inCallback src dst addr data len timeout →
      block = data.map (fun bytes => ⟨s.g.nextAddr, bytes⟩) →
      Backed (tcpSendParams port block len) := by
    rintro _ _ _ _ data len _ port block rfl rfl hnone
    have hnone : data = none := by simpa [tcpSendParams] using hnone
    simpa [payloadBacked, hnone, tcpSendParams] using (Bool.and_eq_true_iff.mp hc).2
  cases he with
  | quiet hquiet => exact h.alike hquiet.alike
  | appSend ha _ _ hblock henq => exact h.enqueue (hdata ha hblock) henq
  | appWait ha _ _ hblock _ =>
      refine ⟨h.sendQueue, fun t ht => ?_, h.first⟩
      rcases List.mem_append.mp ht with ht | ht
      · exact h.senders t ht
      · obtain rfl := List.mem_singleton.mp ht
        exact hdata ha hblock
  | resumed _ ht _ _ htaken => exact h.taken (hs.senders _ (List.mem_of_getElem? ht)) htaken
  | resumedStale _ ht _ _ _ _ =>
      have hparams := hs.senders _ (List.mem_of_getElem? ht)
      exact ((h.queueing (by simpa using hparams)).alike (alike_pushSend _ _)).alike
        (alike_emit _ rfl)
  | dropped _ _ _ hqueue _ => exact h.dequeue hqueue
  | passed _ _ _ hqueue _ _ _ ht =>
      refine (h.dequeue hqueue).emit fun _ => ?_
      rw [ht.params]
      exact h.sendQueue _ (by simp [hqueue])
  | recorded _ _ _ hqueue _ _ _ _ ht =>
      refine ((h.dequeue hqueue).setPort _ _).emit fun _ => ?_
      rw [ht.params]
      exact h.sendQueue _ (by simp [hqueue])
  | retransmitted _ _ ht =>
      refine h.emit fun hfirst => ?_
      rw [ht.params] at hfirst
      cases hfirst
  | strayGive | touched | gaveUp | finWait2 | timeWait | ackStuck => exact h.setPort _ _
  | reset _ _ _ _ hr => exact (h.setPort _ _).alike hr.alike
  | released => exact (h.setPort _ _).alike (alike_emit _ rfl)
  | @acknowledged i seg hacc _ _ _ =>
      exact ((h.setPort i _).queueing (by simp [replyParams, Backed])).alike (alike_pushSend _ _)
  | tookOver _ _ _ _ _ henq => exact (h.setPort _ _).enqueue (backed_of_length rfl) henq
  | established => exact (h.setPort _ _).alike (alike_callOnConnect _ _)
  | delivered | disconnected => exact h.alike (alike_emit _ rfl)
  | finReplied _ _ _ _ henq => exact (h.enqueue (backed_of_length rfl) henq).setPort _ _
  | closing _ _ _ henq => exact (h.setPort _ _).enqueue (backed_of_length rfl) henq
  | listening => exact ⟨h.sendQueue, h.senders, h.first⟩
  | connecting _ _ _ henq =>
      refine AllBacked.enqueue ?_ (backed_of_length rfl) henq
      exact ⟨h.sendQueue, h.senders, h.first⟩

theorem allBacked_of_run {net : NetContext} {as : List Action} {s : System}
    (hrun : run step (boot net) as = some s)
    (hg : Guarded step (sendsWhole · ·) (boot net) as) : AllBacked s.g :=
  run_invariant (P := fun s => AllBacked s.g)
    (fun _ _ _ hs hc hstep => step_preserves
      (fun _ _ he h => .effect (Bool.and_eq_true_iff.mp hc).2 hs he h) hstep hs)
    ⟨by simp [boot], by simp [boot], by simp [boot, transmissions]⟩ hg hrun

/-- In every run in which live ports have different keys and no payload is too long, whatever
    allocations and calls of IPv4 fail, the first transmissions of an incarnation tile its
    sequence space from 0 on. If besides no payload is `NULL` with a length, every retransmission
    repeats an earlier first transmission of its incarnation that has not been released. -/
theorem transmissions_tile {net : NetContext} {as : List Action} {s : System}
    (hrun : run step (boot net) as = some s)
    (hg : Guarded step (sendsApart · ·) (boot net) as) :
    (∀ i n, Contiguous 0 ((firstTransmissions s.g.log i n).map (·.range))) ∧
      (Guarded step (sendsWhole · ·) (boot net) as → ∀ a t, sendsApart s a = true →
        Transmits s a t → t.params.isRetransmission = true →
        ∃ n, t.incarnation = some n ∧ ∃ t₀ ∈ firstTransmissions s.g.log t.slot n,
          Unreleased s.g t.slot t₀ ∧ t.Repeats t₀) := by
  have hbuild : ∀ s a, sendsApart s a = true → ∀ params, Builds s a params → Bounded params :=
    fun s a hc params hb => bounded_of_builds (Bool.and_eq_true_iff.mp hc).2 hb
  have hreq : Requests Bounded s.g := requests_of_run (fun _ h => h.1) hbuild hg hrun
  have htiles : Tiles s.g := moves_invariant (C := fun _ _ => True) (tiles_boot net)
    (fun hsame h => h.alike hsame) (fun _ _ _ _ _ _ _ _ hm h => h.move hm) (guarded_true _ as) hrun
  refine ⟨htiles.ranges hreq, ?_⟩
  rintro hwhole a t hc ⟨s', l, hstep, hlog, ht⟩ hr
  have hwell : t.WellFormed Bounded := by
    have hreq' : Requests Bounded s'.g := step_preserves (fun _ _ he h => h.effect
      (hbuild s a hc) (fun _ h => h.1) hreq.senders he) hstep hreq
    exact hreq'.transmits t (hlog ▸ List.mem_append_right _ ht)
  obtain ⟨hself, hinc, j, huse, hholds⟩ : Again s.g t := by
    obtain ⟨l', hl', hagain⟩ := step_retransmissions hstep (requests_of_run_any hrun)
      (by simpa using (Bool.and_eq_true_iff.mp hc).1)
    rw [hlog, transmissions, List.filterMap_append] at hl'
    have hsame := List.append_cancel_left hl'
    exact hagain t (hsame ▸ List.mem_filterMap.mpr ⟨_, ht, rfl⟩) hr
  cases hn : (s.g.ports t.slot).incarnation with
  | none => exact absurd (htiles.live t.slot hn) hself
  | some n =>
      obtain ⟨t₀, ht₀, hholds₀⟩ := entriesSent_of_run hrun t.slot n j hn huse
      have hwell₀ := hreq.transmits t₀ (mem_transmissions.mp (mem_recordings.mp ht₀).1)
      have hfirst : t₀ ∈ firstTransmissions s.g.log t.slot n := by rwa [firstTransmissions_eq hreq]
      have hbacked : Backed t₀.params := (allBacked_of_run hrun hwhole).backed hfirst
      exact ⟨n, hinc.trans hn, t₀, hfirst, ⟨j, huse, hholds₀⟩,
        repeats_of_held hwell hwell₀ hbacked hholds hholds₀⟩

/-- The step hands IPv4 a datagram with the property; live ports have different keys before it. -/
def transmitsWith (a : Action) (p : Transmission → Bool) (s : System) : Bool :=
  sendsApart s a && (step s a).any fun s' =>
    (s'.g.log.drop s.g.log.length).any fun e =>
      match e with
      | .transmit t => p t
      | _ => false

theorem transmits_of_transmitsWith {a : Action} {p : Transmission → Bool} {s : System}
    (h : transmitsWith a p s = true) :
    sendsApart s a = true ∧ ∃ t, Transmits s a t ∧ p t = true := by
  obtain ⟨hc, hstep⟩ := Bool.and_eq_true_iff.mp h
  refine ⟨hc, ?_⟩
  cases hs' : step s a with
  | none => simp [hs'] at hstep
  | some s' =>
      simp only [hs', Option.any_some, List.any_eq_true] at hstep
      obtain ⟨l, hlog, -⟩ := step_logGrows hs'
      rw [hlog, List.drop_left] at hstep
      obtain ⟨e, he, hr⟩ := hstep
      cases e with
      | transmit t => exact ⟨t, ⟨s', l, hs', hlog, he⟩, hr⟩
      | _ => cases hr

/-- After a handshake the application sends three bytes, which are lost; their retransmission is
    due. -/
def payloadDue : List Action :=
  handshake peerNet.ip ++ [.tcpSend false 80 5000 peerNet.ip (some fun _ => 7) 3 portMaxDelay,
    iterates] ++ List.replicate 101 .tick

/-- The retransmission repeats the three bytes. -/
theorem due_payload_repeated :
    ∃ s t n, run step (boot hostNet) payloadDue = some s ∧
      (∀ i n, Contiguous 0 ((firstTransmissions s.g.log i n).map (·.range))) ∧
      Transmits s iterates t ∧ t.params.isRetransmission = true ∧ t.incarnation = some n ∧
      ∃ t₀ ∈ firstTransmissions s.g.log t.slot n, Unreleased s.g t.slot t₀ ∧ t.Repeats t₀ := by
  obtain ⟨s, hs, hnext⟩ := run_any (show (run step (boot hostNet) payloadDue).any
    (transmitsWith iterates (·.params.isRetransmission)) = true by decide +kernel)
  obtain ⟨hc, t, ht, hr⟩ := transmits_of_transmitsWith hnext
  have hwhole : Guarded step (sendsWhole · ·) (boot hostNet) payloadDue := by decide +kernel
  obtain ⟨htiles, hrepeats⟩ :=
    transmissions_tile hs (hwhole.mono fun _ _ h => sendsApart_of_whole h)
  obtain ⟨n, hn, hfirst⟩ := hrepeats hwhole iterates t hc ht hr
  exact ⟨s, t, n, hs, htiles, ht, hr, hn, hfirst⟩

/-- The application sends a length of 3 without data instead. -/
def missingPayloadDue : List Action :=
  handshake peerNet.ip ++ [.tcpSend false 80 5000 peerNet.ip none 3 portMaxDelay, iterates] ++
    List.replicate 101 .tick

/-- A scan whose blocks hold other bytes than those of `iterates`. -/
def scansOtherBlocks : Action :=
  .tcpTask ⟨⟨some fun _ => 0, true⟩, fun _ _ => ⟨some fun _ => 0xFF, true⟩, true⟩

/-- The retransmission has three bytes behind its header, and the first of them differs from that
    of every datagram before it. -/
def differsFromAll (s : System) (t : Transmission) : Bool :=
  t.params.isRetransmission && t.ipv4.dataLen == 23 &&
    (transmissions s.g.log).all fun t₀ => t.datagram 20 != t₀.datagram 20

/-- The retransmission repeats nothing that has been sent before. -/
theorem missing_payload_not_repeated :
    ∃ s t, run step (boot hostNet) missingPayloadDue = some s ∧
      Guarded step (sendsApart · ·) (boot hostNet) missingPayloadDue ∧
      sendsApart s scansOtherBlocks = true ∧ Transmits s scansOtherBlocks t ∧
      t.params.isRetransmission = true ∧ ∀ t₀ ∈ transmissions s.g.log, ¬ t.Repeats t₀ := by
  obtain ⟨s, hs, hnext⟩ := run_any (show (run step (boot hostNet) missingPayloadDue).any
    (fun s => transmitsWith scansOtherBlocks (differsFromAll s) s) = true by decide +kernel)
  obtain ⟨hc, t, ht, hdiffers⟩ := transmits_of_transmitsWith hnext
  simp only [differsFromAll, Bool.and_eq_true, beq_iff_eq, List.all_eq_true, bne_iff_ne] at hdiffers
  obtain ⟨⟨hr, hlen⟩, hother⟩ := hdiffers
  refine ⟨s, t, hs, by decide +kernel, hc, ht, hr, fun t₀ ht₀ hrepeats => ?_⟩
  have hinside : 20 + 0 < t.ipv4.dataLen.toNat := by rw [hlen]; decide
  exact hother t₀ ht₀ (hrepeats.payload 0 hinside)

end NetStack.Tcp
