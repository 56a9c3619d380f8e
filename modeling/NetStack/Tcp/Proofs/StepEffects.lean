import NetStack.Tcp.Proofs.Scan

/-!
# Every step is a sequence of effects

One lemma for each function that a step runs through, composed along the source to
`step_effects`, and from it the rule by which invariants of runs are proved.
-/

namespace NetStack.Tcp
open NetStack.Lib

variable {s s' : System} {a : Action}

theorem Effect.one {g g' : Globals} (h : Effect s a s' g g') : Effects s a s' g g' :=
  Relation.ReflTransGen.single h

theorem Quiet.effects {g g' : Globals} (h : Quiet g g') : Effects s a s' g g' :=
  (Effect.quiet h).one

/-! ### Calls of the application and waiting tasks -/

theorem callTcpSend_effects {inCallback : Bool} {src dst : BitVec 16} {addr : Ipv4Addr}
    {data : Option Memory} {len : BitVec 16} {timeout : BitVec 32} {g' : Globals}
    (ha : a = .tcpSend inCallback src dst addr data len timeout)
    (h : callTcpSend s.g inCallback src dst addr data len timeout = .done g' () ∨
      ∃ on, callTcpSend s.g inCallback src dst addr data len timeout = .blocked g' on) :
    Effects s a s' s.g g' := by
  generalize hblock : (data.map fun bytes => (⟨s.g.nextAddr, bytes⟩ : Block)) = block
  generalize hallocated : ({ s.g with nextAddr := s.g.nextAddr + 1 } : Globals) = allocated
  have hquiet : Quiet s.g allocated := hallocated ▸ quiet_allocate s.g 1
  have hports : allocated.ports = s.g.ports := hallocated ▸ rfl
  have hstage : Stage s.g [] allocated := (Stage.refl s.g).quiet hquiet
  have hfind : findPort allocated src dst addr = findPort s.g src dst addr :=
    findPort_congr (by simp [hports]) _ _ _
  unfold callTcpSend at h
  simp only [hblock, hallocated] at h
  cases hi : findPort s.g src dst addr with
  | none =>
      have hsend : tcpSend allocated src dst addr block len timeout =
          .done (allocated.free block) .fail := by
        simp [tcpSend, hfind, hi]
      rw [hsend] at h
      obtain rfl : allocated.free block = g' := by simpa using h
      exact (hquiet.trans (quiet_free _ _)).effects
  | some i =>
      have hsend : tcpSend allocated src dst addr block len timeout =
          tcpEnqueueReliable allocated (tcpSendParams (s.g.ports i) block len) timeout := by
        simp [tcpSend, hfind, hi, hports]
      rw [hsend] at h
      apply Relation.ReflTransGen.trans hquiet.effects
      cases hr : tcpEnqueueReliable allocated (tcpSendParams (s.g.ports i) block len) timeout with
      | undefined => simp [hr] at h
      | done g₁ r =>
          obtain rfl : g₁ = g' := by simpa [hr] using h
          exact (Effect.appSend ha hstage hi hblock.symm
            ((tcpEnqueueReliable_done hr).mono fun _ => trivial)).one
      | blocked g₁ on =>
          obtain ⟨rfl, k, sem, hk, hsem, -, rfl⟩ := tcpEnqueueReliable_blocked hr
          simp only [hr] at h
          -- the port of the request is the port `tcp_send` found
          obtain rfl : k = i := by
            have hkey : findParamsPort g₁ (tcpSendParams (s.g.ports i) block len) = some i := by
              obtain ⟨hkey, hfirst⟩ := findPort_eq_some_iff.mp hi
              have hsame : (tcpSendParams (s.g.ports i) block len).key = (src, dst, addr) := hkey
              rw [findParamsPort_eq_some_iff, hsame, hports]
              exact ⟨hkey, hfirst⟩
            exact Option.some.inj (hk.symm.trans hkey)
          split at h
          case isTrue hcb =>
              have hadd : addSender g₁ k (tcpSendParams (g₁.ports k) block len) timeout =
                  .done { g₁ with senders := g₁.senders ++
                    [⟨tcpSendParams (s.g.ports k) block len, k, sem.handle, timeout, false⟩] }
                    () := by
                unfold addSender
                simp only [hsem]
                rw [hports]
              rw [hadd] at h
              obtain rfl : _ = g' := by simpa using h
              exact (Effect.appWait ha hstage hi hblock.symm hsem).one
          case isFalse hcb =>
              split at h
              · obtain rfl : g₁ = g' := by simpa using h
                exact Relation.ReflTransGen.refl
              · obtain rfl : g₁.free block = g' := by simpa using h
                exact (quiet_free _ _).effects

theorem resumeSender_effects {k : Nat} {deletedTake : Bool} {g' : Globals}
    (ha : a = .resumeSender k deletedTake) (h : resumeSender s.g k deletedTake = some g') :
    Effects s a s' s.g g' := by
  have hstage : Stage s.g [] (dropSender s.g k) := (Stage.refl s.g).quiet (quiet_dropSender s.g k)
  unfold resumeSender at h
  split at h
  case h_1 => cases h
  case h_2 t ht =>
      have hstale : (s.g.ports t.port).incarnation ≠ some t.handle →
          (if deletedTake then some (enqueueTaken (dropSender s.g k) t.port t.handle t.params).1
            else some ((dropSender s.g k).free t.params.data)) = some g' →
          Effects s a s' s.g g' := by
        intro hinc h
        apply Relation.ReflTransGen.trans (quiet_dropSender s.g k).effects
        cases deletedTake with
        | false =>
            obtain rfl := Option.some.inj h
            exact (quiet_free _ _).effects
        | true =>
            obtain rfl := Option.some.inj h
            unfold enqueueTaken
            split_ifs with hclosed hroom
            · exact (quiet_free _ _).effects
            · exact (Effect.resumedStale ha ht hstage hinc hclosed hroom).one
            · refine Relation.ReflTransGen.head
                (Effect.strayGive ha ht hstage hinc hclosed hroom) (Quiet.effects ?_)
              refine Quiet.trans ?_ (quiet_free _ _)
              exact ⟨by simp, ⟨fun i => (((dropSender s.g k).setPort t.port
                ((dropSender s.g k).ports t.port).given).ports i).otherWindow, by
                  rw [ports_giveSlot]; rfl⟩, by simp, senders_giveSlot _ _, .of_eq (by simp),
                by simp⟩
      by_cases hready : t.ready = false
      · rw [if_pos hready] at h
        cases h
      rw [if_neg hready] at h
      split at h
      case h_1 sem hsem =>
          split at h
          case isTrue hhandle =>
              have hinc : (s.g.ports t.port).incarnation = some t.handle := by
                simp [TcpPort.incarnation, hsem, hhandle]
              split at h
              case h_1 sem' htake =>
                  obtain rfl := Option.some.inj h
                  apply Relation.ReflTransGen.head (.quiet (quiet_dropSender s.g k))
                  rw [← hhandle]
                  refine (Effect.resumed ha ht hstage hinc ?_).one
                  exact enqueueTaken_spec (g := dropSender s.g k) hsem htake
              case h_2 =>
                  obtain rfl := Option.some.inj h
                  refine Quiet.effects ⟨rfl, ⟨_, rfl⟩, rfl, sendersFrom_set ht false, .of_eq rfl,
                    le_rfl⟩
          case isFalse hhandle =>
              refine hstale ?_ h
              simpa [TcpPort.incarnation, hsem] using hhandle
      case h_2 hsem =>
          refine hstale ?_ h
          simp [TcpPort.incarnation, hsem]

theorem timeoutSender_quiet {k : Nat} {g' : Globals} (h : timeoutSender s.g k = some g') :
    Quiet s.g g' := by
  unfold timeoutSender at h
  split at h
  case h_1 => cases h
  case h_2 t ht =>
      split_ifs at h
      obtain rfl := Option.some.inj h
      exact (quiet_dropSender s.g k).trans (quiet_free _ _)

/-! ### What `tcp_task` takes out of its queues -/

/-- Everything but a send is taken out quietly. -/
theorem selectInput_quiet {g : Globals} (h : ∀ params, (selectInput g).2 ≠ .send params) :
    Quiet g (selectInput g).1 ∧ (selectInput g).1.ports = g.ports ∧
      (selectInput g).1.tick = g.tick := by
  unfold selectInput at h ⊢
  split
  case h_1 => exact ⟨Quiet.refl g, rfl, rfl⟩
  case h_2 set hset =>
      simp only [hset] at h
      split
      · exact ⟨.of_ports_eq rfl rfl rfl rfl (.of_eq rfl) le_rfl, rfl, rfl⟩
      case h_2 params queue hqueue => exact absurd (by simp [hqueue]) (h params)
  case h_3 =>
      split
      · exact ⟨.of_ports_eq rfl rfl rfl rfl (.of_eq rfl) le_rfl, rfl, rfl⟩
      · exact ⟨.of_ports_eq rfl rfl rfl rfl (.of_eq rfl) le_rfl, rfl, rfl⟩
  case h_4 =>
      split
      · exact ⟨.of_ports_eq rfl rfl rfl rfl (.of_eq rfl) le_rfl, rfl, rfl⟩
      · exact ⟨.of_ports_eq rfl rfl rfl rfl (.of_eq rfl) le_rfl, rfl, rfl⟩

/-- A send is the head of `send_queue`. -/
theorem selectInput_send {g : Globals} {params : TcpTransmitParams}
    (h : (selectInput g).2 = .send params) :
    ∃ set rest, g.sendQueue = params :: rest ∧
      (selectInput g).1 = { g with queueSet := set, sendQueue := rest } := by
  unfold selectInput at h ⊢
  split at h
  case h_1 => cases h
  case h_2 set hset =>
      split at h
      case h_1 => cases h
      case h_2 p queue hqueue =>
          obtain rfl := TaskInput.send.inj h
          exact ⟨set, queue, hqueue, by simp⟩
  case h_3 => split at h <;> cases h
  case h_4 => split at h <;> cases h

/-- The scan starts from an empty queue set, of which nothing is taken. -/
theorem selectInput_scan {g : Globals} (h : (selectInput g).2 = .scan) :
    (selectInput g).1 = g := by
  unfold selectInput at h ⊢
  split at h
  case h_1 => simp
  all_goals split at h <;> cases h

/-- Undoing the removal of the head of `send_queue`. -/
private theorem Quiet.requeue {g g₁ : Globals} {set : List QueueHandle}
    {rest : List TcpTransmitParams}
    (h : Quiet { g with queueSet := set, sendQueue := rest } g₁) :
    Quiet g { g₁ with sendQueue := g.sendQueue } ∧
      g₁ = { ({ g₁ with sendQueue := g.sendQueue } : Globals) with sendQueue := rest } := by
  refine ⟨⟨h.selfNet, h.ports, rfl, h.senders, h.log, h.nextAddr⟩, ?_⟩
  have := h.sendQueue
  cases g₁
  simp_all

theorem executeSend_effects {env : TaskEnv} {params : TcpTransmitParams} (ha : a = .tcpTask env)
    (hin : (selectInput s.g).2 = .send params) :
    Effects s a s' s.g (executeSend (selectInput s.g).1 params env.send) := by
  obtain ⟨set, rest, hqueue, hsel⟩ := selectInput_send hin
  rw [hsel]
  have hspec := tcpSendInternal_spec env.send
    { s.g with queueSet := set, sendQueue := rest } params
  unfold executeSend
  generalize tcpSendInternal _ params env.send = r at hspec ⊢
  obtain ⟨g', err⟩ := r
  simp only at hspec ⊢
  -- the warning at the end is quiet
  suffices hmain : Effects s a s' s.g g' by
    split
    · exact hmain
    · exact hmain.trans (quiet_warn _ _).effects
  have hports : ({ s.g with queueSet := set, sendQueue := rest } : Globals).ports = s.g.ports :=
    rfl
  cases hspec with
  | dropped hwhy _ hquiet =>
      have hset : Quiet s.g { s.g with queueSet := set } :=
        .of_ports_eq rfl rfl rfl rfl (.of_eq rfl) le_rfl
      refine Relation.ReflTransGen.head (.quiet hset) (Relation.ReflTransGen.head ?_ hquiet.effects)
      exact .dropped (g := { s.g with queueSet := set }) ha hin ((Stage.refl s.g).quiet hset)
        hqueue hwhy
  | plain hmalloc hfind hplain _ hquiet ht hquiet' =>
      obtain ⟨hback, hg₁⟩ := hquiet.requeue
      refine Relation.ReflTransGen.head (.quiet hback)
        (Relation.ReflTransGen.head ?_ hquiet'.effects)
      rw [hg₁] at ht ⊢
      exact .passed ha hin ((Stage.refl s.g).quiet hback) hqueue hmalloc
        ((hback.findParamsPort params).trans hfind) hplain
        ⟨ht.slot, ht.incarnation, ht.params, ht.seqNum, ht.portSeqNum, ht.ipv4⟩
  | recorded hmalloc hfind hconsumes hempty _ hquiet ht hquiet' =>
      obtain ⟨hback, hg₁⟩ := hquiet.requeue
      refine Relation.ReflTransGen.head (.quiet hback)
        (Relation.ReflTransGen.head ?_ hquiet'.effects)
      rw [hg₁] at ht ⊢
      refine .recorded ha hin ((Stage.refl s.g).quiet hback) hqueue hmalloc
        ((hback.findParamsPort params).trans hfind) hconsumes ?_
        ⟨ht.slot, ht.incarnation, ht.params, ht.seqNum, ht.portSeqNum, ht.ipv4⟩
      rw [← hempty]
      exact hback.field _ findEmptyUnacked fun _ _ => rfl

/-! ### The timeout scan -/

private theorem retransmit_effects {e : TaskEnv} {p : PortIdx} {j : UnackedIdx} {g : Globals}
    (ha : a = .tcpTask e) (hin : (selectInput s.g).2 = .scan) (hturn : Retransmits s.g g p j) :
    Effects s a s' g (retransmit s.g.tick (e.scan p j) p j g) := by
  -- until the entry is given up, its port is as it was but for the time stamp
  have hdueAt : ∀ g₁ : Globals, (g₁.ports p).settled = (g.ports p).settled →
      (∃ sentAt, (g₁.ports p).unacked j = { (g.ports p).unacked j with sentAt := sentAt }) →
      Due s a p j (e.scan p j) g₁ := by
    intro g₁ hset hent
    exact ⟨⟨e, ha, rfl⟩, hin, hturn.live, hturn.stays, hturn.due, hset.trans hturn.settled,
      hturn.entry ▸ hent⟩
  generalize htouched : g.setUnacked p j { (g.ports p).unacked j with sentAt := s.g.tick } = touched
  have hports : touched.ports = Function.update g.ports p
      { g.ports p with
        unacked := Function.update (g.ports p).unacked j
          { (g.ports p).unacked j with sentAt := s.g.tick } } := by
    subst htouched
    simp [Globals.setUnacked]
  have htouch : Effects s a s' g touched := by
    rw [← htouched]
    exact (Effect.touched (hdueAt g rfl ⟨((g.ports p).unacked j).sentAt, rfl⟩)).one
  -- what holds after any quiet change of the stamped state
  have hafter : ∀ g₁, Quiet touched g₁ → Due s a p j (e.scan p j) g₁ := by
    intro g₁ hquiet
    refine hdueAt g₁ ?_ ⟨s.g.tick, ?_⟩
    · rw [TcpPort.settled_of_quiet hquiet p, hports]
      simp [TcpPort.settled]
    · rw [hquiet.unacked p, hports]
      simp
  have hgiveUp : ∀ g₁, Due s a p j (e.scan p j) g₁ →
      ((e.scan p j).malloc = none ∨ (e.scan p j).ipv4Accepts = false) →
      Effects s a s' g₁ (giveSlot (g₁.setUnacked p j
        { (g₁.ports p).unacked j with inUse := false, data := none }) p) :=
    fun g₁ hdue₁ hfail =>
      Relation.ReflTransGen.head (.gaveUp hdue₁ hfail) (clearEntry_quiet g₁ p j).effects
  have hspec := tcpSendInternal_spec (e.scan p j) touched
    (retransmitParams (g.ports p) ((g.ports p).unacked j))
  unfold retransmit
  simp only [htouched]
  generalize tcpSendInternal touched _ (e.scan p j) = r at hspec ⊢
  obtain ⟨g', err⟩ := r
  simp only at hspec ⊢
  cases hspec with
  | dropped hwhy hr hquiet =>
      have hfail : (e.scan p j).malloc = none := by
        rcases hwhy with h | h | ⟨i, -, h, -⟩
        · exact h
        · -- the port itself has the key
          have hkey := findParamsPort_eq_none_iff.mp h p
          simp [hports, TcpPort.key, TcpTransmitParams.key, retransmitParams] at hkey
        · simp [consumesSequence, retransmitParams] at h
      rw [if_neg hr]
      exact htouch.trans (hquiet.effects.trans (hgiveUp g' (hafter g' hquiet) (.inl hfail)))
  | @plain i t g₁ _ _ hmalloc hfind hplain hr hquiet ht hquiet' =>
      have hdue' := hafter g₁ hquiet
      have hparams : retransmitParams (g₁.ports p) ((g₁.ports p).unacked j) =
          retransmitParams (g.ports p) ((g.ports p).unacked j) := by
        obtain ⟨w, hw⟩ := hquiet.ports
        simp [hw, hports, retransmitParams]
      have hsend : Effect s a s' g₁ (g₁.emit (.transmit t)) := by
        refine .retransmitted (q := i) hdue' ?_ ?_
        · rw [hparams, hquiet.findParamsPort]
          exact hfind
        · rw [hparams, show ((g₁.ports p).unacked j).seqNum = ((g.ports p).unacked j).seqNum by
            rw [hquiet.unacked p, hports]; simp]
          exact ht
      have hchain : Effects s a s' g g' :=
        htouch.trans (hquiet.effects.trans (.head hsend hquiet'.effects))
      split
      case isTrue => exact hchain
      case isFalse hnot =>
          have hfail : (e.scan p j).ipv4Accepts = false := by
            simpa [hr] using hnot
          have hdue'' : Due s a p j (e.scan p j) g' := by
            obtain ⟨sentAt, hent⟩ := hdue'.entry
            refine hdueAt g' ?_ ⟨sentAt, ?_⟩
            · exact (TcpPort.settled_of_quiet hquiet' p).trans
                (hdue'.settled.trans hturn.settled.symm)
            · rw [hquiet'.unacked p, hturn.entry]
              exact hent
          exact hchain.trans (hgiveUp g' hdue'' (.inr hfail))
  | recorded _ _ hconsumes => simp [consumesSequence, retransmitParams] at hconsumes

theorem scanTimeouts_effects {e : TaskEnv} (ha : a = .tcpTask e)
    (hin : (selectInput s.g).2 = .scan) :
    Effects s a s' s.g (scanTimeouts s.g e.scan) := by
  refine scanTimeouts_related (fun _ => .refl) Relation.ReflTransGen.trans (fun g p h => ?_)
    fun g p j h => retransmit_effects ha hin h
  exact (Effect.reset (.timeWait ⟨⟨e, ha⟩, hin⟩ h.elapsed h.live) h.settled h.incarnation
    (.inr ⟨⟨e, ha⟩, hin⟩) (tcpResetPort_spec g p)).one

/-! ### A segment -/

/-- A semaphore that has been given to has a slot. -/
theorem TcpPort.given_slots_pos {p : TcpPort} (h : p.given.unackedSlots.isSome = true) :
    0 < p.given.slots := by
  unfold given at h ⊢
  cases hsem : p.unackedSlots with
  | none => simp [hsem] at h
  | some sem => simpa [slots, hsem] using sem.give_pos (by decide)

theorem Stage.released {g₀ g : Globals} {acks : List TcpTransmitParams} (h : Stage g₀ acks g)
    (i : PortIdx) (j : UnackedIdx) {e : Event} :
    Stage g₀ acks ((g.setPort i ((g.ports i).released j)).emit e) := by
  refine ⟨fun k => ?_, fun k => ?_, h.sendQueue⟩ <;> by_cases hk : k = i
  · subst hk
    simpa [TcpPort.released, TcpPort.given, TcpPort.settled] using h.settled k
  · simpa [hk] using h.settled k
  · subst hk
    simpa using h.incarnation k
  · simpa [hk] using h.incarnation k

private theorem ackUnacked_effects {i : PortIdx} {seg : Segment} {j : UnackedIdx} {g : Globals}
    (hacc : Accepts s a i seg) (hstage : Stage s.g [] g) (hack : seg.ack = true)
    (hnum : seg.header.ackNum ≤ (s.g.ports i).seqNum) :
    Effects s a s' g (ackUnacked i seg.header.ackNum j g) ∧
      Stage s.g [] (ackUnacked i seg.header.ackNum j g) := by
  rw [ackUnacked_eq]
  split
  case isTrue hentry =>
      have hspec := releaseUnacked_spec g i j
      refine ⟨.head (.released hacc hstage hack ?_ hentry.1 hentry.2) hspec.effects,
        (hstage.released i j).quiet hspec⟩
      rwa [hstage.seqNum i]
  case isFalse => exact ⟨.refl, hstage⟩

theorem processAck_effects {i : PortIdx} {seg : Segment} {g : Globals}
    (hacc : Accepts s a i seg) (hstage : Stage s.g [] g) (hack : seg.ack = true) :
    Effects s a s' g (processAck g i seg.header.ackNum) ∧
      Stage s.g [] (processAck g i seg.header.ackNum) := by
  unfold processAck
  split
  case isTrue hnum =>
      rw [hstage.seqNum i] at hnum
      refine forIdx_invariant (P := fun g' => Effects s a s' g g' ∧ Stage s.g [] g') ?_
        ⟨.refl, hstage⟩
      rintro j g' ⟨heff, hstage'⟩
      obtain ⟨heff', hstage''⟩ := ackUnacked_effects hacc hstage' hack hnum
      exact ⟨heff.trans heff', hstage''⟩
  case isFalse => exact ⟨.refl, hstage⟩

/-- `ackUnacked` leaves the ports as they are or leaves a free slot. -/
private theorem ackUnacked_slots (i : PortIdx) (n : BitVec 32) (j : UnackedIdx) (g : Globals) :
    (ackUnacked i n j g = g ∧
        ¬ (((g.ports i).unacked j).inUse = true ∧ ((g.ports i).unacked j).seqNum ≤ n)) ∨
      (((ackUnacked i n j g).ports i).unackedSlots.isSome = true →
        0 < ((ackUnacked i n j g).ports i).slots) := by
  rw [ackUnacked_eq]
  split
  case isTrue hentry =>
      right
      have hspec := releaseUnacked_spec g i j
      have hslots := hspec.slots i
      have hsome : ((releaseUnacked g i j).ports i).unackedSlots =
          ((g.ports i).released j).unackedSlots := by
        simpa using hspec.field i (·.unackedSlots) fun _ _ => rfl
      rw [hsome, hslots]
      simpa [TcpPort.released] using TcpPort.given_slots_pos
  case isFalse hentry => exact .inl ⟨rfl, hentry⟩

/-- After ACK processing there is a slot if there was one or an entry has been released. -/
theorem processAck_slots {i : PortIdx} {seg : Segment} {g : Globals}
    (havailable : slotAvailable (g.ports i) seg = true)
    (hsome : ((processAck g i seg.header.ackNum).ports i).unackedSlots.isSome = true) :
    0 < ((processAck g i seg.header.ackNum).ports i).slots := by
  unfold processAck at hsome ⊢
  -- a slot is free, or nothing has happened yet
  have hbody : ∀ (j : UnackedIdx) (g' : Globals),
      ((g'.ports i).unackedSlots.isSome = true → 0 < (g'.ports i).slots) ∨ g' = g →
      (((ackUnacked i seg.header.ackNum j g').ports i).unackedSlots.isSome = true →
        0 < ((ackUnacked i seg.header.ackNum j g').ports i).slots) ∨
      ackUnacked i seg.header.ackNum j g' = g := by
    intro j g' h
    rcases ackUnacked_slots i seg.header.ackNum j g' with ⟨hsame, -⟩ | hfree
    · rwa [hsame]
    · exact .inl hfree
  simp only [slotAvailable, Bool.or_eq_true, decide_eq_true_eq, Bool.and_eq_true] at havailable
  rcases havailable with hpos | ⟨⟨-, hnum⟩, hentry⟩
  · by_cases hnum : seg.header.ackNum ≤ (g.ports i).seqNum
    · rw [if_pos hnum] at hsome ⊢
      rcases forIdx_invariant (P := fun g' =>
        ((g'.ports i).unackedSlots.isSome = true → 0 < (g'.ports i).slots) ∨ g' = g)
        hbody (.inr rfl) with h | h
      · exact h hsome
      · rw [h]; exact hpos
    · rw [if_neg hnum]
      exact hpos
  · rw [if_pos hnum] at hsome ⊢
    obtain ⟨j, hj⟩ := Option.isSome_iff_exists.mp hentry
    have hj := firstIdx_some hj
    simp only [Bool.and_eq_true, decide_eq_true_eq] at hj
    refine forIdx_forall (P := fun g' =>
        ((g'.ports i).unackedSlots.isSome = true → 0 < (g'.ports i).slots) ∨ g' = g)
      (Q := fun k g' => k = j →
        (g'.ports i).unackedSlots.isSome = true → 0 < (g'.ports i).slots)
      hbody ?_ ?_ (.inr rfl) j rfl hsome
    · rintro k g' hg' rfl
      rcases ackUnacked_slots i seg.header.ackNum k g' with ⟨hsame, hnot⟩ | hfree
      · rw [hsame]
        rcases hg' with hfree | rfl
        · exact hfree
        · exact absurd hj hnot
      · exact hfree
    · rintro k l g' - hfree rfl
      rcases ackUnacked_slots i seg.header.ackNum l g' with ⟨hsame, -⟩ | hfree'
      · rw [hsame]
        exact hfree rfl
      · exact hfree'

theorem acknowledges_iff {g : Globals} {i : PortIdx} {seg : Segment} :
    acknowledges (g.ports i) seg = true ↔
      seg.sequenceIncrement > 0 ∧ (g.ports i).state ≠ .lastAck ∧ (g.ports i).state ≠ .listen := by
  simp [acknowledges, and_assoc]

theorem acknowledges_congr {p p' : TcpPort} (h : p.state = p'.state) (seg : Segment) :
    acknowledges p seg = acknowledges p' seg := by
  simp [acknowledges, h]

theorem replyParams_congr {p p' : TcpPort} (h : p.settled = p'.settled) (dst : Ipv4Addr)
    (control : BitVec 8) : replyParams p dst control = replyParams p' dst control :=
  TcpPort.settled_field h (replyParams · dst control) fun _ => rfl

theorem acknowledgeData_eq (g : Globals) (i : PortIdx) (seg : Segment) :
    acknowledgeData g i seg =
      if acknowledges (g.ports i) seg = true then
        if g.sendQueue.length < sendQueueLength then
          .done ((g.setPort i ((g.ports i).advanced seg)).pushSend
            (replyParams (g.ports i) seg.srcIpv4Addr ACK)) ()
        else .blocked (g.setPort i ((g.ports i).advanced seg)) .sendQueue
      else .done g () := by
  unfold acknowledgeData
  by_cases hacks : acknowledges (g.ports i) seg = true
  · rw [if_pos hacks, if_pos (acknowledges_iff.mp hacks)]
    by_cases hroom : g.sendQueue.length < sendQueueLength
    · simp [tcpEnqueue, hroom, Outcome.bind, TcpPort.advanced, replyParams]
    · simp [tcpEnqueue, hroom, Outcome.bind, portMaxDelay, TcpPort.advanced]
  · rw [if_neg hacks, if_neg (fun h => hacks (acknowledges_iff.mpr h))]

/-- What `acknowledgeData` does when it does not wait. -/
theorem acknowledgeData_done {g g' : Globals} {i : PortIdx} {seg : Segment}
    (h : acknowledgeData g i seg = .done g' ()) :
    acknowledges (g.ports i) seg = true ∧ g.sendQueue.length < sendQueueLength ∧
        g' = (g.setPort i ((g.ports i).advanced seg)).pushSend
          (replyParams (g.ports i) seg.srcIpv4Addr ACK) ∨
      acknowledges (g.ports i) seg = false ∧ g' = g := by
  rw [acknowledgeData_eq] at h
  split_ifs at h with hacks hroom
  · obtain ⟨rfl, -⟩ := Outcome.done.inj h
    exact .inl ⟨hacks, hroom, rfl⟩
  · obtain ⟨rfl, -⟩ := Outcome.done.inj h
    exact .inr ⟨by simpa using hacks, rfl⟩

theorem acknowledgeData_blocked {g g' : Globals} {i : PortIdx} {seg : Segment} {on : Resource}
    (h : acknowledgeData g i seg = .blocked g' on) :
    acknowledges (g.ports i) seg = true ∧ ¬ g.sendQueue.length < sendQueueLength ∧
      g' = g.setPort i ((g.ports i).advanced seg) := by
  rw [acknowledgeData_eq] at h
  split_ifs at h with hacks hroom
  obtain ⟨rfl, -⟩ := Outcome.blocked.inj h
  exact ⟨hacks, hroom, rfl⟩

theorem acknowledgeData_defined {g : Globals} {i : PortIdx} {seg : Segment} :
    acknowledgeData g i seg ≠ .undefined := by
  rw [acknowledgeData_eq]
  split_ifs <;> simp

theorem acknowledgeData_effects {g g' : Globals} {i : PortIdx} {seg : Segment}
    (hacc : Accepts s a i seg) (hstage : Stage s.g [] g)
    (h : acknowledgeData g i seg = .done g' ()) :
    Effects s a s' g g' ∧ Stage s.g (acksOf (s.g.ports i) seg) g' := by
  have hsettled := hstage.settled i
  rcases acknowledgeData_done h with ⟨hacks, hroom, rfl⟩ | ⟨hacks, rfl⟩
  · rw [acknowledges_congr (hstage.state i)] at hacks
    rw [replyParams_congr hsettled]
    refine ⟨(Effect.acknowledged hacc hstage hacks hroom).one, ?_, ?_, ?_⟩
    · intro j
      by_cases hj : j = i
      · subst hj; simpa [TcpPort.advanced, TcpPort.settled] using hsettled
      · simpa [hj] using hstage.settled j
    · intro j
      by_cases hj : j = i
      · subst hj; simpa [TcpPort.advanced, TcpPort.incarnation] using hstage.incarnation j
      · simpa [hj] using hstage.incarnation j
    · simp [acksOf, hacks, hstage.sendQueue]
  · rw [acknowledges_congr (hstage.state i)] at hacks
    refine ⟨.refl, hstage.settled, hstage.incarnation, ?_⟩
    simp [acksOf, hacks, hstage.sendQueue]

theorem portMaxDelay_ne_zero : portMaxDelay ≠ 0 := by decide

/-- A request that `tcp_task` queues for good and all, or waits for. -/
theorem enqueueReply_spec {g : Globals} {params : TcpTransmitParams}
    (h : afterTask ((tcpEnqueueReliable g params portMaxDelay).bind fun g _ => .done g ()) =
      some s') :
    Enqueue (s'.tcpTask ≠ .running) g params s'.g := by
  cases hr : tcpEnqueueReliable g params portMaxDelay with
  | undefined => simp [hr, Outcome.bind, afterTask] at h
  | done g' r =>
      rw [hr] at h
      obtain rfl := Option.some.inj h
      exact (tcpEnqueueReliable_done hr).mono fun hzero => absurd hzero portMaxDelay_ne_zero
  | blocked g' on =>
      rw [hr] at h
      obtain rfl := Option.some.inj h
      obtain ⟨rfl, i, sem, hfind, hsem, hcount, -⟩ := tcpEnqueueReliable_blocked hr
      exact .noSlot hfind hsem hcount (by simp) (Quiet.refl _)

/-- A step of `tcp_task` that ends in `g'` without waiting. -/
theorem afterTask_done {g' : Globals} (h : afterTask (.done g' ()) = some s') :
    s' = ⟨g', .running⟩ := (Option.some.inj h).symm

theorem afterTask_done_effects {g g' : Globals} (h : afterTask (.done g' ()) = some s')
    (heff : Effects s a s' g g') : Effects s a s' g s'.g := by
  obtain rfl := afterTask_done h
  exact heff

theorem callOnDisconnect_effects {g : Globals} {i : PortIdx} {incarnation : Option Nat}
    {seg : Segment} (hacc : Accepts s a i seg) (hstate : (s.g.ports i).state.disconnects = true)
    (hincarnation : incarnation = (s.g.ports i).incarnation)
    (h : afterTask (callOnDisconnect g i incarnation) = some s') : Effects s a s' g s'.g := by
  unfold callOnDisconnect at h
  split at h
  · rw [afterTask_done h, hincarnation]
    exact .single (.disconnected hacc hstate)
  · simp [afterTask] at h

private theorem deliverData_effects {g' : Globals} {i : PortIdx} {seg : Segment}
    (hacc : Accepts s a i seg) (hstate : (s.g.ports i).state = .established)
    (hincarnation : (g'.ports i).incarnation = (s.g.ports i).incarnation) :
    Effects s a s' g' (deliverData g' i seg) := by
  unfold deliverData
  split
  case isTrue hlen =>
      split
      · exact (Effect.delivered hacc hstate hincarnation hlen).one
      · exact .refl
  case isFalse => exact .refl

section State
variable {g : Globals} {i : PortIdx} {seg : Segment} (hacc : Accepts s a i seg)
  (hstage : Stage s.g (acksOf (s.g.ports i) seg) g)
include hacc hstage

private theorem inputListen_effects (hstate : (s.g.ports i).state = .listen)
    (hslots : slotAvailable (s.g.ports i) seg = true →
      (g.ports i).unackedSlots.isSome → 0 < (g.ports i).slots)
    (h : afterTask (inputListen g i seg) = some s') : Effects s a s' g s'.g := by
  have hstage' : Stage s.g [] g := by
    simpa [acksOf, acknowledges, hstate] using hstage
  unfold inputListen at h
  split at h
  case isTrue =>
      rw [afterTask_done h]
      exact (quiet_warn g _).effects
  case isFalse hsyn =>
      have henq := enqueueReply_spec h
      simp only [Globals.ports_setPort, Function.update_self] at henq
      exact (Effect.tookOver hacc hstage' hstate (by simpa using hsyn) hslots henq).one

private theorem inputSynSent_effects (hstate : (s.g.ports i).state = .synSent) :
    Effects s a s' g (inputSynSent g i seg) := by
  unfold inputSynSent
  split_ifs with hsyn hack
  · exact (quiet_warn g _).effects
  · exact (quiet_warn g _).effects
  · exact (Effect.established hacc hstage (.inl ⟨hstate, by simpa using hsyn⟩)
      (by simpa using hack)).one

private theorem inputSynReceived_effects (hstate : (s.g.ports i).state = .synReceived) :
    Effects s a s' g (inputSynReceived g i seg) := by
  unfold inputSynReceived
  split_ifs with hack hnum
  · exact (quiet_warn g _).effects
  · exact (quiet_warn g _).effects
  · refine (Effect.established hacc hstage (.inr ⟨hstate, ?_⟩) (by simpa using hack)).one
    rw [← hstage.seqNum i]
    simpa using hnum

private theorem inputEstablished_effects (hstate : (s.g.ports i).state = .established)
    (h : afterTask (inputEstablished g i seg) = some s') : Effects s a s' g s'.g := by
  unfold inputEstablished at h
  split at h
  case isTrue hfin =>
      rw [replyParams_congr (hstage.settled i)] at h
      cases hr : tcpEnqueueReliable g
          (replyParams (s.g.ports i) seg.srcIpv4Addr (FIN + ACK)) portMaxDelay with
      | undefined => simp [hr, Outcome.bind, afterTask] at h
      | done g' r =>
          rw [hr] at h
          rw [afterTask_done h]
          have henq := (tcpEnqueueReliable_done hr).mono
            (fun hzero => absurd hzero portMaxDelay_ne_zero : portMaxDelay = 0 → False)
          refine .head (.finReplied hacc hstage hstate hfin henq)
            (deliverData_effects hacc hstate ?_)
          rw [← hstage.incarnation i, ← henq.incarnation i]
          simp [Globals.setState, TcpPort.incarnation]
      | blocked g' on =>
          obtain ⟨rfl, -⟩ := tcpEnqueueReliable_blocked hr
          rw [hr] at h
          obtain rfl := Option.some.inj h
          exact .refl
  case isFalse =>
      rw [afterTask_done h]
      exact deliverData_effects hacc hstate (hstage.incarnation i)

private theorem inputLastAck_effects (hstate : (s.g.ports i).state = .lastAck)
    (h : afterTask (inputLastAck g i seg) = some s') : Effects s a s' g s'.g := by
  unfold inputLastAck at h
  split_ifs at h with hack hnum
  · rw [afterTask_done h]
    exact (quiet_warn g _).effects
  · rw [afterTask_done h]
    exact (quiet_warn g _).effects
  · refine .head (.reset (.lastAck seg hacc hstate (by simpa using hack) ?_) (hstage.settled i)
      (hstage.incarnation i) (.inl ?_) (tcpResetPort_spec g i))
        (callOnDisconnect_effects hacc (by simp [hstate, TcpState.disconnects])
          (hstage.incarnation i) h)
    · rw [← hstage.seqNum i]
      simpa using hnum
    · simpa [acksOf, acknowledges, hstate] using hstage

private theorem enterTimeWait_effects
    (hstate : (s.g.ports i).state = .finWait1 ∨ (s.g.ports i).state = .finWait2)
    (hfin : seg.fin = true) (h : afterTask (enterTimeWait g i) = some s') :
    Effects s a s' g s'.g := by
  refine .head (.timeWait hacc hstage hstate hfin)
    (callOnDisconnect_effects hacc ?_ (hstage.incarnation i) h)
  rcases hstate with hstate | hstate <;> simp [hstate, TcpState.disconnects]

private theorem inputFinWait1_effects (hstate : (s.g.ports i).state = .finWait1)
    (h : afterTask (inputFinWait1 g i seg) = some s') : Effects s a s' g s'.g := by
  unfold inputFinWait1 at h
  split_ifs at h with hfin hack
  · exact enterTimeWait_effects hacc hstage (.inl hstate) hfin h
  · rw [afterTask_done h]
  · rw [afterTask_done h]
    exact (Effect.finWait2 hacc hstage hstate (by simpa using hfin) (by simpa using hack)).one

private theorem inputFinWait2_effects (hstate : (s.g.ports i).state = .finWait2)
    (h : afterTask (inputFinWait2 g i seg) = some s') : Effects s a s' g s'.g := by
  unfold inputFinWait2 at h
  split_ifs at h with hfin
  · rw [afterTask_done h]
  · exact enterTimeWait_effects hacc hstage (.inr hstate) (by simpa using hfin) h

theorem inputState_effects
    (hslots : slotAvailable (s.g.ports i) seg = true →
      (g.ports i).unackedSlots.isSome → 0 < (g.ports i).slots)
    (h : afterTask (inputState g i seg) = some s') : Effects s a s' g s'.g := by
  have hstate := hstage.state i
  unfold inputState at h
  split at h <;> rename_i hcase <;> rw [hstate] at hcase
  · exact inputListen_effects hacc hstage hcase hslots h
  · rw [afterTask_done h]
    exact inputSynSent_effects hacc hstage hcase
  · rw [afterTask_done h]
    exact inputSynReceived_effects hacc hstage hcase
  · exact inputEstablished_effects hacc hstage hcase h
  · exact inputLastAck_effects hacc hstage hcase h
  · exact inputFinWait1_effects hacc hstage hcase h
  · exact inputFinWait2_effects hacc hstage hcase h
  all_goals rw [afterTask_done h]

end State

/-- The state in which `acceptSegment` looks at the port's state. -/
def windowed (g : Globals) (i : PortIdx) (seg : Segment) : Globals :=
  g.setPort i { g.ports i with otherWindow := seg.header.window }

/-- How `acceptSegment` gets to the state's case, or gets stuck before it. -/
inductive Accepted (s : System) (a : Action) (s' : System) (g : Globals) (i : PortIdx)
    (seg : Segment) : Prop
  | stuck {released : Globals} (heff : Effects s a s' s.g released)
      (hstage : Stage s.g [] released) (hacks : acknowledges (s.g.ports i) seg = true)
      (hfull : ¬ released.sendQueue.length < sendQueueLength)
      (hs' : s' = ⟨released.setPort i ((released.ports i).advanced seg), .blocked .sendQueue⟩)
  | answered {released g' : Globals} (heff : Effects s a s' s.g g')
      (hreleased : (if seg.ack then processAck g i seg.header.ackNum else g) = released)
      (hroom : acknowledges (s.g.ports i) seg = true → s.g.sendQueue.length < sendQueueLength)
      (hstage : Stage s.g (acksOf (s.g.ports i) seg) g')
      (hslots : (g'.ports i).unackedSlots = (released.ports i).unackedSlots)
      (h : afterTask (inputState g' i seg) = some s')

theorem acceptSegment_cases {g : Globals} {i : PortIdx} {seg : Segment}
    (hacc : Accepts s a i seg) (hquiet : Quiet s.g g)
    (h : afterTask (acceptSegment g i seg) = some s') : Accepted s a s' g i seg := by
  have hstage : Stage s.g [] g := (Stage.refl s.g).quiet hquiet
  generalize hreleased : (if seg.ack then processAck g i seg.header.ackNum else g) = released
  have hrel : Effects s a s' g released ∧ Stage s.g [] released := by
    subst hreleased
    split
    case isTrue hack => exact processAck_effects hacc hstage hack
    case isFalse => exact ⟨.refl, hstage⟩
  have heff := hquiet.effects.trans hrel.1
  unfold acceptSegment at h
  simp only [hreleased] at h
  cases hr : acknowledgeData released i seg with
  | undefined => exact absurd hr acknowledgeData_defined
  | blocked g' on =>
      rw [hr] at h
      obtain ⟨hacks, hfull, rfl⟩ := acknowledgeData_blocked hr
      rw [acknowledges_congr (hrel.2.state i)] at hacks
      obtain rfl : on = .sendQueue := by
        rw [acknowledgeData_eq] at hr
        split_ifs at hr
        exact (Outcome.blocked.inj hr).2.symm
      exact .stuck heff hrel.2 hacks hfull (Option.some.inj h).symm
  | done g' u =>
      obtain ⟨heff', hstage'⟩ : Effects s a s' _ g' ∧ _ := acknowledgeData_effects hacc hrel.2 hr
      have hwindow : Quiet g' (windowed g' i seg) := quiet_setWindow g' i _
      rw [hr] at h
      refine .answered ((heff.trans heff').tail (.quiet hwindow)) hreleased ?_
        (hstage'.quiet hwindow) ?_ h
      · intro hacks
        rw [← acknowledges_congr (hrel.2.state i)] at hacks
        rcases acknowledgeData_done hr with ⟨-, hroom, -⟩ | ⟨hno, -⟩
        · simpa [hrel.2.sendQueue] using hroom
        · simp [hno] at hacks
      · -- acknowledging the segment does not touch the slots
        rcases acknowledgeData_done hr with ⟨-, -, rfl⟩ | ⟨-, rfl⟩ <;>
          simp [windowed, TcpPort.advanced]

theorem acceptSegment_effects {g : Globals} {i : PortIdx} {seg : Segment}
    (hacc : Accepts s a i seg) (hports : g.ports = s.g.ports) (hquiet : Quiet s.g g)
    (h : afterTask (acceptSegment g i seg) = some s') : Effects s a s' s.g s'.g := by
  cases acceptSegment_cases hacc hquiet h with
  | stuck heff hstage hacks hfull hs' =>
      subst hs'
      exact heff.tail (.ackStuck hacc hstage hacks hfull (by simp))
  | @answered released g' heff hreleased _ hstage hsame h =>
      refine heff.trans (inputState_effects hacc hstage ?_ h)
      intro havailable hsome
      rw [hsame] at hsome
      have hpos : 0 < (released.ports i).slots := by
        rw [← hports] at havailable
        subst hreleased
        by_cases hack : seg.ack = true
        · rw [if_pos hack] at hsome ⊢
          exact processAck_slots havailable hsome
        · rw [if_neg hack]
          simpa [slotAvailable, hack] using havailable
      unfold TcpPort.slots at hpos ⊢
      rwa [hsame]

theorem inputTcpInternal_effects {g : Globals} {seg : Segment}
    (hin : Processes s a (.segment seg)) (hports : g.ports = s.g.ports) (hquiet : Quiet s.g g)
    (h : afterTask (inputTcpInternal g seg) = some s') : Effects s a s' s.g s'.g := by
  unfold inputTcpInternal at h
  rw [checkSegment_congr hports] at h
  split at h
  case h_1 why hverdict =>
      rw [afterTask_done h]
      exact (hquiet.trans (quiet_warn g why)).effects
  case h_2 i hverdict =>
      rw [afterTask_done h]
      have hwarn := hquiet.trans (quiet_warn g .forciblyClosed)
      exact .head (.quiet hwarn) (Effect.reset (.rst seg hin hverdict)
        (TcpPort.settled_of_quiet hwarn i) (hwarn.incarnation i)
        (.inl ((Stage.refl s.g).quiet hwarn)) (tcpResetPort_spec _ i)).one
  case h_3 i hverdict => exact acceptSegment_effects ⟨hin, hverdict⟩ hports hquiet h

/-! ### A command -/

theorem tcpCreatePortInternal_some {g : Globals} {src : BitVec 16}
    {onReceive onConnect onDisconnect : Option FnPtr} {semaphore : Bool} {i : PortIdx}
    (h : (tcpCreatePortInternal g src onReceive onConnect onDisconnect semaphore).2 = some i) :
    findUnusedPort g = some i ∧
      (tcpCreatePortInternal g src onReceive onConnect onDisconnect semaphore).1 =
        Globals.setPort { g with nextAddr := g.nextAddr + 1 } i
          (newPort src g.nextAddr onReceive onConnect onDisconnect) := by
  unfold tcpCreatePortInternal at h ⊢
  cases semaphore with
  | false => cases h
  | true =>
      cases hfind : findUnusedPort g with
      | none => simp [hfind] at h
      | some k =>
          simp only [hfind, if_true] at h ⊢
          obtain rfl := Option.some.inj h
          exact ⟨rfl, rfl⟩

theorem tcpCreatePortInternal_none {g : Globals} {src : BitVec 16}
    {onReceive onConnect onDisconnect : Option FnPtr} {semaphore : Bool}
    (h : (tcpCreatePortInternal g src onReceive onConnect onDisconnect semaphore).2 = none) :
    Quiet g (tcpCreatePortInternal g src onReceive onConnect onDisconnect semaphore).1 := by
  unfold tcpCreatePortInternal at h ⊢
  cases semaphore with
  | false => exact Quiet.refl g
  | true =>
      cases hfind : findUnusedPort g with
      | none => simpa [hfind] using quiet_allocate g 1
      | some k => simp [hfind] at h

theorem executeCmd_effects {g : Globals} {cmd : TcpPortCmd} {semaphore : Bool}
    (hin : Processes s a (.cmd cmd)) (hports : g.ports = s.g.ports) (hquiet : Quiet s.g g)
    (h : afterTask (executeCmd g cmd semaphore) = some s') : Effects s a s' s.g s'.g := by
  have hstage : Stage s.g [] g := (Stage.refl s.g).quiet hquiet
  have hunused : findUnusedPort g = findUnusedPort s.g := by simp [findUnusedPort, hports]
  apply Relation.ReflTransGen.trans hquiet.effects
  cases cmd with
  | createAndConnect self other addr onReceive onConnect onDisconnect =>
      simp only [executeCmd, tcpConnectPortInternal] at h
      split at h
      case h_1 hnone =>
          rw [afterTask_done h]
          exact (tcpCreatePortInternal_none hnone).effects
      case h_2 i hsome =>
          obtain ⟨hfind, hcreate⟩ := tcpCreatePortInternal_some hsome
          have henq := enqueueReply_spec h
          simp only [hcreate, Globals.ports_setPort, Function.update_self] at henq
          refine (Effect.connecting hin hstage (hunused ▸ hfind) ?_).one
          simpa [Globals.setPort] using henq
  | createAndListen self onReceive onConnect onDisconnect =>
      simp only [executeCmd, tcpListenPortInternal] at h
      rw [congrArg System.g (afterTask_done h)]
      split
      case h_1 hnone => exact (tcpCreatePortInternal_none hnone).effects
      case h_2 i hsome =>
          obtain ⟨hfind, hcreate⟩ := tcpCreatePortInternal_some hsome
          have heff : Effects s a s' g _ := (Effect.listening hin hstage (hunused ▸ hfind)).one
          simpa [hcreate, Globals.setPort, newPort] using heff
  | close self other addr =>
      have hfind : findPort g self other addr = findPort s.g self other addr :=
        findPort_congr (by simp [hports]) _ _ _
      simp only [executeCmd, tcpClosePortInternal, hfind] at h
      split at h
      case h_1 =>
          rw [afterTask_done h]
      case h_2 i hi =>
          have henq := enqueueReply_spec h
          rw [hports] at henq
          exact (Effect.closing hin hstage hi henq).one

/-! ### A step -/

theorem tcpTaskIteration_effects {env : TaskEnv} (ha : a = .tcpTask env)
    (h : afterTask (tcpTaskIteration s.g env) = some s') : Effects s a s' s.g s'.g := by
  unfold tcpTaskIteration at h
  cases hin : (selectInput s.g).2 with
  | scan =>
      rw [hin, selectInput_scan hin] at h
      simp only [executeInput] at h
      exact afterTask_done_effects h (scanTimeouts_effects ha hin)
  | send params =>
      rw [hin] at h
      simp only [executeInput] at h
      exact afterTask_done_effects h (executeSend_effects ha hin)
  | segment seg =>
      obtain ⟨hquiet, hports, -⟩ := selectInput_quiet (g := s.g) (by simp [hin])
      rw [hin] at h
      exact inputTcpInternal_effects ⟨⟨env, ha⟩, hin⟩ hports hquiet h
  | cmd cmd =>
      obtain ⟨hquiet, hports, -⟩ := selectInput_quiet (g := s.g) (by simp [hin])
      rw [hin] at h
      exact executeCmd_effects ⟨⟨env, ha⟩, hin⟩ hports hquiet h
  | nothing =>
      obtain ⟨hquiet, -⟩ := selectInput_quiet (g := s.g) (by simp [hin])
      rw [hin] at h
      simp only [executeInput] at h
      exact afterTask_done_effects h hquiet.effects

theorem quiet_tick (g : Globals) : Quiet g { g with tick := g.tick + 1 } :=
  .of_ports_eq rfl rfl rfl rfl (.of_eq rfl) le_rfl

theorem sendPortCmd_quiet (g : Globals) (cmd : TcpPortCmd) : Quiet g (sendPortCmd g cmd).1 := by
  unfold sendPortCmd
  split
  · exact .of_ports_eq rfl rfl rfl rfl (.of_eq rfl) le_rfl
  · exact Quiet.refl g

theorem inputTcp_quiet (g : Globals) (buffer : Memory) (length : BitVec 16)
    (srcIpv4Addr : Ipv4Addr) (malloc : Option Memory) :
    Quiet g (inputTcp g buffer length srcIpv4Addr malloc).1 := by
  unfold inputTcp
  split
  · exact Quiet.refl g
  · simp only
    split
    · exact .of_ports_eq rfl rfl rfl rfl (.of_eq rfl) le_rfl
    · exact Quiet.refl g

/-- What a step does is a sequence of effects. -/
theorem step_effects (h : step s a = some s') : Effects s a s' s.g s'.g := by
  cases a with
  | tcpTask env =>
      simp only [step] at h
      split at h
      · exact tcpTaskIteration_effects rfl h
      · cases h
  | tcpSend inCallback src dst addr data len timeout =>
      simp only [step] at h
      split at h
      · cases h
      · split at h
        case h_1 g' hcall =>
            obtain rfl := Option.some.inj h
            exact callTcpSend_effects rfl (.inl hcall)
        case h_2 g' on hcall =>
            obtain rfl := Option.some.inj h
            exact callTcpSend_effects rfl (.inr ⟨on, hcall⟩)
        case h_3 => cases h
  | resumeSender k deletedTake =>
      obtain ⟨g', hg', rfl⟩ := Option.map_eq_some_iff.mp h
      exact resumeSender_effects rfl hg'
  | timeoutSender k =>
      obtain ⟨g', hg', rfl⟩ := Option.map_eq_some_iff.mp h
      exact (timeoutSender_quiet hg').effects
  | tcpConnectPort src dst addr onReceive onConnect onDisconnect =>
      obtain rfl := Option.some.inj h
      exact (sendPortCmd_quiet _ _).effects
  | tcpListenPort src onReceive onConnect onDisconnect =>
      obtain rfl := Option.some.inj h
      exact (sendPortCmd_quiet _ _).effects
  | tcpClosePort src dst addr =>
      obtain rfl := Option.some.inj h
      exact (sendPortCmd_quiet _ _).effects
  | inputTcp buffer length src malloc =>
      obtain rfl := Option.some.inj h
      exact (inputTcp_quiet _ _ _ _ _).effects
  | tick =>
      obtain rfl := Option.some.inj h
      exact (quiet_tick s.g).effects

/-- What every effect of a step preserves, the step preserves. -/
theorem step_preserves {P : Globals → Prop}
    (heff : ∀ g g', Effect s a s' g g' → P g → P g') (h : step s a = some s') (hs : P s.g) :
    P s'.g := by
  have heffs := step_effects h
  generalize s'.g = g' at heffs
  induction heffs with
  | refl => exact hs
  | tail _ he ih => exact heff _ _ he ih

/-- What every effect preserves under the condition of its step holds in every state of every
    run whose steps all meet the condition. -/
theorem effects_invariant {P : Globals → Prop} {C : System → Action → Prop} {net : NetContext}
    (hboot : P (boot net).g)
    (heff : ∀ s a s' g g', C s a → Effect s a s' g g' → P g → P g') {as : List Action}
    (hg : Guarded step C (boot net) as) {s : System} (hrun : run step (boot net) as = some s) :
    P s.g :=
  run_invariant (P := fun s => P s.g)
    (fun s a s' hs hc hstep => step_preserves (fun g g' => heff s a s' g g' hc) hstep hs)
    hboot hg hrun

/-- Only a running `tcp_task` iterates. -/
theorem running_of_task {s s' : System} {env : TaskEnv} (h : step s (.tcpTask env) = some s') :
    s.tcpTask = .running := by
  simp only [step] at h
  split at h
  · assumption
  · cases h

/-- Once `tcp_task` waits, no step makes it run again. -/
theorem running_of_step (h : step s a = some s') (hs' : s'.tcpTask = .running) :
    s.tcpTask = .running := by
  cases a with
  | tcpTask env =>
      simp only [step] at h
      split at h
      · assumption
      · cases h
  | tcpSend inCallback src dst addr data len timeout =>
      simp only [step] at h
      split at h
      · cases h
      · split at h
        · obtain rfl := Option.some.inj h
          exact hs'
        · obtain rfl := Option.some.inj h
          cases hs'
        · cases h
  | resumeSender k deletedTake =>
      obtain ⟨g', -, rfl⟩ := Option.map_eq_some_iff.mp h
      exact hs'
  | timeoutSender k =>
      obtain ⟨g', -, rfl⟩ := Option.map_eq_some_iff.mp h
      exact hs'
  | tcpConnectPort | tcpListenPort | tcpClosePort | inputTcp | tick =>
      obtain rfl := Option.some.inj h
      exact hs'

end NetStack.Tcp
