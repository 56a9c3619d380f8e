import NetStack.Tcp.Proofs.Isolation
import NetStack.Tcp.Proofs.StepEffects

/-!
# The primitive operations of a call

What the receive path, a reset and `tcp_enqueue_reliable` do to the slots, the waiting tasks and
the heap is a sequence of primitive operations. `Primitive` lists them, with the payload that
the running call holds in its hand beside the state: a payload is taken out of an entry, freed,
or put into `send_queue`. What every primitive respects, every call respects.
-/

namespace NetStack.Tcp
open NetStack.Lib

/-- A state in the middle of a call, and the payload that the call holds. -/
abbrev Holding := Globals × Option Block

/-- The event is neither an allocation, nor a release, nor a transmission. -/
def Event.plain : Event → Bool
  | .malloc _ | .free _ | .transmit _ => false
  | .warn _ | .queued _ _ _ | .acked _ _ _ | .reset _ _ | .onReceive _ _ _ _ _ | .onConnect _ _
  | .onDisconnect _ _ => true

/-- One primitive operation. -/
inductive Primitive : Holding → Holding → Prop
  /-- A port changes, but for its entries and its semaphore. -/
  | field {g : Globals} {hand : Option Block} {i : PortIdx} {p : TcpPort}
      (hunacked : p.unacked = (g.ports i).unacked)
      (hslots : p.unackedSlots = (g.ports i).unackedSlots) :
      Primitive (g, hand) (g.setPort i p, hand)
  | emit {g : Globals} {hand : Option Block} {e : Event} (he : e.plain = true) :
      Primitive (g, hand) (g.emit e, hand)
  | give {g : Globals} {hand : Option Block} (i : PortIdx) :
      Primitive (g, hand) (giveSlot g i, hand)
  | take {g : Globals} {hand : Option Block} {i : PortIdx}
      {sem sem' : CountingSemaphore maxUnacked} (hsem : (g.ports i).unackedSlots = some sem)
      (htake : sem.take = some sem') :
      Primitive (g, hand) (g.setPort i { g.ports i with unackedSlots := some sem' }, hand)
  /-- A semaphore that has given away all it can is deleted. -/
  | delete {g : Globals} {hand : Option Block} {i : PortIdx}
      (hfull : (g.ports i).unackedSlots.isSome → (g.ports i).slots = maxUnacked) :
      Primitive (g, hand) (g.setPort i { g.ports i with unackedSlots := none }, hand)
  | push {g : Globals} (params : TcpTransmitParams) :
      Primitive (g, params.data) (g.pushSend params, none)
  | free {g : Globals} (data : Option Block) : Primitive (g, data) (g.free data, none)
  /-- An entry loses its payload to the call. -/
  | clear {g : Globals} {i : PortIdx} {j : UnackedIdx} {entry : TcpUnacked}
      (hdata : entry.data = none) :
      Primitive (g, none) (g.setUnacked i j entry, ((g.ports i).unacked j).data)

/-- A sequence of primitive operations. -/
abbrev Primitives : Holding → Holding → Prop := Relation.ReflTransGen Primitive

/-- A sequence of primitive operations that begins and ends with nothing in hand. -/
abbrev EmptyHanded (g g' : Globals) : Prop := Primitives (g, none) (g', none)

instance : IsPreorder Globals EmptyHanded where
  refl _ := .refl
  trans _ _ _ := Relation.ReflTransGen.trans

/-- A call that starts in `g`, and holds nothing when it returns or when it waits, is a sequence of
    primitive operations. -/
abbrev Outcome.Primitives {α : Type} (g : Globals) (o : Outcome α) : Prop := o.Ends (EmptyHanded g)

section Primitives
variable {α : Type} {g g' : Globals} {i : PortIdx} {seg : Segment}
  {params : TcpTransmitParams}

/-- A loop of which every turn is a sequence of primitive operations. -/
theorem primitives_forIdx {n : Nat} {body : Fin n → Globals → Globals}
    (hbody : ∀ j g, Primitives (g, none) (body j g, none)) (g : Globals) :
    Primitives (g, none) (forIdx body g, none) :=
  forIdx_related (R := fun g g' => Primitives (g, none) (g', none)) (fun _ => .refl)
    Relation.ReflTransGen.trans hbody g

theorem primitives_enqueueTaken (g : Globals) (i : PortIdx) (n : Nat)
    (params : TcpTransmitParams) :
    Primitives (g, params.data) ((enqueueTaken g i n params).1, none) := by
  unfold enqueueTaken
  split_ifs
  · exact .single (.free _)
  · exact (Relation.ReflTransGen.single (.push params)).tail (.emit rfl)
  · exact (Relation.ReflTransGen.single (.give i)).tail (.free _)

/-- A call of `tcp_enqueue_reliable` that does not wait. -/
theorem tcpEnqueueReliable_primitives {timeout : BitVec 32} {r : EspErr}
    (h : tcpEnqueueReliable g params timeout = .done g' r) :
    Primitives (g, params.data) (g', none) := by
  unfold tcpEnqueueReliable at h
  split at h
  case h_1 =>
      obtain ⟨rfl, -⟩ := Outcome.done.inj h
      exact .single (.free _)
  case h_2 i _ =>
      split at h
      case h_1 => cases h
      case h_2 sem hsem =>
          split at h
          case h_1 =>
              split_ifs at h
              obtain ⟨rfl, -⟩ := Outcome.done.inj h
              exact .single (.free _)
          case h_2 sem' htake =>
              obtain ⟨rfl, -⟩ := Outcome.done.inj h
              exact .head (.take hsem htake) (primitives_enqueueTaken _ i _ params)

/-- Requests of the stack itself carry no payload. -/
theorem primitives_tcpEnqueueReliable {timeout : BitVec 32} (hdata : params.data = none) :
    (tcpEnqueueReliable g params timeout).Primitives g := by
  refine ends_tcpEnqueueReliable (fun g' r h => ?_) .refl
  have hprimitives := tcpEnqueueReliable_primitives h
  rwa [hdata] at hprimitives

theorem primitives_ackUnacked (n : BitVec 32) (j : UnackedIdx) (g : Globals) :
    Primitives (g, none) (ackUnacked i n j g, none) := by
  rw [ackUnacked_eq]
  split
  · exact (((Relation.ReflTransGen.single (.clear rfl)).tail (.give i)).tail (.emit rfl)).tail
      (.free _)
  · exact .refl

theorem primitives_processAck (n : BitVec 32) :
    Primitives (g, none) (processAck g i n, none) := by
  unfold processAck
  split
  · exact primitives_forIdx (primitives_ackUnacked n) g
  · exact .refl

theorem primitives_acknowledgeData : (acknowledgeData g i seg).Primitives g := by
  have hadvance : Primitives (g, none) (g.setPort i ((g.ports i).advanced seg), none) :=
    .single (.field rfl rfl)
  rw [acknowledgeData_eq]
  split_ifs
  · exact ends_done (hadvance.tail (.push (replyParams (g.ports i) seg.srcIpv4Addr ACK)))
  · exact ends_blocked hadvance
  · exact ends_done .refl

theorem primitives_freeUnackedData (j : UnackedIdx) (g : Globals) :
    Primitives (g, none) (freeUnackedData i j g, none) := by
  unfold freeUnackedData
  dsimp only
  split
  case h_1 block hdata =>
      split
      · have hclear : Primitive (g, none)
            (g.setUnacked i j { (g.ports i).unacked j with data := none }, some block) := by
          rw [← hdata]
          exact .clear rfl
        exact (Relation.ReflTransGen.single hclear).tail (.free (some block))
      · exact .refl
  case h_2 => exact .refl

theorem slots_giveSlot {sem : CountingSemaphore maxUnacked}
    (hsem : (g.ports i).unackedSlots = some sem) :
    ∃ sem', ((giveSlot g i).ports i).unackedSlots = some sem' ∧
      sem'.count = min (sem.count + 1) maxUnacked := by
  refine ⟨sem.give, by simp [ports_giveSlot, TcpPort.given, hsem], ?_⟩
  by_cases hcount : sem.count < maxUnacked
  · rw [CountingSemaphore.give_count sem hcount]
    omega
  · rw [CountingSemaphore.give_eq_self hcount]
    have := sem.bounded
    omega

/-- After as many gives as slots are taken, all slots are free. -/
theorem slots_giveSlots {sem : CountingSemaphore maxUnacked} (n : Nat)
    (hsem : (g.ports i).unackedSlots = some sem) :
    ∃ sem', (((fun g => giveSlot g i)^[n] g).ports i).unackedSlots = some sem' ∧
      sem'.count = min (sem.count + n) maxUnacked := by
  induction n generalizing g sem with
  | zero =>
      have := sem.bounded
      exact ⟨sem, hsem, by omega⟩
  | succ n ih =>
      obtain ⟨sem₁, hsem₁, hcount₁⟩ := slots_giveSlot hsem
      obtain ⟨sem', hsem', hcount'⟩ := ih hsem₁
      exact ⟨sem', by rw [Function.iterate_succ_apply]; exact hsem', by omega⟩

theorem unackedSlots_giveSlots_of_none (n : Nat) (hnone : (g.ports i).unackedSlots = none) :
    (((fun g => giveSlot g i)^[n] g).ports i).unackedSlots = none := by
  induction n with
  | zero => exact hnone
  | succ n ih =>
      rw [Function.iterate_succ_apply', ports_giveSlot]
      simp [TcpPort.given, ih]

theorem primitives_giveSlots (n : Nat) (g : Globals) :
    Primitives (g, none) ((fun g => giveSlot g i)^[n] g, none) := by
  induction n generalizing g with
  | zero => exact .refl
  | succ n ih =>
      rw [Function.iterate_succ_apply]
      exact .head (.give i) (ih _)

/-- A reset makes the pending gives before it deletes the semaphore. -/
theorem primitives_tcpResetPort (g : Globals) (i : PortIdx) :
    Primitives (g, none) (tcpResetPort g i, none) := by
  unfold tcpResetPort
  dsimp only
  generalize hfreed : forIdx (freeUnackedData i)
    (g.setPort i { g.ports i with state := .closed, selfPortNum := 0 }) = freed
  have hclosed : Primitives (g, none)
      (g.setPort i { g.ports i with state := .closed, selfPortNum := 0 }, none) :=
    .single (.field (by rfl) (by rfl))
  have hstart : Primitives (g, none) (freed, none) := by
    rw [← hfreed]
    exact hclosed.trans (primitives_forIdx primitives_freeUnackedData _)
  have hgiven := hstart.trans
    (primitives_giveSlots (i := i) (maxUnacked - (freed.ports i).slots) freed)
  refine .tail (.tail hgiven (.delete fun hsome => ?_)) (.emit rfl)
  cases hsem : (freed.ports i).unackedSlots with
  | none => simp [unackedSlots_giveSlots_of_none _ hsem] at hsome
  | some sem =>
      obtain ⟨sem', hsem', hcount⟩ := slots_giveSlots (maxUnacked - (freed.ports i).slots) hsem
      have hslots : (freed.ports i).slots = sem.count := by simp [TcpPort.slots, hsem]
      have := sem.bounded
      rw [hslots] at hsem' hcount ⊢
      rw [TcpPort.slots, hsem', Option.map_some, Option.getD_some, hcount]
      omega

theorem primitives_warn (w : Warning) : Primitives (g, hand) (g.warn w, hand) :=
  .single (.emit rfl)

theorem primitives_setState (state : TcpState) :
    Primitives (g, hand) (g.setState i state, hand) := .single (.field rfl rfl)

theorem primitives_callOnConnect : Primitives (g, none) (callOnConnect g i, none) := by
  unfold callOnConnect
  split
  · exact .single (.emit rfl)
  · exact .refl

theorem primitives_callOnDisconnect {n : Option Nat} :
    (callOnDisconnect g i n).Primitives g := by
  unfold callOnDisconnect
  split
  · exact ends_done (.single (.emit rfl))
  · exact ends_undefined

theorem primitives_deliverData : Primitives (g, none) (deliverData g i seg, none) := by
  unfold deliverData
  split
  · split
    · exact .single (.emit rfl)
    · exact .refl
  · exact .refl

theorem primitives_enterTimeWait : (enterTimeWait g i).Primitives g := by
  unfold enterTimeWait
  exact primitives_callOnDisconnect.after (.single (.field (by rfl) (by rfl)))

theorem primitives_inputListen : (inputListen g i seg).Primitives g := by
  unfold inputListen
  split
  · exact ends_done (primitives_warn _)
  · exact (primitives_tcpEnqueueReliable rfl).ignore.after (.single (.field (by rfl) (by rfl)))

theorem primitives_inputSynSent : Primitives (g, none) (inputSynSent g i seg, none) := by
  unfold inputSynSent
  split_ifs
  · exact primitives_warn _
  · exact primitives_warn _
  · exact (primitives_setState _).trans primitives_callOnConnect

theorem primitives_inputSynReceived : Primitives (g, none) (inputSynReceived g i seg, none) := by
  unfold inputSynReceived
  split_ifs
  · exact primitives_warn _
  · exact primitives_warn _
  · exact (primitives_setState _).trans primitives_callOnConnect

theorem primitives_inputEstablished : (inputEstablished g i seg).Primitives g := by
  unfold inputEstablished
  split
  · apply (primitives_tcpEnqueueReliable rfl).bind
    intro g' _ _
    exact ends_done ((primitives_setState _).trans primitives_deliverData)
  · exact ends_done primitives_deliverData

theorem primitives_inputLastAck : (inputLastAck g i seg).Primitives g := by
  unfold inputLastAck
  split_ifs
  · exact ends_done (primitives_warn _)
  · exact ends_done (primitives_warn _)
  · exact primitives_callOnDisconnect.after (primitives_tcpResetPort g i)

theorem primitives_inputFinWait1 : (inputFinWait1 g i seg).Primitives g := by
  unfold inputFinWait1
  split_ifs
  · exact primitives_enterTimeWait
  · exact ends_done .refl
  · exact ends_done (primitives_setState _)

theorem primitives_inputFinWait2 : (inputFinWait2 g i seg).Primitives g := by
  unfold inputFinWait2
  split_ifs
  · exact ends_done .refl
  · exact primitives_enterTimeWait

theorem primitives_inputState : (inputState g i seg).Primitives g := by
  unfold inputState
  split
  case h_1 => exact primitives_inputListen
  case h_2 => exact ends_done primitives_inputSynSent
  case h_3 => exact ends_done primitives_inputSynReceived
  case h_4 => exact primitives_inputEstablished
  case h_5 => exact primitives_inputLastAck
  case h_6 => exact primitives_inputFinWait1
  case h_7 => exact primitives_inputFinWait2
  all_goals exact ends_done .refl

/-- Processing a segment is a sequence of primitive operations. -/
theorem primitives_inputTcpInternal : (inputTcpInternal g seg).Primitives g := by
  unfold inputTcpInternal
  split
  case h_1 => exact ends_done (primitives_warn _)
  case h_2 i _ =>
      exact ends_done ((primitives_warn _).trans (primitives_tcpResetPort _ i))
  case h_3 i _ =>
      have hreleased : Primitives (g, none)
          (if seg.ack then processAck g i seg.header.ackNum else g, none) := by
        split
        · exact primitives_processAck _
        · exact .refl
      refine (primitives_acknowledgeData.bind fun g' _ _ => ?_).after hreleased
      exact primitives_inputState.after (.single (.field (by rfl) (by rfl)))

end Primitives

end NetStack.Tcp
