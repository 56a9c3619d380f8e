import NetStack.Tcp.Proofs.Effects

/-!
# The timeout scan

The scan visits the ports and their entries in order and changes them as it goes, yet what it
decides about a port or an entry depends on the state it started from only: a live port that it
comes to is as it was but for entries already dealt with, which are not due any more.
-/

namespace NetStack.Tcp
open NetStack.Lib

/-- What the scan that started in `g₀` has left as it was: everything about the live ports but
    the entries it has already dealt with. -/
structure Scanned (g₀ g : Globals) : Prop where
  settled : ∀ p, (g.ports p).selfPortNum ≠ 0 → (g.ports p).settled = (g₀.ports p).settled
  incarnation : ∀ p, (g.ports p).selfPortNum ≠ 0 →
    (g.ports p).incarnation = (g₀.ports p).incarnation
  entry : ∀ p j, (g.ports p).selfPortNum ≠ 0 →
    (g.ports p).unacked j = (g₀.ports p).unacked j ∨
      retransmitDue g₀.tick ((g.ports p).unacked j) = false

/-- The scan that started in `g₀` resets port `p`. -/
structure TimesOut (g₀ g : Globals) (p : PortIdx) : Prop where
  live : (g₀.ports p).selfPortNum ≠ 0
  elapsed : timeWaitOver g₀.tick (g₀.ports p) = true
  settled : (g.ports p).settled = (g₀.ports p).settled
  incarnation : (g.ports p).incarnation = (g₀.ports p).incarnation

/-- The scan that started in `g₀` retransmits entry `j` of port `p`. -/
structure Retransmits (g₀ g : Globals) (p : PortIdx) (j : UnackedIdx) : Prop where
  live : (g₀.ports p).selfPortNum ≠ 0
  stays : timeWaitOver g₀.tick (g₀.ports p) = false
  due : retransmitDue g₀.tick ((g₀.ports p).unacked j) = true
  settled : (g.ports p).settled = (g₀.ports p).settled
  entry : (g.ports p).unacked j = (g₀.ports p).unacked j

section Scan
variable {g₀ g g' : Globals} {p : PortIdx} {j : UnackedIdx}

theorem Scanned.refl (g : Globals) : Scanned g g :=
  ⟨fun _ _ => rfl, fun _ _ => rfl, fun _ _ _ => .inl rfl⟩

/-- The scan changes entry `j` of port `p` to one that is not due, and its semaphore's count. -/
theorem Scanned.dealt {entry : TcpUnacked} {sem : Option (CountingSemaphore maxUnacked)}
    (h : Scanned g₀ g) (hdone : retransmitDue g₀.tick entry = false)
    (hports : g'.ports = Function.update g.ports p
      { g.ports p with
        unacked := Function.update (g.ports p).unacked j entry, unackedSlots := sem })
    (hsem : sem.map (·.handle) = (g.ports p).incarnation) : Scanned g₀ g' := by
  refine ⟨fun q hq => ?_, fun q hq => ?_, fun q k hq => ?_⟩ <;>
    by_cases hqp : q = p
  · subst hqp
    simp only [hports, Function.update_self] at hq ⊢
    exact h.settled q hq
  · simp only [hports, Function.update_of_ne hqp] at hq ⊢
    exact h.settled q hq
  · subst hqp
    simp only [hports, Function.update_self] at hq ⊢
    exact hsem.trans (h.incarnation q hq)
  · simp only [hports, Function.update_of_ne hqp] at hq ⊢
    exact h.incarnation q hq
  · subst hqp
    simp only [hports, Function.update_self] at hq ⊢
    by_cases hk : k = j
    · subst hk
      right
      simpa using hdone
    · rw [Function.update_of_ne hk]
      exact h.entry q k hq
  · simp only [hports, Function.update_of_ne hqp] at hq ⊢
    exact h.entry q k hq

/-- A port that has been reset is not live. -/
theorem Scanned.reset (h : Scanned g₀ g) (p : PortIdx) : Scanned g₀ (tcpResetPort g p) := by
  obtain ⟨unacked, -, hports⟩ := (tcpResetPort_spec g p).ports
  have hother : ∀ q, ((tcpResetPort g p).ports q).selfPortNum ≠ 0 →
      (tcpResetPort g p).ports q = g.ports q ∧ (g.ports q).selfPortNum ≠ 0 := by
    intro q hq
    by_cases hqp : q = p
    · subst hqp
      simp [hports] at hq
    · simpa [hports, hqp] using hq
  refine ⟨fun q hq => ?_, fun q hq => ?_, fun q k hq => ?_⟩ <;>
    obtain ⟨hsame, hq⟩ := hother q hq <;> rw [hsame]
  · exact h.settled q hq
  · exact h.incarnation q hq
  · exact h.entry q k hq

/-- A request that consumes no sequence space changes no port. -/
theorem ports_tcpSendInternal {params : TcpTransmitParams} (env : SendEnv)
    (hplain : consumesSequence params = false) :
    (tcpSendInternal g params env).1.ports = g.ports := by
  unfold tcpSendInternal
  split
  · simp [Globals.warn]
  · unfold sendAllocated
    dsimp only
    split
    · simp [Globals.warn]
    · rw [hplain, if_neg Bool.false_ne_true]
      unfold sendDatagram sendIpv4Packet
      split <;> simp

theorem consumesSequence_retransmitParams (port : TcpPort) (entry : TcpUnacked) :
    consumesSequence (retransmitParams port entry) = false := by
  simp [consumesSequence, retransmitParams]

/-- A retransmission leaves an entry that is not due, and a semaphore with the same handle. -/
theorem ports_retransmit (now : BitVec 32) (env : SendEnv) (p : PortIdx) (j : UnackedIdx)
    (g : Globals) : ∃ entry sem,
      (retransmit now env p j g).ports = Function.update g.ports p
        { g.ports p with
          unacked := Function.update (g.ports p).unacked j entry, unackedSlots := sem } ∧
      retransmitDue now entry = false ∧ sem.map (·.handle) = (g.ports p).incarnation := by
  have hsent : ∀ touched : Globals,
      (tcpSendInternal touched (retransmitParams (g.ports p) ((g.ports p).unacked j))
        env).1.ports = touched.ports := fun touched =>
    ports_tcpSendInternal env (consumesSequence_retransmitParams _ _)
  unfold retransmit
  dsimp only
  split
  · refine ⟨{ (g.ports p).unacked j with sentAt := now }, (g.ports p).unackedSlots, ?_, ?_, rfl⟩
    · rw [hsent]
      simp [Globals.setUnacked]
    · simp [retransmitDue, retransmitTimeout]
  · refine ⟨{ (g.ports p).unacked j with sentAt := now, inUse := false, data := none },
      (g.ports p).given.unackedSlots, ?_, ?_, TcpPort.given_incarnation (g.ports p)⟩
    · rw [ports_clearEntry, hsent]
      simp [Globals.setUnacked, TcpPort.released, TcpPort.given]
    · simp [retransmitDue]

theorem Scanned.retransmit (h : Scanned g₀ g) (env : SendEnv) (p : PortIdx) (j : UnackedIdx) :
    Scanned g₀ (retransmit g₀.tick env p j g) := by
  obtain ⟨entry, sem, hports, hdone, hsem⟩ := ports_retransmit g₀.tick env p j g
  exact h.dealt hdone hports hsem

/-- The ports that an entry of `p` has been dealt with are as settled as they were. -/
theorem settled_retransmit (now : BitVec 32) (env : SendEnv) (p : PortIdx) (j : UnackedIdx)
    (g : Globals) : ((retransmit now env p j g).ports p).settled = (g.ports p).settled := by
  obtain ⟨entry, sem, hports, -, -⟩ := ports_retransmit now env p j g
  simp [hports, TcpPort.settled]

variable {R : Globals → Globals → Prop} {env : PortIdx → UnackedIdx → SendEnv}

/-- What the scan's resets and retransmissions respect, its turn for a port respects. -/
theorem scanPort_related (hrefl : ∀ g, R g g) (htrans : ∀ {a b c}, R a b → R b c → R a c)
    (hreset : ∀ g p, TimesOut g₀ g p → R g (tcpResetPort g p))
    (hretransmit : ∀ g p j, Retransmits g₀ g p j →
      R g (retransmit g₀.tick (env p j) p j g)) (h : Scanned g₀ g) (p : PortIdx) :
    R g (scanPort g₀.tick env p g) ∧ Scanned g₀ (scanPort g₀.tick env p g) := by
  unfold scanPort
  by_cases hlive : (g.ports p).selfPortNum = 0
  · rw [if_pos hlive]
    exact ⟨hrefl g, h⟩
  rw [if_neg hlive]
  have hsettled := h.settled p hlive
  have hself := TcpPort.selfPortNum_of_settled hsettled
  have hover := TcpPort.settled_field hsettled (timeWaitOver g₀.tick) fun _ => rfl
  by_cases hreset' : timeWaitOver g₀.tick (g.ports p) = true
  · rw [if_pos hreset']
    exact ⟨hreset g p ⟨hself ▸ hlive, hover ▸ hreset', hsettled, h.incarnation p hlive⟩, h.reset p⟩
  · rw [if_neg hreset']
    refine And.imp_right And.left (forIdx_invariant
      (P := fun g' => R g g' ∧ Scanned g₀ g' ∧ (g'.ports p).settled = (g.ports p).settled) ?_
      ⟨hrefl g, h, rfl⟩)
    rintro j g' ⟨hR, h', hset⟩
    unfold scanUnacked
    split
    case isTrue hdue =>
        have hlive' : (g'.ports p).selfPortNum ≠ 0 := by
          rwa [TcpPort.selfPortNum_of_settled hset]
        have hentry : (g'.ports p).unacked j = (g₀.ports p).unacked j :=
          (h'.entry p j hlive').resolve_right (by simp [hdue])
        have hturn : Retransmits g₀ g' p j :=
          ⟨hself ▸ hlive, by rw [← hover]; simpa using hreset', hentry ▸ hdue,
            hset.trans hsettled, hentry⟩
        exact ⟨htrans hR (hretransmit g' p j hturn), h'.retransmit _ p j,
          (settled_retransmit _ _ p j g').trans hset⟩
    case isFalse => exact ⟨hR, h', hset⟩

/-- What the scan's resets and retransmissions respect, the scan respects. -/
theorem scanTimeouts_related (hrefl : ∀ g, R g g) (htrans : ∀ {a b c}, R a b → R b c → R a c)
    (hreset : ∀ g p, TimesOut g₀ g p → R g (tcpResetPort g p))
    (hretransmit : ∀ g p j, Retransmits g₀ g p j →
      R g (retransmit g₀.tick (env p j) p j g)) : R g₀ (scanTimeouts g₀ env) := by
  refine (forIdx_invariant (P := fun g => R g₀ g ∧ Scanned g₀ g) ?_
    ⟨hrefl g₀, Scanned.refl g₀⟩).1
  rintro p g ⟨hR, h⟩
  obtain ⟨hR', h'⟩ := scanPort_related hrefl htrans hreset hretransmit h p
  exact ⟨htrans hR hR', h'⟩

end Scan

end NetStack.Tcp
