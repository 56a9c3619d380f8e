import NetStack.Arp.Proofs.Response
import NetStack.Node.Proofs.TransmitQueue

/-!
# The transmit queue drains

`ipv4_task` waits for the address of one packet at a time. As long as the tick counter does not wrap it
does not wait for ever, whatever arrives and whatever the other tasks do, so that what is queued behind
the packet gets its turn.
-/

namespace NetStack
open NetStack.Lib NetStack.Arp

/-- An iteration of `arp_task`. -/
def NodeAction.isArpTask : NodeAction → Bool
  | .arpTask _ => true
  | _ => false

/-- The clock of `alloc_pending` shows `now` at the latest. -/
def NodeAction.datedBy (now : BitVec 32) : NodeAction → Prop
  | .arpTask env => env.allocTick ≤ now
  | _ => True

instance (now : BitVec 32) : ∀ a : NodeAction, Decidable (a.datedBy now)
  | .arpTask env => inferInstanceAs (Decidable (env.allocTick ≤ now))
  | .tcp .. | .udp .. | .arpGetMacAddr .. | .ipv4Task .. | .resume .. | .wifiRxcb .. =>
      isTrue trivial

namespace Node

/-- `ipv4_task` has come as far as it can: it waits for a notification that has not come, or there is
    nothing to send. -/
def AtRest (s : Node) : Prop :=
  if s.ipv4TaskWaits then s.arp.arp.notificationValue ipv4TaskHandle = 0 else s.transmitQueue = []

instance (s : Node) : Decidable s.AtRest :=
  inferInstanceAs (Decidable (if s.ipv4TaskWaits then s.arp.arp.notificationValue ipv4TaskHandle = 0
    else s.transmitQueue = []))

/-- `n` rounds after the run of `as` to `s`, of the choices `bs`. In a round `arp_task` comes round as
    often as its queue set is long and sweeps `ARP_TIMEOUT_TICKS` after all the requests since boot have
    been dated, with a tick counter that has not wrapped; before, between and after that happens what
    may, and at its end `ipv4_task` has come as far as it can. -/
inductive Rounds (as : List NodeAction) (s : Node) : Nat → List NodeAction → Node → Prop
  | zero : Rounds as s 0 [] s
  | succ {n : Nat} {bs cs ds es : List NodeAction} {u t : Node} {now : BitVec 32} {env : ArpTaskEnv}
      (before : Rounds as s n bs u)
      (hrun : run step u (cs ++ ds ++ [.arpTask env] ++ es) = some t)
      (hserved : arpQueueSetLength ≤ cs.countP NodeAction.isArpTask)
      (hdated : ∀ a ∈ as ++ bs ++ cs, a.datedBy now)
      (hlate : now.toNat + arpTimeoutTicks.toNat ≤ env.sweepTick.toNat)
      (hrest : t.AtRest) : Rounds as s (n + 1) (bs ++ (cs ++ ds ++ [.arpTask env] ++ es)) t

variable {net : NetContext} {s s' t u : Node} {a : NodeAction} {as bs : List NodeAction}
  {now : BitVec 32} {c : ArpCaller}

/-! ### The ARP component in the node -/

/-- A step of the node is a step of its ARP component or leaves it alone. -/
theorem isPart_arp (now : BitVec 32) :
    IsPart step Node.arp NodeAction.isArpTask (NodeAction.datedBy now) now := by
  refine ⟨fun s a s' h => ?_⟩
  cases step_moves h with
  | counted | udp | icmp => exact .inl ⟨rfl, rfl⟩
  | tcp c hb => cases hb <;> exact .inl ⟨rfl, rfl⟩
  | arp c hb hr => cases hb <;> exact .inr ⟨_, hr, rfl, id⟩
  | ipv4Task _ _ hr => exact .inr ⟨_, hr, rfl, fun _ => trivial⟩

/-- What the component comes to in the node, it comes to on its own. -/
theorem arp_of_run (hrun : run step (boot net) as = some s) (hdated : ∀ a ∈ as, a.datedBy now) :
    Reachable Arp.step (Arp.boot net) s.arp ∧ ExpiresBy now s.arp.arp := by
  refine run_invariant (C := fun _ a => a.datedBy now)
    (P := fun s : Node => Reachable Arp.step (Arp.boot net) s.arp ∧ ExpiresBy now s.arp.arp)
    ?_ ⟨⟨[], rfl⟩, fun _ => Nat.zero_le _⟩ (guarded_of_forall _ hdated) hrun
  rintro s a s' ⟨⟨bs, hbs⟩, hexpires⟩ hdated h
  rcases (isPart_arp now).steps s a s' h with ⟨hsame, -⟩ | ⟨b, hb, -, hbdated⟩
  · rw [hsame]
    exact ⟨⟨bs, hbs⟩, hexpires⟩
  · refine ⟨⟨bs ++ [b], by simp [run_append, hbs, run_cons, hb]⟩, ?_⟩
    exact expiresBy_step hexpires (hbdated hdated) hb

/-! ### What has been done stays done -/

/-- Packets are only ever added to what has been queued and to what is done. -/
theorem grows_step (h : step s a = some s') :
    s.finished <+: s'.finished ∧ s.accepted <+: s'.accepted := by
  have hhistory : ∀ {b : Arp.Action} {r : Arp.System}, Arp.step s.arp b = some r →
      s.finished <+: r.history.filterMap Arp.NodeEvent.packet? := by
    intro b r hr
    obtain ⟨events, hevents, -⟩ := Arp.step_history hr
    rw [hevents, List.filterMap_append]
    exact List.prefix_append _ _
  cases step_moves h with
  | counted => exact ⟨List.prefix_rfl, List.prefix_rfl⟩
  | tcp | udp | icmp => exact ⟨List.prefix_rfl, List.prefix_append _ _⟩
  | arp _ _ hr => exact ⟨hhistory hr, List.prefix_rfl⟩
  | ipv4Task _ _ hr => exact ⟨hhistory hr, List.prefix_rfl⟩

theorem grows_run (hrun : run step s as = some t) :
    s.finished <+: t.finished ∧ s.accepted <+: t.accepted := by
  refine run_invariant (C := fun _ _ => True)
    (P := fun t : Node => s.finished <+: t.finished ∧ s.accepted <+: t.accepted)
    (fun u a u' hu _ h => ?_) ⟨List.prefix_rfl, List.prefix_rfl⟩ (guarded_true _ as) hrun
  obtain ⟨hfinished, haccepted⟩ := grows_step h
  exact ⟨hu.1.trans hfinished, hu.2.trans haccepted⟩

/-! ### One round -/

/-- A caller with a packet that has been notified goes on waiting until the packet is done. -/
theorem notified_or_finished (hs : Consumed s) (hc : c ∈ s.arp.callers)
    (hpacket : c.packet.isSome = true) (hvalue : s.arp.arp.notificationValue c.request.task ≠ 0)
    (h : step s a = some s') :
    (c ∈ s'.arp.callers ∧ s'.arp.arp.notificationValue c.request.task ≠ 0) ∨
      s.finished.length < s'.finished.length := by
  rcases (isPart_arp 0).steps s a s' h with ⟨hsame, -⟩ | ⟨b, hb, -, -⟩
  · rw [hsame]
    exact .inl ⟨hc, hvalue⟩
  · rcases notified_step hc hvalue hs.single hb with hstays | ⟨k, eth, rfl, hk⟩
    · exact .inl hstays
    · obtain ⟨c', hc', -, hafter⟩ := Arp.resumeCaller_some hb
      obtain rfl := Option.some.inj (hk.symm.trans hc')
      obtain ⟨p, hp⟩ := Option.isSome_iff_exists.mp hpacket
      refine .inr ?_
      rw [finished, finished, hafter, List.filterMap_append, packet_sentEvent, hp]
      simp

/-- In a round with a packet in hand, a packet gets done. -/
theorem finished_of_round {cs ds es : List NodeAction} {env : ArpTaskEnv}
    (hs : run step (boot net) as = some u) (hc : c ∈ u.arp.callers)
    (hpacket : c.packet.isSome = true)
    (hrun : run step u (cs ++ ds ++ [.arpTask env] ++ es) = some t)
    (hserved : arpQueueSetLength ≤ cs.countP NodeAction.isArpTask)
    (hdated : ∀ a ∈ as ++ cs, a.datedBy now)
    (hlate : now.toNat + arpTimeoutTicks.toNat ≤ env.sweepTick.toNat) (hrest : t.AtRest) :
    u.finished.length < t.finished.length := by
  obtain ⟨w, hw, hes⟩ := run_split hrun
  obtain ⟨v, hv, hlast⟩ := run_snoc hw
  obtain ⟨x, hx, hv⟩ := run_split hv
  obtain ⟨hreach, hexpires⟩ := arp_of_run hs fun a ha => hdated a (List.mem_append_left _ ha)
  have hsweep : Arp.step v.arp (.arpTask env) = some w.arp := by
    obtain ⟨r, hr, rfl⟩ := stepArp_some hlast
    exact hr
  have hvisits : Visits step (fun s => CanResume c s.arp) u (cs ++ ds ++ [.arpTask env]) :=
    (isPart_arp now).released hc (queued_of_reachable hreach hexpires) hx hv hlast hsweep hserved
      (fun a ha => hdated a (List.mem_append_right _ ha)) hlate
  obtain ⟨bs, rest, y, -, hy, hresume, hrest'⟩ := (hvisits.append es).split hrun
  have hyboot : run step (boot net) (as ++ bs) = some y := by rw [run_append, hs]; exact hy
  obtain ⟨hcy, hvalue⟩ := hresume.notified
  -- from there on the task is ready, until it has finished its packet
  have hlasts : Visits step (fun v : Node => u.finished.length < v.finished.length) y rest ∨
      (Consumed t ∧ u.finished.length ≤ t.finished.length ∧ c ∈ t.arp.callers ∧
        t.arp.arp.notificationValue c.request.task ≠ 0) := by
    refine visits_or_of_lasting (R := fun v : Node => Consumed v ∧
      u.finished.length ≤ v.finished.length ∧ c ∈ v.arp.callers ∧
        v.arp.arp.notificationValue c.request.task ≠ 0) ?_
      ⟨consumed_of_run hyboot, (grows_run hy).1.length_le, hcy, hvalue⟩ (guarded_true y rest) hrest'
    rintro v a v' ⟨hconsumed, hle, hcv, hvalue⟩ - h
    rcases notified_or_finished hconsumed hcv hpacket hvalue h with hstays | hmore
    · exact .inr ⟨hconsumed.step h, hle.trans (grows_step h).1.length_le, hstays⟩
    · exact .inl (Nat.lt_of_le_of_lt hle hmore)
  rcases hlasts with hvisits | ⟨hconsumed, -, hct, hvalue⟩
  · obtain ⟨_, _, z, -, -, hlt, hz⟩ := hvisits.split hrest'
    exact Nat.lt_of_lt_of_le hlt (grows_run hz).1.length_le
  · -- the task would not be at rest
    have htask : c.request.task = ipv4TaskHandle := (hconsumed.packets c hct).mp hpacket
    have hwaits : t.ipv4TaskWaits = true :=
      List.any_eq_true.mpr ⟨c, hct, beq_iff_eq.mpr htask⟩
    rw [AtRest, if_pos hwaits, ← htask] at hrest
    exact absurd hrest hvalue

/-- At rest, `ipv4_task` waits with a packet unless everything is done. -/
theorem AtRest.waits (hs : Consumed s) (hrest : s.AtRest)
    (hmore : s.finished.length < s.accepted.length) :
    ∃ c ∈ s.arp.callers, c.packet.isSome = true := by
  by_cases hwaits : s.ipv4TaskWaits
  · obtain ⟨c, hc, htask⟩ := List.any_eq_true.mp hwaits
    exact ⟨c, hc, (hs.packets c hc).mpr (beq_iff_eq.mp htask)⟩
  · have hqueue : s.transmitQueue = [] := by
      rwa [AtRest, if_neg hwaits] at hrest
    have hnone : s.inHand = [] :=
      waitingPackets_eq_nil hs.packets (by simpa [ipv4TaskWaits] using hwaits)
    rw [hs.order, hnone, hqueue] at hmore
    simp at hmore

theorem Rounds.run {n : Nat} (h : Rounds as s n bs t) : Lib.run step s bs = some t := by
  induction h with
  | zero => rfl
  | succ before hrun _ _ _ _ ih => rw [run_append, ih]; exact hrun

theorem Rounds.atRest {n : Nat} (h : Rounds as s n bs t) (hrest : s.AtRest) : t.AtRest := by
  cases h with
  | zero => exact hrest
  | succ _ _ _ _ _ hrest => exact hrest

/-- Each round finishes one packet more, as long as there are any. -/
theorem finished_of_rounds {n : Nat} (hs : run step (boot net) as = some s) (hrest : s.AtRest)
    (h : Rounds as s n bs t) : min (s.finished.length + n) s.accepted.length ≤ t.finished.length := by
  induction h with
  | zero => exact Nat.min_le_left _ _
  | @succ n bs cs ds es u t now env before hrun hserved hdated hlate hrest' ih =>
      have hu : Lib.run step (boot net) (as ++ bs) = some u := by
        rw [run_append, hs]
        exact before.run
      have hgrows := (grows_run hrun).1.length_le
      have haccepted := (grows_run before.run).2.length_le
      by_cases hmore : u.finished.length < u.accepted.length
      · obtain ⟨c, hc, hpacket⟩ := (before.atRest hrest).waits (consumed_of_run hu) hmore
        have hlt := finished_of_round hu hc hpacket hrun hserved hdated hlate hrest'
        omega
      · omega

/-- **The transmit queue drains.** Whatever the network and the other tasks do, `n` rounds finish the
    first `n` packets that are in hand or queued before them, in that order. -/
theorem queue_drains {n : Nat} (hs : run step (boot net) as = some s) (hrest : s.AtRest)
    (h : Rounds as s n bs t) :
    s.finished ++ (s.inHand ++ s.transmitQueue).take n <+: t.finished := by
  have hlength := finished_of_rounds hs hrest h
  have ht : run step (boot net) (as ++ bs) = some t := by
    rw [run_append, hs]
    exact h.run
  have horder := (consumed_of_run hs).order
  have hfirst : s.finished ++ (s.inHand ++ s.transmitQueue).take n <+: t.accepted := by
    refine .trans ?_ (grows_run h.run).2
    rw [horder, List.append_assoc]
    exact (List.prefix_append_right_inj _).mpr (List.take_prefix _ _)
  have hlast : t.finished <+: t.accepted := by
    rw [(consumed_of_run ht).order, List.append_assoc]
    exact List.prefix_append _ _
  refine List.prefix_of_prefix_length_le hfirst hlast ?_
  rw [horder] at hlength
  simp only [List.length_append, List.length_take] at hlength ⊢
  omega

/-- Two datagrams are queued, and `ipv4_task` takes out the first. -/
def queuesTwo : List NodeAction :=
  [.udp (.udpSend ⟨53, 53, ⟨10, 0, 0, 2⟩, none, 0⟩), .udp (.udpSend ⟨53, 54, ⟨10, 0, 0, 3⟩, none, 0⟩),
    .udp (.udpTask ⟨some ⟨1, fun _ => 0⟩, true⟩), .udp (.udpTask ⟨some ⟨1, fun _ => 0⟩, true⟩),
    .ipv4Task (some fun _ => 0)]

/-- An iteration of `arp_task` at the tick `now`. -/
def roundAt (now : BitVec 32) : NodeAction := .arpTask ⟨now, now, fun _ => 0, some fun _ => 0, .ok⟩

/-- Nobody answers, and the first datagram gives way to the second. -/
theorem queue_drains_unanswered :
    ∃ s t, run step (boot (hostOf 1)) queuesTwo = some s ∧ (s.inHand ++ s.transmitQueue).length = 2 ∧
      run step s (List.replicate 8 (roundAt 5) ++ [] ++ [roundAt 105] ++
        [.resume 0 ⟨some fun _ => 0, .ok⟩, .ipv4Task (some fun _ => 0)]) = some t ∧
      s.finished ++ (s.inHand ++ s.transmitQueue).take 1 <+: t.finished := by
  have hfirst : (run step (boot (hostOf 1)) queuesTwo).any (fun s =>
      decide s.AtRest && (s.inHand ++ s.transmitQueue).length == 2) = true := by
    decide +kernel
  have hboth : (run step (boot (hostOf 1)) (queuesTwo ++ (List.replicate 8 (roundAt 5) ++ [] ++
      [roundAt 105] ++ [.resume 0 ⟨some fun _ => 0, .ok⟩, .ipv4Task (some fun _ => 0)]))).any
        (fun s => decide s.AtRest) = true := by
    decide +kernel
  obtain ⟨s, hs, hend⟩ := run_any hfirst
  obtain ⟨hrest, hlength⟩ := Bool.and_eq_true_iff.mp hend
  obtain ⟨t, ht, hrest'⟩ := run_any hboth
  obtain ⟨s', hs', ht⟩ := run_split ht
  obtain rfl := Option.some.inj (hs.symm.trans hs')
  have hdated : ∀ a ∈ queuesTwo ++ [] ++ List.replicate 8 (roundAt 5), NodeAction.datedBy 5 a := by
    decide
  have hround := Rounds.succ .zero ht (by decide) hdated (by decide) (of_decide_eq_true hrest')
  exact ⟨s, t, hs, beq_iff_eq.mp hlength, ht, queue_drains hs (of_decide_eq_true hrest) hround⟩

end Node

end NetStack
