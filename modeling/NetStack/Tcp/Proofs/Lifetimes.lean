import NetStack.Tcp.Proofs.Custody

/-!
# The incarnations of a slot

A slot of `ports` serves one connection after another, and the handle of the semaphore that a
command creates tells them apart. An effect keeps the incarnation of a slot, ends it by a
reset, or begins a new one with a handle that has never been used. A task that waits holds the
handle it waits on, and a reliable request is logged with the handle it was queued against.
-/

namespace NetStack.Tcp
open NetStack.Lib

/-- What an effect can do to the incarnation of port `i`. -/
inductive Lifetime (s : System) (a : Action) (i : PortIdx) (g g' : Globals) : Prop
  | same (h : (g'.ports i).incarnation = (g.ports i).incarnation)
  | ended (hwhy : ResetCause s a i) (hnone : (g'.ports i).incarnation = none)
      (hlog : .reset i (g.ports i).incarnation ∈ g'.log)
  | began (hcreates : Creates s a i) (hstage : Stage s.g [] g)
      (hnew : (g'.ports i).incarnation = some g.nextAddr) (hnext : g.nextAddr < g'.nextAddr)

section Lifetime
variable {s s' : System} {a : Action} {g g' : Globals}

/-- A port changes and keeps a part of it: so do all ports. -/
theorem field_setPort {β : Type} {f : TcpPort → β} {k i : PortIdx} {p : TcpPort}
    (hports : g'.ports = Function.update g.ports k p) (hp : f p = f (g.ports k)) :
    f (g'.ports i) = f (g.ports i) := by
  by_cases hi : i = k
  · subst hi
    rw [hports, Function.update_self, hp]
  · rw [hports, Function.update_of_ne hi]

/-- An effect keeps, ends or begins an incarnation. -/
theorem Effect.lifetime (he : Effect s a s' g g') (i : PortIdx) : Lifetime s a i g g' := by
  cases he with
  | quiet hquiet => exact .same (hquiet.incarnation i)
  | appSend _ _ _ _ h => exact .same (h.incarnation i)
  | resumed _ _ _ _ h => exact .same (h.incarnation i)
  | appWait | resumedStale | dropped | passed | retransmitted | delivered | disconnected =>
      exact .same rfl
  | strayGive => exact .same (field_setPort rfl (TcpPort.given_incarnation _))
  | gaveUp | released => exact .same (field_setPort rfl (TcpPort.released_incarnation _ _))
  | recorded | touched | acknowledged | ackStuck | finWait2 | timeWait =>
      exact .same (field_setPort rfl rfl)
  | @reset _ k hwhy _ _ _ h =>
      obtain ⟨unacked, -, hports⟩ := h.ports
      obtain ⟨g₁, -, hlog⟩ := h.log
      by_cases hi : i = k
      · subst hi
        exact .ended hwhy (by simp [hports, TcpPort.incarnation]) (by simp [hlog])
      · exact .same (by simp [hports, hi])
  | tookOver _ _ _ _ _ h => exact .same ((h.incarnation i).trans (field_setPort rfl rfl))
  | established => exact .same (field_setPort (ports_callOnConnect _ _) rfl)
  | finReplied _ _ _ _ h =>
      exact .same (Eq.trans (field_setPort rfl rfl) (h.incarnation i))
  | closing _ _ _ h => exact .same ((h.incarnation i).trans (field_setPort rfl rfl))
  | @listening self onReceive onConnect onDisconnect k hcmd hstage hunused =>
      by_cases hi : i = k
      · subst hi
        exact .began (.listen hcmd hunused) hstage
          (by simp [newPort, TcpPort.incarnation, CountingSemaphore.create])
          (Nat.lt_succ_self g.nextAddr)
      · exact .same (by simp [hi])
  | @connecting _ self other addr onReceive onConnect onDisconnect k hcmd hstage hunused h =>
      by_cases hi : i = k
      · subst hi
        obtain ⟨items, -, hsame⟩ := h.queues
        refine .began (.connect hcmd hunused) hstage ?_ (Nat.lt_of_succ_le hsame.nextAddr)
        rw [h.incarnation i]
        simp [connectingPort, newPort, TcpPort.incarnation, CountingSemaphore.create]
      · exact .same ((h.incarnation i).trans (by simp [hi]))

theorem Effect.nextAddr (he : Effect s a s' g g') : g.nextAddr ≤ g'.nextAddr := by
  obtain ⟨g₁, hm, hsame⟩ := he.move
  refine le_trans ?_ hsame.nextAddr
  cases hm <;> simp [Globals.setState]

/-- Every incarnation was created before the next one. -/
def Fresh (g : Globals) : Prop := ∀ i n, (g.ports i).incarnation = some n → n < g.nextAddr

theorem Fresh.effect (he : Effect s a s' g g') (h : Fresh g) : Fresh g' := by
  intro i n hn
  cases he.lifetime i with
  | same hsame => exact lt_of_lt_of_le (h i n (hsame ▸ hn)) he.nextAddr
  | ended _ hnone _ => simp [hnone] at hn
  | began _ _ hnew hnext =>
      obtain rfl := Option.some.inj (hnew.symm.trans hn)
      exact hnext

theorem fresh_of_run {net : NetContext} {as : List Action} {s : System}
    (hrun : run step (boot net) as = some s) : Fresh s.g := by
  refine run_invariant (P := fun s => Fresh s.g) (C := fun _ _ => True) ?_ ?_
    (guarded_true _ as) hrun
  · exact fun s a s' hs _ hstep => step_preserves (fun _ _ he h => h.effect he) hstep hs
  · simp [Fresh, boot, TcpPort.incarnation]

/-- An incarnation that a port has after a step is the one it had, or a new one. -/
theorem step_incarnation {i : PortIdx} {n : Nat} (h : step s a = some s') (hn : n < s.g.nextAddr)
    (hinc : (s'.g.ports i).incarnation = some n) : (s.g.ports i).incarnation = some n := by
  refine (step_preserves (P := fun g => s.g.nextAddr ≤ g.nextAddr ∧
    ((g.ports i).incarnation = some n → (s.g.ports i).incarnation = some n)) ?_ h
    ⟨le_rfl, id⟩).2 hinc
  rintro g g' he ⟨hle, hback⟩
  refine ⟨hle.trans he.nextAddr, ?_⟩
  intro hg'
  cases he.lifetime i with
  | same hsame => exact hback (hsame ▸ hg')
  | ended _ hnone _ => simp [hnone] at hg'
  | began _ _ hnew _ =>
      obtain rfl := Option.some.inj (hnew.symm.trans hg')
      omega

theorem Taken.queuedEvent {k i : PortIdx} {n : Nat} {params p : TcpTransmitParams}
    (h : Taken g k params g') (hmem : .queued i n p ∈ g'.log) :
    .queued i n p ∈ g.log ∨ p = params ∧ p ∈ g'.sendQueue ∧ (g'.ports i).incarnation = some n := by
  cases h with
  | @queued sem sem' hsem htake _ _ =>
      rcases List.mem_append.mp hmem with hmem | hmem
      · exact .inl hmem
      · obtain ⟨rfl, rfl, rfl⟩ := Event.queued.inj (List.mem_singleton.mp hmem)
        refine .inr ⟨rfl, by simp, ?_⟩
        simp [TcpPort.incarnation, (CountingSemaphore.take_some htake).1]
  | full _ _ _ hquiet => exact .inl ((hquiet.log.mem_iff rfl).mp hmem)
  | lost _ _ _ hquiet => exact .inl ((hquiet.log.mem_iff rfl).mp hmem)

theorem Enqueue.queuedEvent {B : Prop} {i : PortIdx} {n : Nat} {params p : TcpTransmitParams}
    (h : Enqueue B g params g') (hmem : .queued i n p ∈ g'.log) :
    .queued i n p ∈ g.log ∨ p = params ∧ p ∈ g'.sendQueue ∧ (g'.ports i).incarnation = some n := by
  cases h with
  | unfound _ hquiet => exact .inl ((hquiet.log.mem_iff rfl).mp hmem)
  | noSlot _ _ _ _ hquiet => exact .inl ((hquiet.log.mem_iff rfl).mp hmem)
  | taken _ h => exact h.queuedEvent hmem

/-- What an effect that logs a request as queued leaves: the request is in `send_queue`, `tcp_task`
    queues no payloads, and the handle is the live one of the port or that of a task which
    waited. -/
structure Queued (s : System) (a : Action) (i : PortIdx) (n : Nat) (p : TcpTransmitParams)
    (g' : Globals) : Prop where
  mem : p ∈ g'.sendQueue
  data : p.data ≠ none → ∀ env, a ≠ .tcpTask env
  owner : (g'.ports i).incarnation = some n ∨
    ∃ k t, a = .resumeSender k true ∧ s.g.senders[k]? = some t ∧ t.port = i ∧ t.handle = n

theorem Queued.of_enqueued {i : PortIdx} {n : Nat} {p params : TcpTransmitParams}
    (hdata : params.data = none ∨ ∀ env, a ≠ .tcpTask env)
    (h : .queued i n p ∈ g.log ∨
      p = params ∧ p ∈ g'.sendQueue ∧ (g'.ports i).incarnation = some n) :
    .queued i n p ∈ g.log ∨ Queued s a i n p g' := by
  rcases h with h | ⟨rfl, hmem, hinc⟩
  · exact .inl h
  · exact .inr ⟨hmem, fun hsome => hdata.resolve_left hsome, .inl hinc⟩

/-- A request that is logged as queued was so before the effect, or the effect queues it. -/
theorem Effect.queuedEvent (he : Effect s a s' g g') {i : PortIdx} {n : Nat}
    {p : TcpTransmitParams} (hmem : .queued i n p ∈ g'.log) :
    .queued i n p ∈ g.log ∨ Queued s a i n p g' := by
  cases he with
  | quiet hquiet => exact .inl ((hquiet.log.mem_iff rfl).mp hmem)
  | appSend ha _ _ _ h => exact Queued.of_enqueued (.inr (by simp [ha])) (h.queuedEvent hmem)
  | resumed ha _ _ _ h => exact Queued.of_enqueued (.inr (by simp [ha])) (h.queuedEvent hmem)
  | resumedStale ha ht =>
      rcases List.mem_append.mp hmem with hmem | hmem
      · exact .inl hmem
      · obtain ⟨rfl, rfl, rfl⟩ := Event.queued.inj (List.mem_singleton.mp hmem)
        exact .inr ⟨by simp, fun _ => by simp [ha], .inr ⟨_, _, ha, ht, rfl, rfl⟩⟩
  | tookOver _ _ _ _ _ h | connecting _ _ _ h => exact Queued.of_enqueued (.inl rfl) (h.queuedEvent hmem)
  | @finReplied _ k seg _ _ _ _ h =>
      refine Queued.of_enqueued (.inl rfl) ((h.queuedEvent hmem).imp_right fun ⟨hp, hq, hinc⟩ =>
        ⟨hp, hq, Eq.trans (field_setPort rfl rfl) hinc⟩)
  | closing _ _ _ h => exact Queued.of_enqueued (.inl rfl) (h.queuedEvent hmem)
  | reset _ _ _ _ h =>
      obtain ⟨g₁, hquiet, hlog⟩ := h.log
      rw [hlog] at hmem
      exact .inl ((hquiet.mem_iff rfl).mp (by simpa using hmem))
  | established => exact .inl ((mem_log_callOnConnect hmem).resolve_right nofun)
  | appWait | strayGive | dropped | touched | gaveUp | acknowledged | ackStuck | finWait2
  | timeWait | listening => exact .inl hmem
  | passed | recorded | retransmitted | released | delivered | disconnected =>
      exact .inl (by simpa using hmem)

/-- A create command overwrites no slot whose semaphore is live. -/
def overwritesNothing (s : System) : Action → Bool
  | .tcpTask _ =>
      match (selectInput s.g).2 with
      | .cmd (.createAndConnect _ _ _ _ _ _) | .cmd (.createAndListen _ _ _ _) =>
          (findUnusedPort s.g).all fun i => (s.g.ports i).incarnation.isNone
      | _ => true
  | _ => true

theorem Creates.incarnation {i : PortIdx} (h : Creates s a i)
    (hc : overwritesNothing s a = true) : (s.g.ports i).incarnation = none := by
  cases h with
  | connect hcmd hunused | listen hcmd hunused =>
      obtain ⟨⟨env, rfl⟩, hin⟩ := hcmd
      simpa [overwritesNothing, hin, hunused] using hc

/-- The semaphore that a task waits on is that of its port, or has been deleted in a reset. -/
def SendersLive (g : Globals) : Prop :=
  ∀ t ∈ g.senders, (g.ports t.port).incarnation = some t.handle ∨
    .reset t.port (some t.handle) ∈ g.log

/-- An incarnation that is live or has been reset stays live or has been reset. -/
theorem Effect.live_or_reset (he : Effect s a s' g g') (hc : overwritesNothing s a = true)
    {i : PortIdx} {n : Nat}
    (h : (g.ports i).incarnation = some n ∨ .reset i (some n) ∈ g.log) :
    (g'.ports i).incarnation = some n ∨ .reset i (some n) ∈ g'.log := by
  rcases h with hinc | hreset
  · cases he.lifetime i with
    | same hsame => exact .inl (hsame.trans hinc)
    | ended _ _ hlog => exact .inr (hinc ▸ hlog)
    | began hcreates hstage _ _ =>
        have hnone := hcreates.incarnation hc
        rw [← hstage.incarnation i, hinc] at hnone
        cases hnone
  · exact .inr (he.mem_log hreset)

theorem SendersLive.effect (he : Effect s a s' g g') (hc : overwritesNothing s a = true)
    (h : SendersLive g) : SendersLive g' := by
  obtain ⟨g₁, hm, hsame⟩ := he.move
  intro t ht
  obtain ⟨u, hu, -, hport, hhandle⟩ := hsame.senders t ht
  rw [← hport, ← hhandle]
  have hbefore : (g.ports u.port).incarnation = some u.handle ∨
      .reset u.port (some u.handle) ∈ g.log := by
    cases hm with
    | @wait t _ hinc _ _ =>
        rcases List.mem_append.mp hu with hu | hu
        · exact h u hu
        · obtain rfl := List.mem_singleton.mp hu
          exact .inl hinc
    | _ => exact h u hu
  exact he.live_or_reset hc hbefore

end Lifetime

end NetStack.Tcp
