import NetStack.Tcp.Proofs.Callbacks
import NetStack.Tcp.Proofs.Primitives
import NetStack.Tcp.Proofs.Waiting

/-!
# What a reset does to the tasks that wait for its slots

`tcp_reset_port` gives the slot semaphore as often as slots are taken, deletes it, and leaves
it to each woken task to find its port closed. `stranded` counts the tasks that these gives
would not reach. `Settles g g'`: from `g` to `g'` no task has been added or removed and nothing
more is stranded, one lemma for each primitive operation and for each call that makes others.
-/

namespace NetStack.Tcp
open NetStack.Lib

/-- The task once it has been woken. -/
def Sender.woken (t : Sender) : Sender := { t with ready := true }

/-- The number of tasks that wait on the semaphore `handle` and have not been woken. -/
def waiting (handle : Nat) (ts : List Sender) : Nat :=
  ts.countP fun t => t.handle == handle && !t.ready

theorem waiting_eq_zero_iff {handle : Nat} {ts : List Sender} :
    waiting handle ts = 0 ↔ ∀ t ∈ ts, t.handle = handle → t.ready = true := by
  simp [waiting, List.countP_eq_zero]

@[simp] theorem woken_handle (t : Sender) : t.woken.handle = t.handle := rfl

/-- A give changes who waits, but not who is there. -/
theorem map_woken_wakeSender (handle : Nat) (ts : List Sender) :
    (wakeSender handle ts).map Sender.woken = ts.map Sender.woken := by
  induction ts with
  | nil => rfl
  | cons t ts ih =>
      unfold wakeSender
      split
      · simp [Sender.woken]
      · simp [ih]

/-- One give wakes one task, if one waits. -/
theorem waiting_wakeSender (handle : Nat) (ts : List Sender) :
    waiting handle (wakeSender handle ts) = waiting handle ts - 1 := by
  induction ts with
  | nil => rfl
  | cons t ts ih =>
      unfold wakeSender
      split
      case isTrue h => simp [waiting, h.1, h.2]
      case isFalse h =>
          have hskip : (t.handle == handle && !t.ready) = false := by
            by_cases ht : t.handle = handle <;> simp_all
          have hskip' : ∀ us, waiting handle (t :: us) = waiting handle us := fun us => by
            simp only [waiting, List.countP_cons, hskip]
            simp
          rw [hskip', hskip', ih]

theorem waiting_wakeSender_of_ne {handle handle' : Nat} (h : handle ≠ handle')
    (ts : List Sender) : waiting handle (wakeSender handle' ts) = waiting handle ts := by
  induction ts with
  | nil => rfl
  | cons t ts ih =>
      unfold wakeSender
      split
      case isTrue ht => simp [waiting, ht.1, Ne.symm h]
      case isFalse =>
          simp only [waiting, List.countP_cons] at ih ⊢
          rw [ih]

/-- The gives that a reset of port `i` would make to the semaphore `n`. -/
def pendingGives (g : Globals) (i : PortIdx) (n : Nat) : Nat :=
  if (g.ports i).incarnation = some n then maxUnacked - (g.ports i).slots else 0

/-- The tasks that wait on semaphore `n` of port `i` and would still wait after a reset. -/
def stranded (g : Globals) (i : PortIdx) (n : Nat) : Nat :=
  waiting n g.senders - pendingGives g i n

/-- No port but `i` has the semaphore `n`. -/
def OwnedBy (g : Globals) (i : PortIdx) (n : Nat) : Prop :=
  ∀ j, (g.ports j).incarnation = some n → j = i

/-- From `g` to `g'` the tasks have stayed, a task that was ready is ready, and no more of them
    are stranded on any semaphore. -/
structure Settles (g g' : Globals) : Prop where
  tasks : g'.senders.map Sender.woken = g.senders.map Sender.woken
  nextAddr : g.nextAddr ≤ g'.nextAddr
  stranded : ∀ i n, n < g.nextAddr → OwnedBy g i n →
    OwnedBy g' i n ∧ NetStack.Tcp.stranded g' i n ≤ NetStack.Tcp.stranded g i n

section Settles
variable {g g' g'' : Globals}

theorem Settles.refl (g : Globals) : Settles g g := ⟨rfl, le_rfl, fun _ _ _ h => ⟨h, le_rfl⟩⟩

theorem Settles.trans (h : Settles g g') (h' : Settles g' g'') : Settles g g'' := by
  refine ⟨h'.tasks.trans h.tasks, h.nextAddr.trans h'.nextAddr, ?_⟩
  intro i n hn howned
  obtain ⟨howned', hle⟩ := h.stranded i n hn howned
  obtain ⟨howned'', hle'⟩ := h'.stranded i n (lt_of_lt_of_le hn h.nextAddr) howned'
  exact ⟨howned'', hle'.trans hle⟩

instance : IsPreorder Globals Settles where
  refl := Settles.refl
  trans _ _ _ := Settles.trans

theorem stranded_congr {i : PortIdx} {n : Nat} (hsenders : g'.senders = g.senders)
    (hslots : (g'.ports i).unackedSlots = (g.ports i).unackedSlots) :
    stranded g' i n = stranded g i n := by
  have hinc : (g'.ports i).incarnation = (g.ports i).incarnation := by
    simp only [TcpPort.incarnation, hslots]
  have hcount : (g'.ports i).slots = (g.ports i).slots := by simp only [TcpPort.slots, hslots]
  simp only [stranded, pendingGives, hinc, hcount, hsenders]

/-- The same tasks wait and a reset would make at least as many gives. -/
theorem stranded_le {i : PortIdx} {n : Nat} (hsenders : g'.senders = g.senders)
    (hpending : pendingGives g i n ≤ pendingGives g' i n) : stranded g' i n ≤ stranded g i n := by
  simp only [stranded, hsenders]
  exact Nat.sub_le_sub_left hpending _

theorem OwnedBy.congr {i : PortIdx} {n : Nat} (h : OwnedBy g i n)
    (hinc : ∀ j, (g'.ports j).incarnation = (g.ports j).incarnation) : OwnedBy g' i n :=
  fun j hj => h j ((hinc j).symm.trans hj)

/-- Neither the tasks nor the semaphores change. -/
theorem settles_of_eq (hsenders : g'.senders = g.senders)
    (hslots : ∀ j, (g'.ports j).unackedSlots = (g.ports j).unackedSlots)
    (hnext : g.nextAddr ≤ g'.nextAddr) : Settles g g' := by
  refine ⟨by rw [hsenders], hnext, fun i n _ howned => ⟨howned.congr fun j => ?_, ?_⟩⟩
  · simp only [TcpPort.incarnation, hslots j]
  · exact (stranded_congr hsenders (hslots i)).le

theorem settles_setPort {i : PortIdx} {p : TcpPort}
    (hslots : p.unackedSlots = (g.ports i).unackedSlots) : Settles g (g.setPort i p) := by
  refine settles_of_eq rfl (fun j => ?_) le_rfl
  by_cases hj : j = i
  · subst hj
    simpa using hslots
  · simp [hj]

theorem settles_emit (e : Event) : Settles g (g.emit e) := settles_of_eq rfl (fun _ => rfl) le_rfl

theorem settles_free (data : Option Block) : Settles g (g.free data) :=
  settles_of_eq (by simp) (by simp) (by simp)

theorem settles_warn (w : Warning) : Settles g (g.warn w) := settles_emit _

theorem settles_allocate (g : Globals) : Settles g { g with nextAddr := g.nextAddr + 1 } :=
  settles_of_eq rfl (fun _ => rfl) (Nat.le_succ _)

theorem settles_pushSend (params : TcpTransmitParams) : Settles g (g.pushSend params) :=
  settles_of_eq rfl (fun _ => rfl) le_rfl

/-- A give wakes a task or leaves one give more to be made. -/
theorem settles_giveSlot (g : Globals) (i : PortIdx) : Settles g (giveSlot g i) := by
  have hports := ports_giveSlot g i
  have hinc : ∀ j, ((giveSlot g i).ports j).incarnation = (g.ports j).incarnation := by
    intro j
    by_cases hj : j = i
    · subst hj
      simp [hports]
    · simp [hports, hj]
  cases hsem : (g.ports i).unackedSlots with
  | none =>
      have hsame : giveSlot g i = g := by simp [giveSlot, hsem]
      rw [hsame]
      exact Settles.refl g
  | some sem =>
      by_cases hcount : sem.count < maxUnacked
      case neg =>
          have hsame : giveSlot g i = g := by simp [giveSlot, hsem, hcount]
          rw [hsame]
          exact Settles.refl g
      case pos =>
          have hsenders : (giveSlot g i).senders = wakeSender sem.handle g.senders := by
            simp [giveSlot, hsem, hcount]
          refine ⟨by rw [hsenders, map_woken_wakeSender], by simp, fun j n _ howned =>
            ⟨howned.congr hinc, ?_⟩⟩
          by_cases hn : sem.handle = n
          · -- the give goes to the semaphore in question, which is that of `i`
            subst hn
            have hinc' : (g.ports i).incarnation = some sem.handle := by
              simp [TcpPort.incarnation, hsem]
            obtain rfl := howned i hinc'
            have hslots : ((giveSlot g i).ports i).slots = sem.count + 1 := by
              simp [hports, TcpPort.given, TcpPort.slots, hsem,
                CountingSemaphore.give_count sem hcount]
            have hbefore : (g.ports i).slots = sem.count := by simp [TcpPort.slots, hsem]
            simp only [stranded, pendingGives, hinc, hinc', if_true, hsenders, hslots, hbefore,
              waiting_wakeSender]
            omega
          · have hpending : pendingGives (giveSlot g i) j n = pendingGives g j n := by
              simp only [pendingGives, hinc]
              by_cases hj : j = i
              · subst hj
                have hne : (g.ports j).incarnation ≠ some n := by
                  simpa [TcpPort.incarnation, hsem] using hn
                rw [if_neg hne, if_neg hne]
              · simp [hports, hj]
            simp only [stranded, hpending, hsenders, waiting_wakeSender_of_ne (Ne.symm hn)]
            exact le_rfl

/-- A take leaves one more give to a reset. -/
theorem settles_take {i : PortIdx} {sem sem' : CountingSemaphore maxUnacked}
    (hsem : (g.ports i).unackedSlots = some sem) (htake : sem.take = some sem') :
    Settles g (g.setPort i { g.ports i with unackedSlots := some sem' }) := by
  obtain ⟨hhandle, hcount⟩ := CountingSemaphore.take_some htake
  have hinc : ∀ j, ((g.setPort i { g.ports i with unackedSlots := some sem' }).ports
      j).incarnation = (g.ports j).incarnation := fun j =>
    field_setPort rfl (by simp [TcpPort.incarnation, hsem, hhandle])
  refine ⟨rfl, le_rfl, fun j n _ howned => ⟨howned.congr hinc, ?_⟩⟩
  have hpending : pendingGives g j n ≤
      pendingGives (g.setPort i { g.ports i with unackedSlots := some sem' }) j n := by
    simp only [pendingGives, hinc]
    split
    · by_cases hj : j = i
      · subst hj
        simp [TcpPort.slots, hsem]
        omega
      · simp [hj]
    · exact le_rfl
  exact stranded_le rfl hpending

/-- The semaphore of a port that gives away all it can is deleted. -/
theorem settles_delete {i : PortIdx} (hfull : (g.ports i).unackedSlots.isSome →
    (g.ports i).slots = maxUnacked) :
    Settles g (g.setPort i { g.ports i with unackedSlots := none }) := by
  have hnone : ((g.setPort i { g.ports i with unackedSlots := none }).ports i).incarnation =
      none := by simp [TcpPort.incarnation]
  have hother : ∀ j, j ≠ i →
      (g.setPort i { g.ports i with unackedSlots := none }).ports j = g.ports j :=
    fun j hj => by simp [hj]
  refine ⟨rfl, le_rfl, fun j n _ howned => ⟨fun k hk => ?_, ?_⟩⟩
  · by_cases hki : k = i
    · subst hki
      rw [hnone] at hk
      cases hk
    · exact howned k (by rwa [hother k hki] at hk)
  · have hpending : pendingGives g j n ≤
        pendingGives (g.setPort i { g.ports i with unackedSlots := none }) j n := by
      by_cases hj : j = i
      · subst hj
        simp only [pendingGives]
        split
        case isTrue hinc =>
            have hsome : (g.ports j).unackedSlots.isSome := by
              cases hsem : (g.ports j).unackedSlots with
              | none => simp [TcpPort.incarnation, hsem] at hinc
              | some sem => rfl
            simp [hfull hsome]
        case isFalse => exact Nat.zero_le _
      · simp only [pendingGives, hother j hj]
        exact le_rfl
    exact stranded_le rfl hpending

/-- A call that starts in `g` and settles, whether it returns or waits. -/
abbrev Outcome.Settles {α : Type} (g : Globals) (o : Outcome α) : Prop :=
  o.Ends (NetStack.Tcp.Settles g)

end Settles

/-! ### The functions of `tcp_task` -/

section Functions
variable {g : Globals} {i : PortIdx} {seg : Segment} {params : TcpTransmitParams}

theorem Primitive.settles {a b : Holding} (h : Primitive a b) : Settles a.1 b.1 := by
  cases h with
  | field _ hslots => exact settles_setPort hslots
  | emit _ => exact settles_emit _
  | give i => exact settles_giveSlot _ i
  | take hsem htake => exact settles_take hsem htake
  | delete hfull => exact settles_delete hfull
  | push params => exact settles_pushSend params
  | free data => exact settles_free data
  | clear _ => exact settles_setPort (by rfl)

theorem Primitives.settles {a b : Holding} (h : Primitives a b) : Settles a.1 b.1 := by
  induction h with
  | refl => exact Settles.refl a.1
  | tail _ h ih => exact ih.trans h.settles

theorem settles_enqueueTaken (n : Nat) : Settles g (enqueueTaken g i n params).1 :=
  (primitives_enqueueTaken g i n params).settles

theorem settles_tcpEnqueueReliable {timeout : BitVec 32} :
    (tcpEnqueueReliable g params timeout).Settles g :=
  ends_tcpEnqueueReliable (fun _ _ h => (tcpEnqueueReliable_primitives h).settles) (Settles.refl g)

theorem settles_sendIpv4Packet (t : Transmission) : Settles g (sendIpv4Packet g t).1 := by
  unfold sendIpv4Packet
  split
  · exact settles_emit _
  · exact (settles_emit _).trans (settles_free _)

theorem settles_tcpSendInternal {env : SendEnv} :
    Settles g (tcpSendInternal g params env).1 := by
  unfold tcpSendInternal
  split
  case h_1 => exact (settles_free _).trans (settles_warn _)
  case h_2 heap _ =>
      simp only
      generalize hg₁ : Globals.emit { g with nextAddr := g.nextAddr + 1 } (.malloc g.nextAddr) = g₁
      have halloc : Settles g g₁ := by
        subst hg₁
        exact (settles_allocate g).trans (settles_emit _)
      apply halloc.trans
      unfold sendAllocated
      split
      case h_1 => exact (settles_free _).trans (settles_warn _)
      case h_2 i _ =>
          simp only
          split
          · split
            · exact (settles_free _).trans (settles_warn _)
            · exact (settles_setPort (by rfl)).trans (settles_sendIpv4Packet _)
          · exact settles_sendIpv4Packet _

theorem settles_scanUnacked (now : BitVec 32) (env : UnackedIdx → SendEnv) (p : PortIdx)
    (j : UnackedIdx) (g : Globals) : Settles g (scanUnacked now env p j g) := by
  unfold scanUnacked
  split
  case isFalse => exact Settles.refl g
  case isTrue =>
      unfold retransmit
      simp only
      have hsent : Settles g (tcpSendInternal
          (g.setUnacked p j { (g.ports p).unacked j with sentAt := now })
          (retransmitParams (g.ports p) ((g.ports p).unacked j)) (env j)).1 :=
        (settles_setPort (by rfl)).trans settles_tcpSendInternal
      split_ifs
      · exact hsent
      · exact hsent.trans ((settles_setPort (by rfl)).trans (settles_giveSlot _ p))

theorem settles_scanTimeouts (env : PortIdx → UnackedIdx → SendEnv) :
    Settles g (scanTimeouts g env) := by
  refine forIdx_related Settles.refl Settles.trans (fun p g' => ?_) g
  unfold scanPort
  split_ifs
  · exact Settles.refl g'
  · exact (primitives_tcpResetPort g' p).settles
  · exact forIdx_related Settles.refl Settles.trans (settles_scanUnacked _ _ p) g'

end Functions

/-! ### Semaphores that are gone -/

/-- No port has the semaphore `n`. -/
def Gone (g : Globals) (n : Nat) : Prop := ∀ j, (g.ports j).incarnation ≠ some n

/-- From `g` to `g'` a semaphore that is gone stays so, and nobody waits on it again. -/
structure GoneStay (g g' : Globals) : Prop where
  nextAddr : g.nextAddr ≤ g'.nextAddr
  gone : ∀ n < g.nextAddr, Gone g n → Gone g' n ∧ waiting n g'.senders ≤ waiting n g.senders

section Gone
variable {g g' g'' : Globals}

theorem Gone.congr {n : Nat} (h : Gone g n) (hinc : ∀ j, (g'.ports j).incarnation =
    (g.ports j).incarnation) : Gone g' n := fun j => (hinc j).symm ▸ h j

theorem GoneStay.trans (h : GoneStay g g') (h' : GoneStay g' g'') : GoneStay g g'' := by
  refine ⟨h.nextAddr.trans h'.nextAddr, ?_⟩
  intro n hn hgone
  obtain ⟨hgone', hle⟩ := h.gone n hn hgone
  obtain ⟨hgone'', hle'⟩ := h'.gone n (lt_of_lt_of_le hn h.nextAddr) hgone'
  exact ⟨hgone'', hle'.trans hle⟩

/-- The tasks that wait are fewer, and the ports are the same. -/
theorem goneStay_of_ports (hports : g'.ports = g.ports) (hnext : g.nextAddr ≤ g'.nextAddr)
    (hwait : ∀ n, Gone g n → waiting n g'.senders ≤ waiting n g.senders) : GoneStay g g' :=
  ⟨hnext, fun n _ hgone => ⟨hgone.congr (by simp [hports]), hwait n hgone⟩⟩

theorem stranded_of_gone {n : Nat} (h : Gone g n) (i : PortIdx) :
    stranded g i n = waiting n g.senders := by
  simp [stranded, pendingGives, h i]

theorem Settles.goneStay (h : Settles g g') : GoneStay g g' := by
  refine ⟨h.nextAddr, ?_⟩
  intro n hn hgone
  have howned : ∀ i, OwnedBy g i n := fun i j hj => absurd hj (hgone j)
  have hgone' : Gone g' n := by
    intro j hj
    -- a port other than `j` owns it as well
    obtain ⟨k, hk⟩ : ∃ k : PortIdx, k ≠ j := by
      by_cases hj0 : j = 0
      · exact ⟨1, by simp [hj0]⟩
      · exact ⟨0, Ne.symm hj0⟩
    exact hk ((h.stranded k n hn (howned k)).1 j hj).symm
  have hle := (h.stranded 0 n hn (howned 0)).2
  rw [stranded_of_gone hgone, stranded_of_gone hgone'] at hle
  exact ⟨hgone', hle⟩

/-- A new semaphore has a handle of its own. -/
theorem goneStay_create {i : PortIdx} {p : TcpPort} (hp : p.incarnation = some g.nextAddr) :
    GoneStay g (Globals.setPort { g with nextAddr := g.nextAddr + 1 } i p) := by
  refine ⟨Nat.le_succ _, fun n hn hgone => ⟨fun j hj => ?_, le_rfl⟩⟩
  by_cases hji : j = i
  · subst hji
    rw [Globals.ports_setPort, Function.update_self, hp] at hj
    exact absurd (Option.some.inj hj) (by omega)
  · rw [Globals.ports_setPort, Function.update_of_ne hji] at hj
    exact hgone j hj

end Gone

/-- From `g` to `g'` the tasks have stayed, and so have the semaphores that were gone. -/
structure TasksStay (g g' : Globals) : Prop where
  tasks : g'.senders.map Sender.woken = g.senders.map Sender.woken
  goneStay : GoneStay g g'

theorem Settles.tasksStay {g g' : Globals} (h : Settles g g') : TasksStay g g' :=
  ⟨h.tasks, h.goneStay⟩

theorem TasksStay.settles {g g' g'' : Globals} (h : TasksStay g g') (h' : Settles g' g'') :
    TasksStay g g'' := ⟨h'.tasks.trans h.tasks, h.goneStay.trans h'.goneStay⟩

theorem tasksStay_create {g : Globals} {src : BitVec 16}
    {onReceive onConnect onDisconnect : Option FnPtr} {semaphore : Bool} :
    TasksStay g
      (tcpCreatePortInternal g src onReceive onConnect onDisconnect semaphore).1 := by
  unfold tcpCreatePortInternal
  split
  · simp only
    split
    · exact ⟨rfl, goneStay_create (by simp [newPort, TcpPort.incarnation, CountingSemaphore.create])⟩
    · exact (settles_allocate g).tasksStay
  · exact (Settles.refl g).tasksStay

/-- A command adds no task and wakes nobody. -/
theorem tasksStay_executeCmd {g g' : Globals} {cmd : TcpPortCmd} {semaphore : Bool}
    (h : (executeCmd g cmd semaphore).final? = some g') : TasksStay g g' := by
  cases cmd with
  | createAndConnect self other addr onReceive onConnect onDisconnect =>
      simp only [executeCmd, Outcome.final?_ignore, tcpConnectPortInternal] at h
      split at h
      · exact Option.some.inj h ▸ tasksStay_create
      · have hqueued := settles_tcpEnqueueReliable _ h
        exact tasksStay_create.settles ((settles_setPort (by rfl)).trans hqueued)
  | createAndListen self onReceive onConnect onDisconnect =>
      obtain rfl := Option.some.inj h
      unfold tcpListenPortInternal
      simp only
      split
      · exact tasksStay_create
      · exact tasksStay_create.settles (settles_setPort (by rfl))
  | close self other addr =>
      simp only [executeCmd, Outcome.final?_ignore, tcpClosePortInternal] at h
      split at h
      · exact Option.some.inj h ▸ (Settles.refl g).tasksStay
      · exact ((settles_setPort (by rfl)).trans (settles_tcpEnqueueReliable _ h)).tasksStay

theorem settles_selectInput (g : Globals) : Settles g (selectInput g).1 := by
  unfold selectInput
  repeat' split
  all_goals exact settles_of_eq rfl (fun _ => rfl) le_rfl

/-- A step of `tcp_task` that executes no command settles. -/
theorem task_settles {s s' : System} {env : TaskEnv} (h : step s (.tcpTask env) = some s')
    (hcmd : ∀ cmd, (selectInput s.g).2 ≠ .cmd cmd) : Settles s.g s'.g := by
  have hfinal := step_task_final h
  apply (settles_selectInput s.g).trans
  unfold tcpTaskIteration executeInput at hfinal
  split at hfinal
  case h_1 => exact Option.some.inj hfinal ▸ settles_scanTimeouts _
  case h_2 params _ =>
      rw [← Option.some.inj hfinal]
      unfold executeSend
      simp only
      split
      · exact settles_tcpSendInternal
      · exact settles_tcpSendInternal.trans (settles_warn _)
  case h_3 => exact (primitives_inputTcpInternal _ hfinal).settles
  case h_4 cmd heq => exact absurd heq (hcmd cmd)
  case h_5 => exact Option.some.inj hfinal ▸ Settles.refl _

theorem task_tasksStay {s s' : System} {env : TaskEnv} (h : step s (.tcpTask env) = some s') :
    TasksStay s.g s'.g := by
  by_cases hcmd : ∃ cmd, (selectInput s.g).2 = .cmd cmd
  · obtain ⟨cmd, hcmd⟩ := hcmd
    have hfinal := step_task_final h
    rw [tcpTaskIteration, hcmd] at hfinal
    have hselect := settles_selectInput s.g
    have hexec := tasksStay_executeCmd hfinal
    exact ⟨hexec.tasks.trans hselect.tasks, hselect.goneStay.trans hexec.goneStay⟩
  · exact (task_settles h (not_exists.mp hcmd)).tasksStay

/-! ### Steps -/

/-- The tasks that still wait once some of them are gone are no more. -/
theorem waiting_eraseIdx (n k : Nat) (ts : List Sender) :
    waiting n (ts.eraseIdx k) ≤ waiting n ts :=
  (List.eraseIdx_sublist ts k).countP_le

/-- A task on another semaphore counts for nothing. -/
theorem waiting_append_of_ne {n : Nat} {t : Sender} (h : t.handle ≠ n) (ts : List Sender) :
    waiting n (ts ++ [t]) = waiting n ts := by
  simp [waiting, h]

theorem waiting_set_of_ne {n k : Nat} {ts : List Sender} {t u : Sender} (ht : ts[k]? = some t)
    (hne : t.handle ≠ n) (hu : u.handle = t.handle) :
    waiting n (ts.set k u) = waiting n ts := by
  induction ts generalizing k with
  | nil => rfl
  | cons v ts ih =>
      cases k with
      | zero =>
          obtain rfl := Option.some.inj ht
          simp [waiting, hu, hne]
      | succ k =>
          have hrest := ih (by simpa using ht)
          simp only [waiting, List.set_cons_succ, List.countP_cons] at hrest ⊢
          rw [hrest]

theorem goneStay_dropSender (g : Globals) (k : Nat) : GoneStay g (dropSender g k) :=
  goneStay_of_ports rfl le_rfl fun n _ => waiting_eraseIdx n k g.senders

/-- A task that runs again leaves the other semaphores as they were. -/
theorem goneStay_resumeSender {g g' : Globals} {k : Nat} {deletedTake : Bool}
    (h : resumeSender g k deletedTake = some g') : GoneStay g g' := by
  have hdrop := goneStay_dropSender g k
  unfold resumeSender at h
  split at h
  case h_1 => cases h
  case h_2 t ht =>
      have hstale : (if deletedTake then
          some (enqueueTaken (dropSender g k) t.port t.handle t.params).1
          else some ((dropSender g k).free t.params.data)) = some g' → GoneStay g g' := by
        intro hg'
        split at hg'
        · exact Option.some.inj hg' ▸ hdrop.trans (settles_enqueueTaken t.handle).goneStay
        · exact Option.some.inj hg' ▸ hdrop.trans (settles_free _).goneStay
      split at h
      case isTrue => cases h
      split at h
      case h_1 sem hsem =>
          split at h
          case isTrue hhandle =>
              split at h
              case h_1 sem' htake =>
                  obtain rfl := Option.some.inj h
                  have htaken : Settles (dropSender g k) _ := settles_take hsem htake
                  exact hdrop.trans (htaken.trans (settles_enqueueTaken _)).goneStay
              case h_2 =>
                  obtain rfl := Option.some.inj h
                  refine goneStay_of_ports rfl le_rfl fun n hgone => le_of_eq ?_
                  -- the task that waits again waits on a live semaphore
                  refine waiting_set_of_ne ht ?_ rfl
                  rintro rfl
                  exact hgone t.port (by simp [TcpPort.incarnation, hsem, hhandle])
          case isFalse => exact hstale h
      case h_2 => exact hstale h

theorem goneStay_callTcpSend {g g' : Globals} {inCallback : Bool} {src dst : BitVec 16}
    {addr : Ipv4Addr} {data : Option Memory} {len : BitVec 16} {timeout : BitVec 32}
    (h : (callTcpSend g inCallback src dst addr data len timeout).final? = some g') :
    GoneStay g g' := by
  have hsend : (tcpSend { g with nextAddr := g.nextAddr + 1 } src dst addr
      (data.map fun bytes => (⟨g.nextAddr, bytes⟩ : Block)) len timeout).Settles g := by
    refine Outcome.Ends.after ?_ (settles_allocate g)
    unfold tcpSend
    split
    · exact ends_done (settles_free _)
    · exact settles_tcpEnqueueReliable
  unfold callTcpSend at h
  simp only at h
  split at h
  case h_1 g₁ r heq =>
      obtain rfl := Option.some.inj h
      exact (hsend _ (by rw [heq]; rfl)).goneStay
  case h_2 g₁ i heq =>
      have hstart : GoneStay g g₁ := (hsend _ (by rw [heq]; rfl)).goneStay
      split_ifs at h
      · unfold addSender at h
        split at h
        case h_1 sem hsem =>
            obtain rfl := Option.some.inj h
            refine hstart.trans (goneStay_of_ports rfl le_rfl fun n hgone => le_of_eq ?_)
            refine waiting_append_of_ne (fun hn => ?_) _
            exact hgone i (by simpa [TcpPort.incarnation, hsem] using hn)
        case h_2 => cases h
      · exact Option.some.inj h ▸ hstart
      · exact Option.some.inj h ▸ hstart.trans (settles_free _).goneStay
  case h_3 g₁ r _ heq =>
      obtain rfl := Option.some.inj h
      exact (hsend _ (by rw [heq]; rfl)).goneStay
  case h_4 => cases h

/-- No step makes a task wait again on a semaphore that is gone. -/
theorem step_goneStay {s s' : System} {a : Action} (h : step s a = some s') :
    GoneStay s.g s'.g := by
  have hstay : ∀ g' : Globals, g'.ports = s.g.ports → g'.nextAddr = s.g.nextAddr →
      g'.senders = s.g.senders → GoneStay s.g g' := fun g' hports hnext hsenders =>
    goneStay_of_ports hports hnext.ge fun n _ => (congrArg (waiting n) hsenders).le
  cases a with
  | tcpTask env => exact (task_tasksStay h).goneStay
  | tcpSend inCallback src dst addr data len timeout =>
      exact goneStay_callTcpSend (step_tcpSend_final h)
  | resumeSender k deletedTake =>
      obtain ⟨g', hg', rfl⟩ := Option.map_eq_some_iff.mp h
      exact goneStay_resumeSender hg'
  | timeoutSender k =>
      obtain ⟨g', hg', rfl⟩ := Option.map_eq_some_iff.mp h
      unfold timeoutSender at hg'
      split at hg'
      · cases hg'
      · split_ifs at hg'
        exact Option.some.inj hg' ▸ (goneStay_dropSender s.g k).trans (settles_free _).goneStay
  | tcpConnectPort | tcpListenPort | tcpClosePort =>
      obtain rfl := Option.some.inj h
      simp only [tcpConnectPort, tcpListenPort, tcpClosePort, sendPortCmd]
      split <;> exact hstay _ rfl rfl rfl
  | inputTcp buffer length src malloc =>
      obtain rfl := Option.some.inj h
      simp only [inputTcp]
      split
      · exact hstay _ rfl rfl rfl
      · split <;> exact hstay _ rfl rfl rfl
  | tick =>
      obtain rfl := Option.some.inj h
      exact hstay _ rfl rfl rfl

/-! ### The semaphores of a run -/

section Handles
variable {s s' : System} {a : Action} {g g' : Globals}

/-- An effect that logs a reset ends the incarnation that the port has had since the step
    began. -/
theorem Effect.resetEvent (he : Effect s a s' g g') {i : PortIdx} {n : Nat}
    (hmem : .reset i (some n) ∈ g'.log) :
    .reset i (some n) ∈ g.log ∨ ResetCause s a i ∧ (g.ports i).incarnation = some n ∧
      (s.g.ports i).incarnation = some n ∧ (g'.ports i).incarnation = none := by
  cases he with
  | quiet h => exact .inl ((h.progress i).resets n hmem)
  | appSend _ _ _ _ h | tookOver _ _ _ _ _ h | connecting _ _ _ h | closing _ _ _ h =>
      exact .inl (((h.progress i).resets n hmem :))
  | finReplied _ _ _ _ h => exact .inl ((h.progress i).resets n hmem)
  | resumed _ _ _ _ h => exact .inl ((h.progress i).resets n hmem)
  | @reset _ k hwhy _ hinc _ h =>
      apply ((h.calls i n).2 hmem).imp_right
      rintro ⟨rfl, hlive⟩
      exact ⟨hwhy, hlive, hinc.symm.trans hlive, h.incarnation⟩
  | established => exact .inl ((mem_log_callOnConnect hmem).resolve_right nofun)
  | appWait | strayGive | dropped | touched | gaveUp | acknowledged | ackStuck | finWait2
  | timeWait | listening => exact .inl hmem
  | resumedStale | passed | recorded | retransmitted | released | delivered | disconnected =>
      exact .inl (by simpa using hmem)

/-- The semaphores of the ports: each has one owner and was created before the next address,
    and one that has been deleted in a reset is gone. -/
structure HandlesApart (g : Globals) : Prop where
  fresh : Fresh g
  apart : ∀ i j n, (g.ports i).incarnation = some n → (g.ports j).incarnation = some n → i = j
  gone : ∀ i n, .reset i (some n) ∈ g.log → n < g.nextAddr ∧ Gone g n

theorem Creates.unused {i : PortIdx} (h : Creates s a i) : findUnusedPort s.g = some i := by
  cases h with
  | connect _ hunused | listen _ hunused => exact hunused

theorem HandlesApart.effect (he : Effect s a s' g g') (h : HandlesApart g) : HandlesApart g' := by
  refine ⟨h.fresh.effect he, ?_, ?_⟩
  · intro i j n hi hj
    cases he.lifetime i with
    | ended _ hnone _ => simp [hnone] at hi
    | same hsame =>
        have hold := hsame ▸ hi
        cases he.lifetime j with
        | ended _ hnone _ => simp [hnone] at hj
        | same hsame' => exact h.apart i j n hold (hsame' ▸ hj)
        | began _ _ hnew _ =>
            have := h.fresh i n hold
            have := Option.some.inj (hnew.symm.trans hj)
            omega
    | began hcreates _ hnew _ =>
        cases he.lifetime j with
        | ended _ hnone _ => simp [hnone] at hj
        | same hsame' =>
            have := h.fresh j n (hsame' ▸ hj)
            have := Option.some.inj (hnew.symm.trans hi)
            omega
        | began hcreates' _ _ _ =>
            exact Option.some.inj (hcreates.unused.symm.trans hcreates'.unused)
  · intro i n hmem
    -- no port has the handle after the effect, as none but `i` had it before
    have hgone : n < g.nextAddr ∧ ∀ j, (g.ports j).incarnation = some n →
        j = i ∧ (g'.ports i).incarnation = none := by
      rcases he.resetEvent hmem with hold | ⟨-, hlive, -, hnone⟩
      · obtain ⟨hn, hgone⟩ := h.gone i n hold
        exact ⟨hn, fun j hj => absurd hj (hgone j)⟩
      · exact ⟨h.fresh i n hlive, fun j hj => ⟨h.apart j i n hj hlive, hnone⟩⟩
    refine ⟨lt_of_lt_of_le hgone.1 he.nextAddr, ?_⟩
    intro j hj
    cases he.lifetime j with
    | ended _ hnone _ => simp [hnone] at hj
    | same hsame =>
        obtain ⟨rfl, hnone⟩ := hgone.2 j (hsame ▸ hj)
        simp [hnone] at hj
    | began _ _ hnew _ =>
        have := Option.some.inj (hnew.symm.trans hj)
        omega

theorem handlesApart_boot (net : NetContext) : HandlesApart (boot net).g :=
  ⟨by simp [Fresh, boot, TcpPort.incarnation], by simp [boot, TcpPort.incarnation],
    by simp [boot]⟩

/-- A reset that a step logs has been logged before, or ends the port's incarnation. -/
theorem step_resetEvent (h : step s a = some s') {i : PortIdx} {n : Nat}
    (hmem : .reset i (some n) ∈ s'.g.log) :
    .reset i (some n) ∈ s.g.log ∨ ResetCause s a i ∧ (s.g.ports i).incarnation = some n := by
  refine step_preserves (P := fun g => .reset i (some n) ∈ g.log →
    .reset i (some n) ∈ s.g.log ∨ ResetCause s a i ∧ (s.g.ports i).incarnation = some n)
    (fun g g' he hg hg' => ?_) h .inl hmem
  rcases he.resetEvent hg' with hold | ⟨hwhy, -, hinc, -⟩
  · exact hg hold
  · exact .inr ⟨hwhy, hinc⟩

end Handles

/-! ### The tasks of a port that is reset -/

/-- Processing the input resets port `i`. -/
def resetsPort (g : Globals) (i : PortIdx) : TaskInput → Bool
  | .scan => (g.ports i).selfPortNum != 0 && timeWaitOver g.tick (g.ports i)
  | .segment seg =>
      match checkSegment g seg with
      | .discard _ => false
      | .reset k => k == i
      | .accept k =>
          k == i && (g.ports i).state == .lastAck && seg.ack &&
            seg.header.ackNum == (g.ports i).seqNum
  | .send _ | .cmd _ | .nothing => false

/-- The gives of a reset reach every task that waits on the semaphore of port `i`. -/
def wakesAll (g : Globals) (i : PortIdx) : Bool :=
  match (g.ports i).unackedSlots with
  | some sem => waiting sem.handle g.senders ≤ maxUnacked - sem.count
  | none => true

/-- At a reset no more tasks wait than slots are taken, and no task whose semaphore is gone
    finds another connection in its place with room in `send_queue`. -/
def releasesSafely (s : System) : Action → Bool
  | .tcpTask _ =>
      (List.finRange maxPorts).all fun i =>
        !resetsPort s.g i (selectInput s.g).2 || wakesAll s.g i
  | .resumeSender k true =>
      (s.g.senders[k]?).all fun t =>
        (s.g.ports t.port).incarnation == some t.handle || (s.g.ports t.port).state == .closed ||
          sendQueueLength ≤ s.g.sendQueue.length
  | _ => true

/-- What the call of a task that runs again returns, `none` if it waits again. -/
def senderResult (g : Globals) (k : Nat) (deletedTake : Bool) : Option EspErr :=
  match g.senders[k]? with
  | none => none
  | some t =>
      if t.ready = false then none
      else
        match (g.ports t.port).unackedSlots with
        | some sem =>
            if sem.handle = t.handle then
              match sem.take with
              | some sem' =>
                  let taken := (dropSender g k).setPort t.port
                    { g.ports t.port with unackedSlots := some sem' }
                  some (enqueueTaken taken t.port t.handle t.params).2
              | none => none
            else if deletedTake then
              some (enqueueTaken (dropSender g k) t.port t.handle t.params).2
            else some .timeout
        | none =>
            if deletedTake then
              some (enqueueTaken (dropSender g k) t.port t.handle t.params).2
            else some .timeout

/-- The `k`-th task `t` has run: its call has returned an error and has freed its data, no
    request has been queued, and the other tasks are still there. -/
structure ReturnsError (s : System) (k : Nat) (deletedTake : Bool) (t : Sender) (s' : System) :
    Prop where
  result : ∃ r, senderResult s.g k deletedTake = some r ∧ r ≠ .ok
  freed : s'.g.log = (s.g.free t.params.data).log
  queue : s'.g.sendQueue = s.g.sendQueue
  tasks : s'.g.senders.map Sender.woken = (s.g.senders.eraseIdx k).map Sender.woken

/-- Every task whose semaphore has been deleted in a reset has been woken. -/
def ResetsWake (g : Globals) : Prop :=
  ∀ i n, .reset i (some n) ∈ g.log → ∀ t ∈ g.senders, t.handle = n → t.ready = true

section Releases
variable {s s' : System} {a : Action}

theorem ResetCause.resetsPort {i : PortIdx} (h : ResetCause s a i) :
    resetsPort s.g i (selectInput s.g).2 = true ∧ (∃ env, a = .tcpTask env) ∧
      ∀ cmd, (selectInput s.g).2 ≠ .cmd cmd := by
  cases h with
  | rst seg hin hverdict =>
      obtain ⟨ha, hin⟩ := hin
      exact ⟨by simp [Tcp.resetsPort, hin, hverdict], ha, by simp [hin]⟩
  | lastAck seg hacc hstate hack hnum =>
      obtain ⟨⟨ha, hin⟩, hverdict⟩ := hacc
      exact ⟨by simp [Tcp.resetsPort, hin, hverdict, hstate, hack, hnum], ha, by simp [hin]⟩
  | timeWait hin hover hlive =>
      obtain ⟨ha, hin⟩ := hin
      exact ⟨by simpa [Tcp.resetsPort, hin, hover] using hlive, ha, by simp [hin]⟩

/-- Under the condition nobody is stranded on a semaphore that the step deletes. -/
theorem stranded_of_releasesSafely {i : PortIdx} {n : Nat} (hwhy : ResetCause s a i)
    (hinc : (s.g.ports i).incarnation = some n) (hc : releasesSafely s a = true) :
    stranded s.g i n = 0 := by
  obtain ⟨hresets, ⟨env, rfl⟩, -⟩ := hwhy.resetsPort
  have hall : wakesAll s.g i = true := by
    have := List.all_eq_true.mp hc i (List.mem_finRange i)
    simpa [hresets] using this
  cases hsem : (s.g.ports i).unackedSlots with
  | none => simp [TcpPort.incarnation, hsem] at hinc
  | some sem =>
      obtain rfl : sem.handle = n := by simpa [TcpPort.incarnation, hsem] using hinc
      simp only [wakesAll, hsem, decide_eq_true_eq] at hall
      simp only [stranded, pendingGives, hinc, if_true, TcpPort.slots, hsem, Option.map_some,
        Option.getD_some]
      omega

theorem ResetsWake.step (hh : HandlesApart s.g) (hh' : HandlesApart s'.g) (hs : ResetsWake s.g)
    (hc : releasesSafely s a = true) (h : step s a = some s') : ResetsWake s'.g := by
  intro i n hmem
  rw [← waiting_eq_zero_iff]
  rcases step_resetEvent h hmem with hold | ⟨hwhy, hinc⟩
  · obtain ⟨hn, hgone⟩ := hh.gone i n hold
    have hle := ((step_goneStay h).gone n hn hgone).2
    have hzero : waiting n s.g.senders = 0 := waiting_eq_zero_iff.mpr (hs i n hold)
    omega
  · -- the reset of this step has reached everyone
    obtain ⟨-, ⟨env, rfl⟩, hcmd⟩ := hwhy.resetsPort
    have howned : OwnedBy s.g i n := fun j hj => hh.apart j i n hj hinc
    have hle := ((task_settles h hcmd).stranded i n (hh.fresh i n hinc) howned).2
    rw [stranded_of_gone (hh'.gone i n hmem).2, stranded_of_releasesSafely hwhy hinc hc] at hle
    omega

theorem log_free_congr {g g' : Globals} (h : g'.log = g.log) (data : Option Block) :
    (g'.free data).log = (g.free data).log := by
  cases data <;> simp [Globals.free, h]

/-- What `tcp_enqueue_reliable` does when the port is closed or the queue full. -/
theorem enqueueTaken_refused {g : Globals} {i : PortIdx} (n : Nat) (params : TcpTransmitParams)
    (h : (g.ports i).state = .closed ∨ ¬ g.sendQueue.length < sendQueueLength) :
    (enqueueTaken g i n params).2 ≠ .ok ∧
      (enqueueTaken g i n params).1.log = (g.free params.data).log ∧
      (enqueueTaken g i n params).1.sendQueue = g.sendQueue ∧
      (enqueueTaken g i n params).1.senders.map Sender.woken = g.senders.map Sender.woken := by
  refine ⟨?_, ?_, ?_, (settles_enqueueTaken n).tasks⟩ <;> unfold enqueueTaken <;>
    by_cases hclosed : (g.ports i).state = .closed
  all_goals simp only [hclosed, if_true, if_false, h.resolve_left, not_false_eq_true]
  · decide
  · decide
  · exact log_free_congr (log_giveSlot g i) _
  · simp
  · simp

/-- A task whose semaphore is gone finds its port closed, finds no room, or is told that its
    wait has failed. -/
theorem returnsError_of_gone {k : Nat} {deletedTake : Bool} {t : Sender}
    (ht : s.g.senders[k]? = some t) (hready : t.ready = true) (hgone : Gone s.g t.handle)
    (hc : releasesSafely s (.resumeSender k deletedTake) = true) :
    ∃ s', Tcp.step s (.resumeSender k deletedTake) = some s' ∧
      ReturnsError s k deletedTake t s' := by
  have hlive := hgone t.port
  have hafter : resumeSender s.g k deletedTake =
      (if deletedTake then some (enqueueTaken (dropSender s.g k) t.port t.handle t.params).1
        else some ((dropSender s.g k).free t.params.data)) ∧
      senderResult s.g k deletedTake =
        (if deletedTake then some (enqueueTaken (dropSender s.g k) t.port t.handle t.params).2
          else some .timeout) := by
    unfold resumeSender senderResult
    simp only [ht, hready, Bool.true_eq_false, if_false]
    cases hsem : (s.g.ports t.port).unackedSlots with
    | none => exact ⟨rfl, rfl⟩
    | some sem =>
        have hne : sem.handle ≠ t.handle := by simpa [TcpPort.incarnation, hsem] using hlive
        simp [hne]
  obtain ⟨hresume, hresult⟩ := hafter
  have hlogs := log_free_congr (show (dropSender s.g k).log = s.g.log from rfl) t.params.data
  cases deletedTake with
  | false =>
      refine ⟨{ s with g := (dropSender s.g k).free t.params.data }, ?_, ⟨.timeout, hresult, by
        decide⟩, hlogs, by simp [dropSender], by simp [dropSender]⟩
      simp [Tcp.step, hresume]
  | true =>
      simp only [if_true] at hresume hresult
      have hwhy : (s.g.ports t.port).state = .closed ∨
          ¬ s.g.sendQueue.length < sendQueueLength := by
        simp only [releasesSafely, ht, Option.all_some, Bool.or_eq_true, beq_iff_eq,
          decide_eq_true_eq, hlive, false_or] at hc
        exact hc.imp_right (by omega)
      obtain ⟨hr, hlog, hqueue, htasks⟩ :=
        enqueueTaken_refused (g := dropSender s.g k) t.handle t.params hwhy
      exact ⟨{ s with g := (enqueueTaken (dropSender s.g k) t.port t.handle t.params).1 },
        by simp [Tcp.step, hresume], ⟨_, hresult, hr⟩, hlog.trans hlogs,
        hqueue, htasks⟩

end Releases

/-- As long as the condition holds, every task that waited on the semaphore of a port when it was
    reset has been woken, an iteration of `tcp_task` leaves all tasks in place, and whatever has
    become of the port, such a task can run, gets an error, frees its data and queues
    nothing. -/
theorem reset_releases_senders {net : NetContext} {as : List Action} {s : System}
    (hrun : run step (boot net) as = some s)
    (hg : Guarded step (fun s a => releasesSafely s a = true) (boot net) as) :
    (∀ i n, .reset i (some n) ∈ s.g.log → ∀ t ∈ s.g.senders, t.handle = n → t.ready = true) ∧
      (∀ env s', step s (.tcpTask env) = some s' →
        s'.g.senders.map Sender.woken = s.g.senders.map Sender.woken) ∧
      ∀ i k t deletedTake, s.g.senders[k]? = some t → .reset i (some t.handle) ∈ s.g.log →
        releasesSafely s (.resumeSender k deletedTake) = true →
          ∃ s', step s (.resumeSender k deletedTake) = some s' ∧
            ReturnsError s k deletedTake t s' := by
  have hinv : HandlesApart s.g ∧ ResetsWake s.g := by
    refine run_invariant (P := fun s => HandlesApart s.g ∧ ResetsWake s.g) ?_
      ⟨handlesApart_boot net, by simp [ResetsWake, boot]⟩ hg hrun
    rintro s a s' ⟨hh, hs⟩ hc hstep
    have hh' := step_preserves (fun _ _ he h => HandlesApart.effect he h) hstep hh
    exact ⟨hh', hs.step hh hh' hc hstep⟩
  obtain ⟨hh, hwake⟩ := hinv
  refine ⟨hwake, fun env s' h => (task_tasksStay h).tasks, ?_⟩
  intro i k t deletedTake ht hmem hc
  have hready := hwake i t.handle hmem t (List.mem_of_getElem? ht) rfl
  exact returnsError_of_gone ht hready (hh.gone i t.handle hmem).2 hc

/-- Eight sends on the connection of `handshake` take its slots, `n` more wait for one, the eight
    are transmitted, and the peer resets the connection. -/
def resetWithWaiting (n : Nat) : List Action :=
  handshake peerNet.ip ++ sendsEight ++
    List.replicate n (.tcpSend false 80 5000 peerNet.ip (some fun _ => 8) 1 portMaxDelay) ++
    List.replicate 8 iterates ++ peerResets

/-- The history says that the semaphore of the waiting tasks has been deleted in a reset. -/
def deletedForAll (s : System) : Bool :=
  s.g.senders.all fun t =>
    s.g.log.any fun e =>
      match e with
      | .reset _ m => m == some t.handle
      | _ => false

theorem reset_of_deletedForAll {s : System} (h : deletedForAll s = true) {t : Sender}
    (ht : t ∈ s.g.senders) : ∃ i, .reset i (some t.handle) ∈ s.g.log := by
  obtain ⟨e, he, hmatch⟩ := List.any_eq_true.mp (List.all_eq_true.mp h t ht)
  cases e with
  | reset i m => exact ⟨i, by rwa [← eq_of_beq hmatch]⟩
  | _ => cases hmatch

/-- Two tasks wait when the connection is reset, and both are woken. -/
theorem two_waiting_released :
    ∃ s, run step (boot hostNet) (resetWithWaiting 2) = some s ∧ s.g.senders.length = 2 ∧
      ∀ t ∈ s.g.senders, t.ready = true := by
  obtain ⟨s, hs, hend⟩ := run_any
    (show (run step (boot hostNet) (resetWithWaiting 2)).any (fun s =>
      s.g.senders.length == 2 && deletedForAll s) = true by decide +kernel)
  simp only [Bool.and_eq_true, beq_iff_eq] at hend
  refine ⟨s, hs, hend.1, ?_⟩
  intro t ht
  obtain ⟨i, hmem⟩ := reset_of_deletedForAll hend.2 ht
  exact (reset_releases_senders hs (by decide +kernel)).1 i t.handle hmem t ht rfl

/-- One task waits when the connection is reset, and the application listens again. -/
def resetWithReuse : List Action :=
  resetWithWaiting 1 ++ [.tcpListenPort 80 (some 1) (some 2) (some 3), iterates]

/-- Of nine tasks that wait when the connection is reset one is never woken, and a woken task
    that finds the slot in use again queues its data for the old connection. -/
theorem waiting_task_stranded :
    (∃ s i, run step (boot hostNet) (resetWithWaiting 9) = some s ∧ s.g.senders.length = 9 ∧
      ∃ t ∈ s.g.senders, .reset i (some t.handle) ∈ s.g.log ∧ t.ready = false) ∧
    ∃ s i t, run step (boot hostNet) resetWithReuse = some s ∧ s.g.senders[0]? = some t ∧
      .reset i (some t.handle) ∈ s.g.log ∧ senderResult s.g 0 true = some .ok ∧
      s.g.sendQueue = [] ∧ ∀ s', step s (.resumeSender 0 true) = some s' →
        s'.g.sendQueue.length = 1 := by
  refine ⟨?_, ?_⟩
  · obtain ⟨s, hs, hend⟩ := run_any
      (show (run step (boot hostNet) (resetWithWaiting 9)).any (fun s =>
        s.g.senders.length == 9 && deletedForAll s && s.g.senders.any fun t => !t.ready) = true by
          decide +kernel)
    simp only [Bool.and_eq_true, beq_iff_eq, List.any_eq_true, Bool.not_eq_true'] at hend
    obtain ⟨⟨hlen, hall⟩, t, ht, hready⟩ := hend
    obtain ⟨i, hmem⟩ := reset_of_deletedForAll hall ht
    exact ⟨s, i, hs, hlen, t, ht, hmem, hready⟩
  · obtain ⟨s, hs, hend⟩ := run_any
      (show (run step (boot hostNet) resetWithReuse).any (fun s =>
        deletedForAll s && s.g.senders[0]?.isSome && senderResult s.g 0 true == some .ok &&
          s.g.sendQueue.length == 0 && (step s (.resumeSender 0 true)).all fun s' =>
            s'.g.sendQueue.length == 1) = true by decide +kernel)
    simp only [Bool.and_eq_true, beq_iff_eq, List.length_eq_zero_iff] at hend
    obtain ⟨⟨⟨⟨hall, hsome⟩, hresult⟩, hempty⟩, hqueues⟩ := hend
    obtain ⟨t, ht⟩ := Option.isSome_iff_exists.mp hsome
    obtain ⟨i, hmem⟩ := reset_of_deletedForAll hall (List.mem_of_getElem? ht)
    refine ⟨s, i, t, hs, ht, hmem, hresult, hempty, ?_⟩
    intro s' hs'
    simpa [hs'] using hqueues

end NetStack.Tcp
