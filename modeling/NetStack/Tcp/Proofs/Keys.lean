import NetStack.Tcp.Proofs.Moves

/-!
# Ports with different keys

`find_port` returns the first port with a key, so that what belongs to a connection reaches it
only if no other live port has its key. Nothing in the code keeps an application from opening
two ports with one key; `keysApart` says which commands and segments do so. Without them a
key names a live port, but for ports that listen.
-/

namespace NetStack.Tcp
open NetStack.Lib

/-- A port other than `i` has the key. -/
def otherHolds (g : Globals) (i : PortIdx) (self other : BitVec 16) (addr : Ipv4Addr) : Bool :=
  (firstIdx fun j => j != i && (g.ports j).hasKey self other addr).isSome

theorem otherHolds_eq_false_iff {g : Globals} {i : PortIdx} {self other : BitVec 16}
    {addr : Ipv4Addr} :
    otherHolds g i self other addr = false ↔
      ∀ j ≠ i, (g.ports j).key ≠ (self, other, addr) := by
  rw [otherHolds, Option.isSome_eq_false_iff, Option.isNone_iff_eq_none, firstIdx_eq_none_iff]
  apply forall_congr'
  intro j
  rw [Bool.and_eq_false_iff, bne_eq_false_iff_eq, hasKey_eq_false_iff, or_iff_not_imp_left]

/-- A request is queued that consumes sequence space of the connection. -/
def consumingQueued (g : Globals) (key : Key) : Bool :=
  g.sendQueue.any fun p => consumesSequence p && p.key == key

theorem consumingQueued_eq_false_iff {g : Globals} {key : Key} :
    consumingQueued g key = false ↔
      ∀ p ∈ g.sendQueue, consumesSequence p = true → p.key ≠ key := by
  simp [consumingQueued, List.any_eq_false]

/-- The step gives no port number 0 and no key that another port has, but to ports that
    listen. -/
def keysApart (s : System) : Action → Bool
  | .tcpTask _ =>
      match (selectInput s.g).2 with
      | .cmd (.createAndConnect self other addr _ _ _) =>
          (findUnusedPort s.g).isNone || (self != 0 && (findPort s.g self other addr).isNone)
      | .cmd (.createAndListen self _ _ _) =>
          (findUnusedPort s.g).isNone ||
            (self != 0 && (firstIdx fun j => (s.g.ports j).hasKey self 0 ipv4AllZeroes &&
              (s.g.ports j).state != .listen).isNone)
      | .cmd (.close self other addr) =>
          match findPort s.g self other addr with
          | some i => !otherHolds s.g i self other addr
          | none => true
      | .segment seg =>
          match checkSegment s.g seg with
          | .accept i =>
              !((s.g.ports i).state == .listen && seg.syn) ||
                !otherHolds s.g i seg.header.dstPort seg.header.srcPort seg.srcIpv4Addr
          | _ => true
      | _ => true
  | _ => true

/-- Keys, states and incarnations fit together, and a key names a live port unless it
    listens. -/
structure KeysOk (g : Globals) : Prop where
  closed : ∀ i, (g.ports i).state = .closed ↔ (g.ports i).selfPortNum = 0
  incarnation : ∀ i, (g.ports i).state = .closed ↔ (g.ports i).incarnation = none
  apart : ∀ i j, i ≠ j → (g.ports i).key = (g.ports j).key → (g.ports i).state ≠ .closed →
    (g.ports i).state = .listen ∧ (g.ports j).state = .listen
  sendQueue : ∀ params ∈ g.sendQueue, params.srcPort ≠ 0
  senders : ∀ t ∈ g.senders, t.params.srcPort ≠ 0
  fresh : ∀ i n, (g.ports i).incarnation = some n → n < g.nextAddr

namespace KeysOk
variable {g g' : Globals}

theorem alike (hsame : Alike g g') (h : KeysOk g) : KeysOk g' := by
  have hself : ∀ i, (g'.ports i).selfPortNum = (g.ports i).selfPortNum :=
    fun i => TcpPort.selfPortNum_of_settled (hsame.settled i)
  refine ⟨fun i => ?_, fun i => ?_, fun i j => ?_, hsame.sendQueue ▸ h.sendQueue, fun t ht => ?_,
    fun i n hn => ?_⟩
  · rw [hsame.state i, hself i]
    exact h.closed i
  · rw [hsame.state i, hsame.incarnation i]
    exact h.incarnation i
  · rw [hsame.key i, hsame.key j, hsame.state i, hsame.state j]
    exact h.apart i j
  · obtain ⟨u, hu, hparams, -⟩ := hsame.senders t ht
    exact hparams ▸ h.senders u hu
  · exact lt_of_lt_of_le (h.fresh i n (hsame.incarnation i ▸ hn)) hsame.nextAddr

/-- A port gets a key that no other live port has, unless both listen. -/
theorem setPort (h : KeysOk g) {i : PortIdx} {p : TcpPort}
    (hclosed : p.state = .closed ↔ p.selfPortNum = 0)
    (hincarnation : p.state = .closed ↔ p.incarnation = none)
    (hfresh : ∀ n, p.incarnation = some n → n < g.nextAddr)
    (hapart : p.state ≠ .closed → ∀ j ≠ i, (g.ports j).key = p.key →
      p.state = .listen ∧ (g.ports j).state = .listen) : KeysOk (g.setPort i p) := by
  refine ⟨fun k => ?_, fun k => ?_, fun k j hkj hkey hopen => ?_, h.sendQueue, h.senders,
    fun k n => ?_⟩
  · by_cases hk : k = i
    · subst hk; simpa using hclosed
    · simpa [hk] using h.closed k
  · by_cases hk : k = i
    · subst hk; simpa using hincarnation
    · simpa [hk] using h.incarnation k
  · by_cases hk : k = i
    · subst hk
      have hj : j ≠ k := Ne.symm hkj
      simp only [Globals.ports_setPort, Function.update_self, Function.update_of_ne hj] at hkey hopen ⊢
      exact hapart hopen j hj hkey.symm
    · by_cases hj : j = i
      · subst hj
        simp only [Globals.ports_setPort, Function.update_self, Function.update_of_ne hk]
          at hkey hopen ⊢
        have hlive : p.state ≠ .closed := by
          intro hp
          have hzero := hclosed.mp hp
          have hself : (g.ports k).selfPortNum = p.selfPortNum := congrArg Prod.fst hkey
          exact hopen ((h.closed k).mpr (hself.trans hzero))
        exact (hapart hlive k hk hkey).symm
      · simp only [Globals.ports_setPort, Function.update_of_ne hk, Function.update_of_ne hj]
          at hkey hopen ⊢
        exact h.apart k j hkj hkey hopen
  · by_cases hk : k = i
    · subst hk; simpa using hfresh n
    · simpa [hk] using h.fresh k n

theorem queueing (h : KeysOk g) {items : List TcpTransmitParams}
    (hitems : ∀ p ∈ items, p.srcPort ≠ 0) : KeysOk (g.queueing items) :=
  ⟨h.closed, h.incarnation, h.apart,
    fun p hp => (List.mem_append.mp hp).elim (h.sendQueue p) (hitems p), h.senders, h.fresh⟩

theorem dequeue (h : KeysOk g) {params : TcpTransmitParams} {rest : List TcpTransmitParams}
    (hqueue : g.sendQueue = params :: rest) : KeysOk { g with sendQueue := rest } :=
  ⟨h.closed, h.incarnation, h.apart,
    fun p hp => h.sendQueue p (hqueue ▸ List.mem_cons_of_mem params hp), h.senders, h.fresh⟩

theorem allocate (h : KeysOk g) : KeysOk { g with nextAddr := g.nextAddr + 1 } :=
  ⟨h.closed, h.incarnation, h.apart, h.sendQueue, h.senders,
    fun i n hn => Nat.lt_succ_of_lt (h.fresh i n hn)⟩

/-- A live port that does not listen is the only one with its key. -/
theorem unique (h : KeysOk g) {i j : PortIdx} (hkey : (g.ports j).key = (g.ports i).key)
    (hopen : (g.ports i).state ≠ .closed) (hlisten : (g.ports i).state ≠ .listen) : j = i := by
  by_contra hne
  exact hlisten (h.apart i j (Ne.symm hne) hkey.symm hopen).1

/-- A request with the key of a live port that does not listen resolves to it. -/
theorem find (h : KeysOk g) {params : TcpTransmitParams} {i : PortIdx}
    (hkey : params.key = (g.ports i).key) (hopen : (g.ports i).state ≠ .closed)
    (hlisten : (g.ports i).state ≠ .listen) : findParamsPort g params = some i :=
  findParamsPort_of_unique hkey.symm fun _ hj hk => hj (h.unique (hk.trans hkey) hopen hlisten)

/-- A port with a port number is live. -/
theorem live (h : KeysOk g) {params : TcpTransmitParams} {i : PortIdx}
    (hkey : params.key = (g.ports i).key) (hsrc : params.srcPort ≠ 0) :
    (g.ports i).state ≠ .closed := fun hclosed =>
  hsrc ((congrArg Prod.fst hkey).trans ((h.closed i).mp hclosed))

/-- What is queued resolves to a live port. -/
theorem live_of_find (h : KeysOk g) {params : TcpTransmitParams} {i : PortIdx}
    (hmem : params ∈ g.sendQueue) (hfind : findParamsPort g params = some i) :
    (g.ports i).state ≠ .closed :=
  h.live (findParamsPort_key hfind).symm (h.sendQueue params hmem)

theorem selfPortNum_ne_zero (h : KeysOk g) {i : PortIdx} (hopen : (g.ports i).state ≠ .closed) :
    (g.ports i).selfPortNum ≠ 0 := fun hzero => hopen ((h.closed i).mpr hzero)

/-- The state of a live port changes, and it stays live and does not listen, nor did it, or it
    is the only one with its key. -/
theorem setState (h : KeysOk g) {i : PortIdx} {p : TcpPort} (hkey : p.key = (g.ports i).key)
    (hinc : p.incarnation = (g.ports i).incarnation) (hopen : (g.ports i).state ≠ .closed)
    (hopen' : p.state ≠ .closed)
    (halone : (g.ports i).state ≠ .listen ∨ ∀ j ≠ i, (g.ports j).key ≠ (g.ports i).key) :
    KeysOk (g.setPort i p) := by
  have hself : p.selfPortNum = (g.ports i).selfPortNum := congrArg Prod.fst hkey
  refine h.setPort ?_ ?_ (fun n hn => h.fresh i n (hinc ▸ hn)) fun _ j hj hkj => ?_
  · exact iff_of_false hopen' (hself ▸ h.selfPortNum_ne_zero hopen)
  · exact iff_of_false hopen' (hinc ▸ (h.incarnation i).not.mp hopen)
  · rw [hkey] at hkj
    rcases halone with hlisten | hother
    · exact absurd (h.unique hkj hopen hlisten) hj
    · exact absurd hkj (hother j hj)

end KeysOk

theorem Accepts.live {s : System} {a : Action} {i : PortIdx} {seg : Segment}
    (h : Accepts s a i seg) : (s.g.ports i).state ≠ .closed := (checkSegment_accept h.verdict).2.1

/-- A segment is for the local port of the port that accepts it. -/
theorem Accepts.selfPortNum {s : System} {a : Action} {i : PortIdx} {seg : Segment}
    (h : Accepts s a i seg) : (s.g.ports i).selfPortNum = seg.header.dstPort := by
  rcases findSegmentPort_some (checkSegment_accept h.verdict).1 with hkey | ⟨-, -, hself, -⟩
  · exact congrArg Prod.fst hkey
  · exact hself

/-- A segment that a port that does not listen accepts has the port's key. -/
theorem Accepts.key {s : System} {a : Action} {i : PortIdx} {seg : Segment}
    (h : Accepts s a i seg) (hlisten : (s.g.ports i).state ≠ .listen) :
    (s.g.ports i).key = seg.key :=
  (findPort_eq_some_iff.mp (findParamsPort_of_segment (checkSegment_accept h.verdict).1 hlisten)).1

/-- The reply to such a segment has the port's key. -/
theorem Accepts.replyKey {s : System} {a : Action} {i : PortIdx} {seg : Segment}
    (h : Accepts s a i seg) (hlisten : (s.g.ports i).state ≠ .listen) (control : BitVec 8) :
    (replyParams (s.g.ports i) seg.srcIpv4Addr control).key = (s.g.ports i).key := by
  have hkey := h.key hlisten
  simp only [TcpPort.key, Segment.key, Prod.mk.injEq] at hkey
  simp [TcpTransmitParams.key, replyParams, TcpPort.key, hkey]

/-- What the reset of a port leaves is a closed port. -/
theorem KeysOk.closePort {g : Globals} (h : KeysOk g) (i : PortIdx) :
    KeysOk (g.setPort i (g.ports i).closed) :=
  h.setPort (by simp [TcpPort.closed]) (by simp [TcpPort.closed, TcpPort.incarnation])
    (by simp [TcpPort.closed, TcpPort.incarnation]) (fun hopen => absurd rfl hopen)

/-- Under the condition every move keeps the keys apart. -/
theorem KeysOk.move {s s' : System} {a : Action} {g g' : Globals} (hs : KeysOk s.g)
    (hc : keysApart s a = true) (hm : Move s a s' g g') (h : KeysOk g) : KeysOk g' := by
  cases hm with
  | stay => exact h
  | @wait t hstage hinc hkey _ =>
      refine ⟨h.closed, h.incarnation, h.apart, h.sendQueue, fun u hu => ?_, h.fresh⟩
      rcases List.mem_append.mp hu with hu | hu
      · exact h.senders u hu
      · obtain rfl := List.mem_singleton.mp hu
        have hopen : (g.ports u.port).state ≠ .closed := by
          rw [ne_eq, h.incarnation, hinc]
          simp
        have hsrc : u.params.srcPort = (g.ports u.port).selfPortNum := congrArg Prod.fst hkey
        exact hsrc ▸ h.selfPortNum_ne_zero hopen
  | @push params hstage hwhy hroom =>
      apply h.queueing
      intro p hp
      obtain rfl := List.mem_singleton.mp hp
      cases hwhy with
      | data ha hfind hinc => exact hs.selfPortNum_ne_zero ((hs.incarnation _).not.mpr hinc)
      | resumed ha ht => exact hs.senders _ (List.mem_of_getElem? ht)
      | ack hacc hacks => exact hs.selfPortNum_ne_zero hacc.live
  | drop _ _ _ hqueue => exact h.dequeue hqueue
  | pass _ _ _ hqueue =>
      have hrest := h.dequeue hqueue
      exact ⟨hrest.closed, hrest.incarnation, hrest.apart, hrest.sendQueue, hrest.senders,
        hrest.fresh⟩
  | @record env params rest i j now t _ _ _ hqueue hfind =>
      have hopen : (g.ports i).state ≠ .closed :=
        h.live_of_find (by simp [hqueue]) hfind
      have hrest : KeysOk (g.setPort i (recordUnacked (g.ports i) j params now)) :=
        h.setPort (h.closed i) (h.incarnation i) (h.fresh i) fun _ k hk hkey =>
          h.apart i k (Ne.symm hk) hkey.symm hopen
      exact ⟨hrest.closed, hrest.incarnation, hrest.apart, (h.dequeue hqueue).sendQueue,
        hrest.senders, hrest.fresh⟩
  | resend =>
      exact ⟨h.closed, h.incarnation, h.apart, h.sendQueue, h.senders, h.fresh⟩
  | reset => exact h.closePort _
  | @takeOver i seg items hacc hstage hstate hsyn hqueues =>
      have hopen : (g.ports i).state ≠ .closed := by simp [hstage.state i, hstate]
      have hself := hacc.selfPortNum
      obtain ⟨⟨⟨env, rfl⟩, hin⟩, hverdict⟩ := hacc
      have hother : ∀ j ≠ i, (s.g.ports j).key ≠ seg.key := by
        simpa [keysApart, hin, hverdict, hstate, hsyn, otherHolds_eq_false_iff, Segment.key] using hc
      have hself' : (g.ports i).selfPortNum = seg.header.dstPort :=
        (TcpPort.selfPortNum_of_settled (hstage.settled i)).trans hself
      refine (h.setPort (p := (g.ports i).takenOver seg) ?_ ?_ (h.fresh i)
        fun _ j hj hkey => ?_).queueing ?_
      · exact iff_of_false (by simp [TcpPort.takenOver]) (h.selfPortNum_ne_zero hopen)
      · exact iff_of_false (by simp [TcpPort.takenOver]) ((h.incarnation i).not.mp hopen)
      · rw [hstage.key j] at hkey
        refine absurd (hkey.trans ?_) (hother j hj)
        simp [TcpPort.key, TcpPort.takenOver, Segment.key, hself']
      · intro p hp
        rw [hqueues.mem hp]
        exact h.selfPortNum_ne_zero hopen
  | @establish i seg hacc hstage hfrom hack =>
      refine h.setState rfl rfl ?_ (by simp) (.inl ?_) <;> rw [hstage.state i] <;>
        rcases hfrom with ⟨hfrom, -⟩ | ⟨hfrom, -⟩ <;> simp [hfrom]
  | @finReply i seg items hacc hstage hstate hfin hqueues =>
      have hopen : (g.ports i).state ≠ .closed := by simp [hstage.state i, hstate]
      refine KeysOk.setState (h.queueing fun p hp => ?_) rfl rfl hopen (by simp) (.inl ?_)
      · rw [hqueues.mem hp]
        exact hs.selfPortNum_ne_zero hacc.live
      · simp [hstage.state i, hstate]
  | @finWait2 i seg hacc hstage hstate =>
      exact h.setState rfl rfl (by simp [hstage.state i, hstate]) (by simp)
        (.inl (by simp [hstage.state i, hstate]))
  | @timeWait i seg now hacc hstage hstate =>
      refine h.setState rfl rfl ?_ (by simp) (.inl ?_) <;> rw [hstage.state i] <;>
        rcases hstate with hstate | hstate <;> simp [hstate]
  | @close self other addr i items hcmd hstage hfind hqueues =>
      have hkey := (findPort_eq_some_iff.mp hfind).1
      have hfind' := findParamsPort_closing hstage hfind
      -- the port has a semaphore, otherwise the command is undefined
      have hinc : (g.ports i).incarnation ≠ none := by
        have hsame : ((g.setState i .finWait1).ports i).incarnation = (g.ports i).incarnation := by
          simp [Globals.setState, TcpPort.incarnation]
        cases hqueues with
        | queued hk _ hinc _ | refused hk hinc _ =>
            obtain rfl := Option.some.inj (hk.symm.trans hfind')
            exact hsame ▸ hinc
        | unfound hnone => simp [hnone] at hfind'
      have hopen : (g.ports i).state ≠ .closed := (h.incarnation i).not.mpr hinc
      obtain ⟨⟨env, rfl⟩, hin⟩ := hcmd
      have hother : ∀ j ≠ i, (s.g.ports j).key ≠ (self, other, addr) := by
        simpa [keysApart, hin, hfind, otherHolds_eq_false_iff] using hc
      refine (h.setState (p := { g.ports i with state := .finWait1 }) rfl rfl hopen (by simp)
        (.inr fun j hj => ?_)).queueing fun p hp => ?_
      · rw [hstage.key j, hstage.key i, hkey]
        exact hother j hj
      · rw [hqueues.mem hp]
        exact hs.selfPortNum_ne_zero (hstage.state i ▸ hopen)
  | @listen self onReceive onConnect onDisconnect i hcmd hstage hunused =>
      obtain ⟨⟨env, rfl⟩, hin⟩ := hcmd
      simp only [keysApart, hin, hunused, Option.isNone_some, Bool.false_or, Bool.and_eq_true,
        bne_iff_ne, Option.isNone_iff_eq_none, firstIdx_eq_none_iff, Bool.and_eq_false_iff,
        hasKey_eq_false_iff, bne_eq_false_iff_eq] at hc
      obtain ⟨hself, hholders⟩ := hc
      refine h.allocate.setPort (iff_of_false (by simp) hself)
        (iff_of_false (by simp) (by simp [newPort, TcpPort.incarnation])) (fun n hn => ?_)
        fun _ j hj hkey => ⟨rfl, ?_⟩
      · obtain rfl : g.nextAddr = n := by
          simpa [newPort, TcpPort.incarnation, CountingSemaphore.create] using hn
        exact Nat.lt_succ_self _
      · have hlisten := (hholders j).resolve_left (not_not.mpr ((hstage.key j).symm.trans hkey))
        exact (hstage.state j).trans hlisten
  | @connect self other addr onReceive onConnect onDisconnect i port items hcmd hstage hunused
      hport hqueues =>
      obtain ⟨⟨env, rfl⟩, hin⟩ := hcmd
      simp only [keysApart, hin, hunused, Option.isNone_some, Bool.false_or, Bool.and_eq_true,
        bne_iff_ne, Option.isNone_iff_eq_none, findPort_eq_none_iff] at hc
      obtain ⟨hself, hunheld⟩ := hc
      subst hport
      refine KeysOk.queueing (h.allocate.setPort (iff_of_false (by simp [connectingPort]) hself)
        (iff_of_false (by simp [connectingPort])
          (by simp [connectingPort, newPort, TcpPort.incarnation]))
        (fun n hn => ?_) fun _ j hj hkey => ?_) fun p hp => ?_
      · obtain rfl : g.nextAddr = n := by
          simpa [connectingPort, newPort, TcpPort.incarnation, CountingSemaphore.create] using hn
        exact Nat.lt_succ_self _
      · exact absurd ((hstage.key j).symm.trans hkey) (hunheld j)
      · rw [hqueues.mem hp]
        exact hself

theorem keysOk_boot (net : NetContext) : KeysOk (boot net).g := by
  refine ⟨?_, ?_, ?_, ?_, ?_, ?_⟩
  · intro i
    simp [boot]
  · intro i
    simp [boot, TcpPort.incarnation]
  · intro i j _ _ hopen
    simp [boot] at hopen
  · simp [boot]
  · simp [boot]
  · intro i n hn
    simp [boot, TcpPort.incarnation] at hn

end NetStack.Tcp
