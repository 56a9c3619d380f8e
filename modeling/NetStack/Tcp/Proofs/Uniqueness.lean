import NetStack.Tcp.Proofs.Keys

/-!
# When connection keys stay unique

`find_port` takes the first slot with a key for the only one. No command that gives a slot a key
looks for another slot with it. A SYN that takes over a listening port and a close command that
makes a connection of one do look, with `find_port` itself, so that they keep what a connect or a
listen command may break: no slot before a connection has its key.
-/

namespace NetStack.Tcp
open NetStack.Lib

/-- The slot is in use for a connection. -/
def TcpPort.connects (p : TcpPort) : Bool := p.selfPortNum != 0 && p.state != .listen

/-- No slot before `i` has the key: nothing hides a connection in slot `i` with it. -/
def Unhidden (g : Globals) (i : PortIdx) (key : Key) : Prop := ∀ j < i, (g.ports j).key ≠ key

/-- No connection behind slot `i` has the key: a port in slot `i` with it hides none. -/
def HidesNone (g : Globals) (i : PortIdx) (key : Key) : Prop :=
  ∀ j, i < j → (g.ports j).connects = true → (g.ports j).key ≠ key

instance (g : Globals) (i : PortIdx) (key : Key) : Decidable (Unhidden g i key) :=
  inferInstanceAs (Decidable (∀ j < i, _ ≠ _))

instance (g : Globals) (i : PortIdx) (key : Key) : Decidable (HidesNone g i key) :=
  inferInstanceAs (Decidable (∀ j, i < j → _ = _ → _ ≠ _))

/-- The step opens no connection that a slot before it hides, and no port that hides a connection
    behind it. -/
def keysUniqueKept (s : System) : Action → Bool
  | .tcpTask env =>
      !env.semaphore ||
        match (selectInput s.g).2 with
        | .cmd (.createAndConnect self other addr _ _ _) =>
            (findUnusedPort s.g).all fun i =>
              decide (Unhidden s.g i (self, other, addr) ∧ HidesNone s.g i (self, other, addr))
        | .cmd (.createAndListen self _ _ _) =>
            (findUnusedPort s.g).all fun i => decide (HidesNone s.g i (self, 0, ipv4AllZeroes))
        | _ => true
  | _ => true

/-- Every connection is the first slot with its key. -/
def ConnectionsFound (g : Globals) : Prop :=
  ∀ i, (g.ports i).connects = true → Unhidden g i (g.ports i).key

namespace ConnectionsFound
variable {g g' : Globals}

theorem connects_of_settled {p p' : TcpPort} (h : p.settled = p'.settled) :
    p.connects = p'.connects := TcpPort.settled_field h _ fun _ => rfl

theorem selfPortNum_of_connects {p : TcpPort} (h : p.connects = true) : p.selfPortNum ≠ 0 := by
  rw [TcpPort.connects, Bool.and_eq_true, bne_iff_ne] at h
  exact h.1

theorem alike (hsame : Alike g g') (h : ConnectionsFound g) : ConnectionsFound g' := by
  intro i hi j hj
  rw [hsame.key j, hsame.key i]
  exact h i (connects_of_settled (hsame.settled i) ▸ hi) j hj

/-- A connection hides no other one. -/
theorem hidesNone (h : ConnectionsFound g) (i : PortIdx) : HidesNone g i (g.ports i).key :=
  fun j hj hconnects => (h j hconnects i hj).symm

/-- A slot changes: it hides no connection and, if it holds one, is not hidden. -/
theorem setPort (h : ConnectionsFound g) {k : PortIdx} {p : TcpPort}
    (hports : g'.ports = Function.update g.ports k p)
    (hunhidden : p.connects = true → Unhidden g k p.key) (hhides : HidesNone g k p.key) :
    ConnectionsFound g' := by
  intro i hi j hj
  by_cases hik : i = k
  · subst hik
    simp only [hports, Function.update_self, Function.update_of_ne (ne_of_lt hj)] at hi ⊢
    exact hunhidden hi j hj
  · simp only [hports, Function.update_of_ne hik] at hi ⊢
    by_cases hjk : j = k
    · subst hjk
      rw [Function.update_self]
      exact (hhides i hj hi).symm
    · rw [Function.update_of_ne hjk]
      exact h i hi j hj

/-- A slot keeps its key and becomes no connection. -/
theorem setPort_same (h : ConnectionsFound g) {k : PortIdx} {p : TcpPort}
    (hports : g'.ports = Function.update g.ports k p) (hkey : p.key = (g.ports k).key)
    (hconnects : p.connects = true → (g.ports k).connects = true) : ConnectionsFound g' := by
  refine h.setPort hports (fun hp => ?_) ?_ <;> rw [hkey]
  · exact h k (hconnects hp)
  · exact h.hidesNone k

/-- A slot is given up. -/
theorem setPort_unused (h : ConnectionsFound g) {k : PortIdx} {p : TcpPort}
    (hports : g'.ports = Function.update g.ports k p) (hp : p.selfPortNum = 0) :
    ConnectionsFound g' := by
  refine h.setPort hports (fun hconnects => absurd hp (selfPortNum_of_connects hconnects)) ?_
  intro j _ hconnects hkey
  exact selfPortNum_of_connects hconnects ((congrArg Prod.fst hkey).trans hp)

/-- Two connections have different keys. -/
theorem key_ne (h : ConnectionsFound g) {i j : PortIdx} (hij : i ≠ j)
    (hi : (g.ports i).connects = true) (hj : (g.ports j).connects = true) :
    (g.ports i).key ≠ (g.ports j).key := by
  rcases lt_or_gt_of_ne hij with hlt | hgt
  · exact h j hj i hlt
  · exact (h i hi j hgt).symm

/-- `find_port` finds a connection by its key. -/
theorem findPort (h : ConnectionsFound g) {i : PortIdx} (hi : (g.ports i).connects = true) :
    NetStack.Tcp.findPort g (g.ports i).selfPortNum (g.ports i).otherPortNum
      (g.ports i).otherIpv4Addr = some i :=
  findPort_eq_some_iff.mpr ⟨rfl, h i hi⟩

end ConnectionsFound

section Step
variable {s s' : System} {a : Action} {g g' : Globals}

theorem Stage.unhidden {acks : List TcpTransmitParams} (hstage : Stage s.g acks g) {i : PortIdx}
    {key : Key} (h : Unhidden s.g i key) : Unhidden g i key := fun j hj => by
  rw [hstage.key j]
  exact h j hj

theorem Stage.hidesNone {acks : List TcpTransmitParams} (hstage : Stage s.g acks g) {i : PortIdx}
    {key : Key} (h : HidesNone s.g i key) : HidesNone g i key := fun j hj hconnects => by
  rw [hstage.key j]
  exact h j hj (ConnectionsFound.connects_of_settled (hstage.settled j) ▸ hconnects)

/-- A segment that takes over a listening port gives it a key that no slot before it has and that
    hides no connection behind it. -/
theorem ConnectionsFound.takenOver (hs : ConnectionsFound s.g) {seg : Segment} {i : PortIdx}
    (h : findSegmentPort s.g seg = some i) :
    Unhidden s.g i seg.key ∧ HidesNone s.g i seg.key := by
  obtain ⟨hfirst, hkey | hnone⟩ := findSegmentPort_first h
  · exact ⟨hfirst, hkey ▸ hs.hidesNone i⟩
  · exact ⟨hfirst, fun j _ _ => hnone j⟩

/-- Under the condition every move keeps the connections found. -/
theorem ConnectionsFound.move (hs : ConnectionsFound s.g) (hc : keysUniqueKept s a = true)
    (hmade : ¬ SemaphoreFails s a) (hm : Move s a s' g g') (h : ConnectionsFound g) :
    ConnectionsFound g' := by
  cases hm with
  | stay | wait | push | drop | pass | resend => exact h
  | record => exact h.setPort_same rfl rfl fun hp => hp
  | @reset i => exact h.setPort_unused (k := i) rfl rfl
  | @takeOver i seg items hacc hstage hstate hsyn _ =>
      have hself : (g.ports i).selfPortNum = seg.header.dstPort :=
        (TcpPort.selfPortNum_of_settled (hstage.settled i)).trans hacc.selfPortNum
      have hkey : ((g.ports i).takenOver seg).key = seg.key := by
        simp [TcpPort.key, TcpPort.takenOver, Segment.key, hself]
      obtain ⟨hunhidden, hhides⟩ := hs.takenOver (checkSegment_accept hacc.verdict).1
      refine h.setPort (k := i) (p := (g.ports i).takenOver seg) rfl (fun _ => ?_) ?_ <;> rw [hkey]
      · exact hstage.unhidden hunhidden
      · exact hstage.hidesNone hhides
  | @establish i seg hacc hstage hfrom hack =>
      refine h.setPort_same (k := i) rfl rfl ?_
      intro hp
      rcases hfrom with ⟨hfrom, -⟩ | ⟨hfrom, -⟩ <;>
        simpa [TcpPort.connects, hstage.state i, hfrom] using hp
  | @finReply i seg items hacc hstage hstate =>
      refine h.setPort_same (k := i) rfl rfl ?_
      intro hp
      simpa [TcpPort.connects, hstage.state i, hstate] using hp
  | @finWait2 i seg hacc hstage hstate =>
      refine h.setPort_same (k := i) rfl rfl ?_
      intro hp
      simpa [TcpPort.connects, hstage.state i, hstate] using hp
  | @timeWait i seg now hacc hstage hstate =>
      refine h.setPort_same (k := i) rfl rfl ?_
      intro hp
      rcases hstate with hstate | hstate <;>
        simpa [TcpPort.connects, hstage.state i, hstate] using hp
  | @close self other addr i items hcmd hstage hfind _ =>
      -- a listening port that becomes a connection is the first slot with its key
      obtain ⟨hkey, hfirst⟩ := findPort_eq_some_iff.mp hfind
      have hkey' : (g.ports i).key = (self, other, addr) := (hstage.key i).trans hkey
      refine h.setPort (k := i) (p := { g.ports i with state := .finWait1 }) rfl (fun _ => ?_)
        (h.hidesNone i)
      exact hstage.unhidden (hkey' ▸ hfirst)
  | @listen self onReceive onConnect onDisconnect i hcmd hstage hunused =>
      obtain ⟨⟨env, rfl⟩, hin⟩ := hcmd
      have hsem : env.semaphore = true := semaphore_of_not_fails hmade hin rfl
      have hhides : HidesNone s.g i (self, 0, ipv4AllZeroes) := by
        simpa [keysUniqueKept, hin, hunused, hsem] using hc
      exact h.setPort (k := i)
        (p := { newPort self g.nextAddr onReceive onConnect onDisconnect with state := .listen })
        rfl (fun hp => by simp [TcpPort.connects] at hp) (hstage.hidesNone hhides)
  | @connect self other addr onReceive onConnect onDisconnect i port items hcmd hstage hunused
      hport _ =>
      subst hport
      obtain ⟨⟨env, rfl⟩, hin⟩ := hcmd
      have hsem : env.semaphore = true := semaphore_of_not_fails hmade hin rfl
      obtain ⟨hunhidden, hhides⟩ :
          Unhidden s.g i (self, other, addr) ∧ HidesNone s.g i (self, other, addr) := by
        simpa [keysUniqueKept, hin, hunused, hsem] using hc
      exact h.setPort (k := i) (p := connectingPort
        (newPort self g.nextAddr onReceive onConnect onDisconnect) other addr) rfl
        (fun _ => hstage.unhidden hunhidden) (hstage.hidesNone hhides)

theorem ConnectionsFound.step (hs : ConnectionsFound s.g) (hc : keysUniqueKept s a = true)
    (h : step s a = some s') : ConnectionsFound s'.g := by
  by_cases hmade : SemaphoreFails s a
  · exact hs.alike (alike_of_semaphoreFails h hmade)
  · exact step_moves (fun hsame hg => hg.alike hsame) (fun _ _ hm hg => hs.move hc hmade hm hg) h hs

end Step

/-- As long as no connect command opens a connection that a slot before it hides and no connect or
    listen command hides a connection behind its slot, two connections have different keys, and
    `find_port` finds each by its key. -/
theorem connection_keys_unique {net : NetContext} {as : List Action} {s : System}
    (hrun : run step (boot net) as = some s)
    (hg : Guarded step (fun s a => keysUniqueKept s a = true) (boot net) as) :
    (∀ i j, i ≠ j → (s.g.ports i).selfPortNum ≠ 0 → (s.g.ports j).selfPortNum ≠ 0 →
      (s.g.ports i).state ≠ .listen → (s.g.ports j).state ≠ .listen →
        (s.g.ports i).key ≠ (s.g.ports j).key) ∧
      ∀ i, (s.g.ports i).selfPortNum ≠ 0 → (s.g.ports i).state ≠ .listen →
        findPort s.g (s.g.ports i).selfPortNum (s.g.ports i).otherPortNum
          (s.g.ports i).otherIpv4Addr = some i := by
  have hfound : ConnectionsFound s.g := by
    refine run_invariant (P := fun s => ConnectionsFound s.g)
      (fun s a s' hs hc hstep => hs.step hc hstep) ?_ hg hrun
    intro i hi
    simp [boot, TcpPort.connects] at hi
  have hconnects : ∀ i, (s.g.ports i).selfPortNum ≠ 0 → (s.g.ports i).state ≠ .listen →
      (s.g.ports i).connects = true := fun i hself hlisten => by
    rw [TcpPort.connects, Bool.and_eq_true, bne_iff_ne, bne_iff_ne]
    exact ⟨hself, hlisten⟩
  exact ⟨fun i j hij hi hj hli hlj => hfound.key_ne hij (hconnects i hi hli) (hconnects j hj hlj),
    fun i hi hli => hfound.findPort (hconnects i hi hli)⟩

/-- The application opens two connections to one port of the peer, from the given ports. -/
def connectsTwice (self self' : BitVec 16) : List Action :=
  [.tcpConnectPort self 80 peerNet.ip none none none, iterates, iterates,
    .tcpConnectPort self' 80 peerNet.ip none none none, iterates]

/-- From different local ports the connections have different keys. -/
theorem keys_unique_of_two_ports :
    ∃ s, run step (boot hostNet) (connectsTwice 4000 4001) = some s ∧
      (s.g.ports 0).state = .synSent ∧ (s.g.ports 1).state = .synSent ∧
      (s.g.ports 0).key ≠ (s.g.ports 1).key := by
  obtain ⟨s, hs, hend⟩ := run_any
    (show (run step (boot hostNet) (connectsTwice 4000 4001)).any (fun s =>
      (s.g.ports 0).state == .synSent && (s.g.ports 1).state == .synSent &&
        ((s.g.ports 0).selfPortNum != 0 && (s.g.ports 1).selfPortNum != 0)) = true by
      decide +kernel)
  simp only [Bool.and_eq_true, beq_iff_eq, bne_iff_ne] at hend
  obtain ⟨⟨h0, h1⟩, hself0, hself1⟩ := hend
  exact ⟨s, hs, h0, h1, (connection_keys_unique hs (by decide +kernel)).1 0 1 (by decide) hself0
    hself1 (by simp [h0]) (by simp [h1])⟩

/-- From one local port both get the same key. -/
theorem two_connections_share_key :
    ∃ s, run step (boot hostNet) (connectsTwice 4000 4000) = some s ∧
      (s.g.ports 0).selfPortNum ≠ 0 ∧ (s.g.ports 1).selfPortNum ≠ 0 ∧
      (s.g.ports 0).state ≠ .listen ∧ (s.g.ports 1).state ≠ .listen ∧
      (s.g.ports 0).key = (s.g.ports 1).key := by
  obtain ⟨s, hs, hend⟩ := run_any
    (show (run step (boot hostNet) (connectsTwice 4000 4000)).any (fun s =>
      (s.g.ports 0).selfPortNum != 0 && (s.g.ports 1).selfPortNum != 0 &&
        ((s.g.ports 0).state != .listen && (s.g.ports 1).state != .listen &&
          (s.g.ports 0).key == (s.g.ports 1).key)) = true by decide +kernel)
  simp only [Bool.and_eq_true, beq_iff_eq, bne_iff_ne] at hend
  obtain ⟨⟨h0, h1⟩, ⟨hl0, hl1⟩, hkey⟩ := hend
  exact ⟨s, hs, h0, h1, hl0, hl1, hkey⟩

end NetStack.Tcp
