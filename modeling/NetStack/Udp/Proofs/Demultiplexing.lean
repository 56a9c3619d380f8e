import NetStack.Udp.Encoding
import NetStack.Udp.System

/-!
# Which port a datagram is for

The ports that `udp_task` has stored fill the table from its beginning. `udp_input` looks a
datagram up by the low byte of its destination, so that it reaches the port it is for exactly if
that is a number of one byte, and misses the table exactly if its low byte does.
-/

namespace NetStack.Udp
open NetStack.Lib NetStack.Utility

/-- What `find_port` makes of a port number. -/
def lowByte (portNumber : BitVec 16) : BitVec 16 := (portNumber.setWidth 8).setWidth 16

theorem lowByte_eq_iff {portNumber : BitVec 16} :
    lowByte portNumber = portNumber ↔ portNumber.toNat < 256 := by
  have hbound := portNumber.isLt
  rw [← BitVec.toNat_inj, lowByte, BitVec.toNat_setWidth, BitVec.toNat_setWidth]
  omega

/-- The stored ports fill the table from its beginning. -/
structure Fills (stored : List UdpPort) (ports : PortIdx → UdpPort) : Prop where
  length : stored.length ≤ 8
  entry : ∀ i, ports i = stored.getD i {}

/-- What is known of the component: nobody registers a `NULL` callback, and the table holds the
    stored ports as long as their numbers tell a used entry from a free one. -/
structure Registered (s : System) : Prop where
  queued : ∀ p ∈ s.g.portQueue, p.callback ≠ none
  stored : ∀ p ∈ s.stored, p.callback ≠ none
  table : (∀ p ∈ s.stored, p.portNumber ≠ 0) → Fills s.stored s.g.ports

variable {s s' : System} {selfNet : NetContext} {stored : List UdpPort}

/-- The first free entry is the one behind the stored ports. -/
theorem fills_concat {g g' : Globals} {port : UdpPort} (h : Fills stored g.ports)
    (hused : ∀ p ∈ stored, p.portNumber ≠ 0) (halloc : allocatePort g port = (g', .ok)) :
    Fills (stored ++ [port]) g'.ports := by
  unfold allocatePort at halloc
  split at halloc
  case h_2 => cases halloc
  case h_1 i hi =>
      cases halloc
      have hfree : (g.ports i).portNumber = 0 := beq_iff_eq.mp (firstIdx_some hi)
      have hend : i.val = stored.length := by
        rcases Nat.lt_trichotomy i.val stored.length with hlt | heq | hgt
        · rw [h.entry, List.getD_eq_getElem?_getD, List.getElem?_eq_getElem hlt] at hfree
          exact absurd hfree (hused _ (List.getElem_mem hlt))
        · exact heq
        · -- the entry there is free already
          have hentry := h.entry ⟨stored.length, by omega⟩
          rw [List.getD_eq_getElem?_getD, List.getElem?_eq_none (Nat.le_refl _)] at hentry
          have hnot := firstIdx_lt hi (j := ⟨stored.length, by omega⟩) hgt
          rw [hentry] at hnot
          exact absurd hnot (by decide)
      constructor
      · rw [List.length_append, ← hend]
        exact i.isLt
      · intro j
        dsimp only
        by_cases hj : j = i
        · subst hj
          simp [List.getD_eq_getElem?_getD, hend]
        · have hval : j.val ≠ stored.length := fun hjl => hj (Fin.ext (hjl.trans hend.symm))
          rw [Function.update_of_ne hj, h.entry, List.getD_eq_getElem?_getD,
            List.getD_eq_getElem?_getD]
          rcases Nat.lt_or_ge j.val stored.length with hlt | hge
          · rw [List.getElem?_append_left hlt]
          · rw [List.getElem?_eq_none hge, List.getElem?_eq_none (by simp; omega)]

theorem registered_boot (selfNet : NetContext) : Registered (boot selfNet) :=
  ⟨fun _ hp => absurd hp List.not_mem_nil, fun _ hp => absurd hp List.not_mem_nil,
    fun _ => ⟨Nat.zero_le 8, fun _ => rfl⟩⟩

theorem registered_handleSelected {handle : QueueHandle} {env : SendEnv} (h : Registered s) :
    Registered (handleSelected s handle env) := by
  unfold handleSelected
  split
  · split
    case h_1 => exact h
    case h_2 port queue hqueue =>
        have hport : port.callback ≠ none := h.queued port (hqueue ▸ List.mem_cons_self)
        have hrest : ∀ p ∈ queue, p.callback ≠ none := fun p hp =>
          h.queued p (hqueue ▸ List.mem_cons_of_mem port hp)
        dsimp only
        cases halloc : allocatePort { s.g with portQueue := queue } port with
        | mk g' result =>
            have hkeep : g'.portQueue = queue := by
              unfold allocatePort at halloc
              split at halloc <;> cases halloc <;> rfl
            have hqueued : ∀ p ∈ g'.portQueue, p.callback ≠ none := fun p hp =>
              hrest p (hkeep ▸ hp)
            dsimp only
            split
            case isTrue hok =>
                refine ⟨hqueued, ?_, ?_⟩
                · intro p hp
                  rcases List.mem_append.mp hp with hp | hp
                  · exact h.stored p hp
                  · exact List.mem_singleton.mp hp ▸ hport
                · intro hused
                  have hbefore : ∀ p ∈ s.stored, p.portNumber ≠ 0 := fun p hp =>
                    hused p (List.mem_append_left _ hp)
                  refine fills_concat (g := { s.g with portQueue := queue }) ?_ hbefore (hok ▸ halloc)
                  exact h.table hbefore
            case isFalse hfull =>
                rw [List.append_nil]
                refine ⟨hqueued, h.stored, ?_⟩
                intro hused
                have hsame : g'.ports = s.g.ports := by
                  unfold allocatePort at halloc
                  split at halloc
                  · cases halloc
                    exact absurd rfl hfull
                  · cases halloc
                    rfl
                exact hsame ▸ h.table hused
  · split
    · exact h
    · exact ⟨h.queued, h.stored, h.table⟩

theorem registered_step {a : Action} (h : Registered s) (hs' : step s a = some s') :
    Registered s' := by
  cases a with
  | udpTask env =>
      simp only [step, udpTaskIteration] at hs'
      split at hs'
      · cases hs'
      · obtain rfl := Option.some.inj hs'
        exact registered_handleSelected ⟨h.queued, h.stored, h.table⟩
  | udpCreatePort port =>
      obtain rfl := Option.some.inj hs'
      unfold udpCreatePort
      split
      case isTrue => exact h
      case isFalse hcallback =>
          split
          case h_1 queue hqueue =>
              obtain ⟨-, rfl⟩ := queueSend_eq_some_iff.mp hqueue
              refine ⟨fun p hp => ?_, h.stored, h.table⟩
              rcases List.mem_append.mp hp with hp | hp
              · exact h.queued p hp
              · exact List.mem_singleton.mp hp ▸ hcallback
          case h_2 => exact h
  | udpSend params =>
      obtain rfl := Option.some.inj hs'
      unfold udpSend
      split
      · exact ⟨h.queued, h.stored, h.table⟩
      · exact h

theorem registered_of_reachable (hreach : Reachable step (boot selfNet) s) : Registered s :=
  hreach.invariant (registered_boot selfNet) fun _ _ _ h hs' => registered_step h hs'

/-! ### A lookup in the table -/

variable {g : Globals}

/-- An entry of the table is a stored port or a free one. -/
theorem Fills.cases (h : Fills stored g.ports) (i : PortIdx) :
    g.ports i ∈ stored ∨ stored.length ≤ i.val ∧ g.ports i = {} := by
  rw [h.entry i, List.getD_eq_getElem?_getD]
  rcases Nat.lt_or_ge i.val stored.length with hlt | hge
  · rw [List.getElem?_eq_getElem hlt]
    exact .inl (List.getElem_mem hlt)
  · rw [List.getElem?_eq_none hge]
    exact .inr ⟨hge, rfl⟩

/-- Every stored port is in the table. -/
theorem Fills.mem (h : Fills stored g.ports) {p : UdpPort} (hp : p ∈ stored) :
    ∃ i, g.ports i = p := by
  obtain ⟨k, hk, rfl⟩ := List.getElem_of_mem hp
  have hlength := h.length
  refine ⟨⟨k, by omega⟩, ?_⟩
  rw [h.entry, List.getD_eq_getElem?_getD, List.getElem?_eq_getElem hk]
  rfl

theorem findPort_some {portNumber : BitVec 16} {i : PortIdx}
    (h : findPort g (portNumber.setWidth 8) = some i) :
    (g.ports i).portNumber = lowByte portNumber :=
  beq_iff_eq.mp (firstIdx_some h)

theorem findPort_none {portNumber : BitVec 16} (h : findPort g (portNumber.setWidth 8) = none)
    (i : PortIdx) : (g.ports i).portNumber ≠ lowByte portNumber :=
  beq_eq_false_iff_ne.mp (firstIdx_eq_none_iff.mp h i)

/-- A lookup misses exactly if the low byte is no number in the table, free entries included. -/
theorem findPort_eq_none_iff (h : Fills stored g.ports) {portNumber : BitVec 16} :
    findPort g (portNumber.setWidth 8) = none ↔
      (∀ p ∈ stored, p.portNumber ≠ lowByte portNumber) ∧
        (lowByte portNumber = 0 → stored.length = 8) := by
  constructor
  · refine fun hnone => ⟨fun p hp => ?_, fun hzero => ?_⟩
    · obtain ⟨i, rfl⟩ := h.mem hp
      exact findPort_none hnone i
    · by_contra hroom
      have hlength := h.length
      have hfree := h.entry ⟨stored.length, by omega⟩
      rw [List.getD_eq_getElem?_getD, List.getElem?_eq_none (Nat.le_refl _)] at hfree
      apply findPort_none hnone ⟨stored.length, by omega⟩
      rw [hfree, hzero]
      rfl
  · rintro ⟨hother, hfull⟩
    cases hfind : findPort g (portNumber.setWidth 8) with
    | none => rfl
    | some i =>
        have hnumber := findPort_some hfind
        rcases h.cases i with hin | ⟨hlength, hfree⟩
        · exact absurd hnumber (hother _ hin)
        · rw [hfree] at hnumber
          have hlast := i.isLt
          have := hfull hnumber.symm
          omega

/-! ### A datagram -/

/-- What `udp_input` is to do with a datagram: the callback of the port it is for gets the payload,
    its length and the address of the sender, and without such a port nothing is called. -/
structure Delivers (stored : List UdpPort) (params : UdpTransmitParams) (srcAddr : Ipv4Addr)
    (result : UdpInput) : Prop where
  registered : ∀ p ∈ stored, p.portNumber = params.dstPort →
    ∃ data, result = .callback p data params.dataLen srcAddr ∧
      data.load 0 params.dataLen.toNat = params.payload
  unregistered : (∀ p ∈ stored, p.portNumber ≠ params.dstPort) → result = .ignored

/-- The port that is registered for a datagram has a number of one byte; if there is none, the low
    byte of the number is no number in the table. -/
def OneByte (stored : List UdpPort) (dstPort : BitVec 16) : Prop :=
  (∀ p ∈ stored, p.portNumber = dstPort → dstPort.toNat < 256) ∧
    ((∀ p ∈ stored, p.portNumber ≠ dstPort) →
      (∀ p ∈ stored, p.portNumber ≠ lowByte dstPort) ∧
        (lowByte dstPort = 0 → stored.length = 8))

/-- `udp_input` on a datagram that was built here. -/
theorem udpInput_of_load {params : UdpTransmitParams} {buffer : Memory} (srcAddr : Ipv4Addr)
    (h : buffer.load 0 8 = headerBytes params) (hlen : 8 + params.dataLen.toNat < 2 ^ 16) :
    udpInput g buffer srcAddr =
      match findPort g (params.dstPort.setWidth 8) with
      | none => .ignored
      | some i =>
          match (g.ports i).callback with
          | none => .undefined
          | some _ => .callback (g.ports i) (buffer.advance 8) params.dataLen srcAddr := by
  obtain ⟨hdst, hlength⟩ := read_headerBytes h
  have hlong : ¬udpHeaderSize + params.dataLen < udpHeaderSize := by
    rw [BitVec.lt_def, BitVec.toNat_add]
    change ¬(8 + params.dataLen.toNat) % 2 ^ 16 < 8
    omega
  have hrest : udpHeaderSize + params.dataLen - udpHeaderSize = params.dataLen := by
    rw [BitVec.add_comm]
    exact BitVec.add_sub_cancel _ _
  unfold udpInput
  dsimp only
  rw [hdst, hlength, if_neg hlong]
  cases findPort g (params.dstPort.setWidth 8) with
  | none => rfl
  | some i =>
      dsimp only
      cases (g.ports i).callback with
      | none => rfl
      | some callback =>
          exact congrArg (fun len => UdpInput.callback (g.ports i) (buffer.advance 8) len srcAddr)
            hrest

/-- A datagram is delivered as it should be exactly if its port is looked up by its own number. -/
theorem delivers_iff {params : UdpTransmitParams} {buffer : Memory} (hfills : Fills stored g.ports)
    (hcallbacks : ∀ p ∈ stored, p.callback ≠ none)
    (hnodup : (stored.map (·.portNumber)).Nodup) (hused : ∀ p ∈ stored, p.portNumber ≠ 0)
    (hlen : 8 + params.dataLen.toNat < 2 ^ 16)
    (hbuffer : buffer.load 0 (8 + params.dataLen.toNat) = headerBytes params ++ params.payload)
    (srcAddr : Ipv4Addr) :
    Delivers stored params srcAddr (udpInput g buffer srcAddr) ↔ OneByte stored params.dstPort := by
  rw [Memory.load_add] at hbuffer
  obtain ⟨hheader, hpayload⟩ := List.append_inj hbuffer (by simp)
  rw [udpInput_of_load srcAddr hheader hlen]
  constructor
  · intro h
    constructor
    · intro p hp hnumber
      obtain ⟨data, hcall, -⟩ := h.registered p hp hnumber
      rw [← lowByte_eq_iff, ← hnumber]
      split at hcall
      case h_1 => cases hcall
      case h_2 i hfind =>
          have hfound := findPort_some hfind
          split at hcall
          case h_1 => cases hcall
          case h_2 =>
              cases hcall
              rw [hnumber, ← hfound, hnumber]
    · intro hnone
      have hignored := h.unregistered hnone
      rw [← findPort_eq_none_iff hfills]
      split at hignored
      case h_1 hfind => exact hfind
      case h_2 =>
          split at hignored
          · cases hignored
          · cases hignored
  · rintro ⟨hregistered, hunregistered⟩
    constructor
    · intro p hp hnumber
      have hbyte := lowByte_eq_iff.mpr (hregistered p hp hnumber)
      cases hfind : findPort g (params.dstPort.setWidth 8) with
      | none =>
          obtain ⟨i, rfl⟩ := hfills.mem hp
          exact absurd (hnumber.trans hbyte.symm) (findPort_none hfind i)
      | some i =>
          have hfound := (findPort_some hfind).trans hbyte
          have hport : g.ports i = p := by
            rcases hfills.cases i with hin | ⟨-, hfree⟩
            · exact List.inj_on_of_nodup_map hnodup hin hp (hfound.trans hnumber.symm)
            · rw [hfree] at hfound
              exact absurd (hnumber.trans hfound.symm) (hused p hp)
          obtain ⟨fn, hfn⟩ := Option.ne_none_iff_exists'.mp (hcallbacks p hp)
          refine ⟨buffer.advance 8, ?_, ?_⟩
          · dsimp only
            rw [hport, hfn]
          · rw [Memory.load_advance]
            exact hpayload
    · intro hnone
      rw [(findPort_eq_none_iff hfills).mpr (hunregistered hnone)]

/-- **Datagrams reach the ports whose numbers have one byte.** -/
theorem udp_round_trip_iff (hreach : Reachable step (boot selfNet) s)
    (hnodup : (s.stored.map (·.portNumber)).Nodup) (hused : ∀ p ∈ s.stored, p.portNumber ≠ 0)
    (sender : NetContext) (params : UdpTransmitParams) (env : SendEnv) {t : Ipv4TransmitParams}
    (hdata : params.data.isSome ∨ params.dataLen = 0) (hlen : 8 + params.dataLen.toNat < 2 ^ 16)
    (hsend : (udpSendInternal sender params env).1 = some t) :
    ∃ datagram, t.data = some datagram ∧ t.dataLen.toNat = 8 + params.dataLen.toNat ∧
      ∀ received, Memory.AgreeBelow t.dataLen.toNat datagram.bytes received → ∀ srcAddr,
        (Delivers s.stored params srcAddr (udpInput s.g received srcAddr) ↔
          OneByte s.stored params.dstPort) := by
  have hregistered := registered_of_reachable hreach
  unfold udpSendInternal at hsend
  split at hsend
  case h_1 => cases hsend
  case h_2 block _ =>
      dsimp only at hsend
      split at hsend
      case isFalse => cases hsend
      case isTrue =>
          obtain rfl := Option.some.inj hsend
          have ht : (udpHeaderSize + params.dataLen).toNat = 8 + params.dataLen.toNat := by
            rw [BitVec.toNat_add]
            exact Nat.mod_eq_of_lt hlen
          refine ⟨_, rfl, ht, ?_⟩
          intro received hreceived srcAddr
          have hdatagram := load_buildDatagram block.bytes hdata
          rw [← hreceived.load (by rw [Nat.zero_add]; exact Nat.le_of_eq ht.symm)] at hdatagram
          exact delivers_iff (hregistered.table hused) hregistered.stored hnodup hused hlen hdatagram
            srcAddr

/-- Two bytes for port 53. -/
theorem delivered_to_port :
    ∃ s, Reachable step (boot ⟨⟨2, 0, 0, 0, 0, 1⟩, ⟨10, 0, 0, 1⟩⟩) s ∧
      s.stored = [⟨53, some 1⟩] ∧
      Delivers s.stored ⟨4000, 53, ⟨10, 0, 0, 1⟩, some ⟨0, .ofBytes [1, 2]⟩, 2⟩ ⟨10, 0, 0, 2⟩
        (udpInput s.g (buildDatagram (fun _ => 0xAA)
          ⟨4000, 53, ⟨10, 0, 0, 1⟩, some ⟨0, .ofBytes [1, 2]⟩, 2⟩) ⟨10, 0, 0, 2⟩) := by
  have hrun : (run step (boot ⟨⟨2, 0, 0, 0, 0, 1⟩, ⟨10, 0, 0, 1⟩⟩)
      [.udpCreatePort ⟨53, some 1⟩, .udpTask ⟨none, false⟩]).any
      (fun s => s.stored == [⟨53, some 1⟩]) = true := by decide +kernel
  obtain ⟨s, hs, hstored⟩ := run_any hrun
  have hstored : s.stored = [⟨53, some 1⟩] := beq_iff_eq.mp hstored
  have hreach : Reachable step (boot ⟨⟨2, 0, 0, 0, 0, 1⟩, ⟨10, 0, 0, 1⟩⟩) s := ⟨_, hs⟩
  obtain ⟨datagram, hdatagram, -, hdelivers⟩ :=
    udp_round_trip_iff hreach (by rw [hstored]; decide) (by rw [hstored]; decide)
      ⟨⟨2, 0, 0, 0, 0, 2⟩, ⟨10, 0, 0, 2⟩⟩
      ⟨4000, 53, ⟨10, 0, 0, 1⟩, some ⟨0, .ofBytes [1, 2]⟩, 2⟩ ⟨some ⟨1, fun _ => 0xAA⟩, true⟩
      (.inl rfl) (by decide) rfl
  cases hdatagram
  refine ⟨s, hreach, hstored, (hdelivers _ (fun _ _ => rfl) ⟨10, 0, 0, 2⟩).mpr ?_⟩
  rw [hstored]
  exact ⟨fun _ _ _ => by decide, fun hnone => absurd rfl (hnone ⟨53, some 1⟩ (by decide))⟩

/-- A datagram for the registered port 5353 is ignored. -/
theorem datagram_for_port_ignored :
    ∃ s, Reachable step (boot ⟨⟨2, 0, 0, 0, 0, 1⟩, ⟨10, 0, 0, 1⟩⟩) s ∧
      s.stored = [⟨5353, some 1⟩] ∧
      ¬Delivers s.stored ⟨4000, 5353, ⟨10, 0, 0, 1⟩, some ⟨0, .ofBytes [1, 2]⟩, 2⟩ ⟨10, 0, 0, 2⟩
        (udpInput s.g (buildDatagram (fun _ => 0xAA)
          ⟨4000, 5353, ⟨10, 0, 0, 1⟩, some ⟨0, .ofBytes [1, 2]⟩, 2⟩) ⟨10, 0, 0, 2⟩) := by
  have hrun : (run step (boot ⟨⟨2, 0, 0, 0, 0, 1⟩, ⟨10, 0, 0, 1⟩⟩)
      [.udpCreatePort ⟨5353, some 1⟩, .udpTask ⟨none, false⟩]).any
      (fun s => s.stored == [⟨5353, some 1⟩] &&
        match udpInput s.g (buildDatagram (fun _ => 0xAA)
          ⟨4000, 5353, ⟨10, 0, 0, 1⟩, some ⟨0, .ofBytes [1, 2]⟩, 2⟩) ⟨10, 0, 0, 2⟩ with
        | .ignored => true
        | _ => false) = true := by decide +kernel
  obtain ⟨s, hs, hrun⟩ := run_any hrun
  obtain ⟨hstored, hignored⟩ := Bool.and_eq_true_iff.mp hrun
  have hstored : s.stored = [⟨5353, some 1⟩] := beq_iff_eq.mp hstored
  refine ⟨s, ⟨_, hs⟩, hstored, ?_⟩
  intro hdelivers
  obtain ⟨data, hcall, -⟩ := hdelivers.registered ⟨5353, some 1⟩ (by rw [hstored]; decide) rfl
  rw [hcall] at hignored
  cases hignored

end NetStack.Udp
