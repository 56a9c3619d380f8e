import NetStack.Tcp.Proofs.Acceptance
import NetStack.Tcp.Proofs.Tiling

/-!
# The tiles of a stream

A segment that takes up sequence numbers is a tile of its connection's stream: the numbers with
the bytes that they stand for. Whatever an incarnation transmits, first or again, is a tile of
its first transmissions, and a delivered segment is the tile of its transmission.
-/

namespace NetStack.Tcp
open NetStack.Lib

/-- Consecutive sequence numbers, the control byte of their segment and the bytes that they stand
    for. -/
structure Tile where
  space : Chunk (BitVec 32)
  control : BitVec 8
  bytes : List (BitVec 8)

/-- The tile of a datagram: what its header announces and what lies behind the header. -/
def Transmission.tile (t : Transmission) : Tile :=
  ⟨t.range, t.header.control, t.datagram.load 20 (t.ipv4.dataLen - headerSize).toNat⟩

/-- The tile of a received segment. -/
def Segment.tile (seg : Segment) : Tile :=
  ⟨⟨seg.header.seqNum, seg.sequenceIncrement.setWidth 32⟩, seg.header.control,
    seg.buffer.load seg.header.headerLength.toNat seg.dataLength.toNat⟩

/-- The stream of an incarnation: the tiles of its first transmissions, in their order. -/
def sentTiles (log : List Event) (i : PortIdx) (n : Nat) : List Tile :=
  (firstTransmissions log i n).map (·.tile)

/-- The bytes of a stream. -/
def streamBytes (tiles : List Tile) : List (BitVec 8) := tiles.flatMap (·.bytes)

/-! ### Transmissions and the stream -/

/-- A datagram for an earlier segment is the tile of that segment. -/
theorem tile_of_repeats {t t₀ : Transmission} (h : t.WellFormed Bounded)
    (hrepeats : t.Repeats t₀) : t.tile = t₀.tile := by
  have hlen : t.ipv4.dataLen - headerSize = t.params.dataLen := by
    rw [h.dataLen_eq, BitVec.add_comm, BitVec.add_sub_cancel]
  have hrange : t.range = t₀.range := by
    rw [Transmission.range, Transmission.range, hrepeats.seqNum, hrepeats.control, hrepeats.dataLen]
  rw [Transmission.tile, Transmission.tile, hrange, hrepeats.control, ← hrepeats.dataLen, hlen]
  refine congrArg _ (Memory.load_congr fun k hk => ?_)
  apply hrepeats.payload
  have hlength := datagramLength_toNat (fits_of_bounded h.bounded)
  rw [datagramLength, ← h.dataLen_eq] at hlength
  omega

/-- Whatever an incarnation has transmitted is a tile of its stream. -/
def TilesSent (g : Globals) : Prop :=
  ∀ t ∈ transmissions g.log, ∀ n, t.incarnation = some n → t.range.length ≠ 0 →
    t.tile ∈ sentTiles g.log t.slot n

theorem sentTiles_mono {log log' : List Event} {l : List Transmission}
    (h : transmissions log' = transmissions log ++ l) {i : PortIdx} {n : Nat} {tile : Tile}
    (htile : tile ∈ sentTiles log i n) : tile ∈ sentTiles log' i n := by
  rw [sentTiles, firstTransmissions, h, List.filter_append, List.map_append]
  exact List.mem_append_left _ htile

/-- A step that starts from tiles of the streams sends tiles of the streams. -/
theorem TilesSent.step {net : NetContext} {as : List Action} {s s' : System} {a : Action}
    (hrun : run step (boot net) as = some s) (hreq : Requests Bounded s.g)
    (hreq' : Requests Bounded s'.g) (hbacked : AllBacked s.g) (hapart : PortsApart s.g)
    (hstep : step s a = some s') (hs : TilesSent s.g) : TilesSent s'.g := by
  obtain ⟨l, hl, hagain⟩ := step_retransmissions hstep (requests_of_run_any hrun) hapart
  intro t ht n hn hlen
  rcases List.mem_append.mp (hl ▸ ht) with hold | hnew
  · exact sentTiles_mono hl (hs t hold n hn hlen)
  cases hr : t.params.isRetransmission with
  | false => exact List.mem_map_of_mem (mem_firstTransmissions.mpr ⟨ht, rfl, hn, hr, hlen⟩)
  | true =>
      obtain ⟨hself, hinc, j, huse, hholds⟩ := hagain t hnew hr
      obtain ⟨t₀, ht₀, hholds₀⟩ := entriesSent_of_run hrun t.slot n j (hinc.symm.trans hn) huse
      have hmem := (mem_recordings.mp ht₀).1
      have hwell := hreq'.transmits t (mem_transmissions.mp ht)
      have hwell₀ := hreq.transmits t₀ (mem_transmissions.mp hmem)
      have hfirst : t₀ ∈ firstTransmissions s.g.log t.slot n := by
        rwa [firstTransmissions_eq hreq]
      have hrepeats : t.Repeats t₀ :=
        repeats_of_held hwell hwell₀ (hbacked.backed hfirst) hholds hholds₀
      rw [tile_of_repeats hwell hrepeats]
      exact sentTiles_mono hl (List.mem_map_of_mem hfirst)

/-! ### Delivered segments -/

/-- A segment of a stream: a SYN or a FIN carries no bytes, and what takes up sequence numbers is
    one of the tiles. -/
structure OfStream (tiles : List Tile) (seg : Segment) : Prop where
  bare : (seg.syn || seg.fin) = true → seg.dataLength = 0
  tile : seg.sequenceIncrement ≠ 0 → seg.tile ∈ tiles

/-- A SYN or a FIN carries no data. -/
theorem Request.dataLen_of_flag {params : TcpTransmitParams} (h : Request params)
    (hflag : (flagSyn params.control || flagFin params.control) = true) : params.dataLen = 0 := by
  cases h with
  | data => exact absurd hflag (by simp only [tcpSendParams]; decide)
  | syn | synAck | ack | finAck | fin => rfl

theorem Transmission.WellFormed.dataLen_of_flag {t : Transmission} (h : t.WellFormed Bounded)
    (hflag : (flagSyn t.params.control || flagFin t.params.control) = true) :
    t.params.dataLen = 0 := by
  obtain ⟨params, ⟨hrequest, -⟩, hcontrol, hlen, -⟩ := h.request
  rw [← hlen]
  exact hrequest.dataLen_of_flag (hcontrol ▸ hflag)

section Delivered
variable {t : Transmission} {seg : Segment} (ht : t.WellFormed Bounded) (h : Delivers t seg)
include ht h

theorem Delivers.fields :
    seg.header.headerLength = 20 ∧ seg.dataLength = t.params.dataLen ∧
      seg.sequenceIncrement = seqIncrement t.params := by
  obtain ⟨-, -, -, hoffset, hcontrol⟩ := h.header ht (fits_of_bounded ht.bounded)
  have hheader : seg.header.headerLength = 20 := by
    rw [TcpHeader.headerLength, hoffset]
    rfl
  have hlen : seg.dataLength = t.params.dataLen := by
    rw [Segment.dataLength, hheader, h.length, ht.dataLen_eq, BitVec.add_comm]
    exact BitVec.add_sub_cancel _ _
  refine ⟨hheader, hlen, ?_⟩
  rw [Segment.sequenceIncrement, hlen, Segment.syn, Segment.fin, hcontrol]
  rfl

/-- A delivered segment is the tile of its transmission. -/
theorem Delivers.tile : seg.tile = t.tile := by
  obtain ⟨-, -, hseq, -, hcontrol⟩ := h.header ht (fits_of_bounded ht.bounded)
  obtain ⟨hheader, hlen, hinc⟩ := h.fields ht
  obtain ⟨addr, heap, selfNet, port, hdata, -⟩ := ht.ipv4
  have hlength : t.ipv4.dataLen - headerSize = t.params.dataLen := by
    rw [ht.dataLen_eq, BitVec.add_comm, BitVec.add_sub_cancel]
  have hdatagram := datagramLength_toNat (fits_of_bounded ht.bounded)
  rw [datagramLength, ← ht.dataLen_eq, ← h.length] at hdatagram
  rw [Segment.tile, Transmission.tile, ht.range_eq, ht.header_eq.2, hseq, hcontrol, hheader, hlen,
    hinc, hlength]
  refine congrArg _ (Memory.load_congr fun k hk => ?_)
  rw [Transmission.datagram, hdata]
  apply h.bytes _ hdata
  have h20 : (20 : BitVec 16).toNat = 20 := rfl
  omega

theorem Delivers.ofStream {tiles : List Tile} (hsent : t.range.length ≠ 0 → t.tile ∈ tiles) :
    OfStream tiles seg := by
  obtain ⟨-, -, -, -, hcontrol⟩ := h.header ht (fits_of_bounded ht.bounded)
  obtain ⟨-, hlen, hinc⟩ := h.fields ht
  constructor
  · intro hflag
    rw [Segment.syn, Segment.fin, hcontrol] at hflag
    rw [hlen]
    exact ht.dataLen_of_flag hflag
  · intro hne
    rw [h.tile ht]
    apply hsent
    rw [ht.range_eq, Transmission.advance, ← hinc]
    intro hzero
    apply hne
    bv_omega

end Delivered

section Run
variable {net : NetContext} {as : List Action} {s : System}

theorem bounded_of_run (hrun : run step (boot net) as = some s)
    (hg : Guarded step (sendsWhole · ·) (boot net) as) : Requests Bounded s.g :=
  requests_of_run (fun _ h => h.1) (fun _ _ hc _ hb => bounded_of_builds
    (Bool.and_eq_true_iff.mp (sendsApart_of_whole hc)).2 hb) hg hrun

/-- In every run in which live ports have different keys and payloads are what their lengths say,
    whatever an incarnation transmits, first or again, is a tile of its stream. -/
theorem tilesSent_of_run (hrun : run step (boot net) as = some s)
    (hg : Guarded step (sendsWhole · ·) (boot net) as) : TilesSent s.g := by
  refine run_invariant_of_run (P := fun s => TilesSent s.g) ?_ ?_ hg hrun
  · intro as s a s' hrun hg hs hc hstep
    have hrun' : run step (boot net) (as ++ [a]) = some s' := by
      simp [run_append, hrun, run_cons, hstep]
    have hg' : Guarded step (sendsWhole · ·) (boot net) (as ++ [a]) :=
      (guarded_append hrun).mpr ⟨hg, guarded_cons.mpr ⟨hc, fun _ _ => trivial⟩⟩
    exact hs.step hrun (bounded_of_run hrun hg) (bounded_of_run hrun' hg')
      (allBacked_of_run hrun hg) (by simpa using (Bool.and_eq_true_iff.mp hc).1) hstep
  · simp [TilesSent, boot, transmissions]

/-- The tiles of a stream follow one another from 0 on. -/
theorem sentTiles_contiguous (hrun : run step (boot net) as = some s)
    (hg : Guarded step (sendsWhole · ·) (boot net) as) (i : PortIdx) (n : Nat) :
    Contiguous 0 ((sentTiles s.g.log i n).map (·.space)) := by
  have htiles : Tiles s.g := moves_invariant (C := fun _ _ => True) (tiles_boot net)
    (fun hsame h => h.alike hsame) (fun _ _ _ _ _ _ _ _ hm h => h.move hm) (guarded_true _ as) hrun
  rw [sentTiles, List.map_map]
  exact htiles.ranges (bounded_of_run hrun hg) i n

theorem length_ne_zero_of_sent {log : List Event} {i : PortIdx} {n : Nat} {tile : Tile}
    (h : tile ∈ sentTiles log i n) : tile.space.length ≠ 0 := by
  obtain ⟨t, ht, rfl⟩ := List.mem_map.mp h
  exact (mem_firstTransmissions.mp ht).2.2.2.2

end Run

end NetStack.Tcp
