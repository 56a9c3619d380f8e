import NetStack.Lib.Chunks
import Mathlib.Data.BitVec

/-!
# Streams read in order

A sender lays its stream out in tiles, one behind the other, and a reader takes pieces of it from
some position on, each where the one before ends. Whatever lies between them may lose, repeat and
reorder tiles: as long as it makes none up, the pieces are the tiles from that position on, in
their order. Positions may be words, if the whole stream fits into them.
-/

namespace NetStack.Lib

/-- The chunk with its positions as numbers. -/
def Chunk.toNat {w : Nat} (c : Chunk (BitVec w)) : Chunk Nat := ⟨c.start.toNat, c.length.toNat⟩

section Numbers
variable {γ : Type} {chunk : γ → Chunk Nat}

theorem contiguous_append {start : Nat} {chunks chunks' : List (Chunk Nat)} :
    Contiguous start (chunks ++ chunks') ↔
      Contiguous start chunks ∧ Contiguous (start + totalLength chunks) chunks' := by
  induction chunks generalizing start with
  | nil => simp [Contiguous]
  | cons c chunks ih =>
    simp only [List.cons_append, Contiguous, ih, totalLength, List.map_cons, List.sum_cons,
      ← Nat.add_assoc, and_assoc]

/-- A chunk of a contiguous sequence lies between its ends. -/
theorem Contiguous.within {start : Nat} {chunks : List (Chunk Nat)} (h : Contiguous start chunks)
    {c : Chunk Nat} (hc : c ∈ chunks) :
    start ≤ c.start ∧ c.start + c.length ≤ start + totalLength chunks := by
  induction chunks generalizing start with
  | nil => cases hc
  | cons d chunks ih =>
    obtain ⟨hstart, hrest⟩ := h
    rw [totalLength, List.map_cons, List.sum_cons, ← totalLength]
    rcases List.mem_cons.mp hc with rfl | hc
    · omega
    · have hbounds := ih hrest hc
      omega

/-- Pieces that follow one another from the end of `before` on and are all among the tiles are the
    tiles behind `before`. -/
theorem prefix_of_contiguous {start : Nat} {before after pieces : List γ}
    (htiles : Contiguous start ((before ++ after).map chunk))
    (hpos : ∀ t ∈ before ++ after, 0 < (chunk t).length)
    (hpieces : Contiguous (start + totalLength (before.map chunk)) (pieces.map chunk))
    (hmem : ∀ p ∈ pieces, p ∈ before ++ after) : pieces <+: after := by
  induction pieces generalizing before after with
  | nil => exact List.nil_prefix
  | cons p pieces ih =>
    obtain ⟨hstart, hpieces⟩ := hpieces
    have hp := hmem p List.mem_cons_self
    have hlen := hpos p hp
    rw [List.map_append, contiguous_append] at htiles
    obtain ⟨hbefore, hafter⟩ := htiles
    have hp : p ∈ after := by
      rcases List.mem_append.mp hp with hp | hp
      · have hbounds := hbefore.within (List.mem_map_of_mem hp)
        omega
      · exact hp
    cases after with
    | nil => cases hp
    | cons t after =>
      -- a tile further behind starts behind the piece
      obtain rfl : p = t := by
        rcases List.mem_cons.mp hp with hp | hp
        · exact hp
        · have hbounds := hafter.2.within (List.mem_map_of_mem hp)
          have htail := hpos t (by simp)
          omega
      refine List.cons_prefix_cons.mpr ⟨rfl, @ih (before ++ [p]) after ?_ ?_ ?_ ?_⟩
      · rw [List.append_assoc, List.singleton_append, List.map_append, contiguous_append]
        exact ⟨hbefore, hafter⟩
      · simpa using hpos
      · rw [List.map_append, List.map_cons, List.map_nil, totalLength_concat, ← Nat.add_assoc]
        exact hpieces
      · intro q hq
        simpa using hmem q (List.mem_cons_of_mem _ hq)

end Numbers

section Words
variable {w : Nat} {start : BitVec w} {chunks : List (Chunk (BitVec w))}

/-- Contiguous chunks of words are contiguous as numbers, if none of them wraps. -/
theorem Contiguous.toNat (h : Contiguous start chunks)
    (hfits : ∀ c ∈ chunks, c.toNat.start + c.toNat.length < 2 ^ w) :
    Contiguous start.toNat (chunks.map Chunk.toNat) := by
  induction chunks generalizing start with
  | nil => trivial
  | cons c chunks ih =>
    obtain ⟨rfl, hrest⟩ := h
    have hfit : c.start.toNat + c.length.toNat < 2 ^ w := hfits c List.mem_cons_self
    have hend : (c.start + c.length).toNat = c.start.toNat + c.length.toNat := by
      rw [BitVec.toNat_add, Nat.mod_eq_of_lt hfit]
    refine ⟨rfl, ?_⟩
    have hnext := ih hrest fun d hd => hfits d (List.mem_cons_of_mem _ hd)
    rwa [hend] at hnext

/-- No chunk wraps if the whole sequence fits. -/
theorem Contiguous.fits (h : Contiguous start chunks)
    (hfits : start.toNat + totalLength (chunks.map Chunk.toNat) < 2 ^ w) {c : Chunk (BitVec w)}
    (hc : c ∈ chunks) : c.toNat.start + c.toNat.length < 2 ^ w := by
  induction chunks generalizing start with
  | nil => cases hc
  | cons d chunks ih =>
    obtain ⟨rfl, hrest⟩ := h
    rw [totalLength, List.map_cons, List.map_cons, List.sum_cons, ← totalLength,
      ← Nat.add_assoc] at hfits
    have hfit : d.start.toNat + d.length.toNat < 2 ^ w := lt_of_le_of_lt (Nat.le_add_right _ _) hfits
    rcases List.mem_cons.mp hc with rfl | hc
    · exact hfit
    · apply ih hrest _ hc
      rwa [BitVec.toNat_add, Nat.mod_eq_of_lt hfit]

end Words

/-- The reader of a stream in words that fits into them: pieces that follow one another from the end
    of `before` on and are all among the tiles are the tiles behind `before`. -/
theorem prefix_of_contiguous_words {w : Nat} {γ : Type} {chunk : γ → Chunk (BitVec w)}
    {start first : BitVec w} {before after pieces : List γ}
    (htiles : Contiguous start ((before ++ after).map chunk))
    (hfits : start.toNat + totalLength ((before ++ after).map (chunk · |>.toNat)) < 2 ^ w)
    (hpos : ∀ t ∈ before ++ after, (chunk t).length ≠ 0)
    (hfirst : first.toNat = start.toNat + totalLength (before.map (chunk · |>.toNat)))
    (hpieces : Contiguous first (pieces.map chunk))
    (hmem : ∀ p ∈ pieces, p ∈ before ++ after) : pieces <+: after := by
  have hfit : ∀ t ∈ before ++ after, (chunk t).toNat.start + (chunk t).toNat.length < 2 ^ w :=
    fun t ht => htiles.fits (by simpa [Function.comp_def] using hfits) (List.mem_map_of_mem ht)
  apply @prefix_of_contiguous _ (chunk · |>.toNat) start.toNat
  · have h := htiles.toNat (List.forall_mem_map.mpr hfit)
    rwa [List.map_map] at h
  · intro t ht
    have hne := hpos t ht
    exact Nat.pos_of_ne_zero fun h0 => hne (BitVec.eq_of_toNat_eq h0)
  · have h := hpieces.toNat (List.forall_mem_map.mpr fun p hp => hfit p (hmem p hp))
    rwa [List.map_map, hfirst] at h
  · exact hmem

/-- A reader that starts with one of the tiles reads the tiles from that one on. -/
theorem exists_prefix_of_contiguous_words {w : Nat} {γ : Type} {chunk : γ → Chunk (BitVec w)}
    {start first : BitVec w} {tiles pieces : List γ} {p : γ}
    (htiles : Contiguous start (tiles.map chunk))
    (hfits : start.toNat + totalLength (tiles.map (chunk · |>.toNat)) < 2 ^ w)
    (hpos : ∀ t ∈ tiles, (chunk t).length ≠ 0)
    (hpieces : Contiguous first ((p :: pieces).map chunk)) (hmem : ∀ q ∈ p :: pieces, q ∈ tiles) :
    ∃ before after, tiles = before ++ after ∧ p :: pieces <+: after := by
  obtain ⟨before, rest, rfl⟩ := List.append_of_mem (hmem p List.mem_cons_self)
  refine ⟨before, p :: rest, rfl, prefix_of_contiguous_words htiles hfits hpos ?_ hpieces hmem⟩
  have hfit : ∀ t ∈ before ++ p :: rest,
      (chunk t).toNat.start + (chunk t).toNat.length < 2 ^ w :=
    fun t ht => htiles.fits (by simpa [Function.comp_def] using hfits) (List.mem_map_of_mem ht)
  have hnat := htiles.toNat (List.forall_mem_map.mpr hfit)
  rw [List.map_map, List.map_append, contiguous_append] at hnat
  rw [← hpieces.1]
  exact hnat.2.1

end NetStack.Lib
