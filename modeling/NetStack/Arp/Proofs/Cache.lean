import NetStack.Arp.Proofs.Pending
import NetStack.Lib.FifoMap

/-!
# The cache is a bounded map

`ip_mac_cache` with its circular index is a map of at most 16 addresses that forgets the address
inserted first. The entry behind the index is the newest one, the entry in front of it the oldest;
an address that is present keeps its slot when it gets a new MAC address.
-/

namespace NetStack.Arp
open NetStack.Lib

/-- The address of an unused slot, 0.0.0.0. -/
def unusedIp : Ipv4Addr := ⟨0, 0, 0, 0⟩

/-- The cache before anything has been stored. -/
structure ZeroedCache (s : ArpState) : Prop where
  cache : s.ipMacCache = fun _ => ⟨⟨0, 0, 0, 0⟩, ⟨0, 0, 0, 0, 0, 0⟩⟩
  top : s.ipMacCacheTop = 0

/-- Calls of `add_ip_mac_cache_entry` one after the other. -/
def addAll (s : ArpState) (adds : List ArpEntry) : ArpState := adds.foldl addIpMacCacheEntry s

/-- The address is in the cache. -/
def isCached (s : ArpState) (ip : Ipv4Addr) : Prop := ∃ i, (s.ipMacCache i).ip = ip

instance (s : ArpState) (ip : Ipv4Addr) : Decidable (isCached s ip) :=
  inferInstanceAs (Decidable (∃ i, (s.ipMacCache i).ip = ip))

/-- One call, and the number of insertions since that of `ip`. -/
def countAdd (ip : Ipv4Addr) (p : ArpState × Option Nat) (entry : ArpEntry) :
    ArpState × Option Nat :=
  (addIpMacCacheEntry p.1 entry,
    if isCached p.1 entry.ip then p.2 else if entry.ip = ip then some 0 else p.2.map (· + 1))

/-- The number of insertions of absent addresses since `ip` was last inserted, if it was. -/
def insertionsSince (s : ArpState) (ip : Ipv4Addr) (adds : List ArpEntry) : Option Nat :=
  (adds.foldl (countAdd ip) (s, none)).2

/-- The MAC address of the last call for `ip`. -/
def latestMac (ip : Ipv4Addr) (adds : List ArpEntry) : Option MacAddr :=
  (adds.reverse.find? fun entry => entry.ip = ip).map (·.mac)

/-! ### The slots in the order of their age -/

/-- The slot of the entry with `n` newer ones. -/
def slotOf (top : CacheIdx) (n : Nat) : CacheIdx := top - 1 - Fin.ofNat 16 n

theorem slotOf_zero (top : CacheIdx) : slotOf (top + 1) 0 = top := by
  revert top
  decide

theorem slotOf_succ (top : CacheIdx) (n : Nat) : slotOf (top + 1) (n + 1) = slotOf top n := by
  have hsucc : Fin.ofNat 16 (n + 1) = Fin.ofNat 16 n + 1 := by
    apply Fin.ext
    simp [Fin.val_add]
  rw [slotOf, slotOf, hsucc]
  generalize Fin.ofNat 16 n = k
  revert top k
  decide

private theorem sub_sub_self (i j : CacheIdx) : i - (i - j) = j := by
  revert i j
  decide

theorem slotOf_inj (top : CacheIdx) {n k : Nat} (hn : n < 16) (hk : k < 16)
    (h : slotOf top n = slotOf top k) : n = k := by
  have hsame : Fin.ofNat 16 n = Fin.ofNat 16 k := by
    rw [← sub_sub_self (top - 1) (Fin.ofNat 16 n), ← sub_sub_self (top - 1) (Fin.ofNat 16 k)]
    exact congrArg (top - 1 - ·) h
  have hval := congrArg Fin.val hsame
  simpa [Nat.mod_eq_of_lt hn, Nat.mod_eq_of_lt hk] using hval

theorem exists_slotOf (top i : CacheIdx) : ∃ n < 16, slotOf top n = i := by
  refine ⟨(top - 1 - i).val, (top - 1 - i).isLt, ?_⟩
  rw [slotOf, Fin.ofNat_val_eq_self, sub_sub_self]

/-- What a slot holds, if it is used. -/
def ArpEntry.pair? (entry : ArpEntry) : Option (Ipv4Addr × MacAddr) :=
  if entry.ip = unusedIp then none else some (entry.ip, entry.mac)

theorem pair?_eq_some_iff {entry : ArpEntry} {ip : Ipv4Addr} {mac : MacAddr} :
    entry.pair? = some (ip, mac) ↔ ip ≠ unusedIp ∧ entry = ⟨ip, mac⟩ := by
  obtain ⟨entryIp, entryMac⟩ := entry
  unfold ArpEntry.pair?
  split
  case isTrue hunused =>
      constructor
      · intro h
        cases h
      · rintro ⟨hip, heq⟩
        cases heq
        exact absurd hunused hip
  case isFalse hused =>
      constructor
      · intro h
        cases h
        exact ⟨hused, rfl⟩
      · rintro ⟨-, heq⟩
        cases heq
        rfl

abbrev CacheMap := FifoMap Ipv4Addr MacAddr 16

/-- The cache holds the entries of the map, the newest behind the index. -/
def Refines (s : ArpState) (m : CacheMap) : Prop :=
  ∀ n < 16, m.entries[n]? = (s.ipMacCache (slotOf s.ipMacCacheTop n)).pair?

theorem refines_zeroed {s : ArpState} (h : ZeroedCache s) : Refines s .empty := by
  intro n _
  rw [h.cache]
  rfl

section Step
variable {s : ArpState} {m : CacheMap} {ip : Ipv4Addr} {mac : MacAddr}

theorem Refines.mem_iff (h : Refines s m) (hip : ip ≠ unusedIp) :
    (ip, mac) ∈ m.entries ↔ ∃ i, s.ipMacCache i = ⟨ip, mac⟩ := by
  constructor
  · intro hmem
    obtain ⟨n, hn, heq⟩ := List.getElem_of_mem hmem
    have hplace := h n (Nat.lt_of_lt_of_le hn m.bound)
    rw [List.getElem?_eq_getElem hn, heq, eq_comm, pair?_eq_some_iff] at hplace
    exact ⟨_, hplace.2⟩
  · rintro ⟨i, hi⟩
    obtain ⟨n, hn, rfl⟩ := exists_slotOf s.ipMacCacheTop i
    have hplace := h n hn
    rw [hi, pair?_eq_some_iff.mpr ⟨hip, rfl⟩] at hplace
    exact List.mem_of_getElem? hplace

theorem Refines.mem_keys_iff (h : Refines s m) (hip : ip ≠ unusedIp) :
    ip ∈ m.keys ↔ isCached s ip := by
  constructor
  · intro hmem
    obtain ⟨⟨ip', mac⟩, hpair, rfl⟩ := List.mem_map.mp hmem
    obtain ⟨i, hi⟩ := (h.mem_iff hip).mp hpair
    exact ⟨i, congrArg ArpEntry.ip hi⟩
  · rintro ⟨i, rfl⟩
    exact List.mem_map.mpr ⟨_, (h.mem_iff hip).mpr ⟨i, rfl⟩, rfl⟩

/-- No address is in two slots. -/
theorem Refines.unique (h : Refines s m) (hip : ip ≠ unusedIp) {i j : CacheIdx}
    (hi : (s.ipMacCache i).ip = ip) (hj : (s.ipMacCache j).ip = ip) : i = j := by
  have hkey : ∀ n, (hn : n < 16) → (s.ipMacCache (slotOf s.ipMacCacheTop n)).ip = ip →
      m.keys[n]? = some ip := by
    intro n hn hslot
    have hplace := h n hn
    rw [pair?_eq_some_iff.mpr ⟨hslot ▸ hip, rfl⟩] at hplace
    rw [FifoMap.keys, List.getElem?_map, hplace, ← hslot]
    rfl
  obtain ⟨n, hn, rfl⟩ := exists_slotOf s.ipMacCacheTop i
  obtain ⟨k, hk, rfl⟩ := exists_slotOf s.ipMacCacheTop j
  have hn' := hkey n hn hi
  have hlen : n < m.keys.length := (List.getElem?_eq_some_iff.mp hn').1
  rw [(List.getElem?_inj hlen m.distinct).mp (hn'.trans (hkey k hk hj).symm)]

/-- The lookup of the code is that of the map. -/
theorem Refines.lookup (h : Refines s m) (hip : ip ≠ unusedIp) :
    arpGetCachedMacAddr s ip = (m.lookup ip).elim (.error .fail) .ok := by
  unfold arpGetCachedMacAddr
  cases hfirst : firstIdx fun i => ip == (s.ipMacCache i).ip with
  | some i =>
      have hi : ip = (s.ipMacCache i).ip := by simpa using firstIdx_some hfirst
      have hentry : s.ipMacCache i = ⟨ip, (s.ipMacCache i).mac⟩ := by rw [hi]
      rw [FifoMap.lookup_eq_some_iff.mpr ((h.mem_iff hip).mpr ⟨i, hentry⟩)]
      rfl
  | none =>
      have hnone : ¬ isCached s ip := by
        rintro ⟨i, hi⟩
        have habsent := firstIdx_eq_none_iff.mp hfirst i
        simp [hi] at habsent
      rw [FifoMap.lookup_eq_none_iff.mpr ((h.mem_keys_iff hip).not.mpr hnone)]
      rfl

/-- An address that is present keeps its slot. -/
theorem Refines.replace (h : Refines s m) (hip : ip ≠ unusedIp) {i : CacheIdx}
    (hi : (s.ipMacCache i).ip = ip) :
    Refines (s.setCache i { s.ipMacCache i with mac := mac }) (m.replace (ip, mac)) := by
  intro n hn
  have hplace := h n hn
  change (m.entries.map (FifoMap.overwrite (ip, mac)))[n]? =
    (Function.update s.ipMacCache i { s.ipMacCache i with mac := mac }
      (slotOf s.ipMacCacheTop n)).pair?
  rw [List.getElem?_map, hplace]
  by_cases hslot : slotOf s.ipMacCacheTop n = i
  · rw [hslot, Function.update_self]
    simp [ArpEntry.pair?, FifoMap.overwrite, hi, hip]
  · have hne : (s.ipMacCache (slotOf s.ipMacCacheTop n)).ip ≠ ip := fun heq =>
      hslot (h.unique hip heq hi)
    rw [Function.update_of_ne hslot]
    unfold ArpEntry.pair?
    split
    · rfl
    · simp [FifoMap.overwrite, hne]

/-- An address that is absent takes the slot of the oldest entry. -/
theorem Refines.insert (h : Refines s m) (hip : ip ≠ unusedIp) (habsent : ip ∉ m.keys) :
    Refines { s.setCache s.ipMacCacheTop ⟨ip, mac⟩ with ipMacCacheTop := s.ipMacCacheTop + 1 }
      (m.insert (ip, mac) habsent) := by
  intro n hn
  change (((ip, mac) :: m.entries).take 16)[n]? =
    (Function.update s.ipMacCache s.ipMacCacheTop ⟨ip, mac⟩
      (slotOf (s.ipMacCacheTop + 1) n)).pair?
  rw [List.getElem?_take_of_lt hn]
  cases n with
  | zero =>
      rw [slotOf_zero, Function.update_self, pair?_eq_some_iff.mpr ⟨hip, rfl⟩]
      rfl
  | succ n =>
      -- the oldest entry is the only one in the slot that is taken
      have hother : slotOf s.ipMacCacheTop n ≠ s.ipMacCacheTop := by
        intro heq
        have hlast : slotOf s.ipMacCacheTop 15 = s.ipMacCacheTop := by
          generalize s.ipMacCacheTop = top
          revert top
          decide
        have hn15 := slotOf_inj s.ipMacCacheTop (by omega) (by omega) (heq.trans hlast.symm)
        omega
      rw [List.getElem?_cons_succ, slotOf_succ, Function.update_of_ne hother]
      exact h n (Nat.lt_of_succ_lt hn)

/-- Storing an entry is storing it into the map. -/
theorem Refines.store (h : Refines s m) {entry : ArpEntry} (hip : entry.ip ≠ unusedIp) :
    Refines (storeCacheEntry s entry) (m.put (entry.ip, entry.mac)) := by
  unfold storeCacheEntry FifoMap.put
  cases hfirst : firstIdx fun i => entry.ip == (s.ipMacCache i).ip with
  | some i =>
      have hi : entry.ip = (s.ipMacCache i).ip := by simpa using firstIdx_some hfirst
      rw [dif_pos ((h.mem_keys_iff hip).mpr ⟨i, hi.symm⟩)]
      exact h.replace hip hi.symm
  | none =>
      have habsent : entry.ip ∉ m.keys := by
        rw [h.mem_keys_iff hip]
        rintro ⟨i, hi⟩
        have hfalse := firstIdx_eq_none_iff.mp hfirst i
        simp [hi] at hfalse
      rw [dif_neg habsent]
      exact h.insert hip habsent

/-- The notifications do not touch the cache. -/
theorem Refines.add (h : Refines s m) {entry : ArpEntry} (hip : entry.ip ≠ unusedIp) :
    Refines (addIpMacCacheEntry s entry) (m.put (entry.ip, entry.mac)) := by
  unfold addIpMacCacheEntry
  dsimp only
  split
  · exact h.store hip
  · rw [notifyPending_eq]
    exact h.store hip

end Step

/-! ### Histories -/

section History
variable {s : ArpState} {adds : List ArpEntry} {entry : ArpEntry} {ip : Ipv4Addr}

theorem addAll_append : addAll s (adds ++ [entry]) = addIpMacCacheEntry (addAll s adds) entry := by
  simp [addAll]

theorem countAdd_fst (adds : List ArpEntry) (p : ArpState × Option Nat) :
    (adds.foldl (countAdd ip) p).1 = addAll p.1 adds := by
  induction adds generalizing p with
  | nil => rfl
  | cons entry adds ih => exact ih (countAdd ip p entry)

theorem insertionsSince_append :
    insertionsSince s ip (adds ++ [entry]) =
      if isCached (addAll s adds) entry.ip then insertionsSince s ip adds
      else if entry.ip = ip then some 0 else (insertionsSince s ip adds).map (· + 1) := by
  rw [insertionsSince, List.foldl_append, List.foldl_cons, List.foldl_nil, countAdd, countAdd_fst]
  rfl

theorem latestMac_append :
    latestMac ip (adds ++ [entry]) = if entry.ip = ip then some entry.mac else latestMac ip adds := by
  rw [latestMac, List.reverse_append, List.reverse_singleton, List.singleton_append,
    List.find?_cons]
  by_cases hip : entry.ip = ip <;> simp [hip, latestMac]

/-- After every history the cache is a map, and the map is what the history says. -/
theorem exists_refines (hzero : ZeroedCache s) (hadds : ∀ entry ∈ adds, entry.ip ≠ unusedIp) :
    ∃ m : CacheMap, Refines (addAll s adds) m ∧
      m.Tracks (fun ip => insertionsSince s ip adds) fun ip => latestMac ip adds := by
  induction adds using List.reverseRecOn with
  | nil => exact ⟨.empty, refines_zeroed hzero, FifoMap.tracks_empty⟩
  | append_singleton adds entry ih =>
      obtain ⟨m, hrefines, htracks⟩ := ih fun e he => hadds e (List.mem_append_left [entry] he)
      have hip : entry.ip ≠ unusedIp :=
        hadds entry (List.mem_append_right adds (List.mem_singleton_self entry))
      have hput := htracks.put (entry.ip, entry.mac)
      refine ⟨m.put (entry.ip, entry.mac), ?_, ?_⟩
      · rw [addAll_append]
        exact hrefines.add hip
      · simp only [FifoMap.sinceAfter, hrefines.mem_keys_iff hip] at hput
        simpa only [insertionsSince_append, latestMac_append] using hput

/-- The cache is a map that gives the latest MAC address of an address until 16 absent addresses
    have been inserted after it. -/
theorem cache_is_fifo (hzero : ZeroedCache s) (hadds : ∀ entry ∈ adds, entry.ip ≠ unusedIp)
    (hip : ip ≠ unusedIp) :
    (∀ i j, ((addAll s adds).ipMacCache i).ip = ip → ((addAll s adds).ipMacCache j).ip = ip →
      i = j) ∧
    (∀ n, insertionsSince s ip adds = some n → n < 16 →
      ∃ mac, latestMac ip adds = some mac ∧
        arpGetCachedMacAddr (addAll s adds) ip = .ok mac) ∧
    ((∀ n, insertionsSince s ip adds = some n → 16 ≤ n) →
      arpGetCachedMacAddr (addAll s adds) ip = .error .fail) := by
  obtain ⟨m, hrefines, htracks⟩ := exists_refines hzero hadds
  refine ⟨fun i j hi hj => hrefines.unique hip hi hj, ?_, ?_⟩
  · intro n hn hlt
    obtain ⟨mac, hlatest, hlookup⟩ := htracks.lookup_some hn hlt
    refine ⟨mac, hlatest, ?_⟩
    rw [hrefines.lookup hip, hlookup]
    rfl
  · intro hgone
    rw [hrefines.lookup hip, htracks.lookup_none hgone]
    rfl

end History

/-- Answers from 10.0.0.1 to 10.0.0.17, in this order. -/
def seventeenEntries : List ArpEntry :=
  (List.range 17).map fun k => ⟨⟨10, 0, 0, BitVec.ofNat 8 (k + 1)⟩, ⟨2, 0, 0, 0, 0, BitVec.ofNat 8 k⟩⟩

/-- A node that has just started. -/
def startedArp : ArpState where
  selfIpAddr := ⟨10, 0, 0, 100⟩
  selfMacAddr := ⟨2, 0, 0, 0, 0, 100⟩

/-- The first of 17 addresses has been evicted, the second has not. -/
theorem first_of_seventeen_evicted :
    arpGetCachedMacAddr (addAll startedArp seventeenEntries) ⟨10, 0, 0, 1⟩ = .error .fail ∧
      arpGetCachedMacAddr (addAll startedArp seventeenEntries) ⟨10, 0, 0, 2⟩ =
        .ok ⟨2, 0, 0, 0, 0, 1⟩ := by
  have hadds : ∀ entry ∈ seventeenEntries, entry.ip ≠ unusedIp := by decide
  have hfirst : insertionsSince startedArp ⟨10, 0, 0, 1⟩ seventeenEntries = some 16 := by
    decide +kernel
  have hsecond : insertionsSince startedArp ⟨10, 0, 0, 2⟩ seventeenEntries = some 15 := by
    decide +kernel
  constructor
  · apply (cache_is_fifo ⟨rfl, rfl⟩ hadds (by decide)).2.2
    intro n hn
    cases hfirst.symm.trans hn
    exact Nat.le_refl 16
  · obtain ⟨mac, hlatest, hlookup⟩ :=
      (cache_is_fifo ⟨rfl, rfl⟩ hadds (by decide)).2.1 15 hsecond (by decide)
    have hmac : latestMac ⟨10, 0, 0, 2⟩ seventeenEntries = some ⟨2, 0, 0, 0, 0, 1⟩ := by
      decide +kernel
    cases hmac.symm.trans hlatest
    exact hlookup

end NetStack.Arp
