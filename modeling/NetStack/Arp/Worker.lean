import NetStack.Arp.Input
import NetStack.Lib.FinArray

/-!
# The worker of ARP

`arp_task` owns the table of the tasks that wait for an answer and the cache of the answers. It
takes requests out of one queue and received replies out of another, and gives up on the requests
that nobody has answered in time.
-/

namespace NetStack.Arp
open NetStack.Lib NetStack.Eth NetStack.Utility

/-- `MAX_PENDING_PER_IP`. -/
def maxPendingPerIp : Nat := 8

/-- The capacity of `arp_request_queue`. -/
def arpRequestQueueLength : Nat := 4

/-- `ARP_TIMEOUT_TICKS`, `pdMS_TO_TICKS(1*1000)`. The sources do not set the rate of the ticks: it
    is the default of ESP-IDF, 100 a second. -/
def arpTimeoutTicks : BitVec 32 := 100

/-- An index into `ip_mac_cache`, whose length is `IP_MAC_CACHE_LENGTH`. -/
abbrev CacheIdx := Fin 16

scoped instance neZero_cacheIdx : NeZero (16 : Nat) := ⟨by decide⟩

/-- An index into `arp_pending_tasks`, whose length is `MAX_PENDING_IPS`. -/
abbrev PendingIdx := Fin 8

scoped instance neZero_pendingIdx : NeZero (8 : Nat) := ⟨by decide⟩

/-- `TaskHandle_t`. -/
abbrev TaskHandle := Nat

/-- `struct arp_request_t`. -/
structure ArpRequest where
  ip : Ipv4Addr
  task : TaskHandle
  deriving DecidableEq, Repr

/-- `struct arp_pending_t`; the list is as long as `waiting_task_count` says. -/
structure ArpPending where
  expirationTick : BitVec 32 := 0
  waitingTasks : List TaskHandle := []
  ip : Ipv4Addr := ⟨0, 0, 0, 0⟩
  deriving DecidableEq, Repr

/-- What the worker does for the tasks that ask it, in the order in which it happens. -/
inductive WorkerEvent where
  /-- A request is taken out of `arp_request_queue`. -/
  | dequeued (request : ArpRequest)
  /-- `xTaskNotifyGive`. -/
  | notifyGive (task : TaskHandle)
  deriving DecidableEq, Repr

/-- The variables of `arp.c`, the notification values of the tasks, and the history of the
    worker. -/
structure ArpState extends ArpGlobals where
  ipMacCache : CacheIdx → ArpEntry := fun _ => ⟨⟨0, 0, 0, 0⟩, ⟨0, 0, 0, 0, 0, 0⟩⟩
  /-- Kept modulo `IP_MAC_CACHE_LENGTH`, so that its check against the length never fires. -/
  ipMacCacheTop : CacheIdx := 0
  arpPendingTasks : PendingIdx → ArpPending := fun _ => {}
  arpRequestQueue : List ArpRequest := []
  notificationValue : TaskHandle → Nat := fun _ => 0
  history : List WorkerEvent := []

namespace ArpState

def setPending (s : ArpState) (i : PendingIdx) (p : ArpPending) : ArpState :=
  { s with arpPendingTasks := Function.update s.arpPendingTasks i p }

def setCache (s : ArpState) (i : CacheIdx) (entry : ArpEntry) : ArpState :=
  { s with ipMacCache := Function.update s.ipMacCache i entry }

def note (s : ArpState) (e : WorkerEvent) : ArpState := { s with history := s.history ++ [e] }

end ArpState

/-- `xTaskNotifyGive`. -/
def taskNotifyGive (s : ArpState) (task : TaskHandle) : ArpState :=
  { s with
    notificationValue :=
      Function.update s.notificationValue task (s.notificationValue task + 1)
    history := s.history ++ [.notifyGive task] }

/-- `find_pending`. -/
def findPending (s : ArpState) (ip : Ipv4Addr) : Option PendingIdx :=
  firstIdx fun i =>
    (s.arpPendingTasks i).waitingTasks.length != 0 && (s.arpPendingTasks i).ip == ip

/-- `alloc_pending` at the time `now`. -/
def allocPending (s : ArpState) (ip : Ipv4Addr) (now : BitVec 32) :
    Option (ArpState × PendingIdx) :=
  match firstIdx fun i => (s.arpPendingTasks i).waitingTasks.length == 0 with
  | none => none
  | some i =>
      some (s.setPending i
        { waitingTasks := [], expirationTick := now + arpTimeoutTicks, ip := ip }, i)

/-- `free_pending`. -/
def freePending (s : ArpState) (i : PendingIdx) : ArpState :=
  s.setPending i { s.arpPendingTasks i with waitingTasks := [] }

/-- The notifications of all tasks of an entry, which is then freed. -/
def notifyPending (s : ArpState) (i : PendingIdx) : ArpState :=
  freePending ((s.arpPendingTasks i).waitingTasks.foldl taskNotifyGive s) i

/-- The part of `add_ip_mac_cache_entry` that stores the entry. -/
def storeCacheEntry (s : ArpState) (entry : ArpEntry) : ArpState :=
  match firstIdx fun i => entry.ip == (s.ipMacCache i).ip with
  | some i => s.setCache i { s.ipMacCache i with mac := entry.mac }
  | none =>
      { s.setCache s.ipMacCacheTop entry with ipMacCacheTop := s.ipMacCacheTop + 1 }

/-- `add_ip_mac_cache_entry`. -/
def addIpMacCacheEntry (s : ArpState) (entry : ArpEntry) : ArpState :=
  let stored := storeCacheEntry s entry
  match findPending stored entry.ip with
  | none => stored
  | some i => notifyPending stored i

/-- `arp_get_cached_mac_addr`. -/
def arpGetCachedMacAddr (s : ArpState) (ip : Ipv4Addr) : Except EspErr MacAddr :=
  match firstIdx fun i => ip == (s.ipMacCache i).ip with
  | some i => .ok (s.ipMacCache i).mac
  | none => .error .fail

/-- `BROADCAST_MAC`. -/
def broadcastMac : MacAddr := ⟨0xFF, 0xFF, 0xFF, 0xFF, 0xFF, 0xFF⟩

/-- The payload of a request, built in a stack buffer with the contents `stack`. -/
def arpRequestBuf (stack : Memory) (g : ArpGlobals) (ip : Ipv4Addr) : Memory :=
  let p := stack.store16 0 (htons 1)
  let p := p.store16 2 (htons ipv4Ethertype)
  let p := p.store 4 [6]
  let p := p.store 5 [4]
  let p := p.store16 6 (htons 1)
  let p := p.store 8 g.selfMacAddr.bytes
  let p := p.store 14 g.selfIpAddr.bytes
  -- the pointer moves on over the target hardware address
  p.store 24 ip.bytes

/-- `send_arp_request`. -/
def sendArpRequest (g : ArpGlobals) (ip : Ipv4Addr) (env : ArpEnv) : ArpGlobals × EspErr :=
  let r := ethTx broadcastMac g.selfMacAddr (htons arpEthertype) (arpRequestBuf env.stack g ip) 28
    env.eth
  ({ g with log := g.log ++ (r.1.map ArpEvent.wifiTx).toList }, r.2)

/-- What the environment decides in one iteration of `arp_task`: the two readings of the clock, and
    the choices of `send_arp_request`. -/
structure ArpTaskEnv where
  sweepTick : BitVec 32
  allocTick : BitVec 32
  request : ArpEnv

/-- One turn of the loop over the pending requests. -/
def expirePending (now : BitVec 32) (i : PendingIdx) (s : ArpState) : ArpState :=
  if (s.arpPendingTasks i).expirationTick ≤ now then notifyPending s i else s

/-- The pending requests that have timed out are given up. -/
def sweepPending (s : ArpState) (now : BitVec 32) : ArpState := forIdx (expirePending now) s

/-- A task is added to an entry, if there is room. -/
def addWaitingTask (s : ArpState) (i : PendingIdx) (task : TaskHandle) : ArpState :=
  let p := s.arpPendingTasks i
  if maxPendingPerIp ≤ p.waitingTasks.length then taskNotifyGive s task
  else s.setPending i { p with waitingTasks := p.waitingTasks ++ [task] }

/-- The branch of `arp_task` for a dequeued request. -/
def handleRequest (s : ArpState) (request : ArpRequest) (env : ArpTaskEnv) : ArpState :=
  match findPending s request.ip with
  | some i => addWaitingTask s i request.task
  | none =>
      match allocPending s request.ip env.allocTick with
      | none => taskNotifyGive s request.task
      | some (allocated, i) =>
          let r := sendArpRequest allocated.toArpGlobals request.ip env.request
          let sent : ArpState := { allocated with toArpGlobals := r.1 }
          if r.2 ≠ .ok then taskNotifyGive sent request.task
          else addWaitingTask sent i request.task

/-- `xQueueSelectFromSet`: the oldest handle in the set, and the state without it. -/
def selectFromSet (s : ArpState) : ArpState × Option ArpQueueHandle :=
  match s.arpQueueSet with
  | [] => (s, none)
  | handle :: set => ({ s with arpQueueSet := set }, some handle)

/-- The part of the loop of `arp_task` behind the sweep. -/
def handleSelected (s : ArpState) (handle : Option ArpQueueHandle) (env : ArpTaskEnv) : ArpState :=
  match handle with
  | some .requestQueue =>
      match s.arpRequestQueue with
      | [] => s
      | request :: queue =>
          handleRequest ({ s with arpRequestQueue := queue }.note (.dequeued request)) request env
  | some .inputQueue =>
      match s.arpInputQueue with
      | [] => s
      | entry :: queue => addIpMacCacheEntry { s with arpInputQueue := queue } entry
  | none => s

/-- One iteration of the loop of `arp_task`. -/
def arpTaskIteration (s : ArpState) (env : ArpTaskEnv) : ArpState :=
  let selected := selectFromSet s
  handleSelected (sweepPending selected.1 env.sweepTick) selected.2 env

end NetStack.Arp
