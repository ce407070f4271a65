import Reqx.Library.Shares
import Reqx.Driver.Client

/-!
# Per-host concurrency limits

`acquire_host` of both clients. The semaphores live in a heap that only grows,
so that those which are no longer in the table stay visible; a handle is an
index into it and every `Arc` is counted. A call looks its host up under the
lock of the table and then goes on with its handle alone, one step at a time.
-/

namespace Reqx.Driver

/-! ## Cleanup -/

section Cleanup

variable {E : Type} (isIdle : E → Bool) (lastUsedAt : E → ℕ)

/-- The key `min_by_key` picks: the first one in key order on a tie. -/
def oldestIdleHost (entries : Std.TreeMap Text E) : Option Text :=
  ((entries.toList.filter fun e ↦ isIdle e.2).argmin fun e ↦ lastUsedAt e.2).map Prod.fst

/-- The loop of the cleanup. Each round removes one entry, so the number of
entries is enough fuel. -/
def evictOldestIdleHosts (maxEntries : ℕ) : ℕ → Std.TreeMap Text E → Std.TreeMap Text E
  | 0, entries => entries
  | fuel + 1, entries =>
    if entries.size > maxEntries then
      match oldestIdleHost isIdle lastUsedAt entries with
      | none => entries
      | some oldestKey => evictOldestIdleHosts maxEntries fuel (entries.erase oldestKey)
    else entries

def cleanupStalePerHostLimiters (entries : Std.TreeMap Text E) (now entryTtl maxEntries : ℕ) :
    Std.TreeMap Text E :=
  let retained := entries.filter fun _ entry ↦
    !isIdle entry || decide (saturatingDurationSince now (lastUsedAt entry) ≤ entryTtl)
  evictOldestIdleHosts isIdle lastUsedAt maxEntries retained.size retained

end Cleanup

def perHostLimiterEntryTtl : ℕ := fromSecs 300
def perHostLimiterMaxEntries : ℕ := 1024

/-! ## Semaphores -/

/-- An allocated semaphore. `host` is the key it was created for. -/
structure HostSemaphore where
  host : Text
  availablePermits : ℕ
  strongCount : ℕ
  deriving DecidableEq

namespace HostSemaphore

def new (host : Text) (permits : ℕ) : HostSemaphore := ⟨host, permits, 1⟩

def take (s : HostSemaphore) : HostSemaphore :=
  { s with availablePermits := s.availablePermits - 1 }

def release (s : HostSemaphore) : HostSemaphore :=
  { s with availablePermits := saturatingAdd s.availablePermits 1 }

def cloneHandle (s : HostSemaphore) : HostSemaphore := { s with strongCount := s.strongCount + 1 }

def dropHandle (s : HostSemaphore) : HostSemaphore := { s with strongCount := s.strongCount - 1 }

end HostSemaphore

structure PerHostLimiterEntry where
  semaphore : ℕ
  limit : ℕ
  lastUsedAt : ℕ
  deriving DecidableEq

def PerHostLimiterEntry.isIdle (heap : List HostSemaphore) (entry : PerHostLimiterEntry) : Bool :=
  match heap[entry.semaphore]? with
  | none => false
  | some semaphore =>
    semaphore.strongCount == 1 && semaphore.availablePermits == entry.limit

/-! ## Calls -/

/-- Where a call of `acquire_host` is, or the permit it returned. -/
inductive HostAcquisition where
  /-- The call owns a handle and waits for the semaphore. -/
  | waiting (semaphore : ℕ) (deadlineAt : Option ℕ)
  /-- The semaphore has given a permit that the caller does not have yet. -/
  | granted (semaphore : ℕ)
  /-- The permit of the blocking client exists beside the handle of the call. -/
  | delivering (semaphore : ℕ)
  | holding (semaphore : ℕ)
  /-- The permit has been given back; its handle is still there. -/
  | released (semaphore : ℕ)
  | finished
  deriving DecidableEq

namespace HostAcquisition

/-- How many handles to the semaphore the call owns. -/
def handles (id : ℕ) : HostAcquisition → ℕ
  | .delivering semaphore => if semaphore = id then 2 else 0
  | .waiting semaphore _ | .granted semaphore | .holding semaphore | .released semaphore =>
    if semaphore = id then 1 else 0
  | .finished => 0

/-- How many permits of the semaphore are out for the call. -/
def permits (id : ℕ) : HostAcquisition → ℕ
  | .granted semaphore | .delivering semaphore | .holding semaphore =>
    if semaphore = id then 1 else 0
  | .waiting _ _ | .released _ | .finished => 0

end HostAcquisition

/-- `per_host_limit`, a `usize`. -/
structure HostLimit where
  permits : ℕ
  fits : permits ≤ usizeMax

structure HostLimiters where
  perHost : Std.TreeMap Text PerHostLimiterEntry
  heap : List HostSemaphore
  calls : List HostAcquisition

namespace HostLimiters

def new : HostLimiters := ⟨∅, [], []⟩

def outstanding (s : HostLimiters) (id : ℕ) : ℕ :=
  Shares.total (HostAcquisition.permits id) s.calls

/-! ## The lookup -/

def dropEvicted (before after : Std.TreeMap Text PerHostLimiterEntry) (heap : List HostSemaphore) :
    List HostSemaphore :=
  (before.toList.filter fun e ↦ !after.contains e.1).foldl
    (fun heap e ↦ heap.modify e.2.semaphore HostSemaphore.dropHandle) heap

/-- The cleanup, with the handles that leave the table. -/
def cleanup (s : HostLimiters) (now : ℕ) : HostLimiters :=
  let perHost := cleanupStalePerHostLimiters (PerHostLimiterEntry.isIdle s.heap)
    PerHostLimiterEntry.lastUsedAt s.perHost now perHostLimiterEntryTtl perHostLimiterMaxEntries
  { s with perHost, heap := dropEvicted s.perHost perHost s.heap }

/-- `entry(host).or_insert_with(..)`, with its new `last_used_at`. -/
def useEntry (s : HostLimiters) (host : Text) (limit now : ℕ) :
    PerHostLimiterEntry × HostLimiters :=
  match s.perHost[host]? with
  | some entry =>
    let entry := { entry with lastUsedAt := now }
    (entry, { s with perHost := s.perHost.insert host entry })
  | none =>
    let entry := ⟨s.heap.length, limit, now⟩
    (entry, { s with
      perHost := s.perHost.insert host entry
      heap := s.heap ++ [.new host limit] })

/-- `try_acquire` under the lock of the table; without a permit the call leaves with a handle. -/
def tryAcquire (s : HostLimiters) (semaphore : ℕ) (deadlineAt : Option ℕ) : HostLimiters :=
  match s.heap[semaphore]? with
  | none => s
  | some cell =>
    if cell.availablePermits = 0 then
      { s with
        heap := s.heap.modify semaphore HostSemaphore.cloneHandle
        calls := s.calls ++ [.waiting semaphore deadlineAt] }
    else
      { s with
        heap := s.heap.modify semaphore fun cell ↦ cell.take.cloneHandle
        calls := s.calls ++ [.holding semaphore] }

def acquireHost (limit : Option HostLimit) (s : HostLimiters) (host : Option Text)
    (deadlineAt : Option ℕ) (now : ℕ) : HostLimiters :=
  match limit, host.bind normalizeHostKey with
  | some limit, some host =>
    let (entry, s) := (s.cleanup now).useEntry host limit.permits now
    s.tryAcquire entry.semaphore deadlineAt
  | _, _ => { s with calls := s.calls ++ [.finished] }

/-! ## Steps outside the lock -/

def move (s : HostLimiters) (call : ℕ) (next : HostAcquisition) (semaphore : ℕ)
    (change : HostSemaphore → HostSemaphore) : HostLimiters :=
  { s with
    heap := s.heap.modify semaphore change
    calls := s.calls.set call next }

/-- One look of a waiting call at its semaphore. Only the blocking client has a deadline here. -/
def poll (rt : Runtime) (s : HostLimiters) (call now : ℕ) : HostLimiters :=
  match s.calls[call]? with
  | some (.waiting semaphore deadlineAt) =>
    match s.heap[semaphore]? with
    | none => s
    | some cell =>
      if cell.availablePermits > 0 then
        s.move call (.granted semaphore) semaphore HostSemaphore.take
      else
        match rt, deadlineAt with
        | .blocking, some deadlineAt =>
          if now ≥ deadlineAt then
            s.move call .finished semaphore HostSemaphore.dropHandle
          else s
        | _, _ => s
  | _ => s

/-- The permit reaches the caller: the blocking client clones the handle for it, the async
client moves the handle into it. -/
def deliver (rt : Runtime) (s : HostLimiters) (call : ℕ) : HostLimiters :=
  match s.calls[call]? with
  | some (.granted semaphore) =>
    match rt with
    | .blocking => s.move call (.delivering semaphore) semaphore HostSemaphore.cloneHandle
    | .async => s.move call (.holding semaphore) semaphore id
  | _ => s

/-- The future of the async client is dropped, by its owner or by a timeout around it. -/
def cancel (rt : Runtime) (s : HostLimiters) (call : ℕ) : HostLimiters :=
  match rt, s.calls[call]? with
  | .async, some (.waiting semaphore _) =>
    s.move call .finished semaphore HostSemaphore.dropHandle
  | .async, some (.granted semaphore) =>
    s.move call (.released semaphore) semaphore HostSemaphore.release
  | _, _ => s

/-- The drop of a permit gives it back first. -/
def releasePermit (s : HostLimiters) (call : ℕ) : HostLimiters :=
  match s.calls[call]? with
  | some (.holding semaphore) =>
    s.move call (.released semaphore) semaphore HostSemaphore.release
  | _ => s

def dropHandle (s : HostLimiters) (call : ℕ) : HostLimiters :=
  match s.calls[call]? with
  | some (.delivering semaphore) =>
    s.move call (.holding semaphore) semaphore HostSemaphore.dropHandle
  | some (.released semaphore) => s.move call .finished semaphore HostSemaphore.dropHandle
  | _ => s

end HostLimiters

inductive HostLimiterAction where
  | acquireHost (host : Option Text) (deadlineAt : Option ℕ) (now : ℕ)
  | poll (call now : ℕ)
  | deliver (call : ℕ)
  | cancel (call : ℕ)
  | releasePermit (call : ℕ)
  | dropHandle (call : ℕ)
  deriving DecidableEq

namespace HostLimiters

def step (rt : Runtime) (limit : Option HostLimit) (s : HostLimiters) :
    HostLimiterAction → HostLimiters
  | .acquireHost host deadlineAt now => s.acquireHost limit host deadlineAt now
  | .poll call now => s.poll rt call now
  | .deliver call => s.deliver rt call
  | .cancel call => s.cancel rt call
  | .releasePermit call => s.releasePermit call
  | .dropHandle call => s.dropHandle call

def run (rt : Runtime) (limit : Option HostLimit) (actions : List HostLimiterAction) :
    HostLimiters :=
  actions.foldl (step rt limit) new

end HostLimiters

end Reqx.Driver
