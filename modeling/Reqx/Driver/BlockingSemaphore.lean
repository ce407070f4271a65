import Mathlib.Data.List.Induction
import Reqx.Core.Quantities
import Reqx.Library.Shares

/-!
# The semaphore of the blocking client

Any number of threads share a `BlockingSemaphore`. They take turns at the
operations of its lock and of its condition variable; what a thread does
between two of them is part of its next one. A thread in the condition variable
may wake up at any time, notified or not, and then has to get the lock back
before it looks at the permits again.
-/

namespace Reqx.Driver

inductive SemaphoreCall where
  | tryAcquire
  | acquire (deadlineAt : Option ℕ)
  | release
  deriving DecidableEq, Repr

inductive SemaphoreResult where
  | permit
  /-- `try_acquire` found no permit. -/
  | none
  /-- `acquire` gave up: `AcquirePermitError::Timeout`. -/
  | timeout
  | released
  deriving DecidableEq, Repr

inductive SemaphoreThread where
  | idle
  /-- The thread wants the lock for its call. -/
  | entering (call : SemaphoreCall)
  | locked (call : SemaphoreCall)
  | asleep (deadlineAt : Option ℕ) (notified : Bool)
  /-- The thread has left the condition variable and wants the lock back. -/
  | waking (deadlineAt : Option ℕ) (notified timedOut : Bool)
  | awake (deadlineAt : Option ℕ) (notified timedOut : Bool)
  /-- The permit is back and a waiter notified; the lock is still held. -/
  | unlocking
  | returned (result : SemaphoreResult)
  deriving DecidableEq, Repr

namespace SemaphoreThread

/-- The thread was notified and has not looked at the permits since. -/
def isNotified : SemaphoreThread → Bool
  | .asleep _ notified | .waking _ notified _ | .awake _ notified _ => notified
  | _ => false

def waitsInVain : SemaphoreThread → Bool
  | .asleep _ false => true
  | _ => false

end SemaphoreThread

/-! ## The code between two operations -/

/-- A round of the loop of `acquire`, up to the wait or the return. -/
def acquireRound (permits : ℕ) (deadlineAt : Option ℕ) (now : ℕ) : ℕ × SemaphoreThread :=
  if permits > 0 then (permits - 1, .returned .permit)
  else
    match deadlineAt with
    | some deadline =>
      if now ≥ deadline then (permits, .returned .timeout)
      else (permits, .asleep deadlineAt false)
    | none => (permits, .asleep deadlineAt false)

/-- What follows a wait: the check of its result, then the next round. -/
def acquireAfterWait (permits : ℕ) (deadlineAt : Option ℕ) (timedOut : Bool) (now next : ℕ) :
    ℕ × SemaphoreThread :=
  match deadlineAt with
  | some deadline =>
    if timedOut && permits = 0 && now ≥ deadline then (permits, .returned .timeout)
    else acquireRound permits deadlineAt next
  | none => acquireRound permits deadlineAt next

def tryAcquirePermit (permits : ℕ) : ℕ × SemaphoreThread :=
  if permits = 0 then (permits, .returned .none) else (permits - 1, .returned .permit)

/-- `notify_one` wakes one of the threads that sleep, if there is one. -/
def notifyOne (threads : List SemaphoreThread) (target : Option ℕ) :
    Option (List SemaphoreThread) :=
  match target with
  | none => if threads.any SemaphoreThread.waitsInVain then none else some threads
  | some index =>
    match threads[index]? with
    | some (.asleep deadlineAt false) => some (threads.set index (.asleep deadlineAt true))
    | _ => none

/-! ## The system -/

structure BlockingSemaphore where
  permits : ℕ
  owner : Option ℕ
  threads : List SemaphoreThread
  deriving DecidableEq

inductive SemaphoreOp where
  | spawn
  | call (thread : ℕ) (call : SemaphoreCall)
  | lock (thread : ℕ)
  /-- The code up to the next operation, with the clock readings it makes and the thread that
  `notify_one` picks. -/
  | run (thread now next : ℕ) (target : Option ℕ)
  | wake (thread : ℕ) (timedOut : Bool)
  deriving DecidableEq, Repr

namespace BlockingSemaphore

def new (permits : ℕ) : BlockingSemaphore := ⟨permits, none, []⟩

/-- How many notified threads have not run yet. -/
def notified (s : BlockingSemaphore) : ℕ := s.threads.countP SemaphoreThread.isNotified

def set (s : BlockingSemaphore) (thread : ℕ) (phase : SemaphoreThread) : BlockingSemaphore :=
  { s with threads := s.threads.set thread phase }

/-- The thread gives up the lock, by a return or by a wait. -/
def leave (s : BlockingSemaphore) (thread : ℕ) (result : ℕ × SemaphoreThread) : BlockingSemaphore :=
  ⟨result.1, none, s.threads.set thread result.2⟩

def call (s : BlockingSemaphore) (thread : ℕ) (call : SemaphoreCall) : BlockingSemaphore :=
  match s.threads[thread]? with
  | some .idle | some (.returned _) => s.set thread (.entering call)
  | _ => s

def lock (s : BlockingSemaphore) (thread : ℕ) : BlockingSemaphore :=
  match s.owner, s.threads[thread]? with
  | none, some (.entering call) => { s.set thread (.locked call) with owner := some thread }
  | none, some (.waking deadlineAt notified timedOut) =>
    { s.set thread (.awake deadlineAt notified timedOut) with owner := some thread }
  | _, _ => s

def release (s : BlockingSemaphore) (thread : ℕ) (target : Option ℕ) : BlockingSemaphore :=
  match notifyOne s.threads target with
  | none => s
  | some threads =>
    { s with
      permits := saturatingAdd s.permits 1
      threads := threads.set thread .unlocking }

def run (s : BlockingSemaphore) (thread now next : ℕ) (target : Option ℕ) : BlockingSemaphore :=
  if s.owner = some thread then
    match s.threads[thread]? with
    | some (.locked .tryAcquire) => s.leave thread (tryAcquirePermit s.permits)
    | some (.locked (.acquire deadlineAt)) =>
      s.leave thread (acquireRound s.permits deadlineAt now)
    | some (.awake deadlineAt _ timedOut) =>
      s.leave thread (acquireAfterWait s.permits deadlineAt timedOut now next)
    | some (.locked .release) => s.release thread target
    | some .unlocking => s.leave thread (s.permits, .returned .released)
    | _ => s
  else s

/-- A notification, a timeout or nothing at all ends the sleep. -/
def wake (s : BlockingSemaphore) (thread : ℕ) (timedOut : Bool) : BlockingSemaphore :=
  match s.threads[thread]? with
  | some (.asleep deadlineAt notified) =>
    s.set thread (.waking deadlineAt notified (timedOut && deadlineAt.isSome))
  | _ => s

def step (s : BlockingSemaphore) : SemaphoreOp → BlockingSemaphore
  | .spawn => { s with threads := s.threads ++ [.idle] }
  | .call thread call => s.call thread call
  | .lock thread => s.lock thread
  | .run thread now next target => s.run thread now next target
  | .wake thread timedOut => s.wake thread timedOut

def reached (permits : ℕ) (ops : List SemaphoreOp) : BlockingSemaphore :=
  ops.foldl step (new permits)

/-! ## What a step can do -/

/-- The two things a thread with the lock can find. -/
inductive Looked (permits : ℕ) : ℕ × SemaphoreThread → Prop
  | took (hpermits : 0 < permits) : Looked permits (permits - 1, .returned .permit)
  | empty (next : SemaphoreThread) (hpermits : permits = 0) : Looked permits (permits, next)

theorem looked_tryAcquirePermit (permits : ℕ) : Looked permits (tryAcquirePermit permits) := by
  unfold tryAcquirePermit
  split
  next hnone => exact .empty _ hnone
  next hsome => exact .took (Nat.pos_of_ne_zero hsome)

theorem looked_acquireRound (permits : ℕ) (deadlineAt : Option ℕ) (now : ℕ) :
    Looked permits (acquireRound permits deadlineAt now) := by
  unfold acquireRound
  split
  next hsome => exact .took hsome
  next hnone =>
    have hpermits : permits = 0 := Nat.eq_zero_of_not_pos hnone
    split
    · split
      · exact .empty _ hpermits
      · exact .empty _ hpermits
    · exact .empty _ hpermits

theorem looked_acquireAfterWait (permits : ℕ) (deadlineAt : Option ℕ) (timedOut : Bool)
    (now next : ℕ) : Looked permits (acquireAfterWait permits deadlineAt timedOut now next) := by
  unfold acquireAfterWait
  split
  · split
    next hgivesUp =>
      simp only [Bool.and_eq_true, decide_eq_true_eq] at hgivesUp
      exact .empty _ hgivesUp.1.2
    · exact looked_acquireRound _ _ _
  · exact looked_acquireRound _ _ _

theorem getElem?_set_cases {threads : List SemaphoreThread} {thread index : ℕ}
    {phase next : SemaphoreThread} (h : (threads.set index next)[thread]? = some phase) :
    phase = next ∨ threads[thread]? = some phase := by
  rw [List.getElem?_set] at h
  split at h
  · split at h
    · exact .inl (Option.some.inj h).symm
    · cases h
  · exact .inr h

/-- What `notify_one` does. -/
inductive Notified (threads : List SemaphoreThread) : List SemaphoreThread → Prop
  | nobody (hnobody : ∀ t ∈ threads, t.waitsInVain = false) : Notified threads threads
  | one (index : ℕ) (deadlineAt : Option ℕ)
      (hsleeps : threads[index]? = some (.asleep deadlineAt false)) :
      Notified threads (threads.set index (.asleep deadlineAt true))

theorem notified_of_notifyOne {threads threads' : List SemaphoreThread} {target : Option ℕ}
    (h : notifyOne threads target = some threads') : Notified threads threads' := by
  unfold notifyOne at h
  split at h
  · split at h
    · cases h
    next hnone =>
      cases h
      rw [Bool.not_eq_true, List.any_eq_false] at hnone
      exact .nobody fun t ht ↦ Bool.eq_false_of_not_eq_true (hnone t ht)
  · split at h
    next deadlineAt hsleeps =>
      cases h
      exact .one _ deadlineAt hsleeps
    · cases h

section Notified

variable {threads threads' : List SemaphoreThread} {thread : ℕ} {phase : SemaphoreThread}

theorem Notified.getElem? (h : Notified threads threads') (hphase : phase.waitsInVain = false)
    (hthread : threads[thread]? = some phase) : threads'[thread]? = some phase := by
  cases h with
  | nobody hnobody => exact hthread
  | one index deadlineAt hsleeps =>
    have hne : index ≠ thread := by
      rintro rfl
      rw [hthread] at hsleeps
      cases hsleeps
      cases hphase
    rw [List.getElem?_set_ne hne]
    exact hthread

theorem Notified.of_getElem? (h : Notified threads threads') (hphase : phase.isNotified = false)
    (hthread : threads'[thread]? = some phase) : threads[thread]? = some phase := by
  cases h with
  | nobody hnobody => exact hthread
  | one index deadlineAt hsleeps =>
    rcases getElem?_set_cases hthread with rfl | hkept
    · cases hphase
    · exact hkept

end Notified

/-- A phase between two looks at the permits. -/
def Passing (phase next : SemaphoreThread) : Prop :=
  next.isNotified = phase.isNotified ∧ next.waitsInVain = false ∧ next ≠ .returned .timeout

inductive Moved (s : BlockingSemaphore) : BlockingSemaphore → Prop
  | kept : Moved s s
  | spawned : Moved s { s with threads := s.threads ++ [.idle] }
  | passed (owner : Option ℕ) (thread : ℕ) (phase next : SemaphoreThread)
      (hthread : s.threads[thread]? = some phase) (hpassing : Passing phase next) :
      Moved s ⟨s.permits, owner, s.threads.set thread next⟩
  | looked (thread : ℕ) (phase : SemaphoreThread) (result : ℕ × SemaphoreThread)
      (hthread : s.threads[thread]? = some phase) (hlooked : Looked s.permits result) :
      Moved s (s.leave thread result)
  | released (thread : ℕ) (threads : List SemaphoreThread)
      (hthread : s.threads[thread]? = some (.locked .release))
      (hnotify : Notified s.threads threads) :
      Moved s ⟨saturatingAdd s.permits 1, s.owner, threads.set thread .unlocking⟩

theorem moved_call (s : BlockingSemaphore) (thread : ℕ) (call : SemaphoreCall) :
    Moved s (s.call thread call) := by
  unfold BlockingSemaphore.call
  split
  next hthread => exact .passed _ _ _ _ hthread ⟨rfl, rfl, by simp⟩
  next result hthread => exact .passed _ _ _ _ hthread ⟨rfl, rfl, by simp⟩
  · exact .kept

theorem moved_lock (s : BlockingSemaphore) (thread : ℕ) : Moved s (s.lock thread) := by
  unfold BlockingSemaphore.lock
  split
  next call howner hthread => exact .passed _ _ _ _ hthread ⟨rfl, rfl, by simp⟩
  next deadlineAt notified timedOut howner hthread =>
    exact .passed _ _ _ _ hthread ⟨rfl, rfl, by simp⟩
  · exact .kept

theorem moved_run (s : BlockingSemaphore) (thread now next : ℕ) (target : Option ℕ) :
    Moved s (s.run thread now next target) := by
  unfold BlockingSemaphore.run
  split
  · split
    next hthread => exact .looked _ _ _ hthread (looked_tryAcquirePermit _)
    next deadlineAt hthread => exact .looked _ _ _ hthread (looked_acquireRound _ _ _)
    next deadlineAt notified timedOut hthread =>
      exact .looked _ _ _ hthread (looked_acquireAfterWait _ _ _ _ _)
    next hthread =>
      unfold BlockingSemaphore.release
      split
      · exact .kept
      next threads hnotify => exact .released _ _ hthread (notified_of_notifyOne hnotify)
    next hthread => exact .passed _ _ _ _ hthread ⟨rfl, rfl, by simp⟩
    · exact .kept
  · exact .kept

theorem moved_wake (s : BlockingSemaphore) (thread : ℕ) (timedOut : Bool) :
    Moved s (s.wake thread timedOut) := by
  unfold BlockingSemaphore.wake
  split
  next deadlineAt notified hthread => exact .passed _ _ _ _ hthread ⟨rfl, rfl, by simp⟩
  · exact .kept

theorem moved_step (s : BlockingSemaphore) (op : SemaphoreOp) : Moved s (s.step op) := by
  cases op with
  | spawn => exact .spawned
  | call thread call => exact moved_call s thread call
  | lock thread => exact moved_lock s thread
  | run thread now next target => exact moved_run s thread now next target
  | wake thread timedOut => exact moved_wake s thread timedOut

/-! ## Wakeups -/

/-- If a thread sleeps that nobody has notified, there is a notified thread for each permit. -/
def Awaited (permits : ℕ) (threads : List SemaphoreThread) : Prop :=
  (∃ t ∈ threads, t.waitsInVain = true) → permits ≤ threads.countP SemaphoreThread.isNotified

theorem awaited_zero (threads : List SemaphoreThread) : Awaited 0 threads :=
  fun _ ↦ Nat.zero_le _

section Awaited

variable {permits permits' thread : ℕ} {threads threads' : List SemaphoreThread}
  {phase next : SemaphoreThread}

/-- A thread that is not put to sleep takes as many permits as it uses up notifications. -/
theorem Awaited.set (h : Awaited permits threads) (hthread : threads[thread]? = some phase)
    (hcount : permits' + phase.isNotified.toNat ≤ permits + next.isNotified.toNat)
    (hawake : next.waitsInVain = false) : Awaited permits' (threads.set thread next) := by
  rintro ⟨t, ht, hvain⟩
  rcases List.mem_or_eq_of_mem_set ht with hmem | rfl
  · have hbefore := h ⟨t, hmem, hvain⟩
    have hset := Shares.countP_set SemaphoreThread.isNotified hthread next
    omega
  · rw [hawake] at hvain
    cases hvain

theorem Awaited.looked (h : Awaited permits threads) (hthread : threads[thread]? = some phase)
    {result : ℕ × SemaphoreThread} (hlooked : Looked permits result) :
    Awaited result.1 (threads.set thread result.2) := by
  cases hlooked with
  | took hpermits =>
    refine h.set hthread ?_ rfl
    have hone : phase.isNotified.toNat ≤ 1 := Bool.toNat_le _
    change permits - 1 + phase.isNotified.toNat ≤ permits + 0
    omega
  | empty next hpermits =>
    subst hpermits
    exact awaited_zero _

/-- The permit that comes back goes with a notification, unless nobody is left to notify. -/
theorem Awaited.notifyOne (h : Awaited permits threads) (hnotify : Notified threads threads') :
    Awaited (saturatingAdd permits 1) threads' := by
  have hadded : saturatingAdd permits 1 ≤ permits + 1 := min_le_left _ _
  cases hnotify with
  | nobody hnobody =>
    rintro ⟨t, ht, hvain⟩
    rw [hnobody t ht] at hvain
    cases hvain
  | one index deadlineAt hsleeps =>
    exact h.set hsleeps (by simpa [SemaphoreThread.isNotified] using hadded) rfl

end Awaited

theorem Awaited.step {s s' : BlockingSemaphore} (h : Awaited s.permits s.threads)
    (hmoved : Moved s s') : Awaited s'.permits s'.threads := by
  cases hmoved with
  | kept => exact h
  | spawned =>
    rintro ⟨t, ht, hvain⟩
    rcases List.mem_append.mp ht with ht | ht
    · rw [List.countP_append]
      exact (h ⟨t, ht, hvain⟩).trans (Nat.le_add_right _ _)
    · rw [List.mem_singleton.mp ht] at hvain
      cases hvain
  | passed owner thread phase next hthread hpassing =>
    refine Awaited.set h hthread ?_ hpassing.2.1
    rw [hpassing.1]
  | looked thread phase result hthread hlooked => exact Awaited.looked h hthread hlooked
  | released thread threads hthread hnotify =>
    have hstill := hnotify.getElem? rfl hthread
    exact (Awaited.notifyOne h hnotify).set hstill (Nat.le_refl _) rfl

theorem awaited_reached (permits : ℕ) (ops : List SemaphoreOp) :
    Awaited (reached permits ops).permits (reached permits ops).threads := by
  induction ops using List.reverseRecOn with
  | nil =>
    rintro ⟨t, ht, -⟩
    cases ht
  | append_singleton ops op ih =>
    rw [reached, List.foldl_append]
    exact Awaited.step ih (moved_step _ op)

/-! ## Timeouts -/

theorem Looked.no_permit {permits : ℕ} {result : ℕ × SemaphoreThread} (h : Looked permits result)
    (htimeout : result.2 = .returned .timeout) : permits = 0 ∧ result.1 = 0 := by
  cases h with
  | took hpermits => cases htimeout
  | empty next hpermits => exact ⟨hpermits, hpermits⟩

theorem Moved.no_permit_of_timeout {s s' : BlockingSemaphore} (h : Moved s s') {thread : ℕ}
    (hbefore : s.threads[thread]? ≠ some (.returned .timeout))
    (hafter : s'.threads[thread]? = some (.returned .timeout)) :
    s.permits = 0 ∧ s'.permits = 0 := by
  cases h with
  | kept => exact absurd hafter hbefore
  | spawned =>
    rw [List.getElem?_append] at hafter
    split at hafter
    · exact absurd hafter hbefore
    · cases List.mem_singleton.mp (List.mem_of_getElem? hafter)
  | passed owner index phase next hthread hpassing =>
    rcases getElem?_set_cases hafter with hnext | hkept
    · exact absurd hnext.symm hpassing.2.2
    · exact absurd hkept hbefore
  | looked index phase result hthread hlooked =>
    rcases getElem?_set_cases hafter with hnext | hkept
    · exact hlooked.no_permit hnext.symm
    · exact absurd hkept hbefore
  | released index threads hthread hnotify =>
    rcases getElem?_set_cases hafter with hnext | hkept
    · cases hnext
    · exact absurd (hnotify.of_getElem? rfl hkept) hbefore

/-- In every reachable state a sleeping thread that was not notified leaves at least as many
notified threads to run as there are permits, and no thread gives up while there is one. -/
theorem no_lost_wakeup (permits : ℕ) (ops : List SemaphoreOp) :
    ((∃ (thread : ℕ) (deadlineAt : Option ℕ),
        (reached permits ops).threads[thread]? = some (.asleep deadlineAt false)) →
      (reached permits ops).permits ≤ (reached permits ops).notified) ∧
    ∀ (op : SemaphoreOp) (thread : ℕ),
      (reached permits ops).threads[thread]? ≠ some (.returned .timeout) →
        ((reached permits ops).step op).threads[thread]? = some (.returned .timeout) →
          (reached permits ops).permits = 0 ∧ ((reached permits ops).step op).permits = 0 := by
  constructor
  · rintro ⟨thread, deadlineAt, hthread⟩
    exact awaited_reached permits ops ⟨_, List.mem_of_getElem? hthread, rfl⟩
  · intro op thread hbefore hafter
    exact (moved_step _ op).no_permit_of_timeout hbefore hafter

end BlockingSemaphore

end Reqx.Driver
