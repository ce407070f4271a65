import Mathlib.Data.List.Induction
import Reqx.Driver.Client
import Reqx.Library.Shares
import Reqx.Resilience.AdaptiveLimit

/-!
# The adaptive controllers of both clients

Threads or tasks share one controller. They take turns at the operations of its
lock and of what they wait on: a condition variable in the blocking client, a
`Notify` in the async one. What they do between two such operations is part of
the next one. Permits are numbered as they are granted; `released` lists the
numbers in the order in which the permits were given back.
-/

namespace Reqx.Driver

open Resilience

inductive AdaptiveTask where
  | idle
  /-- The task wants the lock. In the async client it is already registered with `Notify`. -/
  | entering (deadlineAt : Option ℕ) (notified : Bool)
  | locked (deadlineAt : Option ℕ) (notified : Bool)
  | asleep (deadlineAt : Option ℕ) (notified : Bool)
  /-- The thread has left the condition variable and wants the lock back. -/
  | waking (deadlineAt : Option ℕ) (timedOut : Bool)
  | awake (deadlineAt : Option ℕ) (timedOut : Bool)
  | holding (id : ℕ) (permit : LivePermit)
  /-- A method of the permit wants the lock. -/
  | finishing (id : ℕ) (permit : LivePermit) (ending : Ending) (latency : ℕ)
  | releasing (id : ℕ) (permit : LivePermit) (ending : Ending) (latency : ℕ)
  /-- The place is free and everybody notified; the lock is still held. -/
  | unlocking (id : ℕ) (permit : AdaptiveConcurrencyPermit) (ending : Ending)
  /-- The permit goes out of scope. -/
  | dropping (id : ℕ) (permit : AdaptiveConcurrencyPermit)
  | returned
  deriving DecidableEq

namespace AdaptiveTask

/-- The permit that has not been given back yet. -/
def liveId : AdaptiveTask → Option ℕ
  | .holding id _ | .finishing id _ _ _ | .releasing id _ _ _ => some id
  | .dropping id permit => if permit.completed then none else some id
  | _ => none

def isLive (task : AdaptiveTask) : Bool := task.liveId.isSome

def has (id : ℕ) (task : AdaptiveTask) : Bool := task.liveId = some id

theorem liveId_dropping (id : ℕ) (permit : AdaptiveConcurrencyPermit) :
    (dropping id permit).liveId = if permit.completed then none else some id := rfl

def waitsInVain : AdaptiveTask → Bool
  | .asleep _ false => true
  | _ => false

/-- `notify_all` reaches the threads that wait, `notify_waiters` every task that has registered. -/
def notify (rt : Runtime) : AdaptiveTask → AdaptiveTask
  | .asleep deadlineAt _ => .asleep deadlineAt true
  | .entering deadlineAt notified => .entering deadlineAt (notified || rt = .async)
  | .locked deadlineAt notified => .locked deadlineAt (notified || rt = .async)
  | task => task

@[simp] theorem liveId_notify (rt : Runtime) (task : AdaptiveTask) :
    (task.notify rt).liveId = task.liveId := by
  cases task <;> rfl

@[simp] theorem waitsInVain_notify (rt : Runtime) (task : AdaptiveTask) :
    (task.notify rt).waitsInVain = false := by
  cases task <;> rfl

end AdaptiveTask

structure AdaptiveController (F : Type) where
  state : AdaptiveConcurrencyState F
  owner : Option ℕ
  tasks : List AdaptiveTask
  granted : ℕ
  released : List ℕ

inductive ControllerOp where
  | spawn
  | acquire (task : ℕ) (deadlineAt : Option ℕ)
  | lock (task : ℕ)
  /-- The code up to the next operation, with the clock readings it makes. -/
  | run (task now next clock : ℕ)
  | wake (task : ℕ) (timedOut : Bool)
  /-- The future of an async task is dropped while it waits. -/
  | abandon (task : ℕ)
  /-- A method of the permit is called, or its drop. -/
  | finish (task : ℕ) (ending : Ending) (clock : ℕ)
  deriving DecidableEq, Repr

namespace AdaptiveController

variable {F : Type} (f : F64 F) (policy : AdaptiveConcurrencyPolicy F) (rt : Runtime)
  (s : AdaptiveController F)

def new : AdaptiveController F := ⟨.new f policy, none, [], 0, []⟩

def set (task : ℕ) (next : AdaptiveTask) : AdaptiveController F :=
  { s with tasks := s.tasks.set task next }

/-- The task gives up the lock. -/
def leave (task : ℕ) (next : AdaptiveTask) : AdaptiveController F :=
  { s with owner := none, tasks := s.tasks.set task next }

def acquire (task : ℕ) (deadlineAt : Option ℕ) : AdaptiveController F :=
  match s.tasks[task]? with
  | some .idle | some .returned =>
    match rt with
    | .blocking => s.set task (.entering deadlineAt false)
    | .async => s.set task (.entering none false)
  | _ => s

def lock (task : ℕ) : AdaptiveController F :=
  match s.owner, s.tasks[task]? with
  | none, some (.entering deadlineAt notified) =>
    { s.set task (.locked deadlineAt notified) with owner := some task }
  | none, some (.waking deadlineAt timedOut) =>
    { s.set task (.awake deadlineAt timedOut) with owner := some task }
  | none, some (.finishing id permit ending latency) =>
    { s.set task (.releasing id permit ending latency) with owner := some task }
  | _, _ => s

/-- Without a place the async task awaits its notification; the thread looks at its deadline
and waits. -/
def park (task : ℕ) (deadlineAt : Option ℕ) (notified : Bool) (now : ℕ) : AdaptiveController F :=
  match rt, deadlineAt with
  | .async, _ => s.leave task (.asleep deadlineAt notified)
  | .blocking, none => s.leave task (.asleep none false)
  | .blocking, some deadline =>
    if now ≥ deadline then s.leave task .returned
    else s.leave task (.asleep (some deadline) false)

/-- A round of the loop of `acquire`. -/
def round (task : ℕ) (deadlineAt : Option ℕ) (notified : Bool) (now clock : ℕ) :
    AdaptiveController F :=
  match s.state.tryAcquire with
  | (true, state) =>
    { s.leave task (.holding s.granted ⟨⟨clock, false⟩, rfl⟩) with
      state, granted := s.granted + 1 }
  | (false, _) => s.park rt task deadlineAt notified now

/-- What follows a wait of the blocking client: the check of its result, then the next round. -/
def afterWait (task : ℕ) (deadlineAt : Option ℕ) (timedOut : Bool) (now next clock : ℕ) :
    AdaptiveController F :=
  match deadlineAt with
  | some deadline =>
    if timedOut && now ≥ deadline then s.leave task .returned
    else s.round rt task deadlineAt false next clock
  | none => s.round rt task deadlineAt false next clock

/-- `release_and_record` or `release_without_record`, up to the notification. -/
def release (task id : ℕ) (permit : LivePermit) (ending : Ending) (latency : ℕ) :
    AdaptiveController F :=
  let state :=
    match ending with
    | .success => s.state.releaseAndRecord f policy .success latency
    | .failure => s.state.releaseAndRecord f policy .failure latency
    | .cancel | .drop => s.state.releaseWithoutRecord
  { s with
    state
    tasks := (s.tasks.map (AdaptiveTask.notify rt)).set task (.unlocking id permit.val ending)
    released := s.released ++ [id] }

/-- A method that has given the permit back marks it before it goes out of scope. -/
def unlock (task id : ℕ) (permit : AdaptiveConcurrencyPermit) (ending : Ending) :
    AdaptiveController F :=
  match ending with
  | .drop => s.leave task .returned
  | .success | .failure | .cancel => s.leave task (.dropping id { permit with completed := true })

def runLocked (task now next clock : ℕ) : AdaptiveController F :=
  match s.tasks[task]? with
  | some (.locked deadlineAt notified) => s.round rt task deadlineAt notified now clock
  | some (.awake deadlineAt timedOut) => s.afterWait rt task deadlineAt timedOut now next clock
  | some (.releasing id permit ending latency) =>
    s.release f policy rt task id permit ending latency
  | some (.unlocking id permit ending) => s.unlock task id permit ending
  | _ => s

/-- `Drop::drop` of the permit looks whether it was given back. -/
def runDrop (task : ℕ) : AdaptiveController F :=
  match s.tasks[task]? with
  | some (.dropping id permit) =>
    if h : permit.completed = false then s.set task (.finishing id ⟨permit, h⟩ .drop 0)
    else s.set task .returned
  | _ => s

def run (task now next clock : ℕ) : AdaptiveController F :=
  if s.owner = some task then s.runLocked f policy rt task now next clock else s.runDrop task

/-- A thread may wake up at any time; a task goes on when it is notified, and registers again. -/
def wake (task : ℕ) (timedOut : Bool) : AdaptiveController F :=
  match rt, s.tasks[task]? with
  | .blocking, some (.asleep deadlineAt _) =>
    s.set task (.waking deadlineAt (timedOut && deadlineAt.isSome))
  | .async, some (.asleep _ true) => s.set task (.entering none false)
  | _, _ => s

def abandon (task : ℕ) : AdaptiveController F :=
  match rt, s.tasks[task]? with
  | .async, some (.asleep _ _) => s.set task .returned
  | _, _ => s

def finish (task : ℕ) (ending : Ending) (clock : ℕ) : AdaptiveController F :=
  match s.tasks[task]? with
  | some (.holding id permit) =>
    match ending with
    | .drop => s.set task (.dropping id permit.val)
    | .success | .failure | .cancel =>
      s.set task (.finishing id permit ending (permit.val.latency clock))
  | _ => s

def step : ControllerOp → AdaptiveController F
  | .spawn => { s with tasks := s.tasks ++ [.idle] }
  | .acquire task deadlineAt => s.acquire rt task deadlineAt
  | .lock task => s.lock task
  | .run task now next clock => s.run f policy rt task now next clock
  | .wake task timedOut => s.wake rt task timedOut
  | .abandon task => s.abandon rt task
  | .finish task ending clock => s.finish task ending clock

def reached (ops : List ControllerOp) : AdaptiveController F :=
  ops.foldl (step f policy rt) (new f policy)

/-! ## What a step can do -/

/-- A step that neither takes a place nor gives one back, and puts nobody to sleep. -/
def Passing (task next : AdaptiveTask) : Prop :=
  next.liveId = task.liveId ∧ next.waitsInVain = false

variable {s}

inductive Moved (f : F64 F) (policy : AdaptiveConcurrencyPolicy F) (rt : Runtime)
    (s : AdaptiveController F) : AdaptiveController F → Prop
  | kept : Moved f policy rt s s
  | spawned : Moved f policy rt s { s with tasks := s.tasks ++ [.idle] }
  | passed (owner : Option ℕ) (index : ℕ) (task next : AdaptiveTask)
      (htask : s.tasks[index]? = some task) (hpassing : Passing task next) :
      Moved f policy rt s { s with owner, tasks := s.tasks.set index next }
  | parked (index : ℕ) (task next : AdaptiveTask) (htask : s.tasks[index]? = some task)
      (hlive : next.liveId = task.liveId) (hfull : s.state.currentLimit ≤ s.state.inFlight) :
      Moved f policy rt s (s.leave index next)
  | granted (index clock : ℕ) (task : AdaptiveTask) (state : AdaptiveConcurrencyState F)
      (htask : s.tasks[index]? = some task) (hlive : task.liveId = none)
      (hacquire : s.state.tryAcquire = (true, state)) :
      Moved f policy rt s { s.leave index (.holding s.granted ⟨⟨clock, false⟩, rfl⟩) with
        state, granted := s.granted + 1 }
  | released (index id : ℕ) (permit : LivePermit) (ending : Ending) (latency : ℕ)
      (htask : s.tasks[index]? = some (.releasing id permit ending latency)) :
      Moved f policy rt s (s.release f policy rt index id permit ending latency)

section Steps

variable {f policy rt} {index : ℕ} {task : AdaptiveTask}

theorem full_of_tryAcquire {state : AdaptiveConcurrencyState F} {s : AdaptiveConcurrencyState F}
    (h : s.tryAcquire = (false, state)) : s.currentLimit ≤ s.inFlight := by
  unfold AdaptiveConcurrencyState.tryAcquire at h
  split at h
  next hfull => exact hfull
  · cases h

theorem moved_park (htask : s.tasks[index]? = some task) (hlive : task.liveId = none)
    (hfull : s.state.currentLimit ≤ s.state.inFlight) (deadlineAt : Option ℕ) (notified : Bool)
    (now : ℕ) : Moved f policy rt s (s.park rt index deadlineAt notified now) := by
  unfold park
  split
  · exact .parked _ _ _ htask hlive.symm hfull
  · exact .parked _ _ _ htask hlive.symm hfull
  · split
    · exact .parked _ _ _ htask hlive.symm hfull
    · exact .parked _ _ _ htask hlive.symm hfull

theorem moved_round (htask : s.tasks[index]? = some task) (hlive : task.liveId = none)
    (deadlineAt : Option ℕ) (notified : Bool) (now clock : ℕ) :
    Moved f policy rt s (s.round rt index deadlineAt notified now clock) := by
  unfold round
  split
  next state hacquire => exact .granted _ _ _ _ htask hlive hacquire
  next state hfull => exact moved_park htask hlive (full_of_tryAcquire hfull) _ _ _

theorem moved_afterWait (htask : s.tasks[index]? = some task) (hlive : task.liveId = none)
    (deadlineAt : Option ℕ) (timedOut : Bool) (now next clock : ℕ) :
    Moved f policy rt s (s.afterWait rt index deadlineAt timedOut now next clock) := by
  unfold afterWait
  split
  · split
    · exact .passed _ _ _ _ htask ⟨hlive.symm, rfl⟩
    · exact moved_round htask hlive _ _ _ _
  · exact moved_round htask hlive _ _ _ _

theorem moved_unlock {id : ℕ} {permit : AdaptiveConcurrencyPermit} {ending : Ending}
    (htask : s.tasks[index]? = some (.unlocking id permit ending)) :
    Moved f policy rt s (s.unlock index id permit ending) := by
  unfold unlock
  split
  · exact .passed _ _ _ _ htask ⟨rfl, rfl⟩
  all_goals exact .passed _ _ _ _ htask ⟨rfl, rfl⟩

variable (s)

theorem moved_runLocked (index now next clock : ℕ) :
    Moved f policy rt s (s.runLocked f policy rt index now next clock) := by
  unfold runLocked
  split
  next deadlineAt notified htask => exact moved_round htask rfl _ _ _ _
  next deadlineAt timedOut htask => exact moved_afterWait htask rfl _ _ _ _ _
  next id permit ending latency htask => exact .released _ _ _ _ _ htask
  next id permit ending htask => exact moved_unlock htask
  · exact .kept

theorem moved_runDrop (index : ℕ) : Moved f policy rt s (s.runDrop index) := by
  unfold runDrop
  split
  next id permit htask =>
    split
    next hlive =>
      refine .passed _ _ _ _ htask ⟨?_, rfl⟩
      rw [AdaptiveTask.liveId_dropping, hlive]
      rfl
    next hcompleted =>
      rw [Bool.not_eq_false] at hcompleted
      refine .passed _ _ _ _ htask ⟨?_, rfl⟩
      rw [AdaptiveTask.liveId_dropping, hcompleted]
      rfl
  · exact .kept

theorem moved_acquire (index : ℕ) (deadlineAt : Option ℕ) :
    Moved f policy rt s (s.acquire rt index deadlineAt) := by
  unfold acquire
  split
  next htask => split <;> exact .passed _ _ _ _ htask ⟨rfl, rfl⟩
  next htask => split <;> exact .passed _ _ _ _ htask ⟨rfl, rfl⟩
  · exact .kept

theorem moved_lock (index : ℕ) : Moved f policy rt s (s.lock index) := by
  unfold lock
  split
  next deadlineAt notified howner htask => exact .passed _ _ _ _ htask ⟨rfl, rfl⟩
  next deadlineAt timedOut howner htask => exact .passed _ _ _ _ htask ⟨rfl, rfl⟩
  next id permit ending latency howner htask => exact .passed _ _ _ _ htask ⟨rfl, rfl⟩
  · exact .kept

theorem moved_wake (index : ℕ) (timedOut : Bool) :
    Moved f policy rt s (s.wake rt index timedOut) := by
  unfold wake
  split
  next deadlineAt notified htask => exact .passed _ _ _ _ htask ⟨rfl, rfl⟩
  next deadlineAt htask => exact .passed _ _ _ _ htask ⟨rfl, rfl⟩
  · exact .kept

theorem moved_abandon (index : ℕ) : Moved f policy rt s (s.abandon rt index) := by
  unfold abandon
  split
  next deadlineAt notified htask => exact .passed _ _ _ _ htask ⟨rfl, rfl⟩
  · exact .kept

theorem moved_finish (index : ℕ) (ending : Ending) (clock : ℕ) :
    Moved f policy rt s (s.finish index ending clock) := by
  unfold finish
  split
  next id permit htask =>
    split
    · refine .passed _ _ _ _ htask ⟨?_, rfl⟩
      rw [AdaptiveTask.liveId_dropping, permit.property]
      rfl
    all_goals exact .passed _ _ _ _ htask ⟨rfl, rfl⟩
  · exact .kept

theorem moved_step (op : ControllerOp) : Moved f policy rt s (s.step f policy rt op) := by
  cases op with
  | spawn => exact .spawned
  | acquire index deadlineAt => exact moved_acquire s index deadlineAt
  | lock index => exact moved_lock s index
  | run index now next clock =>
    unfold step run
    dsimp only
    split
    · exact moved_runLocked s index now next clock
    · exact moved_runDrop s index
  | wake index timedOut => exact moved_wake s index timedOut
  | abandon index => exact moved_abandon s index
  | finish index ending clock => exact moved_finish s index ending clock

end Steps

/-! ## The invariant -/

/-- How many permits are out. -/
def live (s : AdaptiveController F) : ℕ := s.tasks.countP AdaptiveTask.isLive

/-- How many tasks have the permit with this number. -/
def holders (s : AdaptiveController F) (id : ℕ) : ℕ := s.tasks.countP (AdaptiveTask.has id)

/-- A permit is with one task until it has been given back, once. -/
def OnceEach (s : AdaptiveController F) : Prop :=
  ∀ id, s.holders id + s.released.count id = if id < s.granted then 1 else 0

structure Ok (policy : AdaptiveConcurrencyPolicy F) (s : AdaptiveController F) : Prop where
  count : s.state.inFlight = s.live
  range : policy.InRange s.state.currentLimit
  once : s.OnceEach
  sleepers : ∀ task ∈ s.tasks, task.waitsInVain = true →
    s.state.currentLimit ≤ s.state.inFlight

namespace Ok

variable {f policy rt} {index : ℕ} {task next : AdaptiveTask}

theorem fits (hs : s.Ok policy) : s.state.Fits := hs.range.2.trans policy.fits.2.2

theorem new (hpolicy : policy.Valid f) : (new f policy).Ok policy := by
  refine ⟨rfl, hpolicy.inRange_initial, fun id ↦ ?_, fun task htask ↦ ?_⟩
  · exact (if_neg (Nat.not_lt_zero id)).symm
  · cases htask

/-- A task that goes on with the same permit, or without one. -/
theorem set (hs : s.Ok policy) (htask : s.tasks[index]? = some task)
    (hlive : next.liveId = task.liveId) (owner : Option ℕ)
    (hsleep : next.waitsInVain = true → s.state.currentLimit ≤ s.state.inFlight) :
    Ok policy { s with owner, tasks := s.tasks.set index next } := by
  refine ⟨?_, hs.range, fun id ↦ ?_, fun other hother hvain ↦ ?_⟩
  · have hset := Shares.countP_set AdaptiveTask.isLive htask next
    rw [AdaptiveTask.isLive, AdaptiveTask.isLive, hlive] at hset
    exact hs.count.trans (Nat.add_right_cancel hset).symm
  · have hset := Shares.countP_set (AdaptiveTask.has id) htask next
    rw [AdaptiveTask.has, AdaptiveTask.has, hlive] at hset
    have hsame := Nat.add_right_cancel hset
    exact (congrArg (· + s.released.count id) hsame).trans (hs.once id)
  · rcases List.mem_or_eq_of_mem_set hother with hmem | rfl
    · exact hs.sleepers other hmem hvain
    · exact hsleep hvain

theorem spawned (hs : s.Ok policy) : Ok policy { s with tasks := s.tasks ++ [.idle] } := by
  refine ⟨?_, hs.range, fun id ↦ ?_, fun task htask hvain ↦ ?_⟩
  · rw [live, List.countP_append]
    exact hs.count
  · rw [holders, List.countP_append]
    exact hs.once id
  · rcases List.mem_append.mp htask with hmem | hmem
    · exact hs.sleepers task hmem hvain
    · rw [List.mem_singleton.mp hmem] at hvain
      cases hvain

theorem granted {state : AdaptiveConcurrencyState F} (hs : s.Ok policy)
    (htask : s.tasks[index]? = some task) (hlive : task.liveId = none)
    (hacquire : s.state.tryAcquire = (true, state)) (clock : ℕ) :
    Ok policy { s.leave index (.holding s.granted ⟨⟨clock, false⟩, rfl⟩) with
      state, granted := s.granted + 1 } := by
  obtain ⟨hfree, hcount, hlimit⟩ := AdaptiveConcurrencyState.tryAcquire_spec hs.fits hacquire
  refine ⟨?_, hlimit ▸ hs.range, fun id ↦ ?_, fun other hother hvain ↦ ?_⟩
  · have hset := Shares.countP_set AdaptiveTask.isLive htask
      (.holding s.granted ⟨⟨clock, false⟩, rfl⟩)
    rw [AdaptiveTask.isLive, hlive] at hset
    exact hcount.trans ((congrArg (· + 1) hs.count).trans hset.symm)
  · have hset := Shares.countP_set (AdaptiveTask.has id) htask
      (.holding s.granted ⟨⟨clock, false⟩, rfl⟩)
    have hold : task.has id = false := by simp [AdaptiveTask.has, hlive]
    have hnew : (AdaptiveTask.holding s.granted ⟨⟨clock, false⟩, rfl⟩).has id =
        decide (s.granted = id) := by
      simp [AdaptiveTask.has, AdaptiveTask.liveId]
    rw [hold, hnew] at hset
    have honce := hs.once id
    change (s.tasks.set index _).countP (AdaptiveTask.has id) + s.released.count id =
      if id < s.granted + 1 then 1 else 0
    unfold holders at honce
    by_cases hid : s.granted = id
    · subst hid
      simp only [decide_true, Bool.toNat_true, Bool.toNat_false] at hset
      rw [if_neg (Nat.lt_irrefl _)] at honce
      rw [if_pos (Nat.lt_succ_self _)]
      omega
    · simp only [hid, decide_false, Bool.toNat_false] at hset
      have hsame : id < s.granted + 1 ↔ id < s.granted := by omega
      rw [if_congr hsame rfl rfl]
      omega
  · rcases List.mem_or_eq_of_mem_set hother with hmem | rfl
    · have hfull := hs.sleepers other hmem hvain
      omega
    · cases hvain

/-- The state that a release leaves is the one the methods of the permit leave. -/
theorem release_state (s : AdaptiveController F) (index id : ℕ) (permit : LivePermit)
    (ending : Ending) (clock : ℕ) :
    (s.release f policy rt index id permit ending (permit.val.latency clock)).state =
      permit.val.finish f policy clock s.state ending := by
  obtain ⟨permit, hlive⟩ := permit
  cases ending with
  | success | failure | cancel => rfl
  | drop =>
    rw [AdaptiveConcurrencyPermit.finish, AdaptiveConcurrencyPermit.drop, hlive]
    rfl

theorem inFlight_release (s : AdaptiveController F) (index id : ℕ) (permit : LivePermit)
    (ending : Ending) (latency : ℕ) :
    (s.release f policy rt index id permit ending latency).state.inFlight =
      s.state.inFlight - 1 := by
  cases ending <;> rfl

theorem inRange_release (ieee : f.Ieee) (hpolicy : policy.Valid f)
    (hs : policy.InRange s.state.currentLimit) (index id : ℕ) (permit : LivePermit)
    (ending : Ending) (latency : ℕ) :
    policy.InRange (s.release f policy rt index id permit ending latency).state.currentLimit := by
  cases ending with
  | success | failure =>
    exact AdaptiveConcurrencyState.inRange_releaseAndRecord ieee hpolicy hs _ _
  | cancel | drop => exact hs

theorem released (ieee : f.Ieee) (hpolicy : policy.Valid f) (hs : s.Ok policy) {id : ℕ}
    {permit : LivePermit} {ending : Ending} {latency : ℕ}
    (htask : s.tasks[index]? = some (.releasing id permit ending latency)) :
    Ok policy (s.release f policy rt index id permit ending latency) := by
  have htask' : (s.tasks.map (AdaptiveTask.notify rt))[index]? =
      some (.releasing id permit ending latency) := by
    rw [List.getElem?_map, htask]
    rfl
  have hkept (p : AdaptiveTask → Bool) (hp : ∀ t, p (t.notify rt) = p t) :
      (s.tasks.map (AdaptiveTask.notify rt)).countP p = s.tasks.countP p := by
    rw [List.countP_map]
    exact List.countP_congr fun t _ ↦ by rw [Function.comp_apply, hp]
  refine ⟨?_, inRange_release ieee hpolicy hs.range _ _ _ _ _, fun id' ↦ ?_,
    fun other hother hvain ↦ ?_⟩
  · have hset := Shares.countP_set AdaptiveTask.isLive htask' (.unlocking id permit.val ending)
    rw [hkept _ fun t ↦ congrArg Option.isSome (t.liveId_notify rt)] at hset
    have hcount : s.state.inFlight = s.tasks.countP AdaptiveTask.isLive := hs.count
    change _ + 1 = _ + 0 at hset
    rw [inFlight_release, live]
    change _ = ((s.tasks.map (AdaptiveTask.notify rt)).set index _).countP _
    omega
  · have hset := Shares.countP_set (AdaptiveTask.has id') htask' (.unlocking id permit.val ending)
    rw [hkept _ fun t ↦ by rw [AdaptiveTask.has, AdaptiveTask.has, t.liveId_notify rt]] at hset
    have hold : (AdaptiveTask.releasing id permit ending latency).has id' = decide (id = id') := by
      simp [AdaptiveTask.has, AdaptiveTask.liveId]
    have hnew : (AdaptiveTask.unlocking id permit.val ending).has id' = false := rfl
    rw [hold, hnew] at hset
    have honce : s.tasks.countP (AdaptiveTask.has id') + s.released.count id' = _ := hs.once id'
    change ((s.tasks.map (AdaptiveTask.notify rt)).set index _).countP (AdaptiveTask.has id') +
      (s.released ++ [id]).count id' = _
    rw [List.count_append, List.count_singleton]
    by_cases hid : id = id'
    · rw [if_pos (beq_iff_eq.mpr hid)]
      rw [decide_eq_true hid] at hset
      change _ + 1 = _ + 0 at hset
      change _ = if id' < s.granted then 1 else 0
      omega
    · rw [if_neg (beq_iff_eq.not.mpr hid)]
      rw [decide_eq_false hid] at hset
      change _ + 0 = _ + 0 at hset
      change _ = if id' < s.granted then 1 else 0
      omega
  · rcases List.mem_or_eq_of_mem_set hother with hmem | rfl
    · obtain ⟨task, -, rfl⟩ := List.mem_map.mp hmem
      rw [AdaptiveTask.waitsInVain_notify] at hvain
      cases hvain
    · cases hvain

theorem step (ieee : f.Ieee) (hpolicy : policy.Valid f) (hs : s.Ok policy)
    {s' : AdaptiveController F} (h : Moved f policy rt s s') : s'.Ok policy := by
  cases h with
  | kept => exact hs
  | spawned => exact hs.spawned
  | passed owner index task next htask hpassing =>
    refine hs.set htask hpassing.1 owner fun hvain ↦ ?_
    rw [hpassing.2] at hvain
    cases hvain
  | parked index task next htask hlive hfull => exact hs.set htask hlive none fun _ ↦ hfull
  | granted index clock task state htask hlive hacquire =>
    exact hs.granted htask hlive hacquire clock
  | released index id permit ending latency htask => exact hs.released ieee hpolicy htask

theorem reached (ieee : f.Ieee) (hpolicy : policy.Valid f) (ops : List ControllerOp) :
    (reached f policy rt ops).Ok policy := by
  -- The last step comes after a run that the invariant already holds for.
  induction ops using List.reverseRecOn with
  | nil => exact Ok.new hpolicy
  | append_singleton ops op ih =>
    rw [AdaptiveController.reached, List.foldl_append]
    exact ih.step ieee hpolicy (moved_step _ op)

theorem inFlight_pos (hs : s.Ok policy) (htask : s.tasks[index]? = some task)
    (hlive : task.isLive = true) : 0 < s.state.inFlight := by
  rw [hs.count, live, List.countP_pos_iff]
  exact ⟨task, List.mem_of_getElem? htask, hlive⟩

/-- A release finds a permit to count down for. -/
theorem inFlight_of_released (hs : s.Ok policy) {s' : AdaptiveController F}
    (h : Moved f policy rt s s') (hreleased : s'.released ≠ s.released) :
    s'.state.inFlight + 1 = s.state.inFlight := by
  cases h with
  | kept | spawned | passed | parked | granted => exact absurd rfl hreleased
  | released index id permit ending latency htask =>
    have hpos := hs.inFlight_pos htask rfl
    rw [inFlight_release]
    omega

end Ok

/-- Only a permit that ends with a verdict moves the limit. -/
theorem Moved.limit_moves {f : F64 F} {policy : AdaptiveConcurrencyPolicy F} {rt : Runtime}
    {s' : AdaptiveController F} (hs : s.state.Fits) (h : Moved f policy rt s s')
    (hlimit : s'.state.currentLimit ≠ s.state.currentLimit) :
    ∃ index id permit ending latency,
      s.tasks[index]? = some (.releasing id permit ending latency) ∧
      s' = s.release f policy rt index id permit ending latency ∧
      ending ≠ .cancel ∧ ending ≠ .drop := by
  cases h with
  | kept | spawned | passed | parked => exact absurd rfl hlimit
  | granted index clock task state htask hlive hacquire =>
    exact absurd (AdaptiveConcurrencyState.tryAcquire_spec hs hacquire).2.2 hlimit
  | released index id permit ending latency htask =>
    refine ⟨index, id, permit, ending, latency, htask, rfl, ?_, ?_⟩
    · rintro rfl
      exact hlimit rfl
    · rintro rfl
      exact hlimit rfl

/-! ## Both controllers -/

/-- What holds in a state and of the steps from there. -/
structure Controlled (f : F64 F) (policy : AdaptiveConcurrencyPolicy F) (rt : Runtime)
    (s : AdaptiveController F) : Prop where
  inFlight_eq : s.state.inFlight = s.live
  never_clips : ∀ op, (s.step f policy rt op).released ≠ s.released →
    (s.step f policy rt op).state.inFlight + 1 = s.state.inFlight
  in_range : policy.minLimit ≤ s.state.currentLimit ∧ s.state.currentLimit ≤ policy.maxLimit
  released_once : ∀ id < s.granted,
    s.holders id = 1 ∧ s.released.count id = 0 ∨ s.holders id = 0 ∧ s.released.count id = 1
  limit_moves : ∀ op, (s.step f policy rt op).state.currentLimit ≠ s.state.currentLimit →
    ∃ index id permit ending latency,
      s.tasks[index]? = some (.releasing id permit ending latency) ∧
      s.step f policy rt op = s.release f policy rt index id permit ending latency ∧
      ending ≠ .cancel ∧ ending ≠ .drop
  asleep_full : ∀ task ∈ s.tasks, task.waitsInVain = true →
    s.state.currentLimit ≤ s.state.inFlight
  nobody_stranded : s.live = 0 → ∀ task ∈ s.tasks, task.waitsInVain = false

theorem reached_controlled {f : F64 F} (ieee : f.Ieee) {policy : AdaptiveConcurrencyPolicy F}
    (hpolicy : policy.validate f = .ok ()) (rt : Runtime) (ops : List ControllerOp) :
    Controlled f policy rt (reached f policy rt ops) := by
  have hvalid := AdaptiveConcurrencyPolicy.valid_of_validate hpolicy
  have hs : (reached f policy rt ops).Ok policy := Ok.reached ieee hvalid ops
  refine ⟨hs.count, fun op ↦ hs.inFlight_of_released (moved_step _ op), hs.range, fun id hid ↦ ?_,
    fun op ↦ (moved_step _ op).limit_moves hs.fits, hs.sleepers, fun hlive task htask ↦ ?_⟩
  · have honce := hs.once id
    rw [if_pos hid] at honce
    omega
  · by_contra hvain
    have hfull := hs.sleepers task htask (Bool.not_eq_false _ ▸ hvain)
    have hcount := hs.count
    have hpos := hvalid.min_pos.trans_le hs.range.1
    omega

end AdaptiveController

/-! ### Two tasks and one place -/

namespace AdaptiveController.Sample

theorem policy_fits : 1 ≤ usizeMax ∧ 1 ≤ usizeMax ∧ 2 ≤ usizeMax := by decide

def policy : AdaptiveConcurrencyPolicy ℚ where
  minLimit := 1
  initialLimit := 1
  maxLimit := 2
  increaseStep := 1
  decreaseRatio := 1 / 2
  highLatencyThreshold := 1
  fits := policy_fits

/-- The second task sleeps until the first one gives its place back. -/
def ops : List ControllerOp :=
  [.spawn, .spawn, .acquire 0 none, .lock 0, .run 0 0 0 0, .acquire 1 none, .lock 1,
    .run 1 0 0 0, .finish 0 .cancel 5, .lock 0, .run 0 5 5 5, .run 0 5 5 5, .wake 1 false]

theorem ratioOk_policy : policy.ratioOk F64.binary64 = true := by
  have hhalf : Rounding.roundTo 53 (1 / 2) = 1 / 2 :=
    Rounding.roundTo_of_representable (by norm_num) ⟨1, -1, by norm_num, by norm_num⟩ (by norm_num)
  have hzero : Rounding.roundTo 53 0 = 0 :=
    Rounding.roundTo_of_representable (by norm_num) (.zero 53) le_rfl
  have hone : Rounding.roundTo 53 1 = 1 :=
    Rounding.roundTo_of_representable (by norm_num) (.one (by norm_num)) zero_le_one
  simp only [AdaptiveConcurrencyPolicy.ratioOk, F64.binary64, policy, hhalf, hzero, hone]
  norm_num

theorem validate_policy : policy.validate F64.binary64 = .ok () := by
  unfold AdaptiveConcurrencyPolicy.validate
  rw [ratioOk_policy]
  rfl

end AdaptiveController.Sample

theorem AdaptiveController.reached_controlled_two_tasks :
    Sample.policy.validate F64.binary64 = .ok () ∧
      Controlled F64.binary64 Sample.policy .async
        (reached F64.binary64 Sample.policy .async Sample.ops) :=
  ⟨Sample.validate_policy,
    reached_controlled F64.binary64Ieee Sample.validate_policy .async Sample.ops⟩

end Reqx.Driver
