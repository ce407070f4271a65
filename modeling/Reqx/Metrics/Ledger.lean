import Mathlib.Data.List.Infix
import Mathlib.Data.List.Nodup
import Reqx.Metrics.ClientMetrics

/-!
# The metrics of interleaved requests

Any number of requests are started, completed, turned into streams and dropped.
The operations on one request follow each other, but the updates of different
requests mix in any order. `done` and `pending` are the updates that a request
has made and those that its running operation has still to make.
-/

namespace Reqx.Metrics

open Recording

/-! ## Requests -/

inductive Owner where
  | pending (request : PendingRequest)
  | stream (completion : StreamCompletion)
  | gone

inductive Action where
  | completeSuccess (status : ℕ)
  | completeError (error : Error)
  | intoStream (status : ℕ)
  | streamSuccess
  | streamError (error : Error)
  | streamCanceled
  | drop

namespace Owner

def live : Owner → ℕ
  | .pending _ => 1
  | .stream completion => if completion.inFlightGuard.isSome then 1 else 0
  | .gone => 0

/-- An action that the owner does not have is not taken. -/
def act (now : ℕ) : Owner → Action → Recording Owner
  | .pending p, .completeSuccess status => do
    p.completeSuccess now status
    return .gone
  | .pending p, .completeError error => do
    p.completeError now error
    return .gone
  | .pending p, .intoStream status => do
    let completion ← p.intoStream now status
    return .stream completion
  | .pending p, .drop => do
    p.drop now
    return .gone
  | .stream s, .streamSuccess => do
    let s ← s.completeSuccess now
    return .stream s
  | .stream s, .streamError error => do
    let s ← s.completeError now error
    return .stream s
  | .stream s, .streamCanceled => do
    let s ← s.completeCanceled now
    return .stream s
  | .stream s, .drop => do
    s.drop now
    return .gone
  | owner, _ => return owner

end Owner

structure Request where
  owner : Owner
  done : List Update
  pending : List Update

namespace Request

def new (requestStartedAt : ℕ) : Request :=
  ⟨.pending (pendingRequest requestStartedAt).value, [], (pendingRequest requestStartedAt).events⟩

def act (r : Request) (now : ℕ) (action : Action) : Request :=
  match r.pending with
  | [] => { r with owner := (r.owner.act now action).value
                   pending := (r.owner.act now action).events }
  | _ :: _ => r

end Request

inductive Op where
  | start (now : ℕ)
  | act (index : ℕ) (now : ℕ) (action : Action)
  | advance (index : ℕ)

def Op.isStart : Op → Bool
  | .start _ => true
  | _ => false

structure System where
  inner : ClientMetricsInner
  requests : List Request

namespace System

def initial : System := ⟨.default, []⟩

def step (s : System) : Op → System
  | .start now => { s with requests := s.requests ++ [.new now] }
  | .act index now action =>
    match s.requests[index]? with
    | none => s
    | some r => { s with requests := s.requests.set index (r.act now action) }
  | .advance index =>
    match s.requests[index]? with
    | none => s
    | some r =>
      match r.pending with
      | [] => s
      | u :: rest =>
        ⟨u.apply s.inner,
          s.requests.set index { r with done := r.done ++ [u], pending := rest }⟩

def run (ops : List Op) : System := ops.foldl step initial

def live (s : System) : ℕ := Shares.total (fun r ↦ r.owner.live) s.requests

/-- No operation is in the middle of its updates. -/
def Quiet (s : System) : Prop := ∀ r ∈ s.requests, r.pending = []

end System

/-! ## What an update is about -/

inductive Mark where
  | up (counter : Counter)
  | add (counter : Counter)
  | down (counter : Counter) (delta : ℕ)
  | count (table : Table)
  deriving DecidableEq, Repr

def Update.mark : Update → Mark
  | .increment c => .up c
  | .add c _ => .add c
  | .sub c delta => .down c delta
  | .count t _ => .count t

/-- Only the latencies are added up, and only guards that leave are subtracted. -/
def Mark.plain : Mark → Bool
  | .add c => c = .latencyTotalMs
  | .down c delta => c = .inFlight ∧ delta = 1
  | _ => true

def marks (es : List Update) : List Mark := es.map Update.mark

def times (es : List Update) (m : Mark) : ℕ := (marks es).count m

@[simp] theorem marks_append (es es' : List Update) : marks (es ++ es') = marks es ++ marks es' :=
  List.map_append

@[simp] theorem times_append (es es' : List Update) (m : Mark) :
    times (es ++ es') m = times es m + times es' m := by
  simp [times]

theorem times_singleton (u : Update) (m : Mark) : times [u] m = if m = u.mark then 1 else 0 := by
  by_cases hm : m = u.mark
  · simp [times, marks, hm]
  · simp [times, marks, hm, Ne.symm hm]

/-- The equations of the ledger, for the number of updates of each kind. -/
def Balanced (n : Mark → ℕ) (live : ℕ) : Prop :=
  n (.up .requestsStarted) = n (.up .requestsSucceeded) + n (.up .requestsFailed) +
      n (.up .requestsCanceled) + live ∧
    n (.up .inFlight) = n (.down .inFlight 1) + live ∧
    n (.up .latencySamples) = n (.up .requestsSucceeded) + n (.up .requestsFailed) +
      n (.up .requestsCanceled) ∧
    n (.count .statusCounts) = n (.up .requestsSucceeded) + n (.up .httpStatusErrors) ∧
    n (.count .errorCodeCounts) = n (.up .requestsFailed) ∧
    n (.count .timeoutPhaseCounts) = n (.up .timeoutTransport) + n (.up .timeoutResponseBody) ∧
    n (.count .transportErrorKindCounts) = n (.up .transportErrors) ∧
    n (.count .httpStatusErrorCounts) = n (.up .httpStatusErrors)

instance decidableBalanced (n : Mark → ℕ) (live : ℕ) : Decidable (Balanced n live) := by
  unfold Balanced
  infer_instance

theorem Balanced.add {n n' : Mark → ℕ} {live live' : ℕ} (h : Balanced n live)
    (h' : Balanced n' live') : Balanced (fun m ↦ n m + n' m) (live + live') := by
  unfold Balanced at h h' ⊢
  dsimp only
  omega

theorem balanced_total {α : Type} {n : α → Mark → ℕ} {live : α → ℕ} {parties : List α}
    (h : ∀ a ∈ parties, Balanced (n a) (live a)) :
    Balanced (fun m ↦ Shares.total (fun a ↦ n a m) parties) (Shares.total live parties) := by
  induction parties with
  | nil => exact ⟨rfl, rfl, rfl, rfl, rfl, rfl, rfl, rfl⟩
  | cons a parties ih =>
    simp only [Shares.total_cons]
    exact (h a List.mem_cons_self).add (ih fun b hb ↦ h b (List.mem_cons_of_mem a hb))

/-! ## The updates of one request -/

def opening : List Mark := [.up .requestsStarted, .up .inFlight]

def latencyMarks : List Mark := [.up .latencySamples, .add .latencyTotalMs]

def errorKinds : List (List Mark) :=
  [[.up .timeoutTransport, .count .timeoutPhaseCounts],
    [.up .timeoutResponseBody, .count .timeoutPhaseCounts],
    [.up .deadlineExceeded],
    [.up .transportErrors, .count .transportErrorKindCounts],
    [.up .readBodyErrors],
    [.up .writeBodyErrors],
    [.up .responseBodyTooLarge],
    [.up .httpStatusErrors, .count .statusCounts, .count .httpStatusErrorCounts],
    []]

/-- What the completions of a request can update. -/
def closings : List (List Mark) :=
  ([.up .requestsSucceeded, .count .statusCounts] ++ latencyMarks) ::
    (.up .requestsCanceled :: latencyMarks) ::
    errorKinds.map fun kind ↦
      .up .requestsFailed :: latencyMarks ++ .count .errorCodeCounts :: kind

def closed (closing : List Mark) : List Mark := opening ++ closing ++ [.down .inFlight 1]

theorem marks_recordErrorKind (error : Error) :
    marks (recordErrorKind error).events ∈ errorKinds := by
  unfold recordErrorKind
  split
  next phase timeoutMs method uri => cases phase <;> decide
  all_goals exact of_decide_eq_true rfl

theorem marks_success (status latency : ℕ) :
    marks (recordRequestCompletedSuccess status latency).events ∈ closings :=
  List.mem_cons_self

theorem marks_canceled (latency : ℕ) :
    marks (recordRequestCompletedCanceled latency).events ∈ closings :=
  List.mem_cons_of_mem _ List.mem_cons_self

theorem marks_error (error : Error) (latency : ℕ) :
    marks (recordRequestCompletedError error latency).events ∈ closings := by
  refine List.mem_cons_of_mem _ (List.mem_cons_of_mem _ (List.mem_map.mpr ?_))
  exact ⟨_, marks_recordErrorKind error, rfl⟩

/-- The updates of a request, and whether it is still in flight. -/
inductive Accounted : Owner → List Mark → Prop
  | pending (p : PendingRequest) (hguard : p.inFlight = ⟨true⟩) (hopen : p.completed = false) :
      Accounted (.pending p) opening
  | stream (s : StreamCompletion) (hguard : s.inFlightGuard = some ⟨true⟩) :
      Accounted (.stream s) opening
  | ended (s : StreamCompletion) (hguard : s.inFlightGuard = none) (closing : List Mark)
      (hclosing : closing ∈ closings) : Accounted (.stream s) (closed closing)
  | gone (closing : List Mark) (hclosing : closing ∈ closings) :
      Accounted .gone (closed closing)

namespace Accounted

variable {owner : Owner} {ms : List Mark}

theorem balanced (h : Accounted owner ms) : Balanced (fun m ↦ ms.count m) owner.live := by
  have hclosed : ∀ closing ∈ closings, Balanced (fun m ↦ (closed closing).count m) 0 := by
    decide
  have hopening : Balanced (fun m ↦ opening.count m) 1 := by decide
  cases h with
  | pending p hguard hopen => exact hopening
  | stream s hguard =>
    rw [Owner.live, hguard]
    exact hopening
  | ended s hguard closing hclosing =>
    rw [Owner.live, hguard]
    exact hclosed closing hclosing
  | gone closing hclosing => exact hclosed closing hclosing

theorem nodup (h : Accounted owner ms) : ms.Nodup := by
  have hclosed : ∀ closing ∈ closings, (closed closing).Nodup := by decide
  have hopening : opening.Nodup := by decide
  cases h with
  | pending | stream => exact hopening
  | ended s hguard closing hclosing => exact hclosed closing hclosing
  | gone closing hclosing => exact hclosed closing hclosing

/-- A request leaves after it has entered. -/
theorem down_le (h : Accounted owner ms) {first : List Mark} (hfirst : first <+: ms) :
    first.count (.down .inFlight 1) ≤ first.count (.up .inFlight) := by
  have hclosed : ∀ closing ∈ closings, ∀ first ∈ (closed closing).inits,
      first.count (.down .inFlight 1) ≤ first.count (.up .inFlight) := by
    decide
  have hopening : ∀ first ∈ opening.inits,
      first.count (.down .inFlight 1) ≤ first.count (.up .inFlight) := by
    decide
  rw [← List.mem_inits] at hfirst
  cases h with
  | pending | stream => exact hopening first hfirst
  | ended s hguard closing hclosing => exact hclosed closing hclosing first hfirst
  | gone closing hclosing => exact hclosed closing hclosing first hfirst

theorem plain (h : Accounted owner ms) : ∀ m ∈ ms, m.plain = true := by
  have hclosed : ∀ closing ∈ closings, ∀ m ∈ closed closing, m.plain = true := by decide
  have hopening : ∀ m ∈ opening, m.plain = true := by decide
  cases h with
  | pending | stream => exact hopening
  | ended s hguard closing hclosing => exact hclosed closing hclosing
  | gone closing hclosing => exact hclosed closing hclosing

theorem of_record {record : Recording Unit} (hrecord : marks record.events ∈ closings)
    (howner : ∀ closing ∈ closings, Accounted owner (closed closing)) :
    Accounted owner (opening ++ marks (record.events ++ [.sub .inFlight 1] ++ [])) := by
  have hmarks : opening ++ marks (record.events ++ [.sub .inFlight 1] ++ []) =
      closed (marks record.events) := by
    rw [List.append_nil, marks_append, closed, List.append_assoc]
    rfl
  rw [hmarks]
  exact howner _ hrecord

theorem act (h : Accounted owner ms) (now : ℕ) (action : Action) :
    (owner.act now action).Ensures fun es owner' ↦ Accounted owner' (ms ++ marks es) := by
  -- An action that the owner does not have updates nothing.
  have hkept : Accounted owner (ms ++ marks []) := by
    rw [marks, List.map_nil, List.append_nil]
    exact h
  cases h with
  | pending p hguard hopen =>
    obtain ⟨startedAt, inFlight, completed⟩ := p
    obtain rfl : inFlight = ⟨true⟩ := hguard
    obtain rfl : completed = false := hopen
    cases action with
    | completeSuccess status => exact of_record (marks_success status _) .gone
    | completeError error => exact of_record (marks_error error _) .gone
    | intoStream status => exact .stream _ rfl
    | drop => exact of_record (marks_canceled _) .gone
    | streamSuccess | streamError | streamCanceled => exact hkept
  | stream s hguard =>
    obtain ⟨startedAt, status, inFlight⟩ := s
    obtain rfl : inFlight = some ⟨true⟩ := hguard
    cases action with
    | streamSuccess => exact of_record (marks_success status _) (.ended _ rfl)
    | streamError error => exact of_record (marks_error error _) (.ended _ rfl)
    | streamCanceled => exact of_record (marks_canceled _) (.ended _ rfl)
    | drop => exact of_record (marks_canceled _) .gone
    | completeSuccess | completeError | intoStream => exact hkept
  | ended s hguard closing hclosing =>
    obtain ⟨startedAt, status, inFlight⟩ := s
    obtain rfl : inFlight = none := hguard
    cases action with
    | drop =>
      have hgone : Accounted .gone (closed closing ++ marks []) := by
        rw [marks, List.map_nil, List.append_nil]
        exact .gone closing hclosing
      exact hgone
    | _ => exact hkept
  | gone closing hclosing => exact hkept

end Accounted

/-! ## One request -/

namespace Request

variable {r : Request}

def Ok (r : Request) : Prop := Accounted r.owner (marks (r.done ++ r.pending))

theorem ok_new (now : ℕ) : (new now).Ok := .pending _ rfl rfl

theorem Ok.act (hr : r.Ok) (now : ℕ) (action : Action) :
    (r.act now action).Ok ∧ (r.act now action).done = r.done := by
  obtain ⟨owner, done, pending⟩ := r
  cases pending with
  | cons u rest => exact ⟨hr, rfl⟩
  | nil =>
    unfold Ok at hr ⊢
    rw [List.append_nil] at hr
    refine ⟨?_, rfl⟩
    change Accounted _ (marks (done ++ _))
    rw [marks_append]
    exact hr.act now action

variable (hr : r.Ok)
include hr

theorem Ok.times_le (m : Mark) : times r.done m ≤ 1 := by
  have hall : times (r.done ++ r.pending) m ≤ 1 := List.nodup_iff_count_le_one.mp hr.nodup m
  rw [times_append] at hall
  omega

theorem Ok.down_le : times r.done (.down .inFlight 1) ≤ times r.done (.up .inFlight) := by
  apply Accounted.down_le hr
  rw [marks_append]
  exact List.prefix_append _ _

end Request

/-! ## The counters -/

/-- The counters show the updates that have been made. -/
structure Shows (m : ClientMetricsInner) (n : Mark → ℕ) : Prop where
  counter : ∀ c, c ≠ .inFlight → c ≠ .latencyTotalMs → m.counter c = n (.up c)
  inFlight : m.counter .inFlight + n (.down .inFlight 1) = n (.up .inFlight)
  table : ∀ t, (m.table t).sum = n (.count t)

section Apply

variable {m : ClientMetricsInner} {n n' : Mark → ℕ}

/-- One more update of this kind has been made. -/
def Makes (n : Mark → ℕ) (mark : Mark) (n' : Mark → ℕ) : Prop :=
  ∀ k, n' k = n k + if k = mark then 1 else 0

theorem Shows.increment {c : Counter} (h : Shows m n) (hmade : Makes n (.up c) n')
    (hfits : n' (.up c) ≤ usizeMax) : Shows ((Update.increment c).apply m) n' := by
  have hcounter : ∀ c', ((Update.increment c).apply m).counter c' =
      if c' = c then saturatingAdd (m.counter c) 1 else m.counter c' :=
    fun c' ↦ Function.update_apply _ _ _ _
  rw [hmade (.up c), if_pos rfl] at hfits
  have hflight := h.inFlight
  refine ⟨fun c' hne hlatency ↦ ?_, ?_, fun t ↦ ?_⟩
  · have hold := h.counter c' hne hlatency
    rw [hcounter, hmade, hold]
    by_cases hc : c' = c
    · subst hc
      rw [if_pos rfl, if_pos rfl, hold, saturatingAdd_of_le hfits]
    · rw [if_neg hc, if_neg (by simpa using hc), Nat.add_zero]
  · have hkept : n' (.down .inFlight 1) = n (.down .inFlight 1) := hmade _
    rw [hcounter, hmade (.up .inFlight), hkept]
    by_cases hc : .inFlight = c
    · subst hc
      rw [if_pos rfl, if_pos rfl, saturatingAdd_of_le (by omega)]
      omega
    · rw [if_neg hc, if_neg (by simpa using hc)]
      exact hflight
  · rw [hmade, if_neg (by simp)]
    exact h.table t

theorem Shows.add {delta : ℕ} (h : Shows m n) (hmade : Makes n (.add .latencyTotalMs) n') :
    Shows ((Update.add .latencyTotalMs delta).apply m) n' := by
  refine ⟨fun c hne hlatency ↦ ?_, ?_, fun t ↦ ?_⟩
  · rw [hmade, if_neg (by simp)]
    exact (Function.update_of_ne hlatency _ _).trans (h.counter c hne hlatency)
  · rw [hmade, hmade, if_neg (by simp), if_neg (by simp)]
    exact h.inFlight
  · rw [hmade, if_neg (by simp)]
    exact h.table t

theorem Shows.sub (h : Shows m n) (hmade : Makes n (.down .inFlight 1) n')
    (hdown : n' (.down .inFlight 1) ≤ n' (.up .inFlight)) :
    Shows ((Update.sub .inFlight 1).apply m) n' := by
  have hflight := h.inFlight
  rw [hmade, hmade, if_pos rfl, if_neg (by simp)] at hdown
  refine ⟨fun c hne hlatency ↦ ?_, ?_, fun t ↦ ?_⟩
  · rw [hmade, if_neg (by simp)]
    exact (Function.update_of_ne hne _ _).trans (h.counter c hne hlatency)
  · have hcounter : ((Update.sub .inFlight 1).apply m).counter .inFlight =
      m.counter .inFlight - 1 := rfl
    rw [hcounter, hmade, hmade, if_pos rfl, if_neg (by simp)]
    omega
  · rw [hmade, if_neg (by simp)]
    exact h.table t

theorem Shows.count {t : Table} {key : t.Key} (h : Shows m n) (hmade : Makes n (.count t) n')
    (hfits : n' (.count t) ≤ usizeMax) : Shows ((Update.count t key).apply m) n' := by
  rw [hmade, if_pos rfl] at hfits
  refine ⟨fun c hne hlatency ↦ ?_, ?_, fun t' ↦ ?_⟩
  · rw [hmade, if_neg (by simp)]
    exact h.counter c hne hlatency
  · rw [hmade, hmade, if_neg (by simp), if_neg (by simp)]
    exact h.inFlight
  · have hold := h.table t'
    rw [hmade]
    by_cases ht : t' = t
    · subst ht
      have htable : ((Update.count t' key).apply m).table t' = (m.table t').increment key :=
        Function.update_self _ _ _
      rw [htable, if_pos rfl, Counts.sum_increment key (by omega), hold]
    · rw [if_neg (by simpa using ht)]
      exact (congrArg Counts.sum (Function.update_of_ne ht _ _)).trans hold

/-- No counter but the sum of the latencies saturates, and none clips, within these bounds. -/
theorem Shows.apply {u : Update} (h : Shows m n) (hmade : Makes n u.mark n')
    (hfits : ∀ k, n' k ≤ usizeMax) (hdown : n' (.down .inFlight 1) ≤ n' (.up .inFlight))
    (hplain : u.mark.plain = true) : Shows (u.apply m) n' := by
  cases u with
  | increment c => exact h.increment hmade (hfits _)
  | add c delta =>
    obtain rfl : c = .latencyTotalMs := of_decide_eq_true hplain
    exact h.add hmade
  | sub c delta =>
    obtain ⟨rfl, rfl⟩ : c = .inFlight ∧ delta = 1 := of_decide_eq_true hplain
    exact h.sub hmade hdown
  | count t key => exact h.count hmade (hfits _)

end Apply

/-! ## Runs -/

namespace System

variable {s : System}

structure Ok (s : System) : Prop where
  requests : ∀ r ∈ s.requests, r.Ok
  shows : Shows s.inner fun m ↦ Shares.total (fun r ↦ times r.done m) s.requests

theorem ok_initial : initial.Ok := by
  refine ⟨fun r hr ↦ absurd hr List.not_mem_nil, ?_⟩
  exact ⟨fun c _ _ ↦ rfl, rfl, fun t ↦ rfl⟩

theorem ok_set {requests : List Request} {r : Request} (index : ℕ) (h : ∀ r ∈ requests, r.Ok)
    (hr : r.Ok) : ∀ r' ∈ requests.set index r, r'.Ok := by
  intro r' hr'
  rcases List.mem_or_eq_of_mem_set hr' with hmem | rfl
  · exact h r' hmem
  · exact hr

theorem Ok.start (hs : s.Ok) (now : ℕ) : (s.step (.start now)).Ok := by
  refine ⟨fun r hr ↦ ?_, ?_⟩
  · rcases List.mem_append.mp hr with hr | hr
    · exact hs.requests r hr
    · rw [List.mem_singleton.mp hr]
      exact Request.ok_new now
  · have hnone : ∀ m, times (Request.new now).done m = 0 := fun _ ↦ rfl
    simpa only [step, Shares.total_append, Shares.total_cons, Shares.total_nil, hnone,
      Nat.add_zero] using hs.shows

theorem Ok.act (hs : s.Ok) (index now : ℕ) (action : Action) :
    (s.step (.act index now action)).Ok := by
  dsimp only [step]
  split
  · exact hs
  next r hindex =>
    obtain ⟨hok, hdone⟩ := (hs.requests r (List.mem_of_getElem? hindex)).act now action
    refine ⟨ok_set index hs.requests hok, ?_⟩
    have hsame : ∀ m, Shares.total (fun r ↦ times r.done m)
        (s.requests.set index (r.act now action)) =
          Shares.total (fun r ↦ times r.done m) s.requests := by
      intro m
      have htotal := Shares.total_set (fun r ↦ times r.done m) hindex (r.act now action)
      rw [hdone] at htotal
      omega
    simpa only [hsame] using hs.shows

/-- The bounds that `Shows.apply` asks for come from the requests, one by one. -/
theorem Ok.advance (hs : s.Ok) (hfits : s.requests.length ≤ usizeMax) (index : ℕ) :
    (s.step (.advance index)).Ok := by
  dsimp only [step]
  split
  · exact hs
  next r hindex =>
    split
    · exact hs
    next u rest hpending =>
      have hr := hs.requests r (List.mem_of_getElem? hindex)
      have hnext : (⟨r.owner, r.done ++ [u], rest⟩ : Request).Ok := by
        unfold Request.Ok at hr ⊢
        rw [hpending] at hr
        rwa [List.append_assoc]
      have hall := ok_set index hs.requests hnext
      refine ⟨hall, hs.shows.apply ?_ ?_ ?_ ?_⟩
      · intro m
        have htotal := Shares.total_set (fun r ↦ times r.done m) hindex
          ⟨r.owner, r.done ++ [u], rest⟩
        rw [times_append, times_singleton] at htotal
        dsimp only
        omega
      · intro m
        have hbound := Shares.total_le_length fun r' hr' ↦ (hall r' hr').times_le m
        exact hbound.trans (List.length_set.trans_le hfits)
      · exact Shares.total_le_total fun r' hr' ↦ (hall r' hr').down_le
      · refine hr.plain u.mark (List.mem_map_of_mem ?_)
        rw [hpending]
        simp

theorem run_concat (ops : List Op) (op : Op) : run (ops ++ [op]) = (run ops).step op :=
  List.foldl_append

theorem length_step (s : System) (op : Op) :
    (s.step op).requests.length = s.requests.length + if op.isStart then 1 else 0 := by
  cases op with
  | start now => exact List.length_append
  | act index now action =>
    dsimp only [step]
    split
    · rfl
    · exact List.length_set
  | advance index =>
    dsimp only [step]
    split
    · rfl
    · split
      · rfl
      · exact List.length_set

theorem length_run (ops : List Op) : (run ops).requests.length = ops.countP Op.isStart := by
  induction ops using List.reverseRecOn with
  | nil => rfl
  | append_singleton ops op ih =>
    rw [run_concat, length_step, ih, List.countP_append, List.countP_singleton]

theorem ok_run {ops : List Op} (hfits : ops.countP Op.isStart ≤ usizeMax) : (run ops).Ok := by
  induction ops using List.reverseRecOn with
  | nil => exact ok_initial
  | append_singleton ops op ih =>
    rw [List.countP_append] at hfits
    have hbefore := ih (by omega)
    rw [run_concat]
    cases op with
    | start now => exact hbefore.start now
    | act index now action => exact hbefore.act index now action
    | advance index =>
      apply hbefore.advance
      rw [length_run]
      omega

theorem Ok.balanced (hs : s.Ok) (hquiet : s.Quiet) :
    Balanced (fun m ↦ Shares.total (fun r ↦ times r.done m) s.requests) s.live := by
  apply balanced_total
  intro r hr
  have haccounted : Accounted r.owner (marks (r.done ++ r.pending)) := hs.requests r hr
  rw [hquiet r hr, List.append_nil] at haccounted
  exact haccounted.balanced

end System

/-- The equations of the ledger, for what a snapshot shows. -/
structure MetricsSnapshot.Ledger (m : MetricsSnapshot) (live : ℕ) : Prop where
  started : m.requests.started =
    m.requests.succeeded + m.requests.failed + m.requests.canceled + live
  inFlight : m.requests.inFlight = live
  samples : m.latency.samples = m.requests.succeeded + m.requests.failed + m.requests.canceled
  statusCounts : m.statusCounts.sum = m.requests.succeeded + m.errors.httpStatus
  byCode : m.errors.byCode.sum = m.requests.failed
  byTimeoutPhase : m.errors.byTimeoutPhase.sum = m.timeouts.transport + m.timeouts.responseBody
  byTransportKind : m.errors.byTransportKind.sum = m.errors.transport
  byHttpStatus : m.errors.byHttpStatus.sum = m.errors.httpStatus

theorem Shows.ledger {m : ClientMetricsInner} {n : Mark → ℕ} {live : ℕ} (h : Shows m n)
    (hn : Balanced n live) : m.snapshot.Ledger live := by
  have hcounter : ∀ c, c ≠ .inFlight → c ≠ .latencyTotalMs → m.counter c = n (.up c) := h.counter
  obtain ⟨hstarted, hflight, hsamples, hstatus, hcode, hphase, hkind, hhttp⟩ := hn
  have hentered := h.inFlight
  constructor <;> simp only [ClientMetricsInner.snapshot, h.table, hcounter, ne_eq, reduceCtorEq,
    not_false_eq_true]
  · exact hstarted
  · omega
  · exact hsamples
  · exact hstatus
  · exact hcode
  · exact hphase
  · exact hkind
  · exact hhttp

/-- Whenever no operation is in the middle of its updates, the counters balance, with every
request that has neither ended nor been dropped in flight. -/
theorem metrics_ledger {ops : List Op} (hfits : ops.countP Op.isStart ≤ usizeMax)
    (hquiet : (System.run ops).Quiet) :
    (System.run ops).inner.snapshot.Ledger (System.run ops).live ∧
      ((∀ r ∈ (System.run ops).requests, r.owner.live = 0) →
        (System.run ops).inner.snapshot.requests.inFlight = 0) := by
  have hok := System.ok_run hfits
  have hledger := hok.shows.ledger (hok.balanced hquiet)
  refine ⟨hledger, fun hgone ↦ ?_⟩
  rw [hledger.inFlight, System.live, Shares.total, List.sum_eq_zero_iff]
  simpa using hgone

/-- A request that fails with a status, one that is returned as a stream, read and dropped, and
one that is still executing; the updates of the first two are mixed. -/
def Sample.ops : List Op :=
  [.start 0, .start 1, .start 2, .advance 0, .advance 1, .advance 1, .advance 0, .advance 2,
    .advance 2, .act 0 5 (.completeError (.httpStatus 503 .get [] .empty [])),
    .act 1 6 (.intoStream 200), .act 1 7 .streamSuccess, .advance 0, .advance 1, .advance 0,
    .advance 1, .advance 0, .advance 1, .advance 0, .advance 1, .advance 0, .advance 1,
    .advance 0, .advance 0, .advance 0, .act 1 8 .drop]

instance decidableQuiet (s : System) : Decidable s.Quiet :=
  inferInstanceAs (Decidable (∀ r ∈ s.requests, r.pending = []))

theorem metrics_ledger_mixed :
    (System.run Sample.ops).live = 1 ∧
      (System.run Sample.ops).inner.snapshot.Ledger (System.run Sample.ops).live := by
  refine ⟨by decide, (metrics_ledger (by decide) ?_).1⟩
  decide

end Reqx.Metrics
