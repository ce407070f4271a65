import Reqx.Driver.HostLimiters

/-!
# The per-host limit survives eviction

Every semaphore counts its owners: the table, if the entry of its host points to
it, and the handles of the calls. An idle entry is one whose semaphore only the
table owns, so an evicted semaphore has no handle left through which a permit
could be taken. All permits of a host are therefore permits of one semaphore.
-/

namespace Reqx.Driver

/-! ## What a cleanup removes -/

section Cleanup

variable {E : Type} {isIdle : E → Bool} {lastUsedAt : E → ℕ} {entries : Std.TreeMap Text E}

/-- The second table lacks at most idle entries of the first. -/
def EvictsIdle (isIdle : E → Bool) (before after : Std.TreeMap Text E) : Prop :=
  ∀ host : Text, after[host]? = before[host]? ∨
    after[host]? = none ∧ ∃ entry, before[host]? = some entry ∧ isIdle entry = true

theorem EvictsIdle.trans {before between after : Std.TreeMap Text E}
    (h : EvictsIdle isIdle before between) (h' : EvictsIdle isIdle between after) :
    EvictsIdle isIdle before after := by
  intro host
  rcases h' host with heq | ⟨hnone, entry, hentry, hidle⟩
  · rw [heq]
    exact h host
  · rcases h host with heq | ⟨hgone, -⟩
    · exact .inr ⟨hnone, entry, heq ▸ hentry, hidle⟩
    · rw [hgone] at hentry
      cases hentry

theorem evictsIdle_retain (keep : E → Bool) :
    EvictsIdle isIdle entries (entries.filter fun _ entry ↦ !isIdle entry || keep entry) := by
  intro host
  rw [Std.TreeMap.getElem?_filter']
  cases hentry : entries[host]? with
  | none => exact .inl rfl
  | some entry =>
    cases hidle : isIdle entry with
    | false => simp [hidle]
    | true => cases hkeep : keep entry <;> simp [hidle, hkeep]

theorem evictsIdle_erase {host : Text} (h : oldestIdleHost isIdle lastUsedAt entries = some host) :
    EvictsIdle isIdle entries (entries.erase host) := by
  obtain ⟨⟨key, entry⟩, hmin, rfl⟩ := Option.map_eq_some_iff.mp h
  obtain ⟨hmem, hidle⟩ := List.mem_filter.mp (List.argmin_mem hmin)
  intro other
  rw [Std.TreeMap.getElem?_erase]
  split_ifs with hkey
  · obtain rfl : key = other := Std.compare_eq_iff_eq.mp hkey
    exact .inr ⟨rfl, entry, Std.TreeMap.mem_toList_iff_getElem?_eq_some.mp hmem, hidle⟩
  · exact .inl rfl

theorem evictsIdle_evictOldestIdleHosts (maxEntries fuel : ℕ) (entries : Std.TreeMap Text E) :
    EvictsIdle isIdle entries
      (evictOldestIdleHosts isIdle lastUsedAt maxEntries fuel entries) := by
  induction fuel generalizing entries with
  | zero => exact fun _ ↦ .inl rfl
  | succ fuel ih =>
    unfold evictOldestIdleHosts
    split_ifs
    · cases hkey : oldestIdleHost isIdle lastUsedAt entries with
      | none => exact fun _ ↦ .inl rfl
      | some key => exact (evictsIdle_erase hkey).trans (ih _)
    · exact fun _ ↦ .inl rfl

theorem evictsIdle_cleanup (now entryTtl maxEntries : ℕ) :
    EvictsIdle isIdle entries
      (cleanupStalePerHostLimiters isIdle lastUsedAt entries now entryTtl maxEntries) :=
  (evictsIdle_retain _).trans (evictsIdle_evictOldestIdleHosts _ _ _)

end Cleanup

theorem HostAcquisition.permits_le_handles (id : ℕ) (c : HostAcquisition) :
    c.permits id ≤ c.handles id := by
  cases c with
  | delivering semaphore =>
    simp only [permits, handles]
    split <;> omega
  | waiting semaphore deadlineAt => exact Nat.zero_le _
  | released semaphore => exact Nat.zero_le _
  | granted semaphore => exact le_rfl
  | holding semaphore => exact le_rfl
  | finished => exact le_rfl

namespace HostLimiters

/-! ## Handles that leave with the table's entries -/

theorem getElem?_foldl_dropHandle (evicted : List (Text × PerHostLimiterEntry))
    (heap : List HostSemaphore) (id : ℕ) :
    (evicted.foldl (fun heap e ↦ heap.modify e.2.semaphore HostSemaphore.dropHandle) heap)[id]? =
      heap[id]?.map fun cell ↦
        { cell with strongCount := cell.strongCount - evicted.countP (·.2.semaphore = id) } := by
  induction evicted generalizing heap with
  | nil => simp
  | cons e evicted ih =>
    rw [List.foldl_cons, ih, List.getElem?_modify, List.countP_cons]
    cases heap[id]? with
    | none => rfl
    | some cell =>
      by_cases hid : e.2.semaphore = id
      · simp [hid, HostSemaphore.dropHandle, Nat.sub_sub, Nat.add_comm]
      · simp [hid]

/-- Different keys cannot both satisfy a condition that fixes the key. -/
theorem countP_le_one {entries : List (Text × PerHostLimiterEntry)} (host : Text)
    {p : Text × PerHostLimiterEntry → Bool}
    (hdistinct : entries.Pairwise fun a b ↦ ¬compare a.1 b.1 = .eq)
    (h : ∀ e ∈ entries, p e = true → e.1 = host) : entries.countP p ≤ 1 := by
  induction entries with
  | nil => exact Nat.zero_le 1
  | cons e rest ih =>
    obtain ⟨hhead, htail⟩ := List.pairwise_cons.mp hdistinct
    rw [List.countP_cons]
    by_cases he : p e = true
    · have hnone : rest.countP p = 0 := by
        rw [List.countP_eq_zero]
        intro e' he' hp
        have hsame : e.1 = e'.1 :=
          (h e List.mem_cons_self he).trans (h e' (List.mem_cons_of_mem _ he') hp).symm
        exact hhead e' he' (Std.compare_eq_iff_eq.mpr hsame)
      simp [hnone, he]
    · have hrest := ih htail fun e' he' ↦ h e' (List.mem_cons_of_mem _ he')
      simpa [he] using hrest

/-! ## The invariant -/

/-- How many handles to the semaphore the calls own. -/
def handles (s : HostLimiters) (id : ℕ) : ℕ := Shares.total (HostAcquisition.handles id) s.calls

/-- The entry of the host points to the semaphore. -/
def InTable (perHost : Std.TreeMap Text PerHostLimiterEntry) (id : ℕ) (host : Text) : Prop :=
  perHost[host]?.map PerHostLimiterEntry.semaphore = some id

instance (perHost : Std.TreeMap Text PerHostLimiterEntry) (id : ℕ) (host : Text) :
    Decidable (InTable perHost id host) :=
  inferInstanceAs (Decidable (_ = _))

/-- What the counters of a semaphore say about its owners. -/
structure CellCounted (limit : ℕ) (s : HostLimiters) (id : ℕ) (cell : HostSemaphore) : Prop where
  permits : cell.availablePermits + s.outstanding id = limit
  owners : cell.strongCount = (if InTable s.perHost id cell.host then 1 else 0) + s.handles id
  /-- Nothing but the table leads to a handle, and an evicted semaphore had none. -/
  orphaned : ¬InTable s.perHost id cell.host → s.handles id = 0

structure Counted (limit : ℕ) (s : HostLimiters) : Prop where
  entries : ∀ (host : Text) (entry : PerHostLimiterEntry), s.perHost[host]? = some entry →
    entry.limit = limit ∧ ∃ cell, s.heap[entry.semaphore]? = some cell ∧ cell.host = host
  cells : ∀ (id : ℕ) (cell : HostSemaphore), s.heap[id]? = some cell → CellCounted limit s id cell
  unallocated : ∀ id, s.heap[id]? = none → s.handles id = 0

theorem outstanding_le_handles (s : HostLimiters) (id : ℕ) : s.outstanding id ≤ s.handles id :=
  Shares.total_le_total fun call _ ↦ call.permits_le_handles id

/-! ## Steps outside the lock -/

/-- A call that has at most this semaphore in hand. -/
def About (id : ℕ) (c : HostAcquisition) : Prop :=
  ∀ other, other ≠ id → c.handles other = 0 ∧ c.permits other = 0

variable {limit : ℕ} {s : HostLimiters} {call id : ℕ} {c next : HostAcquisition}
  {change : HostSemaphore → HostSemaphore}

theorem handles_move (hcall : s.calls[call]? = some c) (other : ℕ) :
    (s.move call next id change).handles other + c.handles other =
      s.handles other + next.handles other :=
  Shares.total_set _ hcall next

theorem outstanding_move (hcall : s.calls[call]? = some c) (other : ℕ) :
    (s.move call next id change).outstanding other + c.permits other =
      s.outstanding other + next.permits other :=
  Shares.total_set _ hcall next

/-- The counters of one semaphore follow what its call does. -/
structure Follows (c next : HostAcquisition) (id : ℕ) (cell cell' : HostSemaphore) : Prop where
  host : cell'.host = cell.host
  owners : cell'.strongCount + c.handles id = cell.strongCount + next.handles id
  permits : cell'.availablePermits + next.permits id = cell.availablePermits + c.permits id

/-- A handle leads to a semaphore that is in the table. -/
theorem Counted.inTable (h : Counted limit s) (hcall : s.calls[call]? = some c)
    (howned : 0 < c.handles id) :
    ∃ cell, s.heap[id]? = some cell ∧ InTable s.perHost id cell.host := by
  have hshare : c.handles id ≤ s.handles id := Shares.share_le_total hcall
  cases hcell : s.heap[id]? with
  | none =>
    have hzero := h.unallocated id hcell
    omega
  | some cell =>
    refine ⟨cell, rfl, ?_⟩
    by_contra horphan
    have hzero := (h.cells id cell hcell).orphaned horphan
    omega

theorem Counted.move (h : Counted limit s) (hcall : s.calls[call]? = some c) (habout : About id c)
    (hnext : About id next) (hin : ∃ cell, s.heap[id]? = some cell ∧ InTable s.perHost id cell.host)
    (hfollows : ∀ cell, s.heap[id]? = some cell → cell.availablePermits + c.permits id ≤ limit →
      c.handles id ≤ cell.strongCount → Follows c next id cell (change cell)) :
    Counted limit (s.move call next id change) := by
  have hhandles : ∀ other, (s.move call next id change).handles other + c.handles other =
      s.handles other + next.handles other := handles_move hcall
  have houtstanding : ∀ other, (s.move call next id change).outstanding other + c.permits other =
      s.outstanding other + next.permits other := outstanding_move hcall
  have hpermits : c.permits id ≤ s.outstanding id := Shares.share_le_total hcall
  have hshare : c.handles id ≤ s.handles id := Shares.share_le_total hcall
  obtain ⟨present, hpresent, hin⟩ := hin
  have hkept : ∀ other, other ≠ id → (s.move call next id change).handles other =
      s.handles other ∧ (s.move call next id change).outstanding other = s.outstanding other := by
    intro other hne
    have hh := hhandles other
    have ho := houtstanding other
    rw [(habout other hne).1, (hnext other hne).1] at hh
    rw [(habout other hne).2, (hnext other hne).2] at ho
    exact ⟨hh, ho⟩
  have hheap : ∀ other, (s.move call next id change).heap[other]? =
      s.heap[other]?.map fun cell ↦ if id = other then change cell else cell :=
    fun other ↦ List.getElem?_modify _ _ _ _
  have hcell : ∀ cell, s.heap[id]? = some cell → Follows c next id cell (change cell) := by
    intro cell hcell
    have hcounted := h.cells id cell hcell
    have howners := hcounted.owners
    apply hfollows cell hcell
    · have hbalance := hcounted.permits
      omega
    · omega
  refine ⟨?_, ?_, ?_⟩
  · intro host entry hentry
    obtain ⟨hlimit, cell, hcellAt, hhost⟩ := h.entries host entry hentry
    refine ⟨hlimit, ?_⟩
    rw [hheap, hcellAt]
    refine ⟨_, rfl, ?_⟩
    split_ifs with hid
    · subst hid
      exact (hcell cell hcellAt).host.trans hhost
    · exact hhost
  · intro other cell' hcellAt
    rw [hheap] at hcellAt
    obtain ⟨old, hold, rfl⟩ := Option.map_eq_some_iff.mp hcellAt
    split_ifs with hid
    · subst hid
      have hcounted := h.cells id old hold
      obtain ⟨hhost, howners, hbalance⟩ := hcell old hold
      refine ⟨?_, ?_, ?_⟩
      · have hsum := hcounted.permits
        have hout := houtstanding id
        omega
      · have hsum := hcounted.owners
        have hh := hhandles id
        rw [hhost]
        change _ = (if InTable s.perHost id old.host then 1 else 0) + _
        omega
      · intro horphan
        rw [hhost, Option.some.inj (hold.symm.trans hpresent)] at horphan
        exact absurd hin horphan
    · obtain ⟨hh, ho⟩ := hkept other (Ne.symm hid)
      have hcounted := h.cells other old hold
      exact ⟨by rw [ho]; exact hcounted.permits, by rw [hh]; exact hcounted.owners,
        fun horphan ↦ by rw [hh]; exact hcounted.orphaned horphan⟩
  · intro other hnone
    rw [hheap, Option.map_eq_none_iff] at hnone
    have hid : other ≠ id := by
      rintro rfl
      rw [hpresent] at hnone
      cases hnone
    rw [(hkept other hid).1, h.unallocated other hnone]

theorem about_of_handles (h : 0 < c.handles id) : About id c := by
  intro other hne
  have hpermits := c.permits_le_handles other
  suffices hzero : c.handles other = 0 from ⟨hzero, by omega⟩
  cases c with
  | finished => rfl
  | _ =>
    simp only [HostAcquisition.handles] at h ⊢
    split_ifs at h ⊢ <;> omega

theorem about_finished (id : ℕ) : About id .finished := fun _ _ ↦ ⟨rfl, rfl⟩

variable {cell : HostSemaphore}

/-- A permit that is given back was missing from its semaphore. -/
theorem Counted.move_release (h : Counted limit s) (hfits : limit ≤ usizeMax)
    (hcall : s.calls[call]? = some c) (hhandles : c.handles id = 1) (hpermit : c.permits id = 1) :
    Counted limit (s.move call (.released id) id HostSemaphore.release) := by
  have hreleased : (HostAcquisition.released id).handles id = 1 := if_pos rfl
  refine h.move hcall (about_of_handles (by omega)) (about_of_handles (by omega))
    (h.inTable hcall (by omega)) fun cell _ hout _ ↦ ⟨rfl, ?_, ?_⟩
  · rw [hhandles, hreleased]
    rfl
  · have hroom : cell.availablePermits + 1 ≤ usizeMax := by omega
    rw [hpermit]
    exact saturatingAdd_of_le hroom

theorem Counted.move_dropHandle (h : Counted limit s) (hcall : s.calls[call]? = some c)
    (hnext : About id next) (hhandles : next.handles id + 1 = c.handles id)
    (hpermits : next.permits id = c.permits id) :
    Counted limit (s.move call next id HostSemaphore.dropHandle) := by
  refine h.move hcall (about_of_handles (by omega)) hnext (h.inTable hcall (by omega))
    fun cell _ _ howned ↦ ⟨rfl, ?_, ?_⟩
  · change cell.strongCount - 1 + _ = _
    omega
  · rw [hpermits]
    rfl

variable {rt : Runtime}

theorem Counted.poll (h : Counted limit s) (call now : ℕ) : Counted limit (s.poll rt call now) := by
  unfold HostLimiters.poll
  split
  next semaphore deadlineAt hcall =>
    split
    · exact h
    next cell hcell =>
      split
      next havailable =>
        apply h.move hcall (about_of_handles (by simp [HostAcquisition.handles]))
          (about_of_handles (by simp [HostAcquisition.handles]))
          (h.inTable hcall (by simp [HostAcquisition.handles]))
        rintro cell' hcell' - -
        obtain rfl : cell = cell' := Option.some.inj (hcell.symm.trans hcell')
        refine ⟨rfl, ?_, ?_⟩ <;>
          simp [HostSemaphore.take, HostAcquisition.handles, HostAcquisition.permits]
        omega
      next hnone =>
        split
        · split
          · exact h.move_dropHandle hcall (about_finished _) (by simp [HostAcquisition.handles]) rfl
          · exact h
        · exact h
  · exact h

theorem Counted.deliver (h : Counted limit s) (call : ℕ) : Counted limit (s.deliver rt call) := by
  unfold HostLimiters.deliver
  split
  next semaphore hcall =>
    have hhandles : 0 < (HostAcquisition.granted semaphore).handles semaphore := by
      simp [HostAcquisition.handles]
    have hgranted := about_of_handles hhandles
    have hin := h.inTable hcall hhandles
    cases rt with
    | blocking =>
      refine h.move hcall hgranted (about_of_handles (by simp [HostAcquisition.handles])) hin ?_
      rintro cell - - -
      refine ⟨rfl, ?_, ?_⟩ <;>
        simp [HostSemaphore.cloneHandle, HostAcquisition.handles, HostAcquisition.permits]
    | async =>
      refine h.move hcall hgranted (about_of_handles (by simp [HostAcquisition.handles])) hin ?_
      exact fun _ _ _ _ ↦ ⟨rfl, rfl, rfl⟩
  · exact h

theorem Counted.cancel (h : Counted limit s) (hfits : limit ≤ usizeMax) (call : ℕ) :
    Counted limit (s.cancel rt call) := by
  unfold HostLimiters.cancel
  split
  next semaphore deadlineAt hcall =>
    exact h.move_dropHandle hcall (about_finished _) (by simp [HostAcquisition.handles]) rfl
  next semaphore hcall => exact h.move_release hfits hcall (if_pos rfl) (if_pos rfl)
  · exact h

theorem Counted.releasePermit (h : Counted limit s) (hfits : limit ≤ usizeMax) (call : ℕ) :
    Counted limit (s.releasePermit call) := by
  unfold HostLimiters.releasePermit
  split
  next semaphore hcall => exact h.move_release hfits hcall (if_pos rfl) (if_pos rfl)
  · exact h

theorem Counted.dropHandle (h : Counted limit s) (call : ℕ) :
    Counted limit (s.dropHandle call) := by
  unfold HostLimiters.dropHandle
  split
  next semaphore hcall =>
    exact h.move_dropHandle hcall (about_of_handles (by simp [HostAcquisition.handles]))
      (by simp [HostAcquisition.handles]) rfl
  next semaphore hcall =>
    exact h.move_dropHandle hcall (about_finished _) (by simp [HostAcquisition.handles]) rfl
  · exact h

/-! ## Steps under the lock -/

theorem countP_evicted (h : Counted limit s) {after : Std.TreeMap Text PerHostLimiterEntry}
    (hcell : s.heap[id]? = some cell) :
    (s.perHost.toList.filter fun e ↦ !after.contains e.1).countP (·.2.semaphore = id) =
      if InTable s.perHost id cell.host ∧ after[cell.host]? = none then 1 else 0 := by
  -- An entry that points to the semaphore is the entry of its host.
  have hkey : ∀ e ∈ s.perHost.toList.filter (fun e ↦ !after.contains e.1),
      decide (e.2.semaphore = id) = true → e.1 = cell.host ∧ s.perHost[e.1]? = some e.2 ∧
        after[e.1]? = none := by
    intro e he hid
    obtain ⟨hmem, hgone⟩ := List.mem_filter.mp he
    have hentry := Std.TreeMap.mem_toList_iff_getElem?_eq_some.mp hmem
    obtain ⟨-, other, hother, hhost⟩ := h.entries e.1 e.2 hentry
    rw [of_decide_eq_true hid, hcell] at hother
    obtain rfl := Option.some.inj hother
    refine ⟨hhost.symm, hentry, ?_⟩
    exact Std.TreeMap.getElem?_eq_none_of_contains_eq_false (by simpa using hgone)
  have hle : (s.perHost.toList.filter fun e ↦ !after.contains e.1).countP
      (·.2.semaphore = id) ≤ 1 := by
    apply countP_le_one cell.host
    · exact s.perHost.distinct_keys_toList.filter _
    · exact fun e he hid ↦ (hkey e he hid).1
  split_ifs with hevicted
  · obtain ⟨hin, hnone⟩ := hevicted
    obtain ⟨entry, hentry, rfl⟩ := Option.map_eq_some_iff.mp hin
    have hpos : 0 < (s.perHost.toList.filter fun e ↦ !after.contains e.1).countP
        (·.2.semaphore = entry.semaphore) := by
      rw [List.countP_pos_iff]
      refine ⟨(cell.host, entry), List.mem_filter.mpr ⟨?_, ?_⟩, by simp⟩
      · exact Std.TreeMap.mem_toList_iff_getElem?_eq_some.mpr hentry
      · rw [← Std.TreeMap.isSome_getElem?_eq_contains, hnone]
        rfl
    omega
  · rw [List.countP_eq_zero]
    intro e he hid
    obtain ⟨hhost, hentry, hnone⟩ := hkey e he hid
    rw [hhost] at hentry hnone
    refine hevicted ⟨?_, hnone⟩
    rw [InTable, hentry]
    exact congrArg some (of_decide_eq_true hid)

@[simp] theorem handles_cleanup (s : HostLimiters) (now id : ℕ) :
    (s.cleanup now).handles id = s.handles id := rfl

theorem Counted.cleanup (h : Counted limit s) (now : ℕ) : Counted limit (s.cleanup now) := by
  have hevicts : EvictsIdle (PerHostLimiterEntry.isIdle s.heap) s.perHost (s.cleanup now).perHost :=
    evictsIdle_cleanup now perHostLimiterEntryTtl perHostLimiterMaxEntries
  have hheap : ∀ id : ℕ, (s.cleanup now).heap[id]? = s.heap[id]?.map fun cell ↦
      { cell with strongCount := cell.strongCount - (s.perHost.toList.filter fun e ↦
        !(s.cleanup now).perHost.contains e.1).countP (·.2.semaphore = id) } :=
    fun id ↦ getElem?_foldl_dropHandle _ _ _
  refine ⟨?_, ?_, ?_⟩
  · intro host entry hentry
    have hbefore : s.perHost[host]? = some entry := by
      rcases hevicts host with heq | ⟨hnone, -⟩
      · exact heq ▸ hentry
      · rw [hnone] at hentry
        cases hentry
    obtain ⟨hlimit, cell, hcell, hhost⟩ := h.entries host entry hbefore
    refine ⟨hlimit, ?_⟩
    rw [hheap, hcell]
    exact ⟨_, rfl, hhost⟩
  · intro id cell' hcell'
    rw [hheap] at hcell'
    obtain ⟨cell, hcell, rfl⟩ := Option.map_eq_some_iff.mp hcell'
    obtain ⟨hpermits, howners, horphaned⟩ := h.cells id cell hcell
    rw [countP_evicted h hcell]
    by_cases hin : InTable s.perHost id cell.host
    · rcases hevicts cell.host with heq | ⟨hnone, entry, hentry, hidle⟩
      · have hkept : InTable (s.cleanup now).perHost id cell.host := by
          rw [InTable, heq]
          exact hin
        have hsome : (s.cleanup now).perHost[cell.host]? ≠ none := by
          intro hnone
          rw [InTable, hnone] at hkept
          cases hkept
        refine ⟨hpermits, ?_, fun horphan ↦ absurd hkept horphan⟩
        simpa [hkept, hsome, hin] using howners
      · -- The evicted entry was idle: only the table owned its semaphore.
        obtain rfl : entry.semaphore = id := by
          rw [InTable, hentry] at hin
          exact Option.some.inj hin
        have hgone : ¬InTable (s.cleanup now).perHost entry.semaphore cell.host := by
          rw [InTable, hnone]
          exact fun hnot ↦ by cases hnot
        have halone : cell.strongCount = 1 := by
          simp only [PerHostLimiterEntry.isIdle, hcell, Bool.and_eq_true, beq_iff_eq] at hidle
          exact hidle.1
        have hnohandle : s.handles entry.semaphore = 0 := by
          rw [if_pos hin] at howners
          omega
        refine ⟨hpermits, ?_, fun _ ↦ hnohandle⟩
        simp [hin, hnone, hgone, halone, hnohandle]
    · have hgone : ¬InTable (s.cleanup now).perHost id cell.host := by
        rcases hevicts cell.host with heq | ⟨hnone, -⟩
        · rw [InTable, heq]
          exact hin
        · rw [InTable, hnone]
          exact fun hnot ↦ by cases hnot
      refine ⟨hpermits, ?_, fun _ ↦ horphaned hin⟩
      simpa [hgone, hin] using howners
  · intro id hnone
    rw [hheap, Option.map_eq_none_iff] at hnone
    exact h.unallocated id hnone

/-- After the lookup the host has an entry, and the table leads to its semaphore. -/
theorem Counted.useEntry (h : Counted limit s) (host : Text) (now : ℕ) :
    Counted limit (s.useEntry host limit now).2 ∧
      InTable (s.useEntry host limit now).2.perHost (s.useEntry host limit now).1.semaphore host ∧
      ∃ cell, (s.useEntry host limit now).2.heap[(s.useEntry host limit now).1.semaphore]? =
        some cell ∧ cell.host = host := by
  unfold HostLimiters.useEntry
  cases hentry : s.perHost[host]? with
  | some entry =>
    dsimp only
    have hlookup : ∀ other : Text,
        ((s.perHost.insert host { entry with lastUsedAt := now })[other]?).map
            PerHostLimiterEntry.semaphore =
          s.perHost[other]?.map PerHostLimiterEntry.semaphore := by
      intro other
      rw [Std.TreeMap.getElem?_insert]
      split_ifs with hkey
      · obtain rfl : host = other := Std.compare_eq_iff_eq.mp hkey
        rw [hentry]
        rfl
      · rfl
    obtain ⟨hlimit, cell, hcell, hhost⟩ := h.entries host entry hentry
    refine ⟨⟨?_, ?_, h.unallocated⟩, ?_, cell, hcell, hhost⟩
    · intro other used hused
      rw [Std.TreeMap.getElem?_insert] at hused
      split_ifs at hused with hkey
      · obtain rfl : host = other := Std.compare_eq_iff_eq.mp hkey
        obtain rfl := Option.some.inj hused
        exact ⟨hlimit, cell, hcell, hhost⟩
      · exact h.entries other used hused
    · intro id cell hcell
      obtain ⟨hpermits, howners, horphaned⟩ := h.cells id cell hcell
      simp only [InTable, ← hlookup] at howners horphaned
      exact ⟨hpermits, howners, horphaned⟩
    · rw [InTable, hlookup, hentry]
      rfl
  | none =>
    dsimp only
    have hin : ∀ id other, InTable (s.perHost.insert host ⟨s.heap.length, limit, now⟩) id other ↔
        if other = host then s.heap.length = id else InTable s.perHost id other := by
      intro id other
      rw [InTable, Std.TreeMap.getElem?_insert]
      by_cases hkey : other = host
      · simp [hkey]
      · have hne : ¬compare host other = .eq := fun heq ↦ hkey (Std.compare_eq_iff_eq.mp heq).symm
        simp [hkey, hne, InTable]
    have hnone : ∀ id, ¬InTable s.perHost id host := by
      intro id hin
      rw [InTable, hentry] at hin
      cases hin
    have hfresh : s.handles s.heap.length = 0 :=
      h.unallocated _ (List.getElem?_eq_none le_rfl)
    refine ⟨⟨?_, ?_, ?_⟩, ?_, .new host limit, List.getElem?_concat_length, rfl⟩
    · intro other entry hother
      rw [Std.TreeMap.getElem?_insert] at hother
      split_ifs at hother with hkey
      · obtain rfl : host = other := Std.compare_eq_iff_eq.mp hkey
        obtain rfl := Option.some.inj hother
        exact ⟨rfl, _, List.getElem?_concat_length, rfl⟩
      · obtain ⟨hlimit, cell, hcell, hhost⟩ := h.entries other entry hother
        refine ⟨hlimit, cell, ?_, hhost⟩
        rw [List.getElem?_append_left (List.getElem?_eq_some_iff.mp hcell).1]
        exact hcell
    · intro id cell hcell
      rcases Nat.lt_or_ge id s.heap.length with hlt | hge
      · rw [List.getElem?_append_left hlt] at hcell
        obtain ⟨hpermits, howners, horphaned⟩ := h.cells id cell hcell
        have hsame : InTable (s.perHost.insert host ⟨s.heap.length, limit, now⟩) id cell.host ↔
            InTable s.perHost id cell.host := by
          rw [hin]
          split_ifs with hhost
          · rw [hhost]
            exact iff_of_false hlt.ne' (hnone id)
          · rfl
        refine ⟨hpermits, ?_, fun horphan ↦ horphaned (hsame.not.mp horphan)⟩
        change _ = (if InTable _ id cell.host then 1 else 0) + s.handles id
        simpa only [hsame] using howners
      · obtain rfl : id = s.heap.length := by
          have hlen := (List.getElem?_eq_some_iff.mp hcell).1
          simp only [List.length_append, List.length_singleton] at hlen
          omega
        rw [List.getElem?_concat_length] at hcell
        obtain rfl := Option.some.inj hcell
        have houtstanding := s.outstanding_le_handles s.heap.length
        have htable : InTable (s.perHost.insert host ⟨s.heap.length, limit, now⟩) s.heap.length
            host := by
          rw [hin, if_pos rfl]
        refine ⟨?_, ?_, fun horphan ↦ absurd htable horphan⟩
        · change limit + s.outstanding s.heap.length = limit
          omega
        · change 1 = (if InTable _ s.heap.length host then 1 else 0) + s.handles s.heap.length
          rw [if_pos htable, hfresh]
    · intro id hid
      apply h.unallocated
      rw [List.getElem?_eq_none_iff] at hid ⊢
      rw [List.length_append] at hid
      omega
    · rw [hin, if_pos rfl]

theorem Counted.start (h : Counted limit s) :
    Counted limit { s with calls := s.calls ++ [.finished] } := by
  have hhandles : ∀ id, HostLimiters.handles { s with calls := s.calls ++ [.finished] } id =
      s.handles id := fun _ ↦ Shares.total_append _ _ _
  refine ⟨h.entries, fun id cell hcell ↦ ?_, fun id hnone ↦ ?_⟩
  · obtain ⟨hpermits, howners, horphaned⟩ := h.cells id cell hcell
    refine ⟨?_, by rwa [hhandles], fun horphan ↦ by rw [hhandles, horphaned horphan]⟩
    exact (congrArg _ (Shares.total_append _ _ _)).trans hpermits
  · rw [hhandles]
    exact h.unallocated id hnone

theorem Counted.tryAcquire (h : Counted limit s) (hcell : s.heap[id]? = some cell)
    (hin : InTable s.perHost id cell.host) (deadlineAt : Option ℕ) :
    Counted limit (s.tryAcquire id deadlineAt) := by
  -- The call starts without a handle and takes its first one from the table.
  have hstart := h.start
  have hcall : (s.calls ++ [HostAcquisition.finished])[s.calls.length]? = some .finished :=
    List.getElem?_concat_length
  unfold HostLimiters.tryAcquire
  rw [hcell]
  dsimp only
  split_ifs with hzero
  · have hnext : About id (.waiting id deadlineAt) :=
      about_of_handles (by simp [HostAcquisition.handles])
    have hmove : Counted limit (HostLimiters.move { s with calls := s.calls ++ [.finished] }
        s.calls.length (.waiting id deadlineAt) id HostSemaphore.cloneHandle) := by
      apply hstart.move hcall (about_finished id) hnext ⟨cell, hcell, hin⟩
      rintro cell' - - -
      refine ⟨rfl, ?_, ?_⟩ <;>
        simp [HostSemaphore.cloneHandle, HostAcquisition.handles, HostAcquisition.permits]
    simpa [HostLimiters.move] using hmove
  · have hnext : About id (.holding id) := about_of_handles (by simp [HostAcquisition.handles])
    have hmove : Counted limit (HostLimiters.move { s with calls := s.calls ++ [.finished] }
        s.calls.length (.holding id) id fun cell ↦ cell.take.cloneHandle) := by
      apply hstart.move hcall (about_finished id) hnext ⟨cell, hcell, hin⟩
      rintro cell' hcell' - -
      obtain rfl : cell = cell' := Option.some.inj (hcell.symm.trans hcell')
      refine ⟨rfl, ?_, ?_⟩ <;>
        simp [HostSemaphore.take, HostSemaphore.cloneHandle, HostAcquisition.handles,
          HostAcquisition.permits]
      omega
    simpa [HostLimiters.move] using hmove

/-! ## Runs -/

theorem Counted.step {limit : HostLimit} (h : Counted limit.permits s)
    (action : HostLimiterAction) : Counted limit.permits (s.step rt (some limit) action) := by
  cases action with
  | poll call now => exact h.poll call now
  | deliver call => exact h.deliver call
  | cancel call => exact h.cancel limit.fits call
  | releasePermit call => exact h.releasePermit limit.fits call
  | dropHandle call => exact h.dropHandle call
  | acquireHost host deadlineAt now =>
    change Counted limit.permits (s.acquireHost (some limit) host deadlineAt now)
    unfold HostLimiters.acquireHost
    cases host.bind normalizeHostKey with
    | none => exact h.start
    | some host =>
      obtain ⟨hused, hin, cell, hcell, rfl⟩ := (h.cleanup now).useEntry host now
      exact hused.tryAcquire hcell hin deadlineAt

theorem counted_run (rt : Runtime) (limit : HostLimit) (actions : List HostLimiterAction) :
    Counted limit.permits (run rt (some limit) actions) := by
  have hnew : Counted limit.permits new := by
    refine ⟨?_, ?_, ?_⟩
    · intro host entry hentry
      simp [new] at hentry
    · intro id cell hcell
      cases hcell
    · intro id _
      rfl
  induction actions using List.reverseRecOn with
  | nil => exact hnew
  | append_singleton actions action ih =>
    rw [run, List.foldl_append]
    exact Counted.step ih action

/-- Two semaphores of one host cannot both have permits out: one of them was evicted. -/
theorem Counted.outstanding_eq_zero (h : Counted limit s) {id other : ℕ}
    (hcell : s.heap[other]? = some cell) (hin : InTable s.perHost id cell.host) (hne : other ≠ id) :
    s.outstanding other = 0 := by
  have horphan : ¬InTable s.perHost other cell.host := by
    intro hother
    exact hne (Option.some.inj (hother.symm.trans hin))
  have hhandles := (h.cells other cell hcell).orphaned horphan
  have hle := s.outstanding_le_handles other
  omega

/-- The permits that are out for a host, over all semaphores that were ever created for it. -/
def outstandingFor (s : HostLimiters) (host : Text) : ℕ :=
  ∑ id ∈ Finset.range s.heap.length with (s.heap[id]?.map HostSemaphore.host = some host),
    s.outstanding id

theorem Counted.outstandingFor_le (h : Counted limit s) (host : Text) :
    s.outstandingFor host ≤ limit := by
  unfold outstandingFor
  cases hentry : s.perHost[host]? with
  | none =>
    rw [Finset.sum_eq_zero]
    · exact Nat.zero_le _
    · intro id hid
      obtain ⟨cell, hcell, rfl⟩ := Option.map_eq_some_iff.mp (Finset.mem_filter.mp hid).2
      have horphan : ¬InTable s.perHost id cell.host := by
        rw [InTable, hentry]
        exact fun hin ↦ by cases hin
      have hhandles := (h.cells id cell hcell).orphaned horphan
      have hle := s.outstanding_le_handles id
      omega
  | some entry =>
    obtain ⟨-, cell, hcell, hhost⟩ := h.entries host entry hentry
    rw [Finset.sum_eq_single entry.semaphore]
    · have hpermits := (h.cells entry.semaphore cell hcell).permits
      omega
    · intro id hid hne
      obtain ⟨other, hother, rfl⟩ := Option.map_eq_some_iff.mp (Finset.mem_filter.mp hid).2
      apply h.outstanding_eq_zero hother ?_ hne
      rw [InTable, hentry]
      rfl
    · intro hmem
      refine absurd (Finset.mem_filter.mpr ⟨?_, ?_⟩) hmem
      · exact Finset.mem_range.mpr (List.getElem?_eq_some_iff.mp hcell).1
      · rw [hcell, ← hhost]
        rfl

/-- Whatever the calls, drops, timeouts and cancellations do, and however the cleanups fall
between them, no more permits are out for a host than its limit allows, and every semaphore has
exactly the permits that are not out. -/
theorem host_limit_survives_eviction (rt : Runtime) (limit : HostLimit)
    (actions : List HostLimiterAction) :
    (∀ host, (run rt (some limit) actions).outstandingFor host ≤ limit.permits) ∧
      ∀ id semaphore, (run rt (some limit) actions).heap[id]? = some semaphore →
        semaphore.availablePermits + (run rt (some limit) actions).outstanding id =
          limit.permits := by
  have hcounted := counted_run rt limit actions
  refine ⟨hcounted.outstandingFor_le, ?_⟩
  intro id semaphore hsemaphore
  exact (hcounted.cells id semaphore hsemaphore).permits

/-- A permit comes back, its entry grows old and is evicted, and the host gets a new semaphore. -/
def evictedOnce : List HostLimiterAction :=
  [.acquireHost (some "a.test".toList) none 0, .releasePermit 0, .dropHandle 0,
    .acquireHost (some "A.test.".toList) none (fromSecs 301)]

theorem host_limit_survives_eviction_evictedOnce :
    (run .blocking (some ⟨1, by decide⟩) evictedOnce).heap.map HostSemaphore.availablePermits =
        [1, 0] ∧
      (run .blocking (some ⟨1, by decide⟩) evictedOnce).outstandingFor "a.test".toList ≤ 1 :=
  ⟨by decide +kernel, (host_limit_survives_eviction .blocking ⟨1, by decide⟩ evictedOnce).1 _⟩

end HostLimiters

end Reqx.Driver
