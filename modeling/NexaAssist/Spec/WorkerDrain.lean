import Mathlib.Algebra.GroupWithZero.Nat
import NexaAssist.Spec.WorkshopConservation

/-!
# A worker alone empties the queue

Draining goes in rounds: everything that waits is tried once, in order, and what is to be
tried again comes back in the order it was tried. So the runs of a drain are its rounds one
after another, and a job is in as many of them as it takes to end it.
-/

namespace NexaAssist.Spec.WorkerDrain

open NexaAssist PyJson Jobs Spec.WorkshopConservation

/-! ## One attempt -/

section Attempt

variable (w : JobWorker) (outcome : JobId → Nat → RunOutcome)

/-- The job that is stored once its next attempt is over. -/
def tried (job : Job) : Job :=
  match w.attempt (outcome job.id (job.attempts + 1)) job with
  | .complete => job.running.succeeded
  | .fail error retryable =>
    if job.running.exhausted || !retryable then job.running.dead error
    else job.running.retry error

/-- A job and what it ended as: at its first attempt that succeeded, and failing that at the
    first that may not be repeated or is the last of the budget. -/
structure EndedAs (job after : Job) : Prop where
  later : job.attempts < after.attempts
  budget : after.attempts ≤ job.maxAttempts
  earlier : ∀ a, job.attempts < a → a < after.attempts →
    ∃ error, w.attempt (outcome job.id a) job = .fail error true
  last : match w.attempt (outcome job.id after.attempts) job with
    | .complete => after.status = .succeeded ∧ after.error = none
    | .fail error retryable => (retryable = false ∨ after.attempts = job.maxAttempts) ∧
        after.status = .failed ∧ after.error = some error

variable {w outcome} {job : Job}

/-- A job that was tried has its id. -/
@[simp] theorem tried_id : (tried w outcome job).id = job.id := by
  unfold tried
  split
  · rfl
  · split <;> rfl

/-- A job that was tried has one attempt more. -/
@[simp] theorem tried_attempts : (tried w outcome job).attempts = job.attempts + 1 := by
  unfold tried
  split
  · rfl
  · split <;> rfl

/-- A job that was tried has as many attempts at most as before. -/
@[simp] theorem tried_maxAttempts : (tried w outcome job).maxAttempts = job.maxAttempts := by
  unfold tried
  split
  · rfl
  · split <;> rfl

/-- A running job is exhausted just if this is its last attempt. -/
theorem exhausted_running : job.running.exhausted = decide (job.maxAttempts ≤ job.attempts + 1) :=
  rfl

/-- `attempt` at a job that was tried is the same attempt, since the name and the payload stay. -/
theorem attempt_tried (o : RunOutcome) : w.attempt o (tried w outcome job) = w.attempt o job := by
  have hname : (tried w outcome job).name = job.name ∧
      (tried w outcome job).payload = job.payload := by
    unfold tried
    split
    · exact ⟨rfl, rfl⟩
    · split <;> exact ⟨rfl, rfl⟩
  simp only [JobWorker.attempt, JobWorker.dispatch, hname]

variable (w outcome) in
/-- A job that was tried is pending with attempts left, or has ended. -/
theorem tried_cases (hlt : job.attempts < job.maxAttempts) :
    (tried w outcome job).status = .pending ∧ job.attempts + 1 < job.maxAttempts ∧
        (∃ error, w.attempt (outcome job.id (job.attempts + 1)) job = .fail error true) ∨
      (tried w outcome job).status ≠ .pending ∧ EndedAs w outcome job (tried w outcome job) := by
  have hnone : ∀ a, job.attempts < a → a < (tried w outcome job).attempts →
      ∃ error, w.attempt (outcome job.id a) job = .fail error true := by
    intro a ha ha'
    rw [tried_attempts] at ha'
    omega
  cases hv : w.attempt (outcome job.id (job.attempts + 1)) job with
  | complete =>
    have heq : tried w outcome job = job.running.succeeded := by simp [tried, hv]
    refine .inr ⟨by simp [heq, Job.succeeded], by simp, tried_attempts.trans_le hlt, hnone, ?_⟩
    rw [tried_attempts]
    simp [hv, heq, Job.succeeded]
  | fail error retryable =>
    by_cases hend : (job.running.exhausted || !retryable) = true
    · have heq : tried w outcome job = job.running.dead error := by simp [tried, hv, hend]
      refine .inr ⟨by simp [heq, Job.dead], by simp, tried_attempts.trans_le hlt, hnone, ?_⟩
      simp only [tried_attempts, hv]
      refine ⟨?_, by simp [heq, Job.dead], by simp [heq, Job.dead]⟩
      have hover : job.maxAttempts ≤ job.attempts + 1 ∨ retryable = false := by
        simpa [exhausted_running] using hend
      exact hover.elim (fun h => .inr (by omega)) .inl
    · have heq : tried w outcome job = job.running.retry error := by simp [tried, hv, hend]
      have hagain : job.attempts + 1 < job.maxAttempts ∧ retryable = true := by
        simpa [exhausted_running] using hend
      exact .inl ⟨by simp [heq, Job.retry], hagain.1, error, by rw [hagain.2]⟩

/-- A job ends as it does once it was tried again. -/
theorem EndedAs.retry {after : Job} (h : EndedAs w outcome (tried w outcome job) after)
    {error : PyStr}
    (hfail : w.attempt (outcome job.id (job.attempts + 1)) job = .fail error true) :
    EndedAs w outcome job after where
  later := by
    have hlater := h.later
    rw [tried_attempts] at hlater
    omega
  budget := by simpa using h.budget
  earlier a ha ha' := by
    by_cases heq : a = job.attempts + 1
    · exact ⟨error, heq ▸ hfail⟩
    · simpa [attempt_tried] using h.earlier a (by simp; omega) ha'
  last := by simpa [attempt_tried] using h.last

end Attempt

/-! ## One run -/

/-- How often a job has been tried, and how often it still may be. -/
def attemptsOf (q : InMemoryJobQueue) (id : JobId) : Nat :=
  match q.jobs id with
  | none => 0
  | some job => job.attempts

def budgetLeft (q : InMemoryJobQueue) (id : JobId) : Nat :=
  match q.jobs id with
  | none => 0
  | some job => job.maxAttempts - job.attempts

/-- A queue a worker may drain: what waits in it is stored, once, with budget left. -/
structure Drainable (q : InMemoryJobQueue) : Prop where
  nodup : q.pending.Nodup
  stored : ∀ id ∈ q.pending,
    ∃ job, q.jobs id = some job ∧ job.id = id ∧ job.attempts < job.maxAttempts

/-- What a run reports of itself. -/
def key (run : JobRun) : JobId × Nat := (run.jobId, run.attempts)

section Drain

variable {w : JobWorker} {outcome : JobId → Nat → RunOutcome} {q q' : InMemoryJobQueue}

/-- The queue once the job at its front was tried. -/
def afterTry (w : JobWorker) (outcome : JobId → Nat → RunOutcome) (q : InMemoryJobQueue)
    (id : JobId) (rest : List JobId) (job : Job) : InMemoryJobQueue where
  pending := rest ++ if (tried w outcome job).status = .pending then [id] else []
  jobs j := if j = id then some (tried w outcome job) else q.jobs j
  dead := q.dead ++ if (tried w outcome job).status = .failed then [id] else []

/-- Of two jobs that are stored under an id the last counts. -/
theorem InMemoryJobQueue.store_store (q : InMemoryJobQueue) (id : JobId) (job job' : Job)
    (pending : List JobId) :
    InMemoryJobQueue.store { q.store id job with pending } id job' =
      { q.store id job' with pending } := by
  simp only [InMemoryJobQueue.store, InMemoryJobQueue.mk.injEq, true_and, and_true]
  funext j
  by_cases hj : j = id <;> simp [hj]

/-- `tellMemory` passes back the job that was tried, as `afterTry` says. -/
theorem tell_running {rest : List JobId} {job : Job} :
    (w.attempt (outcome job.id (job.attempts + 1)) job).tellMemory
        { q.store job.id job.running with pending := rest } job.running =
      (.ok (tried w outcome job), afterTry w outcome q job.id rest job) := by
  have hstored : InMemoryJobQueue.stored
      { q.store job.id job.running with pending := rest } job.running.id =
        .ok job.running := by
    simp [InMemoryJobQueue.stored, InMemoryJobQueue.store]
  cases hv : w.attempt (outcome job.id (job.attempts + 1)) job with
  | complete =>
    have heq : tried w outcome job = job.running.succeeded := by simp [tried, hv]
    simp only [Settlement.tellMemory, InMemoryJobQueue.complete, hstored]
    rw [Job.running_id, InMemoryJobQueue.store_store, afterTry, heq]
    simp [InMemoryJobQueue.store, Job.succeeded]
  | fail error retryable =>
    simp only [Settlement.tellMemory, InMemoryJobQueue.fail, hstored]
    by_cases hend : (job.running.exhausted || !retryable) = true
    · have heq : tried w outcome job = job.running.dead error := by simp [tried, hv, hend]
      rw [if_pos hend, Job.running_id, InMemoryJobQueue.store_store, afterTry, heq]
      simp [InMemoryJobQueue.store, Job.dead]
    · have heq : tried w outcome job = job.running.retry error := by simp [tried, hv, hend]
      rw [if_neg hend, Job.running_id, InMemoryJobQueue.store_store, afterTry, heq]
      simp [InMemoryJobQueue.store, Job.retry]

/-- `runOnceMemory` tries the job at the front, and leaves what `afterTry` says. -/
theorem runOnce_cons {id : JobId} {rest : List JobId} {job : Job}
    (hp : q.pending = id :: rest) (hjob : q.jobs id = some job) (hid : job.id = id) :
    ∃ run, w.runOnceMemory outcome q = (.ok (some run), afterTry w outcome q id rest job) ∧
      key run = (id, job.attempts + 1) := by
  subst hid
  have hattempt : w.attempt (outcome job.running.id job.running.attempts) job.running =
      w.attempt (outcome job.id (job.attempts + 1)) job := rfl
  refine ⟨(w.attempt (outcome job.id (job.attempts + 1)) job).record job.running
    (tried w outcome job), ?_, ?_⟩
  · simp only [JobWorker.runOnceMemory, InMemoryJobQueue.dequeue, hp,
      InMemoryJobQueue.takeNext, hjob, hattempt, tell_running]
  · cases w.attempt (outcome job.id (job.attempts + 1)) job <;>
      simp [key, Settlement.record]

/-- `runOnce` is idle on an empty queue. -/
theorem runOnce_nil (hp : q.pending = []) : w.runOnceMemory outcome q = (.ok none, q) := by
  simp only [JobWorker.runOnceMemory, InMemoryJobQueue.dequeue, hp, InMemoryJobQueue.takeNext]
  rw [← hp]

/-! ## One round -/

/-- Whether a job has to be tried again after its next attempt. -/
def again (w : JobWorker) (outcome : JobId → Nat → RunOutcome) (q : InMemoryJobQueue)
    (id : JobId) : Bool :=
  match q.jobs id with
  | none => false
  | some job => (tried w outcome job).status = .pending

def dies (w : JobWorker) (outcome : JobId → Nat → RunOutcome) (q : InMemoryJobQueue)
    (id : JobId) : Bool :=
  match q.jobs id with
  | none => false
  | some job => (tried w outcome job).status = .failed

/-- The queue once everything of a round was tried, with `later` waiting before. -/
def afterRound (w : JobWorker) (outcome : JobId → Nat → RunOutcome) (q : InMemoryJobQueue)
    (round later : List JobId) : InMemoryJobQueue where
  pending := later ++ round.filter (again w outcome q)
  jobs id := if id ∈ round then (q.jobs id).map (tried w outcome) else q.jobs id
  dead := q.dead ++ round.filter (dies w outcome q)

/-- A try leaves the other jobs. -/
theorem afterTry_jobs {id : JobId} {rest : List JobId} {job : Job} {j : JobId} (h : j ≠ id) :
    (afterTry w outcome q id rest job).jobs j = q.jobs j := if_neg h

/-- A round is a try of its front and then a round of the rest. -/
theorem afterRound_afterTry {id : JobId} {round later : List JobId} {job : Job}
    (hjob : q.jobs id = some job) (hnew : id ∉ round) :
    afterRound w outcome (afterTry w outcome q id (round ++ later) job) round
        (later ++ if (tried w outcome job).status = .pending then [id] else []) =
      afterRound w outcome q (id :: round) later := by
  have hne : ∀ j ∈ round, j ≠ id := fun j hj heq => hnew (heq ▸ hj)
  simp only [afterRound, InMemoryJobQueue.mk.injEq]
  refine ⟨?_, ?_, ?_⟩
  · have hfilter : round.filter (again w outcome
        (afterTry w outcome q id (round ++ later) job)) = round.filter (again w outcome q) :=
      List.filter_congr fun j hj => by simp only [again, afterTry_jobs (hne j hj)]
    rw [hfilter, List.filter_cons, List.append_assoc]
    by_cases hs : (tried w outcome job).status = .pending <;> simp [again, hjob, hs]
  · funext j
    by_cases hj : j = id
    · subst hj
      simp [hnew, afterTry, hjob]
    · simp [hj, afterTry_jobs hj]
  · have hfilter : round.filter (dies w outcome
        (afterTry w outcome q id (round ++ later) job)) = round.filter (dies w outcome q) :=
      List.filter_congr fun j hj => by simp only [dies, afterTry_jobs (hne j hj)]
    rw [hfilter, List.filter_cons, afterTry, List.append_assoc]
    by_cases hs : (tried w outcome job).status = .failed <;> simp [dies, hjob, hs]

/-- `drain` tries a round in order, and what is to be tried again waits behind everything else, in
    that order. -/
theorem drain_round {round later : List JobId} {m : Nat} {rest : List JobRun}
    (hp : q.pending = round ++ later) (hnodup : round.Nodup)
    (hstored : ∀ id ∈ round, ∃ job, q.jobs id = some job ∧ job.id = id)
    (hrest : w.drain outcome m (afterRound w outcome q round later) = (.ok rest, q')) :
    ∃ runs, runs.map key = (round.map fun id => (id, attemptsOf q id + 1)) ∧
      w.drain outcome (round.length + m) q = (.ok (runs ++ rest), q') := by
  induction round generalizing q later with
  | nil =>
    have hq : afterRound w outcome q [] later = q := by
      simp only [List.nil_append] at hp
      simp [afterRound, ← hp]
    rw [hq] at hrest
    exact ⟨[], rfl, by simpa using hrest⟩
  | cons id round ih =>
    obtain ⟨hnew, hnodup⟩ := List.nodup_cons.1 hnodup
    obtain ⟨job, hjob, hid⟩ := hstored id (by simp)
    have hne : ∀ j ∈ round, j ≠ id := fun j hj heq => hnew (heq ▸ hj)
    have hcons : q.pending = id :: (round ++ later) := hp
    obtain ⟨run, hrun, hkey⟩ := runOnce_cons hcons hjob hid
    rw [← afterRound_afterTry hjob hnew] at hrest
    have hstored' : ∀ j ∈ round, ∃ job', (afterTry w outcome q id (round ++ later) job).jobs j =
        some job' ∧ job'.id = j := by
      intro j hj
      rw [afterTry_jobs (hne j hj)]
      exact hstored j (by simp [hj])
    obtain ⟨runs, hkeys, hdrain⟩ := ih (by simp [afterTry]) hnodup hstored' hrest
    refine ⟨run :: runs, ?_, ?_⟩
    · rw [List.map_cons, hkey, hkeys, List.map_cons]
      congr 1
      · simp [attemptsOf, hjob]
      · refine List.map_congr_left fun j hj => ?_
        simp only [attemptsOf, afterTry_jobs (hne j hj)]
    · rw [List.length_cons, Nat.succ_add, JobWorker.drain, hrun]
      simp only [hdrain, List.cons_append]

/-- `drain` of an empty queue does nothing. -/
theorem drain_nil (hp : q.pending = []) (m : Nat) : w.drain outcome m q = (.ok [], q) := by
  cases m with
  | zero => rfl
  | succ m => simp only [JobWorker.drain, runOnce_nil hp]

/-! ## All rounds -/

/-- What a drain leaves, and the runs it reports. -/
structure Drained (w : JobWorker) (outcome : JobId → Nat → RunOutcome)
    (q q' : InMemoryJobQueue) (runs : List JobRun) : Prop where
  empty : q'.pending = []
  ended : ∀ id ∈ q.pending, ∃ job after, q.jobs id = some job ∧ q'.jobs id = some after ∧
    EndedAs w outcome job after ∧
    q'.dead.count id = q.dead.count id + if after.status = .failed then 1 else 0
  others : ∀ id ∉ q.pending, q'.jobs id = q.jobs id ∧ q'.dead.count id = q.dead.count id
  /-- In round `k` run, in the order they waited in, the jobs that `k` attempts did not end. -/
  order : ∀ rounds, (∀ id ∈ q.pending, attemptsOf q' id ≤ attemptsOf q id + rounds) →
    runs.map key = (List.range rounds).flatMap fun k =>
      (q.pending.filter fun id => attemptsOf q id + k < attemptsOf q' id).map fun id =>
        (id, attemptsOf q id + k + 1)

/-- All a round is of. -/
abbrev nextRound (w : JobWorker) (outcome : JobId → Nat → RunOutcome) (q : InMemoryJobQueue) :
    InMemoryJobQueue :=
  afterRound w outcome q q.pending []

/-- After a round each listed job was tried once. -/
theorem nextRound_jobs {id : JobId} {job : Job} (hmem : id ∈ q.pending)
    (hjob : q.jobs id = some job) :
    (nextRound w outcome q).jobs id = some (tried w outcome job) := by
  simp [afterRound, hmem, hjob]

/-- A round leaves the jobs that were not listed. -/
theorem nextRound_other {id : JobId} (hmem : id ∉ q.pending) :
    (nextRound w outcome q).jobs id = q.jobs id := by
  simp [afterRound, hmem]

/-- A round lists again the jobs that are to be tried again. -/
theorem mem_nextRound {id : JobId} : id ∈ (nextRound w outcome q).pending ↔
    id ∈ q.pending ∧ again w outcome q id = true := by
  simp [afterRound]

variable (w outcome) in
/-- After a round the queue is still drainable. -/
theorem Drainable.nextRound (h : Drainable q) : Drainable (nextRound w outcome q) where
  nodup := by simpa [afterRound] using h.nodup.filter _
  stored id hmem := by
    obtain ⟨hold, hagain⟩ := mem_nextRound.1 hmem
    obtain ⟨job, hjob, hid, hlt⟩ := h.stored id hold
    refine ⟨tried w outcome job, nextRound_jobs hold hjob, by simp [hid], ?_⟩
    have hstatus : (tried w outcome job).status = .pending := by
      simpa [again, hjob] using hagain
    obtain ⟨-, hmore, -⟩ | ⟨hne, -⟩ := tried_cases w outcome hlt
    · simpa using hmore
    · exact absurd hstatus hne

/-- A sum over what is left of a list, where each element left costs one less, is less by the length
    of the list. -/
theorem sum_filter_add_length_le {α : Type} (p : α → Bool) (f g : α → Nat) (xs : List α)
    (hf : ∀ x ∈ xs, 1 ≤ f x) (hg : ∀ x ∈ xs, p x = true → g x + 1 ≤ f x) :
    ((xs.filter p).map g).sum + xs.length ≤ (xs.map f).sum := by
  induction xs with
  | nil => simp
  | cons x xs ih =>
    have hrest := ih (fun y hy => hf y (by simp [hy])) (fun y hy => hg y (by simp [hy]))
    have hx := hf x (by simp)
    by_cases hp : p x = true
    · have hgx := hg x (by simp) hp
      simp only [List.filter_cons, hp, if_true, List.map_cons, List.sum_cons, List.length_cons]
      omega
    · simp only [List.filter_cons, hp, Bool.false_eq_true, if_false, List.map_cons,
        List.sum_cons, List.length_cons]
      omega

/-- The sum of the remaining attempts of what waits. -/
def remaining (q : InMemoryJobQueue) : Nat := (q.pending.map (budgetLeft q)).sum

variable (w outcome) in
/-- A round leaves as many attempts fewer as it had jobs listed. -/
theorem Drainable.remaining_nextRound (h : Drainable q) :
    remaining (WorkerDrain.nextRound w outcome q) + q.pending.length ≤ remaining q := by
  have hpending : (WorkerDrain.nextRound w outcome q).pending =
      q.pending.filter (again w outcome q) := by simp [afterRound]
  rw [remaining, remaining, hpending]
  refine sum_filter_add_length_le _ _ _ _ ?_ ?_
  · intro id hmem
    obtain ⟨job, hjob, -, hlt⟩ := h.stored id hmem
    simp only [budgetLeft, hjob]
    omega
  · intro id hmem _
    obtain ⟨job, hjob, -, hlt⟩ := h.stored id hmem
    simp only [budgetLeft, nextRound_jobs hmem hjob, hjob, tried_attempts, tried_maxAttempts]
    omega

/-- Each listed job has one attempt more. -/
theorem attemptsOf_nextRound (h : Drainable q) {id : JobId} (hmem : id ∈ q.pending) :
    attemptsOf (nextRound w outcome q) id = attemptsOf q id + 1 := by
  obtain ⟨job, hjob, -⟩ := h.stored id hmem
  simp [attemptsOf, nextRound_jobs hmem hjob, hjob]

variable (w outcome) in
/-- A job that dies in a round is dead once more, and no other is. -/
theorem count_dead_nextRound (h : Drainable q) {id : JobId} {job : Job} (hmem : id ∈ q.pending)
    (hjob : q.jobs id = some job) :
    (nextRound w outcome q).dead.count id =
      q.dead.count id + if (tried w outcome job).status = .failed then 1 else 0 := by
  simp only [afterRound, List.count_append]
  by_cases hs : (tried w outcome job).status = .failed
  · have hdies : id ∈ q.pending.filter (dies w outcome q) :=
      List.mem_filter.2 ⟨hmem, by simp [dies, hjob, hs]⟩
    rw [List.count_eq_one_of_mem (h.nodup.filter _) hdies, if_pos hs]
  · have hlives : id ∉ q.pending.filter (dies w outcome q) := by
      simp [List.mem_filter, dies, hjob, hs]
    rw [List.count_eq_zero_of_not_mem hlives, if_neg hs]

/-- What a round and the rounds behind it drain is drained. -/
theorem Drained.of_nextRound {runs rest : List JobRun} (hq : Drainable q) (hne : q.pending ≠ [])
    (hkeys : runs.map key = q.pending.map fun id => (id, attemptsOf q id + 1))
    (h : Drained w outcome (nextRound w outcome q) q' rest) :
    Drained w outcome q q' (runs ++ rest) := by
  -- What becomes of a job whose attempt in this round ends it
  have hover : ∀ id ∈ q.pending, again w outcome q id = false →
      q'.jobs id = (nextRound w outcome q).jobs id ∧
        q'.dead.count id = (nextRound w outcome q).dead.count id := by
    intro id hmem hagain
    exact h.others id (by simp [mem_nextRound, hagain])
  -- A job still pending ends as the later rounds say, the others as this one does
  have hended : ∀ id ∈ q.pending, ∃ job after, q.jobs id = some job ∧
      q'.jobs id = some after ∧ EndedAs w outcome job after ∧
      q'.dead.count id = q.dead.count id + if after.status = .failed then 1 else 0 := by
    intro id hmem
    obtain ⟨job, hjob, hid, hlt⟩ := hq.stored id hmem
    have hdead := count_dead_nextRound w outcome hq hmem hjob
    obtain ⟨hstatus, -, error, hfail⟩ | ⟨hstatus, hends⟩ :=
      tried_cases w outcome hlt
    · have hnext : id ∈ (nextRound w outcome q).pending :=
        mem_nextRound.2 ⟨hmem, by simp [again, hjob, hstatus]⟩
      obtain ⟨job', after, hjob', hafter, hends, hcount⟩ := h.ended id hnext
      obtain rfl : tried w outcome job = job' :=
        Option.some.inj ((nextRound_jobs hmem hjob).symm.trans hjob')
      refine ⟨job, after, hjob, hafter, hends.retry hfail, ?_⟩
      rw [hcount, hdead]
      simp [hstatus]
    · obtain ⟨hafter, hcount⟩ := hover id hmem (by simp [again, hjob, hstatus])
      refine ⟨job, tried w outcome job, hjob, ?_, hends, hcount.trans hdead⟩
      exact hafter.trans (nextRound_jobs hmem hjob)
  refine { empty := h.empty, ended := hended, others := ?_, order := ?_ }
  · intro id hmem
    obtain ⟨hjobs, hcount⟩ := h.others id (by simp [mem_nextRound, hmem])
    have hlives : id ∉ q.pending.filter (dies w outcome q) := by simp [hmem]
    refine ⟨hjobs.trans (nextRound_other hmem), hcount.trans ?_⟩
    simp only [afterRound, List.count_append, List.count_eq_zero_of_not_mem hlives, Nat.add_zero]
  · intro rounds hrounds
    -- Every pending job is tried at least once
    have hlater : ∀ id ∈ q.pending, attemptsOf q id < attemptsOf q' id := by
      intro id hmem
      obtain ⟨job, after, hjob, hafter, hends, -⟩ := hended id hmem
      simpa [attemptsOf, hjob, hafter] using hends.later
    -- The attempts go round by round, each in the order of the queue
    cases rounds with
    | zero =>
      obtain ⟨id, hmem⟩ := List.exists_mem_of_ne_nil _ hne
      have hle := hrounds id hmem
      have hlt := hlater id hmem
      omega
    | succ rounds =>
      have hrest := h.order rounds fun id hnext => by
        have hmem := (mem_nextRound.1 hnext).1
        have hle := hrounds id hmem
        rw [attemptsOf_nextRound hq hmem]
        omega
      rw [List.map_append, hkeys, hrest, List.range_succ_eq_map, List.flatMap_cons,
        List.flatMap_map]
      congr 1
      · -- the first round is of everybody
        rw [List.filter_eq_self.2 (by simpa using hlater)]
      · refine List.flatMap_congr fun k _ => ?_
        have hpending : (nextRound w outcome q).pending =
            q.pending.filter (again w outcome q) := by simp [afterRound]
        have hfilter : (nextRound w outcome q).pending.filter (fun id =>
            attemptsOf (nextRound w outcome q) id + k < attemptsOf q' id) =
            q.pending.filter fun id => attemptsOf q id + (k + 1) < attemptsOf q' id := by
          rw [hpending, List.filter_filter]
          refine List.filter_congr fun id hmem => ?_
          rw [attemptsOf_nextRound hq hmem]
          cases hagain : again w outcome q id with
          | true => simp [Nat.add_assoc, Nat.add_comm 1 k]
          | false =>
            -- It is over after this round, and in none of the later ones
            have hlast : attemptsOf q' id = attemptsOf q id + 1 := by
              rw [← attemptsOf_nextRound hq hmem, attemptsOf, attemptsOf,
                (hover id hmem hagain).1]
            simp [hlast]
        rw [hfilter]
        refine List.map_congr_left fun id hmem => ?_
        rw [attemptsOf_nextRound hq (List.mem_of_mem_filter hmem)]
        simp [Nat.add_assoc, Nat.add_comm 1 k]

/-- A drain with budget enough ends everything that waits. -/
theorem drain_drained (m : Nat) (h : Drainable q) (hm : remaining q ≤ m) :
    ∃ runs q', w.drain outcome m q = (.ok runs, q') ∧ Drained w outcome q q' runs := by
  induction m using Nat.strong_induction_on generalizing q with
  | _ m ih =>
    by_cases hp : q.pending = []
    · refine ⟨[], q, drain_nil hp m, ?_⟩
      exact { empty := hp, ended := by simp [hp], others := by simp, order := by simp [hp] }
    · have hpos : 0 < q.pending.length := List.length_pos_iff.2 hp
      have hless := h.remaining_nextRound w outcome
      obtain ⟨m', rfl⟩ : ∃ m', m = q.pending.length + m' := ⟨m - q.pending.length, by omega⟩
      obtain ⟨rest, q', hdrain, hdrained⟩ :=
        ih m' (by omega) (h.nextRound w outcome) (by omega)
      have hround : q.pending = q.pending ++ [] := by simp
      obtain ⟨runs, hkeys, hruns⟩ := drain_round hround h.nodup
        (fun id hmem => (h.stored id hmem).imp fun _ hjob => ⟨hjob.1, hjob.2.1⟩) hdrain
      exact ⟨runs ++ rest, q', hruns, hdrained.of_nextRound h hp hkeys⟩

end Drain

/-! ## The queue and its workers -/

/-- A queue in a conserved workshop is drainable. -/
theorem drainable_of_conserved {s : Workshop} (h : Conserved s) : Drainable s.queue where
  nodup := by
    rw [List.nodup_iff_count_le_one]
    intro id
    by_cases hmem : id ∈ s.queue.pending
    · obtain ⟨job, -, -, -, -, -, hcount, -⟩ := (h.inPlace id).of_pending hmem
      exact hcount.le
    · rw [List.count_eq_zero_of_not_mem hmem]
      exact Nat.zero_le 1
  stored id hmem := by
    obtain ⟨job, hjob, hid, -, -, hlt, -⟩ := (h.inPlace id).of_pending hmem
    exact ⟨job, hjob, hid, hlt⟩

/-- A handler is run no more often than the budget allows. -/
theorem handled_le_of_inPlace {s : Workshop} {id : JobId} {job : Job} (h : InPlace s id)
    (hjob : s.queue.jobs id = some job) : s.handled id ≤ job.maxAttempts := by
  simp only [InPlace, hjob] at h
  exact h.2.1.trans h.2.2.1

end NexaAssist.Spec.WorkerDrain
