import NexaAssist.Spec.QueueEquivalence
import NexaAssist.Spec.WorkerDrain

/-!
# A worker drains either queue alike

Over Redis a worker takes, runs and passes back the same jobs in the same order as over the queue
in the process, and leaves nothing behind in the processing list.
-/

namespace NexaAssist.Jobs

open NexaAssist PyJson

variable {W : Type} (C : JobCodec W) (w : JobWorker) (outcome : JobId → Nat → RunOutcome)

/-- `run_once`, over Redis. `outcome` says how each attempt at each job ends. -/
def JobWorker.runOnceRedis : Prog W (Option JobRun) := do
  match ← RedisJobQueue.dequeue C with
  | none => return none
  | some job =>
    let settlement := w.attempt (outcome job.id job.attempts) job
    let recorded ← settlement.tell C job
    return some (settlement.record job recorded)

/-- `drain`, over Redis. -/
def JobWorker.drainRedis : Nat → Prog W (List JobRun)
  | 0 => return []
  | maxJobs + 1 => do
    match ← w.runOnceRedis C outcome with
    | none => return []
    | some run =>
      let runs ← drainRedis maxJobs
      return run :: runs

end NexaAssist.Jobs

namespace NexaAssist.Spec.RedisDrain

open NexaAssist PyJson Jobs QueueEquivalence WorkerDrain

section Alike

variable {W : Type} {C : JobCodec W} (lossless : ∀ job, ∃ w, C.encode job = .ok w ∧
  C.decode w = some job) {q : InMemoryJobQueue} {s : RedisServer W} (h : SameQueue C q s)
  (w : JobWorker) (outcome : JobId → Nat → RunOutcome)
include lossless h

/-- `tell` passes a job back alike on both queues, and leaves them the same. -/
theorem tell_same (job : Job) (settlement : Settlement) :
    ((settlement.tell C job).runOn s).1 = (settlement.tellMemory q job).1 ∧
      SameQueue C (settlement.tellMemory q job).2 ((settlement.tell C job).runOn s).2 := by
  cases settlement with
  | complete => exact complete_same lossless h job
  | fail error retryable => exact fail_same lossless h job error retryable

/-- `runOnceRedis` and `runOnceMemory` try the same job alike, and leave the queues the same. -/
theorem runOnce_same :
    ((w.runOnceRedis C outcome).runOn s).1 = (w.runOnceMemory outcome q).1 ∧
      SameQueue C (w.runOnceMemory outcome q).2 ((w.runOnceRedis C outcome).runOn s).2 := by
  obtain ⟨hanswer, hnext⟩ := dequeue_same lossless h
  unfold JobWorker.runOnceRedis JobWorker.runOnceMemory
  rw [Prog.runOn_bind]
  generalize (RedisJobQueue.dequeue C).runOn s = taken at hanswer hnext
  generalize q.dequeue = memory at hanswer hnext
  obtain ⟨answer, server⟩ := taken
  obtain ⟨answer', queue⟩ := memory
  obtain rfl : answer = answer' := hanswer
  cases answer with
  | error e => exact ⟨rfl, hnext⟩
  | ok taken =>
    cases taken with
    | none => exact ⟨rfl, hnext⟩
    | some job =>
      obtain ⟨htold, hlast⟩ :=
        tell_same lossless hnext job (w.attempt (outcome job.id job.attempts) job)
      simp only [Prog.runOn_bind]
      generalize ((w.attempt (outcome job.id job.attempts) job).tell C job).runOn server = told
        at htold hlast
      generalize (w.attempt (outcome job.id job.attempts) job).tellMemory queue job = kept
        at htold hlast
      obtain ⟨recorded, server⟩ := told
      obtain ⟨recorded', queue⟩ := kept
      obtain rfl : recorded = recorded' := htold
      cases recorded with
      | error e => exact ⟨rfl, hlast⟩
      | ok recorded => exact ⟨rfl, hlast⟩

/-- `drainRedis` and `drain` make the same runs, and leave the queues the same. -/
theorem drain_same (maxJobs : Nat) :
    ((w.drainRedis C outcome maxJobs).runOn s).1 = (w.drain outcome maxJobs q).1 ∧
      SameQueue C (w.drain outcome maxJobs q).2 ((w.drainRedis C outcome maxJobs).runOn s).2 := by
  induction maxJobs generalizing q s with
  | zero => exact ⟨rfl, h⟩
  | succ maxJobs ih =>
    obtain ⟨hanswer, hnext⟩ := runOnce_same lossless h w outcome
    unfold JobWorker.drainRedis JobWorker.drain
    rw [Prog.runOn_bind]
    generalize (w.runOnceRedis C outcome).runOn s = tried at hanswer hnext
    generalize w.runOnceMemory outcome q = memory at hanswer hnext
    obtain ⟨answer, server⟩ := tried
    obtain ⟨answer', queue⟩ := memory
    obtain rfl : answer = answer' := hanswer
    cases answer with
    | error e => exact ⟨rfl, hnext⟩
    | ok run =>
      cases run with
      | none => exact ⟨rfl, hnext⟩
      | some run =>
        obtain ⟨hruns, hlast⟩ := ih hnext
        simp only [Prog.runOn_bind]
        generalize (w.drainRedis C outcome maxJobs).runOn server = drained at hruns hlast
        generalize w.drain outcome maxJobs queue = left at hruns hlast
        obtain ⟨runs, server⟩ := drained
        obtain ⟨runs', queue⟩ := left
        obtain rfl : runs = runs' := hruns
        cases runs with
        | error e => exact ⟨rfl, hlast⟩
        | ok runs => exact ⟨rfl, hlast⟩

/-! ## The processing list -/

/-- `dequeue` finds nothing, or moves the id of a stored job to the processing list. -/
theorem dequeue_cases : (RedisJobQueue.dequeue C).runOn s = (.ok none, s) ∨
    ∃ job server, (RedisJobQueue.dequeue C).runOn s = (.ok (some job), server) ∧
      server.lists .processing = s.lists .processing ++ [job.id] ∧
      q.dequeue.2.stored job.id = .ok job := by
  unfold RedisJobQueue.dequeue InMemoryJobQueue.dequeue
  rw [Prog.runOn_bind, Redis.runOn_lmove, RedisServer.lmove, h.pending]
  cases hpending : q.pending with
  | nil => exact .inl rfl
  | cons id rest =>
    obtain ⟨job, hjob⟩ := Option.ne_none_iff_exists'.mp (h.kept id (.inl (by simp [hpending])))
    obtain rfl : job.id = id := h.ident id job hjob
    obtain ⟨stored, hstored, hdecoded⟩ := h.present job.id job hjob
    obtain ⟨raw, -, hdump⟩ := modelDumpJson_same lossless job.running
    have hget : (RedisJobQueue.get C job.id).runOn
        ((s.setList .pending rest).rpush .processing job.id) =
          (.ok job, (s.setList .pending rest).rpush .processing job.id) := by
      have hsame : ((s.setList .pending rest).rpush .processing job.id).jobs = s.jobs := rfl
      simp only [RedisJobQueue.get, Prog.runOn_bind, Redis.runOn_get, hsame, hstored,
        RedisJobQueue.parse, hdecoded, Prog.runOn_pure]
    refine .inr ⟨job.running, ((s.setList .pending rest).rpush .processing job.id).set job.id raw,
      ?_, rfl, ?_⟩
    · simp only [Prog.runOn_bind, hget, RedisJobQueue.write, hdump, Redis.runOn_set,
        Prog.runOn_pure]
      rfl
    · simp [InMemoryJobQueue.takeNext, hjob, InMemoryJobQueue.stored, InMemoryJobQueue.store]

/-- `tell` takes a stored job off the processing list. -/
theorem tell_processing {job stored : Job} (hstored : q.stored job.id = .ok stored)
    (settlement : Settlement) : ((settlement.tell C job).runOn s).2.lists .processing =
      (s.lists .processing).erase job.id := by
  have hid : stored.id = job.id := stored_ident h hstored
  cases settlement with
  | complete =>
    obtain ⟨raw, -, hdump⟩ := modelDumpJson_same lossless stored.succeeded
    simp only [Settlement.tell, RedisJobQueue.complete, Prog.runOn_bind, get_same h, hstored,
      hdump, Redis.runOn_execute, Prog.runOn_pure]
    rw [← hid]
    rfl
  | fail error retryable =>
    simp only [Settlement.tell, RedisJobQueue.fail, Prog.runOn_bind, get_same h, hstored]
    split
    · obtain ⟨raw, -, hdump⟩ := modelDumpJson_same lossless (stored.dead error)
      simp only [Prog.runOn_bind, hdump, Redis.runOn_execute, Prog.runOn_pure]
      rw [← hid]
      rfl
    · obtain ⟨raw, -, hdump⟩ := modelDumpJson_same lossless (stored.retry error)
      simp only [Prog.runOn_bind, hdump, Redis.runOn_execute, Prog.runOn_pure]
      rw [← hid]
      rfl

/-- `runOnceRedis` leaves the processing list with the ids it had. -/
theorem runOnce_processing :
    (((w.runOnceRedis C outcome).runOn s).2.lists .processing).Perm (s.lists .processing) := by
  have hnext := (dequeue_same lossless h).2
  unfold JobWorker.runOnceRedis
  rw [Prog.runOn_bind]
  obtain hnone | ⟨job, server, hsome, hlisted, hstored⟩ := dequeue_cases lossless h
  · rw [hnone]
    exact .refl _
  · rw [hsome] at hnext ⊢
    have htold := tell_processing lossless hnext hstored
      (w.attempt (outcome job.id job.attempts) job)
    have hperm : ((s.lists .processing ++ [job.id]).erase job.id).Perm (s.lists .processing) := by
      have hcons := (List.perm_append_singleton job.id (s.lists .processing)).erase job.id
      rwa [List.erase_cons_head] at hcons
    rw [← hlisted, ← htold] at hperm
    simp only [Prog.runOn_bind]
    split
    · rename_i heq
      rw [heq] at hperm
      exact hperm
    · rename_i heq
      rw [heq] at hperm
      exact hperm

/-- A drain leaves the jobs that were being processed. -/
theorem drain_processing (maxJobs : Nat) :
    (((w.drainRedis C outcome maxJobs).runOn s).2.lists .processing).Perm
      (s.lists .processing) := by
  induction maxJobs generalizing q s with
  | zero => exact .refl _
  | succ maxJobs ih =>
    have hnext := (runOnce_same lossless h w outcome).2
    have hprocessing := runOnce_processing lossless h w outcome
    unfold JobWorker.drainRedis
    rw [Prog.runOn_bind]
    generalize (w.runOnceRedis C outcome).runOn s = tried at hnext hprocessing
    obtain ⟨_ | _ | run, server⟩ := tried
    · exact hprocessing
    · exact hprocessing
    · have hrest := (ih hnext).trans hprocessing
      simp only [Prog.runOn_bind]
      generalize (w.drainRedis C outcome maxJobs).runOn server = drained at hrest
      obtain ⟨_ | runs, server⟩ := drained
      · exact hrest
      · exact hrest

end Alike

/-! ## Draining -/

/-- A worker that has no handler. -/
def bareWorker : JobWorker where
  registry _ := none
  timeout := .ofString "60"
  printable _ := true

/-- The id of the queued job can be encoded. -/
theorem queuedId_wellFormed : wellFormed (.ofString "5f1c") = true := by decide

/-- One job is enqueued. -/
def oneEnqueued : List QueueCall :=
  [.enqueue ⟨.ofString "5f1c", queuedId_wellFormed⟩ (.ofString "ingest_document") (.dict []) 3]

end NexaAssist.Spec.RedisDrain
