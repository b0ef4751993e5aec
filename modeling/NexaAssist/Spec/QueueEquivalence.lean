import NexaAssist.Jobs.Codec
import NexaAssist.Jobs.Protocol

/-!
# The two queue backends answer alike

`SameQueue` relates an in-process queue to a server: the same pending and dead ids,
and behind every id a stored value that decodes to the job kept in memory. Every
call keeps it and is answered alike, whatever its arguments. The processing list,
which the in-process queue does not have, is not part of the relation: no answer
depends on it.
-/

namespace NexaAssist.Spec.QueueEquivalence

open NexaAssist PyJson Jobs

variable {W : Type} {C : JobCodec W}

/-! ## The simulation relation -/

/-- An in-process queue and a server that hold the same jobs. -/
structure SameQueue (C : JobCodec W) (q : InMemoryJobQueue) (s : RedisServer W) : Prop where
  pending : s.lists .pending = q.pending
  dead : s.lists .dead = q.dead
  absent : ∀ id, q.jobs id = none → s.jobs id = none
  present : ∀ id job, q.jobs id = some job → ∃ w, s.jobs id = some w ∧ C.decode w = some job
  ident : ∀ id job, q.jobs id = some job → job.id = id
  kept : ∀ id, id ∈ q.pending ∨ id ∈ q.dead → q.jobs id ≠ none

/-- Both backends start empty. -/
theorem sameQueue_init : SameQueue C memoryQueue.init (redisQueue C).init where
  pending := rfl
  dead := rfl
  absent _ _ := rfl
  present _ _ h := nomatch h
  ident _ _ h := nomatch h
  kept id h := by simp [memoryQueue, InMemoryJobQueue.empty] at h

/-- `SameQueue` is kept when the same job is stored on both sides under its own id. -/
theorem SameQueue.store {q : InMemoryJobQueue} {s : RedisServer W} (h : SameQueue C q s)
    {job : Job} {w : W} (hw : C.decode w = some job) :
    SameQueue C (q.store job.id job) (s.set job.id w) where
  pending := h.pending
  dead := h.dead
  absent id hid := by
    simp only [InMemoryJobQueue.store] at hid
    split at hid
    · exact nomatch hid
    · rename_i hne
      simp only [RedisServer.set, if_neg hne]
      exact h.absent id hid
  present id job' hid := by
    simp only [InMemoryJobQueue.store] at hid
    split at hid
    · rename_i heq
      simp only [Option.some.injEq] at hid
      exact ⟨w, by simp only [RedisServer.set, if_pos heq], hid ▸ hw⟩
    · rename_i hne
      simp only [RedisServer.set, if_neg hne]
      exact h.present id job' hid
  ident id job' hid := by
    simp only [InMemoryJobQueue.store] at hid
    split at hid
    · rename_i heq
      simp only [Option.some.injEq] at hid
      rw [← hid, heq]
    · exact h.ident id job' hid
  kept id hid := by
    simp only [InMemoryJobQueue.store]
    split
    · simp
    · exact h.kept id hid

/-- `SameQueue` is kept when the lists change alike and get no ids but of stored jobs. -/
theorem SameQueue.relist {q q' : InMemoryJobQueue} {s s' : RedisServer W}
    (h : SameQueue C q s) (hjobs : q'.jobs = q.jobs) (hjobs' : s'.jobs = s.jobs)
    (hpending : s'.lists .pending = q'.pending) (hdead : s'.lists .dead = q'.dead)
    (hkept : ∀ id, id ∈ q'.pending ∨ id ∈ q'.dead →
      (id ∈ q.pending ∨ id ∈ q.dead) ∨ q.jobs id ≠ none) : SameQueue C q' s' where
  pending := hpending
  dead := hdead
  absent := by rw [hjobs, hjobs']; exact h.absent
  present := by rw [hjobs, hjobs']; exact h.present
  ident := by rw [hjobs]; exact h.ident
  kept id hid := by
    rw [hjobs]
    exact (hkept id hid).elim (h.kept id) fun hne => hne

/-- `SameQueue` is kept by `lrem` from the processing list, which the queue in memory does not
    have. -/
theorem SameQueue.lrem {q : InMemoryJobQueue} {s : RedisServer W} (h : SameQueue C q s)
    (id : JobId) : SameQueue C q (s.lrem .processing id) :=
  h.relist rfl rfl h.pending h.dead fun _ hid => .inl hid

/-- Putting the id of a job that is kept at the back of `pending`. -/
theorem SameQueue.requeue {q : InMemoryJobQueue} {s : RedisServer W} (h : SameQueue C q s)
    {id : JobId} (hid : q.jobs id ≠ none) :
    SameQueue C { q with pending := q.pending ++ [id] } (s.rpush .pending id) := by
  refine h.relist rfl rfl ?_ h.dead fun i hi => ?_
  · show s.lists .pending ++ [id] = q.pending ++ [id]
    rw [h.pending]
  · by_cases heq : i = id
    · exact .inr (heq ▸ hid)
    · simp only [List.mem_append, List.mem_singleton, heq, or_false] at hi
      exact .inl hi

/-- Putting the id of a job that is kept at the end of `dead`. -/
theorem SameQueue.bury {q : InMemoryJobQueue} {s : RedisServer W} (h : SameQueue C q s)
    {id : JobId} (hid : q.jobs id ≠ none) :
    SameQueue C { q with dead := q.dead ++ [id] } (s.rpush .dead id) := by
  refine h.relist rfl rfl h.pending ?_ fun i hi => ?_
  · show s.lists .dead ++ [id] = q.dead ++ [id]
    rw [h.dead]
  · by_cases heq : i = id
    · exact .inr (heq ▸ hid)
    · simp only [List.mem_append, List.mem_singleton, heq, or_false] at hi
      exact .inl hi

/-! ## One call -/

section Calls

variable (lossless : ∀ job, ∃ w, C.encode job = .ok w ∧ C.decode w = some job)
  {q : InMemoryJobQueue} {s : RedisServer W} (h : SameQueue C q s)
include h

/-- `get` gives the job that the queue in memory has stored, or the same error. -/
theorem get_same (id : JobId) :
    (RedisJobQueue.get C id).runOn s = (q.stored id, s) := by
  unfold RedisJobQueue.get InMemoryJobQueue.stored
  rw [Prog.runOn_bind, Redis.runOn_get]
  cases hjob : q.jobs id with
  | none => simp only [h.absent id hjob, Prog.runOn_raise]
  | some job =>
    obtain ⟨w, hw, hdec⟩ := h.present id job hjob
    simp only [hw, RedisJobQueue.parse, hdec, Prog.runOn_pure]

/-- A job that is found is kept under its own id. -/
theorem stored_ident {id : JobId} {job : Job} (hjob : q.stored id = .ok job) : job.id = id := by
  unfold InMemoryJobQueue.stored at hjob
  split at hjob
  · rename_i job' hq
    simp only [Except.ok.injEq] at hjob
    exact hjob ▸ h.ident id job' hq
  · exact nomatch hjob

include lossless

omit h in
/-- Writing a job always succeeds, and what is written is that job. -/
theorem modelDumpJson_same (job : Job) : ∃ w, C.decode w = some job ∧
    ∀ s : RedisServer W, (RedisJobQueue.modelDumpJson C job).runOn s = (.ok w, s) := by
  obtain ⟨w, hw, hdec⟩ := lossless job
  refine ⟨w, hdec, fun s => ?_⟩
  rw [RedisJobQueue.modelDumpJson, hw]
  rfl

/-- `enqueue` gives the same on both queues and leaves them the same. -/
theorem enqueue_same (id : JobId) (name : PyStr) (payload : PyValue) (maxAttempts : Int) :
    ((RedisJobQueue.enqueue C id name payload maxAttempts).runOn s).1 =
      (q.enqueue id name payload maxAttempts).1 ∧
    SameQueue C (q.enqueue id name payload maxAttempts).2
      ((RedisJobQueue.enqueue C id name payload maxAttempts).runOn s).2 := by
  unfold RedisJobQueue.enqueue InMemoryJobQueue.enqueue
  cases hjob : buildJob id name payload maxAttempts with
  | error e => exact ⟨rfl, h⟩
  | ok job =>
    obtain ⟨w, hdec, hdump⟩ := modelDumpJson_same lossless job
    simp only [Prog.runOn_bind, Prog.runOn_lift, Except.mapError, hdump, Redis.runOn_execute,
      Prog.runOn_pure, true_and]
    exact (h.store hdec).requeue (by simp [InMemoryJobQueue.store])

/-- `dequeue` gives the same on both queues and leaves them the same. -/
theorem dequeue_same :
    ((RedisJobQueue.dequeue C).runOn s).1 = q.dequeue.1 ∧
      SameQueue C q.dequeue.2 ((RedisJobQueue.dequeue C).runOn s).2 := by
  unfold RedisJobQueue.dequeue InMemoryJobQueue.dequeue
  rw [Prog.runOn_bind, Redis.runOn_lmove, RedisServer.lmove, h.pending]
  cases hq : q.pending with
  | nil =>
    refine ⟨rfl, h.relist rfl rfl ?_ h.dead fun id hid => .inl ?_⟩
    · show s.lists .pending = []
      rw [h.pending, hq]
    · exact .inr (hid.resolve_left (by simp [InMemoryJobQueue.takeNext]))
  | cons id rest =>
    -- The id was kept, so neither backend finds its job missing.
    obtain ⟨job, hjob⟩ := Option.ne_none_iff_exists'.mp (h.kept id (.inl (by simp [hq])))
    obtain rfl : job.id = id := h.ident id job hjob
    obtain ⟨w, hdec, hdump⟩ := modelDumpJson_same lossless job.running
    have hmoved : SameQueue C { q with pending := rest }
        ((s.setList .pending rest).rpush .processing job.id) := by
      refine h.relist rfl rfl rfl h.dead fun i hi => .inl (hi.imp (fun hi => ?_) fun hi => hi)
      rw [hq]
      exact List.mem_cons_of_mem _ hi
    have hstored : InMemoryJobQueue.stored { q with pending := rest } job.id = .ok job := by
      simp only [InMemoryJobQueue.stored, hjob]
    simp only [InMemoryJobQueue.takeNext, hjob, Prog.runOn_bind, get_same hmoved, hstored,
      RedisJobQueue.write, hdump, Redis.runOn_set, Prog.runOn_pure, true_and]
    exact hmoved.store hdec

/-- `complete` gives the same on both queues and leaves them the same. -/
theorem complete_same (job : Job) :
    ((RedisJobQueue.complete C job).runOn s).1 = (q.complete job).1 ∧
      SameQueue C (q.complete job).2 ((RedisJobQueue.complete C job).runOn s).2 := by
  unfold RedisJobQueue.complete InMemoryJobQueue.complete
  rw [Prog.runOn_bind, get_same h]
  cases hstored : q.stored job.id with
  | error e => exact ⟨rfl, h⟩
  | ok stored =>
    obtain ⟨w, hdec, hdump⟩ := modelDumpJson_same lossless stored.succeeded
    have hid : stored.id = job.id := stored_ident h hstored
    simp only [Prog.runOn_bind, hdump, Redis.runOn_execute, Prog.runOn_pure, true_and]
    rw [← hid]
    exact (h.store hdec).lrem _

/-- `fail` gives the same on both queues and leaves them the same. -/
theorem fail_same (job : Job) (error : PyStr) (retryable : Bool) :
    ((RedisJobQueue.fail C job error retryable).runOn s).1 = (q.fail job error retryable).1 ∧
      SameQueue C (q.fail job error retryable).2
        ((RedisJobQueue.fail C job error retryable).runOn s).2 := by
  unfold RedisJobQueue.fail InMemoryJobQueue.fail
  rw [Prog.runOn_bind, get_same h]
  cases hstored : q.stored job.id with
  | error e => exact ⟨rfl, h⟩
  | ok stored =>
    have hid : stored.id = job.id := stored_ident h hstored
    by_cases hdead : (stored.exhausted || !retryable) = true
    · obtain ⟨w, hdec, hdump⟩ := modelDumpJson_same lossless (stored.dead error)
      simp only [if_pos hdead, Prog.runOn_bind, hdump, Redis.runOn_execute, Prog.runOn_pure,
        true_and]
      rw [← hid]
      exact ((h.store hdec).lrem _).bury (by simp [InMemoryJobQueue.store])
    · obtain ⟨w, hdec, hdump⟩ := modelDumpJson_same lossless (stored.retry error)
      simp only [if_neg hdead, Prog.runOn_bind, hdump, Redis.runOn_execute, Prog.runOn_pure,
        true_and]
      rw [← hid]
      exact ((h.store hdec).lrem _).requeue (by simp [InMemoryJobQueue.store])

omit lossless

/-- `parseAll` gives the jobs that the queue in memory has under the ids. -/
theorem parseAll_same (ids : List JobId) (hids : ∀ id ∈ ids, q.jobs id ≠ none) :
    (RedisJobQueue.parseAll C (ids.zip (ids.map s.jobs))).runOn s = (q.deadJobs ids, s) := by
  induction ids with
  | nil => rfl
  | cons id ids ih =>
    have ih := ih fun i hi => hids i (List.mem_cons_of_mem _ hi)
    obtain ⟨job, hjob⟩ := Option.ne_none_iff_exists'.mp (hids id (by simp))
    obtain ⟨w, hw, hdec⟩ := h.present id job hjob
    simp only [List.map_cons, List.zip_cons_cons, hw, RedisJobQueue.parseAll,
      RedisJobQueue.parse, hdec, InMemoryJobQueue.deadJobs, hjob, Prog.runOn_bind,
      Prog.runOn_pure, ih]
    cases q.deadJobs ids <;> rfl

/-- `deadLettered` gives the same on both queues and writes nothing. -/
theorem deadLettered_same :
    (RedisJobQueue.deadLettered C).runOn s = (q.deadLettered.1, s) := by
  unfold RedisJobQueue.deadLettered InMemoryJobQueue.deadLettered
  rw [Prog.runOn_bind, Redis.runOn_lrange, h.dead]
  have hkept : ∀ id ∈ q.dead, q.jobs id ≠ none := fun id hid => h.kept id (.inr hid)
  cases hdead : q.dead with
  | nil => rfl
  | cons id ids =>
    rw [hdead] at hkept
    simp only [List.isEmpty_cons, Bool.false_eq_true, if_false, Prog.runOn_bind,
      Redis.runOn_mget, parseAll_same h _ hkept]

include lossless

/-- `call` answers alike on both queues, and keeps `SameQueue`. -/
theorem call_same (c : QueueCall) :
    (RedisJobQueue.call C s c).1 = (q.call c).1 ∧
      SameQueue C (q.call c).2 (RedisJobQueue.call C s c).2 := by
  cases c with
  | enqueue newId name payload maxAttempts =>
    obtain ⟨hout, hnext⟩ := enqueue_same lossless h newId name payload maxAttempts
    exact ⟨congrArg QueueAnswer.job hout, hnext⟩
  | dequeue =>
    obtain ⟨hout, hnext⟩ := dequeue_same lossless h
    exact ⟨congrArg QueueAnswer.taken hout, hnext⟩
  | complete job =>
    obtain ⟨hout, hnext⟩ := complete_same lossless h job
    exact ⟨congrArg QueueAnswer.job hout, hnext⟩
  | fail job error retryable =>
    obtain ⟨hout, hnext⟩ := fail_same lossless h job error retryable
    exact ⟨congrArg QueueAnswer.job hout, hnext⟩
  | get jobId =>
    simp only [RedisJobQueue.call, InMemoryJobQueue.call, get_same h]
    exact ⟨rfl, h⟩
  | depth =>
    refine ⟨?_, h⟩
    show QueueAnswer.count (.ok (s.lists .pending).length) = .count (.ok q.pending.length)
    rw [h.pending]
  | deadLettered =>
    simp only [RedisJobQueue.call, InMemoryJobQueue.call, deadLettered_same h]
    exact ⟨rfl, h⟩

end Calls

/-! ## Every sequence of calls -/

/-- Over a codec that gives back every job it is given, the two backends answer
    every sequence of calls with the same jobs, lists, counts and errors. -/
theorem redisQueue_outputs_eq (C : JobCodec W)
    (lossless : ∀ job, ∃ w, C.encode job = .ok w ∧ C.decode w = some job)
    (calls : List QueueCall) : (redisQueue C).outputs calls = memoryQueue.outputs calls :=
  Object.outputsFrom_eq_of_simulation (fun s q => SameQueue C q s)
    (fun _ _ c h => call_same lossless h c) sameQueue_init calls

/-- A codec that keeps the job beside the JSON pydantic writes for it. -/
def keepingCodec : JobCodec (JsonDoc × Job) where
  encode job :=
    match job.modelDumpJson with
    | .ok doc => .ok (doc, job)
    | .error _ => .ok (.null, job)
  decode w := some w.2

private def scriptId : JobId := ⟨.ofString "5f1c", by decide⟩

private def scriptJob : Job where
  id := scriptId
  name := .ofString "ingest_document"
  payload := [(field "path", .str (.ofString "guide.md"))]
  status := .pending
  attempts := 0
  maxAttempts := 2
  error := none
  budget := by decide

/-- A script that leaves the protocol: the job is completed while it is pending, then
    failed for good twice, and an id nobody drew is asked for. -/
theorem redisQueue_outputs_eq_script :
    (redisQueue keepingCodec).outputs
        [.enqueue scriptId scriptJob.name (.dict scriptJob.payload) 2, .complete scriptJob, .dequeue,
          .fail scriptJob (.ofString "down") false, .fail scriptJob (.ofString "down") false,
          .get ⟨.ofString "none", by decide⟩, .depth, .deadLettered] =
      memoryQueue.outputs
        [.enqueue scriptId scriptJob.name (.dict scriptJob.payload) 2, .complete scriptJob, .dequeue,
          .fail scriptJob (.ofString "down") false, .fail scriptJob (.ofString "down") false,
          .get ⟨.ofString "none", by decide⟩, .depth, .deadLettered] :=
  redisQueue_outputs_eq keepingCodec
    (fun job => by
      unfold keepingCodec
      cases hdoc : job.modelDumpJson with
      | ok doc => exact ⟨(doc, job), by simp only [hdoc], rfl⟩
      | error e => exact ⟨(.null, job), by simp only [hdoc], rfl⟩) _

end NexaAssist.Spec.QueueEquivalence
