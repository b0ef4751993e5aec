import NexaAssist.Jobs.Boundary
import NexaAssist.Spec.PayloadFidelity
import NexaAssist.Tools.Boundary

/-!
# What escapes the boundaries

A call of a tool ends in a result, and an attempt at a job in a record of it, unless a
validator raises something that is no `ValidationError`. A tool that raises `TimeoutError`
itself is reported to have passed the deadline.
-/

namespace NexaAssist.Spec.Boundaries

open NexaAssist PyJson Jobs

/-! ## Tools -/

section Tools

variable {executor : TimedExecutor} {name : PyStr} {params : Option (List (PyStr × PyValue))}

/-- The call of the tool was accepted, and its deadline passed. -/
def Late (executor : TimedExecutor) (name : PyStr) (params : Option (List (PyStr × PyValue))) :
    Prop :=
  ∃ tool call, executor.registry name = some tool ∧
    tool.call (params.getD []) = .accepted call ∧ call.elapsed = true

/-- There is a result, and where it reports a timeout there was one. -/
def ToolContained (executor : TimedExecutor) (name : PyStr)
    (params : Option (List (PyStr × PyValue))) : Prop :=
  ∃ result, executor.execute name params = .ok result ∧
    (result.outcome = .timeout → Late executor name params)

/-- Validation raises nothing but a `ValidationError`, and running the tool no `TimeoutError`
    while there is time left. -/
def ToolBehaves (executor : TimedExecutor) (name : PyStr)
    (params : Option (List (PyStr × PyValue))) : Prop :=
  ∀ tool, executor.registry name = some tool →
    (∀ exception, tool.call (params.getD []) ≠ .raised exception) ∧
    tool.call (params.getD []) ≠ .accepted (.raised .timeoutError false)

/-- A timeout is reported where the deadline passed, or where the tool raised its own. -/
theorem run_timeout_iff (tool : PyStr) (call : TimedCall PyValue) :
    (executor.run tool call).outcome = .timeout ↔
      call = .expired ∨ ∃ late, call = .raised .timeoutError late := by
  cases call with
  | returned output => simp [TimedExecutor.run, ToolResult.success]
  | expired => simp [TimedExecutor.run, ToolResult.failure]
  | raised exception late =>
    cases exception <;> simp [TimedExecutor.run, ToolResult.failure]

/-- A call is late just if it runs out of its time. -/
theorem late_iff {tool : TimedTool} {call : TimedCall PyValue}
    (htool : executor.registry name = some tool)
    (hcall : tool.call (params.getD []) = .accepted call) :
    Late executor name params ↔ call.elapsed = true := by
  constructor
  · rintro ⟨other, call', hother, hcall', helapsed⟩
    obtain rfl := Option.some.inj (htool.symm.trans hother)
    obtain rfl := Validation.accepted.inj (hcall.symm.trans hcall')
    exact helapsed
  · exact fun helapsed => ⟨tool, call, htool, hcall, helapsed⟩

/-- `ToolContained` is told of what validation and the tool do. -/
theorem toolContained_iff :
    ToolContained executor name params ↔ ToolBehaves executor name params := by
  unfold ToolContained TimedExecutor.execute ToolBehaves
  cases htool : executor.registry name with
  | none => simp [ToolResult.failure]
  | some tool =>
    simp only [Option.some.injEq, forall_eq']
    cases hcall : tool.call (params.getD []) with
    | raised exception => simp
    | invalid issues => simp [ToolResult.failure]
    | accepted call =>
      simp only [Except.ok.injEq, exists_eq_left', run_timeout_iff, late_iff htool hcall]
      cases call with
      | returned output => simp
      | expired => simp [TimedCall.elapsed]
      | raised exception late => cases late <;> simp [TimedCall.elapsed]

end Tools

/-! ## Jobs -/

/-- A queue, with what is stored in it, in the words of the protocol. -/
structure Backend (σ : Type) where
  queue : Object σ QueueCall QueueAnswer
  stored : σ → JobId → Option Job
  waiting : σ → List JobId
  dead : σ → List JobId

def memoryBackend : Backend InMemoryJobQueue where
  queue := memoryQueue
  stored := InMemoryJobQueue.jobs
  waiting := InMemoryJobQueue.pending
  dead := InMemoryJobQueue.dead

def redisBackend : Backend (RedisServer JsonDoc) where
  queue := redisQueue pydanticCodec
  stored := PayloadFidelity.readJob
  waiting s := s.lists .pending
  dead s := s.lists .dead

namespace Backend

variable {σ : Type} (B : Backend σ)

/-- The job of a run is completed, waits again, or is dead, as the run says. -/
def Recorded (s : σ) (run : JobRun) : Prop :=
  ∃ after, B.stored s run.jobId = some after ∧ after.attempts = run.attempts ∧
    match run.outcome with
    | .succeeded => after.status = .succeeded
    | .retrying => after.status = .pending ∧ run.jobId ∈ B.waiting s
    | .deadLettered => after.status = .failed ∧ run.jobId ∈ B.dead s

/-- The job that is taken next. -/
def Next (s : σ) (job : Job) : Prop := (B.queue.call s .dequeue).1 = .taken (.ok (some job))

/-- There is nothing to do, or there is a record of the job taken, and the job is as it says. -/
def Contained (w : TimedWorker) (others : List QueueCall) (s : σ) : Prop :=
  ((B.queue.call s .dequeue).1 = .taken (.ok none) ∧ (w.runOnce B.queue others s).1 = .idle) ∨
    ∃ job run, B.Next s job ∧ (w.runOnce B.queue others s).1 = .ran run ∧
      run.jobId = job.id ∧ B.Recorded (w.runOnce B.queue others s).2 run

/-- After any calls. -/
def after (calls : List QueueCall) : σ := B.queue.stateFrom B.queue.init calls

end Backend

/-- Validating the payload of a job raises something that is no `ValidationError`. -/
def Breaks (w : TimedWorker) (job : Job) : Prop :=
  ∃ handler exception, w.registry job.name = some handler ∧
    handler.call job.payload = .raised exception

/-- `dispatch` lets an exception out just if the handler raises it. -/
theorem dispatch_error_iff {w : TimedWorker} {job : Job} {exception : PyException} :
    w.dispatch job = .error exception ↔ ∃ handler, w.registry job.name = some handler ∧
      handler.call job.payload = .raised exception := by
  unfold TimedWorker.dispatch
  cases w.registry job.name with
  | none => simp
  | some handler =>
    simp only [Option.some.injEq, exists_eq_left']
    cases handler.call job.payload <;> simp

/-- The text that would be recorded for a job's attempt can be written. -/
def Legible (w : TimedWorker) (job : Job) : Prop :=
  match w.registry job.name with
  | none => wellFormed (reprStr w.printable job.name) = true
  | some handler =>
    match handler.call job.payload with
    | .invalid issues => wellFormed (Jobs.describeValidation issues) = true
    | .accepted (.raised (.declared message _) _) => wellFormed message = true
    | .accepted .expired | .accepted (.raised .timeoutError _) => wellFormed w.timeout = true
    | _ => True

/-- Two texts together can be encoded just if both can. -/
theorem wellFormed_append (a b : PyStr) :
    wellFormed (a ++ b) = true ↔ wellFormed a = true ∧ wellFormed b = true := by
  simp [wellFormed, List.all_append]

/-- A job is legible just if the error that `dispatch` gives for it can be encoded. -/
theorem legible_iff {w : TimedWorker} {job : Job} : Legible w job ↔
    ∀ error retryable, w.dispatch job = .ok (.fail error retryable) → wellFormed error = true := by
  have hsuffix : wellFormed (PyStr.ofString "s.") = true := by decide
  have hdot : wellFormed (PyStr.ofString ".") = true := by decide
  have htimeout : wellFormed (PyStr.ofString "The job did not finish within ") = true := by decide
  have hmissing : wellFormed (PyStr.ofString "No handler is registered for ") = true := by decide
  have hunexpected : wellFormed unexpectedError = true := by decide
  unfold Legible TimedWorker.dispatch
  cases w.registry job.name with
  | none => simp [wellFormed_append, hmissing, hdot]
  | some handler =>
    simp only
    cases handler.call job.payload with
    | invalid issues => simp
    | raised exception => simp
    | accepted call =>
      cases call with
      | returned output => simp [TimedWorker.run]
      | expired => simp [TimedWorker.run, wellFormed_append, htimeout, hsuffix]
      | raised exception late =>
        cases exception <;>
          simp [TimedWorker.run, wellFormed_append, htimeout, hsuffix, hunexpected]

/-- A job breaks the worker just if `dispatch` raises. -/
theorem breaks_iff {w : TimedWorker} {job : Job} :
    Breaks w job ↔ ∃ exception, w.dispatch job = .error exception := by
  constructor
  · rintro ⟨handler, exception, hhandler, hcall⟩
    exact ⟨exception, dispatch_error_iff.mpr ⟨handler, hhandler, hcall⟩⟩
  · rintro ⟨exception, hdispatch⟩
    obtain ⟨handler, hhandler, hcall⟩ := dispatch_error_iff.mp hdispatch
    exact ⟨handler, exception, hhandler, hcall⟩

/-- A settlement is recorded under the id of the job. -/
theorem record_jobId (job recorded : Job) (settlement : Settlement) :
    (settlement.record job recorded).jobId = job.id := by
  cases settlement <;> rfl

/-! ## One run of the worker -/

section RunOnce

variable {σ : Type} {B : Backend σ} {w : TimedWorker} {others : List QueueCall} {s : σ}
  {job : Job}

/-- A backend has at most one `Next` job. -/
theorem next_unique {other : Job} (hnext : B.Next s job) (hother : B.Next s other) :
    job = other :=
  Option.some.inj (Except.ok.inj (QueueAnswer.taken.inj (hnext.symm.trans hother)))

/-- Where `dequeue` finds nothing, `runOnce` is idle. -/
theorem runOnce_idle (hnone : (B.queue.call s .dequeue).1 = .taken (.ok none)) :
    (w.runOnce B.queue others s).1 = .idle := by
  unfold TimedWorker.runOnce
  split <;> simp_all

/-- A run of a job that is taken: the others call, and the queue is told of the end. -/
theorem runOnce_taken (hnext : B.Next s job) : w.runOnce B.queue others s =
    (match w.dispatch job with
    | .error exception =>
      (.escaped exception, B.queue.stateFrom (B.queue.call s .dequeue).2 others)
    | .ok settlement =>
      match B.queue.call (B.queue.stateFrom (B.queue.call s .dequeue).2 others)
          (settlement.queueCall job) with
      | (.job (.ok recorded), s) => (.ran (settlement.record job recorded), s)
      | (.job (.error e), s) => (.queue e, s)
      | (_, s) => (.idle, s)) := by
  have hdequeue : B.queue.call s .dequeue =
      (.taken (.ok (some job)), (B.queue.call s .dequeue).2) := Prod.ext hnext rfl
  unfold TimedWorker.runOnce
  rewrite [hdequeue]
  rfl

/-- Where a job is taken, its attempt is contained if nothing escaped and it is recorded. -/
theorem contained_iff_settled (hnext : B.Next s job) : B.Contained w others s ↔
    ∃ settlement, w.dispatch job = .ok settlement ∧
      ∃ recorded, (B.queue.call (B.queue.stateFrom (B.queue.call s .dequeue).2 others)
          (settlement.queueCall job)).1 = .job (.ok recorded) ∧
        B.Recorded (B.queue.call (B.queue.stateFrom (B.queue.call s .dequeue).2 others)
          (settlement.queueCall job)).2 (settlement.record job recorded) := by
  have hother : ∀ other, B.Next s other ↔ other = job := fun other =>
    ⟨fun hother => (next_unique hnext hother).symm, fun hother => hother ▸ hnext⟩
  have hsome : (B.queue.call s .dequeue).1 ≠ .taken (.ok none) := by
    rw [Backend.Next] at hnext
    simp [hnext]
  simp only [Backend.Contained, hother, runOnce_taken hnext, hsome, false_and,
    false_or]
  generalize B.queue.stateFrom (B.queue.call s .dequeue).2 others = s₁
  cases w.dispatch job with
  | error exception => simp
  | ok settlement =>
    simp only [Except.ok.injEq, exists_eq_left']
    cases hanswer : B.queue.call s₁ (settlement.queueCall job) with
    | mk answer s₂ =>
      cases answer with
      | job result => cases result <;> simp [record_jobId]
      | _ => simp

end RunOnce

/-! ## What a queue is relied on for -/

/-- What the worker relies on. `writable` says which errors can be recorded. -/
structure Backend.Lawful {σ : Type} (B : Backend σ) (writable : PyStr → Prop) (inv : σ → Prop) :
    Prop where
  init : inv B.queue.init
  call : ∀ s c, inv s → inv (B.queue.call s c).2
  keeps : ∀ s c id, inv s → B.stored s id ≠ none → B.stored (B.queue.call s c).2 id ≠ none
  dequeue : ∀ s, inv s → (B.queue.call s .dequeue).1 = .taken (.ok none) ∨
    ∃ job, B.Next s job ∧ B.stored (B.queue.call s .dequeue).2 job.id ≠ none
  complete : ∀ s job, inv s → B.stored s job.id ≠ none →
    ∃ recorded, (B.queue.call s (.complete job)).1 = .job (.ok recorded) ∧
      B.Recorded (B.queue.call s (.complete job)).2 (Settlement.complete.record job recorded)
  fail : ∀ s job error retryable, inv s → B.stored s job.id ≠ none → writable error →
    ∃ recorded, (B.queue.call s (.fail job error retryable)).1 = .job (.ok recorded) ∧
      B.Recorded (B.queue.call s (.fail job error retryable)).2
        ((Settlement.fail error retryable).record job recorded)
  refuses : ∀ s job error retryable, inv s → B.stored s job.id ≠ none → ¬writable error →
    ∃ e, (B.queue.call s (.fail job error retryable)).1 = .job (.error e)

namespace Backend.Lawful

variable {σ : Type} {B : Backend σ} {writable : PyStr → Prop} {inv : σ → Prop}
  (h : B.Lawful writable inv)
include h

/-- The invariant of a backend is kept by any calls. -/
theorem inv_stateFrom (calls : List QueueCall) {s : σ} (hs : inv s) :
    inv (B.queue.stateFrom s calls) :=
  Object.stateFrom_invariant inv calls (fun s c _ hs => h.call s c hs) hs

/-- A stored job stays stored under any calls. -/
theorem stored_stateFrom (calls : List QueueCall) {s : σ} {id : JobId} (hs : inv s)
    (hstored : B.stored s id ≠ none) : B.stored (B.queue.stateFrom s calls) id ≠ none :=
  (Object.stateFrom_invariant (fun s => inv s ∧ B.stored s id ≠ none) calls
    (fun s c _ hs => ⟨h.call s c hs.1, h.keeps s c id hs.1 hs.2⟩) ⟨hs, hstored⟩).2

/-- Once a job is taken, its attempt is contained if its settlement can be recorded. -/
theorem contained_of_next {w : TimedWorker} {others : List QueueCall} {s : σ} {job : Job}
    (hs : inv s) (hnext : B.Next s job)
    (hstored : B.stored (B.queue.call s .dequeue).2 job.id ≠ none) :
    B.Contained w others s ↔ ¬Breaks w job ∧
      ∀ error retryable, w.dispatch job = .ok (.fail error retryable) → writable error := by
  have hinv := h.inv_stateFrom others (h.call s .dequeue hs)
  have hkept := h.stored_stateFrom others (h.call s .dequeue hs) hstored
  rw [contained_iff_settled hnext]
  generalize B.queue.stateFrom (B.queue.call s .dequeue).2 others = s₁ at hinv hkept ⊢
  cases hdispatch : w.dispatch job with
  | error exception =>
    have hbreaks : Breaks w job := breaks_iff.mpr ⟨exception, hdispatch⟩
    simp [hbreaks]
  | ok settlement =>
    have hbreaks : ¬Breaks w job := by
      rw [breaks_iff]
      rintro ⟨exception, hraised⟩
      exact nomatch hdispatch.symm.trans hraised
    simp only [hbreaks, Except.ok.injEq, exists_eq_left', not_false_eq_true, true_and]
    cases settlement with
    | complete =>
      have hcomplete := h.complete s₁ job hinv hkept
      simpa [Settlement.queueCall] using hcomplete
    | fail error retryable =>
      simp only [Settlement.fail.injEq, and_imp, Settlement.queueCall]
      constructor
      · rintro ⟨recorded, hanswer, _⟩ _ _ rfl rfl
        by_contra hwritable
        obtain ⟨e, hrefused⟩ := h.refuses s₁ job error retryable hinv hkept hwritable
        exact nomatch hrefused.symm.trans hanswer
      · intro hwritable
        exact h.fail s₁ job error retryable hinv hkept (hwritable error retryable rfl rfl)

/-- `Contained` is told of the next job alone. -/
theorem contained_iff (w : TimedWorker) (calls others : List QueueCall) :
    B.Contained w others (B.after calls) ↔ ∀ job, B.Next (B.after calls) job →
      ¬Breaks w job ∧
        ∀ error retryable, w.dispatch job = .ok (.fail error retryable) → writable error := by
  have hs : inv (B.after calls) := h.inv_stateFrom calls h.init
  obtain hnone | ⟨job, hnext, hstored⟩ := h.dequeue _ hs
  · constructor
    · intro _ job hnext
      exact nomatch hnone.symm.trans hnext
    · intro _
      exact .inl ⟨hnone, runOnce_idle hnone⟩
  · rw [h.contained_of_next hs hnext hstored]
    constructor
    · intro hok other hother
      obtain rfl := next_unique hnext hother
      exact hok
    · exact fun hall => hall job hnext

end Backend.Lawful

/-! ## The in-process queue -/

section Memory

/-- Every job is kept under its own id. -/
def OwnIds (q : InMemoryJobQueue) : Prop := ∀ id job, q.jobs id = some job → job.id = id

/-- A job that is stored under its id is stored under its id. -/
theorem OwnIds.store {q : InMemoryJobQueue} (h : OwnIds q) (job : Job) :
    OwnIds (q.store job.id job) := by
  intro id other hother
  simp only [InMemoryJobQueue.store] at hother
  split at hother
  · rename_i hid
    rw [← Option.some.inj hother, hid]
  · exact h id other hother

/-- Storing a job forgets no other. -/
theorem store_jobs_ne_none {q : InMemoryJobQueue} {id other : JobId} {job : Job}
    (h : q.jobs other ≠ none) : (q.store id job).jobs other ≠ none := by
  simp only [InMemoryJobQueue.store]
  split
  · exact Option.some_ne_none job
  · exact h

/-- A step of the queue keeps every job under its own id, and forgets none. -/
def Keeps (q q' : InMemoryJobQueue) : Prop :=
  (OwnIds q → OwnIds q') ∧ ∀ id, q.jobs id ≠ none → q'.jobs id ≠ none

/-- A queue keeps its own jobs. -/
theorem Keeps.refl (q : InMemoryJobQueue) : Keeps q q := ⟨fun h => h, fun _ h => h⟩

/-- `store` keeps every job, but may write one anew. -/
theorem Keeps.store {q q' : InMemoryJobQueue} {id : JobId} (job : Job)
    (hid : OwnIds q → job.id = id) (hjobs : q'.jobs = (q.store id job).jobs) : Keeps q q' := by
  constructor
  · intro h
    have hstore := h.store job
    rw [hid h] at hstore
    intro i other hother
    exact hstore i other (hjobs ▸ hother)
  · intro i hi
    rw [hjobs]
    exact store_jobs_ne_none hi

/-- `takeNext` keeps the jobs, and what it gives is running. -/
theorem takeNext_spec (q : InMemoryJobQueue) (ids : List JobId) :
    Keeps q (q.takeNext ids).2 ∧ ((q.takeNext ids).1 = none ∨
      ∃ id job, q.jobs id = some job ∧ (q.takeNext ids).1 = some job.running ∧
        (q.takeNext ids).2.jobs id = some job.running) := by
  induction ids with
  | nil => exact ⟨.refl q, .inl rfl⟩
  | cons id rest ih =>
    unfold InMemoryJobQueue.takeNext
    cases hjob : q.jobs id with
    | none => exact ih
    | some job =>
      refine ⟨.store job.running (fun h => h id job hjob) rfl, .inr ⟨id, job, hjob, rfl, ?_⟩⟩
      simp [InMemoryJobQueue.store]

/-- Every call keeps the jobs of a queue in memory. -/
theorem memory_call_keeps (q : InMemoryJobQueue) (c : QueueCall) : Keeps q (q.call c).2 := by
  cases c with
  | enqueue newId name payload maxAttempts =>
    simp only [InMemoryJobQueue.call, InMemoryJobQueue.enqueue, Prod.map_snd, id_eq]
    cases buildJob newId name payload maxAttempts with
    | error e => exact .refl q
    | ok job => exact .store job (fun _ => rfl) rfl
  | dequeue => exact (takeNext_spec q q.pending).1
  | complete job =>
    simp only [InMemoryJobQueue.call, InMemoryJobQueue.complete, InMemoryJobQueue.stored,
      Prod.map_snd, id_eq]
    cases hstored : q.jobs job.id with
    | none => exact .refl q
    | some stored =>
      exact .store stored.succeeded (fun h => h job.id stored hstored) rfl
  | fail job error retryable =>
    simp only [InMemoryJobQueue.call, InMemoryJobQueue.fail, InMemoryJobQueue.stored,
      Prod.map_snd, id_eq]
    cases hstored : q.jobs job.id with
    | none => exact .refl q
    | some stored =>
      have hid : OwnIds q → stored.id = job.id := fun h => h job.id stored hstored
      simp only
      split
      · exact .store (stored.dead error) hid rfl
      · exact .store (stored.retry error) hid rfl
  | get | depth | deadLettered => exact .refl q

/-- The queue in memory is a lawful backend. -/
theorem memory_lawful : memoryBackend.Lawful (fun _ => True) OwnIds where
  init := fun _ _ h => nomatch h
  call q c := (memory_call_keeps q c).1
  keeps q c id _ := (memory_call_keeps q c).2 id
  dequeue q hq := by
    obtain ⟨-, hnone | ⟨id, job, hjob, htaken, hstored⟩⟩ := takeNext_spec q q.pending
    · left
      show QueueAnswer.taken (.ok (q.takeNext q.pending).1) = _
      rw [hnone]
    · right
      refine ⟨job.running, ?_, ?_⟩
      · show QueueAnswer.taken (.ok (q.takeNext q.pending).1) = _
        rw [htaken]
      · show (q.takeNext q.pending).2.jobs job.id ≠ none
        rw [hq id job hjob, hstored]
        exact Option.some_ne_none _
  complete q job _ hstored := by
    obtain ⟨stored, hjob⟩ := Option.ne_none_iff_exists'.mp hstored
    have hcall : q.call (.complete job) =
        (.job (.ok stored.succeeded), q.store job.id stored.succeeded) := by
      have hjob' : q.jobs job.id = some stored := hjob
      simp [InMemoryJobQueue.call, InMemoryJobQueue.complete, InMemoryJobQueue.stored, hjob']
    refine ⟨stored.succeeded, congrArg Prod.fst hcall, ?_⟩
    rw [show memoryBackend.queue.call q (.complete job) = _ from hcall]
    exact ⟨stored.succeeded, if_pos rfl, rfl, rfl⟩
  fail q job error retryable _ hstored _ := by
    obtain ⟨stored, hjob⟩ := Option.ne_none_iff_exists'.mp hstored
    have hjob' : q.jobs job.id = some stored := hjob
    by_cases hdead : (stored.exhausted || !retryable) = true
    · have hcall : q.call (.fail job error retryable) = (.job (.ok (stored.dead error)),
          { q.store job.id (stored.dead error) with dead := q.dead ++ [job.id] }) := by
        simp [InMemoryJobQueue.call, InMemoryJobQueue.fail, InMemoryJobQueue.stored, hjob', hdead]
      refine ⟨stored.dead error, congrArg Prod.fst hcall, ?_⟩
      rw [show memoryBackend.queue.call q (.fail job error retryable) = _ from hcall]
      exact ⟨stored.dead error, if_pos rfl, rfl, rfl, List.mem_append_right _ List.mem_cons_self⟩
    · have hcall : q.call (.fail job error retryable) = (.job (.ok (stored.retry error)),
          { q.store job.id (stored.retry error) with pending := q.pending ++ [job.id] }) := by
        simp [InMemoryJobQueue.call, InMemoryJobQueue.fail, InMemoryJobQueue.stored, hjob', hdead]
      refine ⟨stored.retry error, congrArg Prod.fst hcall, ?_⟩
      rw [show memoryBackend.queue.call q (.fail job error retryable) = _ from hcall]
      exact ⟨stored.retry error, if_pos rfl, rfl, rfl, List.mem_append_right _ List.mem_cons_self⟩
  refuses _ _ _ _ _ _ h := absurd trivial h

end Memory

/-! ## The Redis queue -/

section Redis

open RedisJobQueue PayloadFidelity

variable {s s' : RedisServer JsonDoc}

/-- Every job that can be read is stored under its own id and can be stored again, and one is
    behind every id that waits. -/
structure Sound (s : RedisServer JsonDoc) : Prop where
  restorable : ∀ id job, readJob s id = some job → job.id = id ∧ job.Restorable
  pending : ∀ id ∈ s.lists .pending, readJob s id ≠ none

/-- What pydantic has written it reads back as a job with the same id. -/
theorem readJob_set_self (s : RedisServer JsonDoc) (id : JobId) {job : Job} {doc : JsonDoc}
    (h : pydanticCodec.encode job = .ok doc) :
    ∃ read, readJob (s.set id doc) id = some read ∧ read.id = job.id ∧ read.Restorable := by
  obtain ⟨read, hdec, hid, hread⟩ := pydanticCodec_restorable h
  exact ⟨read, by rw [readJob_set, if_pos rfl, hdec], hid, hread⟩

/-- Where a stored job was written, its id can be read, and the others are as they were. -/
theorem readJob_ne_none_of_set {job : Job} {doc : JsonDoc}
    (h : pydanticCodec.encode job = .ok doc) (hs' : s'.jobs = (s.set job.id doc).jobs) {id : JobId}
    (hid : id = job.id ∨ readJob s id ≠ none) : readJob s' id ≠ none := by
  rw [readJob_congr hs']
  by_cases heq : id = job.id
  · obtain ⟨read, hread, -⟩ := readJob_set_self s job.id h
    rw [heq, hread]
    exact Option.some_ne_none read
  · rw [readJob_set, if_neg heq]
    exact hid.resolve_left heq

/-- A job that can be read can be read after other writes. -/
theorem wrote_keeps {newId : Option JobId} (hw : Wrote s newId s') {id : JobId}
    (h : readJob s id ≠ none) : readJob s' id ≠ none := by
  cases hw with
  | nothing hs' => rwa [readJob_congr hs']
  | built job doc hdoc _ hs' => exact readJob_ne_none_of_set hdoc hs' (.inr h)
  | updated _ _ job doc hdoc _ _ _ hs' => exact readJob_ne_none_of_set hdoc hs' (.inr h)

/-- What is written is restorable, if all else was. -/
private theorem restorable_set {job : Job} {doc : JsonDoc}
    (h : ∀ id job, readJob s id = some job → job.id = id ∧ job.Restorable)
    (hdoc : pydanticCodec.encode job = .ok doc) (hs' : s'.jobs = (s.set job.id doc).jobs) :
    ∀ id job, readJob s' id = some job → job.id = id ∧ job.Restorable := by
  intro id other hother
  rw [readJob_congr hs', readJob_set] at hother
  split at hother
  · rename_i heq
    obtain ⟨read, hdec, hid, hread⟩ := pydanticCodec_restorable hdoc
    obtain rfl := Option.some.inj (hdec.symm.trans hother)
    exact ⟨hid.trans heq.symm, hread⟩
  · exact h id other hother

/-- If all stored jobs are restorable, they are after any writes that `Wrote` describes. -/
theorem wrote_restorable {newId : Option JobId} (hw : Wrote s newId s')
    (h : ∀ id job, readJob s id = some job → job.id = id ∧ job.Restorable) :
    ∀ id job, readJob s' id = some job → job.id = id ∧ job.Restorable := by
  cases hw with
  | nothing hs' => rwa [readJob_congr hs']
  | built job doc hdoc _ hs' => exact restorable_set h hdoc hs'
  | updated _ _ job doc hdoc _ _ _ hs' => exact restorable_set h hdoc hs'

/-! What the calls that write come to. -/

/-- `complete` on a job that can be read, in one piece. -/
theorem runOn_complete {job stored : Job} (h : readJob s job.id = some stored) :
    (complete pydanticCodec job).runOn s =
      match pydanticCodec.encode stored.succeeded with
      | .error e => (.error (.encode e), s)
      | .ok doc => (.ok stored.succeeded, (s.set stored.id doc).lrem .processing stored.id) := by
  unfold complete
  simp only [Prog.runOn_bind, PayloadFidelity.runOn_get, h, runOn_modelDumpJson, Except.mapError]
  cases pydanticCodec.encode stored.succeeded <;> rfl

/-- `fail` on one that is not tried again, in one piece. -/
theorem runOn_fail_dead {job stored : Job} (error : PyStr) {retryable : Bool}
    (h : readJob s job.id = some stored) (hdead : (stored.exhausted || !retryable) = true) :
    (RedisJobQueue.fail pydanticCodec job error retryable).runOn s =
      match pydanticCodec.encode (stored.dead error) with
      | .error e => (.error (.encode e), s)
      | .ok doc => (.ok (stored.dead error),
          ((s.set stored.id doc).lrem .processing stored.id).rpush .dead stored.id) := by
  unfold RedisJobQueue.fail
  simp only [Prog.runOn_bind, PayloadFidelity.runOn_get, h, if_pos hdead, runOn_modelDumpJson,
    Except.mapError]
  cases pydanticCodec.encode (stored.dead error) <;> rfl

/-- `fail` on one that is, in one piece. -/
theorem runOn_fail_retry {job stored : Job} (error : PyStr) {retryable : Bool}
    (h : readJob s job.id = some stored) (hdead : ¬(stored.exhausted || !retryable) = true) :
    (RedisJobQueue.fail pydanticCodec job error retryable).runOn s =
      match pydanticCodec.encode (stored.retry error) with
      | .error e => (.error (.encode e), s)
      | .ok doc => (.ok (stored.retry error),
          ((s.set stored.id doc).lrem .processing stored.id).rpush .pending stored.id) := by
  unfold RedisJobQueue.fail
  simp only [Prog.runOn_bind, PayloadFidelity.runOn_get, h, if_neg hdead, runOn_modelDumpJson,
    Except.mapError]
  cases pydanticCodec.encode (stored.retry error) <;> rfl

/-- `dequeue` where the first id has a job, in one piece. -/
theorem runOn_dequeue {id : JobId} {rest : List JobId} {stored : Job}
    (hpending : s.lists .pending = id :: rest) (h : readJob s id = some stored) :
    (dequeue pydanticCodec).runOn s =
      let moved := (s.setList .pending rest).rpush .processing id
      match pydanticCodec.encode stored.running with
      | .error e => (.error (.encode e), moved)
      | .ok doc => (.ok (some stored.running), moved.set stored.id doc) := by
  have hread : readJob ((s.setList .pending rest).rpush .processing id) id = some stored := h
  unfold dequeue
  rw [Prog.runOn_bind, Redis.runOn_lmove]
  simp only [RedisServer.lmove, hpending, Prog.runOn_bind, PayloadFidelity.runOn_get, hread, write,
    runOn_modelDumpJson, Except.mapError]
  cases pydanticCodec.encode stored.running <;> rfl

/-! No call makes an id wait that has no job. -/

/-- `dequeue` lists no new id. -/
theorem listed_dequeue (hs : Sound s) :
    ∀ id ∈ ((dequeue pydanticCodec).runOn s).2.lists .pending, id ∈ s.lists .pending := by
  intro id hid
  cases hpending : s.lists .pending with
  | nil =>
    unfold dequeue at hid
    rw [Prog.runOn_bind, Redis.runOn_lmove, RedisServer.lmove, hpending] at hid
    exact hpending ▸ hid
  | cons next rest =>
    obtain ⟨stored, hstored⟩ := Option.ne_none_iff_exists'.mp
      (hs.pending next (hpending ▸ List.mem_cons_self))
    rw [runOn_dequeue hpending hstored] at hid
    cases hdoc : pydanticCodec.encode stored.running <;> rw [hdoc] at hid <;>
      exact List.mem_cons_of_mem next hid

/-- `complete` leaves the list of pending ids. -/
theorem listed_complete (job : Job) :
    ((complete pydanticCodec job).runOn s).2.lists .pending = s.lists .pending := by
  cases hstored : readJob s job.id with
  | none =>
    unfold complete
    simp only [Prog.runOn_bind, PayloadFidelity.runOn_get, hstored]
  | some stored =>
    rw [runOn_complete hstored]
    cases pydanticCodec.encode stored.succeeded <;> rfl

/-- `fail` lists an id again only if its job can be read. -/
theorem listed_fail (hs : Sound s) (job : Job) (error : PyStr) (retryable : Bool) :
    ∀ id ∈ ((RedisJobQueue.fail pydanticCodec job error retryable).runOn s).2.lists .pending,
      id ∈ s.lists .pending ∨ readJob s id ≠ none := by
  intro id hid
  cases hstored : readJob s job.id with
  | none =>
    unfold RedisJobQueue.fail at hid
    simp only [Prog.runOn_bind, PayloadFidelity.runOn_get, hstored] at hid
    exact .inl hid
  | some stored =>
    by_cases hdead : (stored.exhausted || !retryable) = true
    · rw [runOn_fail_dead error hstored hdead] at hid
      cases hdoc : pydanticCodec.encode (stored.dead error) <;> rw [hdoc] at hid <;> exact .inl hid
    · rw [runOn_fail_retry error hstored hdead] at hid
      cases hdoc : pydanticCodec.encode (stored.retry error) with
      | error e => rw [hdoc] at hid; exact .inl hid
      | ok doc =>
        rw [hdoc] at hid
        rcases List.mem_append.mp hid with hid | hid
        · exact .inl hid
        · right
          have hown := (hs.restorable job.id stored hstored).1
          rw [List.mem_singleton.mp hid, hown, hstored]
          exact Option.some_ne_none stored

/-- `Sound` is kept by every call. -/
theorem sound_call (hs : Sound s) (c : QueueCall) :
    Sound (RedisJobQueue.call pydanticCodec s c).2 := by
  have hw := call_wrote s c
  refine ⟨wrote_restorable hw hs.restorable, ?_⟩
  -- An id that waits already has a job, and keeps it.
  have hlisted : ∀ id, id ∈ s.lists .pending ∨ readJob s id ≠ none →
      readJob (RedisJobQueue.call pydanticCodec s c).2 id ≠ none :=
    fun id hid => wrote_keeps hw (hid.elim (hs.pending id) fun h => h)
  cases c with
  | enqueue newId name payload maxAttempts =>
    intro id hid
    simp only [RedisJobQueue.call, Prod.map_snd, id_eq] at hid hlisted ⊢
    unfold enqueue at hid hlisted ⊢
    simp only [Prog.runOn_bind, Prog.runOn_lift] at hid hlisted ⊢
    cases hjob : buildJob newId name payload maxAttempts with
    | error e =>
      rw [hjob] at hid hlisted
      exact hlisted id (.inl hid)
    | ok job =>
      simp only [hjob, Except.mapError, runOn_modelDumpJson] at hid hlisted ⊢
      cases hdoc : pydanticCodec.encode job with
      | error e =>
        rw [hdoc] at hid hlisted
        exact hlisted id (.inl hid)
      | ok doc =>
        rw [hdoc] at hid hlisted
        rcases List.mem_append.mp hid with hid | hid
        · exact hlisted id (.inl hid)
        · exact readJob_ne_none_of_set hdoc rfl (.inl (List.mem_singleton.mp hid))
  | dequeue => exact fun id hid => hlisted id (.inl (listed_dequeue hs id hid))
  | complete job =>
    intro id hid
    have hsame : ((complete pydanticCodec job).runOn s).2.lists .pending = s.lists .pending :=
      listed_complete job
    exact hlisted id (.inl (hsame ▸ hid))
  | fail job error retryable =>
    exact fun id hid => hlisted id (listed_fail hs job error retryable id hid)
  | get id =>
    intro i hi
    simp only [RedisJobQueue.call, PayloadFidelity.runOn_get, Prod.map_snd, id_eq] at hi
    exact hlisted i (.inl hi)
  | depth => exact fun id hid => hlisted id (.inl hid)
  | deadLettered =>
    intro id hid
    have hsame : ((deadLettered pydanticCodec).runOn s).2 = s := deadLettered_server s
    exact hlisted id (.inl (hsame ▸ hid))

/-- The queue in Redis is a lawful backend. -/
theorem redis_lawful : redisBackend.Lawful (fun error => wellFormed error = true) Sound where
  init := ⟨(fun _ _ h => nomatch h), fun _ h => nomatch h⟩
  call s c hs := sound_call hs c
  keeps s c id _ h := wrote_keeps (call_wrote s c) h
  dequeue s hs := by
    cases hpending : s.lists .pending with
    | nil =>
      left
      show (((dequeue pydanticCodec).runOn s).map QueueAnswer.taken id).1 = _
      unfold dequeue
      rw [Prog.runOn_bind, Redis.runOn_lmove, RedisServer.lmove, hpending]
      rfl
    | cons next rest =>
      obtain ⟨stored, hstored⟩ := Option.ne_none_iff_exists'.mp
        (hs.pending next (hpending ▸ List.mem_cons_self))
      have hrestorable := (hs.restorable next stored hstored).2
      obtain ⟨doc, hdoc, -⟩ := hrestorable.running.restores
      have hrun := runOn_dequeue hpending hstored
      rw [hdoc] at hrun
      refine .inr ⟨stored.running, ?_, ?_⟩
      · show (((dequeue pydanticCodec).runOn s).map QueueAnswer.taken id).1 = _
        rw [hrun]
        rfl
      · show readJob ((dequeue pydanticCodec).runOn s).2 stored.id ≠ none
        rw [hrun]
        exact readJob_ne_none_of_set hdoc rfl (.inl rfl)
  complete s job hs hstored := by
    obtain ⟨stored, hread⟩ := Option.ne_none_iff_exists'.mp hstored
    obtain ⟨hid, hrestorable⟩ := hs.restorable job.id stored hread
    obtain ⟨doc, hdoc, hdec⟩ := hrestorable.succeeded.restores
    have hrun := runOn_complete hread
    rw [hdoc] at hrun
    refine ⟨stored.succeeded, ?_, ?_⟩
    · show (((complete pydanticCodec job).runOn s).map QueueAnswer.job id).1 = _
      rw [hrun]
      rfl
    · show redisBackend.Recorded ((complete pydanticCodec job).runOn s).2 _
      rw [hrun]
      refine ⟨stored.succeeded, ?_, rfl, rfl⟩
      show readJob (s.set stored.id doc) job.id = _
      rw [readJob_set, if_pos hid.symm, hdec]
  fail s job error retryable hs hstored hwritable := by
    obtain ⟨stored, hread⟩ := Option.ne_none_iff_exists'.mp hstored
    obtain ⟨hid, hrestorable⟩ := hs.restorable job.id stored hread
    by_cases hdead : (stored.exhausted || !retryable) = true
    · obtain ⟨doc, hdoc, hdec⟩ := (hrestorable.dead hwritable).restores
      have hrun := runOn_fail_dead error hread hdead
      rw [hdoc] at hrun
      refine ⟨stored.dead error, ?_, ?_⟩
      · show (((RedisJobQueue.fail pydanticCodec job error retryable).runOn s).map
          QueueAnswer.job id).1 = _
        rw [hrun]
        rfl
      · show redisBackend.Recorded
          ((RedisJobQueue.fail pydanticCodec job error retryable).runOn s).2 _
        rw [hrun]
        refine ⟨stored.dead error, ?_, rfl, rfl, ?_⟩
        · show readJob (s.set stored.id doc) job.id = _
          rw [readJob_set, if_pos hid.symm, hdec]
        · exact List.mem_append_right _ (hid ▸ List.mem_cons_self)
    · obtain ⟨doc, hdoc, hdec⟩ := (hrestorable.retry hwritable).restores
      have hrun := runOn_fail_retry error hread hdead
      rw [hdoc] at hrun
      refine ⟨stored.retry error, ?_, ?_⟩
      · show (((RedisJobQueue.fail pydanticCodec job error retryable).runOn s).map
          QueueAnswer.job id).1 = _
        rw [hrun]
        rfl
      · show redisBackend.Recorded
          ((RedisJobQueue.fail pydanticCodec job error retryable).runOn s).2 _
        rw [hrun]
        refine ⟨stored.retry error, ?_, rfl, rfl, ?_⟩
        · show readJob (s.set stored.id doc) job.id = _
          rw [readJob_set, if_pos hid.symm, hdec]
        · exact List.mem_append_right _ (hid ▸ List.mem_cons_self)
  refuses s job error retryable _ hstored hwritable := by
    obtain ⟨stored, hread⟩ := Option.ne_none_iff_exists'.mp hstored
    have hrefused : ∀ settled : Job, settled.error = some error →
        ∃ e, pydanticCodec.encode settled = .error e := by
      intro settled herror
      cases hdoc : pydanticCodec.encode settled with
      | error e => exact ⟨e, rfl⟩
      | ok doc => exact absurd ((pydanticCodec_texts hdoc).2 error herror) hwritable
    show ∃ e, (((RedisJobQueue.fail pydanticCodec job error retryable).runOn s).map
      QueueAnswer.job id).1 = .job (.error e)
    by_cases hdead : (stored.exhausted || !retryable) = true
    · obtain ⟨e, he⟩ := hrefused (stored.dead error) rfl
      rw [runOn_fail_dead error hread hdead, he]
      exact ⟨_, rfl⟩
    · obtain ⟨e, he⟩ := hrefused (stored.retry error) rfl
      rw [runOn_fail_retry error hread hdead, he]
      exact ⟨_, rfl⟩

end Redis

/-! ## Both boundaries -/

/-- A call of a tool is contained just where the tool behaves. A run of the worker is, over the
    in-process queue, where validating the payload does not break, and over Redis where the
    text to be recorded can be written as well. -/
theorem boundaries_iff (executor : TimedExecutor) (name : PyStr)
    (params : Option (List (PyStr × PyValue))) (w : TimedWorker) (calls others : List QueueCall) :
    (ToolContained executor name params ↔ ToolBehaves executor name params) ∧
    (memoryBackend.Contained w others (memoryBackend.after calls) ↔
      ∀ job, memoryBackend.Next (memoryBackend.after calls) job → ¬Breaks w job) ∧
    (redisBackend.Contained w others (redisBackend.after calls) ↔
      ∀ job, redisBackend.Next (redisBackend.after calls) job → ¬Breaks w job ∧ Legible w job) := by
  refine ⟨toolContained_iff, ?_, ?_⟩
  · simpa using memory_lawful.contained_iff w calls others
  · simpa only [legible_iff] using redis_lawful.contained_iff w calls others

section Escapes

/-- Validating for it raises. -/
def raisingTool : TimedTool where
  name := lit "lookup"
  call _ := .raised (.other "KeyError")

/-- It raises `TimeoutError` at once, having read from a socket. -/
def impatientTool : TimedTool where
  name := lit "lookup"
  call _ := .accepted (.raised .timeoutError false)

def executorOf (tool : TimedTool) : TimedExecutor where
  registry _ := some tool
  timeout := lit "10"
  printable _ := true

def raisingWorker : TimedWorker where
  registry _ := some { call := fun _ => .raised (.other "KeyError") }
  timeout := lit "60"
  printable _ := true

def reportId : JobId := ⟨lit "5f1c", by decide⟩

/-- What the worker meets: one job that waits. -/
def oneReport : List QueueCall := [.enqueue reportId (lit "report") (.dict []) 3]

def report : Job where
  id := reportId
  name := lit "report"
  payload := []
  status := .pending
  attempts := 0
  maxAttempts := 3
  error := none
  budget := Nat.succ_pos 2

/-- `buildJob` builds the job of the example. -/
theorem buildJob_report : buildJob reportId (lit "report") (.dict []) 3 = .ok report := by
  have hname : validateJobName (lit "report") = .ok (lit "report") := by decide +kernel
  rw [buildJob, dif_neg (by decide), hname]
  rfl

/-- One `enqueue` stores and lists it. -/
theorem after_oneReport : memoryBackend.after oneReport =
    { InMemoryJobQueue.empty.store reportId report with pending := [reportId] } := by
  show ((InMemoryJobQueue.empty.enqueue reportId (lit "report") (.dict []) 3).map
    QueueAnswer.job id).2 = _
  rw [InMemoryJobQueue.enqueue, buildJob_report]
  rfl

/-- Where a validator raises, the exception leaves the executor, and it leaves the worker with the
    job running and on no list. A tool that raised at once is said to have been too late. -/
theorem validator_escapes :
    (executorOf raisingTool).execute (lit "lookup") none = .error (.other "KeyError") ∧
    ¬ToolContained (executorOf impatientTool) (lit "lookup") none ∧
    (∃ after, raisingWorker.runOnce memoryQueue [] (memoryBackend.after oneReport) =
        (.escaped (.other "KeyError"), after) ∧
      (after.jobs reportId).map Job.status = some .running ∧
      after.pending = [] ∧ after.dead = []) ∧
    ¬memoryBackend.Contained raisingWorker [] (memoryBackend.after oneReport) := by
  have hnext : memoryBackend.Next (memoryBackend.after oneReport) report.running := by
    rw [after_oneReport]
    simp [Backend.Next, memoryBackend, memoryQueue, InMemoryJobQueue.call,
      InMemoryJobQueue.dequeue, InMemoryJobQueue.takeNext, InMemoryJobQueue.store]
  refine ⟨rfl, ?_, ?_, ?_⟩
  · rw [toolContained_iff]
    exact fun hbehaves => (hbehaves impatientTool rfl).2 rfl
  · rw [after_oneReport]
    exact ⟨_, rfl, rfl, rfl, rfl⟩
  · rw [memory_lawful.contained_iff]
    exact fun hall => (hall _ hnext).1 ⟨_, _, rfl, rfl⟩

end Escapes

end NexaAssist.Spec.Boundaries
