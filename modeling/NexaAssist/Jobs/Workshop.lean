import NexaAssist.ForStd.Machine
import NexaAssist.Jobs.Memory
import NexaAssist.Jobs.Worker

/-!
# Workers on the in-process queue

A handler ends differently from one attempt to the next, so how it ends is an argument
here. A worker that runs alone is a function; any number of them, and whoever enqueues,
interleave where a handler is awaited. Between taking a job and passing it back a worker
holds it.
-/

namespace NexaAssist.Jobs

open NexaAssist PyJson

/-! ## One attempt -/

/-- Whether an attempt at a job gets as far as running its handler. -/
def JobWorker.runs (w : JobWorker) (job : Job) : Bool :=
  match w.registry job.name with
  | none => false
  | some handler => (handler.modelValidate job.payload).toOption.isSome

/-- A worker whose handlers all end so. -/
def JobWorker.ending (w : JobWorker) (outcome : RunOutcome) : JobWorker :=
  { w with registry := fun name =>
      (w.registry name).map fun handler => { handler with run := fun _ => outcome } }

/-- What an attempt at a job comes to, if its handler ends so. -/
def JobWorker.attempt (w : JobWorker) (outcome : RunOutcome) (job : Job) : Settlement :=
  (w.ending outcome).dispatch job

/-- Pass a job back to the queue in the process. -/
def Settlement.tellMemory (q : InMemoryJobQueue) (job : Job) :
    Settlement → Except QueueError Job × InMemoryJobQueue
  | .complete => q.complete job
  | .fail error retryable => q.fail job error retryable

/-! ## A worker alone -/

section Alone

variable (w : JobWorker) (outcome : JobId → Nat → RunOutcome)

/-- `run_once`. `outcome` says how each attempt at each job ends. -/
def JobWorker.runOnceMemory (q : InMemoryJobQueue) :
    Except QueueError (Option JobRun) × InMemoryJobQueue :=
  match q.dequeue with
  | (.error e, q) => (.error e, q)
  | (.ok none, q) => (.ok none, q)
  | (.ok (some job), q) =>
    let settlement := w.attempt (outcome job.id job.attempts) job
    match settlement.tellMemory q job with
    | (.error e, q) => (.error e, q)
    | (.ok recorded, q) => (.ok (some (settlement.record job recorded)), q)

/-- `drain`. -/
def JobWorker.drain : Nat → InMemoryJobQueue → Except QueueError (List JobRun) × InMemoryJobQueue
  | 0, q => (.ok [], q)
  | maxJobs + 1, q =>
    match w.runOnceMemory outcome q with
    | (.error e, q) => (.error e, q)
    | (.ok none, q) => (.ok [], q)
    | (.ok (some run), q) =>
      match drain maxJobs q with
      | (.error e, q) => (.error e, q)
      | (.ok runs, q) => (.ok (run :: runs), q)

end Alone

/-! ## Workers together -/

/-- The queue, who holds which job, and how often each job's handler was run. -/
structure Workshop where
  queue : InMemoryJobQueue
  held : List (Nat × Job)
  handled : JobId → Nat

inductive WorkshopEvent
  | enqueue (newId : JobId) (name : PyStr) (payload : PyValue) (maxAttempts : Int)
  /-- Worker `i` takes a job, and begins to run its handler if there is one to run. -/
  | take (i : Nat)
  /-- The attempt of worker `i` is over, and the handler ended so if it was run. -/
  | settle (i : Nat) (outcome : RunOutcome)

def Workshop.step (workers : Nat → JobWorker) (s : Workshop) : WorkshopEvent → Option Workshop
  | .enqueue newId name payload maxAttempts =>
    -- `uuid4` does not draw an id twice.
    if (s.queue.jobs newId).isSome then none
    else some { s with queue := (s.queue.enqueue newId name payload maxAttempts).2 }
  | .take i =>
    if s.held.any (·.1 = i) then none
    else
      match s.queue.dequeue with
      | (.ok (some job), queue) => some {
          queue
          held := s.held ++ [(i, job)]
          handled := fun id =>
            if id = job.id ∧ (workers i).runs job then s.handled id + 1 else s.handled id }
      | (_, queue) => some { s with queue }
  | .settle i outcome =>
    match s.held.find? (·.1 = i) with
    | none => none
    | some (_, job) => some { s with
        queue := (((workers i).attempt outcome job).tellMemory s.queue job).2
        held := s.held.filter (·.1 ≠ i) }

/-- Any number of workers on one queue, under every interleaving with its clients. -/
def workshop (workers : Nat → JobWorker) : Machine Workshop WorkshopEvent where
  init := { queue := .empty, held := [], handled := fun _ => 0 }
  step := Workshop.step workers

end NexaAssist.Jobs
