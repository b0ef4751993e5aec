import NexaAssist.Jobs.Base

/-!
# The in-process job queue

A deque of ids, every job retained by id, and a list of the dead. Each method
takes the queue and returns what it returned or raised, with the queue after it.
-/

namespace NexaAssist.Jobs

open NexaAssist PyJson

/-- `InMemoryJobQueue`'s three attributes. -/
structure InMemoryJobQueue where
  pending : List JobId
  jobs : JobId → Option Job
  dead : List JobId

namespace InMemoryJobQueue

/-- `InMemoryJobQueue()`. -/
def empty : InMemoryJobQueue := { pending := [], jobs := fun _ => none, dead := [] }

/-- `self._jobs[job.id] = job`. -/
def store (q : InMemoryJobQueue) (id : JobId) (job : Job) : InMemoryJobQueue :=
  { q with jobs := fun i => if i = id then some job else q.jobs i }

/-- `_stored`. -/
def stored (q : InMemoryJobQueue) (id : JobId) : Except QueueError Job :=
  match q.jobs id with
  | some job => .ok job
  | none => .error (jobNotFound id)

def enqueue (q : InMemoryJobQueue) (id : JobId) (name : PyStr) (payload : PyValue)
    (maxAttempts : Int) : Except QueueError Job × InMemoryJobQueue :=
  match buildJob id name payload maxAttempts with
  | .error e => (.error (.app e), q)
  | .ok job =>
    let q := q.store job.id job
    (.ok job, { q with pending := q.pending ++ [job.id] })

/-- The loop of `dequeue`: an id without a job is dropped. -/
def takeNext (q : InMemoryJobQueue) : List JobId → Option Job × InMemoryJobQueue
  | [] => (none, { q with pending := [] })
  | id :: rest =>
    match q.jobs id with
    | none => takeNext q rest
    | some job => (some job.running, { q.store id job.running with pending := rest })

def dequeue (q : InMemoryJobQueue) : Except QueueError (Option Job) × InMemoryJobQueue :=
  ((.ok (q.takeNext q.pending).1), (q.takeNext q.pending).2)

def complete (q : InMemoryJobQueue) (job : Job) : Except QueueError Job × InMemoryJobQueue :=
  match q.stored job.id with
  | .error e => (.error e, q)
  | .ok stored => (.ok stored.succeeded, q.store job.id stored.succeeded)

def fail (q : InMemoryJobQueue) (job : Job) (error : PyStr) (retryable : Bool) :
    Except QueueError Job × InMemoryJobQueue :=
  match q.stored job.id with
  | .error e => (.error e, q)
  | .ok stored =>
    if stored.exhausted || !retryable then
      let dead := stored.dead error
      (.ok dead, { q.store job.id dead with dead := q.dead ++ [job.id] })
    else
      -- Back of the queue: a job that just failed does not starve the others.
      let retry := stored.retry error
      (.ok retry, { q.store job.id retry with pending := q.pending ++ [job.id] })

def get (q : InMemoryJobQueue) (id : JobId) : Except QueueError Job × InMemoryJobQueue :=
  (q.stored id, q)

def depth (q : InMemoryJobQueue) : Except QueueError Nat × InMemoryJobQueue :=
  (.ok q.pending.length, q)

/-- `[self._jobs[job_id] for job_id in self._dead]`. -/
def deadJobs (q : InMemoryJobQueue) : List JobId → Except QueueError (List Job)
  | [] => .ok []
  | id :: ids =>
    match q.jobs id with
    | none => .error (.key id)
    | some job => (deadJobs q ids).map (job :: ·)

def deadLettered (q : InMemoryJobQueue) : Except QueueError (List Job) × InMemoryJobQueue :=
  (q.deadJobs q.dead, q)

end InMemoryJobQueue

end NexaAssist.Jobs
