import NexaAssist.ForStd.Machine
import NexaAssist.Jobs.Memory
import NexaAssist.Jobs.RedisQueue

/-!
# The queue protocol

The calls every backend answers, and the two backends as objects that answer them
one after another. An enqueue carries the id that was drawn for it.
-/

namespace NexaAssist.Jobs

open NexaAssist PyJson

/-- A call to a queue. -/
inductive QueueCall
  | enqueue (newId : JobId) (name : PyStr) (payload : PyValue) (maxAttempts : Int)
  | dequeue
  | complete (job : Job)
  | fail (job : Job) (error : PyStr) (retryable : Bool)
  | get (id : JobId)
  | depth
  | deadLettered

/-- What a call returns or raises. -/
inductive QueueAnswer
  | job (result : Except QueueError Job)
  | taken (result : Except QueueError (Option Job))
  | count (result : Except QueueError Nat)
  | jobs (result : Except QueueError (List Job))

/-- `InMemoryJobQueue`, called. -/
def InMemoryJobQueue.call (q : InMemoryJobQueue) : QueueCall → QueueAnswer × InMemoryJobQueue
  | .enqueue newId name payload maxAttempts =>
    (q.enqueue newId name payload maxAttempts).map .job id
  | .dequeue => q.dequeue.map .taken id
  | .complete job => (q.complete job).map .job id
  | .fail job error retryable => (q.fail job error retryable).map .job id
  | .get jobId => (q.get jobId).map .job id
  | .depth => q.depth.map .count id
  | .deadLettered => q.deadLettered.map .jobs id

/-- `RedisJobQueue`, called on a server nobody else talks to. -/
def RedisJobQueue.call {W : Type} (C : JobCodec W) (s : RedisServer W) :
    QueueCall → QueueAnswer × RedisServer W
  | .enqueue newId name payload maxAttempts =>
    ((enqueue C newId name payload maxAttempts).runOn s).map .job id
  | .dequeue => ((dequeue C).runOn s).map .taken id
  | .complete job => ((complete C job).runOn s).map .job id
  | .fail job error retryable => ((fail C job error retryable).runOn s).map .job id
  | .get jobId => ((get C jobId).runOn s).map .job id
  | .depth => (depth.runOn s).map .count id
  | .deadLettered => ((deadLettered C).runOn s).map .jobs id

/-- The in-process backend. -/
def memoryQueue : Object InMemoryJobQueue QueueCall QueueAnswer where
  init := .empty
  call := InMemoryJobQueue.call

/-- The Redis backend. -/
def redisQueue {W : Type} (C : JobCodec W) : Object (RedisServer W) QueueCall QueueAnswer where
  init := .empty
  call := RedisJobQueue.call C

end NexaAssist.Jobs
