import NexaAssist.Jobs.Base

/-!
# The Redis job queue, one round trip at a time

A method is a `Prog`: it ends, or it sends the server a command and goes on with
the reply. The same program is then run on its own (`Prog.runOn`), or interleaved
with others one trip at a time. A pipeline is a single command, for it runs as one
transaction. What stands behind a job's key is `W`, written and read by a codec.
-/

namespace NexaAssist.Jobs

open NexaAssist PyJson

/-! ## The server -/

/-- The lists of ids, by the last part of their key. -/
inductive ListKey
  | pending
  | processing
  | dead
  deriving DecidableEq, Repr

/-- What the server holds under one namespace. -/
structure RedisServer (W : Type) where
  lists : ListKey → List JobId
  jobs : JobId → Option W

/-- An empty server. -/
def RedisServer.empty {W : Type} : RedisServer W :=
  { lists := fun _ => [], jobs := fun _ => none }

namespace RedisServer

variable {W : Type}

/-- `SET` of a job's key. -/
def set (s : RedisServer W) (id : JobId) (w : W) : RedisServer W :=
  { s with jobs := fun i => if i = id then some w else s.jobs i }

/-- Replace one list. -/
def setList (s : RedisServer W) (key : ListKey) (ids : List JobId) : RedisServer W :=
  { s with lists := fun k => if k = key then ids else s.lists k }

/-- `RPUSH`. -/
def rpush (s : RedisServer W) (key : ListKey) (id : JobId) : RedisServer W :=
  s.setList key (s.lists key ++ [id])

/-- `LREM key 1 id`: the first occurrence goes. -/
def lrem (s : RedisServer W) (key : ListKey) (id : JobId) : RedisServer W :=
  s.setList key ((s.lists key).erase id)

/-- `LMOVE src dst LEFT RIGHT`. -/
def lmove (s : RedisServer W) (src dst : ListKey) : Option JobId × RedisServer W :=
  match s.lists src with
  | [] => (none, s)
  | id :: rest => (some id, (s.setList src rest).rpush dst id)

end RedisServer

/-- A command inside a pipeline. -/
inductive PipeOp (W : Type)
  | set (id : JobId) (w : W)
  | lrem (key : ListKey) (id : JobId)
  | rpush (key : ListKey) (id : JobId)

/-- A command a method sends. -/
inductive Cmd (W : Type)
  | lmove (src dst : ListKey)
  | get (id : JobId)
  | set (id : JobId) (w : W)
  | llen (key : ListKey)
  | lrange (key : ListKey)
  | mget (ids : List JobId)
  | execute (ops : List (PipeOp W))

/-- What the server answers. -/
def Cmd.Reply {W : Type} : Cmd W → Type
  | .lmove _ _ => Option JobId
  | .get _ => Option W
  | .set _ _ => Unit
  | .llen _ => Nat
  | .lrange _ => List JobId
  | .mget _ => List (Option W)
  | .execute _ => Unit

namespace RedisServer

variable {W : Type}

def runOp (s : RedisServer W) : PipeOp W → RedisServer W
  | .set id w => s.set id w
  | .lrem key id => s.lrem key id
  | .rpush key id => s.rpush key id

/-- Run one command: the reply and the server after it. -/
def exec (s : RedisServer W) : (c : Cmd W) → c.Reply × RedisServer W
  | .lmove src dst => s.lmove src dst
  | .get id => (s.jobs id, s)
  | .set id w => ((), s.set id w)
  | .llen key => ((s.lists key).length, s)
  | .lrange key => (s.lists key, s)
  | .mget ids => (ids.map s.jobs, s)
  | .execute ops => ((), ops.foldl runOp s)

end RedisServer

/-! ## Programs -/

/-- A method's remaining work. -/
inductive Prog (W α : Type)
  | done (result : Except QueueError α)
  | trip (c : Cmd W) (next : c.Reply → Prog W α)

namespace Prog

variable {W α β : Type}

def bind (p : Prog W α) (f : α → Prog W β) : Prog W β :=
  match p with
  | .done (.ok a) => f a
  | .done (.error e) => .done (.error e)
  | .trip c next => .trip c fun r => (next r).bind f

instance : Monad (Prog W) where
  pure a := .done (.ok a)
  bind := Prog.bind

/-- Raise. -/
def raise (e : QueueError) : Prog W α := .done (.error e)

/-- A result that is already there. -/
def lift (result : Except QueueError α) : Prog W α := .done result

/-- Run a program by itself, with every command answered. -/
def runOn (s : RedisServer W) : Prog W α → Except QueueError α × RedisServer W
  | .done result => (result, s)
  | .trip c next => (next (s.exec c).1).runOn (s.exec c).2

/-- A program that returns leaves the server. -/
@[simp] theorem runOn_pure (s : RedisServer W) (a : α) :
    (pure a : Prog W α).runOn s = (.ok a, s) := rfl

/-- A program that raises leaves the server. -/
@[simp] theorem runOn_raise (s : RedisServer W) (e : QueueError) :
    (raise e : Prog W α).runOn s = (.error e, s) := rfl

/-- A program that lifts a result leaves the server. -/
@[simp] theorem runOn_lift (s : RedisServer W) (result : Except QueueError α) :
    (lift result).runOn s = (result, s) := rfl

/-- Running two programs in sequence: an error of the first ends both. -/
theorem runOn_bind (s : RedisServer W) (p : Prog W α) (f : α → Prog W β) :
    (p >>= f).runOn s =
      match p.runOn s with
      | (.ok a, s') => (f a).runOn s'
      | (.error e, s') => (.error e, s') := by
  induction p generalizing s with
  | done result => cases result <;> rfl
  | trip c next ih => exact ih (s.exec c).1 (s.exec c).2

end Prog

/-! ## The client

Each of its methods is one round trip. -/

namespace Redis

variable {W : Type}

def lmove (src dst : ListKey) : Prog W (Option JobId) := .trip (.lmove src dst) (pure ·)

def get (id : JobId) : Prog W (Option W) := .trip (.get id) (pure ·)

def set (id : JobId) (w : W) : Prog W Unit := .trip (.set id w) (pure ·)

def llen (key : ListKey) : Prog W Nat := .trip (.llen key) (pure ·)

def lrange (key : ListKey) : Prog W (List JobId) := .trip (.lrange key) (pure ·)

def mget (ids : List JobId) : Prog W (List (Option W)) := .trip (.mget ids) (pure ·)

/-- `pipe.execute()`. -/
def execute (ops : List (PipeOp W)) : Prog W Unit := .trip (.execute ops) (pure ·)

variable (s : RedisServer W)

/-- `LMOVE`. -/
@[simp] theorem runOn_lmove (src dst : ListKey) :
    (lmove src dst).runOn s = (.ok (s.lmove src dst).1, (s.lmove src dst).2) := rfl

/-- `GET`. -/
@[simp] theorem runOn_get (id : JobId) : (get id).runOn s = (.ok (s.jobs id), s) := rfl

/-- `SET`. -/
@[simp] theorem runOn_set (id : JobId) (w : W) : (set id w).runOn s = (.ok (), s.set id w) := rfl

/-- `LLEN`. -/
@[simp] theorem runOn_llen (key : ListKey) :
    (llen key).runOn s = (.ok (s.lists key).length, s) := rfl

/-- `LRANGE`. -/
@[simp] theorem runOn_lrange (key : ListKey) :
    (lrange key).runOn s = (.ok (s.lists key), s) := rfl

/-- `MGET`. -/
@[simp] theorem runOn_mget (ids : List JobId) :
    (mget ids).runOn s = (.ok (ids.map s.jobs), s) := rfl

/-- `MULTI` and `EXEC`. -/
@[simp] theorem runOn_execute (ops : List (PipeOp W)) :
    (execute ops).runOn s = (.ok (), ops.foldl RedisServer.runOp s) := rfl

end Redis

/-! ## The queue -/

/-- How a job is written and read: `model_dump_json`, which may refuse, and
    `Job.model_validate(json.loads(raw))`, which may not find a job. -/
structure JobCodec (W : Type) where
  encode : Job → Except EncodeError W
  decode : W → Option Job

namespace RedisJobQueue

variable {W : Type} (C : JobCodec W)

/-- `job.model_dump_json()`. -/
def modelDumpJson (job : Job) : Prog W W := .lift ((C.encode job).mapError .encode)

/-- `_parse`. -/
def parse (raw : W) (id : JobId) : Prog W Job :=
  match C.decode raw with
  | some job => return job
  | none => .raise (jobNotFound id)

/-- `_write`. -/
def write (job : Job) : Prog W Unit := do
  let raw ← modelDumpJson C job
  Redis.set job.id raw

def enqueue (id : JobId) (name : PyStr) (payload : PyValue) (maxAttempts : Int) :
    Prog W Job := do
  let job ← .lift ((buildJob id name payload maxAttempts).mapError .app)
  let raw ← modelDumpJson C job
  Redis.execute [.set job.id raw, .rpush .pending job.id]
  return job

def get (id : JobId) : Prog W Job := do
  match ← Redis.get id with
  | none => .raise (jobNotFound id)
  | some raw => parse C raw id

def dequeue : Prog W (Option Job) := do
  match ← Redis.lmove .pending .processing with
  | none => return none
  | some id =>
    let stored ← get C id
    let running := stored.running
    write C running
    return some running

def complete (job : Job) : Prog W Job := do
  let stored ← get C job.id
  let done := stored.succeeded
  let raw ← modelDumpJson C done
  Redis.execute [.set done.id raw, .lrem .processing done.id]
  return done

def fail (job : Job) (error : PyStr) (retryable : Bool) : Prog W Job := do
  let stored ← get C job.id
  if stored.exhausted || !retryable then
    let dead := stored.dead error
    let raw ← modelDumpJson C dead
    Redis.execute [.set dead.id raw, .lrem .processing dead.id, .rpush .dead dead.id]
    return dead
  else
    let retry := stored.retry error
    let raw ← modelDumpJson C retry
    -- Back of the queue: a job that just failed does not starve the others.
    Redis.execute [.set retry.id raw, .lrem .processing retry.id, .rpush .pending retry.id]
    return retry

def depth : Prog W Nat := Redis.llen .pending

/-- The comprehension of `dead_lettered`: a job whose key is gone is left out. -/
def parseAll : List (JobId × Option W) → Prog W (List Job)
  | [] => return []
  | (_, none) :: rest => parseAll rest
  | (id, some raw) :: rest => do
    let job ← parse C raw id
    let jobs ← parseAll rest
    return job :: jobs

def deadLettered : Prog W (List Job) := do
  let ids ← Redis.lrange .dead
  if ids.isEmpty then return []
  else
    let raws ← Redis.mget ids
    parseAll C (ids.zip raws)

end RedisJobQueue

end NexaAssist.Jobs
