import NexaAssist.ForStd.RedisStore
import NexaAssist.Jobs.RedisQueue
import NexaAssist.Schemas.Types

/-!
# The queue's keys

What `RedisJobQueue` sends to a server: its commands with the keys they name, and how an answer is
read. A text that is read is decoded, so that an id is one that a client can send back.
-/

namespace NexaAssist.Jobs

open NexaAssist PyJson

/-- Why a call of Redis ends without an answer. -/
inductive CallFault
  | server (fault : RedisStore.Fault)
  /-- The reply is not what the command answers with, or not UTF-8. -/
  | unreadable
  deriving DecidableEq

/-- `_pending_key`, `_processing_key` and `_dead_key`. -/
def listKey (ns : PyStr) : ListKey → PyStr
  | .pending => ns ++ lit ":pending"
  | .processing => ns ++ lit ":processing"
  | .dead => ns ++ lit ":dead"

/-- `_job_key`. -/
def jobKey (ns : PyStr) (id : JobId) : PyStr := ns ++ lit ":job:" ++ id.val

variable (ns : PyStr)

def PipeOp.command : PipeOp PyStr → RedisStore.Op
  | .set id raw => .set (jobKey ns id) raw
  | .lrem key id => .lrem (listKey ns key) id.val
  | .rpush key id => .rpush (listKey ns key) id.val

def Cmd.command : Cmd PyStr → RedisStore.Command
  | .lmove src dst => .lmove (listKey ns src) (listKey ns dst)
  | .get id => .get (jobKey ns id)
  | .set id raw => .set (jobKey ns id) raw
  | .llen key => .llen (listKey ns key)
  | .lrange key => .lrange (listKey ns key)
  | .mget ids => .mget (ids.map (jobKey ns))
  | .execute ops => .multi (ops.map (PipeOp.command ns))

/-- A job id of a reply. -/
def readId (text : PyStr) : Except CallFault JobId :=
  if h : wellFormed text = true then .ok ⟨text, h⟩ else .error .unreadable

def Cmd.read : (c : Cmd PyStr) → (c.command ns).Reply → Except CallFault c.Reply
  | .lmove _ _, none => .ok none
  | .lmove _ _, some text => (readId text).map some
  | .get _, raw => .ok raw
  | .set _ _, _ => .ok ()
  | .llen _, n => .ok n
  | .lrange _, texts => texts.mapM readId
  | .mget _, raws => .ok raws
  | .execute _, _ => .ok ()

/-- A reply as the client has it. -/
def readReply {α β : Type} (read : α → Except CallFault β) :
    Except RedisStore.Fault α → Except CallFault β
  | .ok reply => read reply
  | .error fault => .error (.server fault)

/-- A command of the queue, as it is sent. -/
def Cmd.send (c : Cmd PyStr) (store : RedisStore.Store) :
    Except CallFault c.Reply × RedisStore.Store :=
  (readReply (c.read ns) (store.exec (c.command ns)).1, (store.exec (c.command ns)).2)

end NexaAssist.Jobs
