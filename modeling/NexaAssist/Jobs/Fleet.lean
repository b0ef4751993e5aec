import NexaAssist.ForStd.Machine
import NexaAssist.Jobs.Codec
import NexaAssist.Jobs.Worker

/-!
# Producers and workers on one Redis server

Any number of parties call the queue at once. A party's call advances one round trip
at a time, between which any other party may advance. A request or its reply may be
lost, which the party sees as the queue being unavailable, and a party may crash at
any point. A job that was dequeued is held by its party until it is passed to
`complete` or `fail`, once.
-/

namespace NexaAssist.Jobs

open NexaAssist PyJson

/-- What a party is doing. A program is what remains of its call. -/
inductive Party
  | idle
  | enqueuing (id : JobId) (p : Prog JsonDoc Job)
  | dequeuing (p : Prog JsonDoc (Option Job))
  | holding (job : Job)
  | settling (p : Prog JsonDoc Job)
  | reading (p : Prog JsonDoc Unit)

/-- The server, the parties, the ids drawn so far, and those whose enqueue the server
    has run. -/
structure Fleet where
  server : RedisServer JsonDoc
  party : Nat → Party
  drawn : List JobId
  enqueued : List JobId

/-- What becomes of a round trip. -/
inductive Delivery
  | answered
  | replyLost
  | requestLost
  deriving DecidableEq, Repr

/-- What happens next, and to which party. -/
inductive Action
  | enqueue (i : Nat) (newId : JobId) (name : PyStr) (payload : PyValue) (maxAttempts : Int)
  | dequeue (i : Nat)
  | get (i : Nat) (jobId : JobId)
  | depth (i : Nat)
  | deadLettered (i : Nat)
  | settle (i : Nat) (how : Settlement)
  | work (i : Nat) (w : JobWorker)
  | trip (i : Nat) (delivery : Delivery)
  | returns (i : Nat)
  | crash (i : Nat)

/-- `JobQueueUnavailableError(details={"backend": "redis"})`. -/
def queueUnavailable : QueueError :=
  .app (jobQueueUnavailableError [("backend", .ofString "redis")])

/-- A call whose result its caller only looks at. -/
def Prog.forget {W α : Type} (p : Prog W α) : Prog W Unit := p >>= fun _ => pure ()

/-- One round trip of a program: what remains of it, and the server after it. -/
def Prog.advance {W α : Type} (s : RedisServer W) (delivery : Delivery) :
    Prog W α → Option (Prog W α × RedisServer W)
  | .done _ => none
  | .trip c next =>
    match delivery with
    | .answered => some (next (s.exec c).1, (s.exec c).2)
    | .replyLost => some (.raise queueUnavailable, (s.exec c).2)
    | .requestLost => some (.raise queueUnavailable, s)

namespace Fleet

/-- Nobody has done anything. -/
def init : Fleet := { server := .empty, party := fun _ => .idle, drawn := [], enqueued := [] }

/-- Let party `i` do something else. -/
def become (f : Fleet) (i : Nat) (p : Party) : Fleet :=
  { f with party := fun j => if j = i then p else f.party j }

/-- Start a call, of a party that is not in one. -/
def start (f : Fleet) (i : Nat) (p : Party) : Option Fleet :=
  match f.party i with
  | .idle => some (f.become i p)
  | _ => none

/-- Pass the job party `i` holds back to the queue. -/
def pass (f : Fleet) (i : Nat) (how : Job → Settlement) : Option Fleet :=
  match f.party i with
  | .holding job => some (f.become i (.settling ((how job).tell pydanticCodec job)))
  | _ => none

/-- One round trip of party `i`. -/
def trip (f : Fleet) (i : Nat) (delivery : Delivery) : Option Fleet :=
  match f.party i with
  | .enqueuing id p =>
    (p.advance f.server delivery).map fun (p, s) =>
      { f.become i (.enqueuing id p) with
        server := s
        enqueued := if delivery = .requestLost then f.enqueued else id :: f.enqueued }
  | .dequeuing p =>
    (p.advance f.server delivery).map fun (p, s) =>
      { f.become i (.dequeuing p) with server := s }
  | .settling p =>
    (p.advance f.server delivery).map fun (p, s) =>
      { f.become i (.settling p) with server := s }
  | .reading p =>
    (p.advance f.server delivery).map fun (p, s) =>
      { f.become i (.reading p) with server := s }
  | .idle => none
  | .holding _ => none

/-- The call of party `i` returns or raises. -/
def returns (f : Fleet) (i : Nat) : Option Fleet :=
  match f.party i with
  | .enqueuing _ (.done _) => some (f.become i .idle)
  | .dequeuing (.done (.ok (some job))) => some (f.become i (.holding job))
  | .dequeuing (.done _) => some (f.become i .idle)
  | .settling (.done _) => some (f.become i .idle)
  | .reading (.done _) => some (f.become i .idle)
  | _ => none

def step (f : Fleet) : Action → Option Fleet
  | .enqueue i newId name payload maxAttempts =>
    -- `uuid4` does not draw an id twice.
    if newId ∈ f.drawn then none
    else
      (f.start i (.enqueuing newId
        (RedisJobQueue.enqueue pydanticCodec newId name payload maxAttempts))).map
          fun f => { f with drawn := newId :: f.drawn }
  | .dequeue i => f.start i (.dequeuing (RedisJobQueue.dequeue pydanticCodec))
  | .get i jobId => f.start i (.reading (RedisJobQueue.get pydanticCodec jobId).forget)
  | .depth i => f.start i (.reading RedisJobQueue.depth.forget)
  | .deadLettered i => f.start i (.reading (RedisJobQueue.deadLettered pydanticCodec).forget)
  | .settle i how => f.pass i fun _ => how
  | .work i w => f.pass i w.dispatch
  | .trip i delivery => f.trip i delivery
  | .returns i => f.returns i
  | .crash i => some (f.become i .idle)

end Fleet

/-- The producers and workers of one namespace. -/
def fleet : Machine Fleet Action where
  init := .init
  step := Fleet.step

end NexaAssist.Jobs
