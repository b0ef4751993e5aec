import NexaAssist.Schemas.Types

/-!
# Tickets for the realtime handshake

A ticket is issued to a subject over HTTP and spent on a handshake. One store keeps them
in the process, with a time at which each expires; the other in Redis, which forgets them
by itself. What a clock read and which ticket was generated are arguments.
-/

namespace NexaAssist

open PyJson

/-! ## Identities -/

inductive IdentityKind
  | anonymous
  | apiKey
  deriving DecidableEq, Repr

/-- The principal behind one request. -/
structure RequestIdentity where
  subject : Text
  kind : IdentityKind
  authenticated : Bool
  deriving DecidableEq

namespace RequestIdentity

def anonymous : RequestIdentity where
  subject := ⟨lit "anonymous", by decide⟩
  kind := .anonymous
  authenticated := false

def apiKey (subject : Text) : RequestIdentity where
  subject := subject
  kind := .apiKey
  authenticated := true

end RequestIdentity

/-- `realtime_ticket_ttl_seconds`. -/
abbrev TicketTtl := { seconds : Nat // 5 ≤ seconds ∧ seconds ≤ 600 }

/-! ## Tickets in the process -/

/-- `_tickets`: who a ticket was issued to, and when it expires. -/
structure InMemoryTicketStore where
  tickets : PyStr → Option (Text × Rat)

namespace InMemoryTicketStore

def empty : InMemoryTicketStore := { tickets := fun _ => none }

/-- `_prune`. -/
def prune (store : InMemoryTicketStore) (now : Rat) : InMemoryTicketStore where
  tickets ticket := (store.tickets ticket).filter fun entry => !(entry.2 ≤ now)

/-- `issue`. The clock is read once to prune and once more for the ticket. -/
def issue (ttl : TicketTtl) (store : InMemoryTicketStore) (ticket : PyStr) (subject : Text)
    (pruned now : Rat) : InMemoryTicketStore where
  tickets t := if t = ticket then some (subject, now + ttl.val) else (store.prune pruned).tickets t

/-- `redeem`: `pop` first, then look at the time. -/
def redeem (store : InMemoryTicketStore) (ticket : PyStr) (now : Rat) :
    Option Text × InMemoryTicketStore :=
  match store.tickets ticket with
  | none => (none, store)
  | some (subject, expiresAt) =>
    let popped : InMemoryTicketStore := {
      tickets := fun t => if t = ticket then none else store.tickets t }
    (if expiresAt ≤ now then none else some subject, popped)

end InMemoryTicketStore

/-! ## Tickets in Redis -/

/-- The strings of a Redis server that have a time to live. -/
structure ExpiringKeys where
  keys : PyStr → Option (Text × Rat)

namespace ExpiringKeys

def empty : ExpiringKeys := { keys := fun _ => none }

/-- `SET key value EX seconds`. -/
def setEx (server : ExpiringKeys) (key : PyStr) (value : Text) (seconds : Nat) (now : Rat) :
    ExpiringKeys where
  keys k := if k = key then some (value, now + seconds) else server.keys k

/-- `GETDEL key`. A key whose time is over is not there. -/
def getDel (server : ExpiringKeys) (key : PyStr) (now : Rat) : Option Text × ExpiringKeys :=
  match server.keys key with
  | none => (none, server)
  | some (value, expiresAt) =>
    (if now < expiresAt then some value else none,
      { keys := fun k => if k = key then none else server.keys k })

end ExpiringKeys

/-- `RedisTicketStore`, whose namespace is fixed: its state is the server's. -/
structure RedisTicketStore where
  server : ExpiringKeys

namespace RedisTicketStore

/-- `_key`. -/
def key (ns ticket : PyStr) : PyStr := ns ++ lit ":" ++ ticket

def issue (ns : PyStr) (ttl : TicketTtl) (store : RedisTicketStore) (ticket : PyStr)
    (subject : Text) (now : Rat) : RedisTicketStore where
  server := store.server.setEx (key ns ticket) subject ttl.val now

def redeem (ns : PyStr) (store : RedisTicketStore) (ticket : PyStr) (now : Rat) :
    Option Text × RedisTicketStore :=
  let (subject, server) := store.server.getDel (key ns ticket) now
  (subject, { server })

end RedisTicketStore

/-! ## The protocol of both -/

/-- What the socket depends on. `issue` is told the ticket generated, and both times that
    may be read. -/
structure TicketStore (σ : Type) where
  empty : σ
  issue : σ → PyStr → Text → Rat → Rat → σ
  redeem : σ → PyStr → Rat → Option Text × σ

def memoryTickets (ttl : TicketTtl) : TicketStore InMemoryTicketStore where
  empty := .empty
  issue := InMemoryTicketStore.issue ttl
  redeem := InMemoryTicketStore.redeem

def redisTickets (ns : PyStr) (ttl : TicketTtl) : TicketStore RedisTicketStore where
  empty := { server := .empty }
  issue store ticket subject _ now := store.issue ns ttl ticket subject now
  redeem := RedisTicketStore.redeem ns

/-- `authenticate_socket`, with the ticket it redeems, if it does. -/
def authenticateSocket {σ : Type} (tickets : TicketStore σ) (protects : Bool)
    (ticket : Option PyStr) (store : σ) (now : Rat) :
    Option RequestIdentity × σ × Option (PyStr × Option Text) :=
  if !protects then (some .anonymous, store, none)
  else match ticket with
    | none => (none, store, none)
    | some ticket =>
      if ticket = [] then (none, store, none)
      else
        let (subject, store) := tickets.redeem store ticket now
        (subject.map .apiKey, store, some (ticket, subject))

end NexaAssist
