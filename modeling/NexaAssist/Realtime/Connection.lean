import NexaAssist.Core.Errors
import NexaAssist.ForStd.PyDict
import NexaAssist.Schemas.Types

/-!
# Who is connected, and how many may be

The registry of the live connections of a process, with a ceiling. Ids come from a source that
does not repeat itself.
-/

namespace NexaAssist.Realtime

open PyJson

/-- The server is already holding as many connections as it will. -/
def realtimeCapacityError (limit : Nat) : AppError where
  statusCode := 503
  code := "realtime_at_capacity"
  message := lit "The service is not accepting new realtime connections."
  details := [("limit", lit (toString limit))]

/-- One live client, by its socket. -/
structure LiveConnection where
  socket : Nat
  id : Nat
  deriving DecidableEq

/-- A line that the registry logs. -/
inductive RegistryLine
  | connected (id live : Nat)
  | disconnected (id live : Nat)
  deriving DecidableEq

/-- The live connections. A ceiling below 1 is a `ValueError`. -/
structure ConnectionRegistry where
  maxConnections : { n : Nat // 1 ≤ n }
  connections : PyDict Nat LiveConnection
  /-- The next `uuid4().hex`. -/
  nextId : Nat
  lines : List RegistryLine

namespace ConnectionRegistry

def init (maxConnections : { n : Nat // 1 ≤ n }) : ConnectionRegistry where
  maxConnections := maxConnections
  connections := []
  nextId := 0
  lines := []

/-- Register a socket, refusing once the ceiling is reached. -/
def add (registry : ConnectionRegistry) (socket : Nat) :
    Except AppError (LiveConnection × ConnectionRegistry) :=
  if registry.maxConnections.val ≤ registry.connections.length then
    .error (realtimeCapacityError registry.maxConnections.val)
  else
    let connection : LiveConnection := { socket, id := registry.nextId }
    let connections := PyDict.set connection.id connection registry.connections
    .ok (connection,
      { registry with
        connections
        nextId := registry.nextId + 1
        lines := registry.lines ++ [.connected connection.id connections.length] })

/-- Deregister a socket. Removing one that is already gone is not an error. -/
def remove (registry : ConnectionRegistry) (connection : LiveConnection) : ConnectionRegistry :=
  match PyDict.get connection.id registry.connections with
  | none => registry
  | some _ =>
    let connections := PyDict.erase connection.id registry.connections
    { registry with
      connections
      lines := registry.lines ++ [.disconnected connection.id connections.length] }

/-- The ids that were registered, in order. -/
def registered (registry : ConnectionRegistry) : List Nat :=
  registry.lines.filterMap fun
    | .connected id _ => some id
    | .disconnected .. => none

/-- And those that were removed. -/
def removed (registry : ConnectionRegistry) : List Nat :=
  registry.lines.filterMap fun
    | .connected .. => none
    | .disconnected id _ => some id

variable {registry registry' : ConnectionRegistry} {connection : LiveConnection}

/-- What `add` does to a registry whose ids have all been drawn. -/
structure Added (registry : ConnectionRegistry) (socket : Nat) (connection : LiveConnection)
    (registry' : ConnectionRegistry) : Prop where
  id : connection.id = registry.nextId
  maxConnections : registry'.maxConnections = registry.maxConnections
  room : registry'.connections.length ≤ registry.maxConnections.val
  keys : PyDict.keys registry'.connections = PyDict.keys registry.connections ++ [registry.nextId]
  nextId : registry'.nextId = registry.nextId + 1
  registered : registry'.registered = registry.registered ++ [registry.nextId]
  removed : registry'.removed = registry.removed

/-- `add` adds a connection under a new id, as `Added` says. -/
theorem added_of_eq {socket : Nat} (hnew : registry.nextId ∉ PyDict.keys registry.connections)
    (h : registry.add socket = .ok (connection, registry')) :
    Added registry socket connection registry' := by
  unfold add at h
  split at h
  · exact nomatch h
  · rename_i hroom
    obtain ⟨rfl, rfl⟩ := Prod.mk.inj (Except.ok.inj h)
    have hset := PyDict.set_of_notMem hnew (⟨socket, registry.nextId⟩ : LiveConnection)
    constructor
    · rfl
    · rfl
    · simp only [hset, List.length_append, List.length_singleton]
      omega
    · simp only [hset, PyDict.keys, List.map_append, List.map_singleton]
    · rfl
    · simp [ConnectionRegistry.registered]
    · simp [ConnectionRegistry.removed]

/-- What `remove` does to a connection that is registered. -/
structure Removed (registry : ConnectionRegistry) (connection : LiveConnection)
    (registry' : ConnectionRegistry) : Prop where
  maxConnections : registry'.maxConnections = registry.maxConnections
  keys : PyDict.keys registry'.connections =
    (PyDict.keys registry.connections).filter (· ≠ connection.id)
  nextId : registry'.nextId = registry.nextId
  registered : registry'.registered = registry.registered
  removed : registry'.removed = registry.removed ++ [connection.id]

/-- `remove` takes a live connection out, as `Removed` says. -/
theorem removed_remove (hlive : connection.id ∈ PyDict.keys registry.connections) :
    Removed registry connection (registry.remove connection) := by
  unfold remove
  cases hget : PyDict.get connection.id registry.connections with
  | none => exact absurd hlive (PyDict.get_eq_none_iff.mp hget)
  | some live =>
    constructor
    · rfl
    · exact PyDict.keys_erase _ _
    · rfl
    · simp [ConnectionRegistry.registered]
    · simp [ConnectionRegistry.removed]

end ConnectionRegistry

end NexaAssist.Realtime
