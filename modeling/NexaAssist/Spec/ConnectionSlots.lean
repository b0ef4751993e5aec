import Mathlib.Data.List.Perm.Basic
import NexaAssist.ForStd.List
import NexaAssist.Realtime.Endpoint

/-!
# A connection slot is held by one handler, and given back once

Over every interleaving of the handlers of the endpoint, the registry holds the connections of
the handlers that are past `add` and before their finally block, and no more than its ceiling.
-/

namespace NexaAssist.Spec.ConnectionSlots

open PyJson Realtime

/-- The id that a handler holds in the registry. -/
def heldBy (await : Await) : List Nat := (await.serving.map LiveConnection.id).toList

/-- The id that it has given back. -/
def departedBy (await : Await) : List Nat := (await.left.map LiveConnection.id).toList

def held (handlers : List Await) : List Nat := handlers.flatMap heldBy

def departed (handlers : List Await) : List Nat := handlers.flatMap departedBy

/-- The registry keeps what the handlers hold, its log what they held or hold. -/
structure Accounted (maxConnections : { n : Nat // 1 ≤ n }) (s : Endpoint) : Prop where
  ceiling : s.registry.maxConnections = maxConnections
  bounded : s.registry.connections.length ≤ maxConnections.val
  keys : (PyDict.keys s.registry.connections).Perm (held s.handlers)
  removed : s.registry.removed.Perm (departed s.handlers)
  registered : s.registry.registered.Perm (held s.handlers ++ departed s.handlers)
  nodup : s.registry.registered.Nodup
  drawn : ∀ id ∈ s.registry.registered, id < s.registry.nextId

/-- Who has which connection, and how often each was given back. -/
structure Slots (maxConnections : { n : Nat // 1 ≤ n }) (s : Endpoint) : Prop where
  /-- As many connections as handlers between `add` and the finally block. -/
  counted : s.registry.connections.length =
    s.handlers.countP fun await => await.serving.isSome
  bounded : s.registry.connections.length ≤ maxConnections.val
  /-- The connection of such a handler is registered, and was not removed. -/
  serving : ∀ await ∈ s.handlers, ∀ connection, await.serving = some connection →
    connection.id ∈ PyDict.keys s.registry.connections ∧
      s.registry.removed.count connection.id = 0
  /-- That of a handler past it is not, and was removed once. -/
  left : ∀ await ∈ s.handlers, ∀ connection, await.left = some connection →
    connection.id ∉ PyDict.keys s.registry.connections ∧
      s.registry.removed.count connection.id = 1
  /-- Whatever was registered is the connection of one handler of these two kinds. -/
  owned : ∀ id ∈ s.registry.registered, ∃! handler : Nat, ∃ (await : Await) (connection : LiveConnection),
    s.handlers[handler]? = some await ∧ connection.id = id ∧
      (await.serving = some connection ∨ await.left = some connection)

variable {maxConnections : { n : Nat // 1 ≤ n }} {s : Endpoint}

/-! ## One step -/

/-- A handler that serves holds the slot of its connection. -/
theorem heldBy_of_serving {await : Await} {connection : LiveConnection}
    (h : await.serving = some connection) : heldBy await = [connection.id] := by
  simp [heldBy, h]

/-- A handler that serves no connection holds no slot. -/
theorem heldBy_of_none {await : Await} (h : await.serving = none) : heldBy await = [] := by
  simp [heldBy, h]

/-- A handler that has left has departed from its connection. -/
theorem departedBy_of_left {await : Await} {connection : LiveConnection}
    (h : await.left = some connection) : departedBy await = [connection.id] := by
  simp [departedBy, h]

/-- A handler that has left no connection has departed from none. -/
theorem departedBy_of_none {await : Await} (h : await.left = none) : departedBy await = [] := by
  simp [departedBy, h]

/-- Setting a handler that stands for the same ids leaves the ids. -/
theorem flatMap_set_perm_self {f : Await → List Nat} {handlers : List Await} {handler : Nat}
    {await await' : Await} (h : handlers[handler]? = some await) (hsame : f await' = f await) :
    ((handlers.set handler await').flatMap f).Perm (handlers.flatMap f) := by
  have hset := List.flatMap_set_perm (f := f) h await'
  rw [hsame] at hset
  exact (List.perm_append_right_iff _).mp hset

/-- Setting a handler that comes to stand for an id adds the id. -/
theorem flatMap_set_perm_cons {f : Await → List Nat} {handlers : List Await} {handler id : Nat}
    {await await' : Await} (h : handlers[handler]? = some await) (hbefore : f await = [])
    (hafter : f await' = [id]) :
    ((handlers.set handler await').flatMap f).Perm (id :: handlers.flatMap f) := by
  have hset := List.flatMap_set_perm (f := f) h await'
  rw [hbefore, hafter, List.append_nil] at hset
  exact hset.trans List.perm_append_comm

/-- Setting a handler that no longer stands for its id takes the id out. -/
theorem perm_cons_flatMap_set {f : Await → List Nat} {handlers : List Await} {handler id : Nat}
    {await await' : Await} (h : handlers[handler]? = some await) (hbefore : f await = [id])
    (hafter : f await' = []) :
    (handlers.flatMap f).Perm (id :: (handlers.set handler await').flatMap f) := by
  have hset := List.flatMap_set_perm (f := f) h await'
  rw [hbefore, hafter, List.append_nil] at hset
  exact hset.symm.trans List.perm_append_comm

namespace Accounted

/-- `Accounted` holds at first. -/
theorem init : Accounted maxConnections (.init maxConnections) where
  ceiling := rfl
  bounded := Nat.zero_le _
  keys := List.Perm.nil
  removed := List.Perm.nil
  registered := List.Perm.nil
  nodup := List.nodup_nil
  drawn := fun _ h => nomatch h

/-- `Accounted` is kept when a handler is created, which has no slot yet. -/
theorem connect (h : Accounted maxConnections s) (ticket : Option PyStr) :
    Accounted maxConnections { s with handlers := s.handlers ++ [.accepting ticket] } := by
  have hheld : held (s.handlers ++ [.accepting ticket]) = held s.handlers := by
    simp [held, heldBy, Await.serving]
  have hdeparted : departed (s.handlers ++ [.accepting ticket]) = departed s.handlers := by
    simp [departed, departedBy, Await.left]
  exact {
    ceiling := h.ceiling
    bounded := h.bounded
    keys := hheld ▸ h.keys
    removed := hdeparted ▸ h.removed
    registered := by
      show s.registry.registered.Perm (held (s.handlers ++ [.accepting ticket]) ++
        departed (s.handlers ++ [.accepting ticket]))
      rw [hheld, hdeparted]
      exact h.registered
    nodup := h.nodup
    drawn := h.drawn }

section Moves

variable {handler : Nat} {await await' : Await} {connection : LiveConnection}
  {registry : ConnectionRegistry}

/-- `Accounted` is kept while a handler keeps its slot. -/
theorem stays (h : Accounted maxConnections s) (hat : s.handlers[handler]? = some await)
    (hserving : await'.serving = await.serving) (hleft : await'.left = await.left) :
    Accounted maxConnections { s with handlers := s.handlers.set handler await' } := by
  have hheld : (held (s.handlers.set handler await')).Perm (held s.handlers) :=
    flatMap_set_perm_self hat (by simp only [heldBy, hserving])
  have hdeparted : (departed (s.handlers.set handler await')).Perm (departed s.handlers) :=
    flatMap_set_perm_self hat (by simp only [departedBy, hleft])
  exact {
    ceiling := h.ceiling
    bounded := h.bounded
    keys := h.keys.trans hheld.symm
    removed := h.removed.trans hdeparted.symm
    registered := h.registered.trans (hheld.append hdeparted).symm
    nodup := h.nodup
    drawn := h.drawn }

/-- `Accounted` is kept when a handler is given a slot. -/
theorem enters (h : Accounted maxConnections s) (hat : s.handlers[handler]? = some await)
    (hserving : await.serving = none) (hleft : await.left = none)
    (hadd : s.registry.add handler = .ok (connection, registry)) :
    Accounted maxConnections
      { registry, handlers := s.handlers.set handler (.greeting connection) } := by
  -- The number drawn is of no connection so far
  have hfresh : s.registry.nextId ∉ s.registry.registered := by
    intro hmem
    exact absurd (h.drawn _ hmem) (Nat.lt_irrefl _)
  have hnew : s.registry.nextId ∉ PyDict.keys s.registry.connections := by
    intro hmem
    exact hfresh (h.registered.mem_iff.mpr (List.mem_append_left _ (h.keys.mem_iff.mp hmem)))
  have hadded := ConnectionRegistry.added_of_eq hnew hadd
  -- The handler that entered now holds the new connection
  have hheld : (held (s.handlers.set handler (.greeting connection))).Perm
      (s.registry.nextId :: held s.handlers) := by
    rw [← hadded.id]
    exact flatMap_set_perm_cons hat (heldBy_of_none hserving) (heldBy_of_serving rfl)
  have hdeparted : (departed (s.handlers.set handler (.greeting connection))).Perm
      (departed s.handlers) :=
    flatMap_set_perm_self hat ((departedBy_of_none rfl).trans (departedBy_of_none hleft).symm)
  constructor
  · exact hadded.maxConnections.trans h.ceiling
  · exact h.ceiling ▸ hadded.room
  · rw [hadded.keys]
    exact (List.perm_append_singleton _ _).trans ((h.keys.cons _).trans hheld.symm)
  · rw [hadded.removed]
    exact h.removed.trans hdeparted.symm
  · rw [hadded.registered]
    refine (List.perm_append_singleton _ _).trans ((h.registered.cons _).trans ?_)
    exact (hheld.append hdeparted).symm
  · rw [hadded.registered]
    exact List.nodup_append.mpr ⟨h.nodup, List.nodup_singleton _, fun id hid id' hid' heq =>
      hfresh (List.mem_singleton.mp hid' ▸ heq ▸ hid)⟩
  · intro id hid
    rw [hadded.registered, List.mem_append, List.mem_singleton] at hid
    rw [hadded.nextId]
    rcases hid with hid | rfl
    · exact Nat.lt_succ_of_lt (h.drawn id hid)
    · exact Nat.lt_succ_self _

/-- `Accounted` is kept when a handler gives its slot back. -/
theorem leaves (h : Accounted maxConnections s) (hat : s.handlers[handler]? = some await)
    (hserving : await.serving = some connection) (hleft : await.left = none)
    (hserving' : await'.serving = none) (hleft' : await'.left = some connection) :
    Accounted maxConnections
      { registry := s.registry.remove connection, handlers := s.handlers.set handler await' } := by
  have hheld : (held s.handlers).Perm
      (connection.id :: held (s.handlers.set handler await')) :=
    perm_cons_flatMap_set hat (heldBy_of_serving hserving) (heldBy_of_none hserving')
  have hdeparted : (departed (s.handlers.set handler await')).Perm
      (connection.id :: departed s.handlers) :=
    flatMap_set_perm_cons hat (departedBy_of_none hleft) (departedBy_of_left hleft')
  -- What a handler holds is still in the registry
  have hlive : connection.id ∈ PyDict.keys s.registry.connections :=
    h.keys.mem_iff.mpr (hheld.mem_iff.mpr List.mem_cons_self)
  have hremoved := ConnectionRegistry.removed_remove hlive
  have hnodup : (connection.id :: held (s.handlers.set handler await')).Nodup :=
    hheld.nodup_iff.mp (List.nodup_append.mp (h.registered.nodup_iff.mp h.nodup)).1
  -- The registry keeps the connections of the other handlers
  have hkeys : (PyDict.keys (s.registry.remove connection).connections).Perm
      (held (s.handlers.set handler await')) := by
    rw [hremoved.keys]
    refine ((h.keys.trans hheld).filter _).trans ?_
    rw [List.filter_cons_of_neg (by simp), List.filter_eq_self.mpr]
    intro id hid
    have hne : id ≠ connection.id := by
      rintro rfl
      exact (List.nodup_cons.mp hnodup).1 hid
    simpa using hne
  constructor
  · exact hremoved.maxConnections.trans h.ceiling
  · have hlength : (PyDict.keys (s.registry.remove connection).connections).length ≤
        (PyDict.keys s.registry.connections).length := by
      rw [hremoved.keys]
      exact List.length_filter_le _ _
    rw [PyDict.keys, PyDict.keys, List.length_map, List.length_map] at hlength
    exact hlength.trans h.bounded
  · exact hkeys
  · rw [hremoved.removed]
    exact (List.perm_append_singleton _ _).trans ((h.removed.cons _).trans hdeparted.symm)
  · rw [hremoved.registered]
    refine (h.registered.trans (hheld.append_right _)).trans ?_
    exact List.perm_middle.symm.trans (hdeparted.symm.append_left _)
  · rw [hremoved.registered]
    exact h.nodup
  · rw [hremoved.registered, hremoved.nextId]
    exact h.drawn

end Moves

/-- `Accounted` is kept by every step of the endpoint. -/
theorem step (deployment : Deployment) {s' : Endpoint} {event : EndpointEvent}
    (h : Accounted maxConnections s) (hstep : Endpoint.step deployment s event = some s') :
    Accounted maxConnections s' := by
  cases event with
  | connect ticket =>
    rw [← Option.some.inj hstep]
    exact h.connect ticket
  | resume handler outcome raises connected =>
    obtain ⟨await, hat, hstep⟩ := Option.bind_eq_some_iff.mp hstep
    obtain ⟨moved, hresume, hstep⟩ := Option.bind_eq_some_iff.mp hstep
    obtain ⟨await', registry⟩ := moved
    rw [← Option.some.inj hstep]
    cases moved_resume hresume with
    | stays hserving hleft => exact h.stays hat hserving hleft
    | enters hserving hleft hadd => exact h.enters hat hserving hleft hadd
    | leaves hserving hleft hserving' hleft' => exact h.leaves hat hserving hleft hserving' hleft'

/-! ## What the accounts say -/

/-- As many connections are registered as handlers serve. -/
theorem counted (h : Accounted maxConnections s) :
    s.registry.connections.length = s.handlers.countP fun await => await.serving.isSome := by
  have hlength : ∀ handlers : List Await,
      (held handlers).length = handlers.countP fun await => await.serving.isSome := by
    intro handlers
    induction handlers with
    | nil => rfl
    | cons await handlers ih =>
      rw [held, List.flatMap_cons, List.length_append, List.countP_cons, ← ih, held, Nat.add_comm]
      congr 1
      cases await <;> rfl
  rw [← hlength, ← h.keys.length_eq, PyDict.keys, List.length_map]

/-- No slot is held twice. -/
theorem nodup_held (h : Accounted maxConnections s) :
    (held s.handlers ++ departed s.handlers).Nodup :=
  h.registered.nodup_iff.mp h.nodup

/-- A handler that serves holds its slot. -/
theorem mem_held {await : Await} {connection : LiveConnection} (hmem : await ∈ s.handlers)
    (hserving : await.serving = some connection) : connection.id ∈ held s.handlers :=
  List.mem_flatMap.mpr ⟨await, hmem, by simp [heldBy_of_serving hserving]⟩

/-- A connection that a handler has left is among the `departed`. -/
theorem mem_departed {await : Await} {connection : LiveConnection} (hmem : await ∈ s.handlers)
    (hleft : await.left = some connection) : connection.id ∈ departed s.handlers :=
  List.mem_flatMap.mpr ⟨await, hmem, by simp [departedBy_of_left hleft]⟩

/-- No two handlers have had one id. -/
theorem handler_unique (h : Accounted maxConnections s) {i j id : Nat} {await await' : Await}
    (hi : s.handlers[i]? = some await) (hj : s.handlers[j]? = some await')
    (hid : id ∈ heldBy await ++ departedBy await)
    (hid' : id ∈ heldBy await' ++ departedBy await') : i = j := by
  have hnodup : (s.handlers.flatMap fun await => heldBy await ++ departedBy await).Nodup :=
    (List.flatMap_append_perm _ _ _).nodup_iff.mp h.nodup_held
  have hpairwise := List.pairwise_iff_getElem.mp (List.nodup_flatMap.mp hnodup).2
  obtain ⟨hilt, rfl⟩ := List.getElem?_eq_some_iff.mp hi
  obtain ⟨hjlt, rfl⟩ := List.getElem?_eq_some_iff.mp hj
  rcases Nat.lt_trichotomy i j with hlt | heq | hgt
  · exact (hpairwise i j hilt hjlt hlt hid hid').elim
  · exact heq
  · exact (hpairwise j i hjlt hilt hgt hid' hid).elim

/-- What a handler holds or has departed from is its own. -/
theorem mem_heldBy_append_departedBy {await : Await} {id : Nat} :
    id ∈ heldBy await ++ departedBy await ↔ ∃ connection : LiveConnection, connection.id = id ∧
      (await.serving = some connection ∨ await.left = some connection) := by
  simp only [heldBy, departedBy, List.mem_append, Option.mem_toList, Option.map_eq_some_iff]
  constructor
  · rintro (⟨connection, h, hid⟩ | ⟨connection, h, hid⟩)
    · exact ⟨connection, hid, .inl h⟩
    · exact ⟨connection, hid, .inr h⟩
  · rintro ⟨connection, hid, h | h⟩
    · exact .inl ⟨connection, h, hid⟩
    · exact .inr ⟨connection, h, hid⟩

/-- A registered slot has one handler. -/
theorem owned (h : Accounted maxConnections s) {id : Nat} (hid : id ∈ s.registry.registered) :
    ∃! handler : Nat, ∃ (await : Await) (connection : LiveConnection),
      s.handlers[handler]? = some await ∧ connection.id = id ∧
        (await.serving = some connection ∨ await.left = some connection) := by
  have hmem : id ∈ s.handlers.flatMap fun await => heldBy await ++ departedBy await :=
    (List.flatMap_append_perm _ _ _).mem_iff.mp (h.registered.mem_iff.mp hid)
  obtain ⟨await, hawait, hid⟩ := List.mem_flatMap.mp hmem
  obtain ⟨handler, hat⟩ := List.mem_iff_getElem?.mp hawait
  obtain ⟨connection, hconnection, hone⟩ := mem_heldBy_append_departedBy.mp hid
  refine ⟨handler, ⟨await, connection, hat, hconnection, hone⟩, ?_⟩
  rintro other ⟨await', connection', hat', hconnection', hone'⟩
  exact h.handler_unique hat' hat
    (mem_heldBy_append_departedBy.mpr ⟨connection', hconnection', hone'⟩) hid

/-- Where `Accounted` holds, the slots are kept. -/
theorem slots (h : Accounted maxConnections s) : Slots maxConnections s := by
  obtain ⟨-, hdeparted, hdisjoint⟩ := List.nodup_append.mp h.nodup_held
  constructor
  · exact h.counted
  · exact h.bounded
  · intro await hmem connection hserving
    have hheld := mem_held hmem hserving
    refine ⟨h.keys.mem_iff.mpr hheld, List.count_eq_zero.mpr fun hremoved => ?_⟩
    exact hdisjoint _ hheld _ (h.removed.mem_iff.mp hremoved) rfl
  · intro await hmem connection hleft
    have hgone := mem_departed hmem hleft
    refine ⟨fun hkeys => hdisjoint _ (h.keys.mem_iff.mp hkeys) _ hgone rfl, ?_⟩
    rw [h.removed.count_eq]
    exact List.count_eq_one_of_mem hdeparted hgone
  · intro id hid
    exact h.owned hid

end Accounted

/-! ## Every run -/

/-- However the handlers interleave and end, the registry holds as many connections as handlers
    are between `add` and the finally block, never above its ceiling, and whatever it registered
    is with one handler, which gives it back once. -/
theorem slots_kept (deployment : Deployment) (maxConnections : { n : Nat // 1 ≤ n })
    {s : Endpoint} (h : (endpoint deployment maxConnections).Reachable s) :
    Slots maxConnections s := by
  have haccounted : Accounted maxConnections s :=
    h.invariant .init fun s event s' hs _ hstep => hs.step deployment hstep
  exact haccounted.slots

/-- Two clients at a ceiling of one: the second is refused, the first sends too much and is gone
    before the close. -/
def rush : List EndpointEvent :=
  [.connect none, .connect none, .resume 0 .returned none true, .resume 1 .returned none true,
    .resume 0 .returned none true, .resume 1 .returned none true,
    .resume 0 (.received ⟨none, 9⟩) none true, .resume 0 (.raised .disconnect) none false]

/-- Two handlers rush for one slot, and in the end it is free. -/
theorem slots_kept_rush :
    ∃ s, (endpoint ⟨false, 8, fun _ => none⟩ ⟨1, Nat.le_refl 1⟩).run rush = some s ∧
      s.handlers = [.done (some ⟨0, 0⟩) .returned, .done none .returned] ∧
      s.registry.connections = [] ∧ Slots ⟨1, Nat.le_refl 1⟩ s := by
  refine ⟨_, rfl, rfl, rfl, ?_⟩
  exact slots_kept ⟨false, 8, fun _ => none⟩ _ (Machine.reachable_of_run rush rfl)

end NexaAssist.Spec.ConnectionSlots
