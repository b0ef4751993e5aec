import NexaAssist.Core.Factories
import NexaAssist.ForStd.List
import NexaAssist.ForStd.Program
import NexaAssist.Jobs.Fleet
import NexaAssist.Jobs.RedisKeys

/-!
# One Redis server

The queue, the tickets and the rate limiter of a deployment are kept on one server, which other
applications may use as well. Each is answered, call by call and whoever calls in between, as if the
server were its own: no command of one meets a key of another.
-/

namespace NexaAssist.Spec.SharedServer

open NexaAssist PyJson RedisStore Jobs

/-! ## Keys -/

/-- What the queue has keys for. -/
inductive Slot
  | list (key : ListKey)
  | job (id : JobId)
  deriving DecidableEq

def Slot.key (ns : PyStr) : Slot → PyStr
  | .list key => listKey ns key
  | .job id => jobKey ns id

def ticketKey (ns ticket : PyStr) : PyStr := RedisTicketStore.key (ticketNamespace ns) ticket

/-- A counter's key, by what stands after the limiter's namespace. -/
def counterKey (ns rest : PyStr) : PyStr := limiterNamespace ns ++ lit ":" ++ rest

/-- Nothing of the deployment. -/
def Outside (ns key : PyStr) : Prop := ¬(ns ++ lit ":") <+: key

section Keys

variable {ns : PyStr}

/-- What stands after the separator tells whose a key is. -/
def mark (ns key : PyStr) : Option CodePoint := (key.drop ns.length)[1]?

/-- `mark` reads the first character behind the colon. -/
theorem mark_append (ns rest : PyStr) : mark ns (ns ++ rest) = rest[1]? := by
  rw [mark, List.drop_left]

/-- A key that goes on with a colon is in the namespace. -/
theorem prefix_append {rest : PyStr} (h : rest.head? = some 0x3a) :
    (ns ++ lit ":") <+: ns ++ rest := by
  cases rest with
  | nil => cases h
  | cons c rest =>
    cases h
    exact ⟨rest, List.append_assoc ns (lit ":") rest⟩

/-- The keys of the lists are marked `p` and `d`. -/
theorem mark_list (key : ListKey) :
    mark ns (listKey ns key) = some 0x70 ∨ mark ns (listKey ns key) = some 0x64 := by
  cases key with
  | pending => exact .inl (mark_append ns _)
  | processing => exact .inl (mark_append ns _)
  | dead => exact .inr (mark_append ns _)

/-- The key of a job is marked `j`. -/
theorem mark_job (id : JobId) : mark ns (jobKey ns id) = some 0x6a := by
  rw [jobKey, List.append_assoc, mark_append]
  rfl

/-- The key of a ticket is marked `t`. -/
theorem mark_ticket (ticket : PyStr) : mark ns (ticketKey ns ticket) = some 0x74 := by
  rw [ticketKey, RedisTicketStore.key, ticketNamespace, List.append_assoc, List.append_assoc,
    mark_append]
  rfl

/-- The key of a counter is marked `r`. -/
theorem mark_counter (rest : PyStr) : mark ns (counterKey ns rest) = some 0x72 := by
  rw [counterKey, limiterNamespace, List.append_assoc, List.append_assoc, mark_append]
  rfl

/-- The keys of the queue have one of its three marks. -/
theorem mark_slot (slot : Slot) :
    mark ns (slot.key ns) = some 0x70 ∨ mark ns (slot.key ns) = some 0x64 ∨
      mark ns (slot.key ns) = some 0x6a := by
  cases slot with
  | list key => exact (mark_list key).imp_right .inl
  | job id => exact .inr (.inr (mark_job id))

/-- The keys of the queue are in the namespace. -/
theorem prefix_slot (slot : Slot) : (ns ++ lit ":") <+: slot.key ns := by
  cases slot with
  | list key => cases key <;> exact prefix_append rfl
  | job id =>
    rw [Slot.key, jobKey, List.append_assoc]
    exact prefix_append rfl

/-- The keys of the tickets begin with the namespace and a colon. -/
theorem prefix_ticket (ticket : PyStr) : (ns ++ lit ":") <+: ticketKey ns ticket := by
  rw [ticketKey, RedisTicketStore.key, ticketNamespace, List.append_assoc, List.append_assoc]
  exact prefix_append rfl

/-- The keys of the counters begin with the namespace and a colon. -/
theorem prefix_counter (rest : PyStr) : (ns ++ lit ":") <+: counterKey ns rest := by
  rw [counterKey, limiterNamespace, List.append_assoc, List.append_assoc]
  exact prefix_append rfl

/-! ### Names are distinct -/

/-- `ticketKey` gives two tickets two keys. -/
theorem ticketKey_injective : Function.Injective (ticketKey ns) := by
  intro a b h
  exact List.append_cancel_left h

/-- `counterKey` gives two counters two keys. -/
theorem counterKey_injective : Function.Injective (counterKey ns) := by
  intro a b h
  exact List.append_cancel_left h

/-- `Slot.key` gives two slots of the queue two keys. -/
theorem slotKey_injective : Function.Injective (Slot.key ns) := by
  intro a b h
  cases a with
  | list key =>
    cases b with
    | list other =>
      have hrest : ∀ a b : ListKey, listKey [] a = listKey [] b → a = b := by
        intro a b hab
        cases a <;> cases b <;> first | rfl | exact absurd hab (by decide)
      have happend : ∀ key, listKey ns key = ns ++ listKey [] key := by
        intro key
        cases key <;> rfl
      rw [Slot.key, Slot.key, happend, happend] at h
      rw [hrest key other (List.append_cancel_left h)]
    | job id =>
      have hmark := @mark_list ns key
      rw [show listKey ns key = jobKey ns id from h, mark_job] at hmark
      exact absurd hmark (by decide)
  | job id =>
    cases b with
    | list key =>
      have hmark := @mark_list ns key
      rw [show listKey ns key = jobKey ns id from h.symm, mark_job] at hmark
      exact absurd hmark (by decide)
    | job other => rw [Subtype.ext (List.append_cancel_left h)]

end Keys

/-! ## What is stored -/

/-- The queue's lists and jobs, as a server has them. -/
def queueEntries (queue : RedisServer PyStr) : Slot → Option Entry
  | .list key => listEntry ((queue.lists key).map Subtype.val) none
  | .job id => (queue.jobs id).map fun raw => { value := .string raw }

def ticketEntries (ns : PyStr) (tickets : RedisTicketStore) (ticket : PyStr) : Option Entry :=
  (tickets.server.keys (ticketKey ns ticket)).map fun issued =>
    { value := .string issued.1.val, expiresAt := some issued.2 }

def counterEntries (ns : PyStr) (counters : RedisCounters) (rest : PyStr) : Option Entry :=
  (counters.counters (counterKey ns rest)).map fun counter =>
    { value := .string (JsonText.intText counter.1), expiresAt := counter.2 }

/-! ## The queue -/

section Queue

variable {ns : PyStr} {store : Store} {queue : RedisServer PyStr}

/-- `itemsOf` reads back what `listEntry` writes, the empty list too. -/
@[simp]
theorem itemsOf_listEntry (items : List PyStr) :
    itemsOf (listEntry items none) = .ok (items, none) := by
  unfold listEntry
  split
  · rename_i hnil
    rw [hnil]
    rfl
  · rfl

/-- No entry of the queue expires. -/
theorem liveOf_queueEntries (clock : Rat) (slot : Slot) :
    liveOf clock (queueEntries queue slot) = queueEntries queue slot := by
  cases slot with
  | list key =>
    simp only [queueEntries, listEntry]
    split
    · rfl
    · rfl
  | job id =>
    simp only [queueEntries]
    cases queue.jobs id with
    | none => rfl
    | some raw => rfl

/-- What is live under a key of the queue is the entry of its slot. -/
theorem live_slot (h : Named (Slot.key ns) store (queueEntries queue)) (slot : Slot) :
    store.live (slot.key ns) = queueEntries queue slot := by
  rw [h.live, liveOf_queueEntries]

/-- `itemsOf` reads from the store the list that the queue has. -/
theorem live_list (h : Named (Slot.key ns) store (queueEntries queue)) (key : ListKey) :
    itemsOf (store.live (listKey ns key)) = .ok ((queue.lists key).map Subtype.val, none) := by
  have hlive : store.live (listKey ns key) = queueEntries queue (.list key) :=
    live_slot h (.list key)
  rw [hlive, queueEntries, itemsOf_listEntry]

/-- `textOf` reads from the store the text of the job that the queue has. -/
theorem live_job (h : Named (Slot.key ns) store (queueEntries queue)) (id : JobId) :
    textOf (store.live (jobKey ns id)) = .ok (queue.jobs id) := by
  have hlive : store.live (jobKey ns id) = queueEntries queue (.job id) :=
    live_slot h (.job id)
  rw [hlive, queueEntries]
  cases queue.jobs id <;> rfl

/-- `set` writes one entry, that of the job. -/
theorem queueEntries_set (id : JobId) (raw : PyStr) :
    queueEntries (queue.set id raw) =
      Function.update (queueEntries queue) (.job id) (some { value := .string raw }) := by
  funext slot
  cases slot with
  | list key => rfl
  | job other =>
    by_cases heq : other = id
    · subst heq
      rw [Function.update_self]
      simp only [queueEntries, RedisServer.set, if_true, Option.map_some]
    · rw [Function.update_of_ne fun h => heq (Slot.job.inj h)]
      simp only [queueEntries, RedisServer.set, if_neg heq]

/-- `setList` writes one entry, that of the list. -/
theorem queueEntries_setList (key : ListKey) (ids : List JobId) :
    queueEntries (queue.setList key ids) =
      Function.update (queueEntries queue) (.list key)
        (listEntry (ids.map Subtype.val) none) := by
  funext slot
  cases slot with
  | job id => rfl
  | list other =>
    by_cases heq : other = key
    · subst heq
      rw [Function.update_self]
      simp only [queueEntries, RedisServer.setList, if_true]
    · rw [Function.update_of_ne fun h => heq (Slot.list.inj h)]
      simp only [queueEntries, RedisServer.setList, if_neg heq]

/-- A `SET` on the store is `set` on the queue. -/
theorem named_set (h : Named (Slot.key ns) store (queueEntries queue)) (id : JobId)
    (raw : PyStr) :
    Named (Slot.key ns) (store.put (jobKey ns id) (some { value := .string raw }))
      (queueEntries (queue.set id raw)) := by
  rw [queueEntries_set]
  exact h.put slotKey_injective (.job id) _

/-- A list that is put back in the store is `setList` on the queue. -/
theorem named_setList (h : Named (Slot.key ns) store (queueEntries queue)) (key : ListKey)
    (ids : List JobId) :
    Named (Slot.key ns) (store.put (listKey ns key) (listEntry (ids.map Subtype.val) none))
      (queueEntries (queue.setList key ids)) := by
  rw [queueEntries_setList]
  exact h.put slotKey_injective (.list key) _

/-- `RPUSH` on the store is `rpush` on the queue. -/
theorem runOp_rpush (h : Named (Slot.key ns) store (queueEntries queue)) (key : ListKey)
    (id : JobId) : ∃ reply, (store.runOp (.rpush (listKey ns key) id.val)).1 = .ok reply ∧
      Named (Slot.key ns) (store.runOp (.rpush (listKey ns key) id.val)).2
        (queueEntries (queue.rpush key id)) := by
  have hpush := named_setList h key (queue.lists key ++ [id])
  rw [List.map_append] at hpush
  simp only [Store.runOp, Store.visit, Op.key, Op.look, onList, live_list h]
  exact ⟨_, rfl, hpush⟩

/-- `runOp` of a command of a pipeline answers and writes as the queue does. -/
theorem runOp_queue (h : Named (Slot.key ns) store (queueEntries queue)) (op : PipeOp PyStr) :
    ∃ reply, (store.runOp (op.command ns)).1 = .ok reply ∧
      Named (Slot.key ns) (store.runOp (op.command ns)).2 (queueEntries (queue.runOp op)) := by
  cases op with
  | set id raw => exact ⟨_, rfl, named_set h id raw⟩
  | lrem key id =>
    have hrem := named_setList h key ((queue.lists key).erase id)
    rw [List.map_erase Subtype.val_injective] at hrem
    simp only [PipeOp.command, Store.runOp, Store.visit, Op.key, Op.look, onList, live_list h]
    exact ⟨_, rfl, hrem⟩
  | rpush key id => exact runOp_rpush h key id

/-- A pipeline on the store is the pipeline on the queue. -/
theorem runOps_queue (h : Named (Slot.key ns) store (queueEntries queue))
    (ops : List (PipeOp PyStr)) :
    ∃ replies, (store.runOps (ops.map (PipeOp.command ns))).1 = .ok replies ∧
      Named (Slot.key ns) (store.runOps (ops.map (PipeOp.command ns))).2
        (queueEntries (ops.foldl RedisServer.runOp queue)) := by
  induction ops generalizing store queue with
  | nil => exact ⟨[], rfl, h⟩
  | cons op ops ih =>
    obtain ⟨reply, hreply, hafter⟩ := runOp_queue h op
    obtain ⟨replies, hreplies, hlast⟩ := ih hafter
    refine ⟨reply :: replies, ?_, hlast⟩
    rw [List.map_cons, Store.runOps]
    simp only [hreply, hreplies]
    rfl

/-- `readId` reads back what the queue has pushed. -/
@[simp]
theorem readId_val (id : JobId) : readId id.val = .ok id := dif_pos id.property

/-- `readId` reads back a whole list of ids. -/
theorem mapM_readId (ids : List JobId) : (ids.map Subtype.val).mapM readId = .ok ids := by
  rw [List.mapM_eq_ok_iff, List.forall₂_map_left_iff]
  exact List.forall₂_same.mpr fun id _ => readId_val id

/-- `send` of a command of the queue answers as the queue does, and leaves the store with what the
    queue then has. -/
theorem send_queue (h : Named (Slot.key ns) store (queueEntries queue)) (c : Cmd PyStr) :
    (c.send ns store).1 = .ok (queue.exec c).1 ∧
      Named (Slot.key ns) (c.send ns store).2 (queueEntries (queue.exec c).2) := by
  cases c with
  | lmove src dst =>
    simp only [Cmd.send, Cmd.command, Store.exec, RedisServer.exec, RedisServer.lmove,
      live_list h]
    cases hsrc : queue.lists src with
    | nil => exact ⟨rfl, h⟩
    | cons id rest =>
      -- It is taken from the one list, and then put at the end of the other
      obtain ⟨-, -, hpushed⟩ := runOp_rpush (named_setList h src rest) dst id
      refine ⟨?_, hpushed⟩
      show (readId id.val).map some = .ok (some id)
      rw [readId_val]
      rfl
  -- The reads answer from the named keys and change none
  | get id =>
    simp only [Cmd.send, Cmd.command, Store.exec, RedisServer.exec, live_job h]
    exact ⟨rfl, h⟩
  | set id raw => exact ⟨rfl, named_set h id raw⟩
  | llen key =>
    simp only [Cmd.send, Cmd.command, Store.exec, RedisServer.exec, live_list h]
    exact ⟨congrArg Except.ok (List.length_map _), h⟩
  | lrange key =>
    simp only [Cmd.send, Cmd.command, Store.exec, RedisServer.exec, live_list h]
    exact ⟨mapM_readId _, h⟩
  | mget ids =>
    refine ⟨?_, h⟩
    show Except.ok _ = Except.ok _
    rw [List.map_map]
    refine congrArg Except.ok (List.map_congr_left fun id _ => ?_)
    rw [Function.comp_apply, live_job h]
    rfl
  | execute ops =>
    obtain ⟨replies, hreplies, hlast⟩ := runOps_queue h ops
    refine ⟨?_, hlast⟩
    show readReply _ (store.runOps _).1 = _
    rw [hreplies]
    rfl

end Queue

/-! ## Tickets -/

section Tickets

variable {ns : PyStr} {store : Store} {tickets : RedisTicketStore}

/-- `set(self._key(ticket), subject, ex=self._ttl)`. -/
def issueCommand (ns : PyStr) (ttl : TicketTtl) (ticket : PyStr) (subject : Text) : Command :=
  .setEx (ticketKey ns ticket) subject.val ttl.val

/-- `getdel(self._key(ticket))`. -/
def redeemCommand (ns ticket : PyStr) : Command := .getDel (ticketKey ns ticket)

/-- Where one ticket has changed, one entry has. -/
theorem ticketEntries_eq (other : RedisTicketStore) (ticket : PyStr) (entry : Option Entry)
    (hself : ticketEntries ns other ticket = entry)
    (hothers : ∀ key, key ≠ ticketKey ns ticket → other.server.keys key = tickets.server.keys key) :
    ticketEntries ns other = Function.update (ticketEntries ns tickets) ticket entry := by
  funext t
  by_cases heq : t = ticket
  · rw [heq, Function.update_self, hself]
  · rw [Function.update_of_ne heq, ticketEntries, ticketEntries,
      hothers _ fun h => heq (ticketKey_injective h)]

/-- `SET EX NX` on the store is `issue` on the tickets. -/
theorem exec_issue (h : Named (ticketKey ns) store (ticketEntries ns tickets)) (ttl : TicketTtl)
    (ticket : PyStr) (subject : Text) :
    (store.exec (issueCommand ns ttl ticket subject)).1 = .ok () ∧
      Named (ticketKey ns) (store.exec (issueCommand ns ttl ticket subject)).2
        (ticketEntries ns (tickets.issue (ticketNamespace ns) ttl ticket subject store.clock)) := by
  refine ⟨rfl, ?_⟩
  rw [@ticketEntries_eq ns tickets _ ticket _ rfl fun key hkey => if_neg hkey]
  have hself : ticketEntries ns
      (tickets.issue (ticketNamespace ns) ttl ticket subject store.clock) ticket =
        some { value := .string subject.val, expiresAt := some (store.clock + ttl.val) } := by
    rw [ticketEntries]
    simp only [RedisTicketStore.issue, ExpiringKeys.setEx, ticketKey, if_true, Option.map_some]
  rw [hself]
  exact h.put ticketKey_injective ticket _

/-- `GETDEL` on the store is `redeem` on the tickets. -/
theorem exec_redeem (h : Named (ticketKey ns) store (ticketEntries ns tickets))
    (ticket : PyStr) :
    (store.exec (redeemCommand ns ticket)).1 =
        .ok ((tickets.redeem (ticketNamespace ns) ticket store.clock).1.map Subtype.val) ∧
      Named (ticketKey ns) (store.exec (redeemCommand ns ticket)).2
        (ticketEntries ns (tickets.redeem (ticketNamespace ns) ticket store.clock).2) := by
  have hdel := h.put ticketKey_injective ticket none
  have hlive := h.live ticket
  simp only [redeemCommand, Store.exec, Store.visit, getDel, hlive]
  unfold RedisTicketStore.redeem ExpiringKeys.getDel ticketEntries
  rw [show RedisTicketStore.key (ticketNamespace ns) ticket = ticketKey ns ticket from rfl]
  cases hentry : tickets.server.keys (ticketKey ns ticket) with
  | none =>
    refine ⟨rfl, ?_⟩
    -- There was nothing to delete
    have hsame := @ticketEntries_eq ns tickets tickets ticket none
      (by rw [ticketEntries, hentry]; rfl) fun _ _ => rfl
    rw [← hsame] at hdel
    exact hdel
  | some issued =>
    obtain ⟨subject, expiresAt⟩ := issued
    have hpopped := @ticketEntries_eq ns tickets
      { server := { keys := fun k => if k = ticketKey ns ticket then none
                                     else tickets.server.keys k } } ticket none
      (by simp only [ticketEntries, if_true, Option.map_none]) fun key hkey => if_neg hkey
    rw [← hpopped] at hdel
    -- A ticket past its time is deleted all the same, and named no more
    by_cases htime : store.clock < expiresAt
    · have hfound : liveOf store.clock
          ((some (subject, expiresAt)).map fun issued : Text × Rat =>
            { value := Value.string issued.1.val, expiresAt := some issued.2 }) =
          some { value := .string subject.val, expiresAt := some expiresAt } := by
        simp [liveOf, htime]
      simp only [hfound, textOf, htime, if_true]
      exact ⟨rfl, hdel⟩
    · have hlost : liveOf store.clock
          ((some (subject, expiresAt)).map fun issued : Text × Rat =>
            { value := Value.string issued.1.val, expiresAt := some issued.2 }) = none := by
        simp [liveOf, htime]
      simp only [hlost, textOf, htime, if_false]
      exact ⟨rfl, hdel⟩

end Tickets

/-! ## The limiter -/

section Counters

variable {ns : PyStr} {store : Store} {counters : RedisCounters}

/-- The pipeline of `check`: `incr(counter)` and `expire(counter, self._window, nx=True)`. -/
def countCommand (ns : PyStr) (config : RateLimit) (subject : PyStr) (window : Int) : Command :=
  .multi [.incr (RedisRateLimiter.key (limiterNamespace ns) subject window),
    .expireNx (RedisRateLimiter.key (limiterNamespace ns) subject window) config.windowSeconds]

/-- `int((await pipe.execute())[0])`. -/
def readCount : List OpReply → Except CallFault Int
  | .int used :: _ => .ok used
  | _ => .error .unreadable

/-- What stands after the limiter's namespace in the key of a window. -/
def counterRest (subject : PyStr) (window : Int) : PyStr :=
  subject ++ lit ":" ++ .ofString (toString window)

/-- `RedisRateLimiter.key` is the key of a counter. -/
theorem key_eq (subject : PyStr) (window : Int) :
    RedisRateLimiter.key (limiterNamespace ns) subject window =
      counterKey ns (counterRest subject window) := by
  simp only [RedisRateLimiter.key, counterKey, counterRest, List.append_assoc]

/-- Where one counter has changed, one entry has. -/
theorem counterEntries_eq (other : RedisCounters) (rest : PyStr) (entry : Option Entry)
    (hself : counterEntries ns other rest = entry)
    (hothers : ∀ key, key ≠ counterKey ns rest → other.counters key = counters.counters key) :
    counterEntries ns other = Function.update (counterEntries ns counters) rest entry := by
  funext r
  by_cases heq : r = rest
  · rw [heq, Function.update_self, hself]
  · rw [Function.update_of_ne heq, counterEntries, counterEntries,
      hothers _ fun h => heq (counterKey_injective h)]

/-- The command that counts a check counts it as the limiter's own server does. -/
theorem exec_count (h : Named (counterKey ns) store (counterEntries ns counters))
    (config : RateLimit) (subject : PyStr) (window : Int) :
    readReply readCount (store.exec (countCommand ns config subject window)).1 =
        .ok ((counters.incrExpireNx (RedisRateLimiter.key (limiterNamespace ns) subject window)
          config.windowSeconds store.clock).1 : Int) ∧
      Named (counterKey ns) (store.exec (countCommand ns config subject window)).2
        (counterEntries ns (counters.incrExpireNx
          (RedisRateLimiter.key (limiterNamespace ns) subject window)
          config.windowSeconds store.clock).2) := by
  have hlive := h.live (counterRest subject window)
  have hcounter : liveOf store.clock (counterEntries ns counters (counterRest subject window)) =
      (counters.live (counterKey ns (counterRest subject window)) store.clock).map
        fun counter => { value := .string (JsonText.intText counter.1), expiresAt := counter.2 } := by
    rw [liveOf, counterEntries, RedisCounters.live, Option.filter_map]
    rfl
  simp only [countCommand, Store.exec, key_eq]
  generalize counterRest subject window = rest at hlive hcounter ⊢
  rw [hcounter] at hlive
  -- A counter that is not there counts from zero, and is not forgotten yet
  have hfound : store.live (counterKey ns rest) = none ∧
        ((counters.live (counterKey ns rest) store.clock).getD (0, none)).1 = 0 ∧
        ((counters.live (counterKey ns rest) store.clock).getD (0, none)).2 = none ∨
      store.live (counterKey ns rest) = some ⟨.string (JsonText.intText
        ((counters.live (counterKey ns rest) store.clock).getD (0, none)).1),
        ((counters.live (counterKey ns rest) store.clock).getD (0, none)).2⟩ := by
    rw [hlive]
    cases counters.live (counterKey ns rest) store.clock with
    | none => exact .inl ⟨rfl, rfl, rfl⟩
    | some counter => exact .inr rfl
  obtain ⟨last, hrun⟩ := runOps_count config.windowSeconds hfound
  rw [hrun]
  refine ⟨?_, ?_⟩
  · simp only [readReply, readCount, RedisCounters.incrExpireNx]
    push_cast
    rfl
  -- Its expiry is that of the first count
  · have hput := h.put counterKey_injective rest (some ⟨.string (JsonText.intText
      (((counters.live (counterKey ns rest) store.clock).getD (0, none)).1 + 1)),
      some (((counters.live (counterKey ns rest) store.clock).getD (0, none)).2.getD
        (store.clock + config.windowSeconds))⟩)
    rw [← @counterEntries_eq ns counters (counters.incrExpireNx (counterKey ns rest)
      config.windowSeconds store.clock).2 rest _ ?_ fun key hkey => if_neg hkey] at hput
    · exact hput
    · simp only [counterEntries, RedisCounters.incrExpireNx, if_true, Option.map_some]
      push_cast
      rfl

end Counters

/-! ## Whose keys are whose -/

inductive Part
  | queue
  | tickets
  | limiter
  | others
  deriving DecidableEq

/-- The keys of a part. -/
def Part.Owns (ns : PyStr) : Part → PyStr → Prop
  | .queue, key => ∃ slot, key = Slot.key ns slot
  | .tickets, key => ∃ ticket, key = ticketKey ns ticket
  | .limiter, key => ∃ rest, key = counterKey ns rest
  | .others, key => Outside ns key

/-- The part that a key is of: three begin with the namespace, and the next letter tells them
    apart. -/
def Part.ofKey (ns key : PyStr) : Part :=
  if (ns ++ lit ":") <+: key then
    if mark ns key = some 0x74 then .tickets
    else if mark ns key = some 0x72 then .limiter
    else .queue
  else .others

section Owns

variable {ns key : PyStr} {p q : Part}

/-- `ofKey` finds the part that owns a key. -/
theorem ofKey_owns (h : p.Owns ns key) : Part.ofKey ns key = p := by
  unfold Part.ofKey
  cases p with
  | queue =>
    obtain ⟨slot, rfl⟩ := h
    rw [if_pos (prefix_slot slot)]
    obtain hmark | hmark | hmark := @mark_slot ns slot
    · rw [hmark, if_neg (by decide), if_neg (by decide)]
    · rw [hmark, if_neg (by decide), if_neg (by decide)]
    · rw [hmark, if_neg (by decide), if_neg (by decide)]
  | tickets =>
    obtain ⟨ticket, rfl⟩ := h
    rw [if_pos (prefix_ticket ticket), if_pos (mark_ticket ticket)]
  | limiter =>
    obtain ⟨rest, rfl⟩ := h
    rw [if_pos (prefix_counter rest), mark_counter, if_neg (by decide), if_pos rfl]
  | others => rw [if_neg h]

/-- No key is owned by two parts. -/
theorem owns_unique (hp : p.Owns ns key) (hq : q.Owns ns key) : p = q :=
  (ofKey_owns hp).symm.trans (ofKey_owns hq)

/-- A command on the keys of one part leaves the keys of another. -/
theorem untouched_of_owns {c : Command} (hkeys : ∀ key ∈ c.keys, p.Owns ns key) (hne : q ≠ p)
    (store : Store) : Untouched (q.Owns ns) store (store.exec c).2 :=
  untouched_exec (fun key hkey hq => hne (owns_unique hq (hkeys key hkey))) store

/-- The commands of the queue touch its own keys only. -/
theorem owns_queue (c : Cmd PyStr) : ∀ key ∈ (c.command ns).keys, Part.queue.Owns ns key := by
  cases c with
  | lmove src dst =>
    rintro key (_ | ⟨_, _ | ⟨_, h⟩⟩)
    · exact ⟨.list src, rfl⟩
    · exact ⟨.list dst, rfl⟩
    · cases h
  | get id =>
    rintro key hkey
    exact ⟨.job id, List.mem_singleton.mp hkey⟩
  | set id raw =>
    rintro key hkey
    exact ⟨.job id, List.mem_singleton.mp hkey⟩
  | llen list =>
    rintro key hkey
    exact ⟨.list list, List.mem_singleton.mp hkey⟩
  | lrange list =>
    rintro key hkey
    exact ⟨.list list, List.mem_singleton.mp hkey⟩
  | mget ids =>
    intro key hkey
    obtain ⟨id, -, rfl⟩ := List.mem_map.mp hkey
    exact ⟨.job id, rfl⟩
  | execute ops =>
    intro key hkey
    obtain ⟨op, hop, rfl⟩ := List.mem_map.mp hkey
    obtain ⟨op, -, rfl⟩ := List.mem_map.mp hop
    cases op with
    | set id raw => exact ⟨.job id, rfl⟩
    | lrem list id => exact ⟨.list list, rfl⟩
    | rpush list id => exact ⟨.list list, rfl⟩

/-- `issue` touches a key of the tickets. -/
theorem owns_issue (ttl : TicketTtl) (ticket : PyStr) (subject : Text) :
    ∀ key ∈ (issueCommand ns ttl ticket subject).keys, Part.tickets.Owns ns key :=
  fun _ hkey => ⟨ticket, List.mem_singleton.mp hkey⟩

/-- The command of `redeem` touches keys of the tickets only. -/
theorem owns_redeem (ticket : PyStr) :
    ∀ key ∈ (redeemCommand ns ticket).keys, Part.tickets.Owns ns key :=
  fun _ hkey => ⟨ticket, List.mem_singleton.mp hkey⟩

/-- The command that counts a check touches keys of the limiter only. -/
theorem owns_count (config : RateLimit) (subject : PyStr) (window : Int) :
    ∀ key ∈ (countCommand ns config subject window).keys, Part.limiter.Owns ns key := by
  rintro key (_ | ⟨_, _ | ⟨_, h⟩⟩)
  · exact ⟨_, key_eq subject window⟩
  · exact ⟨_, key_eq subject window⟩
  · cases h

end Owns

/-! ## Calls -/

/-- A call of the server: of the deployment, in whatever process, or of another application. -/
inductive Request (ns : PyStr)
  | queue (c : Cmd PyStr)
  | issue (ticket : PyStr) (subject : Text)
  | redeem (ticket : PyStr)
  | count (subject : PyStr) (window : Int)
  | other (c : Command) (outside : ∀ key ∈ c.keys, Outside ns key)
  | tick (clock : Rat)

def Request.Reply {ns : PyStr} : Request ns → Type
  | .queue c => c.Reply
  | .issue _ _ => Unit
  | .redeem _ => Option PyStr
  | .count _ _ => Int
  | .other c _ => c.Reply
  | .tick _ => Unit

section Handle

variable (ns : PyStr) (ttl : TicketTtl) (config : RateLimit)

/-- The one server. -/
def handle : (r : Request ns) → Store → Except CallFault r.Reply × Store
  | .queue c, store => c.send ns store
  | .issue ticket subject, store =>
    (readReply .ok (store.exec (issueCommand ns ttl ticket subject)).1,
      (store.exec (issueCommand ns ttl ticket subject)).2)
  | .redeem ticket, store =>
    (readReply .ok (store.exec (redeemCommand ns ticket)).1,
      (store.exec (redeemCommand ns ticket)).2)
  | .count subject window, store =>
    (readReply readCount (store.exec (countCommand ns config subject window)).1,
      (store.exec (countCommand ns config subject window)).2)
  | .other c _, store => (readReply .ok (store.exec c).1, (store.exec c).2)
  | .tick clock, store => (.ok (), store.tick clock)

/-- A server for each, and one for whoever else there is. -/
structure Apart where
  clock : Rat
  queue : RedisServer PyStr
  tickets : RedisTicketStore
  counters : RedisCounters
  others : Store

def Apart.handle : (r : Request ns) → Apart → Except CallFault r.Reply × Apart
  | .queue c, apart => (.ok (apart.queue.exec c).1, { apart with queue := (apart.queue.exec c).2 })
  | .issue ticket subject, apart =>
    (.ok (), { apart with
      tickets := apart.tickets.issue (ticketNamespace ns) ttl ticket subject apart.clock })
  | .redeem ticket, apart =>
    let redeemed := apart.tickets.redeem (ticketNamespace ns) ticket apart.clock
    (.ok (redeemed.1.map Subtype.val), { apart with tickets := redeemed.2 })
  | .count subject window, apart =>
    let counted := apart.counters.incrExpireNx
      (RedisRateLimiter.key (limiterNamespace ns) subject window) config.windowSeconds apart.clock
    (.ok (counted.1 : Int), { apart with counters := counted.2 })
  | .other c _, apart =>
    (readReply .ok (apart.others.exec c).1, { apart with others := (apart.others.exec c).2 })
  | .tick clock, apart => (.ok (), { apart with clock, others := apart.others.tick clock })

/-- What the one server holds of each. -/
structure Shares (store : Store) (apart : Apart) : Prop where
  clock : store.clock = apart.clock
  queue : Named (Slot.key ns) store (queueEntries apart.queue)
  tickets : Named (ticketKey ns) store (ticketEntries ns apart.tickets)
  counters : Named (counterKey ns) store (counterEntries ns apart.counters)
  others : AgreeOn (Outside ns) store apart.others

end Handle

section Lockstep

variable {ns : PyStr} {ttl : TicketTtl} {config : RateLimit} {store : Store} {apart : Apart}

/-- What a part holds is kept by a command of another part. -/
theorem Shares.kept (h : Shares ns store apart) {p : Part} {c : Command}
    (hkeys : ∀ key ∈ c.keys, p.Owns ns key) :
    (store.exec c).2.clock = apart.clock ∧
      (p ≠ .queue → Named (Slot.key ns) (store.exec c).2 (queueEntries apart.queue)) ∧
      (p ≠ .tickets → Named (ticketKey ns) (store.exec c).2 (ticketEntries ns apart.tickets)) ∧
      (p ≠ .limiter → Named (counterKey ns) (store.exec c).2 (counterEntries ns apart.counters)) ∧
      (p ≠ .others → AgreeOn (Outside ns) (store.exec c).2 apart.others) := by
  have huntouched : ∀ q, p ≠ q → Untouched (q.Owns ns) store (store.exec c).2 :=
    fun q hq => untouched_of_owns hkeys (Ne.symm hq) store
  refine ⟨?_, ?_, ?_, ?_, ?_⟩
  · -- some part is another one
    have hclock : ∃ q, p ≠ q := by
      cases p with
      | queue => exact ⟨.tickets, by decide⟩
      | tickets | limiter | others => exact ⟨.queue, by decide⟩
    obtain ⟨q, hq⟩ := hclock
    exact (huntouched q hq).clock.trans h.clock
  · exact fun hq => h.queue.of_untouched (huntouched .queue hq) fun slot => ⟨slot, rfl⟩
  · exact fun hq => h.tickets.of_untouched (huntouched .tickets hq) fun ticket => ⟨ticket, rfl⟩
  · exact fun hq => h.counters.of_untouched (huntouched .limiter hq) fun rest => ⟨rest, rfl⟩
  · exact fun hq => h.others.of_untouched (huntouched .others hq)

/-- `handle` answers a call as the three servers do, and keeps `Shares`. -/
theorem handle_lockstep (r : Request ns) (store : Store) (apart : Apart)
    (h : Shares ns store apart) :
    (handle ns ttl config r store).1 = (Apart.handle ns ttl config r apart).1 ∧
      Shares ns (handle ns ttl config r store).2 (Apart.handle ns ttl config r apart).2 := by
  cases r with
  | queue c =>
    obtain ⟨hreply, hqueue⟩ := send_queue h.queue c
    obtain ⟨hclock, -, htickets, hcounters, hothers⟩ := h.kept (owns_queue c)
    exact ⟨hreply, hclock, hqueue, htickets (by decide), hcounters (by decide),
      hothers (by decide)⟩
  | issue ticket subject =>
    obtain ⟨hreply, htickets⟩ := exec_issue h.tickets ttl ticket subject
    obtain ⟨hclock, hqueue, -, hcounters, hothers⟩ := h.kept (owns_issue ttl ticket subject)
    rw [h.clock] at htickets
    exact ⟨rfl, hclock, hqueue (by decide), htickets, hcounters (by decide), hothers (by decide)⟩
  | redeem ticket =>
    obtain ⟨hreply, htickets⟩ := exec_redeem h.tickets ticket
    obtain ⟨hclock, hqueue, -, hcounters, hothers⟩ := h.kept (owns_redeem ticket)
    rw [h.clock] at htickets hreply
    exact ⟨congrArg (readReply Except.ok) hreply, hclock, hqueue (by decide), htickets,
      hcounters (by decide), hothers (by decide)⟩
  | count subject window =>
    obtain ⟨hreply, hcounters⟩ := exec_count h.counters config subject window
    obtain ⟨hclock, hqueue, htickets, -, hothers⟩ := h.kept (owns_count config subject window)
    rw [h.clock] at hcounters hreply
    exact ⟨hreply, hclock, hqueue (by decide), htickets (by decide), hcounters,
      hothers (by decide)⟩
  -- A foreign command touches none of the three, and they none of its keys
  | other c outside =>
    obtain ⟨hreply, hothers⟩ := h.others.exec outside
    obtain ⟨hclock, hqueue, htickets, hcounters, -⟩ := h.kept (p := .others) outside
    exact ⟨congrArg (readReply Except.ok) hreply, hclock, hqueue (by decide),
      htickets (by decide), hcounters (by decide), hothers⟩
  | tick clock =>
    exact ⟨rfl, rfl, h.queue.tick clock, h.tickets.tick clock, h.counters.tick clock,
      h.others.tick clock⟩

/-- A method of the queue, on the server: a fault of the server is told as the queue being
    unavailable. -/
def ofProg {α : Type} : Prog PyStr α →
    Program (Request ns) Request.Reply CallFault (Except QueueError α)
  | .done result => .ret (.ok result)
  | .trip c next => .call (.queue c) fun
    | .ok reply => ofProg (next reply)
    | .error (.server _) => .ret (.ok (.error queueUnavailable))
    | .error .unreadable => .ret (.error .unreadable)

/-- A method of the queue ends on the store as it does on a queue. -/
theorem run_ofProg {α : Type} (p : Prog PyStr α) (apart : Apart) :
    (ofProg p).run (Apart.handle ns ttl config) apart =
      (.ok (p.runOn apart.queue).1, { apart with queue := (p.runOn apart.queue).2 }) := by
  induction p generalizing apart with
  | done result => rfl
  | trip c next ih =>
    rw [ofProg, Program.run_call]
    exact ih (apart.queue.exec c).1 { apart with queue := (apart.queue.exec c).2 }

end Lockstep

/-! ## The promise -/

/-- Where settings keep a part in Redis. -/
inductive Kept (settings : Config.Settings) : RedisAt → Prop
  | queue {server : RedisAt} (h : buildJobQueue settings = .ok (.redis server)) :
      Kept settings server
  | tickets {server : RedisAt} {ttl : TicketTtl}
      (h : buildTicketStore settings = .ok (.redis server ttl)) : Kept settings server
  | limiter {server : RedisAt} {config : RateLimit}
      (h : buildRateLimiter settings = .ok (.redis server config)) : Kept settings server

/-- A server that has nothing of the deployment yet. -/
def Fresh (ns : PyStr) (store : Store) : Prop :=
  ∀ key, (ns ++ lit ":") <+: key → store.keys key = none

/-- Nothing was done yet, but by others. -/
def Apart.start (store : Store) : Apart where
  clock := store.clock
  queue := .empty
  tickets := { server := .empty }
  counters := .empty
  others := store

/-- What one server is to a deployment. -/
structure OneServer (settings : Config.Settings) : Prop where
  /-- Settings that are valid name backends that can be built. -/
  built : (∃ queue, buildJobQueue settings = .ok queue) ∧
    (∃ tickets, buildTicketStore settings = .ok tickets) ∧
    ∃ limiter, buildRateLimiter settings = .ok limiter
  /-- All that is in Redis is on the one server. -/
  located : ∀ server, Kept settings server → settings.redisUrl = some server.url
  /-- Any calls in any order are answered as if each part had a server, and leave what those
      have. -/
  apart : ∀ store, Fresh settings.redisNamespace.val store → ∀ (ttl : TicketTtl)
    (config : RateLimit) (α : Type)
    (p : Program (Request settings.redisNamespace.val) Request.Reply CallFault α),
      (p.run (handle settings.redisNamespace.val ttl config) store).1 =
        (p.run (Apart.handle settings.redisNamespace.val ttl config) (Apart.start store)).1 ∧
      Shares settings.redisNamespace.val
        (p.run (handle settings.redisNamespace.val ttl config) store).2
        (p.run (Apart.handle settings.redisNamespace.val ttl config) (Apart.start store)).2
  /-- A method of the queue that nobody interrupts ends as it does on a queue of its own, whatever
      was done before. -/
  methods : ∀ store apart, Shares settings.redisNamespace.val store apart →
    ∀ (ttl : TicketTtl) (config : RateLimit) (α : Type) (p : Prog PyStr α),
      ((ofProg p).run (handle settings.redisNamespace.val ttl config) store).1 =
        .ok (p.runOn apart.queue).1 ∧
      Shares settings.redisNamespace.val
        ((ofProg p).run (handle settings.redisNamespace.val ttl config) store).2
        { apart with queue := (p.runOn apart.queue).2 }
  /-- Nothing outside of the namespace is ever written, but by others. -/
  spared : ∀ (ttl : TicketTtl) (config : RateLimit) (α : Type)
    (p : Program (Request settings.redisNamespace.val) Request.Reply CallFault α),
      p.Only (fun r => ∀ c houtside, r ≠ .other c houtside) → ∀ store key,
        Outside settings.redisNamespace.val key →
          (p.run (handle settings.redisNamespace.val ttl config) store).2.keys key =
            store.keys key

/-- A store without keys of the namespace is shared by three fresh servers. -/
theorem shares_start {ns : PyStr} {store : Store} (h : Fresh ns store) :
    Shares ns store (Apart.start store) where
  clock := rfl
  queue slot := by
    rw [h _ (prefix_slot slot)]
    cases slot <;> rfl
  tickets ticket := h _ (prefix_ticket ticket)
  counters rest := h _ (prefix_counter rest)
  others := ⟨rfl, fun _ _ => rfl⟩

/-- Where the factories have kept to a server, it is the one of the settings. -/
theorem located {settings : Config.Settings} {server : RedisAt} (h : Kept settings server) :
    settings.redisUrl = some server.url := by
  cases h with
  | queue h =>
    unfold buildJobQueue at h
    split at h
    · cases h
    · cases hurl : settings.redisUrl with
      | none => rw [hurl] at h; cases h
      | some url => rw [hurl] at h; cases h; rfl
  | tickets h =>
    unfold buildTicketStore at h
    split at h
    · cases h
    · cases hurl : settings.redisUrl with
      | none => rw [hurl] at h; cases h
      | some url => rw [hurl] at h; cases h; rfl
  | limiter h =>
    unfold buildRateLimiter at h
    split at h
    · cases h
    · cases h
    · cases hurl : settings.redisUrl with
      | none => rw [hurl] at h; cases h
      | some url => rw [hurl] at h; cases h; rfl

/-- `buildJobQueue` builds a queue from any settings. -/
theorem exists_queue (settings : Config.Settings) :
    ∃ queue, buildJobQueue settings = .ok queue := by
  unfold buildJobQueue
  cases hqueue : settings.jobQueue with
  | memory => exact ⟨_, rfl⟩
  | redis =>
    obtain ⟨url, hurl⟩ := Option.ne_none_iff_exists'.mp (settings.queueHasUrl hqueue)
    rw [hurl]
    exact ⟨_, rfl⟩

/-- `buildTicketStore` builds a store from any settings. -/
theorem exists_tickets (settings : Config.Settings) :
    ∃ tickets, buildTicketStore settings = .ok tickets := by
  unfold buildTicketStore
  cases hstore : settings.realtimeTicketStore with
  | memory => exact ⟨_, rfl⟩
  | redis =>
    obtain ⟨url, hurl⟩ := Option.ne_none_iff_exists'.mp (settings.ticketsHaveUrl hstore)
    rw [hurl]
    exact ⟨_, rfl⟩

/-- `buildRateLimiter` builds a limiter from any settings. -/
theorem exists_limiter (settings : Config.Settings) :
    ∃ limiter, buildRateLimiter settings = .ok limiter := by
  unfold buildRateLimiter
  cases hprovider : settings.rateLimitProvider with
  | none => exact ⟨_, rfl⟩
  | memory => exact ⟨_, rfl⟩
  | redis =>
    obtain ⟨url, hurl⟩ := Option.ne_none_iff_exists'.mp (settings.limiterHasUrl hprovider)
    rw [hurl]
    exact ⟨_, rfl⟩

/-- `handle` leaves the keys outside the namespace, unless others call. -/
theorem handle_spares {ns : PyStr} {ttl : TicketTtl} {config : RateLimit} {r : Request ns}
    (h : ∀ c houtside, r ≠ .other c houtside) (store : Store) {key : PyStr}
    (hkey : Outside ns key) :
    (handle ns ttl config r store).2.keys key = store.keys key := by
  cases r with
  | queue c => exact (untouched_of_owns (q := .others) (owns_queue c) (by decide) store).keys key hkey
  | issue ticket subject =>
    exact (untouched_of_owns (q := .others) (owns_issue ttl ticket subject) (by decide)
      store).keys key hkey
  | redeem ticket =>
    exact (untouched_of_owns (q := .others) (owns_redeem ticket) (by decide) store).keys key hkey
  | count subject window =>
    exact (untouched_of_owns (q := .others) (owns_count config subject window) (by decide)
      store).keys key hkey
  | other c outside => exact absurd rfl (h c outside)
  | tick clock => rfl

/-- Three components with one store answer every list of calls as with a server of their own each,
    whatever the settings. -/
theorem one_server (settings : Config.Settings) : OneServer settings where
  built := ⟨exists_queue settings, exists_tickets settings, exists_limiter settings⟩
  located _ := located
  apart _ hfresh _ _ _ p := Program.run_lockstep handle_lockstep p (shares_start hfresh)
  methods _ apart hshares ttl config _ p := by
    have h := Program.run_lockstep (@handle_lockstep _ ttl config) (ofProg p) hshares
    rw [run_ofProg] at h
    exact h
  spared ttl config _ _ honly store key hkey := by
    have hcall : ∀ r after, (∀ c houtside, r ≠ .other c houtside) →
        after.keys key = store.keys key →
        (handle settings.redisNamespace.val ttl config r after).2.keys key = store.keys key :=
      fun _ after hr hafter => (handle_spares hr after hkey).trans hafter
    exact honly.run_invariant hcall rfl

end NexaAssist.Spec.SharedServer
