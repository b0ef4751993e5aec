import NexaAssist.Services.Sessions
import NexaAssist.Spec.PayloadStorage

/-!
# One customer for each address

Two services create a customer at first contact, on any number of sessions. However their
statements interleave there is one customer for each normal form of an address, every call that
returns is about that one, and a call whose insert is refused for the customer of another goes
on with it. A call that fails commits nothing.
-/

namespace NexaAssist.Spec.CustomerIdentity

open NexaAssist PyJson Storage
open AttemptIsolation (severs ticketAccepted exec_inactive_iff plainSite)
open PayloadStorage (normaliseEmail_last varchar_self)

variable {k : Nat} {pg : Postgres} {table : LowerTable} {failure : Option Failure}

/-! ## What is promised -/

/-- A ticket that is returned is committed. -/
def Ticketed (tables : Tables) : (request : Request) → request.Reply → Prop
  | .create .., ticket =>
    ∃ row ∈ tables.tickets, row.id = ticket.id ∧ row.customerId = ticket.customerId
  | .getOrCreate _, _ => True

/-- The rows of a call that returned are committed. -/
structure Stored (table : LowerTable) (request : Request) (reply : request.Reply)
    (tables : Tables) : Prop where
  customer : ∃ row ∈ tables.customers,
    row.id = request.customerId reply ∧ row.email = request.address table
  ticket : Ticketed tables request reply

/-- A ticket that it creates meets the constraints of its table. -/
def Fits : Request → Prop
  | .create _ subject body ownerSubject => ∀ customerId,
      NewTicket.storable { customerId, ownerSubject, subject, body } = true ∧
        NewTicket.fits { customerId, ownerSubject, subject, body } = true
  | .getOrCreate _ => True

structure CreatedOnce (table : LowerTable) (s : Sessions k) : Prop where
  /-- No two customers have the same address. -/
  unique : (s.tables.customers.map Customer.email).Nodup
  stored : ∀ call ∈ s.finished, ∀ reply, call.result = .ok reply →
    Stored table call.request reply s.tables
  same : ∀ a ∈ s.finished, ∀ b ∈ s.finished,
    a.request.address table = b.request.address table →
      ∀ x y, a.result = .ok x → b.result = .ok y →
        a.request.customerId x = b.request.customerId y
  /-- Who loses the race has inserted no customer, and returns. -/
  loser : ∀ call ∈ s.finished, call.history.lost = true →
    call.history.customers = [] ∧
      (call.history.healthy = true → Fits call.request → ∃ reply, call.result = .ok reply)
  /-- Nothing of a call that failed is committed. -/
  nothing : ∀ call ∈ s.finished, ∀ e, call.result = .error e →
    ∀ id ∈ call.history.ids, id ∉ s.tables.ids

/-! ## One call among others -/

/-- What others may do to what a call sees. -/
structure Rely (v v' : View) : Prop where
  session : v'.world.session = v.world.session
  history : v'.history = v.history
  customers : ∀ row ∈ v.world.tables.customers, row ∈ v'.world.tables.customers
  tickets : ∀ row ∈ v.world.tables.tickets, row ∈ v'.world.tables.tickets

/-- `Rely` allows that the others do nothing. -/
theorem Rely.refl (v : View) : Rely v v := ⟨rfl, rfl, fun _ h => h, fun _ h => h⟩

/-- What others do twice they may do. -/
theorem Rely.trans (u v w : View) (huv : Rely u v) (hvw : Rely v w) : Rely u w where
  session := hvw.session.trans huv.session
  history := hvw.history.trans huv.history
  customers row h := hvw.customers row (huv.customers row h)
  tickets row h := hvw.tickets row (huv.tickets row h)

/-- How a statement may be answered. -/
def asked (pg : Postgres) (c : Call) (v : View) (answer : Except StorageError c.Reply)
    (v' : View) : Prop :=
  ∃ failure, v.exec pg failure c = (answer, v')

section Statements

variable {address : PyStr} {v v' : View}

/-- A statement in a view is one in its world, which the history notes. -/
theorem exec_eq_iff {c : Call} {answer : Except StorageError c.Reply} :
    v.exec pg failure c = (answer, v') ↔
      exec pg failure v.world c = (answer, v'.world) ∧
        v'.history = v.history.note failure v.world c answer := by
  unfold View.exec
  constructor
  · intro h
    obtain ⟨rfl, rfl⟩ := Prod.mk.inj h
    exact ⟨rfl, rfl⟩
  · rintro ⟨hexec, hhistory⟩
    rw [hexec]
    cases v'
    simp only at hhistory ⊢
    rw [hhistory]

/-- Others take no customer away. -/
theorem Rely.seen_customers (h : Rely v v') {row : Customer}
    (hrow : row ∈ v.world.seen.customers) : row ∈ v'.world.seen.customers := by
  simp only [World.seen, Tables.append_customers, List.mem_append] at hrow ⊢
  exact hrow.imp (h.customers row) fun hstaged => h.session ▸ hstaged

/-- What `Rely` allows takes no ticket away. -/
theorem Rely.seen_tickets (h : Rely v v') {row : Storage.Ticket}
    (hrow : row ∈ v.world.seen.tickets) : row ∈ v'.world.seen.tickets := by
  simp only [World.seen, Tables.append_tickets, List.mem_append] at hrow ⊢
  exact hrow.imp (h.tickets row) fun hstaged => h.session ▸ hstaged

/-- Tables without ids have no rows. -/
theorem ids_eq_nil {tables : Tables} :
    tables.ids = [] ↔ tables.customers = [] ∧ tables.tickets = [] := by
  simp [Tables.ids]

/-- A call that has inserted nothing. -/
structure Unwritten (address : PyStr) (v : View) : Prop where
  staged : v.world.session.staged.ids = []
  uncommitted : v.history.committed = false
  customers : v.history.customers = []
  active : v.history.healthy = true → v.world.session.state ≠ .inactive
  winner : v.history.lost = true →
    storable address = true ∧ ∃ row ∈ v.world.tables.customers, row.email = address

/-- A call that fails, and not for a race that it lost. -/
structure Failed (v : View) : Prop where
  staged : v.world.session.staged.ids = []
  uncommitted : v.history.committed = false
  customers : v.history.lost = true → v.history.customers = []
  blameless : v.history.lost = true → v.history.healthy = false

/-- A call that knows its customer, and may have inserted it. -/
structure Found (address : PyStr) (id : RowId) (v : View) : Prop where
  active : v.world.session.state ≠ .inactive
  row : ∃ row ∈ v.world.seen.customers, row.id = id ∧ row.email = address
  uncommitted : v.history.committed = false
  customers : v.history.lost = true → v.history.customers = []

/-- `Unwritten` is kept while others work. -/
theorem Unwritten.wait (h : Unwritten address v) (hrely : Rely v v') : Unwritten address v' := by
  obtain ⟨hsession, hhistory, hcustomers, -⟩ := hrely
  constructor
  · exact hsession ▸ h.staged
  · exact hhistory ▸ h.uncommitted
  · exact hhistory ▸ h.customers
  · rw [hsession, hhistory]
    exact h.active
  · rw [hhistory]
    intro hlost
    obtain ⟨hstorable, row, hrow, hemail⟩ := h.winner hlost
    exact ⟨hstorable, row, hcustomers row hrow, hemail⟩

/-- `Failed` is kept while others work. -/
theorem Failed.wait (h : Failed v) (hrely : Rely v v') : Failed v' where
  staged := hrely.session ▸ h.staged
  uncommitted := hrely.history ▸ h.uncommitted
  customers := hrely.history ▸ h.customers
  blameless := hrely.history ▸ h.blameless

/-- `Found` is kept while others work, since no customer is taken away. -/
theorem Found.wait {id : RowId} (h : Found address id v) (hrely : Rely v v') :
    Found address id v' where
  active := hrely.session ▸ h.active
  row := h.row.imp fun _ hrow => ⟨hrely.seen_customers hrow.1, hrow.2⟩
  uncommitted := hrely.history ▸ h.uncommitted
  customers := hrely.history ▸ h.customers

/-- A statement that fails leaves nothing staged, if nothing was. -/
theorem error_staged {c : Call} {e : StorageError} {w t : World}
    (h : exec pg failure w c = (.error e, t)) (hw : w.session.staged.ids = []) :
    t.session.staged.ids = [] := by
  rcases exec_error h with rfl | rfl | rfl
  · exact hw
  · exact hw
  · rfl

/-- A query on an active session for what can be stored fails for want of a connection only. -/
theorem find_ok {w : World} {email : PyStr} (hactive : w.session.state ≠ .inactive)
    (hstorable : storable email = true) :
    exec pg none w (.findCustomer email) =
      (.ok (w.seen.customers.find? fun customer => customer.email = email), w.begun) := by
  have hwf : wellFormed email = true := (Bool.and_eq_true_iff.mp hstorable).1
  rw [Storage.exec_eq _ hactive]
  simp [findCustomer, hwf, hstorable]

/-- A `SELECT` that fails leaves a failed session. -/
theorem Unwritten.find_error {e : StorageError} (h : Unwritten address v)
    (hexec : v.exec pg failure (.findCustomer address) = (.error e, v')) : Failed v' := by
  obtain ⟨hexec, hhistory⟩ := exec_eq_iff.mp hexec
  have hnote : v'.history = { v.history with healthy := v.history.healthy && failure.isNone } :=
    hhistory
  constructor
  · exact error_staged hexec h.staged
  · rw [hnote]
    exact h.uncommitted
  · rw [hnote]
    exact fun _ => h.customers
  · rw [hnote]
    intro hlost
    rw [Bool.and_eq_false_iff]
    by_contra hhealthy
    obtain ⟨hhealthy, hfailure⟩ : v.history.healthy = true ∧ failure = none := by
      simpa using hhealthy
    rw [hfailure, find_ok (h.active hhealthy) (h.winner hlost).1] at hexec
    exact nomatch (Prod.mk.inj hexec).1

/-- A query that is answered changes nothing. -/
theorem Unwritten.find_ok {found : Option Customer} (h : Unwritten address v)
    (hexec : v.exec pg failure (.findCustomer address) = (.ok found, v')) :
    Unwritten address v' ∧ v'.world.session.state ≠ .inactive ∧
      v'.history.lost = v.history.lost ∧
        found = v'.world.tables.customers.find? fun customer => customer.email = address := by
  obtain ⟨hexec, hhistory⟩ := exec_eq_iff.mp hexec
  have hnote : v'.history = { v.history with healthy := v.history.healthy && failure.isNone } :=
    hhistory
  obtain ⟨-, hfound, hworld⟩ := findCustomer_ok hexec
  have hstaged := ids_eq_nil.mp h.staged
  refine ⟨⟨?_, ?_, ?_, ?_, ?_⟩, ?_, ?_, ?_⟩
  · rw [hworld]
    exact h.staged
  · rw [hnote]
    exact h.uncommitted
  · rw [hnote]
    exact h.customers
  · rw [hworld]
    exact fun _ => nofun
  · rw [hnote, hworld]
    exact h.winner
  · rw [hworld]
    exact nofun
  · rw [hnote]
  · rw [hfound, hworld]
    simp [World.seen, World.begun, hstaged.1]

/-- An insert is refused for a constraint: nothing else of the transaction is lost. -/
theorem insert_integrity {w t : World} {email : PyStr}
    (h : exec pg failure w (.insertCustomer email) = (.error (.sqlalchemy true), t)) :
    storable email = true ∧ t = w.begun := by
  by_cases hactive : w.session.state = .inactive
  · rw [exec_of_inactive _ hactive] at h
    cases (Prod.mk.inj h).1
  rw [Storage.exec_eq _ hactive] at h
  simp only [insertCustomer] at h
  split at h
  · cases (Prod.mk.inj h).1
  · -- What a failed statement raises is no integrity error.
    rename_i failure _
    obtain ⟨hraised, -⟩ := Prod.mk.inj h
    unfold Failure.raised at hraised
    split at hraised <;> cases hraised
  · split at h
    · cases (Prod.mk.inj h).1
    · split at h
      · cases (Prod.mk.inj h).1
      · rename_i hstorable
        split at h
        · exact ⟨by simpa using hstorable, (Prod.mk.inj h).2.symm⟩
        · cases (Prod.mk.inj h).1

/-- A customer that is inserted is found under the address. -/
theorem Unwritten.insert_ok {customer : Customer}
    (hlast : ∀ c ∈ address.getLast?, isSpace c = false) (h : Unwritten address v)
    (hlost : v.history.lost = false)
    (hexec : v.exec pg failure (.insertCustomer address) = (.ok customer, v')) :
    Found address customer.id v' := by
  obtain ⟨hexec, hhistory⟩ := exec_eq_iff.mp hexec
  have hnote : v'.history = { v.history with
      healthy := v.history.healthy && failure.isNone
      customers := v.history.customers ++ [customer.id] } := hhistory
  obtain ⟨rfl, stored, haccepted, -, hworld⟩ := insertCustomer_ok hexec
  obtain rfl := varchar_self hlast haccepted.held
  constructor
  · rw [hworld]
    exact nofun
  · rw [hworld, World.stage_seen_customers]
    exact ⟨_, List.mem_append_right _ (List.mem_singleton_self _), rfl, rfl⟩
  · rw [hnote]
    exact h.uncommitted
  · rw [hnote]
    intro hlost'
    exact nomatch hlost.symm.trans hlost'

/-- The insert loses a race, or its row is refused for another constraint. -/
theorem Unwritten.insert_integrity (h : Unwritten address v) (hlost : v.history.lost = false)
    (hexec : v.exec pg failure (.insertCustomer address) = (.error (.sqlalchemy true), v')) :
    Unwritten address v' := by
  obtain ⟨hexec, hhistory⟩ := exec_eq_iff.mp hexec
  have hnote : v'.history = { v.history with
      healthy := v.history.healthy && failure.isNone
      lost := v.history.lost ||
        v.world.seen.customers.any fun customer => customer.email = address } := hhistory
  obtain ⟨hstorable, hworld⟩ := CustomerIdentity.insert_integrity hexec
  have hstaged := ids_eq_nil.mp h.staged
  constructor
  · rw [hworld]
    exact h.staged
  · rw [hnote]
    exact h.uncommitted
  · rw [hnote]
    exact h.customers
  · rw [hworld]
    exact fun _ => nofun
  · rw [hnote]
    intro hany
    rw [hlost, Bool.false_or, List.any_eq_true] at hany
    obtain ⟨row, hrow, hemail⟩ := hany
    rw [World.seen, Tables.append_customers, hstaged.1, List.append_nil] at hrow
    rw [hworld]
    exact ⟨hstorable, row, hrow, of_decide_eq_true hemail⟩

/-- An `INSERT` that fails, but not for a row that is there, leaves a failed session. -/
theorem Unwritten.insert_error {e : StorageError} (h : Unwritten address v)
    (hlost : v.history.lost = false)
    (hexec : v.exec pg failure (.insertCustomer address) = (.error e, v'))
    (he : e ≠ .sqlalchemy true) : Failed v' := by
  obtain ⟨hexec, hhistory⟩ := exec_eq_iff.mp hexec
  have hnote : v'.history =
      { v.history with healthy := v.history.healthy && failure.isNone } := by
    rw [hhistory]
    unfold History.note
    split <;> simp_all
  constructor
  · exact error_staged hexec h.staged
  · rw [hnote]
    exact h.uncommitted
  · rw [hnote]
    exact fun _ => h.customers
  · rw [hnote]
    intro hlost'
    exact nomatch hlost.symm.trans hlost'

/-- A flush of an active session fails where the server does, or where it has to. -/
theorem flush_fails {c : Call} {e : StorageError} {w t : World} (hflush : c.flushes = true)
    (hactive : w.session.state ≠ .inactive) (h : exec pg failure w c = (.error e, t)) :
    t = w.abort ∧ severs pg failure w c = true := by
  have ht := flush_error hflush hactive h
  refine ⟨ht, (exec_inactive_iff pg failure c hactive).mp ?_⟩
  rw [h, ht]
  rfl

/-- A ticket that is flushed is one of the customer that was found. -/
theorem Found.flush_ok {ticket : NewTicket} {reply : Storage.Ticket}
    (h : Found address ticket.customerId v)
    (hexec : v.exec pg failure (.flushTicket ticket) = (.ok reply, v')) :
    Found address ticket.customerId v' ∧ reply.customerId = ticket.customerId ∧
      ∃ row ∈ v'.world.seen.tickets, row.id = reply.id ∧ row.customerId = reply.customerId := by
  obtain ⟨hexec, hhistory⟩ := exec_eq_iff.mp hexec
  have hnote : v'.history = { v.history with
      healthy := v.history.healthy && failure.isNone
      tickets := v.history.tickets ++ [reply.id] } := hhistory
  obtain ⟨-, -, rfl, row, hid, hcustomer, hworld⟩ := flushTicket_ok hexec
  refine ⟨⟨?_, ?_, ?_, ?_⟩, rfl, ?_⟩
  · rw [hworld]
    exact nofun
  · rw [hworld, World.stage_seen_customers]
    exact h.row.imp fun _ hrow => ⟨List.mem_append_left _ hrow.1, hrow.2⟩
  · rw [hnote]
    exact h.uncommitted
  · rw [hnote]
    exact h.customers
  · refine ⟨row, ?_, hid, hcustomer⟩
    rw [hworld]
    simp [World.seen]

/-- A flush that fails behind `Found` leaves nothing staged and nothing committed, and on a healthy
    server the ticket is at fault. -/
theorem Found.flush_error {ticket : NewTicket} {e : StorageError}
    (h : Found address ticket.customerId v)
    (hexec : v.exec pg failure (.flushTicket ticket) = (.error e, v')) :
    v'.world.session.staged.ids = [] ∧ v'.history.committed = false ∧
      (v'.history.lost = true → v'.history.customers = []) ∧
      (v'.history.healthy = true → ticket.storable = true → ticket.fits = false) := by
  obtain ⟨hexec, hhistory⟩ := exec_eq_iff.mp hexec
  have hnote : v'.history = { v.history with healthy := v.history.healthy && failure.isNone } :=
    hhistory
  obtain ⟨hworld, hsevers⟩ := flush_fails rfl h.active hexec
  refine ⟨?_, ?_, ?_, ?_⟩
  · rw [hworld]
    rfl
  · rw [hnote]
    exact h.uncommitted
  · rw [hnote]
    exact h.customers
  · rw [hnote]
    intro hhealthy hstorable
    obtain ⟨row, hrow, hid, -⟩ := h.row
    have hany : v.world.seen.customers.any (fun customer => customer.id = ticket.customerId) =
        true := List.any_eq_true.mpr ⟨row, hrow, decide_eq_true hid⟩
    have hnone : failure.isSome = false := by
      have hfailure := (Bool.and_eq_true_iff.mp hhealthy).2
      simpa using hfailure
    simpa [severs, ticketAccepted, hnone, hstorable, hany] using hsevers

/-- What was staged is in the tables once `commit` returns. -/
theorem Found.commit_ok {id : RowId} (h : Found address id v)
    (hexec : v.exec pg failure .commit = (.ok (), v')) :
    v'.world.session.staged.ids = [] ∧ (v'.history.lost = true → v'.history.customers = []) ∧
      (∃ row ∈ v'.world.tables.customers, row.id = id ∧ row.email = address) ∧
      ∀ row ∈ v.world.seen.tickets, row ∈ v'.world.tables.tickets := by
  obtain ⟨hexec, hhistory⟩ := exec_eq_iff.mp hexec
  have hnote : v'.history = { v.history with
      healthy := v.history.healthy && failure.isNone, committed := true } := hhistory
  have hworld := Storage.commit_ok hexec
  refine ⟨?_, ?_, ?_, ?_⟩
  · rw [hworld]
    rfl
  · rw [hnote]
    exact h.customers
  · rw [hworld]
    exact h.row.imp fun _ hrow => ⟨List.mem_append_left _ hrow.1, hrow.2⟩
  · rw [hworld]
    exact fun row hrow => List.mem_append_left _ hrow

/-- A `COMMIT` that fails leaves a failed session. -/
theorem Found.commit_error {id : RowId} {e : StorageError} (h : Found address id v)
    (hexec : v.exec pg failure .commit = (.error e, v')) : Failed v' := by
  obtain ⟨hexec, hhistory⟩ := exec_eq_iff.mp hexec
  have hnote : v'.history = { v.history with healthy := v.history.healthy && failure.isNone } :=
    hhistory
  obtain ⟨hworld, hsevers⟩ := flush_fails rfl h.active hexec
  constructor
  · rw [hworld]
    rfl
  · rw [hnote]
    exact h.uncommitted
  · rw [hnote]
    exact h.customers
  · rw [hnote]
    intro _
    rw [Bool.and_eq_false_iff]
    refine .inr ?_
    cases failure with
    | none => exact nomatch hsevers
    | some failure => rfl

end Statements

/-! ## The two services -/

section Services

variable {address : PyStr} {v v' : View}

/-- The row that `find?` gives has the address. -/
theorem find_some {rows : List Customer} {row : Customer}
    (h : some row = rows.find? fun customer => customer.email = address) :
    row ∈ rows ∧ row.email = address :=
  ⟨List.mem_of_find?_eq_some h.symm, by simpa using List.find?_some h.symm⟩

/-- A session that has lost a race finds the customer of the winner. -/
theorem Unwritten.find_winner (h : Unwritten address v)
    (hnone : none = v.world.tables.customers.find? fun customer => customer.email = address) :
    v.history.lost = false := by
  cases hlost : v.history.lost with
  | false => rfl
  | true =>
    obtain ⟨-, row, hrow, hemail⟩ := h.winner hlost
    have hmissing := List.find?_eq_none.mp hnone.symm row hrow
    simp [hemail] at hmissing

/-- What is not written yet may be given up. -/
theorem Unwritten.failed (h : Unwritten address v) (hlost : v.history.lost = false) :
    Failed v where
  staged := h.staged
  uncommitted := h.uncommitted
  customers _ := h.customers
  blameless hlost' := nomatch hlost.symm.trans hlost'

/-- A row that is seen under the address is the one to be found. -/
theorem Unwritten.found {row : Customer} (h : Unwritten address v)
    (hactive : v.world.session.state ≠ .inactive) (hrow : row ∈ v.world.tables.customers)
    (hemail : row.email = address) : Found address row.id v where
  active := hactive
  row := ⟨row, List.mem_append_left _ hrow, rfl, hemail⟩
  uncommitted := h.uncommitted
  customers _ := h.customers

/-- `getOrCreateCustomer` finds the customer of an address or fails, whatever others do. -/
theorem getOrCreateCustomer_safe (hlast : ∀ c ∈ address.getLast?, isSpace c = false)
    (h : Unwritten address v) (hlost : v.history.lost = false) :
    (TicketService.getOrCreateCustomer address).Safe (asked pg) Rely
      (fun
        | .ok customer, v => Found address customer.id v
        | .error _, v => Failed v) v := by
  refine .bind Rely.refl (.perform ?_)
  intro v₁ hv₁ found v₂ ⟨failure, hfind⟩ v₃ hv₃
  have h₁ := h.wait hv₁
  match found with
  | .error e => exact fun v₄ hv₄ => ((h₁.find_error hfind).wait hv₃).wait hv₄
  -- The address is known already
  | .ok (some existing) =>
    obtain ⟨h₂, hactive, -, hfound⟩ := h₁.find_ok hfind
    obtain ⟨hrow, hemail⟩ := find_some hfound
    exact fun v₄ hv₄ => ((h₂.found hactive hrow hemail).wait hv₃).wait hv₄
  -- It is not, so the customer is inserted in a savepoint
  | .ok none =>
    obtain ⟨h₂, -, hlost₂, -⟩ := h₁.find_ok hfind
    have h₃ := h₂.wait hv₃
    have hlost₃ : v₃.history.lost = false := by
      rw [hv₃.history, hlost₂, hv₁.history]
      exact hlost
    refine .tryCatch Rely.refl (.perform ?_)
    intro v₄ hv₄ inserted v₅ ⟨failure, hinsert⟩ v₆ hv₆
    have h₄ := h₃.wait hv₄
    have hlost₄ : v₄.history.lost = false := hv₄.history ▸ hlost₃
    match inserted with
    | .ok customer =>
      exact fun v₇ hv₇ => ((h₄.insert_ok hlast hlost₄ hinsert).wait hv₆).wait hv₇
    -- Somebody else was faster: the savepoint is undone and the winner looked up
    | .error (.sqlalchemy true) =>
      have h₆ := (h₄.insert_integrity hlost₄ hinsert).wait hv₆
      refine .bind Rely.refl (.perform ?_)
      intro v₇ hv₇ winner v₈ ⟨failure, hwinner⟩ v₉ hv₉
      have h₇ := h₆.wait hv₇
      match winner with
      | .error e => exact fun v₁₀ hv₁₀ => ((h₇.find_error hwinner).wait hv₉).wait hv₁₀
      | .ok none =>
        obtain ⟨h₈, -, -, hnone⟩ := h₇.find_ok hwinner
        exact fun v₁₀ hv₁₀ => ((h₈.failed (h₈.find_winner hnone)).wait hv₉).wait hv₁₀
      | .ok (some winner) =>
        obtain ⟨h₈, hactive, -, hfound⟩ := h₇.find_ok hwinner
        obtain ⟨hrow, hemail⟩ := find_some hfound
        exact fun v₁₀ hv₁₀ => ((h₈.found hactive hrow hemail).wait hv₉).wait hv₁₀
    -- Every other failure of the insert goes up as it is
    | .error (.sqlalchemy false) =>
      exact fun v₇ hv₇ => ((h₄.insert_error hlost₄ hinsert nofun).wait hv₆).wait hv₇
    | .error .valueError | .error (.embedder _) | .error .cancelled =>
      exact fun v₇ hv₇ => ((h₄.insert_error hlost₄ hinsert nofun).wait hv₆).wait hv₇

/-- How a call may end. -/
structure Settled (table : LowerTable) (request : Request)
    (result : Except StorageError request.Reply) (v : View) : Prop where
  staged : v.world.session.staged.ids = []
  customers : v.history.lost = true → v.history.customers = []
  stored : ∀ reply, result = .ok reply → Stored table request reply v.world.tables
  uncommitted : ∀ e, result = .error e → v.history.committed = false
  blameless : ∀ e, result = .error e → v.history.lost = true → v.history.healthy = true →
    ¬Fits request

/-- What is stored stays stored when tables grow. -/
theorem Stored.mono {request : Request} {reply : request.Reply} {tables more : Tables}
    (h : Stored table request reply tables)
    (hcustomers : ∀ row ∈ tables.customers, row ∈ more.customers)
    (htickets : ∀ row ∈ tables.tickets, row ∈ more.tickets) :
    Stored table request reply more where
  customer := h.customer.imp fun row hrow => ⟨hcustomers row hrow.1, hrow.2⟩
  ticket :=
    match request, reply, h.ticket with
    | .create .., _, hticket => hticket.imp fun row hrow => ⟨htickets row hrow.1, hrow.2⟩
    | .getOrCreate _, _, _ => trivial

/-- `Settled` is kept while others work. -/
theorem Settled.wait {request : Request} {result : Except StorageError request.Reply}
    (h : Settled table request result v) (hrely : Rely v v') :
    Settled table request result v' where
  staged := hrely.session ▸ h.staged
  customers := hrely.history ▸ h.customers
  stored reply hreply := (h.stored reply hreply).mono hrely.customers hrely.tickets
  uncommitted := hrely.history ▸ h.uncommitted
  blameless := hrely.history ▸ h.blameless

/-- A request that fails is settled. -/
theorem Failed.settled {request : Request} {e : StorageError} (h : Failed v) :
    Settled table request (.error e) v where
  staged := h.staged
  customers := h.customers
  stored := nofun
  uncommitted _ _ := h.uncommitted
  blameless _ _ hlost hhealthy := nomatch (h.blameless hlost).symm.trans hhealthy

/-- `create` settles its request, whatever others do. -/
theorem create_safe {customerEmail subject body : PyStr} {ownerSubject : Option PyStr}
    (h : Unwritten (TicketService.normaliseEmail table customerEmail) v)
    (hlost : v.history.lost = false) :
    (TicketService.create table customerEmail subject body ownerSubject).Safe (asked pg) Rely
      (Settled table (.create customerEmail subject body ownerSubject)) v := by
  have hcustomer : (TicketService.getOrCreateCustomer
      (TicketService.normaliseEmail table customerEmail)).Safe (asked pg) Rely _ v :=
    getOrCreateCustomer_safe (normaliseEmail_last table customerEmail) h hlost
  refine .bind Rely.refl (hcustomer.mono (fun _ _ _ _ h => h) ?_)
  -- Without a customer nothing was written
  rintro (e | customer) v₁ h₁
  · exact fun v₂ hv₂ => (Failed.wait h₁ hv₂).settled
  refine .bind Rely.refl (.perform ?_)
  intro v₂ hv₂ flushed v₃ ⟨failure, hflush⟩ v₄ hv₄
  have h₂ := Found.wait h₁ hv₂
  match flushed with
  -- The ticket is refused, with the customer still staged
  | .error e =>
    obtain ⟨hstaged, huncommitted, hcustomers, hfits⟩ := h₂.flush_error hflush
    have h₃ : Settled table (.create customerEmail subject body ownerSubject) (.error e) v₃ := {
      staged := hstaged
      customers := hcustomers
      stored := nofun
      uncommitted := fun _ _ => huncommitted
      blameless := by
        intro _ _ _ hhealthy haccepted
        obtain ⟨hstorable, hrow⟩ := haccepted customer.id
        exact nomatch (hfits hhealthy hstorable).symm.trans hrow }
    exact fun v₅ hv₅ => (h₃.wait hv₄).wait hv₅
  -- The ticket is staged beside its customer, and both are committed together
  | .ok ticket =>
    obtain ⟨h₃, hid, row, hrow, hrowid, hrowcustomer⟩ := h₂.flush_ok hflush
    refine .bind Rely.refl (.perform ?_)
    intro v₅ hv₅ committed v₆ ⟨failure, hcommit⟩ v₇ hv₇
    have h₅ := (h₃.wait hv₄).wait hv₅
    match committed with
    | .error e =>
      exact fun v₈ hv₈ => (((h₅.commit_error hcommit).wait hv₇).wait hv₈).settled
    | .ok () =>
      obtain ⟨hstaged, hcustomers, hstored, htickets⟩ := h₅.commit_ok hcommit
      have h₆ : Settled table (.create customerEmail subject body ownerSubject) (.ok ticket)
          v₆ := {
        staged := hstaged
        customers := hcustomers
        stored := by
          rintro _ ⟨⟩
          refine ⟨?_, row, htickets row (hv₅.seen_tickets (hv₄.seen_tickets hrow)), hrowid,
            hrowcustomer⟩
          rw [Request.customerId, hid]
          exact hstored
        uncommitted := nofun
        blameless := nofun }
      exact fun v₈ hv₈ => (h₆.wait hv₇).wait hv₈

/-- `getOrCreate` settles its request, whatever others do. -/
theorem getOrCreate_safe {email : PyStr}
    (h : Unwritten (CustomerService.normaliseEmail table email) v)
    (hlost : v.history.lost = false) :
    (CustomerService.getOrCreate table email).Safe (asked pg) Rely
      (Settled table (.getOrCreate email)) v := by
  have hlast : ∀ c ∈ (CustomerService.normaliseEmail table email).getLast?, isSpace c = false :=
    normaliseEmail_last table email
  -- Returning a customer already stored writes nothing
  have hfound : ∀ {row : Customer} {v : View},
      Unwritten (CustomerService.normaliseEmail table email) v →
        row ∈ v.world.tables.customers →
          row.email = CustomerService.normaliseEmail table email →
            Settled table (.getOrCreate email) (.ok row) v := by
    intro row v h hrow hemail
    exact {
      staged := h.staged
      customers := fun _ => h.customers
      stored := by
        rintro _ ⟨⟩
        exact ⟨⟨row, hrow, rfl, hemail⟩, trivial⟩
      uncommitted := nofun
      blameless := nofun }
  refine .bind Rely.refl (.perform ?_)
  intro v₁ hv₁ found v₂ ⟨failure, hfind⟩ v₃ hv₃
  have h₁ := h.wait hv₁
  match found with
  | .error e => exact fun v₄ hv₄ => (((h₁.find_error hfind).wait hv₃).wait hv₄).settled
  -- The address is known already
  | .ok (some existing) =>
    obtain ⟨h₂, -, -, hexisting⟩ := h₁.find_ok hfind
    obtain ⟨hrow, hemail⟩ := find_some hexisting
    exact fun v₄ hv₄ => ((hfound h₂ hrow hemail).wait hv₃).wait hv₄
  | .ok none =>
    obtain ⟨h₂, -, hlost₂, -⟩ := h₁.find_ok hfind
    have h₃ := h₂.wait hv₃
    have hlost₃ : v₃.history.lost = false := by
      rw [hv₃.history, hlost₂, hv₁.history]
      exact hlost
    refine .bind Rely.refl (.tryCatch Rely.refl (.bind Rely.refl (.perform ?_)))
    intro v₄ hv₄ inserted v₅ ⟨failure, hinsert⟩ v₆ hv₆
    have h₄ := h₃.wait hv₄
    have hlost₄ : v₄.history.lost = false := hv₄.history ▸ hlost₃
    match inserted with
    -- The new customer is committed
    | .ok customer =>
      have h₆ := (h₄.insert_ok hlast hlost₄ hinsert).wait hv₆
      intro v₇ hv₇ v₈ hv₈
      refine .bind Rely.refl (.perform ?_)
      intro v₉ hv₉ committed v₁₀ ⟨failure, hcommit⟩ v₁₁ hv₁₁
      have h₉ := ((h₆.wait hv₇).wait hv₈).wait hv₉
      match committed with
      | .error e =>
        exact fun v₁₂ hv₁₂ => (((h₉.commit_error hcommit).wait hv₁₁).wait hv₁₂).settled
      | .ok () =>
        obtain ⟨hstaged, hcustomers, hstored, -⟩ := h₉.commit_ok hcommit
        have h₁₀ : Settled table (.getOrCreate email) (.ok customer) v₁₀ := {
          staged := hstaged
          customers := hcustomers
          stored := by
            rintro _ ⟨⟩
            exact ⟨hstored, trivial⟩
          uncommitted := nofun
          blameless := nofun }
        exact fun v₁₂ hv₁₂ => (h₁₀.wait hv₁₁).wait hv₁₂
    -- Somebody else was faster, so their customer is returned
    | .error (.sqlalchemy true) =>
      have h₆ := (h₄.insert_integrity hlost₄ hinsert).wait hv₆
      intro v₇ hv₇ v₈ hv₈
      refine .bind Rely.refl (.perform ?_)
      intro v₉ hv₉ winner v₁₀ ⟨failure, hwinner⟩ v₁₁ hv₁₁
      have h₉ := ((h₆.wait hv₇).wait hv₈).wait hv₉
      match winner with
      | .error e =>
        exact fun v₁₂ hv₁₂ => (((h₉.find_error hwinner).wait hv₁₁).wait hv₁₂).settled
      | .ok none =>
        obtain ⟨h₁₀, -, -, hnone⟩ := h₉.find_ok hwinner
        exact fun v₁₂ hv₁₂ =>
          (((h₁₀.failed (h₁₀.find_winner hnone)).wait hv₁₁).wait hv₁₂).settled
      | .ok (some winner) =>
        obtain ⟨h₁₀, -, -, hexisting⟩ := h₉.find_ok hwinner
        obtain ⟨hrow, hemail⟩ := find_some hexisting
        exact fun v₁₂ hv₁₂ => ((hfound h₁₀ hrow hemail).wait hv₁₁).wait hv₁₂
    | .error (.sqlalchemy false) =>
      have h₅ := h₄.insert_error hlost₄ hinsert nofun
      exact fun v₇ hv₇ v₈ hv₈ v₉ hv₉ =>
        ((((h₅.wait hv₆).wait hv₇).wait hv₈).wait hv₉).settled
    | .error .valueError | .error (.embedder _) | .error .cancelled =>
      have h₅ := h₄.insert_error hlost₄ hinsert nofun
      exact fun v₇ hv₇ v₈ hv₈ v₉ hv₉ =>
        ((((h₅.wait hv₆).wait hv₇).wait hv₈).wait hv₉).settled

end Services

/-! ## What a statement does to the rows -/

/-- What a statement does to the customers and tickets, and what is noted of it. -/
inductive Effect (failure : Option Failure) (c : Call) (v v' : View) : Prop
  | kept (htables : v'.world.tables = v.world.tables) (hdrawn : v'.world.drawn = v.world.drawn)
    (hstaged : v'.world.session.staged = v.world.session.staged ∨
      v'.world.session.staged = {})
    (hids : v'.history.ids = v.history.ids)
  | staged (rows : Tables) (hworld : v'.world = v.world.stage rows)
    (hrows : ∀ id ∈ rows.ids, id = v.world.drawn)
    (hids : ∀ id ∈ v'.history.ids, id ∈ v.history.ids ∨ id = v.world.drawn)
    (hcustomers : rows.customers = [] ∨ failure = none ∧ ∃ email row,
      c = .insertCustomer email ∧ rows.customers = [row] ∧ varchar 320 email = some row.email ∧
        ∀ other ∈ v.world.seen.customers, other.email ≠ row.email)
  | committed (rows : Tables) (hworld : v'.world = v.world.commit rows)
    (hrows : rows.ids = []) (hcommitted : v'.history.committed = true)

section Effects

variable {c : Call} {v v' : View}

/-- A statement that succeeds had no failure to meet. -/
theorem failure_of_ok {w t : World} {reply : c.Reply}
    (h : exec pg failure w c = (.ok reply, t)) : failure = none := by
  rw [Storage.exec_eq c (active_of_ok h)] at h
  match failure with
  | none => rfl
  | some failure =>
    cases c with
    | findCustomer email | insertCustomer email => cases failure <;> exact nomatch (Prod.mk.inj h).1
    | flushTicket ticket => exact nomatch (Prod.mk.inj h).1
    | flushDocument title content => exact nomatch (Prod.mk.inj h).1
    | commitChunks chunks => exact nomatch (Prod.mk.inj h).1
    | commit => exact nomatch (Prod.mk.inj h).1

/-- A statement that fails writes no row, so none is noted. -/
theorem note_error_ids {history : History} {w : World} (e : StorageError) :
    (history.note failure w c (.error e)).ids = history.ids := by
  unfold History.note
  split <;> simp_all [History.ids]

/-- `note` never takes back that something was committed. -/
theorem note_committed {history : History} {w : World} {answer : Except StorageError c.Reply}
    (h : (history.note failure w c answer).committed = false) : history.committed = false := by
  unfold History.note at h
  split at h <;> first | exact h | exact nomatch h

/-- What a statement does is within its `Effect`. -/
theorem exec_effect {answer : Except StorageError c.Reply}
    (h : v.exec pg failure c = (answer, v')) : Effect failure c v v' := by
  obtain ⟨hexec, hhistory⟩ := exec_eq_iff.mp h
  match answer with
  | .error e =>
    have hids : v'.history.ids = v.history.ids := by rw [hhistory, note_error_ids]
    -- A statement that failed wrote nothing, or emptied the session
    rcases exec_error hexec with hworld | hworld | hworld
    · exact .kept (by rw [hworld]) (by rw [hworld]) (.inl (by rw [hworld])) hids
    · exact .kept (by rw [hworld]; rfl) (by rw [hworld]; rfl) (.inl (by rw [hworld]; rfl)) hids
    · exact .kept (by rw [hworld]; rfl) (by rw [hworld]; rfl) (.inr (by rw [hworld]; rfl)) hids
  | .ok reply =>
    cases c with
    -- A look-up only begins the transaction
    | findCustomer email =>
      obtain ⟨-, -, hworld⟩ := findCustomer_ok hexec
      have hids : v'.history.ids = v.history.ids := by rw [hhistory]; rfl
      exact .kept (by rw [hworld]; rfl) (by rw [hworld]; rfl) (.inl (by rw [hworld]; rfl)) hids
    -- An insert stages one customer under a fresh id, at an address nobody has
    | insertCustomer email =>
      obtain ⟨rfl, stored, haccepted, hnew, hworld⟩ := insertCustomer_ok hexec
      refine .staged _ hworld (fun id hid => List.mem_singleton.mp hid) ?_ (.inr ?_)
      · intro id hid
        rw [hhistory] at hid
        simpa [History.note, History.ids, or_assoc, or_comm, or_left_comm] using hid
      · refine ⟨failure_of_ok hexec, email, _, rfl, rfl, haccepted.held, fun other hother => ?_⟩
        have hdiffers := List.any_eq_false.mp hnew other hother
        simpa using hdiffers
    | flushTicket ticket =>
      obtain ⟨-, -, rfl, row, hid, -, hworld⟩ := flushTicket_ok hexec
      refine .staged _ hworld (fun id hmem => (List.mem_singleton.mp hmem).trans hid) ?_ (.inl rfl)
      intro id hid
      rw [hhistory] at hid
      simpa [History.note, History.ids, or_assoc] using hid
    | flushDocument title content =>
      obtain ⟨-, -, -, stored, hworld⟩ := flushDocument_ok hexec
      refine .staged _ hworld nofun ?_ (.inl rfl)
      intro id hid
      rw [hhistory] at hid
      exact .inl hid
    -- A commit moves what is staged into the tables
    | commitChunks chunks =>
      exact .committed _ (commitChunks_ok hexec) rfl (by rw [hhistory]; rfl)
    | commit => exact .committed _ (Storage.commit_ok hexec) rfl (by rw [hhistory]; rfl)

/-- An `Effect` takes no customer and no ticket from the tables. -/
theorem Effect.tables_grow (h : Effect failure c v v') :
    (∀ row ∈ v.world.tables.customers, row ∈ v'.world.tables.customers) ∧
      ∀ row ∈ v.world.tables.tickets, row ∈ v'.world.tables.tickets := by
  cases h with
  | kept htables _ _ _ =>
    rw [htables]
    exact ⟨fun _ h => h, fun _ h => h⟩
  | staged rows hworld _ _ _ =>
    rw [hworld]
    exact ⟨fun _ h => h, fun _ h => h⟩
  | committed rows hworld _ _ =>
    rw [hworld]
    exact ⟨fun _ h => List.mem_append_left _ (List.mem_append_left _ h),
      fun _ h => List.mem_append_left _ (List.mem_append_left _ h)⟩

end Effects

/-! ## All calls together -/

/-- A row that is not committed, and that no session has staged but its owner. -/
structure Unseen (s : Sessions k) (owner : Option (Fin k)) (id : RowId) : Prop where
  old : id < s.drawn
  uncommitted : id ∉ s.tables.ids
  unstaged : ∀ m, some m ≠ owner → id ∉ (s.staged m).ids

/-- What the constraints of the database keep true of the rows. -/
structure Consistent (s : Sessions k) : Prop where
  committed : (s.tables.customers.map Customer.email).Nodup
  unique : ∀ n, ((s.world n).seen.customers.map Customer.email).Nodup
  apart : ∀ m n, m ≠ n → ∀ a ∈ (s.staged m).customers, ∀ b ∈ (s.staged n).customers,
    a.email ≠ b.email
  old : ∀ id ∈ s.tables.ids, id < s.drawn
  staged : ∀ n, ∀ id ∈ (s.staged n).ids, id < s.drawn

section Rows

variable {s : Sessions k} {m n : Fin k} {c : Call} {history : History} {v : View}
  {call : Option Pending}

/-- The ids of two tables are those of either. -/
theorem mem_append_ids {a b : Tables} {id : RowId} :
    id ∈ (a ++ b).ids ↔ id ∈ a.ids ∨ id ∈ b.ids := by
  simp only [Tables.ids, Tables.append_customers, Tables.append_tickets, List.map_append,
    List.mem_append]
  exact or_or_or_comm

/-- Empty tables have no ids. -/
@[simp]
theorem ids_empty : ({} : Tables).ids = [] := rfl

/-- A row that another session has staged stays `Unseen` by an `Effect` on this one. -/
theorem Unseen.put {owner : Option (Fin k)} {id : RowId} (h : Unseen s owner id)
    (heffect : Effect failure c (s.view n history) v)
    (howner : owner = some n → v.history.committed = false) :
    Unseen (s.put n v.world call) owner id := by
  have hother : ∀ m, m ≠ n → some m ≠ owner → id ∉ ((s.put n v.world call).staged m).ids := by
    intro m hm hne
    rw [Sessions.put_staged_ne _ _ _ hm]
    exact h.unstaged m hne
  -- What is left is the rows that the session has staged now.
  suffices id < v.world.drawn ∧ id ∉ v.world.tables.ids ∧
      (some n ≠ owner → id ∉ v.world.session.staged.ids) by
    refine ⟨this.1, this.2.1, fun m hne => ?_⟩
    by_cases hm : m = n
    · subst hm
      rw [Sessions.put_staged_self]
      exact this.2.2 hne
    · exact hother m hm hne
  -- An id drawn now is not one drawn before
  cases heffect with
  | kept htables hdrawn hstaged _ =>
    rw [htables, hdrawn]
    refine ⟨h.old, h.uncommitted, fun hne => ?_⟩
    rcases hstaged with hstaged | hstaged
    · rw [hstaged]
      exact h.unstaged n hne
    · rw [hstaged]
      exact nofun
  | staged rows hworld hrows _ _ =>
    rw [hworld]
    refine ⟨Nat.lt_succ_of_lt h.old, h.uncommitted, fun hne => ?_⟩
    rw [World.stage_staged, mem_append_ids, not_or]
    exact ⟨h.unstaged n hne, fun hid => absurd (hrows id hid) (Nat.ne_of_lt h.old)⟩
  | committed rows hworld hrows hcommitted =>
    have hne : some n ≠ owner := fun heq => nomatch (howner heq.symm).symm.trans hcommitted
    rw [hworld]
    refine ⟨h.old, ?_, fun _ => nofun⟩
    rw [World.commit_tables, mem_append_ids, mem_append_ids, hrows]
    simp only [List.not_mem_nil, or_false, not_or]
    exact ⟨h.uncommitted, h.unstaged n hne⟩

/-- `Consistent` is kept by a session that stages nothing new. -/
theorem Consistent.kept {w : World} (h : Consistent s) (htables : w.tables = s.tables)
    (hdrawn : w.drawn = s.drawn)
    (hstaged : w.session.staged = s.staged n ∨ w.session.staged = {}) :
    Consistent (s.put n w call) := by
  -- No session stages a customer it did not stage before
  have hcustomers : ∀ m, ∀ a ∈ ((s.put n w call).staged m).customers,
      a ∈ (s.staged m).customers := by
    intro m a ha
    by_cases hm : m = n
    · subst hm
      rw [Sessions.put_staged_self] at ha
      rcases hstaged with hstaged | hstaged
      · rwa [hstaged] at ha
      · rw [hstaged] at ha
        cases ha
    · rwa [Sessions.put_staged_ne _ _ _ hm] at ha
  constructor
  · rw [Sessions.put_tables, htables]
    exact h.committed
  · intro m
    by_cases hm : m = n
    · subst hm
      rw [Sessions.put_world_self, World.seen, htables]
      rcases hstaged with hstaged | hstaged
      · rw [hstaged]
        exact h.unique m
      · rw [hstaged, Tables.append_customers, List.append_nil]
        exact h.committed
    · rw [Sessions.put_seen_ne _ _ _ hm, htables]
      exact h.unique m
  -- So no two sessions stage one address
  · exact fun m m' hne a ha b hb => h.apart m m' hne a (hcustomers m a ha) b (hcustomers m' b hb)
  · rw [Sessions.put_tables, Sessions.put_drawn, htables, hdrawn]
    exact h.old
  · intro m id hid
    rw [Sessions.put_drawn, hdrawn]
    by_cases hm : m = n
    · subst hm
      rw [Sessions.put_staged_self] at hid
      rcases hstaged with hstaged | hstaged
      · rw [hstaged] at hid
        exact h.staged m id hid
      · rw [hstaged] at hid
        cases hid
    · rw [Sessions.put_staged_ne _ _ _ hm] at hid
      exact h.staged m id hid

/-- Rows are staged, and a customer among them is of an address that nobody else has staged. -/
theorem Consistent.stage {rows : Tables} (h : Consistent s)
    (hrows : ∀ id ∈ rows.ids, id = s.drawn)
    (hcustomers : rows.customers = [] ∨ ∃ row, rows.customers = [row] ∧
      (∀ other ∈ (s.world n).seen.customers, other.email ≠ row.email) ∧
      ∀ m, m ≠ n → ∀ other ∈ (s.staged m).customers, other.email ≠ row.email) :
    Consistent (s.put n ((s.world n).stage rows) call) := by
  -- An address staged here is staged nowhere else
  have hnew : ∀ m, m ≠ n → ∀ a ∈ (s.staged n).customers ++ rows.customers,
      ∀ b ∈ (s.staged m).customers, b.email ≠ a.email := by
    intro m hm a ha b hb
    rcases List.mem_append.mp ha with ha | ha
    · exact h.apart m n hm b hb a ha
    · rcases hcustomers with hnone | ⟨row, hrow, -, hothers⟩
      · rw [hnone] at ha
        exact nomatch ha
      · rw [hrow, List.mem_singleton] at ha
        exact ha ▸ hothers m hm b hb
  constructor
  · exact h.committed
  · intro m
    by_cases hm : m = n
    · subst hm
      rw [Sessions.put_world_self, World.stage_seen_customers]
      rcases hcustomers with hnone | ⟨row, hrow, hseen, -⟩
      · rw [hnone, List.append_nil]
        exact h.unique m
      · rw [hrow, List.map_append, List.map_singleton, List.nodup_append]
        refine ⟨h.unique m, List.nodup_singleton _, fun a ha b hb => ?_⟩
        obtain ⟨other, hother, rfl⟩ := List.mem_map.mp ha
        rw [List.mem_singleton.mp hb]
        exact hseen other hother
    · rw [Sessions.put_seen_ne _ _ _ hm]
      exact h.unique m
  · intro m m' hne a ha b hb
    by_cases hm : m = n
    · subst hm
      rw [Sessions.put_staged_self] at ha
      rw [Sessions.put_staged_ne _ _ _ hne.symm] at hb
      exact (hnew m' hne.symm a ha b hb).symm
    · rw [Sessions.put_staged_ne _ _ _ hm] at ha
      by_cases hm' : m' = n
      · subst hm'
        rw [Sessions.put_staged_self] at hb
        exact hnew m hm b hb a ha
      · rw [Sessions.put_staged_ne _ _ _ hm'] at hb
        exact h.apart m m' hne a ha b hb
  · exact fun id hid => Nat.lt_succ_of_lt (h.old id hid)
  · intro m id hid
    by_cases hm : m = n
    · subst hm
      rw [Sessions.put_staged_self, World.stage_staged, mem_append_ids] at hid
      rcases hid with hid | hid
      · exact Nat.lt_succ_of_lt (h.staged m id hid)
      · rw [hrows id hid]
        exact Nat.lt_succ_self _
    · rw [Sessions.put_staged_ne _ _ _ hm] at hid
      exact Nat.lt_succ_of_lt (h.staged m id hid)

/-- What a session has staged is committed. -/
theorem Consistent.commit {rows : Tables} (h : Consistent s) (hrows : rows.ids = []) :
    Consistent (s.put n ((s.world n).commit rows) call) := by
  obtain ⟨hcustomers, -⟩ := ids_eq_nil.mp hrows
  have htables : ((s.world n).commit rows).tables.customers =
      s.tables.customers ++ (s.staged n).customers := by
    rw [World.commit_tables, Tables.append_customers, hcustomers, List.append_nil]
    rfl
  -- The session that commits has nothing staged any more
  have hstaged : ∀ m, ∀ a ∈ ((s.put n ((s.world n).commit rows) call).staged m).customers,
      m ≠ n ∧ a ∈ (s.staged m).customers := by
    intro m a ha
    by_cases hm : m = n
    · subst hm
      rw [Sessions.put_staged_self] at ha
      cases ha
    · rw [Sessions.put_staged_ne _ _ _ hm] at ha
      exact ⟨hm, ha⟩
  constructor
  · rw [Sessions.put_tables, htables]
    exact h.unique n
  · intro m
    by_cases hm : m = n
    · subst hm
      rw [Sessions.put_world_self, World.commit_seen_customers, hcustomers, List.append_nil]
      exact h.unique m
    · rw [Sessions.put_seen_ne _ _ _ hm, Tables.append_customers, htables, List.map_append,
        List.nodup_append]
      have hm' := h.unique m
      rw [World.seen, Tables.append_customers, List.map_append, List.nodup_append] at hm'
      obtain ⟨-, hother, htabled⟩ := hm'
      refine ⟨h.unique n, hother, fun a ha b hb => ?_⟩
      rw [List.map_append, List.mem_append] at ha
      -- The other sessions see the new rows, which are none of theirs
      rcases ha with ha | ha
      · exact htabled a ha b hb
      · obtain ⟨x, hx, rfl⟩ := List.mem_map.mp ha
        obtain ⟨y, hy, rfl⟩ := List.mem_map.mp hb
        exact h.apart n m (Ne.symm hm) x hx y hy
  · exact fun m m' hne a ha b hb => h.apart m m' hne a (hstaged m a ha).2 b (hstaged m' b hb).2
  · intro id hid
    rw [Sessions.put_tables, World.commit_tables, mem_append_ids, mem_append_ids, hrows] at hid
    rcases hid with (hid | hid) | hid
    · exact h.old id hid
    · exact h.staged n id hid
    · cases hid
  · intro m id hid
    by_cases hm : m = n
    · subst hm
      rw [Sessions.put_staged_self] at hid
      cases hid
    · rw [Sessions.put_staged_ne _ _ _ hm] at hid
      exact h.staged m id hid

/-- A statement that need not wait keeps the desks apart. -/
theorem Consistent.put (h : Consistent s) (heffect : Effect failure c (s.view n history) v)
    (hfree : ¬(failure = none ∧ s.Blocked n c)) : Consistent (s.put n v.world call) := by
  cases heffect with
  | kept htables hdrawn hstaged _ => exact h.kept htables hdrawn hstaged
  | staged rows hworld hrows _ hcustomers =>
    rw [hworld]
    refine h.stage hrows (hcustomers.imp_right ?_)
    rintro ⟨hnone, email, row, rfl, hrow, hheld, hseen⟩
    refine ⟨row, hrow, hseen, fun m hm other hother hemail => hfree ⟨hnone, m, hm, ?_⟩⟩
    exact ⟨other, hother, hemail ▸ hheld⟩
  | committed rows hworld hrows _ =>
    rw [hworld]
    exact h.commit hrows

/-- What the constraints keep true, what every call is about to do, and what is left of those that
    are over. -/
structure Inv (pg : Postgres) (table : LowerTable) (s : Sessions k) : Prop
    extends Consistent s where
  idle : ∀ n, (s.desks n).call = none → (s.staged n).ids = []
  safe : ∀ n call, (s.desks n).call = some call →
    call.work.Safe (asked pg) Rely (Settled table call.request) (s.view n call.history)
  own : ∀ n call, (s.desks n).call = some call → call.history.committed = false →
    ∀ id ∈ call.history.ids, Unseen s (some n) id
  customers : ∀ call ∈ s.finished, call.history.lost = true → call.history.customers = []
  stored : ∀ call ∈ s.finished, ∀ reply, call.result = .ok reply →
    Stored table call.request reply s.tables
  blameless : ∀ call ∈ s.finished, ∀ e, call.result = .error e → call.history.lost = true →
    call.history.healthy = true → ¬Fits call.request
  unseen : ∀ call ∈ s.finished, ∀ e, call.result = .error e →
    ∀ id ∈ call.history.ids, Unseen s none id

/-- `Inv` holds at first. -/
theorem Inv.init (database : Storage.Database) :
    Inv pg table (sessions pg table database k).init where
  committed := database.unique
  unique := by
    intro n
    have hseen : (((sessions pg table database k).init.world n).seen).customers =
        database.tables.customers := List.append_nil _
    rw [hseen]
    exact database.unique
  apart := nofun
  old := database.old
  staged := nofun
  idle := fun _ _ => rfl
  safe := nofun
  own := nofun
  customers := nofun
  stored := nofun
  blameless := nofun
  unseen := nofun

/-- What one desk does is what another relies on. -/
theorem Effect.rely (h : Effect failure c (s.view n history) v) (hm : m ≠ n)
    (history' : History) :
    Rely (s.view m history') ((s.put n v.world call).view m history') where
  session := by
    unfold Sessions.view Sessions.world
    rw [Sessions.put_ne _ _ _ hm]
  history := rfl
  customers := h.tables_grow.1
  tickets := h.tables_grow.2

/-- `Inv` is kept by a session that moves within an `Effect` and goes on with a safe call or
    none. -/
theorem Inv.put (h : Inv pg table s) (heffect : Effect failure c (s.view n history) v)
    (hfree : ¬(failure = none ∧ s.Blocked n c))
    (hidle : call = none → v.world.session.staged.ids = [])
    (hsafe : ∀ pending, call = some pending → pending.work.Safe (asked pg) Rely
      (Settled table pending.request) { world := v.world, history := pending.history })
    (hown : ∀ pending, call = some pending → pending.history.committed = false →
      ∀ id ∈ pending.history.ids, Unseen (s.put n v.world call) (some n) id) :
    Inv pg table (s.put n v.world call) where
  toConsistent := h.toConsistent.put heffect hfree
  idle m hcall := by
    by_cases hm : m = n
    · subst hm
      rw [Sessions.put_self] at hcall
      rw [Sessions.put_staged_self]
      exact hidle hcall
    · rw [Sessions.put_ne _ _ _ hm] at hcall
      rw [Sessions.put_staged_ne _ _ _ hm]
      exact h.idle m hcall
  safe m pending hcall := by
    by_cases hm : m = n
    · subst hm
      rw [Sessions.put_self] at hcall
      unfold Sessions.view
      rw [Sessions.put_world_self]
      exact hsafe pending hcall
    · rw [Sessions.put_ne _ _ _ hm] at hcall
      -- A call that waits is safe against what the others do
      exact (h.safe m pending hcall).wait Rely.trans (heffect.rely hm pending.history)
  own m pending hcall huncommitted id hid := by
    by_cases hm : m = n
    · subst hm
      rw [Sessions.put_self] at hcall
      exact hown pending hcall huncommitted id hid
    · rw [Sessions.put_ne _ _ _ hm] at hcall
      exact (h.own m pending hcall huncommitted id hid).put heffect
        fun heq => absurd (Option.some.inj heq) hm
  customers := h.customers
  stored finished hfinished reply hreply :=
    (h.stored finished hfinished reply hreply).mono heffect.tables_grow.1 heffect.tables_grow.2
  blameless := h.blameless
  unseen finished hfinished e he id hid :=
    (h.unseen finished hfinished e he id hid).put heffect nofun

/-- A session on which nothing is done is within the `Effect` of a `COMMIT`. -/
theorem kept_self : Effect none .commit (s.view n history) (s.view n history) :=
  .kept rfl rfl (.inl rfl) rfl

/-- `Inv` is kept when a request is begun. -/
theorem Inv.started (h : Inv pg table s) (request : Request)
    (hcall : (s.desks n).call = none) :
    Inv pg table (s.put n (s.world n) (some (Sessions.opened table (s.desks n).session request))) := by
  have hunwritten : ∀ address, Unwritten address
      { world := s.world n
        history := (Sessions.opened table (s.desks n).session request).history } := by
    intro address
    exact {
      staged := h.idle n hcall
      uncommitted := rfl
      customers := rfl
      active := of_decide_eq_true
      winner := nofun }
  have hkept : Effect none .commit (s.view n { healthy := true })
      (s.view n { healthy := true }) := kept_self
  refine h.put hkept (fun hblocked => hblocked.2) nofun ?_ ?_
  · rintro _ ⟨⟩
    cases request with
    | create customerEmail subject body ownerSubject => exact create_safe (hunwritten _) rfl
    | getOrCreate email => exact getOrCreate_safe (hunwritten _) rfl
  · rintro _ ⟨⟩ _ _ hid
    exact nomatch hid

/-- `Inv` is kept when a statement is answered. -/
theorem Inv.asked (h : Inv pg table s) {request : Request}
    {next : Except StorageError c.Reply → Work request.Reply}
    (hcall : (s.desks n).call = some ⟨request, .call c next, history⟩)
    (hfree : ¬(failure = none ∧ s.Blocked n c)) {answer : Except StorageError c.Reply}
    (hexec : (s.view n history).exec pg failure c = (answer, v)) :
    Inv pg table (s.put n v.world (some ⟨request, next answer, v.history⟩)) := by
  have heffect := exec_effect hexec
  refine h.put heffect hfree nofun ?_ ?_
  · rintro _ ⟨⟩
    exact (h.safe n _ hcall).next Rely.refl ⟨failure, hexec⟩
  · rintro _ ⟨⟩ huncommitted id hid
    have hbefore : history.committed = false := by
      refine note_committed (?_ : (history.note failure (s.world n) c answer).committed = false)
      rw [← huncommitted]
      exact congrArg History.committed (exec_eq_iff.mp hexec).2.symm
    have hearlier : id ∈ history.ids → Unseen (s.put n v.world
        (some ⟨request, next answer, v.history⟩)) (some n) id :=
      fun hid => (h.own n _ hcall hbefore id hid).put heffect fun _ => huncommitted
    cases heffect with
    | kept htables hdrawn hstaged hids => exact hearlier (hids ▸ hid)
    | staged rows hworld hrows hids hcustomers =>
      rcases hids id hid with hid | hnew
      · exact hearlier hid
      · -- The id was drawn for the row.
        have hdrawn : id = s.drawn := hnew
        refine ⟨?_, ?_, fun m hne => ?_⟩
        · rw [Sessions.put_drawn, hworld, hdrawn]
          exact Nat.lt_succ_self _
        · rw [Sessions.put_tables, hworld, hdrawn]
          exact fun hmem => Nat.lt_irrefl _ (h.old s.drawn hmem)
        · have hm : m ≠ n := fun heq => hne (congrArg some heq)
          rw [Sessions.put_staged_ne _ _ _ hm, hdrawn]
          exact fun hmem => Nat.lt_irrefl _ (h.staged m s.drawn hmem)
    | committed rows hworld hrows hcommitted => exact nomatch huncommitted.symm.trans hcommitted

/-- `Inv` is kept when a session is rolled back. -/
theorem Inv.rolledBack (h : Inv pg table s) :
    Inv pg table (s.put n { s.world n with session := .fresh } none) := by
  have hkept : Effect none .commit (s.view n { healthy := true })
      { world := { s.world n with session := .fresh }, history := { healthy := true } } :=
    .kept rfl rfl (.inr rfl) rfl
  exact h.put hkept (fun hblocked => hblocked.2) (fun _ => rfl) nofun nofun

/-- `Inv` is kept when a request returns. -/
theorem Inv.ended (h : Inv pg table s) {request : Request}
    {result : Except StorageError request.Reply}
    (hcall : (s.desks n).call = some ⟨request, .ret result, history⟩) :
    Inv pg table { s.put n (s.world n) none with
      finished := s.finished ++ [{ request, result, history }] } := by
  have hsettled : Settled table request result (s.view n history) :=
    (h.safe n _ hcall).ret Rely.refl
  -- The end of a call is a step that changes no row
  have hkept : Effect none .commit (s.view n history) (s.view n history) := kept_self
  have hput : Inv pg table (s.put n (s.world n) none) :=
    h.put hkept (fun hblocked => hblocked.2) (fun _ => hsettled.staged) nofun nofun
  exact { hput with
    own := by
      intro m call hcall huncommitted id hid
      obtain ⟨hold, huncommitted, hunstaged⟩ := hput.own m call hcall huncommitted id hid
      exact ⟨hold, huncommitted, hunstaged⟩
    customers := by
      intro call hmem
      rcases List.mem_append.mp hmem with hmem | hmem
      · exact h.customers call hmem
      · rw [List.mem_singleton.mp hmem]
        exact hsettled.customers
    stored := by
      intro call hmem
      rcases List.mem_append.mp hmem with hmem | hmem
      · exact h.stored call hmem
      · rw [List.mem_singleton.mp hmem]
        exact hsettled.stored
    blameless := by
      intro call hmem
      rcases List.mem_append.mp hmem with hmem | hmem
      · exact h.blameless call hmem
      · rw [List.mem_singleton.mp hmem]
        exact hsettled.blameless
    -- What an unsuccessful call drew is seen nowhere
    unseen := by
      intro call hmem e he id hid
      rcases List.mem_append.mp hmem with hmem | hmem
      · obtain ⟨hold, huncommitted, hunstaged⟩ := hput.unseen call hmem e he id hid
        exact ⟨hold, huncommitted, hunstaged⟩
      · rw [List.mem_singleton.mp hmem] at he hid
        obtain ⟨hold, huncommitted, hunstaged⟩ :=
          h.own n _ hcall (hsettled.uncommitted e he) id hid
        refine ⟨hold, huncommitted, fun m _ => ?_⟩
        by_cases hm : m = n
        · subst hm
          have hnone : (s.staged m).ids = [] := hsettled.staged
          exact fun hmem => nomatch hnone ▸ (Sessions.put_staged_self s (s.world m) none) ▸ hmem
        · have hne : some m ≠ some n := fun heq => hm (Option.some.inj heq)
          have hsame : (s.put n (s.world n) none).staged m = s.staged m :=
            Sessions.put_staged_ne s _ none hm
          exact fun hmem => hunstaged m hne (hsame ▸ hmem) }

/-- `Inv` is kept by every step of the sessions. -/
theorem Inv.step {database : Storage.Database} {s' : Sessions k} {event : Event k}
    (h : Inv pg table s)
    (hstep : (sessions pg table database k).step s event = some s') : Inv pg table s' := by
  obtain ⟨n, hstep⟩ := Sessions.step_cases hstep
  cases hstep with
  | started request hcall => exact h.started request hcall
  | ended request result history hcall => exact h.ended hcall
  | asked failure request c next history hcall hfree => exact h.asked hcall hfree rfl
  | rolledBack hcall => exact h.rolledBack

end Rows

/-- `CreatedOnce` holds in every reachable state, however the calls of the sessions interleave and
    whatever fails. -/
theorem created_once (pg : Postgres) (table : LowerTable) (database : Storage.Database) (k : Nat)
    {s : Sessions k} (hs : (sessions pg table database k).Reachable s) : CreatedOnce table s := by
  have h : Inv pg table s := hs.invariant (.init database) fun s event s' h _ hstep =>
    h.step hstep
  exact {
    unique := h.committed
    stored := h.stored
    same := by
      intro a ha b hb haddress x y hx hy
      obtain ⟨row, hrow, hid, hemail⟩ := (h.stored a ha x hx).customer
      obtain ⟨row', hrow', hid', hemail'⟩ := (h.stored b hb y hy).customer
      have heq : row = row' := List.inj_on_of_nodup_map h.committed hrow hrow'
        (hemail.trans (haddress.trans hemail'.symm))
      rw [← hid, ← hid', heq]
    loser := by
      intro call hcall hlost
      refine ⟨h.customers call hcall hlost, fun hhealthy hfits => ?_⟩
      match hresult : call.result with
      | .ok reply => exact ⟨reply, rfl⟩
      | .error e => exact absurd hfits (h.blameless call hcall e hresult hlost hhealthy)
    nothing := fun call hcall e he id hid => (h.unseen call hcall e he id hid).uncommitted }

/-- A database without rows. -/
def emptyDatabase : Storage.Database where
  tables := {}
  drawn := 0
  unique := .nil
  old := nofun

/-- Two sessions see no customer, and the second one waits for the first to commit. -/
def race : List (Event 2) :=
  [.start 0 (.getOrCreate (lit "a@b")), .start 1 (.create (lit "A@B ") [0x61] [0x61] none),
    .advance 0 none, .advance 1 none, .advance 0 none, .advance 0 none, .advance 1 none,
    .advance 0 none, .advance 1 none, .advance 1 none, .advance 1 none, .advance 1 none]

/-- Two requests race for an address: the second loses its `INSERT`, and both find one customer. -/
theorem created_once_race : ∃ s,
    (sessions plainSite.postgres plainSite.table emptyDatabase 2).run race = some s ∧
      CreatedOnce plainSite.table s ∧
        s.finished.map (fun call => call.history.lost) = [false, true] := by
  have hrun : ∃ s,
      (sessions plainSite.postgres plainSite.table emptyDatabase 2).run race = some s ∧
        s.finished.map (fun call => call.history.lost) = [false, true] := ⟨_, rfl, rfl⟩
  obtain ⟨s, hs, hlost⟩ := hrun
  exact ⟨s, hs, created_once _ _ _ _ (Machine.reachable_of_run race hs), hlost⟩

end NexaAssist.Spec.CustomerIdentity
