import NexaAssist.Jobs.Domain

/-!
# What one attempt at a job does to the later ones

A worker's attempts share a session that nobody rolls back. Once a statement has failed at a
flush or in an open transaction, outside a savepoint, no later attempt succeeds. Until then
every attempt succeeds that would on a session of its own.
-/

namespace NexaAssist.Spec.AttemptIsolation

open NexaAssist PyJson Jobs Storage

/-! ## What makes a session inactive -/

/-- `tickets` takes a row: its own constraints, and the customer it belongs to. -/
def ticketAccepted (w : World) (ticket : NewTicket) : Bool :=
  ticket.storable && ticket.fits && w.seen.customers.any fun customer => customer.id = ticket.customerId

/-- A call that fails at a flush or in an open transaction, and not inside a savepoint. A query
    that finds no connection when no transaction is open does neither. -/
def severs (pg : Postgres) (failure : Option Failure) (w : World) : Call → Bool
  | .findCustomer email =>
    match failure with
    | none => wellFormed email && !storable email
    | some (.unavailable _) => w.session.state ≠ .idle
    | some _ => true
  | .insertCustomer _ => failure ≠ none && failure ≠ some .refused
  | .flushTicket ticket => failure.isSome || !ticketAccepted w ticket
  | .flushDocument title content =>
    failure.isSome || !(documentStorable title content && documentFits title content)
  | .commitChunks chunks => failure.isSome || !chunks.all (Chunk.accepted pg)
  | .commit => failure.isSome

/-- `findCustomer` leaves the session inactive just if it severs it. -/
theorem findCustomer_inactive_iff (pg : Postgres) (failure : Option Failure) (w : World)
    (email : PyStr) :
    (findCustomer failure w email).2.session.state = .inactive ↔
      severs pg failure w (.findCustomer email) = true := by
  cases failure with
  | none =>
    cases hwf : wellFormed email <;> cases hstorable : storable email <;>
      simp [findCustomer, severs, World.begun, World.abort, hwf, hstorable]
  | some failure =>
    cases failure with
    | unavailable cancelled =>
      by_cases hidle : w.session.state = .idle <;>
        simp [findCustomer, severs, World.abort, hidle]
    | refused => simp [findCustomer, severs, World.abort]
    | lost cancelled => simp [findCustomer, severs, World.abort]

/-- `insertCustomer` leaves the session inactive just if it severs it. -/
theorem insertCustomer_inactive_iff (pg : Postgres) (failure : Option Failure) (w : World)
    (email : PyStr) :
    (insertCustomer pg failure w email).2.session.state = .inactive ↔
      severs pg failure w (.insertCustomer email) = true := by
  cases failure with
  | none =>
    simp only [insertCustomer]
    split
    · simp [severs, World.begun]
    · split
      · simp [severs, World.begun]
      · split <;> simp [severs, World.begun, World.stage]
  | some failure => cases failure <;> simp [insertCustomer, severs, World.begun, World.abort]

/-- A row is refused where its columns cannot hold it. -/
theorem varchar_of_fits {n : Nat} {text : PyStr} (h : fits n text = true) :
    ∃ stored, varchar n text = some stored := by
  unfold fits at h
  cases hstored : varchar n text with
  | none => simp [hstored] at h
  | some stored => exact ⟨stored, rfl⟩

/-- `flushTicket` leaves the session inactive just if it severs it. -/
theorem flushTicket_inactive_iff (pg : Postgres) (failure : Option Failure) (w : World)
    (ticket : NewTicket) :
    (flushTicket failure w ticket).2.session.state = .inactive ↔
      severs pg failure w (.flushTicket ticket) = true := by
  cases failure with
  | some failure => simp [flushTicket, severs, World.abort]
  | none =>
    simp only [flushTicket, severs, ticketAccepted, Option.isSome_none, Bool.false_or]
    cases hsubject : varchar 200 ticket.subject with
    | none => simp [World.abort, NewTicket.fits, fits, hsubject]
    | some subject =>
      cases howner : ticket.ownerSubject.all (fun owner => (varchar 200 owner).isSome) with
      | false => simp [World.abort, NewTicket.fits, howner]
      | true =>
        cases hstorable : ticket.storable <;> cases hfits : ticket.fits <;>
          cases w.seen.customers.any fun customer => customer.id = ticket.customerId <;>
          simp [World.abort, World.stage]

/-- `flushDocument` leaves the session inactive just if it severs it. -/
theorem flushDocument_inactive_iff (pg : Postgres) (failure : Option Failure) (w : World)
    (title content : PyStr) :
    (flushDocument failure w title content).2.session.state = .inactive ↔
      severs pg failure w (.flushDocument title content) = true := by
  cases failure with
  | some failure => simp [flushDocument, severs, World.abort]
  | none =>
    simp only [flushDocument, severs, Option.isSome_none, Bool.false_or]
    cases hstored : varchar 300 title with
    | none => simp [World.abort, documentFits, fits, hstored]
    | some stored =>
      cases hstorable : documentStorable title content <;>
        cases hfits : documentFits title content <;> simp [World.abort, World.stage]

/-- A call leaves the session inactive just where it severs it. -/
theorem exec_inactive_iff (pg : Postgres) (failure : Option Failure) {w : World} (c : Call)
    (h : w.session.state ≠ .inactive) :
    (exec pg failure w c).2.session.state = .inactive ↔ severs pg failure w c = true := by
  rw [exec_eq c h]
  cases c with
  | findCustomer email => exact findCustomer_inactive_iff pg failure w email
  | insertCustomer email => exact insertCustomer_inactive_iff pg failure w email
  | flushTicket ticket => exact flushTicket_inactive_iff pg failure w ticket
  | flushDocument title content => exact flushDocument_inactive_iff pg failure w title content
  | commitChunks chunks =>
    cases failure with
    | some failure => simp [commitChunks, severs, World.abort]
    | none =>
      cases hall : chunks.all (Chunk.accepted pg) <;>
        simp [commitChunks, severs, World.abort, World.commit, Session.fresh, hall]
  | commit =>
    cases failure with
    | some failure => simp [Storage.commit, severs, World.abort]
    | none => simp [Storage.commit, severs, World.commit, Session.fresh]

/-! ## What an attempt leaves behind -/

/-- How a call may be answered. -/
abbrev answered (pg : Postgres) (c : Call) (w : World) (result : Except StorageError c.Reply)
    (t : World) : Prop :=
  ∃ failure, exec pg failure w c = (result, t)

/-- No customer is staged. -/
def Tidy (w : World) : Prop := w.session.staged.customers = []

section Tidy

variable {pg : Postgres} {failure : Option Failure} {w t : World}

/-- A statement that fails leaves a tidy session tidy. -/
theorem Tidy.error {c : Call} {e : StorageError} (hw : Tidy w)
    (h : exec pg failure w c = (.error e, t)) : Tidy t := by
  rcases exec_error h with rfl | rfl | rfl
  · exact hw
  · exact hw
  · rfl

/-- Looking for a customer stages nothing. -/
theorem Tidy.findCustomer {email : PyStr} {result : Except StorageError (Option Customer)}
    (hw : Tidy w) (h : exec pg failure w (.findCustomer email) = (result, t)) : Tidy t := by
  cases result with
  | error e => exact hw.error h
  | ok found =>
    obtain ⟨-, -, rfl⟩ := findCustomer_ok h
    exact hw

/-- Having found or inserted a customer, the session is active; and it was tidy to raise. -/
theorem getOrCreateCustomer_safe (email : PyStr) (hw : Tidy w) :
    (TicketService.getOrCreateCustomer email).Safe (answered pg) Eq
      (fun
        | .ok _, t => t.session.state ≠ .inactive
        | .error _, t => Tidy t) w := by
  refine .bind (fun _ => rfl) (.perform ?_)
  rintro _ rfl found t ⟨failure, hfind⟩ _ rfl
  have ht := hw.findCustomer hfind
  cases found with
  | error e => exact fun _ h => h ▸ ht
  | ok found =>
    obtain ⟨-, -, hbegun⟩ := findCustomer_ok hfind
    cases found with
    | some existing =>
      rintro _ rfl
      simp [hbegun]
    | none =>
      refine .tryCatch (fun _ => rfl) (.perform ?_)
      rintro _ rfl inserted u ⟨failure, hinsert⟩ _ rfl
      cases inserted with
      | ok customer =>
        obtain ⟨-, stored, -, -, rfl⟩ := insertCustomer_ok hinsert
        rintro _ rfl
        simp
      | error e =>
        have hu := ht.error hinsert
        cases e with
        | sqlalchemy integrity =>
          cases integrity with
          | false => exact fun _ h => h ▸ hu
          | true =>
            refine .bind (fun _ => rfl) (.perform ?_)
            rintro _ rfl winner v ⟨failure, hwinner⟩ _ rfl
            have hv := hu.findCustomer hwinner
            cases winner with
            | error e => exact fun _ h => h ▸ hv
            | ok winner =>
              cases winner with
              | none => exact fun _ h => h ▸ hv
              | some winner =>
                obtain ⟨-, -, hbegun⟩ := findCustomer_ok hwinner
                rintro _ rfl
                simp [hbegun]
        | valueError | embedder exception | cancelled => exact fun _ h => h ▸ hu

/-- However an attempt to create a ticket ends, no customer stays behind in its transaction. -/
theorem create_safe (table : LowerTable) (email subject body : PyStr) (owner : Option PyStr)
    (hw : Tidy w) :
    (TicketService.create table email subject body owner).Safe (answered pg) Eq
      (fun _ t => Tidy t) w := by
  refine .bind (fun _ => rfl) ((getOrCreateCustomer_safe _ hw).mono (fun _ _ _ _ h => h) ?_)
  rintro (e | customer) t ht
  · exact fun _ h => h ▸ ht
  refine .bind (fun _ => rfl) (.perform ?_)
  rintro _ rfl ticket u ⟨failure, hticket⟩ _ rfl
  cases ticket with
  | error e =>
    rw [flush_error rfl ht hticket]
    exact fun _ h => h ▸ rfl
  | ok ticket =>
    obtain ⟨-, -, -, row, -, -, rfl⟩ := flushTicket_ok hticket
    refine .bind (fun _ => rfl) (.perform ?_)
    rintro _ rfl committed v ⟨failure, hcommit⟩ _ rfl
    cases committed with
    | error e =>
      rw [flush_error rfl (by simp) hcommit]
      exact fun _ h => h ▸ rfl
    | ok _ =>
      obtain rfl := commit_ok hcommit
      exact fun _ h => h ▸ rfl

/-- `ingest` leaves a tidy session tidy. -/
theorem ingest_safe (embed : List PyStr → Except PyException (List Embedding))
    (title content : PyStr) (hw : Tidy w) :
    (DocumentService.ingest embed title content).Safe (answered pg) Eq (fun _ t => Tidy t) w := by
  rw [DocumentService.ingest_eq]
  simp only
  cases embed (chunksOf content DEFAULT_CHUNK_SIZE) with
  | error exception => exact fun _ h => h ▸ hw
  | ok vectors =>
    refine .bind (fun _ => rfl) (.perform ?_)
    rintro _ rfl document t ⟨failure, hdocument⟩ _ rfl
    cases document with
    | error e => exact fun _ h => h ▸ hw.error hdocument
    | ok document =>
      obtain ⟨-, -, rfl, stored, rfl⟩ := flushDocument_ok hdocument
      have ht : Tidy (w.stage { documents := [{ id := w.drawn, title := stored, content }] }) := by
        rw [Tidy, World.stage_customers, hw]
        rfl
      simp only
      cases DocumentService.zipStrict (chunksOf content DEFAULT_CHUNK_SIZE) vectors with
      | none => exact fun _ h => h ▸ ht
      | some pairs =>
        refine .bind (fun _ => rfl) (.perform ?_)
        rintro _ rfl committed v ⟨failure, hcommit⟩ _ rfl
        cases committed with
        | error e => exact fun _ h => h ▸ ht.error hcommit
        | ok _ =>
          obtain rfl := commitChunks_ok hcommit
          exact fun _ h => h ▸ rfl

/-- No attempt leaves a customer in its transaction. -/
theorem work_safe (site : Site) (x : Conditions) (job : Job) (hw : Tidy w) :
    (site.work x job).Safe (answered site.postgres) Eq (fun _ t => Tidy t) w := by
  unfold Site.work
  split
  · exact fun _ h => h ▸ hw
  · rename_i handler hhandler
    split
    · exact fun _ h => h ▸ hw
    · rename_i params hparams
      rcases List.mem_of_find?_eq_some hhandler with _ | ⟨_, _ | ⟨_, _ | _⟩⟩
      · refine .bind (fun _ => rfl) ((ingest_safe x.embed _ _ hw).mono (fun _ _ _ _ h => h) ?_)
        rintro (e | document) t ht _ rfl
        · exact ht
        · exact ht
      · refine .bind (fun _ => rfl) ((create_safe site.table _ _ _ none hw).mono
          (fun _ _ _ _ h => h) ?_)
        rintro (e | ticket) t ht _ rfl
        · exact ht
        · exact ht

/-- Every attempt leaves the world tidy. -/
theorem after_tidy (site : Site) (x : Conditions) (job : Job) (hw : Tidy w) :
    Tidy (site.after x job w) := by
  have hsafe : (site.work x job).Safe (answered site.postgres) Eq (fun _ t => Tidy t)
      (Prod.fst (w, 0)) := work_safe site x job hw
  have hstep : ∀ (c : Call) (s : World × Nat), True →
      answered site.postgres c s.1 (answer site.postgres x.failures c s).1
        (answer site.postgres x.failures c s).2.1 := fun c s _ => ⟨x.failures s.2, rfl⟩
  exact Program.Safe.run (fun _ => rfl) hstep hsafe (.of_forall (fun _ _ => trivial) _ _)

end Tidy

/-! ## When an attempt spares the session -/

/-- No call of an attempt severs the session. -/
def Spared (site : Site) (w : World) (attempt : Job × Conditions) : Prop :=
  (site.work attempt.2 attempt.1).Meets (answer site.postgres attempt.2.failures)
    (fun c s => severs site.postgres (attempt.2.failures s.2) s.1 c = false) (w, 0)

instance (site : Site) (w : World) (attempt : Job × Conditions) :
    Decidable (Spared site w attempt) :=
  inferInstanceAs (Decidable (Program.Meets _ _ _ _))

/-- No call of a program makes an inactive session active. -/
theorem answer_of_inactive (pg : Postgres) (failures : Nat → Option Failure) (c : Call)
    (s : World × Nat) (h : s.1.session.state = .inactive) :
    (answer pg failures c s).2.1.session.state = .inactive := by
  simp only [answer, exec_of_inactive c h, h]

/-- An inactive session stays inactive. -/
theorem after_of_inactive {site : Site} {x : Conditions} {job : Job} {w : World}
    (h : w.session.state = .inactive) : (site.after x job w).session.state = .inactive :=
  Program.run_invariant (answer_of_inactive site.postgres x.failures) (site.work x job) h

/-- An attempt on an active session leaves it active just when it spares it. -/
theorem spared_iff {site : Site} {x : Conditions} {job : Job} {w : World}
    (h : w.session.state ≠ .inactive) :
    Spared site w (job, x) ↔ (site.after x job w).session.state ≠ .inactive := by
  have hcall : ∀ (c : Call) (s : World × Nat), ¬s.1.session.state = .inactive →
      ((answer site.postgres x.failures c s).2.1.session.state = .inactive ↔
        ¬severs site.postgres (x.failures s.2) s.1 c = false) := by
    intro c s hs
    rw [Bool.not_eq_false]
    exact exec_inactive_iff site.postgres (x.failures s.2) c hs
  exact Program.Meets.iff_of_absorbing hcall (answer_of_inactive site.postgres x.failures)
    (site.work x job) h

/-! ## Two sessions that are alike -/

/-- Both sessions are inactive, or both see the same customers and draw the same id next. -/
def Alike (w t : World) : Prop :=
  w.session.state = .inactive ∧ t.session.state = .inactive ∨
    w.session.state ≠ .inactive ∧ t.session.state ≠ .inactive ∧ w.drawn = t.drawn ∧
      w.seen.customers = t.seen.customers

section Alike

variable {w t : World}

/-- Sessions that are aborted are alike. -/
theorem Alike.abort : Alike w.abort t.abort := .inl ⟨rfl, rfl⟩

/-- Worlds that see the same customers are alike once their transactions have begun. -/
theorem Alike.begun (hdrawn : w.drawn = t.drawn) (hseen : w.seen.customers = t.seen.customers) :
    Alike w.begun t.begun := .inr ⟨nofun, nofun, hdrawn, hseen⟩

/-- Worlds stay alike when they stage the same customers. -/
theorem Alike.stage (hdrawn : w.drawn = t.drawn) (hseen : w.seen.customers = t.seen.customers)
    {rows rows' : Tables} (hrows : rows.customers = rows'.customers) :
    Alike (w.stage rows) (t.stage rows') := by
  refine .inr ⟨nofun, nofun, congrArg (· + 1) hdrawn, ?_⟩
  rw [World.stage_seen_customers, World.stage_seen_customers, hseen, hrows]

/-- Worlds stay alike when they commit the same rows. -/
theorem Alike.commit (hdrawn : w.drawn = t.drawn) (hseen : w.seen.customers = t.seen.customers)
    (rows : Tables) : Alike (w.commit rows) (t.commit rows) := by
  refine .inr ⟨nofun, nofun, hdrawn, ?_⟩
  rw [World.commit_seen_customers, World.commit_seen_customers, hseen]

/-- On a healthy database `exec` answers alike in worlds that are `Alike`, and leaves them so. -/
theorem exec_alike (pg : Postgres) (c : Call) (h : Alike w t) :
    (exec pg none w c).1 = (exec pg none t c).1 ∧
      Alike (exec pg none w c).2 (exec pg none t c).2 := by
  rcases h with ⟨hw, ht⟩ | ⟨hw, ht, hdrawn, hseen⟩
  · rw [exec_of_inactive c hw, exec_of_inactive c ht]
    exact ⟨rfl, .inl ⟨hw, ht⟩⟩
  rw [exec_eq c hw, exec_eq c ht]
  cases c with
  | findCustomer email =>
    simp only [findCustomer, hseen]
    split
    · exact ⟨rfl, .begun hdrawn hseen⟩
    · split
      · exact ⟨rfl, .abort⟩
      · exact ⟨rfl, .begun hdrawn hseen⟩
  | insertCustomer email =>
    simp only [insertCustomer, hseen, hdrawn]
    split
    · exact ⟨rfl, .begun hdrawn hseen⟩
    · split
      · exact ⟨rfl, .begun hdrawn hseen⟩
      · split
        · exact ⟨rfl, .begun hdrawn hseen⟩
        · exact ⟨rfl, .stage hdrawn hseen rfl⟩
  | flushTicket ticket =>
    simp only [flushTicket, hseen, hdrawn]
    split
    · exact ⟨rfl, .abort⟩
    · split
      · exact ⟨rfl, .abort⟩
      · split
        · exact ⟨rfl, .abort⟩
        · exact ⟨rfl, .stage hdrawn hseen rfl⟩
  | flushDocument title content =>
    simp only [flushDocument, hdrawn]
    split
    · exact ⟨rfl, .abort⟩
    · split
      · exact ⟨rfl, .abort⟩
      · split
        · exact ⟨rfl, .abort⟩
        · exact ⟨rfl, .stage hdrawn hseen rfl⟩
  | commitChunks chunks =>
    simp only [commitChunks]
    split
    · exact ⟨rfl, .commit hdrawn hseen _⟩
    · exact ⟨rfl, .abort⟩
  | commit => exact ⟨rfl, .commit hdrawn hseen _⟩

end Alike

/-! ## Attempts that succeed -/

/-- Nothing befalls the database while the attempt is made. -/
def Healthy (x : Conditions) : Prop := ∀ n, x.failures n = none

/-- The worker completes the job. -/
def Succeeds (site : Site) (x : Conditions) (job : Job) (w : World) : Prop :=
  (site.worker x w).dispatch job = .ok .complete

/-- The same database, with a session that nothing was asked of yet. -/
def afresh (w : World) : World := { w with session := .fresh }

/-- Whatever would succeed on a session of its own succeeds on this one. -/
def Isolated (site : Site) (w : World) : Prop :=
  ∀ job x, Healthy x → Succeeds site x job (afresh w) → Succeeds site x job w

/-- Where nothing goes wrong, work gives the same in both. -/
theorem run_alike {α : Type} {site : Site} {x : Conditions} {w t : World} (hx : Healthy x)
    (h : Alike w t) (work : Work α) : (site.run x work w).1 = (site.run x work t).1 := by
  have hcall : ∀ (c : Call) (s u : World × Nat), Alike s.1 u.1 →
      (answer site.postgres x.failures c s).1 = (answer site.postgres x.failures c u).1 ∧
        Alike (answer site.postgres x.failures c s).2.1
          (answer site.postgres x.failures c u).2.1 := by
    intro c s u hsu
    simp only [answer, hx s.2, hx u.2]
    exact exec_alike site.postgres c hsu
  have hboth : Alike (w, 0).1 (t, 0).1 := h
  exact (Program.run_lockstep hcall work hboth).1

/-- On a healthy database `dispatch` ends alike in worlds that are `Alike`. -/
theorem dispatch_alike {site : Site} {x : Conditions} {w t : World} (hx : Healthy x)
    (h : Alike w t) (job : Job) :
    (site.worker x w).dispatch job = (site.worker x t).dispatch job := by
  have hworker : site.worker x w = site.worker x t := by
    simp only [Site.worker, run_alike hx h]
  rw [hworker]

/-- A tidy world whose session is active is `Alike` to one with a session of its own. -/
theorem alike_afresh {w : World} (hw : Tidy w) (h : w.session.state ≠ .inactive) :
    Alike w (afresh w) := by
  refine .inr ⟨h, nofun, rfl, ?_⟩
  show w.tables.customers ++ w.session.staged.customers = w.tables.customers ++ []
  rw [hw]

/-! ## A session that is inactive -/

/-- A document of one letter. -/
def letterJob : Job where
  id := ⟨[0x6a], by decide⟩
  name := lit "ingest_document"
  payload := [(.str (lit "title"), .str [0x61]), (.str (lit "content"), .str [0x61])]
  status := .running
  attempts := 1
  maxAttempts := 3
  error := none
  budget := by decide

/-- A healthy database, and an embedder that returns a vector for every chunk. -/
def plainConditions : Conditions where
  embed pieces := .ok (pieces.map fun _ => List.replicate EMBEDDING_DIMENSIONS (.finite 0))
  failures _ := none

/-- `dispatch` runs `ingest` for the job of the example. -/
theorem letterJob_dispatch (site : Site) (w : World) :
    (site.worker plainConditions w).dispatch letterJob =
      .ok ((site.worker plainConditions w).run (timedCall ingestDocumentHandler.refusal
        (site.run plainConditions
          (DocumentService.ingest plainConditions.embed [0x61] [0x61] >>= fun _ => pure ()) w).1)) :=
  rfl

/-- The content of the letter is one chunk. -/
theorem letterChunks : chunksOf [0x61] DEFAULT_CHUNK_SIZE = [[0x61]] := by decide +kernel

/-- Its only chunk, of the document `id`. -/
def letterChunk (id : RowId) : Chunk where
  documentId := id
  ordinal := 0
  content := [0x61]
  embedding := List.replicate EMBEDDING_DIMENSIONS (.finite 0)

/-- `ingest` of the letter flushes its document and commits its one chunk. -/
theorem letterIngest_eq :
    DocumentService.ingest plainConditions.embed [0x61] [0x61] =
      .call (.flushDocument [0x61] [0x61]) fun
        | .error e => .ret (.error e)
        | .ok document =>
          .call (.commitChunks [letterChunk document.id]) fun
          | .error e => .ret (.error e)
          | .ok () => .ret (.ok document) := by
  rw [DocumentService.ingest_eq]
  simp only [letterChunks, plainConditions, List.map_cons, List.map_nil]
  refine congrArg (Program.call _) (funext fun answer => ?_)
  cases answer with
  | error e => rfl
  | ok document =>
    refine congrArg (Program.call _) (funext fun answer => ?_)
    cases answer <;> rfl

/-- The job of the letter succeeds on a session of its own. -/
theorem letterJob_succeeds (site : Site) (w : World) :
    Succeeds site plainConditions letterJob (afresh w) := by
  unfold Succeeds
  rw [letterJob_dispatch, letterIngest_eq]
  have hstored : varchar 300 [0x61] = some [0x61] := by decide
  have hstorable : documentStorable [0x61] [0x61] = true := by decide
  have hfits : documentFits [0x61] [0x61] = true := by decide
  let document : Storage.Document := { id := w.drawn, title := [0x61], content := [0x61] }
  let staged : World := (afresh w).stage { documents := [document] }
  have hflush : exec site.postgres none (afresh w) (.flushDocument [0x61] [0x61]) =
      (.ok document, staged) := by
    rw [exec_eq _ (by simp [afresh, Session.fresh])]
    simp only [flushDocument, hstored, hstorable, hfits]
    rfl
  have hcommit : exec site.postgres none staged (.commitChunks [letterChunk document.id]) =
      (.ok (), staged.commit { chunks := [letterChunk document.id] }) := by
    have hchunk : (letterChunk document.id).accepted site.postgres = true := by
      show (storable [0x61] && notBlank [0x61] &&
        site.postgres.vector (List.replicate EMBEDDING_DIMENSIONS (.finite 0))) = true
      rw [site.postgres.zeros]
      decide
    rw [exec_eq _ (by simp [staged])]
    simp only [commitChunks, List.all_cons, List.all_nil, hchunk]
    rfl
  simp only [Site.run, Program.call_bind, Program.run_call, answer, plainConditions, hflush,
    hcommit]
  rfl

/-- The job of the letter fails on an inactive session. -/
theorem letterJob_fails (site : Site) {w : World} (h : w.session.state = .inactive) :
    ¬Succeeds site plainConditions letterJob w := by
  unfold Succeeds
  rw [letterJob_dispatch, letterIngest_eq]
  simp only [Site.run, Program.call_bind, Program.run_call, answer, exec_of_inactive _ h]
  intro h
  cases h

/-- A session is isolated just when it is active. -/
theorem isolated_iff_active (site : Site) {w : World} (hw : Tidy w) :
    Isolated site w ↔ w.session.state ≠ .inactive := by
  constructor
  · intro h hinactive
    exact letterJob_fails site hinactive
      (h letterJob plainConditions (fun _ => rfl) (letterJob_succeeds site w))
  · intro hactive job x hx hsucceeds
    unfold Succeeds at hsucceeds ⊢
    rw [dispatch_alike hx (alike_afresh hw hactive), hsucceeds]

/-! ## Runs -/

/-- The session stays tidy, and it is active as long as every attempt spares it. -/
theorem runFrom_isolated (site : Site) (tables : Tables) (drawn : Nat)
    (es : List (Job × Conditions)) {w : World} (hw : Tidy w) :
    ∃ t, (attempts site tables drawn).runFrom w es = some t ∧ Tidy t ∧
      (t.session.state ≠ .inactive ↔
        w.session.state ≠ .inactive ∧ (attempts site tables drawn).Meets (Spared site) w es) := by
  induction es generalizing w with
  | nil => exact ⟨w, rfl, hw, (and_iff_left trivial).symm⟩
  | cons attempt es ih =>
    obtain ⟨t, hrun, ht, hiff⟩ := ih (after_tidy site attempt.2 attempt.1 hw)
    refine ⟨t, hrun, ht, hiff.trans ?_⟩
    constructor
    · rintro ⟨hactive, hmeets⟩
      have hbefore : w.session.state ≠ .inactive := mt after_of_inactive hactive
      refine ⟨hbefore, (spared_iff hbefore).mpr hactive, fun u hu => ?_⟩
      rwa [← Option.some.inj hu]
    · rintro ⟨hbefore, hspared, hmeets⟩
      exact ⟨(spared_iff hbefore).mp hspared, hmeets _ rfl⟩

/-- Every attempt that would succeed on a session of its own, over the same healthy database,
    succeeds after any attempts before it, just when each of these spared the session. -/
theorem isolated_iff_spared (site : Site) (tables : Tables) (drawn : Nat)
    (earlier : List (Job × Conditions)) :
    ∃ w, (attempts site tables drawn).run earlier = some w ∧
      (Isolated site w ↔ (attempts site tables drawn).Meets (Spared site)
        (attempts site tables drawn).init earlier) := by
  have htidy : Tidy (attempts site tables drawn).init := rfl
  obtain ⟨w, hrun, hw, hiff⟩ := runFrom_isolated site tables drawn earlier htidy
  refine ⟨w, hrun, ?_⟩
  rw [isolated_iff_active site hw, hiff]
  exact and_iff_right nofun

/-- A worker over a database that lowers nothing. -/
def plainSite : Site where
  postgres := {
    lower := id
    vector := fun vector => vector.length = EMBEDDING_DIMENSIONS
    zeros := by simp }
  table := .asciiOnly
  timeout := lit "30"
  printable := fun _ => true

/-- The server refuses the first insert of a document once. -/
def refusedOnce : Job × Conditions := (letterJob, { plainConditions with
  failures := fun n => if n = 0 then some .refused else none })

/-- Behind a flush that was refused the session of the worker is not isolated. -/
theorem refused_flush_ends_worker :
    ∃ w, (attempts plainSite {} 0).run [refusedOnce] = some w ∧ ¬Isolated plainSite w := by
  refine ⟨_, rfl, fun h => ?_⟩
  have htidy : Tidy (plainSite.after refusedOnce.2 refusedOnce.1
      { tables := {}, drawn := 0, session := .fresh }) := after_tidy _ _ _ rfl
  exact (isolated_iff_active plainSite htidy).mp h (by decide +kernel)

end NexaAssist.Spec.AttemptIsolation
