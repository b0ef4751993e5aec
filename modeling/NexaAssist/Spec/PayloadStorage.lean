import NexaAssist.Spec.AttemptIsolation
import NexaAssist.Spec.Chunks

/-!
# What a payload lets through to the tables

The payload models bound a title and a subject by 500 characters where the columns hold 300 and
200, and they take what is blank. The rows of an accepted payload meet the constraints of length
and of blankness just when the payload does, and a job that can never be stored is retried
unless it has one attempt.
-/

namespace NexaAssist.Spec.PayloadStorage

open NexaAssist PyJson Jobs Storage
open AttemptIsolation (Succeeds letterJob plainConditions plainSite)

/-! ## The rows of a job -/

/-- The constraints of length and blankness on the row that a call inserts, where it inserts a
    document, a customer or a ticket. -/
def rowFits : Call → Prop
  | .insertCustomer email => customerFits email = true
  | .flushTicket ticket => ticket.fits = true
  | .flushDocument title content => documentFits title content = true
  | _ => True

/-- The customers of a database are such as its table takes. -/
def Valid (pg : Postgres) (w : World) : Prop :=
  ∀ customer ∈ w.seen.customers, CustomerAccepted pg customer.email customer.email

/-- Whatever the database answers, every row that is inserted for a job fits. -/
def RowsFit (site : Site) (job : Job) : Prop := ∀ x, (site.work x job).Only rowFits

/-- No attempt at the job can succeed. -/
def NeverStored (site : Site) (job : Job) : Prop :=
  ∀ x w, Valid site.postgres w → ¬Succeeds site x job w

/-- The first attempt puts the job among the dead letters. -/
def DeadAtOnce (site : Site) (job : Job) : Prop :=
  ∀ x w, Valid site.postgres w → ∃ error retryable,
    (site.worker x w).dispatch job.running = .ok (.fail error retryable) ∧
      (job.running.exhausted || !retryable) = true

structure Upheld (site : Site) (job : Job) : Prop where
  rows : RowsFit site job
  dead : NeverStored site job → DeadAtOnce site job

/-! ## When they fit -/

/-- `ingest` writes only rows that fit just if the document fits. -/
theorem ingest_only_iff {title content : PyStr} :
    (∀ x : Conditions, (DocumentService.ingest x.embed title content).Only rowFits) ↔
      documentFits title content = true := by
  constructor
  · intro h
    have hplain := h plainConditions
    rw [DocumentService.ingest_eq] at hplain
    exact hplain.1
  · intro h x
    rw [DocumentService.ingest_eq]
    simp only
    cases x.embed (chunksOf content DEFAULT_CHUNK_SIZE) with
    | error exception => trivial
    | ok vectors =>
      refine .bind (.perform h) fun document => ?_
      cases DocumentService.zipStrict (chunksOf content DEFAULT_CHUNK_SIZE) vectors with
      | none => trivial
      | some pairs => exact .bind (.perform trivial) fun _ => trivial

/-- A ticket of a customer, as a job has it made. -/
def jobTicket (customerId : RowId) (subject body : PyStr) : NewTicket where
  customerId := customerId
  ownerSubject := none
  subject := subject
  body := body

/-- A ticket of the job fits just if its subject and body do. -/
theorem jobTicket_fits (customerId : RowId) (subject body : PyStr) :
    (jobTicket customerId subject body).fits = true ↔
      fits 200 subject = true ∧ notBlank body = true := by
  simp [jobTicket, NewTicket.fits]

/-- `create` writes only rows that fit just if the customer and the ticket do. -/
theorem create_only_iff (table : LowerTable) (email subject body : PyStr) :
    (TicketService.create table email subject body none).Only rowFits ↔
      customerFits (TicketService.normaliseEmail table email) = true ∧
        fits 200 subject = true ∧ notBlank body = true := by
  constructor
  · intro h
    -- Nobody is found, so a customer is inserted, and then the ticket.
    have hinsert := h.2 (.ok none)
    have hticket := hinsert.2 (.ok { id := 0, email := [] })
    exact ⟨hinsert.1, (jobTicket_fits 0 subject body).mp hticket.1⟩
  · rintro ⟨hemail, hticket⟩
    have hfind : (TicketService.findCustomer (TicketService.normaliseEmail table email)).Only
        rowFits := .perform trivial
    have hcustomer : (TicketService.getOrCreateCustomer
        (TicketService.normaliseEmail table email)).Only rowFits := by
      refine hfind.bind fun found => ?_
      cases found with
      | some existing => trivial
      | none =>
        refine .tryCatch (.perform hemail) fun e => ?_
        match e with
        | .sqlalchemy true =>
          refine hfind.bind fun winner => ?_
          cases winner <;> trivial
        | .sqlalchemy false | .valueError | .embedder _ | .cancelled => trivial
    refine hcustomer.bind fun customer => .bind (.perform ?_) fun _ =>
      .bind (.perform trivial) fun _ => trivial
    exact (jobTicket_fits customer.id subject body).mpr hticket

/-! ## When they can be stored -/

/-- White space can be stored. -/
theorem storable_of_isSpace {c : CodePoint} (h : isSpace c = true) :
    isSurrogate c = false ∧ c ≠ 0 := by
  simp only [isSpace, Bool.or_eq_true, Bool.and_eq_true, decide_eq_true_eq] at h
  constructor
  · simp only [isSurrogate, isHigh, isLow, Bool.or_eq_false_iff, Bool.and_eq_false_iff,
      decide_eq_false_iff_not]
    omega
  · rintro rfl
    simp at h

/-- A text is storable just if it has no surrogate and no NUL. -/
theorem storable_iff {text : PyStr} :
    storable text = true ↔ ∀ c ∈ text, isSurrogate c = false ∧ c ≠ 0 := by
  simp [storable, wellFormed, forall_and]

/-- The chunks of what can be stored can be stored, and none of them is blank. -/
theorem chunksOf_storable {content : PyStr} (h : storable content = true) :
    ∀ piece ∈ chunksOf content DEFAULT_CHUNK_SIZE,
      storable piece = true ∧ notBlank piece = true := by
  intro piece hpiece
  have hwords := Chunks.words_divide content DEFAULT_CHUNK_SIZE
  rw [Chunks.chunksOf_eq] at hpiece
  constructor
  · rw [storable_iff] at h ⊢
    intro c hc
    cases hspace : isSpace c with
    | true => exact storable_of_isSpace hspace
    | false =>
      -- What is no white space is in a word, and the words are those of the content.
      obtain ⟨word, hword, hcword⟩ := PyStr.exists_mem_words hc hspace
      apply h
      refine PyStr.mem_of_mem_words ?_ hcword
      rw [← hwords]
      exact List.mem_flatMap.mpr ⟨piece, hpiece, hword⟩
  · obtain ⟨paragraph, hparagraph, hmem⟩ := List.mem_flatMap.mp hpiece
    have hdivided := Chunks.divided_divide DEFAULT_CHUNK_SIZE
      (PyStr.not_infix_of_mem_splitOn (by decide) content paragraph hparagraph)
    have hblank := hdivided.nonblank piece hmem
    simp only [Chunks.Blank, Classical.not_forall] at hblank
    obtain ⟨c, hc, hletter⟩ := hblank
    rw [notBlank, contentNotBlank, List.any_eq_true]
    refine ⟨c, hc, ?_⟩
    rw [decide_eq_true_eq]
    rintro rfl
    exact hletter (by decide)

/-- `zipStrict` pairs each piece with its embedding. -/
theorem zipStrict_map (pieces : List PyStr) (f : PyStr → Embedding) :
    DocumentService.zipStrict pieces (pieces.map f) = some (pieces.map fun p => (p, f p)) := by
  induction pieces with
  | nil => rfl
  | cons piece pieces ih => rw [List.map_cons, DocumentService.zipStrict, ih]; rfl

section Ingest

variable {site : Site} {title content : PyStr}

/-- Where `ingest` returns, the document can be stored and fits. -/
theorem ingest_returns {x : Conditions} {w : World} {document : Storage.Document}
    (h : (site.run x (DocumentService.ingest x.embed title content) w).1 = .ok document) :
    documentStorable title content = true ∧ documentFits title content = true := by
  rw [DocumentService.ingest_eq] at h
  unfold Site.run at h
  match hembed : x.embed (chunksOf content DEFAULT_CHUNK_SIZE) with
  | .error exception =>
    simp only [hembed] at h
    exact nomatch h
  | .ok vectors =>
    simp only [hembed] at h
    match hflush : exec site.postgres (x.failures 0) w (.flushDocument title content) with
    | (.error e, t) =>
      rw [run_ask_error hflush] at h
      exact nomatch h
    | (.ok document, t) =>
      obtain ⟨hstorable, hfits, -, -⟩ := flushDocument_ok hflush
      exact ⟨hstorable, hfits⟩

/-- An empty database. -/
def emptyWorld : World where
  tables := {}
  drawn := 0
  session := .fresh

/-- `ingest` stores a document that is storable and fits, where nothing goes wrong. -/
theorem ingest_stored (hstorable : documentStorable title content = true)
    (hfits : documentFits title content = true) :
    ∃ document, (site.run plainConditions
      (DocumentService.ingest plainConditions.embed title content) emptyWorld).1 =
        .ok document := by
  obtain ⟨stored, hstored⟩ := AttemptIsolation.varchar_of_fits (Bool.and_eq_true_iff.mp hfits).1
  let document : Storage.Document := { id := 0, title, content }
  let staged : World := emptyWorld.stage { documents := [{ id := 0, title := stored, content }] }
  let pieces := chunksOf content DEFAULT_CHUNK_SIZE
  let rows := DocumentService.chunkRows 0
    (pieces.map fun piece => (piece, List.replicate EMBEDDING_DIMENSIONS (.finite 0)))
  have hflush : exec site.postgres (plainConditions.failures 0) emptyWorld
      (.flushDocument title content) = (.ok document, staged) := by
    rw [exec_eq _ (by simp [emptyWorld, Session.fresh])]
    simp only [plainConditions, flushDocument, hstored, hstorable, hfits]
    rfl
  -- Every chunk has as many numbers as its column, and text the server can store
  have hrows : rows.all (Chunk.accepted site.postgres) = true := by
    rw [List.all_eq_true]
    intro chunk hchunk
    obtain ⟨⟨pair, ordinal⟩, hpair, rfl⟩ := List.mem_map.mp hchunk
    obtain ⟨piece, hpiece, rfl⟩ := List.mem_map.mp (List.fst_mem_of_mem_zipIdx hpair)
    obtain ⟨hcontent, hblank⟩ := chunksOf_storable (Bool.and_eq_true_iff.mp hstorable).2 piece hpiece
    simp only [Chunk.accepted, hcontent, hblank, site.postgres.zeros, Bool.and_self]
  have hcommit : exec site.postgres (plainConditions.failures 1) staged (.commitChunks rows) =
      (.ok (), staged.commit { chunks := rows }) := by
    rw [exec_eq _ (by simp [staged])]
    simp only [plainConditions, commitChunks, hrows]
    rfl
  have hzip : DocumentService.zipStrict pieces (pieces.map fun _ =>
      List.replicate EMBEDDING_DIMENSIONS (.finite 0)) = some (pieces.map fun piece =>
        (piece, List.replicate EMBEDDING_DIMENSIONS (.finite 0))) := zipStrict_map pieces _
  -- The embedder answers with one vector for each piece
  have hembed : plainConditions.embed pieces = .ok (pieces.map fun _ =>
      List.replicate EMBEDDING_DIMENSIONS (.finite 0)) := rfl
  refine ⟨document, ?_⟩
  rw [DocumentService.ingest_eq]
  unfold Site.run
  simp only
  rw [hembed]
  simp only
  rw [run_ask_ok hflush, hzip]
  simp only
  rw [run_ask_ok hcommit]
  rfl

end Ingest

/-! ## Tickets -/

/-- A normalised address does not end in white space. -/
theorem normaliseEmail_last (table : LowerTable) (email : PyStr) :
    ∀ c ∈ (TicketService.normaliseEmail table email).getLast?, isSpace c = false := by
  unfold TicketService.normaliseEmail
  intro c hc
  have hstripped := PyStr.stripped_strip email
  rcases List.eq_nil_or_concat' (PyStr.strip email) with hnil | ⟨front, d, hconcat⟩
  · rw [hnil, table.empty] at hc
    exact nomatch hc
  · have hd : isSpace d = false := hstripped.2 d (by rw [hconcat, List.getLast?_concat]; rfl)
    obtain ⟨front', d', hlower, hd'⟩ := table.last front d hd
    rw [hconcat, hlower, List.getLast?_concat] at hc
    rwa [← Option.some.inj hc]

/-- `varchar` stores a text that ends in no white space as it is. -/
theorem varchar_self {n : Nat} {text stored : PyStr}
    (hlast : ∀ c ∈ text.getLast?, isSpace c = false) (h : varchar n text = some stored) :
    stored = text := by
  unfold varchar at h
  split at h
  · exact (Option.some.inj h).symm
  · rename_i hlong
    split at h
    · rename_i hspaces
      rcases List.eq_nil_or_concat' text with rfl | ⟨front, c, rfl⟩
      · exact absurd (Nat.zero_le n) hlong
      · have hc : isSpace c = false := hlast c (by rw [List.getLast?_concat]; rfl)
        have hmem : c ∈ (front ++ [c]).drop n := by
          rw [List.length_append, List.length_singleton] at hlong
          rw [List.drop_append_of_le_length (by omega)]
          exact List.mem_append_right _ (List.mem_singleton_self c)
        have hspace := List.all_eq_true.mp hspaces c hmem
        rw [of_decide_eq_true hspace] at hc
        exact absurd hc (by decide)
    · exact nomatch h

section Tickets

variable {pg : Postgres} {failure : Option Failure} {w t : World}

/-- A statement that fails leaves the world valid. -/
theorem Valid.error {c : Call} {e : StorageError} (hw : Valid pg w)
    (h : exec pg failure w c = (.error e, t)) : Valid pg t := by
  rcases exec_error h with rfl | rfl | rfl
  · exact hw
  · exact hw
  · intro customer hcustomer
    have htables : w.abort.seen.customers = w.tables.customers := List.append_nil _
    rw [htables] at hcustomer
    exact hw customer (List.mem_append_left _ hcustomer)

/-- A customer that is found has an address that its table takes. -/
theorem Valid.found {email : PyStr} {customer : Customer} (hw : Valid pg w)
    (h : exec pg failure w (.findCustomer email) = (.ok (some customer), t)) :
    CustomerAccepted pg email email := by
  obtain ⟨-, hfound, -⟩ := findCustomer_ok h
  have hmem := hw customer (List.mem_of_find?_eq_some hfound.symm)
  have hemail : customer.email = email := by simpa using List.find?_some hfound.symm
  rwa [hemail] at hmem

/-- There is no customer but of an address that the table takes. -/
theorem getOrCreateCustomer_accepts {email : PyStr}
    (hlast : ∀ c ∈ email.getLast?, isSpace c = false) (hw : Valid pg w) :
    (TicketService.getOrCreateCustomer email).Safe (AttemptIsolation.answered pg) Eq
      (fun
        | .ok _, _ => CustomerAccepted pg email email
        | .error _, _ => True) w := by
  refine .bind (fun _ => rfl) (.perform ?_)
  rintro _ rfl found t ⟨failure, hfind⟩ _ rfl
  match found with
  | .error e => exact fun _ _ => trivial
  | .ok (some existing) => exact fun _ _ => hw.found hfind
  | .ok none =>
    have ht : Valid pg t := by
      obtain ⟨-, -, rfl⟩ := findCustomer_ok hfind
      exact hw
    refine .tryCatch (fun _ => rfl) (.perform ?_)
    rintro _ rfl inserted u ⟨failure, hinsert⟩ _ rfl
    match inserted with
    | .ok customer =>
      obtain ⟨-, stored, haccepted, -, -⟩ := insertCustomer_ok hinsert
      have hstored := varchar_self hlast haccepted.held
      exact fun _ _ => hstored ▸ haccepted
    | .error (.sqlalchemy true) =>
      refine .bind (fun _ => rfl) (.perform ?_)
      rintro _ rfl winner v ⟨failure, hwinner⟩ _ rfl
      match winner with
      | .error e => exact fun _ _ => trivial
      | .ok none => exact fun _ _ => trivial
      | .ok (some winner) => exact fun _ _ => (ht.error hinsert).found hwinner
    | .error (.sqlalchemy false) | .error .valueError | .error (.embedder _)
    | .error .cancelled => exact fun _ _ => trivial

/-- What a ticket that is created tells of its payload. -/
structure TicketAccepted (pg : Postgres) (email subject body : PyStr) : Prop where
  customer : CustomerAccepted pg email email
  storable : Storage.storable subject = true ∧ Storage.storable body = true
  fits : Storage.fits 200 subject = true ∧ notBlank body = true

/-- A ticket of the job is storable just if its subject and body are. -/
theorem jobTicket_storable (customerId : RowId) (subject body : PyStr) :
    (jobTicket customerId subject body).storable = true ↔
      Storage.storable subject = true ∧ Storage.storable body = true := by
  simp [jobTicket, NewTicket.storable]

/-- Where `create` returns, the database accepted customer and ticket. -/
theorem create_accepts (table : LowerTable) (email subject body : PyStr) (hw : Valid pg w) :
    (TicketService.create table email subject body none).Safe (AttemptIsolation.answered pg) Eq
      (fun
        | .ok _, _ => TicketAccepted pg (TicketService.normaliseEmail table email) subject body
        | .error _, _ => True) w := by
  have hcustomer := getOrCreateCustomer_accepts (normaliseEmail_last table email) hw
  refine .bind (fun _ => rfl) (hcustomer.mono (fun _ _ _ _ h => h) ?_)
  rintro (e | customer) t haccepted
  · exact fun _ _ => trivial
  refine .bind (fun _ => rfl) (.perform ?_)
  rintro _ rfl ticket u ⟨failure, hticket⟩ _ rfl
  cases ticket with
  | error e => exact fun _ _ => trivial
  | ok ticket =>
    obtain ⟨hstorable, hfits, -⟩ := flushTicket_ok hticket
    refine .bind (fun _ => rfl) (.perform ?_)
    rintro _ rfl committed v ⟨failure, hcommit⟩ _ rfl
    cases committed with
    | error e => exact fun _ _ => trivial
    | ok _ =>
      exact fun _ _ => ⟨haccepted, (jobTicket_storable customer.id subject body).mp hstorable,
        (jobTicket_fits customer.id subject body).mp hfits⟩

end Tickets

/-- Where `create` returns, what it was given is what the database accepts. -/
theorem create_returns {site : Site} {x : Conditions} {w : World} {email subject body : PyStr}
    {ticket : Storage.Ticket} (hw : Valid site.postgres w)
    (h : (site.run x (TicketService.create site.table email subject body none) w).1 =
      .ok ticket) :
    TicketAccepted site.postgres (TicketService.normaliseEmail site.table email) subject body := by
  have hstep : ∀ (c : Call) (s : World × Nat), True →
      AttemptIsolation.answered site.postgres c s.1 (answer site.postgres x.failures c s).1
        (answer site.postgres x.failures c s).2.1 := fun c s _ => ⟨x.failures s.2, rfl⟩
  have hself : Valid site.postgres (Prod.fst (w, 0)) := hw
  have hpost := Program.Safe.run (fun _ => rfl) hstep
    (create_accepts site.table email subject body hself)
    (.of_forall (fun _ _ => trivial) _ _)
  unfold Site.run at h
  rw [h] at hpost
  exact hpost

/-- `create` stores what the database accepts, where nothing goes wrong. -/
theorem create_stored {site : Site} {email subject body : PyStr}
    (h : TicketAccepted site.postgres (TicketService.normaliseEmail site.table email) subject
      body) :
    ∃ ticket, (site.run plainConditions
      (TicketService.create site.table email subject body none) emptyWorld).1 = .ok ticket := by
  unfold TicketService.create
  obtain ⟨hcustomer, hstorable, hfits⟩ := h
  generalize TicketService.normaliseEmail site.table email = address at hcustomer ⊢
  let inserted : World := emptyWorld.begun.stage { customers := [{ id := 0, email := address }] }
  have hwf : wellFormed address = true := (Bool.and_eq_true_iff.mp hcustomer.storable).1
  -- The statements in turn: no customer at the address, one inserted, a ticket for it, and both
  -- committed
  have hfind : exec site.postgres (plainConditions.failures 0) emptyWorld (.findCustomer address) =
      (.ok none, emptyWorld.begun) := by
    rw [exec_eq _ (by simp [emptyWorld, Session.fresh])]
    simp only [plainConditions, findCustomer, hwf, hcustomer.storable]
    rfl
  have hinsert : exec site.postgres (plainConditions.failures 1) emptyWorld.begun
      (.insertCustomer address) = (.ok { id := 0, email := address }, inserted) := by
    rw [exec_eq _ (by simp)]
    simp only [plainConditions, insertCustomer, hcustomer.held, hcustomer.storable,
      hcustomer.notBlank, hcustomer.lower]
    simp [inserted, emptyWorld, World.seen, World.begun, Session.fresh]
  obtain ⟨stored, hsubject⟩ := AttemptIsolation.varchar_of_fits hfits.1
  have hticket : ∃ t, exec site.postgres (plainConditions.failures 2) inserted
      (.flushTicket (jobTicket 0 subject body)) =
        (.ok { jobTicket 0 subject body with id := 1 }, inserted.stage t) := by
    rw [exec_eq _ (by simp [inserted])]
    simp only [plainConditions, flushTicket, (jobTicket_fits 0 subject body).mpr hfits,
      (jobTicket_storable 0 subject body).mpr hstorable]
    simp only [jobTicket, hsubject]
    exact ⟨_, rfl⟩
  obtain ⟨rows, hticket⟩ := hticket
  simp only [jobTicket] at hticket
  have hcommit : exec site.postgres (plainConditions.failures 3) (inserted.stage rows) .commit =
      (.ok (), (inserted.stage rows).commit {}) := by
    rw [exec_eq _ (by simp)]
    rfl
  refine ⟨{ jobTicket 0 subject body with id := 1 }, ?_⟩
  simp only [Site.run, TicketService.getOrCreateCustomer, TicketService.findCustomer, ask,
    Program.perform_bind, Program.call_bind, Program.run_call, answer, hfind, Program.ret_bind]
  simp only [Program.perform, Program.tryCatch_call, Program.call_bind, Program.run_call, answer,
    hinsert]
  simp only [Program.tryCatch_ret, Program.ret_bind, Program.run_call, answer, hticket, hcommit]
  rfl

/-! ## A job of each kind -/

/-- A session that something failed on. -/
def brokenWorld : World := emptyWorld.abort

/-- The empty world is valid. -/
theorem emptyWorld_valid (pg : Postgres) : Valid pg emptyWorld := by
  intro customer hcustomer
  exact nomatch hcustomer

/-- A world whose session is broken is valid. -/
theorem brokenWorld_valid (pg : Postgres) : Valid pg brokenWorld := by
  intro customer hcustomer
  exact nomatch hcustomer

/-- `run` reports a call that raises as a failure. -/
theorem run_timedCall (w : TimedWorker) (refusal : PyStr) {result : Except StorageError Unit}
    (h : result ≠ .ok ()) :
    ∃ error retryable, w.run (timedCall refusal result) = .fail error retryable := by
  match result with
  | .ok () => exact absurd rfl h
  | .error (.sqlalchemy _) => exact ⟨_, _, rfl⟩
  | .error .valueError => exact ⟨_, _, rfl⟩
  | .error (.embedder .timeoutError) => exact ⟨_, _, rfl⟩
  | .error (.embedder (.declared message retryable)) => exact ⟨_, _, rfl⟩
  | .error (.embedder (.other name)) => exact ⟨_, _, rfl⟩
  | .error .cancelled => exact ⟨_, _, rfl⟩

/-- A handler that is in time completes just if it returns. -/
theorem run_timedCall_complete (w : TimedWorker) (refusal : PyStr)
    {result : Except StorageError Unit} :
    w.run (timedCall refusal result) = .complete ↔ result = .ok () := by
  constructor
  · intro h
    by_cases hok : result = .ok ()
    · exact hok
    · obtain ⟨error, retryable, hfail⟩ := run_timedCall w refusal hok
      exact nomatch hfail.symm.trans h
  · rintro rfl
    rfl

section Kinds

variable {site : Site} {job : Job}

/-- A job that is not accepted inserts nothing, and is not retried. -/
theorem upheld_of_rejected (hwork : ∀ x, site.work x job = pure ())
    (hdispatch : ∀ x w, ∃ error, (site.worker x w).dispatch job.running =
      .ok (.fail error false)) : Upheld site job where
  rows := by
    intro x
    rw [hwork]
    trivial
  dead := by
    intro _ x w _
    obtain ⟨error, herror⟩ := hdispatch x w
    exact ⟨error, false, herror, Bool.or_true _⟩

/-- A payload that is invalid is refused, as `Upheld` allows. -/
theorem upheld_of_invalid {handler : Storage.Handler} {issues : List ValidationIssue}
    (hhandler : site.registry job.name = some handler)
    (hinvalid : handler.modelValidate job.payload = .error issues) : Upheld site job := by
  have hrunning : site.registry job.running.name = some handler := hhandler
  have hpayload : handler.modelValidate job.running.payload = .error issues := hinvalid
  refine upheld_of_rejected (fun x => ?_) fun x w => ?_
  · simp only [Site.work, hhandler, hinvalid]
  · simp only [TimedWorker.dispatch, Site.worker, hrunning, Option.map_some, hpayload]
    exact ⟨_, rfl⟩

/-- A handler whose work returns just when the job is `stored`, and can fail at a statement. -/
theorem upheld_iff_of_accepted {handler : Storage.Handler} {params : handler.Params}
    (hnew : job.attempts = 0) (hhandler : site.registry job.name = some handler)
    (hparams : handler.modelValidate job.payload = .ok params) {rows stored : Prop}
    (hrows : (∀ x, (handler.work x params).Only rowFits) ↔ rows)
    (hstored : (∃ x w, Valid site.postgres w ∧ (site.run x (handler.work x params) w).1 = .ok ()) ↔
      stored)
    (hretried : ∃ x w integrity, Valid site.postgres w ∧
      (site.run x (handler.work x params) w).1 = .error (.sqlalchemy integrity)) :
    Upheld site job ↔ rows ∧ (stored ∨ job.maxAttempts = 1) := by
  have hwork : ∀ x, site.work x job = handler.work x params := by
    intro x
    simp only [Site.work, hhandler, hparams]
  have hdispatch : ∀ x w (tried : Job), tried.name = job.name → tried.payload = job.payload →
      (site.worker x w).dispatch tried = .ok ((site.worker x w).run
        (timedCall handler.refusal (site.run x (handler.work x params) w).1)) := by
    intro x w tried hname hpayload
    simp only [TimedWorker.dispatch, Site.worker, hname, hpayload, hhandler, Option.map_some,
      hparams]
  have hsucceeds : ∀ x w, Succeeds site x job w ↔
      (site.run x (handler.work x params) w).1 = .ok () := by
    intro x w
    unfold Succeeds
    rw [hdispatch x w job rfl rfl, Except.ok.injEq, run_timedCall_complete]
  -- A payload that is never stored is one that storing refuses
  have hnever : NeverStored site job ↔ ¬stored := by
    rw [← hstored]
    simp only [NeverStored, hsucceeds, not_exists, not_and]
  -- The first attempt is the last when the job has a budget of one
  have hexhausted : job.running.exhausted = true ↔ job.maxAttempts = 1 := by
    have hbudget := job.budget
    simp only [Job.exhausted, Job.running, hnew, decide_eq_true_eq]
    omega
  constructor
  · intro h
    refine ⟨hrows.mp fun x => hwork x ▸ h.rows x, Classical.byContradiction fun hnot => ?_⟩
    rw [not_or] at hnot
    -- It is never stored, and an attempt that fails at a statement is to be retried.
    obtain ⟨x, w, integrity, hw, herror⟩ := hretried
    obtain ⟨error, retryable, hfail, hdead⟩ := h.dead (hnever.mpr hnot.1) x w hw
    rw [hdispatch x w job.running rfl rfl, herror] at hfail
    obtain ⟨-, rfl⟩ := Settlement.fail.inj (Except.ok.inj hfail)
    simp only [Bool.not_true, Bool.or_false, hexhausted] at hdead
    exact hnot.2 hdead
  · rintro ⟨hfit, hend⟩
    refine ⟨fun x => (hwork x).symm ▸ hrows.mpr hfit x, fun hnone x w hw => ?_⟩
    -- A job that is never stored is failed for good, as its first attempt is its last
    have hlast : job.maxAttempts = 1 := hend.resolve_left (hnever.mp hnone)
    have hfailed : (site.run x (handler.work x params) w).1 ≠ .ok () :=
      fun hok => hnone x w hw ((hsucceeds x w).mpr hok)
    obtain ⟨error, retryable, hfail⟩ := run_timedCall (site.worker x w) handler.refusal hfailed
    refine ⟨error, retryable, ?_, ?_⟩
    · rw [hdispatch x w job.running rfl rfl, hfail]
    · rw [hexhausted.mpr hlast, Bool.true_or]

end Kinds

/-! ## Any job -/

/-- The payload of a document fits its table, and it can be stored or has one attempt. -/
def IngestSound (job : Job) : Prop :=
  ∀ params, IngestDocumentPayload.modelValidate job.payload = .ok params →
    documentFits params.title.val params.content.val = true ∧
      (documentStorable params.title.val params.content.val = true ∨ job.maxAttempts = 1)

/-- The payload of a ticket fits the tables of customers and tickets, and it can be stored or has
    one attempt. -/
def TicketSound (site : Site) (job : Job) : Prop :=
  ∀ params, CreateTicketPayload.modelValidate job.payload = .ok params →
    let address := TicketService.normaliseEmail site.table params.customerEmail.val
    (customerFits address = true ∧ fits 200 params.subject.val = true ∧
        notBlank params.body.val = true) ∧
      (TicketAccepted site.postgres address params.subject.val params.body.val ∨
        job.maxAttempts = 1)

section Any

variable {site : Site} {job : Job}

/-- The registry has the handler of `ingest_document`. -/
theorem registry_ingest (h : job.name = ingestDocumentHandler.name) :
    site.registry job.name = some ingestDocumentHandler := by
  rw [h]
  rfl

/-- The registry finds the handler of `create_ticket` under its name. -/
theorem registry_ticket (h : job.name = (createTicketHandler site.table).name) :
    site.registry job.name = some (createTicketHandler site.table) := by
  rw [h]
  rfl

/-- The registry finds no handler under any other name. -/
theorem registry_other (hingest : job.name ≠ ingestDocumentHandler.name)
    (hticket : job.name ≠ (createTicketHandler site.table).name) :
    site.registry job.name = none := by
  simp [Site.registry, Ne.symm hingest, Ne.symm hticket]

/-- Forgetting what is returned does not change that it is. -/
theorem map_eq_ok {α : Type} {result : Except StorageError α} :
    (result.map fun _ => ()) = .ok () ↔ ∃ a, result = .ok a := by
  cases result <;> simp [Except.map]

/-- `ingest` raises on a session whose transaction has failed. -/
theorem ingest_broken (title content : PyStr) :
    (site.run plainConditions (DocumentService.ingest plainConditions.embed title content)
      brokenWorld).1 = .error (.sqlalchemy false) := by
  have hflush : exec site.postgres (plainConditions.failures 0) brokenWorld
      (.flushDocument title content) = (.error (.sqlalchemy false), brokenWorld) :=
    exec_of_inactive _ rfl
  have hembed : plainConditions.embed (chunksOf content DEFAULT_CHUNK_SIZE) =
      .ok ((chunksOf content DEFAULT_CHUNK_SIZE).map fun _ =>
        List.replicate EMBEDDING_DIMENSIONS (.finite 0)) := rfl
  rw [DocumentService.ingest_eq]
  unfold Site.run
  simp only
  rw [hembed]
  simp only
  rw [run_ask_error hflush]

/-- In a broken session `create` fails. -/
theorem create_broken (email subject body : PyStr) :
    (site.run plainConditions (TicketService.create site.table email subject body none)
      brokenWorld).1 = .error (.sqlalchemy false) := by
  have hfind : exec site.postgres (plainConditions.failures 0) brokenWorld
      (.findCustomer (TicketService.normaliseEmail site.table email)) =
        (.error (.sqlalchemy false), brokenWorld) := exec_of_inactive _ rfl
  unfold Site.run TicketService.create TicketService.getOrCreateCustomer
  simp only [TicketService.findCustomer, ask, Program.perform_bind, Program.call_bind,
    Program.run_call, answer, hfind]
  rfl

/-- A new job of `ingest_document` is upheld just if its payload is sound. -/
theorem ingest_upheld_iff (hnew : job.attempts = 0)
    (hname : job.name = ingestDocumentHandler.name) : Upheld site job ↔ IngestSound job := by
  have hhandler : site.registry job.name = some ingestDocumentHandler := registry_ingest hname
  match hparams : IngestDocumentPayload.modelValidate job.payload with
  -- An invalid payload is refused before anything is written
  | .error issues =>
    exact iff_of_true (upheld_of_invalid hhandler hparams)
      fun params h => nomatch hparams.symm.trans h
  | .ok params =>
    have hrows : (∀ x, (ingestDocumentHandler.work x params).Only rowFits) ↔
        documentFits params.title.val params.content.val = true :=
      ⟨fun h => ingest_only_iff.mp fun x => Program.Only.of_andThen (h x),
        fun h x => (ingest_only_iff.mpr h x).bind fun _ => trivial⟩
    have hwork : ∀ x w, (site.run x (ingestDocumentHandler.work x params) w).1 =
        (site.run x (DocumentService.ingest x.embed params.title.val params.content.val) w).1.map
          fun _ => () := fun x w => congrArg Prod.fst (site.run_discard x _ w)
    have hstored : (∃ x w, Valid site.postgres w ∧
        (site.run x (ingestDocumentHandler.work x params) w).1 = .ok ()) ↔
          documentStorable params.title.val params.content.val = true ∧
            documentFits params.title.val params.content.val = true := by
      simp only [hwork, map_eq_ok]
      constructor
      · rintro ⟨x, w, -, document, h⟩
        exact ingest_returns h
      · rintro ⟨hstorable, hfits⟩
        exact ⟨plainConditions, emptyWorld, emptyWorld_valid _, ingest_stored hstorable hfits⟩
    -- A database that is broken lets every attempt fail
    have hretried : ∃ x w integrity, Valid site.postgres w ∧
        (site.run x (ingestDocumentHandler.work x params) w).1 =
          .error (.sqlalchemy integrity) := by
      refine ⟨plainConditions, brokenWorld, false, brokenWorld_valid _, ?_⟩
      rw [hwork, ingest_broken]
      rfl
    rw [upheld_iff_of_accepted hnew hhandler hparams hrows hstored hretried]
    unfold IngestSound
    simp only [hparams, Except.ok.injEq, forall_eq']
    exact ⟨fun h => ⟨h.1, h.2.imp_left And.left⟩, fun h => ⟨h.1, h.2.imp_left fun h' => ⟨h', h.1⟩⟩⟩

/-- A job of `create_ticket` is upheld just if its payload is sound. -/
theorem ticket_upheld_iff (hnew : job.attempts = 0)
    (hname : job.name = (createTicketHandler site.table).name) :
    Upheld site job ↔ TicketSound site job := by
  have hhandler : site.registry job.name = some (createTicketHandler site.table) :=
    registry_ticket hname
  match hparams : CreateTicketPayload.modelValidate job.payload with
  -- An invalid payload is refused before anything is written
  | .error issues =>
    exact iff_of_true (upheld_of_invalid hhandler hparams)
      fun params h => nomatch hparams.symm.trans h
  | .ok params =>
    have hrows : (∀ x, ((createTicketHandler site.table).work x params).Only rowFits) ↔
        customerFits (TicketService.normaliseEmail site.table params.customerEmail.val) = true ∧
          fits 200 params.subject.val = true ∧ notBlank params.body.val = true :=
      ⟨fun h => (create_only_iff _ _ _ _).mp (Program.Only.of_andThen (h plainConditions)),
        fun h x => ((create_only_iff _ _ _ _).mpr h).bind fun _ => trivial⟩
    have hwork : ∀ x w, (site.run x ((createTicketHandler site.table).work x params) w).1 =
        (site.run x (TicketService.create site.table params.customerEmail.val params.subject.val
          params.body.val none) w).1.map fun _ => () :=
      fun x w => congrArg Prod.fst (site.run_discard x _ w)
    have hstored : (∃ x w, Valid site.postgres w ∧
        (site.run x ((createTicketHandler site.table).work x params) w).1 = .ok ()) ↔
          TicketAccepted site.postgres
            (TicketService.normaliseEmail site.table params.customerEmail.val)
            params.subject.val params.body.val := by
      simp only [hwork, map_eq_ok]
      constructor
      · rintro ⟨x, w, hw, ticket, h⟩
        exact create_returns hw h
      · intro h
        exact ⟨plainConditions, emptyWorld, emptyWorld_valid _, create_stored h⟩
    -- A database that is broken lets every attempt fail
    have hretried : ∃ x w integrity, Valid site.postgres w ∧
        (site.run x ((createTicketHandler site.table).work x params) w).1 =
          .error (.sqlalchemy integrity) := by
      refine ⟨plainConditions, brokenWorld, false, brokenWorld_valid _, ?_⟩
      rw [hwork, create_broken]
      rfl
    rw [upheld_iff_of_accepted hnew hhandler hparams hrows hstored hretried]
    unfold TicketSound
    simp only [hparams, Except.ok.injEq, forall_eq']

/-- A job that no handler takes is refused, as `Upheld` allows. -/
theorem other_upheld (hingest : job.name ≠ ingestDocumentHandler.name)
    (hticket : job.name ≠ (createTicketHandler site.table).name) : Upheld site job := by
  have hnone := registry_other hingest hticket
  have hrunning : site.registry job.running.name = none := hnone
  refine upheld_of_rejected (fun x => ?_) fun x w => ?_
  · simp only [Site.work, hnone]
  · simp only [TimedWorker.dispatch, Site.worker, hrunning]
    exact ⟨_, rfl⟩

/-- The rows of a job that was not tried yet fit, and it is a dead letter at once if it can never
    be stored, just when its payload is rejected or sound. -/
theorem upheld_iff_sound (site : Site) (job : Job) (hnew : job.attempts = 0) :
    Upheld site job ↔
      (job.name = ingestDocumentHandler.name → IngestSound job) ∧
        (job.name = (createTicketHandler site.table).name → TicketSound site job) := by
  have hdistinct : ingestDocumentHandler.name ≠ (createTicketHandler site.table).name :=
    show lit "ingest_document" ≠ lit "create_ticket" by decide
  by_cases hingest : job.name = ingestDocumentHandler.name
  · have hticket : job.name ≠ (createTicketHandler site.table).name := hingest ▸ hdistinct
    rw [ingest_upheld_iff hnew hingest]
    exact ⟨fun h => ⟨fun _ => h, fun h' => absurd h' hticket⟩, fun h => h.1 hingest⟩
  by_cases hticket : job.name = (createTicketHandler site.table).name
  · rw [ticket_upheld_iff hnew hticket]
    exact ⟨fun h => ⟨fun h' => absurd h' hingest, fun _ => h⟩, fun h => h.2 hticket⟩
  · exact iff_of_true (other_upheld hingest hticket)
      ⟨fun h => absurd h hingest, fun h => absurd h hticket⟩

end Any

/-- The id of the example can be encoded. -/
theorem pendingId_wellFormed : wellFormed [0x6a] = true := by decide

/-- The pending job of the example may be tried. -/
theorem pendingJob_budget : 1 ≤ 3 := by decide

/-- A job as it is enqueued. -/
def pendingJob (payload : Payload) : Job where
  id := ⟨[0x6a], pendingId_wellFormed⟩
  name := lit "ingest_document"
  payload := payload
  status := .pending
  attempts := 0
  maxAttempts := 3
  error := none
  budget := pendingJob_budget

/-- A document whose title is a space. -/
def blankTitle : Job :=
  pendingJob [(.str (lit "title"), .str [0x20]), (.str (lit "content"), .str [0x61])]

/-- A document that nothing is wrong with. -/
def letter : Job :=
  pendingJob [(.str (lit "title"), .str [0x61]), (.str (lit "content"), .str [0x61])]

/-- The condition for one job. -/
theorem upheld_iff_sound_letter : Upheld plainSite letter ↔
    (letter.name = ingestDocumentHandler.name → IngestSound letter) ∧
      (letter.name = (createTicketHandler plainSite.table).name → TicketSound plainSite letter) :=
  upheld_iff_sound plainSite letter rfl

/-- The payload is accepted, and the title does not meet the check of its column. -/
theorem blank_title_accepted : ¬Upheld plainSite blankTitle := by
  intro h
  have hsound : IngestSound blankTitle := (ingest_upheld_iff rfl rfl).mp h
  have hfits := (hsound ⟨⟨[0x20], by decide, by decide, by decide⟩,
    ⟨[0x61], by decide, by decide, by decide⟩⟩ rfl).1
  exact absurd hfits (by decide)

end NexaAssist.Spec.PayloadStorage
