import NexaAssist.Spec.AttemptIsolation

/-!
# A document and its chunks

Ingesting flushes the document and then builds its chunks, and nobody rolls back. Where the
embedder returns one vector for each chunk, or raises, every document that is ever committed has
its chunks, and an attempt that fails leaves nothing, also not through a later commit.
-/

namespace NexaAssist.Spec.IngestAtomic

open NexaAssist PyJson Jobs Storage
open AttemptIsolation (letterJob letterJob_succeeds plainConditions plainSite)

/-! ## What is committed -/

/-- The chunks of a document. -/
def storedChunks (tables : Tables) (id : RowId) : List Storage.Chunk :=
  tables.chunks.filter fun chunk => chunk.documentId = id

/-- Its chunks are those of its content, numbered in order. -/
def Whole (tables : Tables) (document : Storage.Document) : Prop :=
  ∃ pieces, chunkText document.content DEFAULT_CHUNK_SIZE = some pieces ∧
    (storedChunks tables document.id).map (fun chunk => (chunk.ordinal, chunk.content)) =
      pieces.zipIdx.map fun (piece, ordinal) => (ordinal, piece)

/-- No row is of the document `id`. -/
def Absent (tables : Tables) (id : RowId) : Prop :=
  (∀ document ∈ tables.documents, document.id ≠ id) ∧
    ∀ chunk ∈ tables.chunks, chunk.documentId ≠ id

/-- Attempts one after another, with the ids that the failed ones drew. -/
def ledger (site : Site) (tables : Tables) (drawn : Nat) :
    Machine (World × List RowId) (Job × Conditions) where
  init := ({ tables, drawn, session := .fresh }, [])
  step s attempt :=
    let after := site.after attempt.2 attempt.1 s.1
    match (site.worker attempt.2 s.1).dispatch attempt.1 with
    | .ok .complete => some (after, s.2)
    | _ => some (after, s.2 ++ List.range' s.1.drawn (after.drawn - s.1.drawn))

/-- Documents are whole, and what failed is absent. -/
structure AllOrNothing (s : World × List RowId) : Prop where
  all : ∀ document ∈ s.1.tables.documents, Whole s.1.tables document
  nothing : ∀ id ∈ s.2, Absent s.1.tables id

/-! ## What one attempt does -/

/-- Where an attempt is one to ingest, and the embedder returns: there is one vector for each
    chunk, or the document is not stored. -/
def Matched (site : Site) (s : World × List RowId) (attempt : Job × Conditions) : Prop :=
  attempt.1.name = ingestDocumentHandler.name →
    ∀ params, IngestDocumentPayload.modelValidate attempt.1.payload = .ok params →
      ∀ vectors, attempt.2.embed (chunksOf params.content.val DEFAULT_CHUNK_SIZE) = .ok vectors →
        vectors.length = (chunksOf params.content.val DEFAULT_CHUNK_SIZE).length ∨
          ∃ e, (exec site.postgres (attempt.2.failures 0) s.1
            (.flushDocument params.title.val params.content.val)).1 = .error e

/-- No document and no chunk is staged. -/
def Undrafted (w : World) : Prop :=
  w.session.staged.documents = [] ∧ w.session.staged.chunks = []

/-- The documents and the chunks are as they were. -/
def Unchanged (w t : World) : Prop :=
  t.tables.documents = w.tables.documents ∧ t.tables.chunks = w.tables.chunks

/-- There is one document more, with its chunks, under an id that was drawn for it. -/
def Ingested (w t : World) : Prop :=
  ∃ (document : Storage.Document) (pairs : List (PyStr × Embedding)),
    t.tables.documents = w.tables.documents ++ [document] ∧
      t.tables.chunks = w.tables.chunks ++ DocumentService.chunkRows document.id pairs ∧
      pairs.map Prod.fst = chunksOf document.content DEFAULT_CHUNK_SIZE ∧
      document.id = w.drawn ∧ w.drawn < t.drawn

/-- What `w` keeps while a program is at work that ingests nothing. -/
def Kept (w t : World) : Prop := Undrafted t ∧ Unchanged w t ∧ w.drawn ≤ t.drawn

/-- The calls of `TicketService`. -/
def ofTickets : Call → Bool
  | .flushDocument .. | .commitChunks _ => false
  | _ => true

section Kept

variable {pg : Postgres} {failure : Option Failure} {w t u : World}

/-- `Kept` is kept by a statement that fails. -/
theorem Kept.error {c : Call} {e : StorageError} (h : Kept w t)
    (hexec : exec pg failure t c = (.error e, u)) : Kept w u := by
  obtain ⟨hundrafted, hunchanged, hdrawn⟩ := h
  rcases exec_error hexec with rfl | rfl | rfl
  · exact ⟨hundrafted, hunchanged, hdrawn⟩
  · exact ⟨hundrafted, hunchanged, hdrawn⟩
  · exact ⟨⟨rfl, rfl⟩, hunchanged, hdrawn⟩

/-- `Kept` holds after `stage` of rows of other tables. -/
theorem Kept.stage {rows : Tables} (h : Kept w t) (hdocuments : rows.documents = [])
    (hchunks : rows.chunks = []) : Kept w (t.stage rows) := by
  obtain ⟨hundrafted, hunchanged, hdrawn⟩ := h
  refine ⟨⟨?_, ?_⟩, hunchanged, Nat.le_succ_of_le hdrawn⟩
  · simp [hundrafted.1, hdocuments]
  · simp [hundrafted.2, hchunks]

/-- `Kept` holds after a `COMMIT` of nothing. -/
theorem Kept.commit (h : Kept w t) : Kept w (t.commit {}) := by
  obtain ⟨hundrafted, hunchanged, hdrawn⟩ := h
  refine ⟨⟨rfl, rfl⟩, ⟨?_, ?_⟩, hdrawn⟩
  · simp [hundrafted.1, hunchanged.1]
  · simp [hundrafted.2, hunchanged.2]

/-- `Kept` holds after every statement of tickets. -/
theorem Kept.call {c : Call} (hc : ofTickets c = true) (h : Kept w t) :
    Kept w (exec pg failure t c).2 := by
  match hexec : exec pg failure t c with
  | (.error e, u) => exact h.error hexec
  | (.ok reply, u) =>
    cases c with
    | findCustomer email =>
      obtain ⟨-, -, rfl⟩ := findCustomer_ok hexec
      exact h
    | insertCustomer email =>
      obtain ⟨-, stored, -, -, rfl⟩ := insertCustomer_ok hexec
      exact h.stage rfl rfl
    | flushTicket ticket =>
      obtain ⟨-, -, -, row, -, -, rfl⟩ := flushTicket_ok hexec
      exact h.stage rfl rfl
    | flushDocument title content => exact nomatch hc
    | commitChunks chunks => exact nomatch hc
    | commit =>
      obtain rfl := commit_ok hexec
      exact h.commit

end Kept

/-- `getOrCreateCustomer` makes statements of tickets only. -/
theorem getOrCreateCustomer_only (email : PyStr) :
    (TicketService.getOrCreateCustomer email).Only (ofTickets · = true) := by
  have hfind : (TicketService.findCustomer email).Only (ofTickets · = true) := .perform rfl
  refine hfind.bind fun found => ?_
  cases found with
  | some existing => trivial
  | none =>
    refine .tryCatch (.perform rfl) fun e => ?_
    match e with
    | .sqlalchemy true =>
      refine hfind.bind fun winner => ?_
      cases winner <;> trivial
    | .sqlalchemy false | .valueError | .embedder _ | .cancelled => trivial

/-- `create` makes statements of tickets only. -/
theorem create_only (table : LowerTable) (email subject body : PyStr) (owner : Option PyStr) :
    (TicketService.create table email subject body owner).Only (ofTickets · = true) :=
  (getOrCreateCustomer_only _).bind fun _ => .bind (.perform rfl) fun _ =>
    .bind (.perform rfl) fun _ => trivial

/-- How an attempt leaves its session: it ingested nothing, or a document and all its chunks. -/
structure Attempted (w : World) (succeeded : Prop) (t : World) : Prop where
  undrafted : Undrafted t
  drawn : w.drawn ≤ t.drawn
  rows : Unchanged w t ∨ succeeded ∧ Ingested w t

/-- `zipStrict` keeps the pieces. -/
theorem zipStrict_fst {pieces : List PyStr} {vectors : List Embedding}
    {pairs : List (PyStr × Embedding)}
    (h : DocumentService.zipStrict pieces vectors = some pairs) : pairs.map Prod.fst = pieces := by
  induction pieces generalizing vectors pairs with
  | nil =>
    cases vectors with
    | nil => rw [← Option.some.inj h]; rfl
    | cons vector vectors => exact nomatch h
  | cons piece pieces ih =>
    cases vectors with
    | nil => exact nomatch h
    | cons vector vectors =>
      obtain ⟨others, hothers, rfl⟩ := Option.map_eq_some_iff.mp h
      rw [List.map_cons, ih hothers]

/-- `zipStrict` fails only where there are not as many vectors as pieces. -/
theorem zipStrict_none {pieces : List PyStr} {vectors : List Embedding}
    (h : DocumentService.zipStrict pieces vectors = none) : vectors.length ≠ pieces.length := by
  induction pieces generalizing vectors with
  | nil =>
    cases vectors with
    | nil => exact nomatch h
    | cons vector vectors => simp
  | cons piece pieces ih =>
    cases vectors with
    | nil => simp
    | cons vector vectors =>
      have hothers := ih (Option.map_eq_none_iff.mp h)
      simpa using hothers

section Attempts

variable {site : Site} {x : Conditions} {w : World}

/-- A session without drafts keeps its own. -/
theorem kept_self (hw : Undrafted w) : Kept w w := ⟨hw, ⟨rfl, rfl⟩, Nat.le_refl _⟩

/-- `ingest` writes all of a document or nothing, where there are as many vectors or the flush
    fails. -/
theorem ingest_attempted {title content : PyStr} (hw : Undrafted w)
    (hmatched : ∀ vectors, x.embed (chunksOf content DEFAULT_CHUNK_SIZE) = .ok vectors →
      vectors.length = (chunksOf content DEFAULT_CHUNK_SIZE).length ∨
        ∃ e, (exec site.postgres (x.failures 0) w (.flushDocument title content)).1 = .error e) :
    Attempted w (∃ document, (site.run x (DocumentService.ingest x.embed title content) w).1 =
        .ok document)
      (site.run x (DocumentService.ingest x.embed title content) w).2.1 := by
  have hkept : Kept w w := kept_self hw
  rw [DocumentService.ingest_eq]
  unfold Site.run
  match hembed : x.embed (chunksOf content DEFAULT_CHUNK_SIZE) with
  -- The embedder fails before anything is written
  | .error exception =>
    simp only [hembed]
    exact ⟨hw, Nat.le_refl _, .inl ⟨rfl, rfl⟩⟩
  | .ok vectors =>
    simp only [hembed]
    match hflush : exec site.postgres (x.failures 0) w (.flushDocument title content) with
    -- The flush fails, which undoes it
    | (.error e, t) =>
      obtain ⟨hundrafted, hunchanged, hdrawn⟩ := hkept.error hflush
      rw [run_ask_error hflush]
      exact ⟨hundrafted, hdrawn, .inl hunchanged⟩
    | (.ok document, t) =>
      rw [run_ask_ok hflush]
      obtain ⟨-, -, rfl, stored, rfl⟩ := flushDocument_ok hflush
      match hzip : DocumentService.zipStrict (chunksOf content DEFAULT_CHUNK_SIZE) vectors with
      | none =>
        -- The document would stay behind in the transaction.
        rcases hmatched vectors hembed with hlength | ⟨e, herror⟩
        · exact absurd hlength (zipStrict_none hzip)
        · rw [hflush] at herror
          exact nomatch herror
      | some pairs =>
        simp only
        match hcommit : exec site.postgres (x.failures 1)
            (w.stage { documents := [{ id := w.drawn, title := stored, content }] })
            (.commitChunks (DocumentService.chunkRows w.drawn pairs)) with
        -- A commit that fails takes the document with it
        | (.error e, u) =>
          rw [run_ask_error hcommit]
          obtain rfl := flush_error rfl (by simp) hcommit
          exact ⟨⟨rfl, rfl⟩, Nat.le_succ _, .inl ⟨rfl, rfl⟩⟩
        -- And one that succeeds stores it with every chunk
        | (.ok (), u) =>
          rw [run_ask_ok hcommit]
          obtain rfl := commitChunks_ok hcommit
          refine ⟨⟨rfl, rfl⟩, Nat.le_succ _, .inr ⟨⟨_, rfl⟩, ?_⟩⟩
          refine ⟨{ id := w.drawn, title := stored, content }, pairs, ?_, ?_, zipStrict_fst hzip,
            rfl, Nat.lt_succ_self _⟩
          · simp [hw.1]
          · simp [hw.2]

/-- `create` writes no document. -/
theorem create_attempted (site : Site) (x : Conditions) (table : LowerTable) (email subject body : PyStr)
    (owner : Option PyStr) (hw : Undrafted w) :
    Kept w (site.run x (TicketService.create table email subject body owner) w).2.1 := by
  have hcall : ∀ (c : Call) (s : World × Nat), ofTickets c = true → Kept w s.1 →
      Kept w (answer site.postgres x.failures c s).2.1 := fun c s hc hs => hs.call hc
  have hself : Kept w (w, 0).1 := kept_self hw
  exact (create_only table email subject body owner).run_invariant hcall hself

/-- A job that was accepted and whose work returned is complete. -/
theorem dispatch_of_ok {job : Job} {handler : Storage.Handler} {params : handler.Params}
    (hhandler : site.registry job.name = some handler)
    (hparams : handler.modelValidate job.payload = .ok params)
    (hrun : (site.run x (handler.work x params) w).1 = .ok ()) :
    (site.worker x w).dispatch job = .ok .complete := by
  simp only [TimedWorker.dispatch, Site.worker, hhandler, Option.map_some, hparams, hrun]
  rfl

/-- One attempt does what `Attempted` says, at any job and under any conditions. -/
theorem after_attempted {job : Job} {failed : List RowId} (hw : Undrafted w)
    (hmatched : Matched site (w, failed) (job, x)) :
    Attempted w ((site.worker x w).dispatch job = .ok .complete) (site.after x job w) := by
  unfold Site.after Site.work
  have hidle : Attempted w ((site.worker x w).dispatch job = .ok .complete) w :=
    ⟨hw, Nat.le_refl _, .inl ⟨rfl, rfl⟩⟩
  split
  · exact hidle
  · rename_i handler hhandler
    split
    · exact hidle
    · rename_i params hparams
      have hname : handler.name = job.name := by simpa using List.find?_some hhandler
      have hdone := dispatch_of_ok (x := x) (w := w) hhandler hparams
      rcases List.mem_of_find?_eq_some hhandler with _ | ⟨_, _ | ⟨_, _ | _⟩⟩
      · have hwork : ingestDocumentHandler.work x params =
            (DocumentService.ingest x.embed params.title.val params.content.val >>= fun _ =>
              pure ()) := rfl
        have hingest := ingest_attempted hw (hmatched hname.symm params hparams)
        rw [hwork, Site.run_discard] at hdone
        rw [hwork, Site.run_discard]
        refine ⟨hingest.undrafted, hingest.drawn, hingest.rows.imp_right fun h => ⟨?_, h.2⟩⟩
        obtain ⟨⟨document, hdocument⟩, -⟩ := h
        exact hdone (by rw [hdocument]; rfl)
      · have hwork : (createTicketHandler site.table).work x params =
            (TicketService.create site.table params.customerEmail.val params.subject.val
              params.body.val none >>= fun _ => pure ()) := rfl
        obtain ⟨hundrafted, hunchanged, hdrawn⟩ := create_attempted site x site.table
          params.customerEmail.val params.subject.val params.body.val none hw
        rw [hwork, Site.run_discard]
        exact ⟨hundrafted, hdrawn, .inl hunchanged⟩

end Attempts

/-! ## Runs -/

/-- What holds after every attempt: every row is of an id that was drawn. -/
structure Inv (s : World × List RowId) : Prop extends AllOrNothing s where
  undrafted : Undrafted s.1
  documents : ∀ document ∈ s.1.tables.documents, document.id < s.1.drawn
  chunks : ∀ chunk ∈ s.1.tables.chunks, chunk.documentId < s.1.drawn
  failed : ∀ id ∈ s.2, id < s.1.drawn

/-- The chunks are of their document. -/
theorem chunkRows_documentId {id : RowId} {pairs : List (PyStr × Embedding)}
    {chunk : Storage.Chunk} (h : chunk ∈ DocumentService.chunkRows id pairs) :
    chunk.documentId = id := by
  obtain ⟨pair, -, rfl⟩ := List.mem_map.mp h
  rfl

/-- `chunkRows` numbers the pieces in order. -/
theorem chunkRows_numbered (id : RowId) (pairs : List (PyStr × Embedding)) :
    (DocumentService.chunkRows id pairs).map (fun chunk => (chunk.ordinal, chunk.content)) =
      (pairs.map Prod.fst).zipIdx.map fun (piece, ordinal) => (ordinal, piece) := by
  simp [DocumentService.chunkRows, List.zipIdx_map, Function.comp_def]

/-- The chunks of a document are found among the rows that are of it. -/
theorem storedChunks_append {tables more : Tables} {id : RowId} {rows : List Storage.Chunk}
    (h : more.chunks = tables.chunks ++ rows) :
    storedChunks more id =
      storedChunks tables id ++ rows.filter fun chunk => chunk.documentId = id := by
  rw [storedChunks, h, List.filter_append, storedChunks]

/-- A document stays `Whole` when chunks of another one are stored. -/
theorem Whole.append {tables more : Tables} {document : Storage.Document}
    {rows : List Storage.Chunk} (hwhole : Whole tables document)
    (h : more.chunks = tables.chunks ++ rows)
    (hother : ∀ chunk ∈ rows, chunk.documentId ≠ document.id) : Whole more document := by
  have hnone : rows.filter (fun chunk => chunk.documentId = document.id) = [] := by
    rw [List.filter_eq_nil_iff]
    intro chunk hchunk
    simpa using hother chunk hchunk
  rwa [Whole, storedChunks_append h, hnone, List.append_nil]

/-- A document that was not there is whole once its chunks are. -/
theorem Whole.ingested {tables more : Tables} {document : Storage.Document}
    {pairs : List (PyStr × Embedding)}
    (hnew : ∀ chunk ∈ tables.chunks, chunk.documentId ≠ document.id)
    (h : more.chunks = tables.chunks ++ DocumentService.chunkRows document.id pairs)
    (hpairs : pairs.map Prod.fst = chunksOf document.content DEFAULT_CHUNK_SIZE) :
    Whole more document := by
  have hnone : storedChunks tables document.id = [] := by
    rw [storedChunks, List.filter_eq_nil_iff]
    intro chunk hchunk
    simpa using hnew chunk hchunk
  have hall : (DocumentService.chunkRows document.id pairs).filter
      (fun chunk => chunk.documentId = document.id) =
        DocumentService.chunkRows document.id pairs := by
    rw [List.filter_eq_self]
    intro chunk hchunk
    simpa using chunkRows_documentId hchunk
  refine ⟨chunksOf document.content DEFAULT_CHUNK_SIZE, if_neg (by decide), ?_⟩
  rw [storedChunks_append h, hnone, List.nil_append, hall, chunkRows_numbered, hpairs]

/-- `Inv` is kept by an attempt that writes no document. -/
theorem Inv.unchanged {w t : World} {failed : List RowId} (h : Inv (w, failed))
    (hundrafted : Undrafted t) (hdrawn : w.drawn ≤ t.drawn) (hrows : Unchanged w t) :
    Inv (t, failed) := by
  obtain ⟨hdocuments, hchunks⟩ := hrows
  have hnil : t.tables.chunks = w.tables.chunks ++ [] := hchunks.trans (List.append_nil _).symm
  exact {
    all := by
      intro document hdocument
      have hbefore : document ∈ w.tables.documents := hdocuments ▸ hdocument
      exact (h.all document hbefore).append hnil nofun
    nothing := by
      intro id hid
      obtain ⟨hd, hc⟩ := h.nothing id hid
      exact ⟨fun document hdocument => hd document (hdocuments ▸ hdocument),
        fun chunk hchunk => hc chunk (hchunks ▸ hchunk)⟩
    undrafted := hundrafted
    documents := fun document hdocument =>
      Nat.lt_of_lt_of_le (h.documents document (hdocuments ▸ hdocument)) hdrawn
    chunks := fun chunk hchunk =>
      Nat.lt_of_lt_of_le (h.chunks chunk (hchunks ▸ hchunk)) hdrawn
    failed := fun id hid => Nat.lt_of_lt_of_le (h.failed id hid) hdrawn }

/-- `Inv` is kept by an attempt that writes all of a document. -/
theorem Inv.ingested {w t : World} {failed : List RowId} (h : Inv (w, failed))
    (hundrafted : Undrafted t) (hrows : Ingested w t) : Inv (t, failed) := by
  obtain ⟨document, pairs, hdocuments, hchunks, hpairs, hid, hdrawn⟩ := hrows
  have hrow : ∀ chunk ∈ DocumentService.chunkRows document.id pairs,
      chunk.documentId = w.drawn := fun chunk hchunk => (chunkRows_documentId hchunk).trans hid
  -- The new chunks belong to no document there was before
  have hbelow : ∀ id < w.drawn, ∀ chunk ∈ DocumentService.chunkRows document.id pairs,
      chunk.documentId ≠ id := by
    intro id hlt chunk hchunk
    rw [hrow chunk hchunk]
    exact Nat.ne_of_gt hlt
  exact {
    all := by
      intro other hother
      rw [hdocuments, List.mem_append, List.mem_singleton] at hother
      rcases hother with hother | rfl
      · exact (h.all other hother).append hchunks (hbelow _ (h.documents other hother))
      · refine .ingested (fun chunk hchunk => ?_) hchunks hpairs
        rw [hid]
        exact Nat.ne_of_lt (h.chunks chunk hchunk)
    nothing := by
      intro id hfailed
      obtain ⟨hd, hc⟩ := h.nothing id hfailed
      have hlt := h.failed id hfailed
      constructor
      · intro other hother
        rw [hdocuments, List.mem_append, List.mem_singleton] at hother
        rcases hother with hother | rfl
        · exact hd other hother
        · rw [hid]
          exact Nat.ne_of_gt hlt
      · intro chunk hchunk
        rw [hchunks, List.mem_append] at hchunk
        rcases hchunk with hchunk | hchunk
        · exact hc chunk hchunk
        · exact hbelow id hlt chunk hchunk
    undrafted := hundrafted
    documents := by
      intro other hother
      rw [hdocuments, List.mem_append, List.mem_singleton] at hother
      rcases hother with hother | rfl
      · exact Nat.lt_trans (h.documents other hother) hdrawn
      · rw [hid]
        exact hdrawn
    chunks := by
      intro chunk hchunk
      rw [hchunks, List.mem_append] at hchunk
      rcases hchunk with hchunk | hchunk
      · exact Nat.lt_trans (h.chunks chunk hchunk) hdrawn
      · rw [hrow chunk hchunk]
        exact hdrawn
    failed := fun id hfailed => Nat.lt_trans (h.failed id hfailed) hdrawn }

/-- An attempt that does not succeed leaves nothing. -/
theorem Inv.failed_attempt {w t : World} {failed : List RowId} (h : Inv (w, failed))
    (hundrafted : Undrafted t) (hdrawn : w.drawn ≤ t.drawn) (hrows : Unchanged w t) :
    Inv (t, failed ++ List.range' w.drawn (t.drawn - w.drawn)) := by
  have ht := h.unchanged hundrafted hdrawn hrows
  have hrange : ∀ id ∈ failed ++ List.range' w.drawn (t.drawn - w.drawn),
      id ∈ failed ∨ w.drawn ≤ id ∧ id < t.drawn := by
    intro id hid
    rwa [List.mem_append, List.mem_range'_1, Nat.add_sub_cancel' hdrawn] at hid
  exact { ht with
    nothing := by
      intro id hid
      rcases hrange id hid with hid | ⟨hle, -⟩
      · exact ht.nothing id hid
      · constructor
        · intro document hdocument
          have hlt := h.documents document (hrows.1 ▸ hdocument)
          exact Nat.ne_of_lt (Nat.lt_of_lt_of_le hlt hle)
        · intro chunk hchunk
          have hlt := h.chunks chunk (hrows.2 ▸ hchunk)
          exact Nat.ne_of_lt (Nat.lt_of_lt_of_le hlt hle)
    failed := by
      intro id hid
      rcases hrange id hid with hid | ⟨-, hlt⟩
      · exact ht.failed id hid
      · exact hlt }

/-- `Inv` is kept by every attempt that meets the condition. -/
theorem Inv.step {site : Site} {tables : Tables} {drawn : Nat} {s s' : World × List RowId}
    {attempt : Job × Conditions} (h : Inv s) (hmatched : Matched site s attempt)
    (hstep : (ledger site tables drawn).step s attempt = some s') : Inv s' := by
  obtain ⟨w, failed⟩ := s
  obtain ⟨job, x⟩ := attempt
  have hattempted := after_attempted h.undrafted hmatched
  simp only [ledger] at hstep
  split at hstep
  · obtain rfl := Option.some.inj hstep
    rcases hattempted.rows with hrows | ⟨-, hrows⟩
    · exact h.unchanged hattempted.undrafted hattempted.drawn hrows
    · exact h.ingested hattempted.undrafted hrows
  · rename_i hfailed
    obtain rfl := Option.some.inj hstep
    rcases hattempted.rows with hrows | ⟨hsucceeded, -⟩
    · exact h.failed_attempt hattempted.undrafted hattempted.drawn hrows
    · exact absurd hsucceeded hfailed

/-- On a session whose database has whole documents only, and where every embedder that returns
    does so with one vector for each chunk, every committed document is whole after any attempts,
    and none that failed has left a document or a chunk. -/
theorem all_or_nothing (site : Site) (tables : Tables) (drawn : Nat)
    (hwhole : ∀ document ∈ tables.documents, Whole tables document)
    (hdocuments : ∀ document ∈ tables.documents, document.id < drawn)
    (hchunks : ∀ chunk ∈ tables.chunks, chunk.documentId < drawn) {s : World × List RowId}
    (hs : (ledger site tables drawn).ReachableVia (Matched site) s) : AllOrNothing s := by
  have hinit : Inv (ledger site tables drawn).init := {
    all := hwhole
    nothing := nofun
    undrafted := ⟨rfl, rfl⟩
    documents := hdocuments
    chunks := hchunks
    failed := nofun }
  have hinv : Inv s := hs.invariant hinit fun s attempt s' h hmatched hstep =>
    h.step hmatched hstep
  exact hinv.toAllOrNothing

/-- The example, in which a document is written. -/
theorem all_or_nothing_letter :
    AllOrNothing (plainSite.after plainConditions letterJob
      (ledger plainSite {} 0).init.1, []) := by
  have hdone : (plainSite.worker plainConditions (ledger plainSite {} 0).init.1).dispatch letterJob =
      .ok .complete := letterJob_succeeds plainSite (ledger plainSite {} 0).init.1
  have hstep : (ledger plainSite {} 0).step (ledger plainSite {} 0).init
      (letterJob, plainConditions) =
        some (plainSite.after plainConditions letterJob (ledger plainSite {} 0).init.1, []) := by
    simp only [ledger] at hdone ⊢
    rw [hdone]
  refine all_or_nothing plainSite {} 0 nofun nofun nofun (.step .init ?_ hstep)
  intro _ params hparams vectors hvectors
  rw [← Except.ok.inj hvectors]
  exact .inl (List.length_map _)

/-- An embedder that returns no vector. -/
def unembedded : Conditions := { plainConditions with embed := fun _ => .ok [] }

/-- The job of the example may be tried. -/
theorem ticketJob_budget : 1 ≤ 3 := by decide

/-- A ticket. -/
def ticketJob : Job where
  id := ⟨[0x6b], by decide⟩
  name := lit "create_ticket"
  payload := [(.str (lit "customer_email"), .str (lit "a@b")), (.str (lit "subject"), .str [0x61]),
    (.str (lit "body"), .str [0x61])]
  status := .running
  attempts := 1
  maxAttempts := 3
  error := none
  budget := ticketJob_budget

/-- The commit of the ticket makes a document permanent that failed and has no chunks. -/
theorem failed_document_committed :
    ∃ s, (ledger plainSite {} 0).run [(letterJob, unembedded), (ticketJob, plainConditions)] =
      some s ∧ ¬AllOrNothing s := by
  refine ⟨_, rfl, fun h => ?_⟩
  exact (h.nothing 0 (by decide +kernel)).1 { id := 0, title := [0x61], content := [0x61] }
    (by decide +kernel) rfl

end NexaAssist.Spec.IngestAtomic
