import NexaAssist.Jobs.Codec
import NexaAssist.Jobs.Protocol

/-!
# Which payloads come back from Redis as they went in

A payload is checked with `json.dumps` and stored with `model_dump_json`. The two
agree on the portable payloads, those without a surrogate and with finite floats
only, and on no others: every other payload that passes the check is refused by the
store or read back different.
-/

namespace NexaAssist.Spec.PayloadFidelity

open NexaAssist PyJson Jobs RedisJobQueue

/-! ## What a call writes -/

/-- The job `id` names, read back. -/
def readJob (s : RedisServer JsonDoc) (id : JobId) : Option Job :=
  (s.jobs id).bind pydanticCodec.decode

/-- A call writes nothing, or one job: a new one, or one it has read, with its
    payload as it was. -/
inductive Wrote (s : RedisServer JsonDoc) (newId : Option JobId) (s' : RedisServer JsonDoc) : Prop
  | nothing (h : s'.jobs = s.jobs)
  | built (job : Job) (doc : JsonDoc) (hdoc : pydanticCodec.encode job = .ok doc)
      (hid : newId = some job.id) (h : s'.jobs = (s.set job.id doc).jobs)
  | updated (id : JobId) (stored job : Job) (doc : JsonDoc)
      (hdoc : pydanticCodec.encode job = .ok doc) (hread : readJob s id = some stored)
      (hid : job.id = stored.id) (hpayload : job.payload = stored.payload)
      (h : s'.jobs = (s.set job.id doc).jobs)

/-- The id a call draws. -/
def newIdOf : QueueCall → Option JobId
  | .enqueue newId _ _ _ => some newId
  | _ => none

/-- `modelDumpJson` encodes and leaves the server. -/
theorem runOn_modelDumpJson (job : Job) (s : RedisServer JsonDoc) :
    (modelDumpJson pydanticCodec job).runOn s =
      ((pydanticCodec.encode job).mapError .encode, s) := rfl

/-- Reading a job leaves the server as it was, and what is read was stored. -/
theorem runOn_get (id : JobId) (s : RedisServer JsonDoc) :
    (RedisJobQueue.get pydanticCodec id).runOn s =
      (match readJob s id with
        | some job => .ok job
        | none => .error (jobNotFound id), s) := by
  unfold RedisJobQueue.get readJob
  rw [Prog.runOn_bind, Redis.runOn_get]
  cases hraw : s.jobs id with
  | none => rfl
  | some raw =>
    simp only [Option.bind_some, parse]
    cases pydanticCodec.decode raw <;> rfl

/-- `enqueue` writes a job that it may have written. -/
theorem enqueue_wrote (s : RedisServer JsonDoc) (id : JobId) (name : PyStr) (payload : PyValue)
    (maxAttempts : Int) :
    Wrote s (some id) ((enqueue pydanticCodec id name payload maxAttempts).runOn s).2 := by
  unfold enqueue
  simp only [Prog.runOn_bind, Prog.runOn_lift]
  cases hjob : buildJob id name payload maxAttempts with
  | error e => exact .nothing rfl
  | ok job =>
    simp only [Except.mapError, runOn_modelDumpJson]
    cases hdoc : pydanticCodec.encode job with
    | error e => exact .nothing rfl
    | ok doc => exact .built job doc hdoc (congrArg some (buildJob_ok hjob).1.symm) rfl

/-- `dequeue` writes a job that was there. -/
theorem dequeue_wrote (s : RedisServer JsonDoc) :
    Wrote s none ((dequeue pydanticCodec).runOn s).2 := by
  unfold dequeue
  rw [Prog.runOn_bind, Redis.runOn_lmove]
  unfold RedisServer.lmove
  cases s.lists .pending with
  | nil => exact .nothing rfl
  | cons id rest =>
    simp only [Prog.runOn_bind, runOn_get]
    have hread : readJob ((s.setList .pending rest).rpush .processing id) id = readJob s id := rfl
    rw [hread]
    cases hstored : readJob s id with
    | none => exact .nothing rfl
    | some stored =>
      simp only [write, Prog.runOn_bind, runOn_modelDumpJson, Except.mapError]
      cases hdoc : pydanticCodec.encode stored.running with
      | error e => exact .nothing rfl
      | ok doc => exact .updated id stored stored.running doc hdoc hstored rfl rfl rfl

/-- `complete` writes a job that was there. -/
theorem complete_wrote (s : RedisServer JsonDoc) (job : Job) :
    Wrote s none ((complete pydanticCodec job).runOn s).2 := by
  unfold complete
  simp only [Prog.runOn_bind, runOn_get]
  cases hstored : readJob s job.id with
  | none => exact .nothing rfl
  | some stored =>
    simp only [runOn_modelDumpJson, Except.mapError]
    cases hdoc : pydanticCodec.encode stored.succeeded with
    | error e => exact .nothing rfl
    | ok doc => exact .updated job.id stored stored.succeeded doc hdoc hstored rfl rfl rfl

/-- `fail` writes a job that was there. -/
theorem fail_wrote (s : RedisServer JsonDoc) (job : Job) (error : PyStr) (retryable : Bool) :
    Wrote s none ((RedisJobQueue.fail pydanticCodec job error retryable).runOn s).2 := by
  unfold RedisJobQueue.fail
  simp only [Prog.runOn_bind, runOn_get]
  cases hstored : readJob s job.id with
  | none => exact .nothing rfl
  | some stored =>
    by_cases hdead : (stored.exhausted || !retryable) = true
    · simp only [if_pos hdead, Prog.runOn_bind, runOn_modelDumpJson, Except.mapError]
      cases hdoc : pydanticCodec.encode (stored.dead error) with
      | error e => exact .nothing rfl
      | ok doc => exact .updated job.id stored (stored.dead error) doc hdoc hstored rfl rfl rfl
    · simp only [if_neg hdead, Prog.runOn_bind, runOn_modelDumpJson, Except.mapError]
      cases hdoc : pydanticCodec.encode (stored.retry error) with
      | error e => exact .nothing rfl
      | ok doc => exact .updated job.id stored (stored.retry error) doc hdoc hstored rfl rfl rfl

/-- Parsing what was fetched touches no server. -/
private theorem parseAll_server (raws : List (JobId × Option JsonDoc)) (s : RedisServer JsonDoc) :
    ((parseAll pydanticCodec raws).runOn s).2 = s := by
  induction raws with
  | nil => rfl
  | cons p raws ih =>
    obtain ⟨id, raw⟩ := p
    cases raw with
    | none => exact ih
    | some raw =>
      simp only [parseAll, parse]
      cases pydanticCodec.decode raw with
      | none => rfl
      | some job =>
        simp only [Prog.runOn_bind, Prog.runOn_pure]
        revert ih
        cases (parseAll pydanticCodec raws).runOn s with
        | mk result s' =>
          intro ih
          cases result <;> exact ih

/-- Listing the dead leaves the server as it was. -/
theorem deadLettered_server (s : RedisServer JsonDoc) :
    ((deadLettered pydanticCodec).runOn s).2 = s := by
  unfold deadLettered
  rw [Prog.runOn_bind, Redis.runOn_lrange]
  by_cases hempty : (s.lists .dead).isEmpty = true
  · simp only [if_pos hempty, Prog.runOn_pure]
  · simp only [if_neg hempty, Prog.runOn_bind, Redis.runOn_mget, parseAll_server]

/-- Every call writes what `Wrote` allows. -/
theorem call_wrote (s : RedisServer JsonDoc) (c : QueueCall) :
    Wrote s (newIdOf c) (RedisJobQueue.call pydanticCodec s c).2 := by
  cases c with
  | enqueue newId name payload maxAttempts => exact enqueue_wrote s newId name payload maxAttempts
  | dequeue => exact dequeue_wrote s
  | complete job => exact complete_wrote s job
  | fail job error retryable => exact fail_wrote s job error retryable
  | get jobId =>
    refine .nothing ?_
    simp only [RedisJobQueue.call, runOn_get]
    rfl
  | depth => exact .nothing rfl
  | deadLettered => exact .nothing (congrArg RedisServer.jobs (deadLettered_server s))

/-! ## What stays behind an id -/

/-- Every job is stored under its own id. -/
def Named (s : RedisServer JsonDoc) : Prop := ∀ id job, readJob s id = some job → job.id = id

/-- A job with this payload is stored under `id`, with texts that can be written again. -/
def Stores (id : JobId) (payload : Payload) (s : RedisServer JsonDoc) : Prop :=
  ∃ job, readJob s id = some job ∧ job.payload = payload ∧ wellFormed job.name = true ∧
    ∀ text, job.error = some text → wellFormed text = true

/-- `readJob` depends on the stored jobs alone. -/
theorem readJob_congr {s s' : RedisServer JsonDoc} (h : s'.jobs = s.jobs) :
    readJob s' = readJob s := by
  funext id
  rw [readJob, readJob, h]

/-- `readJob` behind `set` decodes the document under its id, and reads the others as before. -/
theorem readJob_set (s : RedisServer JsonDoc) (id i : JobId) (doc : JsonDoc) :
    readJob (s.set id doc) i = if i = id then pydanticCodec.decode doc else readJob s i := by
  unfold readJob RedisServer.set
  split
  · rename_i h
    simp only [if_pos h, Option.bind_some]
  · rename_i h
    simp only [if_neg h]

/-- `Named` is kept when an encoded job is set under its own id. -/
private theorem named_set {s s' : RedisServer JsonDoc} {job : Job} {doc : JsonDoc}
    (h : Named s) (hdoc : pydanticCodec.encode job = .ok doc)
    (hs' : s'.jobs = (s.set job.id doc).jobs) : Named s' := by
  intro id job' hread
  rw [readJob_congr hs', readJob_set] at hread
  split at hread
  · rename_i heq
    obtain ⟨d, payload, -, -, hdec⟩ := pydanticCodec_decode hdoc
    rw [hdec, Option.some.injEq] at hread
    rw [← hread, heq]
  · exact h id job' hread

/-- Jobs stay under their names after any writes. -/
theorem Named.wrote {s s' : RedisServer JsonDoc} {newId : Option JobId} (h : Named s)
    (hw : Wrote s newId s') : Named s' := by
  cases hw with
  | nothing hs' =>
    intro id job hread
    rw [readJob_congr hs'] at hread
    exact h id job hread
  | built job doc hdoc _ hs' => exact named_set h hdoc hs'
  | updated id stored job doc hdoc _ _ _ hs' => exact named_set h hdoc hs'

/-- `Stores` of a portable payload is kept by any writes that draw another id. -/
theorem Stores.wrote {s s' : RedisServer JsonDoc} {id : JobId} {payload : Payload}
    {newId : Option JobId} (h : Stores id payload s) (hnamed : Named s)
    (hshape : shaped (.dict payload) = true) (hportable : portable (.dict payload) = true)
    (hw : Wrote s newId s') (hnew : newId ≠ some id) : Stores id payload s' := by
  obtain ⟨kept, hread, hpayload, hname, herror⟩ := h
  cases hw with
  | nothing hs' =>
    exact ⟨kept, by rw [readJob_congr hs', hread], hpayload, hname, herror⟩
  | built job doc hdoc hid hs' =>
    refine ⟨kept, ?_, hpayload, hname, herror⟩
    have hne : id ≠ job.id := fun heq => hnew (by rw [hid, heq])
    rw [readJob_congr hs', readJob_set, if_neg hne, hread]
  | updated i stored job doc hdoc hstored hid hpay hs' =>
    by_cases heq : id = job.id
    · -- The job written is the one stored under `id`, with its payload.
      have hi : i = id := by rw [heq, hid, hnamed i stored hstored]
      rw [hi, hread, Option.some.injEq] at hstored
      have hjob : job.payload = payload := by rw [hpay, ← hstored, hpayload]
      obtain ⟨hname', herror'⟩ := pydanticCodec_texts hdoc
      rw [← hjob] at hshape hportable
      obtain ⟨doc', hdoc', hdec⟩ := pydanticCodec_restores job hshape hportable hname' herror'
      rw [hdoc, Except.ok.injEq] at hdoc'
      refine ⟨job, ?_, hjob, hname', herror'⟩
      rw [readJob_congr hs', readJob_set, if_pos heq, hdoc', hdec]
    · refine ⟨kept, ?_, hpayload, hname, herror⟩
      rw [readJob_congr hs', readJob_set, if_neg heq, hread]

/-- Whatever is called on an empty server, every job is stored under its own id. -/
theorem named_stateFrom (calls : List QueueCall) {s : RedisServer JsonDoc} (h : Named s) :
    Named ((redisQueue pydanticCodec).stateFrom s calls) :=
  Object.stateFrom_invariant Named calls (fun s c _ hs => hs.wrote (call_wrote s c)) h

/-- `Named` holds of the empty queue. -/
theorem named_init : Named (redisQueue pydanticCodec).init := fun _ _ h => nomatch h

/-- Whatever is called afterwards, a portable payload stays behind its id. -/
theorem stores_stateFrom (calls : List QueueCall) {s : RedisServer JsonDoc} {id : JobId}
    {payload : Payload} (hfresh : ∀ c ∈ calls, newIdOf c ≠ some id) (hnamed : Named s)
    (hshape : shaped (.dict payload) = true) (hportable : portable (.dict payload) = true)
    (h : Stores id payload s) :
    Stores id payload ((redisQueue pydanticCodec).stateFrom s calls) := by
  refine (Object.stateFrom_invariant (fun s => Named s ∧ Stores id payload s) calls
    (fun s c hc hs => ?_) ⟨hnamed, h⟩).2
  have hw := call_wrote s c
  exact ⟨hs.1.wrote hw, hs.2.wrote hs.1 hshape hportable hw (hfresh c hc)⟩

/-! ## The round trip -/

/-- On a server that has answered `before`, enqueuing the payload succeeds, and
    whatever is called after it that does not draw the id again, getting the job,
    and dequeuing it once it is at the front, give back an equal payload. -/
def PayloadRestored (before : List QueueCall) (id : JobId) (name : PyStr) (payload : PyValue)
    (maxAttempts : Int) : Prop :=
  let s := (redisQueue pydanticCodec).stateFrom (redisQueue pydanticCodec).init before
  let enqueued := (enqueue pydanticCodec id name payload maxAttempts).runOn s
  ∃ job, enqueued.1 = .ok job ∧
    ∀ after : List QueueCall, (∀ c ∈ after, newIdOf c ≠ some id) →
      let s' := (redisQueue pydanticCodec).stateFrom enqueued.2 after
      (∃ got, ((RedisJobQueue.get pydanticCodec id).runOn s').1 = .ok got ∧
        pyEq (.dict got.payload) (.dict job.payload) = true) ∧
      ((s'.lists .pending).head? = some id →
        ∃ taken, ((dequeue pydanticCodec).runOn s').1 = .ok (some taken) ∧
          pyEq (.dict taken.payload) (.dict job.payload) = true)

/-- A payload that `validatePayload` lets through is shaped. -/
private theorem shaped_of_validatePayload {payload : PyValue} {plain : Payload}
    (h : validatePayload payload = .ok plain) : shaped (.dict plain) = true := by
  unfold validatePayload at h
  split at h
  · simp only [Except.ok.injEq] at h
    rw [← h]; rfl
  · split at h
    · exact nomatch h
    · rename_i doc hdoc
      split at h
      · rename_i heq
        simp only [Except.ok.injEq] at h
        rw [← h]
        exact (shaped_of_dumps _ doc hdoc heq).1
      · exact nomatch h
  · exact nomatch h

/-- A name that `validateJobName` lets through can be encoded. -/
private theorem wellFormed_of_validateJobName {name valid : PyStr}
    (h : validateJobName name = .ok valid) : wellFormed valid = true := by
  unfold validateJobName at h
  split at h
  · exact nomatch h
  · rename_i hname
    split at h
    · exact nomatch h
    · simp only [Except.ok.injEq] at h
      simp only [Bool.or_eq_true, Bool.not_eq_true', not_or, Bool.not_eq_false] at hname
      rw [← h, wellFormed, List.all_eq_true]
      intro c hc
      have hallowed : allowedName.contains c = true := List.all_eq_true.mp hname.2 c hc
      have hall : wellFormed allowedName = true := by decide +kernel
      exact List.all_eq_true.mp hall c (List.contains_iff_mem.mp hallowed)

/-- `buildJob` takes what has been validated. -/
private theorem buildJob_valid (id : JobId) {name valid : PyStr} {payload : PyValue}
    {plain : Payload} {maxAttempts : Int} (hname : validateJobName name = .ok valid)
    (hpayload : validatePayload payload = .ok plain) (hmax : 1 ≤ maxAttempts) :
    ∃ job, buildJob id name payload maxAttempts = .ok job ∧ job.id = id ∧ job.name = valid ∧
      job.payload = plain ∧ job.error = none := by
  have hbudget : ¬ maxAttempts < 1 := by omega
  simp only [buildJob, dif_neg hbudget, hname, hpayload]
  exact ⟨_, rfl, rfl, rfl, rfl, rfl⟩

/-- Dequeuing the job at the front, when the payload behind its id is portable. -/
private theorem dequeue_front {s : RedisServer JsonDoc} {id : JobId} {payload : Payload}
    (hshape : shaped (.dict payload) = true) (hportable : portable (.dict payload) = true)
    (h : Stores id payload s) (hfront : (s.lists .pending).head? = some id) :
    ∃ taken, ((dequeue pydanticCodec).runOn s).1 = .ok (some taken) ∧
      taken.payload = payload := by
  obtain ⟨job, hread, hpayload, hname, herror⟩ := h
  unfold dequeue
  rw [Prog.runOn_bind, Redis.runOn_lmove]
  unfold RedisServer.lmove
  cases hq : s.lists .pending with
  | nil => simp [hq] at hfront
  | cons i rest =>
    rw [hq, List.head?_cons, Option.some.injEq] at hfront
    subst hfront
    rw [← hpayload] at hshape hportable
    have hread' : readJob ((s.setList .pending rest).rpush .processing i) i = some job := hread
    obtain ⟨doc, hdoc, -⟩ := pydanticCodec_restores job.running hshape hportable hname herror
    simp only [Prog.runOn_bind, runOn_get, hread', write, runOn_modelDumpJson, hdoc,
      Except.mapError, Redis.runOn_set, Prog.runOn_pure]
    exact ⟨_, rfl, hpayload⟩

/-- `enqueue` of a valid job encodes it and stores the document, or raises. -/
private theorem runOn_enqueue {id : JobId} {name : PyStr} {payload : PyValue} {maxAttempts : Int}
    {job : Job} (hjob : buildJob id name payload maxAttempts = .ok job)
    (s : RedisServer JsonDoc) :
    (enqueue pydanticCodec id name payload maxAttempts).runOn s =
      match pydanticCodec.encode job with
      | .error e => (.error (.encode e), s)
      | .ok doc => (.ok job, (s.set job.id doc).rpush .pending job.id) := by
  unfold enqueue
  simp only [Prog.runOn_bind, Prog.runOn_lift, hjob, Except.mapError, runOn_modelDumpJson]
  cases pydanticCodec.encode job <;> rfl

/-- A payload that is not portable is refused, or the first `get` gives back another. -/
theorem portable_of_payloadRestored {before : List QueueCall} {id : JobId} {name : PyStr}
    {payload : PyValue} {maxAttempts : Int} {job : Job}
    (hjob : buildJob id name payload maxAttempts = .ok job)
    (h : PayloadRestored before id name payload maxAttempts) :
    portable (.dict job.payload) = true := by
  have hid : job.id = id := (buildJob_ok hjob).1
  obtain ⟨job', hok, hafter⟩ := h
  -- Nothing need be called in between.
  obtain ⟨⟨got, hgot, heq⟩, -⟩ := hafter [] (by simp)
  rw [runOn_enqueue hjob] at hok hgot
  cases hdoc : pydanticCodec.encode job with
  | error e => simp [hdoc] at hok
  | ok doc =>
    obtain ⟨d, payload', hd, hloads, hdec⟩ := pydanticCodec_decode hdoc
    simp only [hdoc, Except.ok.injEq] at hok
    subst hok
    have hread : ∀ s : RedisServer JsonDoc,
        readJob ((s.set job.id doc).rpush .pending job.id) id =
          some { job with payload := payload' } := by
      intro s
      show readJob (s.set job.id doc) id = _
      rw [readJob_set, if_pos hid.symm, hdec]
    simp only [hdoc, Object.stateFrom, runOn_get, hread, Except.ok.injEq] at hgot
    rw [← hgot, ← hloads] at heq
    exact portable_of_modelDump _ d hd heq

/-- A portable payload is stored, and comes back however much later it is asked for. -/
theorem payloadRestored_of_portable {id : JobId} {name : PyStr} {payload : PyValue}
    {maxAttempts : Int} {job : Job} (before : List QueueCall)
    (hjob : buildJob id name payload maxAttempts = .ok job)
    (hshape : shaped (.dict job.payload) = true) (hportable : portable (.dict job.payload) = true)
    (hname : wellFormed job.name = true)
    (herror : ∀ text, job.error = some text → wellFormed text = true) :
    PayloadRestored before id name payload maxAttempts := by
  have hid : job.id = id := (buildJob_ok hjob).1
  obtain ⟨doc, hdoc, hdec⟩ := pydanticCodec_restores job hshape hportable hname herror
  unfold PayloadRestored
  simp only [runOn_enqueue hjob, hdoc]
  refine ⟨job, rfl, fun after hfresh => ?_⟩
  have hnamed : Named ((redisQueue pydanticCodec).stateFrom _ before) :=
    named_stateFrom before named_init
  generalize (redisQueue pydanticCodec).stateFrom _ before = s at hnamed
  have hstored : Stores id job.payload ((s.set job.id doc).rpush .pending job.id) := by
    refine ⟨job, ?_, rfl, hname, herror⟩
    show readJob (s.set job.id doc) id = _
    rw [readJob_set, if_pos hid.symm, hdec]
  have hnamed' : Named ((s.set job.id doc).rpush .pending job.id) := named_set hnamed hdoc rfl
  have hlater := stores_stateFrom after hfresh hnamed' hshape hportable hstored
  refine ⟨?_, fun hfront => ?_⟩
  · obtain ⟨got, hread, hgot, -⟩ := hlater
    refine ⟨got, by simp only [runOn_get, hread], ?_⟩
    rw [hgot]
    exact pyEq_self _ hshape
  · obtain ⟨taken, htaken, heq⟩ := dequeue_front hshape hportable hlater hfront
    exact ⟨taken, htaken, by rw [heq]; exact pyEq_self _ hshape⟩

/-- A payload that passes the check at enqueue is kept by the Redis backend exactly
    when it is portable: no surrogate in any of its strings or keys, and every float
    finite. -/
theorem payloadRestored_iff (before : List QueueCall) (id : JobId) (name valid : PyStr)
    (payload : PyValue) (plain : Payload) (maxAttempts : Int)
    (hname : validateJobName name = .ok valid) (hpayload : validatePayload payload = .ok plain)
    (hmax : 1 ≤ maxAttempts) :
    PayloadRestored before id name payload maxAttempts ↔ portable (.dict plain) = true := by
  have hshape : shaped (.dict plain) = true := shaped_of_validatePayload hpayload
  obtain ⟨job, hjob, hid, hjobname, rfl, herror⟩ := buildJob_valid id hname hpayload hmax
  constructor
  · exact portable_of_payloadRestored hjob
  · intro hportable
    exact payloadRestored_of_portable before hjob hshape hportable
      (hjobname ▸ wellFormed_of_validateJobName hname) (by simp [herror])

/-- An everyday payload, enqueued first thing. -/
theorem payloadRestored_iff_guide :
    PayloadRestored [] ⟨.ofString "5f1c", by decide⟩ (.ofString "ingest_document")
        (.dict [(field "path", .str (.ofString "guide.md"))]) 3 ↔
      portable (.dict [(field "path", .str (.ofString "guide.md"))]) = true :=
  payloadRestored_iff [] _ (.ofString "ingest_document") (.ofString "ingest_document") _ _ 3
    (by decide +kernel) (by rfl) (by decide)

/-- `{"x": float("inf")}` passes the check and is not what Redis gives back. -/
theorem infinite_payload_not_restored :
    ∃ plain, validatePayload (.dict [(field "x", .float (.inf false))]) = .ok plain ∧
      ¬ PayloadRestored [] ⟨.ofString "5f1c", by decide⟩ (.ofString "ingest_document")
        (.dict [(field "x", .float (.inf false))]) 3 := by
  refine ⟨[(field "x", .float (.inf false))], rfl, fun h => ?_⟩
  have hname : validateJobName (.ofString "ingest_document") =
      .ok (.ofString "ingest_document") := by decide +kernel
  have hvalid : validatePayload (.dict [(field "x", .float (.inf false))]) =
      .ok [(field "x", .float (.inf false))] := rfl
  have hmax : (1 : Int) ≤ 3 := by decide
  obtain ⟨job, hjob, -, -, hpayload, -⟩ :=
    buildJob_valid ⟨.ofString "5f1c", by decide⟩ hname hvalid hmax
  have hportable := portable_of_payloadRestored hjob h
  rw [hpayload] at hportable
  exact absurd hportable (by decide +kernel)

end NexaAssist.Spec.PayloadFidelity
