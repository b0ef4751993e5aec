import NexaAssist.Jobs.RedisQueue
import NexaAssist.ForStd.PyJsonRoundTrip

/-!
# Jobs as JSON

`pydanticCodec` is the codec the queue really uses: `model_dump_json` on the way
in, `Job.model_validate(json.loads(raw))` on the way out. Whatever a job holds, its
bookkeeping survives: only the payload can come back different.
-/

namespace NexaAssist.Jobs

open NexaAssist PyJson

/-! ## The codec -/

/-- The value of a status. -/
def JobStatus.value : JobStatus → PyStr
  | .pending => .ofString "pending"
  | .running => .ofString "running"
  | .succeeded => .ofString "succeeded"
  | .failed => .ofString "failed"

/-- The status with a value. -/
def JobStatus.ofValue (value : PyStr) : Option JobStatus :=
  [JobStatus.pending, .running, .succeeded, .failed].find? fun status => status.value == value

/-- A field's key. -/
def field (name : String) : PyKey := .str (.ofString name)

/-- `error: str | None` as a value. -/
def errorValue : Option PyStr → PyValue
  | none => .none
  | some text => .str text

/-- The fields of a job, in the order they are declared. -/
def Job.fields (job : Job) : List (PyKey × PyValue) :=
  [(field "id", .str job.id.val), (field "name", .str job.name),
   (field "payload", .dict job.payload), (field "status", .str job.status.value),
   (field "attempts", .int job.attempts), (field "max_attempts", .int job.maxAttempts),
   (field "error", errorValue job.error)]

/-- `job.model_dump_json()`. -/
def Job.modelDumpJson (job : Job) : Except EncodeError JsonDoc := modelDump (.dict job.fields)

/-- A `str` field. -/
def strOf : PyValue → Option PyStr
  | .str s => some s
  | _ => none

/-- A `str` field whose text a client can send. -/
def idOf : PyValue → Option JobId
  | .str s => if h : wellFormed s = true then some ⟨s, h⟩ else none
  | _ => none

/-- An `int` field with a lower bound of zero. -/
def natOf : PyValue → Option Nat
  | .int i => if 0 ≤ i then some i.toNat else none
  | _ => none

/-- A `dict[str, Any]` field. -/
def payloadOf : PyValue → Option Payload
  | .dict es => if es.all (·.1.isStr) then some es else none
  | _ => none

/-- A `JobStatus` field. -/
def statusOf : PyValue → Option JobStatus
  | .str s => JobStatus.ofValue s
  | _ => none

/-- A `str | None` field. -/
def errorOf : PyValue → Option (Option PyStr)
  | .none => some none
  | .str s => some (some s)
  | _ => none

/-- A field that has a default. -/
def fieldOr {α : Type} (es : List (PyKey × PyValue)) (name : String)
    (read : PyValue → Option α) (default : α) : Option α :=
  match dictLookup es (field name) with
  | none => some default
  | some v => read v

/-- `DEFAULT_MAX_ATTEMPTS`. -/
def defaultMaxAttempts : Nat := 3

/-- `Job.model_validate(value)`, of values that have their fields' own types. -/
def Job.modelValidate : PyValue → Option Job
  | .dict es => do
    let id ← (dictLookup es (field "id")).bind idOf
    let name ← (dictLookup es (field "name")).bind strOf
    let payload ← fieldOr es "payload" payloadOf []
    let status ← fieldOr es "status" statusOf .pending
    let attempts ← fieldOr es "attempts" natOf 0
    let maxAttempts ← fieldOr es "max_attempts" natOf defaultMaxAttempts
    let error ← fieldOr es "error" errorOf none
    if h : 1 ≤ maxAttempts then
      some { id, name, payload, status, attempts, maxAttempts, error, budget := h }
    else none
  | _ => none

/-- The codec of the Redis queue. -/
def pydanticCodec : JobCodec JsonDoc where
  encode := Job.modelDumpJson
  decode doc := Job.modelValidate (loads doc)

/-! ## What survives it -/

/-- `ofValue` reads back the value of a status. -/
theorem JobStatus.ofValue_value (status : JobStatus) :
    JobStatus.ofValue status.value = some status := by
  cases status <;> rfl

/-- A text that is dumped is read back. -/
private theorem modelDump_str_ok {s : PyStr} {d : JsonDoc}
    (h : modelDump (.str s) = .ok d) : loads d = .str s := by
  simp only [modelDump, encode, pydanticEncoder] at h
  split at h
  · simp only [Except.map, Except.ok.injEq] at h
    rw [← h, loads, loadsStr_map_raw]
  · cases h

/-- An error that is dumped is read back, also where there is none. -/
private theorem modelDump_errorValue_ok {error : Option PyStr} {d : JsonDoc}
    (h : modelDump (errorValue error) = .ok d) : loads d = errorValue error := by
  cases error with
  | none =>
    simp only [errorValue, modelDump, encode, Except.ok.injEq] at h
    rw [← h]; rfl
  | some text => exact modelDump_str_ok h

/-- Reading an object pydantic wrote: its keys, `str` without surrogates, are as they were, and
    each value is what `json.loads` makes of what was written for it. -/
theorem loadsFields_of_modelDump (es : List (PyKey × PyValue))
    (fs : List (List StrItem × JsonDoc))
    (hkeys : (es.all fun e => e.1.isStr && e.1.text wellFormed) = true)
    (h : encodeEntries pydanticEncoder es = .ok fs) :
    List.Forall₂ (fun e f => f.1 = e.1 ∧ ∃ d, modelDump e.2 = .ok d ∧ f.2 = loads d)
      es (loadsFields fs) := by
  induction es generalizing fs with
  | nil =>
    simp only [encodeEntries, Except.ok.injEq] at h
    subst h
    exact .nil
  | cons e es ih =>
    obtain ⟨k, v⟩ := e
    simp only [List.all_cons, Bool.and_eq_true] at hkeys
    rw [encodeEntries] at h
    split at h
    · rename_i key d ds hkey hd hds
      simp only [Except.ok.injEq] at h
      subst h
      -- A key that is a string is written without escapes, and read back
      refine .cons ⟨?_, d, hd, rfl⟩ (ih ds hkeys.2 hds)
      cases k with
      | str s =>
        rw [← Except.ok.inj hkey, loadsStr_pydanticKey, lossy_of_wellFormed hkeys.1.2]
      | num value text => cases hkeys.1.1
      | none => cases hkeys.1.1
      | other o => cases hkeys.1.1
    all_goals cases h

/-- The keys of a job's fields are distinct. -/
private theorem fields_nodup (job : Job) : (job.fields.map Prod.fst).Nodup := by
  simp only [Job.fields, List.map_cons, List.map_nil, field]
  decide

/-- A value that came of pydantic's output for a dictionary with `str` keys is such
    a dictionary. -/
private theorem loads_dict_ok {es : Payload} {d : JsonDoc}
    (h : modelDump (.dict es) = .ok d) : ∃ es', loads d = .dict es' ∧
      es'.all (·.1.isStr) = true := by
  simp only [modelDump, encode] at h
  cases hfs : encodeEntries pydanticEncoder es with
  | error e => simp [hfs, Except.map] at h
  | ok fs =>
    simp only [hfs, Except.map, Except.ok.injEq] at h
    subst h
    refine ⟨_, rfl, ?_⟩
    rw [List.all_eq_true]
    intro e he
    have hmem : e.1 ∈ (loadsFields fs).map Prod.fst := by
      have hkey : e.1 ∈ (dictOf (loadsFields fs)).map Prod.fst := List.mem_map_of_mem he
      exact (dictOf_keys (loadsFields fs)).2 _ hkey
    obtain ⟨f, hf, hfe⟩ := List.mem_map.mp hmem
    rw [loadsFields_eq_map] at hf
    obtain ⟨g, -, rfl⟩ := List.mem_map.mp hf
    rw [← hfe]; rfl

/-- Validating what `json.loads` makes of the fields, with another payload in them. -/
private theorem modelValidate_fields (job : Job) (payload : Payload)
    (hkeys : payload.all (·.1.isStr) = true) :
    Job.modelValidate (.dict ({ job with payload := payload } : Job).fields) =
      some { job with payload := payload } := by
  have hid : idOf (.str job.id.val) = some job.id := by
    simp only [idOf, dif_pos job.id.property]
  have hstatus : statusOf (.str job.status.value) = some job.status :=
    JobStatus.ofValue_value job.status
  have hpayload : payloadOf (.dict payload) = some payload := by
    simp only [payloadOf, if_pos hkeys]
  have hattempts : natOf (.int job.attempts) = some job.attempts := by simp [natOf]
  have hmax : natOf (.int job.maxAttempts) = some job.maxAttempts := by simp [natOf]
  have herror : errorOf (errorValue job.error) = some job.error := by
    cases job.error <;> rfl
  -- Each field is found under its own name
  have hlookups :
      dictLookup ({ job with payload := payload } : Job).fields (field "id") =
        some (.str job.id.val) ∧
      dictLookup ({ job with payload := payload } : Job).fields (field "name") =
        some (.str job.name) ∧
      dictLookup ({ job with payload := payload } : Job).fields (field "payload") =
        some (.dict payload) ∧
      dictLookup ({ job with payload := payload } : Job).fields (field "status") =
        some (.str job.status.value) ∧
      dictLookup ({ job with payload := payload } : Job).fields (field "attempts") =
        some (.int job.attempts) ∧
      dictLookup ({ job with payload := payload } : Job).fields (field "max_attempts") =
        some (.int job.maxAttempts) ∧
      dictLookup ({ job with payload := payload } : Job).fields (field "error") =
        some (errorValue job.error) :=
    ⟨rfl, rfl, rfl, rfl, rfl, rfl, rfl⟩
  obtain ⟨h₁, h₂, h₃, h₄, h₅, h₆, h₇⟩ := hlookups
  simp only [Job.modelValidate, fieldOr, h₁, h₂, h₃, h₄, h₅, h₆, h₇, Option.bind_some, hid,
    strOf, hpayload, hstatus, hattempts, hmax, herror, Option.bind_eq_bind,
    dif_pos job.budget]

/-- Entries that are related to others by a relation that keeps keys have the same keys. -/
private theorem keys_of_forall₂ {R : PyKey × PyValue → PyKey × PyValue → Prop}
    {es fs : List (PyKey × PyValue)} (h : List.Forall₂ R es fs)
    (hR : ∀ e f, R e f → f.1 = e.1) : fs.map Prod.fst = es.map Prod.fst := by
  induction h with
  | nil => rfl
  | cons hef _ ih => rw [List.map_cons, List.map_cons, hR _ _ hef, ih]

/-- What `json.loads` makes of an encoded job: its own fields, with the payload that
    was read back. -/
private theorem loads_modelDumpJson (job : Job) (doc : JsonDoc)
    (h : job.modelDumpJson = .ok doc) :
    ∃ d payload, modelDump (.dict job.payload) = .ok d ∧ loads d = .dict payload ∧
      payload.all (·.1.isStr) = true ∧
      loads doc = .dict ({ job with payload := payload } : Job).fields := by
  simp only [Job.modelDumpJson, modelDump, encode] at h
  cases hfs : encodeEntries pydanticEncoder job.fields with
  | error e => simp [hfs, Except.map] at h
  | ok fs =>
    simp only [hfs, Except.map, Except.ok.injEq] at h
    subst h
    -- What is read back has the fields of the job, one by one
    have hread := loadsFields_of_modelDump job.fields fs rfl hfs
    have hkeys : (loadsFields fs).map Prod.fst = job.fields.map Prod.fst :=
      keys_of_forall₂ hread fun _ _ hef => hef.1
    rw [loads, dictOf_of_nodup _ (by rw [hkeys]; exact fields_nodup job)]
    generalize loadsFields fs = loaded at hread
    simp only [Job.fields, List.forall₂_cons_left_iff, List.forall₂_nil_left_iff] at hread
    obtain ⟨⟨k₁, v₁⟩, _, ⟨hk₁, d₁, hd₁, hv₁⟩, ⟨⟨k₂, v₂⟩, _, ⟨hk₂, d₂, hd₂, hv₂⟩,
      ⟨⟨k₃, v₃⟩, _, ⟨hk₃, d₃, hd₃, hv₃⟩, ⟨⟨k₄, v₄⟩, _, ⟨hk₄, d₄, hd₄, hv₄⟩,
      ⟨⟨k₅, v₅⟩, _, ⟨hk₅, d₅, hd₅, hv₅⟩, ⟨⟨k₆, v₆⟩, _, ⟨hk₆, d₆, hd₆, hv₆⟩,
      ⟨⟨k₇, v₇⟩, _, ⟨hk₇, d₇, hd₇, hv₇⟩, rfl, rfl⟩, rfl⟩, rfl⟩, rfl⟩, rfl⟩, rfl⟩, rfl⟩ := hread
    -- Only the payload may come back changed
    obtain ⟨payload, hpayload, hstr⟩ := loads_dict_ok hd₃
    refine ⟨d₃, payload, hd₃, hpayload, hstr, ?_⟩
    have hint : ∀ (n : Nat) d, modelDump (.int n) = .ok d → loads d = .int n := by
      intro n d hd
      simp only [modelDump, encode, Except.ok.injEq] at hd
      rw [← hd, loads]
    simp only at hk₁ hk₂ hk₃ hk₄ hk₅ hk₆ hk₇ hv₁ hv₂ hv₃ hv₄ hv₅ hv₆ hv₇
    rw [hk₁, hk₂, hk₃, hk₄, hk₅, hk₆, hk₇, hv₁, hv₂, hv₃, hv₄, hv₅, hv₆, hv₇,
      modelDump_str_ok hd₁, modelDump_str_ok hd₂, hpayload, modelDump_str_ok hd₄,
      hint _ _ hd₅, hint _ _ hd₆, modelDump_errorValue_ok hd₇]
    rfl

/-- Whatever is stored is read back with its bookkeeping as it was. -/
theorem pydanticCodec_decode {job : Job} {doc : JsonDoc}
    (h : pydanticCodec.encode job = .ok doc) :
    ∃ d payload, modelDump (.dict job.payload) = .ok d ∧ loads d = .dict payload ∧
      pydanticCodec.decode doc = some { job with payload := payload } := by
  obtain ⟨d, payload, hd, hloads, hstr, hdoc⟩ := loads_modelDumpJson job doc h
  refine ⟨d, payload, hd, hloads, ?_⟩
  show Job.modelValidate (loads doc) = _
  rw [hdoc, modelValidate_fields job payload hstr]

/-- A text that is dumped can be encoded. -/
private theorem wellFormed_of_modelDump {s : PyStr} {d : JsonDoc}
    (h : modelDump (.str s) = .ok d) : wellFormed s = true := by
  simp only [modelDump, encode, pydanticEncoder] at h
  split at h
  · assumption
  · cases h

/-- The value of a field is written when the job is. -/
private theorem modelDump_field {job : Job} {doc : JsonDoc} (h : job.modelDumpJson = .ok doc)
    {e : PyKey × PyValue} (he : e ∈ job.fields) : ∃ d, modelDump e.2 = .ok d := by
  simp only [Job.modelDumpJson, modelDump, encode] at h
  cases hfs : encodeEntries pydanticEncoder job.fields with
  | error err => simp [hfs, Except.map] at h
  | ok fs =>
    have hread := loadsFields_of_modelDump job.fields fs rfl hfs
    obtain ⟨_, -, -, d, hd, -⟩ := hread.exists_of_mem_left he
    exact ⟨d, hd⟩

/-- A job that was written has no surrogate in its name or its error. -/
theorem pydanticCodec_texts {job : Job} {doc : JsonDoc} (h : pydanticCodec.encode job = .ok doc) :
    wellFormed job.name = true ∧ ∀ text, job.error = some text → wellFormed text = true := by
  constructor
  · obtain ⟨d, hd⟩ := modelDump_field h (e := (field "name", .str job.name)) (by simp [Job.fields])
    exact wellFormed_of_modelDump hd
  · intro text htext
    obtain ⟨d, hd⟩ := modelDump_field h (e := (field "error", errorValue job.error))
      (by simp [Job.fields])
    rw [htext] at hd
    exact wellFormed_of_modelDump hd

/-- A job whose payload is portable and whose other texts have no surrogates is
    stored and read back as it was. -/
theorem pydanticCodec_restores (job : Job) (hshape : shaped (.dict job.payload) = true)
    (hportable : portable (.dict job.payload) = true) (hname : wellFormed job.name = true)
    (herror : ∀ text, job.error = some text → wellFormed text = true) :
    ∃ doc, pydanticCodec.encode job = .ok doc ∧ pydanticCodec.decode doc = some job := by
  -- All fields of a job but the payload are of JSON's own shape
  have hshape' : shaped (.dict job.fields) = true := by
    have hkeys : job.fields.all (·.1.isStr) = true := rfl
    rw [shaped, hkeys, decide_eq_true (fields_nodup job), Bool.true_and, Bool.true_and]
    have herr : shaped (errorValue job.error) = true := by cases job.error <;> rfl
    simp only [Job.fields, shapedEntries, hshape, herr, Bool.and_true]
    rfl
  -- And they are portable, with the payload's own portability for the rest
  have hportable' : portable (.dict job.fields) = true := by
    have hkey : ∀ name ∈ ["id", "name", "payload", "status", "attempts", "max_attempts", "error"],
        (field name).text wellFormed = true := by decide
    have hstatus : wellFormed job.status.value = true := by cases job.status <;> decide
    have herr : leavesAll wellFormed isFinite (errorValue job.error) = true := by
      cases htext : job.error with
      | none => rfl
      | some text => exact herror text htext
    rw [portable] at hportable
    simp only [List.forall_mem_cons] at hkey
    obtain ⟨h₁, h₂, h₃, h₄, h₅, h₆, h₇, -⟩ := hkey
    simp only [portable, Job.fields, leavesAll, leavesAllEntries, h₁, h₂, h₃, h₄, h₅, h₆, h₇,
      job.id.property, hname, hstatus, herr, Bool.and_true, Bool.true_and]
    simpa only [leavesAll] using hportable
  obtain ⟨doc, hdoc, hloads⟩ := modelDump_restores _ hshape' hportable'
  refine ⟨doc, hdoc, ?_⟩
  show Job.modelValidate (loads doc) = some job
  have hkeys : job.payload.all (·.1.isStr) = true := by
    simp only [shaped, Bool.and_eq_true] at hshape
    exact hshape.1.1
  rw [hloads]
  exact modelValidate_fields job job.payload hkeys

/-- A job that is read back as it is, whenever it is stored. -/
structure Job.Restorable (job : Job) : Prop where
  shape : shaped (.dict job.payload) = true
  payload : portable (.dict job.payload) = true
  name : wellFormed job.name = true
  error : ∀ text, job.error = some text → wellFormed text = true

/-- A restorable job is encoded and read back. -/
theorem Job.Restorable.restores {job : Job} (h : job.Restorable) :
    ∃ doc, pydanticCodec.encode job = .ok doc ∧ pydanticCodec.decode doc = some job :=
  pydanticCodec_restores job h.shape h.payload h.name h.error

/-! Its life cycle keeps it so, as long as its errors can be written. -/

/-- A restorable job is restorable while it runs. -/
theorem Job.Restorable.running {job : Job} (h : job.Restorable) : job.running.Restorable :=
  ⟨h.shape, h.payload, h.name, h.error⟩

/-- A restorable job is restorable when it has succeeded. -/
theorem Job.Restorable.succeeded {job : Job} (h : job.Restorable) : job.succeeded.Restorable :=
  ⟨h.shape, h.payload, h.name, fun _ herror => nomatch herror⟩

/-- A restorable job is restorable when it is dead, if the error can be encoded. -/
theorem Job.Restorable.dead {job : Job} (h : job.Restorable) {error : PyStr}
    (herror : wellFormed error = true) : (job.dead error).Restorable :=
  ⟨h.shape, h.payload, h.name, fun _ htext => Option.some.inj htext ▸ herror⟩

/-- A restorable job is restorable when it is to be tried again, if the error can be encoded. -/
theorem Job.Restorable.retry {job : Job} (h : job.Restorable) {error : PyStr}
    (herror : wellFormed error = true) : (job.retry error).Restorable :=
  ⟨h.shape, h.payload, h.name, fun _ htext => Option.some.inj htext ▸ herror⟩

/-- What is read of any job that was stored can be stored again. -/
theorem pydanticCodec_restorable {job : Job} {doc : JsonDoc}
    (h : pydanticCodec.encode job = .ok doc) :
    ∃ read, pydanticCodec.decode doc = some read ∧ read.id = job.id ∧ read.Restorable := by
  obtain ⟨d, payload, hd, hloads, hdec⟩ := pydanticCodec_decode h
  obtain ⟨hname, herror⟩ := pydanticCodec_texts h
  have hread := loads_modelDump hd
  rw [hloads] at hread
  exact ⟨_, hdec, rfl, ⟨hread.1, hread.2, hname, herror⟩⟩

end NexaAssist.Jobs
