import Mathlib.Data.List.Nodup
import Mathlib.Tactic.ByContra
import NexaAssist.Jobs.Fleet

/-!
# The Redis queue loses and duplicates nothing

A party owns an id from the `LMOVE` that took it to the pipeline that passes it back,
and nobody else touches it meanwhile: that is the invariant (`Sound`), and what each
method keeps to (`Safe`). A crash only ever drops an ownership, which leaves the id in
the processing list.
-/

namespace NexaAssist.Spec.RedisConservation

open NexaAssist PyJson Jobs

/-! ## What the server has of one id -/

/-- How often an id occurs in each list, and what is stored behind it. -/
structure View where
  pending : Nat
  processing : Nat
  dead : Nat
  raw : Option JsonDoc

def View.total (v : View) : Nat := v.pending + v.processing + v.dead

/-- The job behind the id, read back. -/
def View.job (v : View) : Option Job := v.raw.bind pydanticCodec.decode

def view (s : RedisServer JsonDoc) (id : JobId) : View where
  pending := (s.lists .pending).count id
  processing := (s.lists .processing).count id
  dead := (s.lists .dead).count id
  raw := s.jobs id

/-- An id whose enqueue has run is somewhere once, or its job has succeeded. Its
    attempts are within the budget, with one to spare while it is pending. -/
structure Kept (id : JobId) (v : View) (job : Job) : Prop where
  read : v.job = some job
  ident : job.id = id
  attempts : job.attempts ≤ job.maxAttempts
  ready : 0 < v.pending → job.attempts < job.maxAttempts
  place : v.total = 1 ∨ v.total = 0 ∧ job.status = .succeeded

/-- What the server has of an id, by whether its enqueue has run. -/
structure RecordOk (drawn enqueued : List JobId) (id : JobId) (v : View) : Prop where
  kept : id ∈ enqueued → id ∈ drawn ∧ ∃ job, Kept id v job
  absent : id ∉ enqueued → v.total = 0 ∧ v.raw = none

/-! ## Ownership -/

/-- What a party may touch: an id it drew and has not enqueued, or an id it took, with
    the job stored behind it. -/
inductive Token
  | none
  | fresh (id : JobId)
  | owns (id : JobId) (job : Job)

/-- The id a token is about. -/
def Token.id : Token → Option JobId
  | .none => Option.none
  | .fresh id => some id
  | .owns id _ => some id

/-- What a token says of the server. -/
def Holds (s : RedisServer JsonDoc) (drawn enqueued : List JobId) : Token → Prop
  | .none => True
  | .fresh id => id ∈ drawn ∧ id ∉ enqueued
  | .owns id job => 0 < (view s id).processing ∧ (view s id).job = some job

/-- The server and the tokens the parties have. -/
structure Sound (s : RedisServer JsonDoc) (drawn enqueued : List JobId) (tok : Nat → Token) :
    Prop where
  record : ∀ id, RecordOk drawn enqueued id (view s id)
  holds : ∀ i, Holds s drawn enqueued (tok i)
  distinct : ∀ i j id, (tok i).id = some id → (tok j).id = some id → i = j

/-- Give party `i` another token. -/
def give (tok : Nat → Token) (i : Nat) (t : Token) : Nat → Token :=
  fun j => if j = i then t else tok j

/-- `give` gives a token. -/
@[simp] theorem give_same (tok : Nat → Token) (i : Nat) (t : Token) : give tok i t i = t := by
  simp [give]

/-- `give` of the token that a worker has changes nothing. -/
theorem give_eq (tok : Nat → Token) (i : Nat) : give tok i (tok i) = tok := by
  funext j
  unfold give
  split
  · rename_i hj
    rw [hj]
  · rfl

/-- The last token that is given counts. -/
theorem give_give (tok : Nat → Token) (i : Nat) (t t' : Token) :
    give (give tok i t) i t' = give tok i t' := by
  funext j
  unfold give
  split <;> rfl

/-- `give` leaves the tokens of others. -/
theorem give_other (tok : Nat → Token) {i j : Nat} (t : Token) (h : j ≠ i) :
    give tok i t j = tok j := by
  simp [give, h]

/-- `Sound` is kept by a change to one id, made by the party that has it, if it holds at that id. -/
theorem Sound.local {s s' : RedisServer JsonDoc} {drawn enqueued enqueued' : List JobId}
    {tok : Nat → Token} (h : Sound s drawn enqueued tok) {i : Nat} {id : JobId} {t : Token}
    (hview : ∀ j, j ≠ id → view s' j = view s j)
    (henq : ∀ j, j ≠ id → (j ∈ enqueued' ↔ j ∈ enqueued))
    (hothers : ∀ j, j ≠ i → (tok j).id ≠ some id)
    (hid : t.id = none ∨ t.id = some id)
    (hrecord : RecordOk drawn enqueued' id (view s' id))
    (hholds : Holds s' drawn enqueued' t) : Sound s' drawn enqueued' (give tok i t) where
  record j := by
    by_cases hj : j = id
    · rw [hj]; exact hrecord
    · rw [hview j hj]
      obtain ⟨hkept, habsent⟩ := h.record j
      exact ⟨fun hm => hkept ((henq j hj).mp hm), fun hm => habsent fun hm' =>
        hm ((henq j hj).mpr hm')⟩
  holds j := by
    by_cases hj : j = i
    · rw [hj, give_same]; exact hholds
    · rw [give_other tok t hj]
      have hold := h.holds j
      have hne := hothers j hj
      cases htok : tok j with
      | none => trivial
      | fresh k =>
        rw [htok] at hold hne
        have hk : k ≠ id := fun heq => hne (by rw [heq]; rfl)
        exact ⟨hold.1, fun hm => hold.2 ((henq k hk).mp hm)⟩
      | owns k job =>
        rw [htok] at hold hne
        have hk : k ≠ id := fun heq => hne (by rw [heq]; rfl)
        show 0 < (view s' k).processing ∧ (view s' k).job = some job
        rw [hview k hk]
        exact hold
  distinct j k l hj hk := by
    -- No other party has the id of the step
    have hgive : ∀ m, m ≠ i → (give tok i t m).id = some l → l ≠ id := by
      intro m hm hml heq
      rw [give_other tok t hm, heq] at hml
      exact hothers m hm hml
    -- And the one that steps has no other id
    have hself : (give tok i t i).id = some l → l = id := by
      intro hl
      rw [give_same] at hl
      cases hid with
      | inl hn => rw [hn] at hl; exact nomatch hl
      | inr hs => rw [hs] at hl; exact (Option.some.inj hl).symm
    by_cases hji : j = i
    · by_cases hki : k = i
      · rw [hji, hki]
      · exact absurd (hself (hji ▸ hj)) (hgive k hki hk)
    · by_cases hki : k = i
      · exact absurd (hself (hki ▸ hk)) (hgive j hji hj)
      · rw [give_other tok t hji] at hj
        rw [give_other tok t hki] at hk
        exact h.distinct j k l hj hk

/-- `Sound` is kept when a token is dropped. -/
theorem Sound.drop {s : RedisServer JsonDoc} {drawn enqueued : List JobId} {tok : Nat → Token}
    (h : Sound s drawn enqueued tok) (i : Nat) : Sound s drawn enqueued (give tok i .none) where
  record := h.record
  holds j := by
    by_cases hj : j = i
    · rw [hj, give_same]; trivial
    · rw [give_other tok _ hj]; exact h.holds j
  distinct j k l hj hk := by
    have hne : ∀ m, (give tok i .none m).id = some l → m ≠ i := by
      intro m hm heq
      rw [heq, give_same] at hm
      exact nomatch hm
    rw [give_other tok _ (hne j hj)] at hj
    rw [give_other tok _ (hne k hk)] at hk
    exact h.distinct j k l hj hk

/-- A job that a worker owns is once in the processing list, in no other list, and was enqueued. -/
theorem Sound.owned {s : RedisServer JsonDoc} {drawn enqueued : List JobId} {tok : Nat → Token}
    (h : Sound s drawn enqueued tok) {i : Nat} {id : JobId} {job : Job}
    (htok : tok i = .owns id job) : id ∈ enqueued ∧ id ∈ drawn ∧ Kept id (view s id) job ∧
      (view s id).pending = 0 ∧ (view s id).processing = 1 ∧ (view s id).dead = 0 := by
  have hold := h.holds i
  rw [htok] at hold
  have henq : id ∈ enqueued := by
    by_contra hno
    have htotal := ((h.record id).absent hno).1
    have := hold.1
    simp only [View.total] at htotal
    omega
  obtain ⟨hdrawn, job', hkept⟩ := (h.record id).kept henq
  have hjob : job' = job := by
    have := hold.2
    rw [hkept.read] at this
    exact Option.some.inj this
  subst hjob
  have hplace := hkept.place
  have := hold.1
  simp only [View.total] at hplace
  exact ⟨henq, hdrawn, hkept, by omega, by omega, by omega⟩

/-- Where one worker has a job, no other worker has it. -/
theorem Sound.others {s : RedisServer JsonDoc} {drawn enqueued : List JobId} {tok : Nat → Token}
    (h : Sound s drawn enqueued tok) {i : Nat} {id : JobId} (htok : (tok i).id = some id) :
    ∀ j, j ≠ i → (tok j).id ≠ some id :=
  fun j hj hid => hj (h.distinct j i id hid htok)

/-! ## What a method may do -/

/-- The pipeline that passes an id back: its job is stored, and it leaves the
    processing list, for `target` if there is one. -/
def passOps (id : JobId) (w : JsonDoc) : Option ListKey → List (PipeOp JsonDoc)
  | none => [.set id w, .lrem .processing id]
  | some key => [.set id w, .lrem .processing id, .rpush key id]

/-- A job that may be stored behind `id`. -/
def Fits (id : JobId) (w : JsonDoc) (job : Job) : Prop :=
  pydanticCodec.decode w = some job ∧ job.id = id ∧ job.attempts ≤ job.maxAttempts

/-- A program that keeps to what its token allows, and returns with `Q` of its result
    and the token it is left with. -/
def Safe {α : Type} (Q : α → Token → Prop) : Token → Prog JsonDoc α → Prop
  | t, .done (.ok a) => Q a t
  | _, .done (.error _) => True
  | t, .trip (.lmove src dst) next =>
    t = .none ∧ src = .pending ∧ dst = .processing ∧ Safe Q .none (next none) ∧
      ∀ id job, job.id = id → job.attempts < job.maxAttempts →
        Safe Q (.owns id job) (next (some id))
  | t, .trip (.get id) next =>
    ∀ raw : Option JsonDoc, (∀ job, t = .owns id job → raw.bind pydanticCodec.decode = some job) →
      Safe Q t (next raw)
  | t, .trip (.set id w) next =>
    ∃ job job', t = .owns id job ∧ Fits id w job' ∧ Safe Q (.owns id job') (next ())
  | t, .trip (.llen _) next => ∀ n, Safe Q t (next n)
  | t, .trip (.lrange _) next => ∀ ids, Safe Q t (next ids)
  | t, .trip (.mget _) next => ∀ raws, Safe Q t (next raws)
  | t, .trip (.execute ops) next =>
    ∃ id job w job' target, t = .owns id job ∧ ops = passOps id w target ∧ Fits id w job' ∧
      target ≠ some .processing ∧ (target = none → job'.status = .succeeded) ∧
      (target = some .pending → job'.attempts < job'.maxAttempts) ∧ Safe Q .none (next ())

section Safe

variable {α β : Type} {R : α → Token → Prop} {Q : β → Token → Prop}

/-- A program that goes on as `f` may be shown safe in two parts. -/
theorem Safe.bind {p : Prog JsonDoc α} {f : α → Prog JsonDoc β} {t : Token} (h : Safe R t p)
    (hf : ∀ a t', R a t' → Safe Q t' (f a)) : Safe Q t (p >>= f) := by
  induction p generalizing t with
  | done result =>
    cases result with
    | ok a => exact hf a t h
    | error e => exact h
  | trip c next ih =>
    cases c with
    | lmove src dst =>
      obtain ⟨ht, hsrc, hdst, hnone, hsome⟩ := h
      exact ⟨ht, hsrc, hdst, ih none hnone, fun id job hid hlt => ih (some id) (hsome id job hid hlt)⟩
    | get id => exact fun raw hraw => ih raw (h raw hraw)
    | set id w =>
      obtain ⟨job, job', ht, hfits, hnext⟩ := h
      exact ⟨job, job', ht, hfits, ih () hnext⟩
    | llen key => exact fun n => ih n (h n)
    | lrange key => exact fun ids => ih ids (h ids)
    | mget ids => exact fun raws => ih raws (h raws)
    | execute ops =>
      obtain ⟨id, job, w, job', target, ht, hops, hfits, htarget, hnone, hpending, hnext⟩ := h
      exact ⟨id, job, w, job', target, ht, hops, hfits, htarget, hnone, hpending, ih () hnext⟩

/-- A program that returns is `Safe` with any token, if its postcondition holds of that. -/
theorem Safe.pure {Q : α → Token → Prop} {t : Token} {a : α} (h : Q a t) :
    Safe Q t (Pure.pure a) := h

/-- `_parse` of what is stored behind an id that is owned. -/
theorem Safe.parse {Q : Job → Token → Prop} {t : Token} {raw : JsonDoc} {id : JobId}
    (h : ∀ job, pydanticCodec.decode raw = some job → Q job t) :
    Safe Q t (RedisJobQueue.parse pydanticCodec raw id) := by
  unfold RedisJobQueue.parse
  cases hdec : pydanticCodec.decode raw with
  | none => trivial
  | some job => exact h job hdec

/-- `get` returns what is stored, which is the owner's job if the id is owned. -/
theorem Safe.get {Q : Job → Token → Prop} {t : Token} {id : JobId}
    (h : ∀ job, (∀ job', t = .owns id job' → job' = job) → Q job t) :
    Safe Q t (RedisJobQueue.get pydanticCodec id) := by
  intro raw hraw
  cases raw with
  | none => trivial
  | some raw =>
    refine Safe.parse fun job hdec => h job fun job' ht => ?_
    have := hraw job' ht
    rw [Option.bind_some, hdec] at this
    exact (Option.some.inj this).symm

/-- `modelDumpJson` writes a document that is decoded as the job, with its bookkeeping as it was. -/
theorem Safe.modelDumpJson {Q : JsonDoc → Token → Prop} {t : Token} {job : Job}
    (h : ∀ w payload, pydanticCodec.decode w = some { job with payload := payload } → Q w t) :
    Safe Q t (RedisJobQueue.modelDumpJson pydanticCodec job) := by
  unfold RedisJobQueue.modelDumpJson Prog.lift
  cases hdoc : pydanticCodec.encode job with
  | error e => trivial
  | ok w =>
    obtain ⟨d, payload, -, -, hdec⟩ := pydanticCodec_decode hdoc
    exact h w payload hdec

/-- The pipeline of `passOps` is `Safe` with the token of the job it passes back. -/
theorem Safe.execute {id : JobId} {job : Job} (job' : Job) {w : JsonDoc} {target : Option ListKey}
    {Q : Unit → Token → Prop} (hfits : Fits id w job') (htarget : target ≠ some .processing)
    (hnone : target = none → job'.status = .succeeded)
    (hpending : target = some .pending → job'.attempts < job'.maxAttempts) (hQ : Q () .none) :
    Safe Q (.owns id job) (Redis.execute (passOps id w target)) :=
  ⟨id, job, w, job', target, rfl, rfl, hfits, htarget, hnone, hpending, hQ⟩

end Safe

/-- What a dequeue leaves its caller with. -/
def Taken (result : Option Job) (t : Token) : Prop :=
  ∀ job, result = some job → ∃ stored, t = .owns job.id stored ∧ stored.id = job.id

/-- A dequeued job is owned by whoever dequeued it. -/
theorem dequeue_safe : Safe Taken .none (RedisJobQueue.dequeue pydanticCodec) := by
  refine ⟨rfl, rfl, rfl, Safe.pure ?_, fun id job hid hlt => ?_⟩
  · intro job hjob
    exact nomatch hjob
  refine Safe.bind (R := fun stored t => stored = job ∧ t = .owns id job)
    (Safe.get fun stored hstored => ⟨(hstored job rfl).symm, rfl⟩) ?_
  intro stored t ⟨hstored, ht⟩
  subst hstored ht
  refine Safe.bind (R := fun _ t => ∃ job', t = .owns id job' ∧ job'.id = id) ?_ ?_
  · refine Safe.bind (R := fun w t => t = .owns id stored ∧ ∃ payload,
      pydanticCodec.decode w = some { stored.running with payload := payload })
      (Safe.modelDumpJson fun w payload hdec => ⟨rfl, payload, hdec⟩) ?_
    intro w t ⟨ht, payload, hdec⟩
    subst ht
    show Safe _ _ (Redis.set stored.id w)
    rw [hid]
    exact ⟨stored, _, rfl, ⟨hdec, hid, Nat.succ_le_of_lt hlt⟩, _, rfl, hid⟩
  · intro _ t ⟨job', ht, hid'⟩ job hjob
    have hjob : stored.running = job := Option.some.inj hjob
    subst hjob
    exact ⟨job', by rw [ht, Job.running_id, hid], by rw [hid', Job.running_id, hid]⟩

/-- Passing back what was made of the stored job: the end of `complete` and of both
    branches of `fail`. -/
private theorem pass_safe {id : JobId} {stored : Job} (job : Job) (target : Option ListKey)
    (hid : job.id = id) (hattempts : job.attempts ≤ job.maxAttempts)
    (htarget : target ≠ some .processing) (hnone : target = none → job.status = .succeeded)
    (hpending : target = some .pending → job.attempts < job.maxAttempts) :
    Safe (fun (_ : Job) _ => True) (.owns id stored)
      (RedisJobQueue.modelDumpJson pydanticCodec job >>= fun raw =>
        Redis.execute (passOps job.id raw target) >>= fun _ => pure job) := by
  refine Safe.bind (R := fun w t => t = .owns id stored ∧ ∃ payload,
    pydanticCodec.decode w = some { job with payload := payload })
    (Safe.modelDumpJson fun w payload hdec => ⟨rfl, payload, hdec⟩) ?_
  intro w t ⟨ht, payload, hdec⟩
  subst ht
  rw [hid]
  refine Safe.bind (R := fun _ _ => True)
    (Safe.execute { job with payload := payload } ⟨hdec, hid, hattempts⟩ htarget hnone
      hpending trivial) ?_
  intro _ _ _
  exact Safe.pure trivial

/-- `complete`, by whoever owns the job. -/
theorem complete_safe {job stored : Job} (hid : stored.id = job.id)
    (hattempts : stored.attempts ≤ stored.maxAttempts) :
    Safe (fun (_ : Job) _ => True) (.owns job.id stored)
      (RedisJobQueue.complete pydanticCodec job) := by
  refine Safe.bind (R := fun got t => got = stored ∧ t = .owns job.id stored)
    (Safe.get fun got hgot => ⟨(hgot stored rfl).symm, rfl⟩) ?_
  intro got t ⟨hgot, ht⟩
  subst hgot ht
  exact pass_safe got.succeeded none hid hattempts (by decide)
    (fun _ => rfl) fun h => nomatch h

/-- `fail`, by whoever owns the job. -/
theorem fail_safe {job stored : Job} (hid : stored.id = job.id)
    (hattempts : stored.attempts ≤ stored.maxAttempts) (error : PyStr) (retryable : Bool) :
    Safe (fun (_ : Job) _ => True) (.owns job.id stored)
      (RedisJobQueue.fail pydanticCodec job error retryable) := by
  refine Safe.bind (R := fun got t => got = stored ∧ t = .owns job.id stored)
    (Safe.get fun got hgot => ⟨(hgot stored rfl).symm, rfl⟩) ?_
  intro got t ⟨hgot, ht⟩
  subst hgot ht
  by_cases hdead : (got.exhausted || !retryable) = true
  · simp only [if_pos hdead]
    exact pass_safe (got.dead error) (some .dead) hid hattempts (by decide)
      (fun h => nomatch h) fun h => nomatch h
  · simp only [if_neg hdead]
    -- A job that is not exhausted has an attempt to spare.
    have hspare : got.attempts < got.maxAttempts := by
      simp only [Bool.or_eq_true, not_or, Job.exhausted, decide_eq_true_eq, not_le] at hdead
      exact hdead.1
    exact pass_safe (got.retry error) (some .pending) hid hattempts (by decide)
      (fun h => nomatch h) fun _ => hspare

/-- `tell` keeps to the job that its worker owns. -/
theorem tell_safe {job stored : Job} (hid : stored.id = job.id)
    (hattempts : stored.attempts ≤ stored.maxAttempts) (how : Settlement) :
    Safe (fun (_ : Job) _ => True) (.owns job.id stored) (how.tell pydanticCodec job) := by
  cases how with
  | complete => exact complete_safe hid hattempts
  | fail error retryable => exact fail_safe hid hattempts error retryable

/-- A program that is safe without a token, whatever it returns. -/
def ReadsOnly {α : Type} (p : Prog JsonDoc α) : Prop := Safe (fun _ t => t = .none) .none p

/-- Two programs that only read do so one after the other. -/
theorem ReadsOnly.bind {α β : Type} {p : Prog JsonDoc α} {f : α → Prog JsonDoc β}
    (h : ReadsOnly p) (hf : ∀ a, ReadsOnly (f a)) : ReadsOnly (p >>= f) :=
  Safe.bind h fun a t ht => by rw [ht]; exact hf a

/-- `get` only reads. -/
theorem get_readsOnly (id : JobId) : ReadsOnly (RedisJobQueue.get pydanticCodec id) :=
  Safe.get fun _ _ => rfl

/-- `depth` only reads. -/
theorem depth_readsOnly : ReadsOnly (RedisJobQueue.depth (W := JsonDoc)) :=
  fun _ => Safe.pure (Q := fun _ t => t = .none) rfl

/-- `parseAll` only reads. -/
theorem parseAll_readsOnly (raws : List (JobId × Option JsonDoc)) :
    ReadsOnly (RedisJobQueue.parseAll pydanticCodec raws) := by
  induction raws with
  | nil => exact Safe.pure rfl
  | cons p raws ih =>
    obtain ⟨id, raw⟩ := p
    cases raw with
    | none => exact ih
    | some raw =>
      refine ReadsOnly.bind (Safe.parse fun _ _ => rfl) fun job => ?_
      exact ReadsOnly.bind ih fun jobs => Safe.pure rfl

/-- `deadLettered` only reads. -/
theorem deadLettered_readsOnly : ReadsOnly (RedisJobQueue.deadLettered pydanticCodec) := by
  refine ReadsOnly.bind (fun ids => Safe.pure rfl) fun ids => ?_
  by_cases hempty : ids.isEmpty = true
  · rw [if_pos hempty]
    exact Safe.pure rfl
  · rw [if_neg hempty]
    exact ReadsOnly.bind (fun raws => Safe.pure rfl) fun raws => parseAll_readsOnly _

/-- A program whose answer is lost reads as much. -/
theorem forget_readsOnly {α : Type} {p : Prog JsonDoc α} (h : ReadsOnly p) :
    ReadsOnly p.forget :=
  ReadsOnly.bind h fun _ => Safe.pure rfl

/-! ## One round trip -/

/-- `set` writes the text of a job. -/
@[simp] theorem view_set_self (s : RedisServer JsonDoc) (id : JobId) (w : JsonDoc) :
    view (s.set id w) id = { view s id with raw := some w } := by
  simp [view, RedisServer.set]

/-- `set` leaves the view of the other jobs. -/
theorem view_set_other (s : RedisServer JsonDoc) {id j : JobId} (w : JsonDoc) (h : j ≠ id) :
    view (s.set id w) j = view s j := by
  simp [view, RedisServer.set, h]

/-- `setList` changes how often an id is in the list it sets, and in no other. -/
theorem count_setList (s : RedisServer JsonDoc) (key k : ListKey) (ids : List JobId)
    (j : JobId) :
    ((s.setList key ids).lists k).count j = if k = key then ids.count j else (s.lists k).count j := by
  by_cases hk : k = key
  · simp only [RedisServer.setList, if_pos hk]
  · simp only [RedisServer.setList, if_neg hk]

/-- `rpush` leaves the other jobs. -/
theorem view_rpush_other (s : RedisServer JsonDoc) (key : ListKey) {id j : JobId} (h : j ≠ id) :
    view (s.rpush key id) j = view s j := by
  have hcount : ∀ k, ((s.rpush key id).lists k).count j = (s.lists k).count j := by
    intro k
    rw [RedisServer.rpush, count_setList]
    split
    · rename_i hk
      have hnot : [id].count j = 0 := List.count_eq_zero.mpr (by simpa using h)
      rw [hk, List.count_append, hnot, Nat.add_zero]
    · rfl
  simp only [view, hcount]
  rfl

/-- `lrem` leaves the view of the other jobs. -/
theorem view_lrem_other (s : RedisServer JsonDoc) (key : ListKey) {id j : JobId} (h : j ≠ id) :
    view (s.lrem key id) j = view s j := by
  have hcount : ∀ k, ((s.lrem key id).lists k).count j = (s.lists k).count j := by
    intro k
    rw [RedisServer.lrem, count_setList]
    split
    · rename_i hk
      rw [hk, List.count_erase_of_ne h]
    · rfl
  simp only [view, hcount]
  rfl

/-- `lrem` takes an id out of the processing list once. -/
theorem view_lrem_self (s : RedisServer JsonDoc) (id : JobId) :
    view (s.lrem .processing id) id =
      { view s id with processing := (view s id).processing - 1 } := by
  simp [view, RedisServer.lrem, RedisServer.setList, List.count_erase_self]

/-- `passOps` leaves an owned id in the target list, or in none. -/
theorem view_pass {s : RedisServer JsonDoc} {id : JobId} {w : JsonDoc} (target : Option ListKey)
    (hpending : (view s id).pending = 0) (hprocessing : (view s id).processing = 1)
    (hdead : (view s id).dead = 0) (htarget : target ≠ some .processing) :
    view ((passOps id w target).foldl RedisServer.runOp s) id =
      { pending := if target = some .pending then 1 else 0
        processing := 0
        dead := if target = some .dead then 1 else 0
        raw := some w } := by
  have hbase : view ((s.set id w).lrem .processing id) id =
      { pending := 0, processing := 0, dead := 0, raw := some w } := by
    rw [view_lrem_self, view_set_self]
    simp only [hpending, hprocessing, hdead]
  cases target with
  | none => exact hbase
  | some key =>
    have hcounts : ∀ k, (((s.set id w).lrem .processing id).lists k).count id = 0 := by
      intro k
      cases k with
      | pending => exact congrArg View.pending hbase
      | processing => exact congrArg View.processing hbase
      | dead => exact congrArg View.dead hbase
    have hraw : ((s.set id w).lrem .processing id).jobs id = some w := congrArg View.raw hbase
    show view (((s.set id w).lrem .processing id).rpush key id) id = _
    generalize (s.set id w).lrem .processing id = s₁ at hcounts hraw
    have hpush : ∀ k, ((s₁.rpush key id).lists k).count id = if k = key then 1 else 0 := by
      intro k
      rw [RedisServer.rpush, count_setList, List.count_append, hcounts, List.count_singleton_self,
        hcounts]
    have hjobs : (s₁.rpush key id).jobs id = some w := hraw
    simp only [view, hpush, hjobs]
    cases key with
    | pending => rfl
    | processing => exact absurd rfl htarget
    | dead => rfl

/-- A pipeline of `passOps` leaves the view of the other jobs. -/
theorem view_pass_other (s : RedisServer JsonDoc) {id j : JobId} (w : JsonDoc)
    (target : Option ListKey) (h : j ≠ id) :
    view ((passOps id w target).foldl RedisServer.runOp s) j = view s j := by
  have hbase : view ((s.set id w).lrem .processing id) j = view s j := by
    rw [view_lrem_other _ _ h, view_set_other s w h]
  cases target with
  | none => exact hbase
  | some key =>
    show view (((s.set id w).lrem .processing id).rpush key id) j = _
    rw [view_rpush_other _ _ h, hbase]

section Exec

variable {s : RedisServer JsonDoc} {drawn enqueued : List JobId} {tok : Nat → Token}
  (h : Sound s drawn enqueued tok) {i : Nat}
include h

/-- `LMOVE` of the id at the front: it is now owned by who moved it. -/
theorem lmove_sound {id : JobId} {rest : List JobId}
    (hq : s.lists .pending = id :: rest) :
    ∃ job, job.id = id ∧ job.attempts < job.maxAttempts ∧
      Sound ((s.setList .pending rest).rpush .processing id) drawn enqueued
        (give tok i (.owns id job)) := by
  have hpos : 0 < (view s id).pending := by simp [view, hq]
  -- An id in a list is of an enqueued job
  have henq : id ∈ enqueued := by
    by_contra hno
    have htotal := ((h.record id).absent hno).1
    simp only [View.total] at htotal
    omega
  obtain ⟨hdrawn, job, hkept⟩ := (h.record id).kept henq
  have hplace := hkept.place
  simp only [View.total] at hplace
  have hfront : view ((s.setList .pending rest).rpush .processing id) id =
      { view s id with pending := (view s id).pending - 1
                       processing := (view s id).processing + 1 } := by
    simp [view, RedisServer.rpush, RedisServer.setList, hq, List.count_append]
  refine ⟨job, hkept.ident, hkept.ready hpos, h.local ?_ (fun _ _ => Iff.rfl) ?_ (.inr rfl) ?_ ?_⟩
  · intro j hj
    rw [view_rpush_other _ _ hj]
    have hcount : List.count j (id :: rest) = List.count j rest :=
      List.count_cons_of_ne (fun heq => hj heq.symm)
    simp [view, RedisServer.setList, hq, hcount]
  · -- Whoever had the id had it in the processing list, and it was in `pending`.
    intro j hj hid
    cases hjt : tok j with
    | none => rw [hjt] at hid; exact nomatch hid
    | fresh k =>
      have hold := h.holds j
      rw [hjt] at hid hold
      rw [Option.some.inj hid] at hold
      exact hold.2 henq
    | owns k job' =>
      have hown := (h.owned hjt).2.2.2.1
      rw [hjt] at hid
      rw [Option.some.inj hid] at hown
      omega
  -- The record goes along unchanged, so the budget still holds
  · rw [hfront]
    refine ⟨fun _ => ⟨hdrawn, job, ⟨hkept.read, hkept.ident, hkept.attempts, fun hp => ?_, ?_⟩⟩,
      fun hno => absurd henq hno⟩
    · exact hkept.ready (by have : 0 < (view s id).pending - 1 := hp; omega)
    · left
      simp only [View.total]
      omega
  · show 0 < (view _ id).processing ∧ (view _ id).job = some job
    rw [hfront]
    exact ⟨Nat.succ_pos _, hkept.read⟩

/-- `SET` of an owned job. -/
theorem set_sound {id : JobId} {job job' : Job} {w : JsonDoc} (htok : tok i = .owns id job)
    (hfits : Fits id w job') : Sound (s.set id w) drawn enqueued (give tok i (.owns id job')) := by
  obtain ⟨henq, hdrawn, hkept, hpending, hprocessing, hdead⟩ := h.owned htok
  have hread : (view (s.set id w) id).job = some job' := by
    rw [view_set_self]
    exact hfits.1
  refine h.local (fun j hj => view_set_other s w hj) (fun _ _ => Iff.rfl)
    (h.others (by rw [htok]; rfl)) (.inr rfl) ?_ ?_
  · refine ⟨fun _ => ⟨hdrawn, job', ⟨hread, hfits.2.1, hfits.2.2, ?_, ?_⟩⟩,
      fun hno => absurd henq hno⟩
    · rw [view_set_self]
      intro hp
      have : 0 < (view s id).pending := hp
      omega
    · rw [view_set_self]
      left
      simp only [View.total]
      omega
  · refine ⟨?_, hread⟩
    rw [view_set_self]
    show 0 < (view s id).processing
    omega

/-- `Sound` is kept by the pipeline that passes an owned job back. -/
theorem pass_sound {id : JobId} {job job' : Job} {w : JsonDoc} {target : Option ListKey}
    (htok : tok i = .owns id job) (hfits : Fits id w job')
    (htarget : target ≠ some .processing) (hnone : target = none → job'.status = .succeeded)
    (hpending : target = some .pending → job'.attempts < job'.maxAttempts) :
    Sound ((passOps id w target).foldl RedisServer.runOp s) drawn enqueued (give tok i .none) := by
  obtain ⟨henq, hdrawn, hkept, hp, hproc, hd⟩ := h.owned htok
  refine h.local (fun j hj => view_pass_other s w target hj) (fun _ _ => Iff.rfl)
    (h.others (by rw [htok]; rfl)) (.inl rfl) ?_ trivial
  rw [view_pass target hp hproc hd htarget]
  refine ⟨fun _ => ⟨hdrawn, job', ⟨hfits.1, hfits.2.1, hfits.2.2, ?_, ?_⟩⟩,
    fun hno => absurd henq hno⟩
  · intro hpos
    by_cases ht : target = some .pending
    · exact hpending ht
    · simp [ht] at hpos
  · cases target with
    | none => exact .inr ⟨rfl, hnone rfl⟩
    | some key =>
      cases key with
      | pending => exact .inl rfl
      | processing => exact absurd rfl htarget
      | dead => exact .inl rfl

/-- `Sound` is kept by the pipeline of `enqueue`, by the party that drew the id. -/
theorem enqueue_sound {id : JobId} {job : Job} {w : JsonDoc} (htok : tok i = .fresh id)
    (hfits : Fits id w job) (hready : job.attempts < job.maxAttempts) :
    Sound ((s.set id w).rpush .pending id) drawn (id :: enqueued) (give tok i .none) := by
  have hold := h.holds i
  rw [htok] at hold
  obtain ⟨htotal, -⟩ := (h.record id).absent hold.2
  have hself : view ((s.set id w).rpush .pending id) id =
      { pending := 1, processing := 0, dead := 0, raw := some w } := by
    have hset := view_set_self s id w
    simp only [View.total] at htotal
    simp only [view, RedisServer.rpush, RedisServer.setList, RedisServer.set] at htotal ⊢
    simp only [reduceCtorEq, if_true, if_false, List.count_append, List.count_singleton_self]
    congr 1 <;> omega
  refine h.local ?_ ?_ (h.others (by rw [htok]; rfl)) (.inl rfl) ?_ trivial
  · intro j hj
    rw [view_rpush_other _ _ hj, view_set_other s w hj]
  · intro j hj
    simp [hj]
  · rw [hself]
    exact ⟨fun _ => ⟨hold.1, job, ⟨hfits.1, hfits.2.1, hfits.2.2, fun _ => hready, .inl rfl⟩⟩,
      fun hno => absurd (by simp) hno⟩

/-- `Sound` is kept by one answered round trip of a program that is `Safe` with its party's
    token. -/
theorem exec_sound {α : Type} {Q : α → Token → Prop} {c : Cmd JsonDoc}
    {next : c.Reply → Prog JsonDoc α} (hsafe : Safe Q (tok i) (.trip c next)) :
    ∃ t, Sound (s.exec c).2 drawn enqueued (give tok i t) ∧ Safe Q t (next (s.exec c).1) := by
  cases c with
  | lmove src dst =>
    obtain ⟨-, rfl, rfl, hempty, hsome⟩ := hsafe
    show ∃ t, Sound (s.lmove .pending .processing).2 drawn enqueued (give tok i t) ∧
      Safe Q t (next (s.lmove .pending .processing).1)
    unfold RedisServer.lmove
    cases hq : s.lists .pending with
    | nil => exact ⟨.none, h.drop i, hempty⟩
    | cons id rest =>
      obtain ⟨job, hid, hlt, hsound⟩ := lmove_sound h hq (i := i)
      exact ⟨.owns id job, hsound, hsome id job hid hlt⟩
  | get id =>
    refine ⟨tok i, by rw [give_eq]; exact h, hsafe (s.jobs id) fun job htok => ?_⟩
    have hold := h.holds i
    rw [htok] at hold
    exact hold.2
  | set id w =>
    obtain ⟨job, job', htok, hfits, hnext⟩ := hsafe
    exact ⟨.owns id job', set_sound h htok hfits, hnext⟩
  | llen key => exact ⟨tok i, by rw [give_eq]; exact h, hsafe _⟩
  | lrange key => exact ⟨tok i, by rw [give_eq]; exact h, hsafe _⟩
  | mget ids => exact ⟨tok i, by rw [give_eq]; exact h, hsafe _⟩
  | execute ops =>
    obtain ⟨id, job, w, job', target, htok, rfl, hfits, htarget, hnone, hpending, hnext⟩ := hsafe
    exact ⟨.none, pass_sound h htok hfits htarget hnone hpending, hnext⟩

/-- `Sound` is kept when an id is drawn that nobody has drawn. -/
theorem draw_sound {id : JobId} (hnew : id ∉ drawn) :
    Sound s (id :: drawn) enqueued (give tok i (.fresh id)) where
  record j := by
    obtain ⟨hkept, habsent⟩ := h.record j
    exact ⟨fun hm => ⟨List.mem_cons_of_mem _ (hkept hm).1, (hkept hm).2⟩, habsent⟩
  holds j := by
    by_cases hj : j = i
    · rw [hj, give_same]
      exact ⟨by simp, fun hm => hnew ((h.record id).kept hm).1⟩
    · rw [give_other tok _ hj]
      have hold := h.holds j
      cases htok : tok j with
      | none => trivial
      | fresh k =>
        rw [htok] at hold
        exact ⟨List.mem_cons_of_mem _ hold.1, hold.2⟩
      | owns k job =>
        rw [htok] at hold
        exact hold
  distinct j k l hj hk := by
    -- Every id in hand was drawn before
    have hdrawn : ∀ m, m ≠ i → (give tok i (.fresh id) m).id = some l → l ∈ drawn := by
      intro m hm hml
      rw [give_other tok _ hm] at hml
      have hold := h.holds m
      cases htok : tok m with
      | none => rw [htok] at hml; exact nomatch hml
      | fresh n =>
        rw [htok] at hml hold
        exact Option.some.inj hml ▸ hold.1
      | owns n job =>
        have hown := (h.owned htok).2.1
        rw [htok] at hml
        exact Option.some.inj hml ▸ hown
    have hself : (give tok i (.fresh id) i).id = some l → l ∉ drawn := by
      intro hl
      rw [give_same] at hl
      exact Option.some.inj hl ▸ hnew
    by_cases hji : j = i
    · by_cases hki : k = i
      · rw [hji, hki]
      · exact absurd (hdrawn k hki hk) (hself (hji ▸ hj))
    · by_cases hki : k = i
      · exact absurd (hdrawn j hji hj) (hself (hki ▸ hk))
      · rw [give_other tok _ hji] at hj
        rw [give_other tok _ hki] at hk
        exact h.distinct j k l hj hk

end Exec

/-! ## The parties -/

/-- A party that keeps to what its token allows. An enqueue is one pipeline. -/
def PartySafe (t : Token) : Party → Prop
  | .idle => True
  | .enqueuing id p =>
    (∃ job w stored, t = .fresh id ∧ Fits id w stored ∧ stored.attempts < stored.maxAttempts ∧
      p = .trip (.execute [.set id w, .rpush .pending id]) fun _ => .done (.ok job)) ∨
    ∃ result, p = .done result
  | .dequeuing p => Safe Taken t p
  | .holding job => ∃ stored, t = .owns job.id stored ∧ stored.id = job.id
  | .settling p => Safe (fun _ _ => True) t p
  | .reading p => Safe (fun _ t => t = .none) t p

/-- The invariant of a fleet: for some tokens, everybody keeps to theirs. -/
def Inv (f : Fleet) : Prop :=
  ∃ tok, Sound f.server f.drawn f.enqueued tok ∧ ∀ i, PartySafe (tok i) (f.party i)

/-- A step of party `i` keeps the invariant when its new token is sound and its new
    business is safe with it. -/
theorem inv_become {f f' : Fleet} {tok : Nat → Token} {i : Nat} {t : Token} {p : Party}
    (hparty : ∀ j, PartySafe (tok j) (f.party j)) (hp : PartySafe t p)
    (hsound : Sound f'.server f'.drawn f'.enqueued (give tok i t))
    (hf' : f'.party = (f.become i p).party) : Inv f' := by
  refine ⟨give tok i t, hsound, fun j => ?_⟩
  rw [hf']
  show PartySafe (give tok i t j) (if j = i then p else f.party j)
  unfold give
  split
  · exact hp
  · exact hparty j

/-- `Inv` holds at first. -/
theorem inv_init : Inv fleet.init := by
  refine ⟨fun _ => .none, ⟨fun id => ⟨?_, ?_⟩, fun _ => trivial, ?_⟩, fun _ => trivial⟩
  · exact fun h => nomatch h
  · exact fun _ => ⟨rfl, rfl⟩
  · exact fun _ _ _ h => nomatch h

/-- `enqueue` is safe for the party that drew its id. -/
theorem enqueue_safe (id : JobId) (name : PyStr) (payload : PyValue) (maxAttempts : Int) :
    PartySafe (.fresh id)
      (.enqueuing id (RedisJobQueue.enqueue pydanticCodec id name payload maxAttempts)) := by
  unfold RedisJobQueue.enqueue Prog.lift
  cases hjob : buildJob id name payload maxAttempts with
  | error e => exact .inr ⟨_, rfl⟩
  | ok job =>
    obtain ⟨hid, -, hattempts, -⟩ := buildJob_ok hjob
    have hbudget := job.budget
    show PartySafe _ (.enqueuing id (RedisJobQueue.modelDumpJson pydanticCodec job >>= fun raw =>
      Redis.execute [.set job.id raw, .rpush .pending job.id] >>= fun _ => pure job))
    unfold RedisJobQueue.modelDumpJson Prog.lift
    cases hdoc : pydanticCodec.encode job with
    | error e => exact .inr ⟨_, rfl⟩
    | ok w =>
      obtain ⟨d, payload', -, -, hdec⟩ := pydanticCodec_decode hdoc
      refine .inl ⟨job, w, { job with payload := payload' }, rfl, ⟨hdec, hid, ?_⟩, ?_, ?_⟩
      · show job.attempts ≤ job.maxAttempts
        omega
      · show job.attempts < job.maxAttempts
        omega
      · rw [← hid]; rfl

section Steps

variable {f f' : Fleet} {tok : Nat → Token}
  (hsound : Sound f.server f.drawn f.enqueued tok)
  (hparty : ∀ i, PartySafe (tok i) (f.party i)) {i : Nat}
include hsound hparty

/-- `Inv` is kept when a call starts without a token. -/
theorem inv_start {p : Party} (hp : PartySafe .none p) (hstep : f.start i p = some f') :
    Inv f' := by
  unfold Fleet.start at hstep
  split at hstep
  · simp only [Option.some.injEq] at hstep
    subst hstep
    exact inv_become hparty hp (hsound.drop i) rfl
  · exact nomatch hstep

/-- `Inv` is kept when a worker begins its pass. -/
theorem inv_pass {how : Job → Settlement} (hstep : f.pass i how = some f') : Inv f' := by
  unfold Fleet.pass at hstep
  split at hstep
  · rename_i job hholds
    simp only [Option.some.injEq] at hstep
    subst hstep
    have hp := hparty i
    rw [hholds] at hp
    obtain ⟨stored, htok, hid⟩ := hp
    obtain ⟨-, -, hkept, -⟩ := hsound.owned htok
    have hsafe := tell_safe hid hkept.attempts (how job)
    refine inv_become (t := tok i) hparty (p := .settling _) (by rw [htok]; exact hsafe) ?_ rfl
    rw [give_eq]
    exact hsound
  · exact nomatch hstep

/-- `Inv` is kept by one round trip of a safe program, whatever becomes of it. -/
theorem advance_inv {α : Type} {Q : α → Token → Prop} {p p' : Prog JsonDoc α}
    {s' : RedisServer JsonDoc} {delivery : Delivery} (wrap : Prog JsonDoc α → Party)
    (hwrap : ∀ t p, Safe Q t p → PartySafe t (wrap p)) (hsafe : Safe Q (tok i) p)
    (hadv : p.advance f.server delivery = some (p', s')) :
    Inv { f.become i (wrap p') with server := s' } := by
  cases p with
  | done result => exact nomatch hadv
  | trip c next =>
    cases delivery with
    | answered =>
      simp only [Prog.advance, Option.some.injEq, Prod.mk.injEq] at hadv
      obtain ⟨rfl, rfl⟩ := hadv
      obtain ⟨t, hnext, hsafe'⟩ := exec_sound hsound hsafe
      exact inv_become hparty (hwrap t _ hsafe') hnext rfl
    | replyLost =>
      -- The server has run the command, but the call ends here: its token is dropped.
      simp only [Prog.advance, Option.some.injEq, Prod.mk.injEq] at hadv
      obtain ⟨rfl, rfl⟩ := hadv
      obtain ⟨t, hnext, -⟩ := exec_sound hsound hsafe
      refine inv_become hparty (hwrap .none (.raise queueUnavailable) trivial) ?_ rfl
      have hdrop := hnext.drop i
      rw [give_give] at hdrop
      exact hdrop
    | requestLost =>
      simp only [Prog.advance, Option.some.injEq, Prod.mk.injEq] at hadv
      obtain ⟨rfl, rfl⟩ := hadv
      exact inv_become hparty (hwrap .none (.raise queueUnavailable) trivial) (hsound.drop i) rfl

/-- `Inv` is kept by the round trip of `enqueue`, whatever becomes of it. -/
theorem enqueue_trip_inv {id : JobId} {p p' : Prog JsonDoc Job} {s' : RedisServer JsonDoc}
    {delivery : Delivery} (hsafe : PartySafe (tok i) (.enqueuing id p))
    (hadv : p.advance f.server delivery = some (p', s')) :
    Inv { f.become i (.enqueuing id p') with
      server := s'
      enqueued := if delivery = .requestLost then f.enqueued else id :: f.enqueued } := by
  cases hsafe with
  | inr hdone =>
    obtain ⟨result, rfl⟩ := hdone
    exact nomatch hadv
  | inl htrip =>
    obtain ⟨job, w, stored, htok, hfits, hready, rfl⟩ := htrip
    have hran := enqueue_sound hsound htok hfits hready
    cases delivery with
    | answered =>
      simp only [Prog.advance, Option.some.injEq, Prod.mk.injEq] at hadv
      obtain ⟨rfl, rfl⟩ := hadv
      exact inv_become hparty (t := .none) (p := .enqueuing id _) (.inr ⟨_, rfl⟩) hran rfl
    | replyLost =>
      simp only [Prog.advance, Option.some.injEq, Prod.mk.injEq] at hadv
      obtain ⟨rfl, rfl⟩ := hadv
      exact inv_become hparty (t := .none) (p := .enqueuing id _) (.inr ⟨_, rfl⟩) hran rfl
    | requestLost =>
      simp only [Prog.advance, Option.some.injEq, Prod.mk.injEq] at hadv
      obtain ⟨rfl, rfl⟩ := hadv
      exact inv_become hparty (t := .none) (p := .enqueuing id _) (.inr ⟨_, rfl⟩)
        (hsound.drop i) rfl

/-- `Inv` is kept by every round trip, also where the reply is lost. -/
theorem inv_trip {delivery : Delivery} (hstep : f.trip i delivery = some f') : Inv f' := by
  have hp := hparty i
  unfold Fleet.trip at hstep
  split at hstep
  · rename_i id p hi
    rw [hi] at hp
    obtain ⟨⟨p', s'⟩, hadv, rfl⟩ := Option.map_eq_some_iff.mp hstep
    exact enqueue_trip_inv hsound hparty hp hadv
  · rename_i p hi
    rw [hi] at hp
    obtain ⟨⟨p', s'⟩, hadv, rfl⟩ := Option.map_eq_some_iff.mp hstep
    exact advance_inv hsound hparty .dequeuing (fun _ _ h => h) hp hadv
  · rename_i p hi
    rw [hi] at hp
    obtain ⟨⟨p', s'⟩, hadv, rfl⟩ := Option.map_eq_some_iff.mp hstep
    exact advance_inv hsound hparty .settling (fun _ _ h => h) hp hadv
  · rename_i p hi
    rw [hi] at hp
    obtain ⟨⟨p', s'⟩, hadv, rfl⟩ := Option.map_eq_some_iff.mp hstep
    exact advance_inv hsound hparty .reading (fun _ _ h => h) hp hadv
  · exact nomatch hstep
  · exact nomatch hstep

/-- `Inv` is kept when a program returns. -/
theorem inv_returns (hstep : f.returns i = some f') : Inv f' := by
  have hp := hparty i
  unfold Fleet.returns at hstep
  split at hstep
  case h_2 job hi =>
    -- Only a dequeued job keeps its token.
    rw [hi] at hp
    simp only [Option.some.injEq] at hstep
    subst hstep
    obtain ⟨stored, htok, hid⟩ := hp job rfl
    refine inv_become (t := tok i) hparty (p := .holding job) ⟨stored, htok, hid⟩ ?_ rfl
    rw [give_eq]
    exact hsound
  case h_6 => exact nomatch hstep
  all_goals
    simp only [Option.some.injEq] at hstep
    subst hstep
    exact inv_become hparty (p := .idle) trivial (hsound.drop i) rfl

end Steps

/-- Every step keeps the invariant. -/
theorem inv_step {f f' : Fleet} {a : Action} (h : Inv f) (hstep : fleet.step f a = some f') :
    Inv f' := by
  obtain ⟨tok, hsound, hparty⟩ := h
  change f.step a = some f' at hstep
  cases a with
  | enqueue i newId name payload maxAttempts =>
    simp only [Fleet.step] at hstep
    split at hstep
    · exact nomatch hstep
    · rename_i hnew
      obtain ⟨f₁, hstart, rfl⟩ := Option.map_eq_some_iff.mp hstep
      unfold Fleet.start at hstart
      split at hstart
      · simp only [Option.some.injEq] at hstart
        subst hstart
        exact inv_become hparty (enqueue_safe newId name payload maxAttempts)
          (draw_sound hsound hnew) rfl
      · exact nomatch hstart
  -- Each call keeps the invariant at every round trip of its own
  | dequeue i =>
    exact inv_start hsound hparty (p := .dequeuing (RedisJobQueue.dequeue pydanticCodec))
      dequeue_safe hstep
  | get i jobId =>
    exact inv_start hsound hparty (p := .reading _) (forget_readsOnly (get_readsOnly jobId)) hstep
  | depth i =>
    exact inv_start hsound hparty (p := .reading _)
      (forget_readsOnly depth_readsOnly) hstep
  | deadLettered i =>
    exact inv_start hsound hparty (p := .reading _) (forget_readsOnly deadLettered_readsOnly) hstep
  | settle i how => exact inv_pass hsound hparty hstep
  | work i w => exact inv_pass hsound hparty hstep
  | trip i delivery => exact inv_trip hsound hparty hstep
  | returns i => exact inv_returns hsound hparty hstep
  -- A crash lets go of what the party had in hand, which stays in its list
  | crash i =>
    simp only [Fleet.step, Option.some.injEq] at hstep
    subst hstep
    exact inv_become hparty (p := .idle) trivial (hsound.drop i) rfl

/-- `Inv` holds in every reachable state of the fleet. -/
theorem inv_reachable {f : Fleet} (h : fleet.Reachable f) : Inv f :=
  Machine.ReachableVia.invariant inv_init (fun _ _ _ hi _ hstep => inv_step hi hstep) h

/-! ## Conservation -/

/-- How often an id occurs in the three lists together. -/
def occurrences (s : RedisServer JsonDoc) (id : JobId) : Nat :=
  (s.lists .pending ++ s.lists .processing ++ s.lists .dead).count id

/-- The job stored behind an id. -/
def storedJob (s : RedisServer JsonDoc) (id : JobId) : Option Job :=
  (s.jobs id).bind pydanticCodec.decode

/-- A job occurs as often as its view says. -/
private theorem occurrences_eq_total (s : RedisServer JsonDoc) (id : JobId) :
    occurrences s id = (view s id).total := by
  simp only [occurrences, List.count_append, view, View.total]

/-- In every state of every interleaving, an id whose enqueue has run is in exactly one
    list, once, or in none and its job has succeeded; no id is dead twice; and no job
    has more attempts than its budget. -/
theorem redis_conserves (f : Fleet) (h : fleet.Reachable f) :
    (∀ id ∈ f.enqueued, occurrences f.server id = 1 ∨
      occurrences f.server id = 0 ∧
        ∃ job, storedJob f.server id = some job ∧ job.status = .succeeded) ∧
    (f.server.lists .dead).Nodup ∧
    ∀ id job, storedJob f.server id = some job → job.attempts ≤ job.maxAttempts := by
  obtain ⟨tok, hsound, -⟩ := inv_reachable h
  refine ⟨fun id hid => ?_, ?_, fun id job hjob => ?_⟩
  · obtain ⟨-, job, hkept⟩ := (hsound.record id).kept hid
    rw [occurrences_eq_total]
    exact hkept.place.imp (fun h => h) fun ⟨htotal, hstatus⟩ => ⟨htotal, job, hkept.read, hstatus⟩
  · rw [List.nodup_iff_count_le_one]
    intro id
    have hdead : (f.server.lists .dead).count id ≤ (view f.server id).total := by
      simp only [view, View.total]
      omega
    by_cases hid : id ∈ f.enqueued
    · obtain ⟨-, job, hkept⟩ := (hsound.record id).kept hid
      have hplace := hkept.place
      omega
    · have htotal := ((hsound.record id).absent hid).1
      omega
  · by_cases hid : id ∈ f.enqueued
    · obtain ⟨-, job', hkept⟩ := (hsound.record id).kept hid
      have hread : (view f.server id).job = some job := hjob
      rw [hkept.read] at hread
      exact Option.some.inj hread ▸ hkept.attempts
    · have hraw : f.server.jobs id = none := ((hsound.record id).absent hid).2
      rw [storedJob, hraw] at hjob
      exact nomatch hjob

/-- The id of the example can be encoded. -/
private theorem lostId_wellFormed : wellFormed (.ofString "5f1c") = true := by decide

private def lostId : JobId := ⟨.ofString "5f1c", lostId_wellFormed⟩

/-- A job is enqueued and taken, and the worker's reply to the `LMOVE` is lost: the id
    stays in the processing list. -/
private def lostReply : List Action :=
  [.enqueue 0 lostId (.ofString "ingest_document") .none 3, .trip 0 .answered, .returns 0,
    .dequeue 1, .trip 1 .replyLost, .returns 1]

/-- The reply to `LMOVE` is lost, and the job stays on `processing`. -/
private theorem lostReply_runs : ∃ f, fleet.run lostReply = some f ∧ lostId ∈ f.enqueued ∧
    f.server.lists .processing = [lostId] := by
  refine ⟨_, rfl, ?_, rfl⟩
  decide

/-- A run in which a reply is lost conserves its job. -/
theorem redis_conserves_lost_reply :
    ∃ f, fleet.run lostReply = some f ∧ lostId ∈ f.enqueued ∧
      (occurrences f.server lostId = 1 ∨ occurrences f.server lostId = 0 ∧
        ∃ job, storedJob f.server lostId = some job ∧ job.status = .succeeded) := by
  obtain ⟨f, hrun, hid, -⟩ := lostReply_runs
  exact ⟨f, hrun, hid, (redis_conserves f (Machine.reachable_of_run lostReply hrun)).1 lostId hid⟩

end NexaAssist.Spec.RedisConservation
