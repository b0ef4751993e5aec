import Mathlib.Data.List.Nodup
import NexaAssist.Jobs.Workshop

/-!
# Every job is in one place

`InPlace` says where a job is by its status: waiting once, held by one worker, dead once,
or done and nowhere. Every step moves one job and leaves the places of the others as they
are, so this holds in every state reached, and with it that a handler is run no more often
than the budget allows and that a job that is over stays as it is.
-/

namespace NexaAssist.Spec.WorkshopConservation

open NexaAssist PyJson Jobs

/-! ## Where a job is -/

/-- Who holds a job. -/
def holders (s : Workshop) (id : JobId) : List (Nat × Job) := s.held.filter (·.2.id = id)

/-- Where the job of an id has to be, and how often its handler can have been run. -/
def InPlace (s : Workshop) (id : JobId) : Prop :=
  match s.queue.jobs id with
  | none => s.queue.pending.count id = 0 ∧ holders s id = [] ∧ s.queue.dead.count id = 0 ∧
      s.handled id = 0
  | some job => job.id = id ∧ s.handled id ≤ job.attempts ∧ job.attempts ≤ job.maxAttempts ∧
      match job.status with
      | .pending => s.queue.pending.count id = 1 ∧ holders s id = [] ∧
          s.queue.dead.count id = 0 ∧ job.attempts < job.maxAttempts
      | .running => s.queue.pending.count id = 0 ∧ (∃ i, holders s id = [(i, job)]) ∧
          s.queue.dead.count id = 0
      | .succeeded => s.queue.pending.count id = 0 ∧ holders s id = [] ∧
          s.queue.dead.count id = 0
      | .failed => s.queue.pending.count id = 0 ∧ holders s id = [] ∧
          s.queue.dead.count id = 1

/-- Every job is in its place, and no worker holds two. -/
structure Conserved (s : Workshop) : Prop where
  inPlace : ∀ id, InPlace s id
  workers : (s.held.map Prod.fst).Nodup

section InPlace

variable {s s' : Workshop} {id : JobId} {job : Job}

/-- `InPlace` depends on what the workshop has of the one job alone. -/
theorem InPlace.congr (h : InPlace s id) (hjobs : s'.queue.jobs id = s.queue.jobs id)
    (hpending : s'.queue.pending.count id = s.queue.pending.count id)
    (hheld : holders s' id = holders s id)
    (hdead : s'.queue.dead.count id = s.queue.dead.count id)
    (hhandled : s'.handled id = s.handled id) : InPlace s' id := by
  unfold InPlace at h ⊢
  rw [hjobs, hpending, hheld, hdead, hhandled]
  exact h

/-- A job that waits is pending, has attempts left, and is in no other place. -/
theorem InPlace.of_pending (h : InPlace s id) (hmem : id ∈ s.queue.pending) :
    ∃ job, s.queue.jobs id = some job ∧ job.id = id ∧ job.status = .pending ∧
      s.handled id ≤ job.attempts ∧ job.attempts < job.maxAttempts ∧
      s.queue.pending.count id = 1 ∧ holders s id = [] ∧ s.queue.dead.count id = 0 := by
  have hpos : 0 < s.queue.pending.count id := List.count_pos_iff.2 hmem
  unfold InPlace at h
  split at h
  · omega
  · next job hjob =>
    obtain ⟨hid, hhandled, -, h⟩ := h
    cases hs : job.status with
    | pending =>
      simp only [hs] at h
      exact ⟨job, hjob, hid, hs, hhandled, h.2.2.2, h.1, h.2.1, h.2.2.1⟩
    | running => simp only [hs] at h; omega
    | succeeded => simp only [hs] at h; omega
    | failed => simp only [hs] at h; omega

/-- A job that a worker holds is running, is the stored one, and is in no other place. -/
theorem InPlace.of_held {i : Nat} (h : InPlace s job.id) (hmem : (i, job) ∈ s.held) :
    s.queue.jobs job.id = some job ∧ job.status = .running ∧
      s.handled job.id ≤ job.attempts ∧ job.attempts ≤ job.maxAttempts ∧
      s.queue.pending.count job.id = 0 ∧ holders s job.id = [(i, job)] ∧
      s.queue.dead.count job.id = 0 := by
  have hmem' : (i, job) ∈ holders s job.id := List.mem_filter.2 ⟨hmem, by simp⟩
  unfold InPlace at h
  split at h
  · simp [h.2.1] at hmem'
  · next stored hjob =>
    obtain ⟨-, hhandled, hattempts, h⟩ := h
    cases hs : stored.status with
    | running =>
      simp only [hs] at h
      obtain ⟨hp, ⟨j, hh⟩, hd⟩ := h
      rw [hh, List.mem_singleton, Prod.mk.injEq] at hmem'
      obtain ⟨rfl, rfl⟩ := hmem'
      exact ⟨hjob, hs, hhandled, hattempts, hp, hh, hd⟩
    | pending => simp only [hs] at h; simp [h.2.1] at hmem'
    | succeeded => simp only [hs] at h; simp [h.2.1] at hmem'
    | failed => simp only [hs] at h; simp [h.2.1] at hmem'

end InPlace

/-! ## What a step does -/

section Step

variable {workers : Nat → JobWorker} {s s' : Workshop} {e : WorkshopEvent}

/-- A step lets a new job in, hands one to a worker, or takes one back. -/
inductive Moves (s : Workshop) : Workshop → Prop
  | nothing : Moves s s
  | enqueued (job : Job) : s.queue.jobs job.id = none → job.status = .pending →
      job.attempts = 0 →
      Moves s { s with queue := {
        s.queue.store job.id job with pending := s.queue.pending ++ [job.id] } }
  | taken (i : Nat) (id : JobId) (job : Job) (rest : List JobId) (handled : Nat) :
      i ∉ s.held.map Prod.fst → s.queue.pending = id :: rest → s.queue.jobs id = some job →
      handled ≤ s.handled id + 1 →
      Moves s {
        queue := { s.queue.store id job.running with pending := rest }
        held := s.held ++ [(i, job.running)]
        handled := fun j => if j = id then handled else s.handled j }
  | settled (i : Nat) (job after : Job) (pending dead : List JobId) :
      (i, job) ∈ s.held → after.id = job.id → after.attempts = job.attempts →
      after.maxAttempts = job.maxAttempts →
      (after.status = .succeeded ∧ pending = s.queue.pending ∧ dead = s.queue.dead ∨
        after.status = .failed ∧ pending = s.queue.pending ∧ dead = s.queue.dead ++ [job.id] ∨
        after.status = .pending ∧ pending = s.queue.pending ++ [job.id] ∧
          dead = s.queue.dead ∧ job.attempts < job.maxAttempts) →
      Moves s { s with
        queue := { s.queue.store job.id after with pending, dead }
        held := s.held.filter (·.1 ≠ i) }

/-- Every step from a conserved state is one of the moves. -/
theorem Conserved.step_moves (h : Conserved s) (hstep : s.step workers e = some s') :
    Moves s s' := by
  cases e with
  -- An invalid job is refused, and a valid one is pending once
  | enqueue newId name payload maxAttempts =>
    simp only [Workshop.step] at hstep
    split at hstep
    · exact nomatch hstep
    · next hnew =>
      simp only [Option.some.injEq] at hstep
      subst hstep
      simp only [InMemoryJobQueue.enqueue]
      split
      · exact .nothing
      · next job hbuild =>
        obtain ⟨hid, hstatus, hattempts, -⟩ := buildJob_ok hbuild
        exact .enqueued job (by simpa [hid] using hnew) hstatus hattempts
  -- The head of `pending` is handed to a worker that holds nothing
  | take i =>
    simp only [Workshop.step, InMemoryJobQueue.dequeue] at hstep
    split at hstep
    · exact nomatch hstep
    · next hfree =>
      cases hp : s.queue.pending with
      | nil =>
        simp only [hp, InMemoryJobQueue.takeNext, Option.some.injEq] at hstep
        subst hstep
        rw [← hp]
        exact .nothing
      | cons id rest =>
        obtain ⟨job, hjob, hid, -⟩ := (h.inPlace id).of_pending (by simp [hp])
        simp only [hp, InMemoryJobQueue.takeNext, hjob, Option.some.injEq] at hstep
        subst hstep
        have hfree' : i ∉ s.held.map Prod.fst := by simpa using hfree
        refine (?_ : Workshop.mk _ _ _ = _) ▸ Moves.taken i id job rest
          (if (workers i).runs job.running then s.handled id + 1 else s.handled id)
          hfree' hp hjob (by split <;> omega)
        simp only [Workshop.mk.injEq, true_and]
        funext j
        by_cases hj : j = id <;> simp [hj, hid]
  -- The worker that holds the job gives it back, done or not
  | settle i outcome =>
    simp only [Workshop.step] at hstep
    split at hstep
    · exact nomatch hstep
    · next j job hfind =>
      simp only [Option.some.injEq] at hstep
      subst hstep
      obtain rfl : j = i := by simpa using List.find?_some hfind
      have hmem := List.mem_of_find?_eq_some hfind
      obtain ⟨hjob, -, -, hattempts, -⟩ := (h.inPlace job.id).of_held hmem
      cases (workers j).attempt outcome job with
      | complete =>
        simp only [Settlement.tellMemory, InMemoryJobQueue.complete, InMemoryJobQueue.stored,
          hjob]
        exact .settled j job job.succeeded _ _ hmem rfl rfl rfl (.inl ⟨rfl, rfl, rfl⟩)
      | fail error retryable =>
        simp only [Settlement.tellMemory, InMemoryJobQueue.fail, InMemoryJobQueue.stored, hjob]
        split
        · exact .settled j job (job.dead error) _ _ hmem rfl rfl rfl
            (.inr (.inl ⟨rfl, rfl, rfl⟩))
        · next hretry =>
          have hlt : job.attempts < job.maxAttempts := by
            simp only [Job.exhausted, Bool.or_eq_true, not_or] at hretry
            simpa using hretry.1
          exact .settled j job (job.retry error) _ _ hmem rfl rfl rfl
            (.inr (.inr ⟨rfl, rfl, rfl, hlt⟩))

/-- A job that is taken has one holder more. -/
theorem holders_taken {i : Nat} {job : Job} {id : JobId} (hid : job.id = id) (j : JobId)
    (queue : InMemoryJobQueue) (handled : JobId → Nat) :
    holders { queue, held := s.held ++ [(i, job.running)], handled } j =
      if j = id then holders s j ++ [(i, job.running)] else holders s j := by
  by_cases hj : j = id
  · simp [holders, hj, hid]
  · have hne : id ≠ j := Ne.symm hj
    simp [holders, hj, hid, hne]

/-- A job that is passed back has its holder no more. -/
theorem holders_settled {i : Nat} {job : Job} (h : (s.held.map Prod.fst).Nodup)
    (hmem : (i, job) ∈ s.held) (queue : InMemoryJobQueue) (j : JobId) :
    holders { s with queue, held := s.held.filter (·.1 ≠ i) } j =
      if j = job.id then (holders s j).filter (·.1 ≠ i) else holders s j := by
  simp only [holders, List.filter_filter]
  by_cases hj : j = job.id
  · simp only [hj, if_true]
    exact List.filter_congr fun _ _ => Bool.and_comm _ _
  · rw [if_neg hj]
    refine List.filter_congr fun entry hentry => ?_
    by_cases hi : entry.1 = i
    · have heq : entry = (i, job) := List.inj_on_of_nodup_map h hentry hmem hi
      simp [heq, Ne.symm hj]
    · simp [hi]

/-- `Conserved` is kept by every move. -/
theorem Conserved.moves (h : Conserved s) (hmoves : Moves s s') : Conserved s' := by
  cases hmoves with
  | nothing => exact h
  | enqueued job hnew hstatus hattempts =>
    refine { inPlace := fun id => ?_, workers := h.workers }
    by_cases hid : id = job.id
    · subst hid
      have hplace := h.inPlace job.id
      simp only [InPlace, hnew] at hplace
      obtain ⟨hp, hh, hd, hhandled⟩ := hplace
      have hbudget := job.budget
      simp only [InPlace, InMemoryJobQueue.store, if_true, hstatus, hattempts]
      refine ⟨trivial, hhandled.le, Nat.zero_le _, ?_, hh, hd, by omega⟩
      rw [List.count_append, hp, List.count_singleton_self]
    -- Every other job stays where it was
    · refine (h.inPlace id).congr ?_ ?_ rfl rfl rfl
      · simp [InMemoryJobQueue.store, hid]
      · simp [List.count_append, Ne.symm hid]
  | taken i id job rest handled hfree hp hjob hhandled =>
    obtain ⟨job', hjob', hid, hstatus, hle, hlt, hcount, hheld, hdead⟩ :=
      (h.inPlace id).of_pending (by simp [hp])
    obtain rfl : job = job' := Option.some.inj (hjob.symm.trans hjob')
    refine { inPlace := fun j => ?_, workers := ?_ }
    · by_cases hj : j = id
      · subst hj
        rw [hp, List.count_cons_self, Nat.add_eq_right] at hcount
        simp only [InPlace, InMemoryJobQueue.store, if_true]
        have hnow := holders_taken (s := s) (i := i) hid j
          { s.queue.store j job.running with pending := rest }
          (fun k => if k = j then handled else s.handled k)
        rw [if_pos rfl, hheld, List.nil_append] at hnow
        have hattempts : job.running.attempts = job.attempts + 1 := rfl
        exact ⟨hid, by omega, by show job.attempts + 1 ≤ job.maxAttempts; omega, hcount,
          ⟨i, hnow⟩, hdead⟩
      · refine (h.inPlace j).congr ?_ ?_ ?_ rfl ?_
        · simp [InMemoryJobQueue.store, hj]
        · rw [hp, List.count_cons_of_ne (Ne.symm hj)]
        · exact (holders_taken hid j _ _).trans (if_neg hj)
        · simp [hj]
    -- The worker was free
    · rw [List.map_append, List.nodup_append]
      refine ⟨h.workers, by simp, ?_⟩
      intro j hj k hk
      rw [List.map_cons, List.map_nil, List.mem_singleton] at hk
      intro heq
      exact hfree (by simpa [heq, hk] using hj)
  | settled i job after pending dead hmem hid hattempts hmax hcases =>
    obtain ⟨hjob, hstatus, hhandled, hle, hcount, hheld, hdead⟩ :=
      (h.inPlace job.id).of_held hmem
    refine { inPlace := fun j => ?_, workers := h.workers.sublist (List.filter_sublist.map _) }
    by_cases hj : j = job.id
    · subst hj
      have hnobody : holders (({ s with
          queue := { s.queue.store job.id after with pending, dead }
          held := s.held.filter (·.1 ≠ i) } : Workshop)) job.id = [] :=
        (holders_settled h.workers hmem _ _).trans (by simp [hheld])
      simp only [InPlace, InMemoryJobQueue.store, if_true, hid, hattempts, hmax]
      refine ⟨trivial, hhandled, hle, ?_⟩
      -- Where it goes is what its status says
      rcases hcases with ⟨hs, rfl, rfl⟩ | ⟨hs, rfl, rfl⟩ | ⟨hs, rfl, rfl, hlt⟩
      · simpa only [hs] using ⟨hcount, hnobody, hdead⟩
      · simp only [hs]
        exact ⟨hcount, hnobody, by simp [hdead]⟩
      · simp only [hs]
        exact ⟨by simp [hcount], hnobody, hdead, hlt⟩
    · refine (h.inPlace j).congr ?_ ?_ ?_ ?_ rfl
      · simp [InMemoryJobQueue.store, hj]
      · rcases hcases with ⟨-, rfl, -⟩ | ⟨-, rfl, -⟩ | ⟨-, rfl, -⟩
        · rfl
        · rfl
        · simp [List.count_append, Ne.symm hj]
      · exact (holders_settled h.workers hmem _ _).trans (if_neg hj)
      · rcases hcases with ⟨-, -, rfl⟩ | ⟨-, -, rfl⟩ | ⟨-, -, rfl, -⟩
        · rfl
        · simp [List.count_append, Ne.symm hj]
        · rfl

/-- A job that has succeeded or failed is kept by every move. -/
theorem Conserved.over_kept (h : Conserved s) (hmoves : Moves s s') {id : JobId} {job : Job}
    (hjob : s.queue.jobs id = some job) (hover : job.status = .succeeded ∨ job.status = .failed) :
    s'.queue.jobs id = some job := by
  cases hmoves with
  | nothing => exact hjob
  | enqueued new hnew =>
    have hne : id ≠ new.id := by
      rintro rfl
      simp [hnew] at hjob
    simpa [InMemoryJobQueue.store, hne] using hjob
  | taken i id' job' rest handled hfree hp hjob' =>
    have hne : id ≠ id' := by
      rintro rfl
      obtain ⟨job'', hjob'', -, hstatus, -⟩ := (h.inPlace id).of_pending (by simp [hp])
      obtain rfl : job = job'' := Option.some.inj (hjob.symm.trans hjob'')
      simp [hstatus] at hover
    simpa [InMemoryJobQueue.store, hne] using hjob
  | settled i job' after pending dead hmem =>
    have hne : id ≠ job'.id := by
      rintro rfl
      obtain ⟨hjob'', hstatus, -⟩ := (h.inPlace job'.id).of_held hmem
      obtain rfl : job = job' := Option.some.inj (hjob.symm.trans hjob'')
      simp [hstatus] at hover
    simpa [InMemoryJobQueue.store, hne] using hjob

end Step

/-! ## Runs -/

/-- `Conserved` holds in every reachable state of the workshop. -/
theorem conserved_of_reachable {workers : Nat → JobWorker} {s : Workshop}
    (h : (workshop workers).Reachable s) : Conserved s := by
  refine Machine.ReachableVia.invariant ?_ ?_ h
  · exact { inPlace := fun id => ⟨rfl, rfl, rfl, rfl⟩, workers := List.nodup_nil }
  · intro s e s' hs _ hstep
    exact hs.moves (hs.step_moves hstep)

/-- A job that has succeeded or failed is kept by every run. -/
theorem Conserved.over_kept_run {workers : Nat → JobWorker} {s s' : Workshop} (h : Conserved s)
    {es : List WorkshopEvent} (hrun : (workshop workers).runFrom s es = some s') {id : JobId}
    {job : Job} (hjob : s.queue.jobs id = some job)
    (hover : job.status = .succeeded ∨ job.status = .failed) :
    s'.queue.jobs id = some job := by
  induction es generalizing s with
  | nil =>
    simp only [Machine.runFrom, Option.some.injEq] at hrun
    exact hrun ▸ hjob
  | cons e es ih =>
    simp only [Machine.runFrom] at hrun
    cases hstep : (workshop workers).step s e with
    | none => simp [hstep] at hrun
    | some s₁ =>
      simp only [hstep, Option.bind_some] at hrun
      have hmoves := h.step_moves hstep
      exact ih (h.moves hmoves) hrun (h.over_kept hmoves hjob hover)

end NexaAssist.Spec.WorkshopConservation
