import NexaAssist.Api.V1
import NexaAssist.Ratelimit.Windows

/-!
# Model calls are authenticated and metered

What both limiters compute is a tally of subjects and windows. Where a route depends on
`enforce_rate_limit`, a request that reaches its handler has been identified and is one of
at most `limit` its subject has in the window. `POST /intent/analyze` does not depend on it.
-/

namespace NexaAssist

open PyJson

/-! ## What a limiter keeps -/

/-- How often each subject was counted in each window. -/
abbrev Tally := PyStr → Int → Nat

def Tally.add (tally : Tally) (subject : PyStr) (w : Int) : Tally := fun other v =>
  if other = subject ∧ v = w then tally other v + 1 else tally other v

namespace RateLimiter

variable (config : RateLimit) {limiter : RateLimiter} {clock : Rat} {tally : Tally}

/-- The limiter holds the tally of the windows that are not over at `clock`, and goes on to
    hold each of them until it is over. -/
def Keeps (limiter : RateLimiter) (clock : Rat) (tally : Tally) : Prop :=
  match limiter with
  | .memory limiter => ∀ subject w, config.window clock ≤ w →
    (limiter.counts (subject, w)).getD 0 = tally subject w
  | .redis ns server => ∀ subject w, config.window clock ≤ w →
    server.Holds (RedisRateLimiter.key ns subject w) (tally subject w)
      (config.windowSeconds * ((w : Rat) + 1))

/-- The limiter can enforce: where it keeps its counts in Redis, Redis says what time it is,
    and counts the request before the window of that time is over. -/
def Enforces (limiter : RateLimiter) (trip : Trip) : Prop :=
  match limiter with
  | .memory _ => True
  | .redis .. => trip.outcome = .done ∧
    trip.time.map config.window = some (config.window trip.now)

instance (limiter : RateLimiter) (trip : Trip) : Decidable (Enforces config limiter trip) := by
  unfold Enforces
  split <;> infer_instance

variable {config}

/-- A limiter keeps its count while time goes by. -/
theorem Keeps.later (h : Keeps config limiter clock tally) {later : Rat} (hle : clock ≤ later) :
    Keeps config limiter later tally := by
  have hmono := config.window_mono hle
  cases limiter with
  | memory limiter => exact fun subject w hw => h subject w (hmono.trans hw)
  | redis ns server => exact fun subject w hw => h subject w (hmono.trans hw)

/-- A new limiter has counted nothing. -/
theorem keeps_build (backend : LimiterBackend) (clock : Rat) :
    Keeps config backend.build clock fun _ _ => 0 := by
  cases backend with
  | memory => exact fun _ _ _ => rfl
  | redis ns => exact fun _ _ _ => .inl ⟨rfl, rfl⟩

/-- At any time from `clock` on, what a subject has used is its tally. -/
theorem Keeps.used (h : Keeps config limiter clock tally) {now : Rat} (hle : clock ≤ now)
    (subject : PyStr) : limiter.used config subject now = tally subject (config.window now) := by
  have hmono := config.window_mono hle
  cases limiter with
  | memory limiter => exact h subject _ hmono
  | redis ns server =>
    simp only [RateLimiter.used]
    obtain ⟨hnone, hzero⟩ | ⟨time, hsome, -⟩ :=
      (h subject _ hmono).live (config.lt_windowEnd now)
    · rw [hnone, hzero]
      rfl
    · rw [hsome]
      rfl

/-- A check that can enforce adds one to the tally, and allows what is then within the
    limit. -/
theorem Keeps.check (h : Keeps config limiter clock tally) {trip : Trip}
    (hle : clock ≤ trip.now) (henforces : Enforces config limiter trip) (subject : PyStr) :
    ((limiter.check config subject trip).1.allowed = true ↔
      tally subject (config.window trip.now) < config.limit) ∧
    Keeps config (limiter.check config subject trip).2 trip.now
      (tally.add subject (config.window trip.now)) := by
  have hnow := h.later hle
  cases limiter with
  | memory limiter =>
    -- Pruning drops past windows only
    have hpruned (other : PyStr) (w : Int) (hw : config.window trip.now ≤ w) :
        ((limiter.prune (config.window trip.now)).counts (other, w)).getD 0 = tally other w := by
      simp only [InMemoryRateLimiter.prune, if_neg (not_lt.mpr hw)]
      exact hnow other w hw
    refine ⟨?_, fun other w hw => ?_⟩
    · simp only [RateLimiter.check, InMemoryRateLimiter.check, config.decide_allowed,
        hpruned subject _ le_rfl]
      omega
    · simp only [Tally.add, Prod.mk.injEq]
      split
      · next heq => rw [heq.1, heq.2, hpruned subject _ le_rfl, Option.getD_some]
      · exact hpruned other w hw
  | redis ns server =>
    obtain ⟨hdone, htime⟩ := henforces
    obtain ⟨time, htime, hwindow⟩ := Option.map_eq_some_iff.mp htime
    -- The key lives to the end of its window
    obtain ⟨hcount, hheld⟩ := (hnow subject _ le_rfl).incr (config.lt_windowEnd trip.now)
      (config.windowEnd_le trip.now)
    simp only [RateLimiter.check, RedisRateLimiter.check, htime, Option.getD_some, hwindow, hdone,
      config.decide_allowed, hcount]
    refine ⟨by omega, fun other w hw => ?_⟩
    simp only [Tally.add]
    split
    · next heq =>
      rw [heq.1, heq.2]
      exact hheld
    · next hne =>
      exact (hnow other w hw).incr_of_ne fun heq => hne (RedisRateLimiter.key_injective heq)

end RateLimiter

/-! ## What a request's dependencies have done -/

/-- `authenticate` gives an identity by key. -/
theorem ApiKeyAuthenticator.authenticate_eq_apiKey {authenticator : ApiKeyAuthenticator}
    {presented : Option PyStr} {identity : RequestIdentity}
    (h : authenticator.authenticate presented = .ok identity) :
    identity = .apiKey identity.subject := by
  unfold authenticate at h
  split at h
  · cases h
  · split at h
    · cases h
    · split at h
      · cases h
      · cases h
      · rw [← Except.ok.inj h]
        rfl

namespace Deployment

variable {deployment : Deployment} {request : HttpRequest} {solving : Solving}
  {dependencies : List Dependency}

/-- Nothing is counted, and the identity, if there is one, is that of the key. -/
structure Uncounted (deployment : Deployment) (request : HttpRequest) (limiter : RateLimiter)
    (solving : Solving) : Prop where
  limiter : solving.limiter = limiter
  consumed : solving.consumed = none
  identity : ∀ identity, solving.identity = some identity →
    deployment.authenticator.authenticate request.key = .ok identity

/-- The request is identified by its key, and counted once. -/
def Counted (deployment : Deployment) (request : HttpRequest) (limiter : RateLimiter)
    (solving : Solving) (allowed : Bool) : Prop :=
  ∃ identity, deployment.authenticator.authenticate request.key = .ok identity ∧
    ∃ before : Solving, before.limiter = limiter ∧
      solving.limiter = (deployment.count identity request.trip before).2.limiter ∧
      solving.consumed = (deployment.count identity request.trip before).2.consumed ∧
      allowed = (limiter.check deployment.rateLimit identity.subject.val request.trip).1.allowed

/-- Only `enforce_rate_limit` counts. -/
theorem solve_of_notMem (h : .enforceRateLimit ∉ dependencies) :
    (deployment.solve request solving dependencies).2.limiter = solving.limiter ∧
      (deployment.solve request solving dependencies).2.consumed = solving.consumed := by
  induction dependencies generalizing solving with
  | nil => exact ⟨rfl, rfl⟩
  | cons dependency dependencies ih =>
    obtain ⟨hne, hrest⟩ := not_or.mp (List.mem_cons.not.mp h)
    have hone : (deployment.solveOne request solving dependency).2.limiter = solving.limiter ∧
        (deployment.solveOne request solving dependency).2.consumed = solving.consumed := by
      unfold solveOne
      split
      · exact ⟨rfl, rfl⟩
      · split
        · split <;> exact ⟨rfl, rfl⟩
        · exact absurd rfl hne
        · exact ⟨rfl, rfl⟩
    simp only [solve]
    split
    · next heq => simpa only [heq] using hone
    · next heq =>
      rw [heq] at hone
      exact ⟨(ih hrest).1.trans hone.1, (ih hrest).2.trans hone.2⟩

/-- Where `count` returns, the limiter allowed the call. -/
theorem allowed_of_count {identity : RequestIdentity} {trip : Trip}
    (h : (deployment.count identity trip solving).1 = .ok ()) :
    (solving.limiter.check deployment.rateLimit identity.subject.val trip).1.allowed = true := by
  by_contra hrefused
  simp [count, hrefused] at h

/-- One dependency counts nothing, or is `enforce_rate_limit` and counts the request. -/
theorem solveOne_cases {limiter : RateLimiter} (dependency : Dependency)
    (h : Uncounted deployment request limiter solving) :
    (Uncounted deployment request limiter (deployment.solveOne request solving dependency).2 ∧
      ((deployment.solveOne request solving dependency).1 = .ok () →
        .enforceRateLimit ≠ dependency)) ∨
    ∃ allowed, dependency = .enforceRateLimit ∧
      Counted deployment request limiter
        (deployment.solveOne request solving dependency).2 allowed ∧
      ((deployment.solveOne request solving dependency).1 = .ok () → allowed = true) := by
  unfold solveOne
  split
  · exact .inl ⟨h, fun hok => nomatch hok⟩
  · split
    · -- `require_identity`
      split
      · exact .inl ⟨h, fun hok => nomatch hok⟩
      · next identity hidentity =>
        refine .inl ⟨⟨h.limiter, h.consumed, fun other hother => ?_⟩, fun _ => nofun⟩
        rw [← Option.some.inj hother]
        exact hidentity
    · -- `enforce_rate_limit`
      split
      · exact .inl ⟨h, fun hok => nomatch hok⟩
      · next identity hidentity =>
        refine .inr ⟨_, rfl, ⟨identity, h.identity identity hidentity, solving, h.limiter, rfl, rfl,
          rfl⟩, fun hok => ?_⟩
        rw [← h.limiter]
        exact allowed_of_count hok
    · next hnotIdentity hnotLimit =>
      exact .inl ⟨h, fun _ heq => hnotLimit heq.symm⟩

/-- Either nothing is counted, and the handler is not run if it depends on the count; or the
    request is counted, and the handler is not run if it is not allowed. -/
theorem solve_cases {limiter : RateLimiter} (hnodup : dependencies.Nodup)
    (h : Uncounted deployment request limiter solving) :
    (Uncounted deployment request limiter (deployment.solve request solving dependencies).2 ∧
      ((deployment.solve request solving dependencies).1 = .ok () →
        .enforceRateLimit ∉ dependencies)) ∨
    ∃ allowed, Counted deployment request limiter
        (deployment.solve request solving dependencies).2 allowed ∧
      ((deployment.solve request solving dependencies).1 = .ok () → allowed = true) := by
  induction dependencies generalizing solving with
  | nil => exact .inl ⟨h, fun _ => List.not_mem_nil⟩
  | cons dependency dependencies ih =>
    obtain ⟨hnotMem, hnodup⟩ := List.nodup_cons.mp hnodup
    have hone := solveOne_cases dependency h
    simp only [solve]
    split
    · next refusal solving' heq =>
      rw [heq] at hone
      obtain ⟨huncounted, -⟩ | ⟨allowed, -, hcounted, -⟩ := hone
      · exact .inl ⟨huncounted, fun hok => nomatch hok⟩
      · exact .inr ⟨allowed, hcounted, fun hok => nomatch hok⟩
    · next solving' heq =>
      rw [heq] at hone
      obtain ⟨huncounted, hne⟩ | ⟨allowed, rfl, hcounted, hallowed⟩ := hone
      · obtain ⟨hrest, hrestNe⟩ | hrest := ih hnodup huncounted
        · exact .inl ⟨hrest, fun hok hmem =>
            (List.mem_cons.mp hmem).elim (hne rfl) (hrestNe hok)⟩
        · exact .inr hrest
      · -- It does not come twice.
        obtain ⟨hlimiter, hconsumed⟩ :=
          @solve_of_notMem deployment request solving' dependencies hnotMem
        obtain ⟨identity, hidentity, before, hbefore, hlimiter', hconsumed', hallowed'⟩ := hcounted
        exact .inr ⟨allowed, ⟨identity, hidentity, before, hbefore, hlimiter.trans hlimiter',
          hconsumed.trans hconsumed', hallowed'⟩, fun _ => hallowed rfl⟩

/-- A counted request has taken one unit of its subject's. -/
theorem Counted.consumed {limiter : RateLimiter} {clock : Rat} {tally : Tally} {allowed : Bool}
    (h : Counted deployment request limiter solving allowed)
    (hkeeps : RateLimiter.Keeps deployment.rateLimit limiter clock tally)
    (hle : clock ≤ request.trip.now)
    (henforces : RateLimiter.Enforces deployment.rateLimit limiter request.trip) :
    let w := deployment.rateLimit.window request.trip.now
    ∃ subject : Text, deployment.authenticator.authenticate request.key = .ok (.apiKey subject) ∧
      solving.consumed = some (subject.val, w) ∧
      RateLimiter.Keeps deployment.rateLimit solving.limiter request.trip.now
        (tally.add subject.val w) ∧
      (allowed = true ↔ tally subject.val w < deployment.rateLimit.limit) := by
  intro w
  obtain ⟨identity, hidentity, before, rfl, hlimiter, hconsumed, rfl⟩ := h
  obtain ⟨hallowed, hkept⟩ := hkeeps.check hle henforces identity.subject.val
  refine ⟨identity.subject, ?_, ?_, ?_, hallowed⟩
  · rw [← ApiKeyAuthenticator.authenticate_eq_apiKey hidentity]
    exact hidentity
  · -- What it had used has gone up by one.
    have hbefore := hkeeps.used hle identity.subject.val
    have hafter := hkept.used le_rfl identity.subject.val
    rw [Tally.add, if_pos ⟨rfl, rfl⟩] at hafter
    rw [hconsumed]
    simp only [count]
    rw [hafter, hbefore, if_pos rfl]
  · rw [hlimiter]
    exact hkept

end Deployment

namespace Spec.MeteredCalls

open Effect

/-! ## Which handlers ask the model -/

/-- The model is not asked. -/
def Silent (_ : Env) (w w' : RequestState) : Prop := w'.prompts = w.prompts

/-- A step that does nothing is silent. -/
theorem silent_refl (env : Env) (w : RequestState) : Silent env w w := rfl

/-- Two silent steps are silent together. -/
theorem silent_trans (env : Env) (w₁ w₂ w₃ : RequestState) (h : Silent env w₁ w₂)
    (h' : Silent env w₂ w₃) : Silent env w₁ w₃ := h'.trans h

/-- `select` asks nothing of the provider. -/
theorem select_silent {α : Type} (reading : Reading) (query : Env → Database → α) :
    Moves Silent (App.select reading query) := by
  intro env w
  unfold App.select
  obtain ⟨-, hrun⟩ | ⟨-, _, -, hrun⟩ | ⟨-, -, hrun⟩ :=
    App.statement_cases false reading (fun env _ db => (query env db, db)) env w
  all_goals
    rw [hrun]
    rfl

/-- What is silent is so in a new session. -/
theorem inNewSession_silent {α : Type} {x : App α} (hx : Moves Silent x) :
    Moves Silent (App.inNewSession x) := by
  intro env w
  unfold App.inNewSession
  split
  · exact hx env _
  · exact silent_refl env w

/-- `databaseStatus` is silent. -/
theorem databaseStatus_silent : Moves Silent databaseStatus := by
  apply Moves.bind silent_trans (.ask silent_refl)
  intro env
  split
  · apply Moves.tryCatch silent_trans
    · exact .bind silent_trans (inNewSession_silent (select_silent _ _)) fun _ =>
        .pure silent_refl _
    · intro error
      split
      · exact .pure silent_refl _
      · exact .throw silent_refl _
  · exact .pure silent_refl _

/-- `ready` asks nothing of the provider. -/
theorem ready_silent : Moves Silent ready := by
  apply Moves.bind silent_trans databaseStatus_silent
  intro database
  split
  · exact .throw silent_refl _
  · exact .pure silent_refl _

/-- Every route but `/health`, `/ready` and the intent endpoint depends on `enforceRateLimit`. -/
theorem limited_or (route : Route) : .enforceRateLimit ∈ route.solved ∨
    route = .health ∨ route = .ready ∨ route = .analyzeIntent := by
  cases route <;> decide

variable {deployment : Deployment}

/-- A route that is not limited does not ask the model, but for one. -/
theorem modelCalls_eq_zero {request : HttpRequest}
    (hopen : .enforceRateLimit ∉ request.call.route.solved)
    (hroute : request.call.route ≠ .analyzeIntent) (identity : Option RequestIdentity) :
    deployment.modelCalls request identity = 0 := by
  have hsilent : Moves Silent (request.call.handler (deployment.scopeFor identity)) := by
    obtain hlimited | hhealth | hready | hanalyze := limited_or request.call.route
    · exact absurd hlimited hopen
    · cases hcall : request.call <;> rw [hcall] at hhealth
      all_goals first
        | exact .pure silent_refl _
        | exact nomatch hhealth
    · cases hcall : request.call <;> rw [hcall] at hready
      all_goals first
        | exact .pure silent_refl _
        | exact .bind silent_trans ready_silent fun _ => .pure silent_refl _
        | exact nomatch hready
    · exact absurd hanalyze hroute
  exact congrArg List.length (hsilent request.env (.start request.db))

/-! ## Runs -/

/-- How often a subject was counted in a window. -/
def units (s : Api) : Tally := fun subject w =>
  s.served.countP fun entry => entry.consumed = some (subject, w)

/-- How often a subject that was counted in a window has reached the model. -/
def spent (s : Api) : Tally := fun subject w =>
  s.served.countP fun entry => 0 < entry.calls ∧ entry.consumed = some (subject, w)

/-- Every request that reached the model was made by an authenticated subject and took one
    unit of its limit, and in a window no subject had more than the limit. A request without
    a valid key did not reach it. -/
structure Metered (deployment : Deployment) (s : Api) : Prop where
  authenticated : ∀ entry ∈ s.served, 0 < entry.calls → ∃ subject w,
    deployment.authenticator.authenticate entry.key = .ok (.apiKey subject) ∧
      entry.consumed = some (subject.val, w)
  bounded : ∀ subject w, spent s subject w ≤ deployment.rateLimit.limit
  keyless : ∀ entry ∈ s.served,
    (∀ identity, deployment.authenticator.authenticate entry.key ≠ .ok identity) →
      entry.calls = 0

/-- The limiter can enforce, and the request is not for the intent endpoint. -/
def Guarded (deployment : Deployment) (s : Api) (request : HttpRequest) : Prop :=
  RateLimiter.Enforces deployment.rateLimit s.limiter request.trip ∧
    request.call.route ≠ .analyzeIntent

instance (s : Api) (request : HttpRequest) : Decidable (Guarded deployment s request) :=
  inferInstanceAs (Decidable (_ ∧ _))

/-- What carries over from one request to the next. -/
structure Inv (deployment : Deployment) (s : Api) : Prop where
  keeps : RateLimiter.Keeps deployment.rateLimit s.limiter s.clock (units s)
  authenticated : ∀ entry ∈ s.served, 0 < entry.calls → ∃ subject w,
    deployment.authenticator.authenticate entry.key = .ok (.apiKey subject) ∧
      entry.consumed = some (subject.val, w)
  bounded : ∀ subject w, spent s subject w ≤ deployment.rateLimit.limit

section Step

variable {s s' : Api} {entry : Served}

/-- A request that consumes nothing leaves the units. -/
theorem units_append (h : s'.served = s.served ++ [entry]) (hentry : entry.consumed = none) :
    units s' = units s := by
  funext subject w
  simp [units, h, hentry, List.countP_append]

/-- A request that consumes a unit adds it to its subject and window. -/
theorem units_append_add {subject : PyStr} {w : Int} (h : s'.served = s.served ++ [entry])
    (hentry : entry.consumed = some (subject, w)) : units s' = (units s).add subject w := by
  funext other v
  simp only [units, h, List.countP_append, List.countP_singleton, hentry, Option.some.injEq,
    Prod.mk.injEq, Tally.add, decide_eq_true_eq, eq_comm (a := subject), eq_comm (a := w)]
  split <;> rfl

/-- No subject spends more than its units. -/
theorem spent_le_units (s : Api) (subject : PyStr) (w : Int) :
    spent s subject w ≤ units s subject w := by
  apply List.countP_mono_left
  intro entry _ hspent
  simp only [decide_eq_true_eq] at hspent ⊢
  exact hspent.2

/-- `Inv` is kept by one more entry, if where it reached the model it is of an authenticated subject
    and within the limit of its window. -/
theorem Inv.append (h : Inv deployment s) (hserved : s'.served = s.served ++ [entry])
    (hkeeps : RateLimiter.Keeps deployment.rateLimit s'.limiter s'.clock (units s'))
    (hentry : 0 < entry.calls → ∃ subject w,
      deployment.authenticator.authenticate entry.key = .ok (.apiKey subject) ∧
        entry.consumed = some (subject.val, w) ∧
        units s' subject.val w ≤ deployment.rateLimit.limit) : Inv deployment s' where
  keeps := hkeeps
  authenticated := by
    intro other hmem hcalls
    rw [hserved, List.mem_append, List.mem_singleton] at hmem
    obtain hmem | rfl := hmem
    · exact h.authenticated other hmem hcalls
    · obtain ⟨subject, w, hidentity, hconsumed, -⟩ := hentry hcalls
      exact ⟨subject, w, hidentity, hconsumed⟩
  bounded := by
    intro subject w
    by_cases hspent : 0 < entry.calls ∧ entry.consumed = some (subject, w)
    · obtain ⟨hcalls, hconsumed⟩ := hspent
      obtain ⟨other, v, -, hother, hlimit⟩ := hentry hcalls
      rw [hconsumed, Option.some.injEq, Prod.mk.injEq] at hother
      rw [hother.1, hother.2]
      exact (spent_le_units s' other.val v).trans hlimit
    · have hsame : spent s' subject w = spent s subject w := by
        simp [spent, hserved, List.countP_append, hspent]
      rw [hsame]
      exact h.bounded subject w

end Step

/-- No route solves a dependency twice. -/
theorem solved_nodup (route : Route) : route.solved.Nodup := by
  cases route <;> decide

/-- `Inv` holds at first. -/
theorem inv_init (start : Rat) : Inv deployment (api deployment start).init where
  keeps := RateLimiter.keeps_build _ _
  authenticated := fun _ hmem => nomatch hmem
  bounded := fun _ _ => Nat.zero_le _

section Serve

variable {start : Rat} {s s' : Api} {request : HttpRequest}

/-- A request that is served is the last of the log. Where it reached the model, it was
    counted and allowed. -/
theorem serve_cases (hroute : request.call.route ≠ .analyzeIntent)
    (hstep : (api deployment start).step s request = some s') :
    s.clock ≤ request.trip.now ∧ ∃ (solving : Solving) (calls : Nat),
      s' = {
        limiter := solving.limiter
        clock := request.trip.now
        served := s.served ++ [{
          route := request.call.route
          key := request.key
          consumed := solving.consumed
          calls }] } ∧
      ((Deployment.Uncounted deployment request s.limiter solving ∧ calls = 0) ∨
        ∃ allowed, Deployment.Counted deployment request s.limiter solving allowed ∧
          (0 < calls → allowed = true)) := by
  simp only [api, Api.serve] at hstep
  split at hstep
  · exact nomatch hstep
  next hclock =>
  refine ⟨not_lt.mp hclock, _, _, (Option.some.inj hstep).symm, ?_⟩
  have hfirst : Deployment.Uncounted deployment request s.limiter
      { identity := none, limiter := s.limiter, consumed := none } := ⟨rfl, rfl, nofun⟩
  have hcases := Deployment.solve_cases (solved_nodup request.call.route) hfirst
  generalize deployment.solve request
    { identity := none, limiter := s.limiter, consumed := none } request.call.route.solved =
      solved at hcases ⊢
  obtain ⟨result, solving⟩ := solved
  obtain ⟨huncounted, hopen⟩ | ⟨allowed, hcounted, hallowed⟩ := hcases
  · refine .inl ⟨huncounted, ?_⟩
    cases result with
    | error _ => rfl
    | ok _ => exact modelCalls_eq_zero (hopen rfl) hroute _
  · refine .inr ⟨allowed, hcounted, fun hpos => hallowed ?_⟩
    cases result with
    | error _ => exact absurd hpos (lt_irrefl 0)
    | ok _ => rfl

/-- `Inv` is kept by every guarded request. -/
theorem inv_step (h : Inv deployment s) (hguarded : Guarded deployment s request)
    (hstep : (api deployment start).step s request = some s') : Inv deployment s' := by
  obtain ⟨henforces, hroute⟩ := hguarded
  obtain ⟨hle, solving, calls, rfl, ⟨huncounted, rfl⟩ | ⟨allowed, hcounted, hallowed⟩⟩ :=
    serve_cases hroute hstep
  · apply h.append rfl
    · rw [units_append (s := s) rfl huncounted.consumed, huncounted.limiter]
      exact h.keeps.later hle
    · intro hpos
      exact absurd hpos (lt_irrefl 0)
  · obtain ⟨subject, hidentity, hconsumed, hkeeps, hlimit⟩ :=
      hcounted.consumed h.keeps hle henforces
    apply h.append rfl
    · rw [units_append_add (s := s) rfl hconsumed]
      exact hkeeps
    · intro hpos
      refine ⟨subject, _, hidentity, hconsumed, ?_⟩
      have hbelow := hlimit.mp (hallowed hpos)
      rw [units_append_add (s := s) rfl hconsumed, Tally.add, if_pos ⟨rfl, rfl⟩]
      exact hbelow

end Serve

/-- Only authenticated subjects have reached the model. -/
def Authenticated (deployment : Deployment) (s : Api) : Prop :=
  ∀ entry ∈ s.served, 0 < entry.calls →
    ∃ subject, deployment.authenticator.authenticate entry.key = .ok (.apiKey subject)

/-- Every model call of a run without the intent endpoint is authenticated, also where the limiter
    cannot enforce. -/
theorem calls_authenticated (deployment : Deployment) (start : Rat) {s : Api}
    (h : (api deployment start).ReachableVia
      (fun _ request => request.call.route ≠ .analyzeIntent) s) : Authenticated deployment s := by
  have hinit : Authenticated deployment (api deployment start).init := fun _ hmem => nomatch hmem
  refine h.invariant hinit fun s request s' ih hroute hstep => ?_
  obtain ⟨-, solving, calls, rfl, hcases⟩ := serve_cases hroute hstep
  intro entry hmem hcalls
  obtain hmem | hmem := List.mem_append.mp hmem
  · exact ih entry hmem hcalls
  · obtain rfl := List.mem_singleton.mp hmem
    obtain ⟨-, rfl⟩ | ⟨allowed, ⟨identity, hidentity, -⟩, -⟩ := hcases
    · exact absurd hcalls (lt_irrefl 0)
    · refine ⟨identity.subject, ?_⟩
      rw [← ApiKeyAuthenticator.authenticate_eq_apiKey hidentity]
      exact hidentity

/-- Where each request is for another endpoint than the intent endpoint, and the limiter can
    enforce, every model call is authenticated and metered. -/
theorem calls_metered (deployment : Deployment) (start : Rat) {s : Api}
    (h : (api deployment start).ReachableVia (Guarded deployment) s) : Metered deployment s := by
  have hinv : Inv deployment s := h.invariant (inv_init start) fun _ _ _ => inv_step
  refine ⟨hinv.authenticated, hinv.bounded, fun entry hmem hkey => ?_⟩
  by_contra hcalls
  obtain ⟨subject, -, hidentity, -⟩ :=
    hinv.authenticated entry hmem (Nat.pos_of_ne_zero hcalls)
  exact hkey _ hidentity

/-- The subject of the example has a name. -/
private theorem alice_named : lit "alice" ≠ [] := by decide

private def alice : ApiKeyCredential where
  subject := ⟨lit "alice", alice_named⟩
  secret := lit "a key of sixteen."

private def deployed : Deployment where
  authenticator := { credentials := [alice], nonempty := by decide, distinct := by decide }
  rateLimit := { limit := 1, windowSeconds := 60, limit_pos := Nat.one_pos, window_pos := Nat.succ_pos 59 }
  backend := .redis (lit "nexaassist:ratelimit")
  scopes := true

/-- A call at a time, in a deployment where everything is there but the model does not
    answer. -/
private def sent (key : Option PyStr) (call : Call) (now : Rat) : HttpRequest where
  key := key
  call := call
  trip := { now, time := some now, localNow := now, outcome := .done }
  missing _ := false
  env := .plain .unavailable .refusing (.default true)
  db := {
    tickets := [], conversations := [], messages := [], reviewItems := [], documents := []
    chunks := [] }

private def message : BoundedText 8000 := ⟨lit "Where is my order?", by decide⟩

/-- One message within the limit, one past it, one with a wrong key and one without any. -/
private def messages : List HttpRequest :=
  let call := .answerMessage { message, conversationId := none }
  [sent (some alice.secret) call 0, sent (some alice.secret) call 1,
    sent (some (lit "a guess")) call 2, sent none call 3]

/-- One unit is consumed, and three requests are refused. -/
theorem calls_metered_messages : ∃ s, (api deployed 0).run messages = some s ∧
    s.served.map (fun entry => (entry.consumed, entry.calls)) =
      [(some (lit "alice", 0), 1), (some (lit "alice", 0), 0), (none, 0), (none, 0)] ∧
    Metered deployed s := by
  obtain ⟨s, hrun⟩ := Option.isSome_iff_exists.mp
    (by decide +kernel : ((api deployed 0).run messages).isSome = true)
  have hserved : ((api deployed 0).run messages).map (fun s =>
      s.served.map fun entry => (entry.consumed, entry.calls)) =
        some [(some (lit "alice", 0), 1), (some (lit "alice", 0), 0), (none, 0), (none, 0)] := by
    decide +kernel
  rw [hrun] at hserved
  exact ⟨s, hrun, Option.some.inj hserved, calls_metered deployed 0
    (Machine.reachableVia_of_run messages (by decide +kernel) hrun)⟩

/-- Two messages to classify, without a key. -/
private def keyless : List HttpRequest :=
  let call := .analyzeIntent { message }
  [sent none call 0, sent none call 1]

/-- Whoever asks has a message classified, as often as they ask. -/
theorem keyless_call : ∃ s, (api deployed 0).run keyless = some s ∧
    s.served = List.replicate 2
      { route := .analyzeIntent, key := none, consumed := none, calls := 1 } ∧
    ¬Metered deployed s := by
  have hserved : ((api deployed 0).run keyless).map (·.served) = some (List.replicate 2
      { route := .analyzeIntent, key := none, consumed := none, calls := 1 }) := by
    decide +kernel
  obtain ⟨s, hrun, hserved⟩ := Option.map_eq_some_iff.mp hserved
  refine ⟨s, hrun, hserved, fun hmetered => ?_⟩
  have hmem : { route := .analyzeIntent, key := none, consumed := none, calls := 1 } ∈ s.served := by
    rw [hserved]
    exact List.mem_cons_self
  obtain ⟨subject, w, -, hconsumed⟩ := hmetered.authenticated _ hmem Nat.one_pos
  exact nomatch hconsumed

end Spec.MeteredCalls

end NexaAssist
