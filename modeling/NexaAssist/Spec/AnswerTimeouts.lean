import NexaAssist.Frontend.UseRealtime

/-!
# Answer timeouts

`useRealtime` with a clock: when each question was asked, which question each answer timer
was started for, and when a timeout was reported. A timer goes off no sooner than it is due.
-/

namespace NexaAssist.Spec.AnswerTimeouts

open NexaAssist.Frontend

/-- `ANSWER_TIMEOUT_MS`. -/
def answerTimeoutMs : Nat := 90000

/-- The hook, and a clock in milliseconds. -/
structure Clocked where
  world : World
  now : Nat
  askedAt : Nat → Nat
  startedFor : Nat → Nat
  /-- The questions a timeout was reported for, and when. -/
  timeouts : List (Nat × Nat)

inductive ClockedEvent
  | elapse (ms : Nat)
  | turn (event : RealtimeEvent)

namespace Clocked

def init : Clocked where
  world := .init
  now := 0
  askedAt _ := 0
  startedFor _ := 0
  timeouts := []

/-- `ask`, which starts a timer for the question where it is sent. -/
def ask (s : Clocked) (question : String) (conversationId : Option String) : Clocked :=
  let (sent, world) := s.world.ask question conversationId
  if sent then
    { s with
      world := world
      askedAt := fun n => if n = s.world.asked then s.now else s.askedAt n
      startedFor := fun handle =>
        if handle = s.world.handles then s.world.asked else s.startedFor handle }
  else { s with world := world }

/-- An answer timer goes off, once it is due. -/
def answerTimeout (s : Clocked) (handle : Nat) : Option Clocked :=
  if s.askedAt (s.startedFor handle) + answerTimeoutMs ≤ s.now then
    (s.world.answerTimeout handle).map fun world =>
      let reported := (world.handed.drop s.world.handed.length).filterMap Handed.awaited
      { s with world := world, timeouts := s.timeouts ++ reported.map fun n => (n, s.now) }
  else none

def step (s : Clocked) : ClockedEvent → Option Clocked
  | .elapse ms => some { s with now := s.now + ms }
  | .turn (.ask question conversationId) => some (s.ask question conversationId)
  | .turn (.answerTimeout handle) => s.answerTimeout handle
  | .turn event => (s.world.step event).map fun world => { s with world := world }

end Clocked

/-- The hook under every order of its events, and with any time between them. -/
def clocked : Machine Clocked ClockedEvent where
  init := .init
  step := Clocked.step

/-- A timeout is reported for a question that was open for as long, and a question that is
    open has its own timer running. -/
structure Accurate (s : Clocked) : Prop where
  reported : ∀ report ∈ s.timeouts, s.askedAt report.1 + answerTimeoutMs ≤ report.2
  armed : ∀ question, s.world.awaiting = some question →
    ∃ handle ∈ s.world.answerTimers, s.startedFor handle = question

/-- No timer of an earlier question goes off while a question is open: the one that does is
    the one the ref holds. -/
def OwnTimer (s : Clocked) : ClockedEvent → Prop
  | .turn (.answerTimeout handle) =>
    s.world.awaiting = none ∨ s.world.answerTimer = some handle
  | _ => True

/-! ## The events that ask nothing and time nothing -/

/-- No timer is started, and the question that is open, if it still is, keeps its own. -/
structure Quiet (w w' : World) : Prop where
  asked : w'.asked = w.asked
  handles : w.handles ≤ w'.handles
  answerTimers : w'.answerTimers ⊆ w.answerTimers
  open_or_closed : w'.awaiting = none ∨
    (w'.awaiting = w.awaiting ∧ w'.answerTimer = w.answerTimer ∧ w'.answerTimers = w.answerTimers)

namespace Quiet

variable {w w' w'' : World}

/-- A step that leaves the asks, the handles, the timers and what is awaited is quiet. -/
theorem of_eq (hasked : w'.asked = w.asked) (hhandles : w'.handles = w.handles)
    (htimers : w'.answerTimers = w.answerTimers) (hawaiting : w'.awaiting = w.awaiting)
    (htimer : w'.answerTimer = w.answerTimer) : Quiet w w' where
  asked := hasked
  handles := Nat.le_of_eq hhandles.symm
  answerTimers := by rw [htimers]; exact List.Subset.refl _
  open_or_closed := .inr ⟨hawaiting, htimer, htimers⟩

/-- A step that does nothing is quiet. -/
theorem refl (w : World) : Quiet w w := of_eq rfl rfl rfl rfl rfl

/-- `openSocket` is quiet. -/
theorem openSocket (w : World) (mount : Nat) (creates : Bool) :
    Quiet w (w.openSocket mount creates) := by
  unfold World.openSocket
  split
  · exact refl w
  split <;> exact of_eq rfl rfl rfl rfl rfl

/-- `connect` is quiet. -/
theorem connect (w : World) (mount : Nat) (hasTicketSource creates : Bool) :
    Quiet w (w.connect mount hasTicketSource creates) := by
  unfold World.connect
  split
  · exact of_eq rfl rfl rfl rfl rfl
  · exact openSocket w mount creates

/-- Two quiet steps are quiet together. -/
theorem trans (h : Quiet w w') (h' : Quiet w' w'') : Quiet w w'' where
  asked := h'.asked.trans h.asked
  handles := Nat.le_trans h.handles h'.handles
  answerTimers := List.Subset.trans h'.answerTimers h.answerTimers
  open_or_closed := by
    obtain hclosed | ⟨hawaiting, htimer, htimers⟩ := h'.open_or_closed
    · exact .inl hclosed
    · rw [hawaiting, htimer, htimers]
      exact h.open_or_closed

/-- A quiet step behind one that leaves all it looks at is quiet. -/
theorem after (h : Quiet w' w'') (hasked : w'.asked = w.asked) (hhandles : w'.handles = w.handles)
    (htimers : w'.answerTimers = w.answerTimers) (hawaiting : w'.awaiting = w.awaiting)
    (htimer : w'.answerTimer = w.answerTimer) : Quiet w w'' :=
  (of_eq hasked hhandles htimers hawaiting htimer).trans h

/-- A step that closes the question and starts no timer is quiet. -/
theorem of_closed (hasked : w'.asked = w.asked) (hhandles : w.handles ≤ w'.handles)
    (htimers : w'.answerTimers ⊆ w.answerTimers) (hclosed : w'.awaiting = none) : Quiet w w' :=
  ⟨hasked, hhandles, htimers, .inl hclosed⟩

/-- `onmessage` is quiet. -/
theorem onmessage (w : World) (source : Option Nat) (frame : ServerFrame) :
    Quiet w (w.onmessage source frame) := by
  cases frame with
  | delta text =>
    simp only [World.onmessage]
    split
    · exact of_eq rfl rfl rfl rfl rfl
    · exact refl w
  | complete text conversationId grounded citations escalated =>
    simp only [World.onmessage]
    split
    · exact of_closed rfl (Nat.le_refl _) (List.Subset.refl _) rfl
    · exact refl w
  | error code message => exact of_closed rfl (Nat.le_refl _) (List.Subset.refl _) rfl
  | ready connectionId version => exact refl w
  | pong => exact refl w
  | unrecognised raw => exact refl w

/-- `answerTimersWithout` leaves the other timers. -/
theorem answerTimersWithout (w : World) (handle : Option Nat) :
    w.answerTimersWithout handle ⊆ w.answerTimers := by
  cases handle with
  | none => exact List.Subset.refl _
  | some handle => exact fun other hmem => (List.mem_filter.mp hmem).1

/-- `onclose` is quiet. -/
theorem onclose (w : World) (mount : Nat) : Quiet w (w.onclose mount) := by
  have htimers := answerTimersWithout w w.answerTimer
  unfold World.onclose
  dsimp only
  split
  · exact of_closed rfl (Nat.le_refl _) htimers rfl
  split
  · exact of_closed rfl (Nat.le_refl _) htimers rfl
  · exact of_closed rfl (Nat.le_succ _) htimers rfl

/-- Every event but `ask` and `answerTimeout` is quiet. -/
theorem step {e : RealtimeEvent} (hask : ∀ question conversationId, e ≠ .ask question conversationId)
    (htimeout : ∀ handle, e ≠ .answerTimeout handle) (h : w.step e = some w') : Quiet w w' := by
  cases e with
  | mountEffect enabled hasTicketSource creates =>
    simp only [World.step, World.mountEffect] at h
    split at h
    · exact nomatch h
    split at h
    · obtain rfl := Option.some.inj h
      exact of_eq rfl rfl rfl rfl rfl
    · obtain rfl := Option.some.inj h
      exact after (connect _ _ _ _) rfl rfl rfl rfl rfl
  | cleanup =>
    simp only [World.step, World.cleanup] at h
    split at h
    · exact nomatch h
    · obtain rfl := Option.some.inj h
      exact of_eq rfl rfl rfl rfl rfl
    · obtain rfl := Option.some.inj h
      exact of_eq rfl rfl rfl rfl rfl
  | ticket i granted creates =>
    simp only [World.step, World.ticketArrives] at h
    split at h
    · exact nomatch h
    obtain rfl := Option.some.inj h
    split
    · exact after (openSocket _ _ _) rfl rfl rfl rfl rfl
    · exact of_eq rfl rfl rfl rfl rfl
  | reconnect handle hasTicketSource creates =>
    simp only [World.step, World.reconnectFires] at h
    split at h
    · exact nomatch h
    obtain rfl := Option.some.inj h
    exact after (connect _ _ _ _) rfl rfl rfl rfl rfl
  | opened k =>
    simp only [World.step, World.onopen] at h
    split at h
    · obtain rfl := Option.some.inj h
      exact of_eq rfl rfl rfl rfl rfl
    · exact nomatch h
  | deliver k =>
    simp only [World.step, World.deliver] at h
    split at h
    · obtain rfl := Option.some.inj h
      exact after (onmessage _ _ _) rfl rfl rfl rfl rfl
    · exact nomatch h
  | closing k =>
    simp only [World.step, World.closingStarts] at h
    split at h
    · obtain rfl := Option.some.inj h
      exact of_eq rfl rfl rfl rfl rfl
    · obtain rfl := Option.some.inj h
      exact of_eq rfl rfl rfl rfl rfl
    · exact nomatch h
  | closed k =>
    simp only [World.step, World.closeEvent] at h
    split at h
    · exact nomatch h
    obtain rfl := Option.some.inj h
    exact after (onclose _ _) rfl rfl rfl rfl rfl
  | ask question conversationId => exact absurd rfl (hask question conversationId)
  | answerTimeout handle => exact absurd rfl (htimeout handle)
  | serve k frame =>
    simp only [World.step, World.serve] at h
    split at h
    · exact nomatch h
    obtain rfl := Option.some.inj h
    exact of_eq rfl rfl rfl rfl rfl
  | serverFinishes k =>
    simp only [World.step, World.serverFinishes] at h
    split at h
    · exact nomatch h
    obtain rfl := Option.some.inj h
    exact of_eq rfl rfl rfl rfl rfl
  | greet k connectionId =>
    simp only [World.step, World.greet] at h
    split at h
    · obtain rfl := Option.some.inj h
      exact of_eq rfl rfl rfl rfl rfl
    · exact nomatch h
  | serverStops k =>
    obtain rfl := Option.some.inj h
    exact of_eq rfl rfl rfl rfl rfl

end Quiet

/-! ## Questions and their timers -/

/-- The question that is open has its timer in the ref, and numbers are given out once. -/
structure Inv (s : Clocked) : Prop where
  own : ∀ question, s.world.awaiting = some question → question < s.world.asked ∧
    ∃ handle ∈ s.world.answerTimers, s.world.answerTimer = some handle ∧
      s.startedFor handle = question
  handles : ∀ handle ∈ s.world.answerTimers, handle < s.world.handles
  asked : ∀ report ∈ s.timeouts, report.1 < s.world.asked
  reported : ∀ report ∈ s.timeouts, s.askedAt report.1 + answerTimeoutMs ≤ report.2

/-- `Inv` holds at first. -/
theorem inv_init : Inv clocked.init where
  own _ hopen := nomatch hopen
  handles _ hmem := nomatch hmem
  asked _ hreport := nomatch hreport
  reported _ hreport := nomatch hreport

/-- `Inv` is kept by a quiet step. -/
theorem Inv.quiet {s : Clocked} (h : Inv s) {world : World} (hquiet : Quiet s.world world) :
    Inv { s with world := world } where
  own question hopen := by
    obtain hclosed | ⟨hawaiting, htimer, htimers⟩ := hquiet.open_or_closed
    · exact nomatch hclosed.symm.trans hopen
    · dsimp only
      rw [hquiet.asked, htimer, htimers]
      exact h.own question (hawaiting.symm.trans hopen)
  handles handle hmem :=
    Nat.lt_of_lt_of_le (h.handles handle (hquiet.answerTimers hmem)) hquiet.handles
  asked report hreport := by
    dsimp only
    rw [hquiet.asked]
    exact h.asked report hreport
  reported := h.reported

/-- A question that is sent is open with a timer of its own. -/
theorem Inv.ask {s : Clocked} (h : Inv s) (question : String) (conversationId : Option String) :
    Inv (s.ask question conversationId) := by
  unfold Clocked.ask World.ask
  by_cases hopen : s.world.awaiting.isSome = true
  · rw [if_pos hopen]
    exact h
  rw [if_neg hopen]
  cases s.world.sendTarget with
  | none => exact h
  | some k =>
    constructor
    case own =>
      intro n hopen
      obtain rfl := Option.some.inj hopen
      exact ⟨Nat.lt_succ_self _, s.world.handles, by simp, rfl, if_pos rfl⟩
    case handles =>
      intro handle hmem
      cases List.mem_append.mp hmem with
      | inl hbefore => exact Nat.lt_succ_of_lt (h.handles handle hbefore)
      | inr hnew =>
        rw [List.mem_singleton.mp hnew]
        exact Nat.lt_succ_self _
    case asked => exact fun report hreport => Nat.lt_succ_of_lt (h.asked report hreport)
    case reported =>
      intro report hreport
      have hold := Nat.ne_of_lt (h.asked report hreport)
      simp only [if_neg hold, if_true]
      exact h.reported report hreport

/-- A timer that goes off reports the question that is open, if one is, and closes it. -/
theorem answerTimeout_cases {s s' : Clocked} {handle : Nat}
    (hstep : s.answerTimeout handle = some s') :
    s.askedAt (s.startedFor handle) + answerTimeoutMs ≤ s.now ∧ Quiet s.world s'.world ∧
    s'.world.awaiting = none ∧ s'.askedAt = s.askedAt ∧ s'.startedFor = s.startedFor ∧
    s'.now = s.now ∧
    ∀ report ∈ s'.timeouts, report ∈ s.timeouts ∨
      (s.world.awaiting = some report.1 ∧ report.2 = s.now) := by
  unfold Clocked.answerTimeout at hstep
  split at hstep
  · rename_i hdue
    obtain ⟨world, hworld, rfl⟩ := Option.map_eq_some_iff.mp hstep
    refine ⟨hdue, ?_⟩
    have htimers : s.world.answerTimersWithout (some handle) ⊆ s.world.answerTimers :=
      Quiet.answerTimersWithout s.world (some handle)
    unfold World.answerTimeout at hworld
    split at hworld
    · dsimp only at hworld
      split at hworld
      · rename_i hclosed
        have hnone := Option.isNone_iff_eq_none.mp hclosed
        obtain rfl := Option.some.inj hworld
        refine ⟨.of_closed rfl (Nat.le_refl _) htimers hnone, hnone, rfl, rfl, rfl, ?_⟩
        intro report hreport
        exact .inl (by simpa using hreport)
      · obtain rfl := Option.some.inj hworld
        refine ⟨.of_closed rfl (Nat.le_refl _) ?_ rfl, rfl, rfl, rfl, rfl, ?_⟩
        · exact List.Subset.trans (Quiet.answerTimersWithout _ _) htimers
        · intro report hreport
          cases List.mem_append.mp hreport with
          | inl hbefore => exact .inl hbefore
          | inr hnew =>
            obtain ⟨question, hquestion, rfl⟩ := List.mem_map.mp hnew
            right
            simpa using hquestion
    · exact nomatch hworld
  · exact nomatch hstep

/-- A timer of the question that is open goes off when that was open for as long. -/
theorem Inv.answerTimeout {s s' : Clocked} (h : Inv s) {handle : Nat}
    (hown : OwnTimer s (.turn (.answerTimeout handle))) (hstep : s.answerTimeout handle = some s') :
    Inv s' := by
  obtain ⟨hdue, hquiet, hclosed, haskedAt, _, hnow, hreports⟩ := answerTimeout_cases hstep
  constructor
  case own =>
    intro question hopen
    exact nomatch hclosed.symm.trans hopen
  case handles =>
    intro other hmem
    exact Nat.lt_of_lt_of_le (h.handles other (hquiet.answerTimers hmem)) hquiet.handles
  case asked =>
    intro report hreport
    rw [hquiet.asked]
    obtain hbefore | ⟨hopen, -⟩ := hreports report hreport
    · exact h.asked report hbefore
    · exact (h.own _ hopen).1
  case reported =>
    intro report hreport
    rw [haskedAt]
    obtain hbefore | ⟨hopen, htime⟩ := hreports report hreport
    · exact h.reported report hbefore
    · obtain ⟨_, other, _, hother, hstarted⟩ := h.own _ hopen
      obtain hnone | hhandle := hown
      · exact nomatch hnone.symm.trans hopen
      · obtain rfl := Option.some.inj (hother.symm.trans hhandle)
        rwa [hstarted, ← htime] at hdue

/-- `Inv` is kept by every step that fires the own timer only. -/
theorem inv_step {s s' : Clocked} {e : ClockedEvent} (h : Inv s) (hown : OwnTimer s e)
    (hstep : s.step e = some s') : Inv s' := by
  cases e with
  | elapse ms =>
    obtain rfl := Option.some.inj hstep
    exact ⟨h.own, h.handles, h.asked, h.reported⟩
  | turn event =>
    cases event with
    | ask question conversationId =>
      obtain rfl := Option.some.inj hstep
      exact h.ask question conversationId
    | answerTimeout handle => exact h.answerTimeout hown hstep
    | serverStops k =>
      obtain rfl := Option.some.inj hstep
      exact h.quiet (.of_eq rfl rfl rfl rfl rfl)
    | _ =>
      obtain ⟨world, hworld, rfl⟩ := Option.map_eq_some_iff.mp hstep
      refine h.quiet (Quiet.step ?_ ?_ hworld) <;> simp

/-- In every run in which no timer of an earlier question goes off while one is open, timeouts
    are accurate. -/
theorem timeouts_accurate {s : Clocked} (h : clocked.ReachableVia OwnTimer s) : Accurate s := by
  have hinv : Inv s :=
    Machine.ReachableVia.invariant inv_init (fun _ _ _ hi hok hs => inv_step hi hok hs) h
  refine ⟨hinv.reported, ?_⟩
  intro question hopen
  obtain ⟨_, handle, hmem, _, hstarted⟩ := hinv.own question hopen
  exact ⟨handle, hmem, hstarted⟩

instance (s : Clocked) (e : ClockedEvent) : Decidable (OwnTimer s e) := by
  unfold OwnTimer
  split <;> infer_instance

/-- A question is answered, and a second one asked a moment before the first one's time is up. -/
def secondQuestion : List ClockedEvent := [
  .turn (.mountEffect true false true), .turn (.opened 0), .turn (.ask "first" none),
  .turn (.serve 0 (.complete "answer" none none none none)), .turn (.serverFinishes 0),
  .turn (.deliver 0), .elapse 89999, .turn (.ask "second" none), .elapse 1,
  .turn (.answerTimeout 0)]

/-- The timer of the first question goes off, and the second is reported after a moment. -/
theorem second_question_reported_early : ∃ s, clocked.run secondQuestion = some s ∧
    s.timeouts = [(1, 90000)] ∧ s.askedAt 1 = 89999 ∧ ¬ Accurate s := by
  refine ⟨_, rfl, rfl, rfl, fun haccurate => ?_⟩
  exact absurd (haccurate.reported (1, 90000) List.mem_cons_self) (by decide)

/-- A question is not answered. -/
def unanswered : List ClockedEvent := [
  .turn (.mountEffect true false true), .turn (.opened 0), .turn (.ask "first" none),
  .elapse 90000, .turn (.answerTimeout 0)]

/-- A question that is not answered is reported when its time is up. -/
theorem timeouts_accurate_unanswered : ∃ s, clocked.run unanswered = some s ∧
    s.timeouts = [(0, 90000)] ∧ Accurate s :=
  ⟨_, rfl, rfl, timeouts_accurate (Machine.reachableVia_of_run unanswered (by decide) rfl)⟩

end NexaAssist.Spec.AnswerTimeouts
