import NexaAssist.ForStd.List
import NexaAssist.Observability.Tracer

/-!
# Trace trees

Tasks that open and close spans in any order, each in a context of its own, with a log of the
blocks they enter and leave. Every span is emitted once, when its block exits, below the span
it was opened in.
-/

namespace NexaAssist.Spec.TraceTrees

open PyJson

/-- A block is entered. -/
structure Opening where
  task : Nat
  /-- The span that was current in the task's creator when the task was created. -/
  inherited : Option SpanRef
  /-- The innermost span still open in the task, or else the inherited one. -/
  innermost : Option SpanRef
  /-- `current_span()` before it. -/
  current : Option SpanRef
  ref : SpanRef

/-- A block is left. -/
structure Closing where
  ref : SpanRef
  /-- `current_span()` after it. -/
  current : Option SpanRef

/-- Tasks, and what they entered and left. -/
structure Observed where
  world : Traced
  openings : List Opening
  closings : List Closing

namespace Observed

def init : Observed where
  world := .init
  openings := []
  closings := []

/-- What is logged of an event that takes the tasks to `w'`. -/
def log (s : Observed) (w' : Traced) : TraceEvent → List Opening × List Closing
  | .enter i .. =>
    match s.world.tasks[i]?, w'.tasks[i]? with
    | some task, some { inherited := _, current := _, frames := frame :: _ } =>
      ([{ task := i
          inherited := task.inherited
          innermost := (task.frames.head?.map fun f => f.handle.ref).or task.inherited
          current := task.current
          ref := frame.handle.ref }], [])
    | _, _ => ([], [])
  | .exit i .. =>
    match s.world.tasks[i]?, w'.tasks[i]? with
    | some { inherited := _, current := _, frames := frame :: _ }, some task =>
      ([], [{ ref := frame.handle.ref, current := task.current }])
    | _, _ => ([], [])
  | _ => ([], [])

def step (s : Observed) (event : TraceEvent) : Option Observed :=
  (s.world.step event).map fun w' =>
    { world := w'
      openings := s.openings ++ (s.log w' event).1
      closings := s.closings ++ (s.log w' event).2 }

end Observed

/-- The tasks under every order of their steps. -/
def observed : Machine Observed TraceEvent where
  init := .init
  step := Observed.step

/-- The spans of the blocks that a task is in. -/
def openIn (task : Task) : List Nat := task.frames.map fun frame => frame.handle.spanId

/-- The spans of the blocks that tasks are in. -/
def openSpans (w : Traced) : List Nat := w.tasks.flatMap openIn

/-- Trace trees are well formed. -/
structure WellFormed (s : Observed) : Prop where
  /-- A span that was opened is emitted once, or its block is not left yet. -/
  once : ∀ o ∈ s.openings,
    (s.world.tracer.recorded.map Span.spanId).count o.ref.spanId +
      (openSpans s.world).count o.ref.spanId = 1
  /-- It is emitted when its block is left. -/
  onExit : s.world.tracer.recorded.map Span.spanId = s.closings.map fun c => c.ref.spanId
  /-- It is emitted below the span that it was opened in, and in that one's trace. -/
  parent : ∀ span ∈ s.world.tracer.recorded, ∃ o ∈ s.openings,
    span.spanId = o.ref.spanId ∧ span.parentSpanId = o.innermost.map SpanRef.spanId ∧
      ∀ parent ∈ o.innermost, span.traceId = parent.traceId
  /-- Two tasks that were created outside any span share no trace. -/
  separate : ∀ o ∈ s.openings, ∀ o' ∈ s.openings, o.task ≠ o'.task → o.inherited = none →
    o'.inherited = none → o.ref.traceId ≠ o'.ref.traceId
  /-- A block leaves `current_span()` as it was before it. -/
  restored : ∀ c ∈ s.closings, ∃ o ∈ s.openings, o.ref = c.ref ∧ c.current = o.current

/-! ## What an event does -/

variable {s s' : Observed} {i : Nat} {task : Task} {frame : Frame} {frames : List Frame}

/-- A block that is entered, with its frame. -/
def opening (i : Nat) (task : Task) (frame : Frame) : Opening where
  task := i
  inherited := task.inherited
  innermost := (task.frames.head?.map fun f => f.handle.ref).or task.inherited
  current := task.current
  ref := frame.handle.ref

/-- What entering a span does. -/
theorem step_enter {name : PyStr} {kind : SpanKind} {attributes : Attributes} {now : Rat}
    (h : s.step (.enter i name kind attributes now) = some s') :
    ∃ task frame tracer, s.world.tasks[i]? = some task ∧
      s.world.tracer.enter task.current name kind attributes now = (frame, tracer) ∧
      s' =
        { world :=
            { tracer
              tasks := s.world.tasks.set i
                { task with current := some frame.handle.ref, frames := frame :: task.frames } }
          openings := s.openings ++ [opening i task frame]
          closings := s.closings } := by
  obtain ⟨w', hw', rfl⟩ := Option.map_eq_some_iff.mp h
  obtain ⟨task, htask, rfl⟩ := Option.map_eq_some_iff.mp hw'
  have hlt := (List.getElem?_eq_some_iff.mp htask).1
  generalize henter : s.world.tracer.enter task.current name kind attributes now = entered
  obtain ⟨frame, tracer⟩ := entered
  refine ⟨task, frame, tracer, htask, henter, ?_⟩
  simp only [Observed.log, htask, List.getElem?_set_self hlt, List.append_nil, opening]

/-- What the end of one does. -/
theorem step_exit {body recorder : Ending} {now : Rat}
    (h : s.step (.exit i body recorder now) = some s') :
    ∃ task frame frames, s.world.tasks[i]? = some task ∧ task.frames = frame :: frames ∧
      s' =
        { world :=
            { tracer := (s.world.tracer.exit frame body recorder now).2
              tasks := s.world.tasks.set i
                { task with current := frame.token, frames := frames } }
          openings := s.openings
          closings := s.closings ++ [{ ref := frame.handle.ref, current := frame.token }] } := by
  obtain ⟨w', hw', rfl⟩ := Option.map_eq_some_iff.mp h
  simp only [Traced.step] at hw'
  split at hw'
  · rename_i inherited current frame frames htask
    have hlt := (List.getElem?_eq_some_iff.mp htask).1
    refine ⟨_, frame, frames, htask, rfl, ?_⟩
    rw [← Option.some.inj hw']
    simp only [Observed.log, htask, List.getElem?_set_self hlt, List.append_nil]
  · exact nomatch hw'

/-- What a mark does. -/
theorem step_annotate {spanId : Nat} {mark : Mark}
    (h : s.step (.annotate spanId mark) = some s') :
    s' = { s with world :=
      { s.world with tasks := s.world.tasks.map (Task.annotate spanId mark) } } := by
  rw [← Option.some.inj h]
  simp only [Observed.log, List.append_nil]

/-- What spawning a task does. -/
theorem step_spawn (h : s.step (.spawn i) = some s') :
    ∃ task, s.world.tasks[i]? = some task ∧
      s' = { s with world :=
        { s.world with
          tasks := s.world.tasks ++
            [{ inherited := task.current, current := task.current, frames := [] }] } } := by
  obtain ⟨w', hw', rfl⟩ := Option.map_eq_some_iff.mp h
  obtain ⟨task, htask, rfl⟩ := Option.map_eq_some_iff.mp hw'
  refine ⟨task, htask, ?_⟩
  simp only [Observed.log, List.append_nil]

/-! ## The invariant -/

/-- The frames of a task are chained: the context holds the innermost span, and each token the
    next one. -/
def Chained (inherited : Option SpanRef) : List Frame → Option SpanRef → Prop
  | [], current => current = inherited
  | frame :: frames, current =>
    current = some frame.handle.ref ∧ Chained inherited frames frame.token

/-- The block of a frame is in the log. -/
def Logged (s : Observed) (i : Nat) (task : Task) (frame : Frame) : Prop :=
  ∃ o ∈ s.openings, o.task = i ∧ o.inherited = task.inherited ∧ o.ref = frame.handle.ref ∧
    frame.handle.parentSpanId = o.innermost.map SpanRef.spanId ∧ o.current = frame.token

structure Kept (s : Observed) : Prop where
  chained : ∀ (i : Nat) task, s.world.tasks[i]? = some task →
    Chained task.inherited task.frames task.current
  logged : ∀ (i : Nat) task, s.world.tasks[i]? = some task → ∀ frame ∈ task.frames,
    Logged s i task frame
  bounded : ∀ (i : Nat) task, s.world.tasks[i]? = some task → ∀ parent ∈ task.inherited,
    parent.traceId < s.world.tracer.nextId
  fresh : ∀ o ∈ s.openings,
    o.ref.spanId < s.world.tracer.nextId ∧ o.ref.traceId < s.world.tracer.nextId
  sameTrace : ∀ o ∈ s.openings, ∀ parent ∈ o.innermost, o.ref.traceId = parent.traceId
  distinct : (s.openings.map fun o => o.ref.spanId).Nodup
  perm : (s.world.tracer.recorded.map Span.spanId ++ openSpans s.world).Perm
    (s.openings.map fun o => o.ref.spanId)
  onExit : s.world.tracer.recorded.map Span.spanId = s.closings.map fun c => c.ref.spanId
  parent : ∀ span ∈ s.world.tracer.recorded, ∃ o ∈ s.openings,
    span.spanId = o.ref.spanId ∧ span.traceId = o.ref.traceId ∧
      span.parentSpanId = o.innermost.map SpanRef.spanId
  separate : ∀ o ∈ s.openings, ∀ o' ∈ s.openings, o.task ≠ o'.task → o.inherited = none →
    o'.inherited = none → o.ref.traceId ≠ o'.ref.traceId
  restored : ∀ c ∈ s.closings, ∃ o ∈ s.openings, o.ref = c.ref ∧ c.current = o.current

/-- What the context holds is the innermost span still open, or else the inherited one. -/
theorem Chained.current_eq {inherited current : Option SpanRef}
    (h : Chained inherited frames current) :
    current = (frames.head?.map fun f => f.handle.ref).or inherited := by
  cases frames with
  | nil => exact h
  | cons frame frames => exact h.1

/-- The current span of a task is of a trace that there is. -/
theorem Kept.current_lt (h : Kept s) (htask : s.world.tasks[i]? = some task) :
    ∀ parent ∈ task.current, parent.traceId < s.world.tracer.nextId := by
  intro parent hparent
  have hchained := h.chained i task htask
  cases hframes : task.frames with
  | nil =>
    rw [hframes] at hchained
    exact h.bounded i task htask parent (hchained ▸ hparent)
  | cons frame frames =>
    rw [hframes] at hchained
    obtain ⟨o, ho, -, -, href, -⟩ := h.logged i task htask frame (hframes ▸ List.mem_cons_self)
    have hsame : o.ref = parent := href.trans (Option.some.inj (hchained.1.symm.trans hparent))
    exact hsame ▸ (h.fresh o ho).2

/-- A task that began outside any span continues only traces of its own. -/
theorem Kept.separate_current (h : Kept s) (htask : s.world.tasks[i]? = some task)
    (hroot : task.inherited = none) {parent : SpanRef} (hparent : task.current = some parent)
    {o : Opening} (ho : o ∈ s.openings) (hne : o.task ≠ i) (hroot' : o.inherited = none) :
    parent.traceId ≠ o.ref.traceId := by
  have hchained := h.chained i task htask
  cases hframes : task.frames with
  | nil =>
    rw [hframes, Chained, hroot, hparent] at hchained
    exact nomatch hchained
  | cons frame frames =>
    rw [hframes] at hchained
    obtain ⟨own, hown, htaskOwn, hinherited, href, -⟩ :=
      h.logged i task htask frame (hframes ▸ List.mem_cons_self)
    have hsame : own.ref = parent := href.trans (Option.some.inj (hchained.1.symm.trans hparent))
    rw [← hsame]
    exact h.separate own hown o ho (htaskOwn ▸ hne.symm) (hinherited.trans hroot) hroot'

/-- What is logged stays logged. -/
theorem Logged.mono {s s' : Observed} (hsubset : s.openings ⊆ s'.openings)
    (h : Logged s i task frame) : Logged s' i task frame := by
  obtain ⟨o, ho, hrest⟩ := h
  exact ⟨o, hsubset ho, hrest⟩

/-- `Kept` is kept when a block is entered. -/
theorem Kept.enter {name : PyStr} {kind : SpanKind} {attributes : Attributes} {now : Rat}
    (h : Kept s) (hstep : s.step (.enter i name kind attributes now) = some s') : Kept s' := by
  obtain ⟨task, frame, tracer, htask, henter, rfl⟩ := step_enter hstep
  have hspec := Tracer.entered_of_eq henter
  have hlt : s.world.tracer.nextId < tracer.nextId := Nat.lt_of_le_of_lt hspec.newSpan hspec.spanId_lt
  have hinnermost : (opening i task frame).innermost = task.current :=
    (h.chained i task htask).current_eq.symm
  have hgrows : s.openings ⊆ s.openings ++ [opening i task frame] := List.subset_append_left _ _
  -- The trace of the new span is not one drawn later
  have htraceLt : frame.handle.traceId < tracer.nextId := by
    cases hcurrent : task.current with
    | none =>
      rw [hspec.newTrace hcurrent]
      exact hlt
    | some parent =>
      rw [hspec.sameTrace parent hcurrent]
      exact (h.current_lt htask parent hcurrent).trans hlt
  -- A trace it continues is its own, and a new one is nobody's.
  have hseparate : ∀ o ∈ s.openings, o.task ≠ i → task.inherited = none → o.inherited = none →
      frame.handle.traceId ≠ o.ref.traceId := by
    intro o ho hne hroot hroot'
    cases hcurrent : task.current with
    | none =>
      rw [hspec.newTrace hcurrent]
      exact (Nat.ne_of_lt (h.fresh o ho).2).symm
    | some parent =>
      rw [hspec.sameTrace parent hcurrent]
      exact h.separate_current htask hroot hcurrent ho hne hroot'
  constructor
  case chained =>
    intro j other hother
    obtain ⟨-, hother⟩ | ⟨rfl, rfl⟩ := List.getElem?_set_cases hother
    · exact h.chained j other hother
    · exact ⟨rfl, hspec.token ▸ h.chained j task htask⟩
  case logged =>
    intro j other hother f hf
    obtain ⟨-, hother⟩ | ⟨rfl, rfl⟩ := List.getElem?_set_cases hother
    · exact (h.logged j other hother f hf).mono hgrows
    · rcases List.mem_cons.mp hf with rfl | hf
      · exact ⟨_, List.mem_append_right _ List.mem_cons_self, rfl, rfl, rfl,
          hspec.parent.trans (congrArg _ hinnermost.symm), hspec.token.symm⟩
      · exact (h.logged j task htask f hf).mono hgrows
  case bounded =>
    intro j other hother parent hp
    obtain ⟨-, hother⟩ | ⟨rfl, rfl⟩ := List.getElem?_set_cases hother
    · exact (h.bounded j other hother parent hp).trans hlt
    · exact (h.bounded j task htask parent hp).trans hlt
  case fresh =>
    intro o ho
    rcases List.mem_append.mp ho with ho | ho
    · exact ⟨(h.fresh o ho).1.trans hlt, (h.fresh o ho).2.trans hlt⟩
    · rw [List.mem_singleton.mp ho]
      exact ⟨hspec.spanId_lt, htraceLt⟩
  case sameTrace =>
    intro o ho parent hp
    rcases List.mem_append.mp ho with ho | ho
    · exact h.sameTrace o ho parent hp
    · rw [List.mem_singleton.mp ho] at hp ⊢
      rw [hinnermost] at hp
      exact hspec.sameTrace parent hp
  case distinct =>
    rw [List.map_append, List.map_singleton, ← List.concat_eq_append, List.nodup_concat]
    refine ⟨fun hmem => ?_, h.distinct⟩
    obtain ⟨o, ho, heq⟩ := List.mem_map.mp hmem
    exact absurd (h.fresh o ho).1 (Nat.not_lt.mpr (heq ▸ hspec.newSpan))
  -- The new span is open, and every other where it was
  case perm =>
    have hopen := List.perm_cons_of_append (List.flatMap_set_perm (f := openIn) htask
      { task with current := some frame.handle.ref, frames := frame :: task.frames })
    rw [openSpans, hspec.recorded, List.map_append, List.map_singleton]
    refine (hopen.append_left _).trans ?_
    refine List.perm_middle.trans ?_
    exact (h.perm.cons _).trans (List.perm_append_singleton _ _).symm
  case onExit =>
    simp only [hspec.recorded]
    exact h.onExit
  case parent =>
    intro span hspan
    simp only [hspec.recorded] at hspan
    obtain ⟨o, ho, hrest⟩ := h.parent span hspan
    exact ⟨o, hgrows ho, hrest⟩
  -- Of two tasks that inherit nothing, at most one opens the new span
  case separate =>
    intro o ho o' ho' hne hroot hroot'
    rcases List.mem_append.mp ho with ho | ho
    · rcases List.mem_append.mp ho' with ho' | ho'
      · exact h.separate o ho o' ho' hne hroot hroot'
      · rw [List.mem_singleton.mp ho'] at hne hroot' ⊢
        exact (hseparate o ho hne hroot' hroot).symm
    · rw [List.mem_singleton.mp ho] at hne hroot ⊢
      rcases List.mem_append.mp ho' with ho' | ho'
      · exact hseparate o' ho' (Ne.symm hne) hroot hroot'
      · rw [List.mem_singleton.mp ho'] at hne
        exact absurd rfl hne
  case restored =>
    intro c hc
    obtain ⟨o, ho, hrest⟩ := h.restored c hc
    exact ⟨o, hgrows ho, hrest⟩

/-- `Kept` is kept when a block is left. -/
theorem Kept.exit {body recorder : Ending} {now : Rat} (h : Kept s)
    (hstep : s.step (.exit i body recorder now) = some s') : Kept s' := by
  obtain ⟨task, frame, frames, htask, hframes, rfl⟩ := step_exit hstep
  have hchained := h.chained i task htask
  rw [hframes] at hchained
  obtain ⟨o, ho, -, -, href, hparent, hcurrent⟩ :=
    h.logged i task htask frame (hframes ▸ List.mem_cons_self)
  have hspan : ∀ durationMs, ((frame.handle.ended body).toSpan durationMs).spanId =
      frame.handle.spanId := fun _ => frame.handle.ended_spanId body
  constructor
  case chained =>
    intro j other hother
    obtain ⟨-, hother⟩ | ⟨rfl, rfl⟩ := List.getElem?_set_cases hother
    · exact h.chained j other hother
    · exact hchained.2
  case logged =>
    intro j other hother f hf
    obtain ⟨-, hother⟩ | ⟨rfl, rfl⟩ := List.getElem?_set_cases hother
    · exact h.logged j other hother f hf
    · exact h.logged j task htask f (hframes ▸ List.mem_cons_of_mem _ hf)
  case bounded =>
    intro j other hother parent hp
    rw [Tracer.exit_nextId]
    obtain ⟨-, hother⟩ | ⟨rfl, rfl⟩ := List.getElem?_set_cases hother
    · exact h.bounded j other hother parent hp
    · exact h.bounded j task htask parent hp
  case fresh =>
    intro o ho
    rw [Tracer.exit_nextId]
    exact h.fresh o ho
  case sameTrace => exact h.sameTrace
  case distinct => exact h.distinct
  -- The innermost span moves from the open ones to the recorded
  case perm =>
    have hset := List.flatMap_set_perm (f := openIn) htask
      { task with current := frame.token, frames := frames }
    have hopenIn : openIn task =
        frame.handle.spanId :: openIn { task with current := frame.token, frames := frames } := by
      rw [openIn, hframes]
      rfl
    rw [hopenIn] at hset
    have hopen := List.perm_cons_of_append hset.symm
    rw [openSpans, Tracer.exit_recorded, List.map_append, List.map_singleton, hspan,
      List.append_assoc, List.singleton_append]
    exact (hopen.symm.append_left _).trans h.perm
  case onExit =>
    rw [Tracer.exit_recorded, List.map_append, List.map_singleton, hspan, List.map_append,
      List.map_singleton, h.onExit]
    rfl
  -- It is recorded under the parent it was opened under
  case parent =>
    intro span hmem
    rw [Tracer.exit_recorded, List.mem_append, List.mem_singleton] at hmem
    rcases hmem with hmem | rfl
    · exact h.parent span hmem
    · refine ⟨o, ho, ?_, ?_, ?_⟩
      · rw [hspan, href]
        rfl
      · rw [href]
        exact frame.handle.ended_traceId body
      · rw [← hparent]
        exact frame.handle.ended_parentSpanId body
  case separate => exact h.separate
  -- And the context is the one from before it was opened
  case restored =>
    intro c hc
    rcases List.mem_append.mp hc with hc | hc
    · exact h.restored c hc
    · rw [List.mem_singleton.mp hc]
      exact ⟨o, ho, href, hcurrent.symm⟩

/-- `Chained` is kept when a span is annotated. -/
theorem Chained.annotate {inherited current : Option SpanRef} (spanId : Nat) (mark : Mark)
    (h : Chained inherited frames current) :
    Chained inherited (frames.map (Frame.annotate spanId mark)) current := by
  induction frames generalizing current with
  | nil => exact h
  | cons frame frames ih =>
    refine ⟨?_, ?_⟩
    · rw [Frame.annotate_ref]
      exact h.1
    · rw [Frame.annotate_token]
      exact ih h.2

/-- A mark opens no span. -/
theorem openIn_annotate (spanId : Nat) (mark : Mark) (task : Task) :
    openIn (task.annotate spanId mark) = openIn task := by
  rw [openIn, Task.annotate, List.map_map]
  apply List.map_congr_left
  intro frame _
  exact congrArg SpanRef.spanId (Frame.annotate_ref spanId mark frame)

/-- `Kept` is kept by a mark. -/
theorem Kept.annotate {spanId : Nat} {mark : Mark} (h : Kept s)
    (hstep : s.step (.annotate spanId mark) = some s') : Kept s' := by
  obtain rfl := step_annotate hstep
  have htasks : ∀ {j : Nat} {other : Task},
      (s.world.tasks.map (Task.annotate spanId mark))[j]? = some other →
        ∃ task, s.world.tasks[j]? = some task ∧ other = task.annotate spanId mark := by
    intro j other hother
    rw [List.getElem?_map] at hother
    obtain ⟨task, htask, rfl⟩ := Option.map_eq_some_iff.mp hother
    exact ⟨task, htask, rfl⟩
  constructor
  case chained =>
    intro j other hother
    obtain ⟨task, htask, rfl⟩ := htasks hother
    exact (h.chained j task htask).annotate spanId mark
  case logged =>
    intro j other hother f hf
    obtain ⟨task, htask, rfl⟩ := htasks hother
    obtain ⟨frame, hframe, rfl⟩ := List.mem_map.mp hf
    obtain ⟨o, ho, htaskId, hinherited, href, hparent, hcurrent⟩ :=
      h.logged j task htask frame hframe
    refine ⟨o, ho, htaskId, hinherited, ?_, ?_, ?_⟩
    · rw [Frame.annotate_ref, href]
    · rw [Frame.annotate_parentSpanId, hparent]
    · rw [Frame.annotate_token, hcurrent]
  case bounded =>
    intro j other hother
    obtain ⟨task, htask, rfl⟩ := htasks hother
    exact h.bounded j task htask
  case perm =>
    have hopen : (s.world.tasks.map (Task.annotate spanId mark)).flatMap openIn =
        s.world.tasks.flatMap openIn := by
      rw [List.flatMap_map]
      exact List.flatMap_congr fun task _ => openIn_annotate spanId mark task
    rw [openSpans, hopen]
    exact h.perm
  case fresh => exact h.fresh
  case sameTrace => exact h.sameTrace
  case distinct => exact h.distinct
  case onExit => exact h.onExit
  case parent => exact h.parent
  case separate => exact h.separate
  case restored => exact h.restored

/-- `Kept` is kept when a task is created, which is in no block yet. -/
theorem Kept.spawn (h : Kept s) (hstep : s.step (.spawn i) = some s') : Kept s' := by
  obtain ⟨task, htask, rfl⟩ := step_spawn hstep
  constructor
  case chained =>
    intro j other hother
    obtain hother | ⟨-, rfl⟩ := List.getElem?_concat_cases hother
    · exact h.chained j other hother
    · rfl
  case logged =>
    intro j other hother f hf
    obtain hother | ⟨-, rfl⟩ := List.getElem?_concat_cases hother
    · exact h.logged j other hother f hf
    · exact nomatch hf
  case bounded =>
    intro j other hother
    obtain hother | ⟨-, rfl⟩ := List.getElem?_concat_cases hother
    · exact h.bounded j other hother
    · exact h.current_lt htask
  case perm =>
    rw [openSpans, List.flatMap_append]
    simp only [List.flatMap_singleton, openIn, List.map_nil, List.append_nil]
    exact h.perm
  case fresh => exact h.fresh
  case sameTrace => exact h.sameTrace
  case distinct => exact h.distinct
  case onExit => exact h.onExit
  case parent => exact h.parent
  case separate => exact h.separate
  case restored => exact h.restored

/-- `Kept` holds at first. -/
theorem kept_init : Kept .init := by
  have first : ∀ (j : Nat) task, Observed.init.world.tasks[j]? = some task →
      task = { inherited := none, current := none, frames := [] } := by
    intro j task htask
    exact List.mem_singleton.mp (List.mem_of_getElem? htask)
  constructor
  case chained =>
    intro j task htask
    rw [first j task htask]
    rfl
  case logged =>
    intro j task htask
    rw [first j task htask]
    exact nofun
  case bounded =>
    intro j task htask
    rw [first j task htask]
    exact nofun
  case perm => exact .nil
  case onExit => rfl
  case distinct => exact List.nodup_nil
  all_goals exact nofun

/-- `Kept` holds in every reachable state of the observed tasks. -/
theorem kept {s : Observed} (h : observed.Reachable s) : Kept s := by
  refine h.invariant kept_init fun s event s' hkept _ hstep => ?_
  cases event with
  | enter => exact hkept.enter hstep
  | exit => exact hkept.exit hstep
  | annotate => exact hkept.annotate hstep
  | spawn => exact hkept.spawn hstep

/-! ## The law -/

/-- `WellFormed` holds in every reachable state, whatever the tasks do and in whatever order. -/
theorem traces_well_formed {s : Observed} (h : observed.Reachable s) : WellFormed s := by
  have hkept := kept h
  constructor
  case once =>
    intro o ho
    have hcount := hkept.perm.count_eq o.ref.spanId
    rw [List.count_append] at hcount
    rw [hcount]
    exact List.count_eq_one_of_mem hkept.distinct (List.mem_map_of_mem ho)
  case onExit => exact hkept.onExit
  case parent =>
    intro span hspan
    obtain ⟨o, ho, hid, htrace, hparent⟩ := hkept.parent span hspan
    refine ⟨o, ho, hid, hparent, fun parent hmem => ?_⟩
    rw [htrace]
    exact hkept.sameTrace o ho parent hmem
  case separate => exact hkept.separate
  case restored => exact hkept.restored

/-- A request, and a tool in a task of its own that raises, while the recorder raises too. -/
def toolRaises : List TraceEvent :=
  [.enter 0 (lit "request") .request [] 0, .spawn 0, .enter 1 (lit "tool.run") .tool [] 1,
    .exit 1 (.raised (lit "ToolError") true) (.raised (lit "OSError") true) 2,
    .exit 0 .returned .returned 3]

/-- A tool that raises, and its trace. -/
theorem traces_well_formed_toolRaises :
    ∃ s, observed.run toolRaises = some s ∧ WellFormed s :=
  ⟨_, rfl, traces_well_formed (observed.reachable_of_run toolRaises rfl)⟩

end NexaAssist.Spec.TraceTrees
