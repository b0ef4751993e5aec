import NexaAssist.Frontend.ConversationIndex

/-!
# What the stored list of conversations keeps

Every call writes the list of its tab over what is stored. So a conversation is kept just if the
tabs that write have it in their lists.

## Key results

- `kept_step_iff`: what one step does to a list that keeps everything
- `stored_kept_iff`: and any steps of any tabs
-/

namespace NexaAssist.Spec.StoredIndex

open NexaAssist.Frontend PyJson

/-! ## Conversations that are not forgotten -/

/-- What is remembered after a call, in any tab, that was remembered before or is now: the last
    one first. -/
def remembering (live : List JsString) : IndexCall → List JsString
  | .remember id _ => id :: live.filter (· ≠ id)
  | .nameIfUnnamed _ _ => live
  | .forget id => live.filter (· ≠ id)

/-- A browser, and the conversations that some tab has remembered and none has forgotten since,
    the last one remembered first. -/
structure Watched where
  browser : Browser
  live : List JsString

/-- The steps of any number of tabs, in any order. -/
def watched : Machine Watched BrowserEvent where
  init := { browser := .init, live := [] }
  step w e :=
    (w.browser.step e).map fun browser =>
      { browser
        live := match e with
          | .mount => w.live
          | .call _ _ call => remembering w.live call }

/-- The newest are stored. -/
def Kept (w : Watched) : Prop :=
  ∀ id ∈ w.live.take MAX_ENTRIES, id ∈ ids (readIndex w.browser.stored)

/-! ## Writing -/

/-- The list of a tab has all the conversations that are to be stored after its call: the newest
    of all, or, behind one that is remembered, the newest of the others, and before any that
    there is no room for. A call that writes nothing needs none. -/
def UpToDate (current : List IndexedConversation) (live : List JsString) : IndexCall → Prop
  | .remember id _ => ∀ other ∈ (live.filter (· ≠ id)).take (MAX_ENTRIES - 1),
      other ∈ ((ids current).filter (· ≠ id)).take (MAX_ENTRIES - 1)
  | .nameIfUnnamed id question => nameIfUnnamed current id question ≠ none →
      ∀ other ∈ live.take MAX_ENTRIES, other ∈ ids current
  | .forget id => ∀ other ∈ (live.filter (· ≠ id)).take MAX_ENTRIES, other ∈ ids current

instance (current : List IndexedConversation) (live : List JsString) (call : IndexCall) :
    Decidable (UpToDate current live call) := by
  unfold UpToDate
  split <;> infer_instance

/-- A list that is written has the newest conversations just if the list it was made from is up to
    date. -/
theorem kept_written_iff {current updated : List IndexedConversation} {live : List JsString}
    {now : Int} {call : IndexCall} (h : written now current call = some updated) :
    (∀ other ∈ (remembering live call).take MAX_ENTRIES, other ∈ ids updated) ↔
      UpToDate current live call := by
  cases call with
  -- The call drops whatever is past the last place
  | remember id title =>
    obtain rfl := Option.some.inj h
    have hroom : MAX_ENTRIES = (MAX_ENTRIES - 1) + 1 := by decide
    rw [ids_remember, remembering, hroom, List.take_succ_cons, List.take_succ_cons,
      List.forall_mem_cons, and_iff_right List.mem_cons_self]
    constructor
    · intro hall other hother
      have hne : other ≠ id := by simpa using (List.mem_filter.mp (List.mem_of_mem_take hother)).2
      exact (List.mem_cons.mp (hall other hother)).resolve_left hne
    · intro hall other hother
      exact List.mem_cons_of_mem id (hall other hother)
  -- Naming changes no id
  | nameIfUnnamed id question =>
    have hnamed : nameIfUnnamed current id question = some updated := h
    obtain hsame | ⟨rename, hrename, hfields⟩ := nameIfUnnamed_cases current id question
    · rw [hsame] at hnamed
      exact nomatch hnamed
    · rw [hrename, Option.some.injEq] at hnamed
      subst hnamed
      have hids : ids (current.map rename) = ids current := by
        simp [ids, Function.comp_def, hfields]
      rw [hids]
      exact ⟨fun hall _ => hall, fun hall => hall (by simp [hrename])⟩
  -- Forgetting drops the one it is asked to
  | forget id =>
    obtain rfl := Option.some.inj h
    show (∀ other ∈ (live.filter (· ≠ id)).take MAX_ENTRIES, other ∈ ids (others current id)) ↔ _
    rw [ids_others]
    constructor
    · intro hall other hother
      exact (List.mem_filter.mp (hall other hother)).1
    · intro hall other hother
      have hne := (List.mem_filter.mp (List.mem_of_mem_take hother)).2
      exact List.mem_filter.mpr ⟨hall other hother, hne⟩

/-- A step that writes nothing remembers nothing and forgets nothing. -/
theorem remembering_of_not_written {now : Int} {current : List IndexedConversation}
    (live : List JsString) {call : IndexCall} (h : written now current call = none) :
    remembering live call = live ∧ UpToDate current live call := by
  cases call with
  | remember id title => exact nomatch h
  | nameIfUnnamed id question => exact ⟨rfl, fun hsome => absurd h hsome⟩
  | forget id => exact nomatch h

/-! ## Runs -/

/-- The tab that makes a call is up to date. -/
def WritesUpToDate (w : Watched) : BrowserEvent → Prop
  | .mount => True
  | .call tab _ call => ∀ current ∈ w.browser.tabs[tab]?, UpToDate current w.live call

instance (w : Watched) (e : BrowserEvent) : Decidable (WritesUpToDate w e) := by
  unfold WritesUpToDate
  split <;> infer_instance

/-- A step keeps the stored index just if it writes what is up to date. -/
theorem kept_step_iff {w w' : Watched} {e : BrowserEvent} (hkept : Kept w)
    (h : watched.step w e = some w') : Kept w' ↔ WritesUpToDate w e := by
  obtain ⟨browser, hstep, rfl⟩ := Option.map_eq_some_iff.mp h
  cases e with
  | mount =>
    obtain rfl := Option.some.inj hstep
    exact iff_of_true hkept trivial
  | call tab now call =>
    obtain ⟨current, hcurrent, rfl⟩ := Option.map_eq_some_iff.mp hstep
    have hone : WritesUpToDate w (.call tab now call) ↔ UpToDate current w.live call := by
      simp [WritesUpToDate, hcurrent]
    rw [hone]
    cases hwritten : written now current call with
    | none =>
      obtain ⟨hlive, hready⟩ := remembering_of_not_written w.live hwritten
      refine iff_of_true ?_ hready
      show ∀ id ∈ (remembering w.live call).take MAX_ENTRIES, id ∈ ids (readIndex w.browser.stored)
      rw [hlive]
      exact hkept
    | some updated =>
      rw [← kept_written_iff hwritten, Kept]
      simp only [readIndex_writeIndex]

/-- After every step of any number of tabs, in any order, the newest of the conversations that are
    remembered and not forgotten are stored just if every call is made by a tab whose list has
    those that it has to write. -/
theorem stored_kept_iff (events : List BrowserEvent) :
    (∀ before w, before <+: events → watched.run before = some w → Kept w) ↔
      watched.Meets WritesUpToDate watched.init events := by
  have hinit : Kept watched.init := by simp [Kept, watched]
  refine Machine.always_iff_meets (fun _ => True) Kept (fun _ _ _ _ _ => trivial) ?_ ?_ trivial
    hinit events
  · exact fun w e w' _ hkept hstep => kept_step_iff hkept hstep
  · intro w e hstuck
    cases e with
    | mount => trivial
    | call tab now call =>
      intro current hcurrent
      simp [watched, Browser.step, Option.mem_def.mp hcurrent] at hstuck

/-- Two tabs are open when one conversation is started in each, and the second one's list takes the
    place of the first one's. -/
theorem second_tab_overwrites :
    ¬∀ events w, watched.run events = some w → Kept w := by
  intro hall
  have hkept := hall [.mount, .mount, .call 0 1 (.remember (.ofAscii "c1") UNTITLED),
    .call 1 2 (.remember (.ofAscii "c2") UNTITLED)] _ rfl
  have hstored := hkept (.ofAscii "c1") (by decide +kernel)
  revert hstored
  decide +kernel

end NexaAssist.Spec.StoredIndex
