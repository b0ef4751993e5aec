import Mathlib.Data.List.DropRight
import NexaAssist.Frontend.ApiKey

/-!
# Every tab sends the key that is stored

A tab whose key is not the stored one is about to hear of a change, as long as the storage lets
every call through and no announcement comes to a tab between its rendering and its effect.

## Key results

- `inv_step`: what one step keeps
- `tabs_follow`: any steps of any tabs, in any order
-/

namespace NexaAssist.Spec.SharedKey

open NexaAssist.Frontend UseApiKey PyJson

variable {Tab : Type} [DecidableEq Tab]

/-! ## Keys -/

/-- What is no white space stays behind the white space in front. -/
theorem mem_dropWhile {text : JsString} {unit : JsUnit} (hmem : unit ∈ text)
    (hsolid : isSpaceUnit unit = false) : unit ∈ text.dropWhile isSpaceUnit := by
  rw [← List.takeWhile_append_dropWhile (p := isSpaceUnit) (l := text), List.mem_append] at hmem
  obtain hspace | hrest := hmem
  · rw [List.mem_takeWhile_imp hspace] at hsolid
    cases hsolid
  · exact hrest

/-- `trim` leaves something of a trimmed text that is not blank. -/
theorem trim_trim_ne_nil {text : JsString} (h : trim text ≠ []) : trim (trim text) ≠ [] := by
  have hlast : isSpaceUnit ((trim text).getLast h) = false := by
    have hnot := List.rdropWhile_last_not isSpaceUnit (text.dropWhile isSpaceUnit) h
    rwa [Bool.not_eq_true] at hnot
  have hleft := mem_dropWhile (List.getLast_mem h) hlast
  have hright := mem_dropWhile (List.mem_reverse.mpr hleft) hlast
  exact List.ne_nil_of_mem (List.mem_reverse.mpr hright)

/-- The key the storage holds. -/
def stored (s : KeyTabs Tab) : Option JsString := readKey (s.storage STORAGE_KEY)

/-- `readKey` reads back the key that `write` has stored. -/
theorem readKey_write {storage : LocalStorage} {apiKey : Option JsString}
    (hkey : ∀ key ∈ apiKey, trim key ≠ []) :
    readKey (storage.apply (write apiKey) STORAGE_KEY) = apiKey := by
  cases apiKey with
  | none => simp [write, LocalStorage.apply, readKey]
  | some key => simp [write, LocalStorage.apply, readKey, Option.filter_some, hkey key rfl]

/-- `readKey` reads the same behind a change of another key. -/
theorem readKey_apply {storage : LocalStorage} {change : StorageChange}
    (hsilent : ∀ key ∈ storage.announced change, concerns key = false) :
    storage.apply change STORAGE_KEY = storage STORAGE_KEY := by
  cases change with
  -- A write of the same value is not announced, and changes nothing
  | setItem key value =>
    simp only [LocalStorage.announced] at hsilent
    simp only [LocalStorage.apply]
    split at hsilent
    · rename_i hsame
      split
      · rename_i heq
        rw [heq, hsame]
      · rfl
    · have hother := hsilent _ rfl
      have hne : STORAGE_KEY ≠ key := by
        rintro rfl
        simp [concerns] at hother
      rw [if_neg hne]
  | removeItem key =>
    simp only [LocalStorage.announced] at hsilent
    simp only [LocalStorage.apply]
    split at hsilent
    · rename_i hsame
      split
      · rename_i heq
        rw [heq, hsame]
      · rfl
    · have hother := hsilent _ rfl
      have hne : STORAGE_KEY ≠ key := by
        rintro rfl
        simp [concerns] at hother
      rw [if_neg hne]
  | clear => exact absurd (hsilent none rfl) (by simp [concerns])

/-! ## What holds of a tab -/

/-- The key of a tab is the stored one, or an announcement is on its way. -/
structure Follows (storage : LocalStorage) (tab : KeyTab) : Prop where
  key_eq : (∀ key ∈ tab.inbox, concerns key = false) →
    tab.apiKey = readKey (storage STORAGE_KEY)
  solid : ∀ key ∈ tab.apiKey, trim key ≠ []

/-- It holds of every tab that has been rendered. -/
def Inv (s : KeyTabs Tab) : Prop :=
  ∀ t tab, s.tabs t = some tab → tab.stage ≠ .loading → Follows s.storage tab

/-- `readKey` gives no key that is white space only. -/
theorem solid_readKey {stored : Option JsString} : ∀ key ∈ readKey stored, trim key ≠ [] := by
  intro key hkey
  simpa using (Option.filter_eq_some_iff.mp hkey).2

/-- A tab that reads the storage `Follows` it. -/
theorem Follows.read {storage : LocalStorage} (stage : HookStage) (inbox : List (Option JsString)) :
    Follows storage { stage, apiKey := UseApiKey.read true storage, inbox } :=
  ⟨fun _ => rfl, solid_readKey⟩

/-- A tab still `Follows` the storage when a change is made and announced to it. -/
theorem Follows.apply {storage : LocalStorage} {tab : KeyTab} (h : Follows storage tab)
    (change : StorageChange) : Follows (storage.apply change)
      { tab with inbox := tab.inbox ++ (storage.announced change).toList } := by
  refine ⟨fun hsilent => ?_, h.solid⟩
  have hbefore : ∀ key ∈ tab.inbox, concerns key = false :=
    fun key hkey => hsilent key (List.mem_append_left _ hkey)
  have hchange : ∀ key ∈ storage.announced change, concerns key = false :=
    fun key hkey => hsilent key (List.mem_append_right _ (Option.mem_toList.mpr hkey))
  rw [readKey_apply hchange]
  exact h.key_eq hbefore

namespace Inv

variable {s : KeyTabs Tab}

/-- `Inv` is kept when a tab changes, if it follows the storage. -/
theorem put (h : Inv s) {t : Tab} {tab : Option KeyTab}
    (htab : ∀ new ∈ tab, new.stage ≠ .loading → Follows s.storage new) : Inv (s.put t tab) := by
  intro other new hnew
  simp only [KeyTabs.put] at hnew
  split at hnew
  · exact htab new hnew
  · exact h other new hnew

/-- `Inv` is kept by a change of the storage that the other tabs are told of. -/
theorem change (h : Inv s) (source : Option Tab) (change : StorageChange) {t : Tab} {tab : KeyTab}
    (htab : (s.change source change).tabs t = some tab) (hother : some t ≠ source)
    (hstage : tab.stage ≠ .loading) : Follows (s.change source change).storage tab := by
  simp only [KeyTabs.change, if_neg hother] at htab
  obtain ⟨before, hbefore, rfl⟩ := Option.map_eq_some_iff.mp htab
  exact (h t before hbefore hstage).apply change

/-- `Inv` is kept when a tab writes a key, which it has itself. -/
theorem setKey (h : Inv s) (t : Tab) (tab : KeyTab) {apiKey : Option JsString}
    (hkey : ∀ key ∈ apiKey, trim key ≠ []) : Inv (s.setKey t tab apiKey true) := by
  intro other new hnew hstage
  simp only [KeyTabs.setKey, if_true, KeyTabs.put] at hnew ⊢
  split at hnew
  · obtain rfl := Option.some.inj hnew
    exact ⟨fun _ => (readKey_write hkey).symm, hkey⟩
  · rename_i hne
    exact h.change (some t) _ hnew (fun heq => hne (Option.some.inj heq)) hstage

end Inv

/-! ## Steps -/

/-- The storage does not throw, and no announcement that concerns the key reaches a tab that has
    been rendered and does not listen yet. -/
def Heard (s : KeyTabs Tab) : KeyEvent Tab → Prop
  | .render _ works | .save _ _ works | .clear _ works => works = true
  | .deliver t works => works = true ∧ ∀ tab ∈ s.tabs t, tab.stage = .rendered →
      ∀ key ∈ tab.inbox.head?, concerns key = false
  | .load _ | .effect _ | .close _ | .foreign _ => True

instance decidableHeard (s : KeyTabs Tab) (e : KeyEvent Tab) : Decidable (Heard s e) := by
  unfold Heard
  split <;> infer_instance

/-- `Inv` is kept by every step whose announcements are heard. -/
theorem inv_step {s s' : KeyTabs Tab} {e : KeyEvent Tab} (h : Inv s) (hheard : Heard s e)
    (hstep : s.step e = some s') : Inv s' := by
  cases e with
  -- A tab that loads has read nothing yet
  | load t =>
    simp only [KeyTabs.step] at hstep
    split at hstep
    · cases hstep
    · obtain rfl := Option.some.inj hstep
      refine h.put fun new hnew hstage => ?_
      obtain rfl := Option.some.inj hnew
      exact absurd rfl hstage
  -- The first render reads the store, when the store can be read
  | render t works =>
    obtain rfl : works = true := hheard
    simp only [KeyTabs.step] at hstep
    split at hstep
    · obtain rfl := Option.some.inj hstep
      refine h.put fun new hnew _ => ?_
      obtain rfl := Option.some.inj hnew
      exact .read _ _
    · cases hstep
  -- The effect only adds the listener
  | effect t =>
    simp only [KeyTabs.step] at hstep
    split at hstep
    · rename_i apiKey inbox htab
      obtain rfl := Option.some.inj hstep
      refine h.put fun new hnew _ => ?_
      obtain rfl := Option.some.inj hnew
      have hbefore := h t _ htab (by simp)
      exact ⟨hbefore.key_eq, hbefore.solid⟩
    · cases hstep
  -- A blank value is not saved, and any other is stored trimmed
  | save t value works =>
    obtain rfl : works = true := hheard
    simp only [KeyTabs.step] at hstep
    split at hstep
    · cases hstep
    · rename_i tab htab
      split at hstep
      · cases hstep
      · split at hstep
        · obtain rfl := Option.some.inj hstep
          exact h
        · rename_i hsolid
          obtain rfl := Option.some.inj hstep
          refine h.setKey t tab fun key hkey => ?_
          obtain rfl := Option.some.inj hkey
          exact trim_trim_ne_nil hsolid
  | clear t works =>
    obtain rfl : works = true := hheard
    simp only [KeyTabs.step] at hstep
    split at hstep
    · cases hstep
    · rename_i tab htab
      split at hstep
      · cases hstep
      · obtain rfl := Option.some.inj hstep
        exact h.setKey t tab (by simp)
  -- An announcement of the key is answered by reading it anew
  | deliver t works =>
    obtain ⟨rfl, hmounted⟩ := hheard
    simp only [KeyTabs.step] at hstep
    split at hstep
    · rename_i stage apiKey key inbox htab
      split at hstep
      · obtain rfl := Option.some.inj hstep
        refine h.put fun new hnew _ => ?_
        obtain rfl := Option.some.inj hnew
        exact .read _ _
      · rename_i hpassed
        obtain rfl := Option.some.inj hstep
        refine h.put fun new hnew hstage => ?_
        obtain rfl := Option.some.inj hnew
        have hbefore := h t _ htab hstage
        refine ⟨fun hsilent => hbefore.key_eq ?_, hbefore.solid⟩
        -- What was passed over did not concern the key
        have hkey : concerns key = false := by
          cases stage with
          | loading => exact absurd rfl hstage
          | rendered => exact hmounted _ htab rfl key rfl
          | listening => simpa using hpassed
        intro other hother
        obtain rfl | hrest := List.mem_cons.mp hother
        · exact hkey
        · exact hsilent other hrest
    · cases hstep
  | close t =>
    obtain ⟨-, hs⟩ := Option.ite_none_right_eq_some.mp hstep
    obtain rfl := Option.some.inj hs
    exact h.put (by simp)
  | foreign change =>
    obtain rfl := Option.some.inj hstep
    exact fun t tab htab hstage => h.change none change htab (by simp) hstage

/-! ## Runs -/

/-- `Inv` holds wherever a run whose announcements are heard has come to. -/
theorem inv_of_reachable {storage : LocalStorage} {s : KeyTabs Tab}
    (h : (keyTabs storage).ReachableVia Heard s) : Inv s := by
  have hinit : Inv (keyTabs storage : Machine (KeyTabs Tab) (KeyEvent Tab)).init := by
    intro t tab htab
    cases htab
  exact h.invariant hinit fun _ _ _ hinv hheard hstep => inv_step hinv hheard hstep

/-- A tab that `Follows` the storage, and that nothing is on its way to, sends the key that is
    stored. -/
theorem Follows.header_eq {storage : LocalStorage} {tab : KeyTab} (h : Follows storage tab)
    (hsettled : ∀ key ∈ tab.inbox, concerns key = false) :
    header tab.apiKey = readKey (storage STORAGE_KEY) := by
  rw [← h.key_eq hsettled]
  cases hkey : tab.apiKey with
  | none => rfl
  | some key =>
    have hne : key ≠ [] := by
      rintro rfl
      exact h.solid [] hkey rfl
    simp [header, hne]

/-- All that is on its way to a tab that listens can be delivered, which leaves the storage. -/
theorem deliver_all {storage : LocalStorage} {s : KeyTabs Tab}
    (h : (keyTabs storage).ReachableVia Heard s) {t : Tab} {apiKey : Option JsString}
    {inbox : List (Option JsString)}
    (htab : s.tabs t = some { stage := .listening, apiKey, inbox }) :
    ∃ s' apiKey', (keyTabs storage).runFrom s (.replicate inbox.length (.deliver t true)) = some s' ∧
      (keyTabs storage).ReachableVia Heard s' ∧ s'.storage = s.storage ∧
      s'.tabs t = some { stage := .listening, apiKey := apiKey', inbox := [] } := by
  induction inbox generalizing s apiKey with
  | nil => exact ⟨s, apiKey, rfl, h, rfl, htab⟩
  | cons key inbox ih =>
    have hheard : Heard s (.deliver t true) := by
      refine ⟨rfl, fun tab hmem hstage => ?_⟩
      obtain rfl := Option.some.inj (htab.symm.trans hmem)
      cases hstage
    obtain ⟨next, apiKey', hnext, hstorage, hnextTab⟩ : ∃ next apiKey',
        s.step (.deliver t true) = some next ∧ next.storage = s.storage ∧
          next.tabs t = some { stage := .listening, apiKey := apiKey', inbox } := by
      simp only [KeyTabs.step, htab]
      split
      · exact ⟨_, _, rfl, rfl, if_pos rfl⟩
      · exact ⟨_, _, rfl, rfl, if_pos rfl⟩
    obtain ⟨s', last, hrun, hreach, hsame, htab'⟩ := ih (.step h hheard hnext) hnextTab
    refine ⟨s', last, ?_, hreach, hsame.trans hstorage, htab'⟩
    rw [List.length_cons, List.replicate_succ, Machine.runFrom]
    simp only [keyTabs] at hrun ⊢
    rw [hnext, Option.bind_some, hrun]

/-- Which key the tabs send. -/
structure OneKey (storage : LocalStorage) (s : KeyTabs Tab) : Prop where
  /-- A tab that no announcement is on its way to sends the stored key. -/
  settled : ∀ t tab, s.tabs t = some tab → tab.stage ≠ .loading →
    (∀ key ∈ tab.inbox, concerns key = false) →
    header tab.apiKey = readKey (s.storage STORAGE_KEY)
  /-- And one that listens does, when what is on its way has reached it. -/
  caught_up : ∀ t tab, s.tabs t = some tab → tab.stage = .listening →
    ∃ s' tab', (keyTabs storage).runFrom s (.replicate tab.inbox.length (.deliver t true)) =
      some s' ∧ s'.tabs t = some tab' ∧ header tab'.apiKey = readKey (s.storage STORAGE_KEY)

/-- `OneKey` holds wherever a run has come to in which announcements are heard, however late. -/
theorem tabs_follow {storage : LocalStorage} {s : KeyTabs Tab}
    (h : (keyTabs storage).ReachableVia Heard s) : OneKey storage s := by
  constructor
  case settled =>
    exact fun t tab htab hstage hsettled =>
      (inv_of_reachable h t tab htab hstage).header_eq hsettled
  case caught_up =>
    rintro t ⟨stage, apiKey, inbox⟩ htab rfl
    obtain ⟨s', last, hrun, hreach, hstorage, htab'⟩ := deliver_all h htab
    refine ⟨s', _, hrun, htab', ?_⟩
    rw [← hstorage]
    exact (inv_of_reachable hreach t _ htab' (by simp)).header_eq (by simp)

/-- A key is saved in one tab, and another hears of it. -/
def saved : List (KeyEvent Bool) :=
  [.load true, .render true true, .effect true, .load false, .render false true, .effect false,
    .save true (.ofAscii " key ") true, .deliver false true]

/-- Two tabs, one of which saves a key and the other hears of it. -/
theorem tabs_follow_saved : ∃ s : KeyTabs Bool, (keyTabs fun _ => none).run saved = some s ∧
    (s.tabs false).map (·.apiKey) = some (some (.ofAscii "key")) ∧ OneKey (fun _ => none) s := by
  have hkeys : ((keyTabs fun _ => none).run saved).map (fun s : KeyTabs Bool =>
      (s.tabs false).map (·.apiKey)) = some (some (some (.ofAscii "key"))) := by
    decide +kernel
  obtain ⟨s, hrun, hkey⟩ := Option.map_eq_some_iff.mp hkeys
  refine ⟨s, hrun, hkey, tabs_follow (Machine.reachableVia_of_run saved ?_ hrun)⟩
  decide +kernel

end NexaAssist.Spec.SharedKey
