import NexaAssist.Frontend.ConversationIndex

/-!
# The order of the sidebar

A conversation that is reopened goes to the front of the list and keeps the time it was started
at, so the list stays in the order of those times just if none of the others is newer.

## Key results

- `grouped_inOrder`: a list in order has its headings in order
- `Sound.inOrder_iff`: where the times are in order, so is the rest
- `chronological_iff`: when any number of calls keeps the order
-/

namespace NexaAssist.Spec.ConversationOrder

open NexaAssist.Frontend PyJson

/-! ## Headings -/

/-- From the newest to the oldest. -/
def rank : Heading → Nat
  | .today => 0
  | .yesterday => 1
  | .previousSevenDays => 2
  | .earlier => 3

/-- `rank` gives two headings two ranks. -/
theorem rank_injective {a b : Heading} (h : rank a = rank b) : a = b := by
  cases a <;> cases b <;> first | rfl | exact nomatch h

/-- Each heading at most once, and newer ones first. -/
def InOrder (headings : List Heading) : Prop := headings.Pairwise fun a b => rank a < rank b

/-- An older conversation, labelled later, does not come under a newer heading. -/
theorem rank_groupLabel_le (zone : LocalTime) {startedAt startedAt' now now' : Int}
    (hstarted : startedAt' ≤ startedAt) (hnow : now ≤ now') :
    rank (groupLabel zone startedAt now) ≤ rank (groupLabel zone startedAt' now') := by
  have hday := zone.mono now now' hnow
  unfold groupLabel MS_PER_DAY
  simp only
  -- Whatever the first is too old for, the second is too old for.
  by_cases htoday : zone.startOfDay now ≤ startedAt
  · rw [if_pos htoday]
    exact Nat.zero_le _
  rw [if_neg htoday, if_neg (show ¬zone.startOfDay now' ≤ startedAt' by omega)]
  by_cases hyesterday : zone.startOfDay now - 86400000 ≤ startedAt
  · rw [if_pos hyesterday]
    split
    · exact Nat.le_refl _
    · split <;> decide
  rw [if_neg hyesterday, if_neg (show ¬zone.startOfDay now' - 86400000 ≤ startedAt' by omega)]
  by_cases hweek : zone.startOfDay now - 7 * 86400000 ≤ startedAt
  · rw [if_pos hweek]
    split <;> decide
  · rw [if_neg hweek, if_neg (show ¬zone.startOfDay now' - 7 * 86400000 ≤ startedAt' by omega)]

/-- An entry comes under its heading, which is new or not. -/
theorem keys_grouped_step (label : Heading) (entry : IndexedConversation)
    (groups : PyDict Heading (List IndexedConversation)) :
    PyDict.keys (match PyDict.get label groups with
      | some bucket => PyDict.set label (bucket ++ [entry]) groups
      | none => PyDict.set label [entry] groups) =
      if label ∈ PyDict.keys groups then PyDict.keys groups
      else PyDict.keys groups ++ [label] := by
  cases hget : PyDict.get label groups with
  | some bucket =>
    have hmem : label ∈ PyDict.keys groups := by
      by_contra hnot
      rw [PyDict.get_eq_none_iff.mpr hnot] at hget
      exact nomatch hget
    rw [if_pos hmem]
    exact PyDict.keys_set_of_mem hmem _
  | none =>
    have hnot := PyDict.get_eq_none_iff.mp hget
    rw [if_neg hnot]
    simp only [PyDict.set_of_notMem hnot, PyDict.keys, List.map_append, List.map_singleton]

/-- Entries in the order of their times, each with a reading of a clock that does not go back. -/
def Labelled (labelled : List (IndexedConversation × Int)) : Prop :=
  labelled.Pairwise fun a b => b.1.startedAt ≤ a.1.startedAt ∧ a.2 ≤ b.2

/-- Entries that are labelled in order leave the groups in order. -/
theorem inOrder_foldl (zone : LocalTime) {labelled : List (IndexedConversation × Int)}
    (hlabelled : Labelled labelled) (groups : PyDict Heading (List IndexedConversation))
    (hgroups : InOrder (PyDict.keys groups))
    (hlater : ∀ heading ∈ PyDict.keys groups, ∀ e ∈ labelled,
      rank heading ≤ rank (groupLabel zone e.1.startedAt e.2)) :
    InOrder (PyDict.keys (labelled.foldl (fun groups (entry, now) =>
      let label := groupLabel zone entry.startedAt now
      match PyDict.get label groups with
      | some bucket => PyDict.set label (bucket ++ [entry]) groups
      | none => PyDict.set label [entry] groups) groups)) := by
  induction labelled generalizing groups with
  | nil => exact hgroups
  | cons e labelled ih =>
    obtain ⟨entry, now⟩ := e
    obtain ⟨hfirst, hrest⟩ := List.pairwise_cons.mp hlabelled
    have hkeys := keys_grouped_step (groupLabel zone entry.startedAt now) entry groups
    rw [List.foldl_cons]
    apply ih hrest
    · rw [hkeys]
      split
      · exact hgroups
      · rename_i hnew
        refine List.pairwise_append.mpr ⟨hgroups, List.pairwise_singleton _ _, ?_⟩
        intro heading hheading label hlabel
        rw [List.mem_singleton] at hlabel
        subst hlabel
        have hle := hlater heading hheading (entry, now) List.mem_cons_self
        refine lt_of_le_of_ne hle fun heq => hnew ?_
        rwa [← rank_injective heq]
    · intro heading hheading other hother
      rw [hkeys] at hheading
      obtain ⟨hstarted, hnow⟩ := hfirst other hother
      have hlabel := rank_groupLabel_le zone hstarted hnow
      split at hheading
      · exact hlater heading hheading other (List.mem_cons_of_mem _ hother)
      · rcases List.mem_append.mp hheading with hold | hself
        · exact hlater heading hold other (List.mem_cons_of_mem _ hother)
        · rw [List.mem_singleton.mp hself]
          exact hlabel

/-- `grouped` has its headings in order, where the entries are labelled in order. -/
theorem grouped_inOrder (zone : LocalTime) {labelled : List (IndexedConversation × Int)}
    (hlabelled : Labelled labelled) : InOrder (PyDict.keys (grouped zone labelled)) :=
  inOrder_foldl zone hlabelled [] List.Pairwise.nil nofun

/-! ## Lists of conversations -/

/-- What the sidebar relies on. -/
structure Chronological (entries : List IndexedConversation) : Prop where
  unique : (ids entries).Nodup
  bounded : entries.length ≤ MAX_ENTRIES
  newestFirst : entries.Pairwise fun a b => b.startedAt ≤ a.startedAt
  headings : ∀ zone labelled, labelled.map Prod.fst = entries →
    labelled.Pairwise (fun a b => a.2 ≤ b.2) →
      InOrder (PyDict.keys (grouped zone labelled))

/-- What holds of the list after any calls. -/
structure Sound (s : IndexState) : Prop where
  unique : (ids s.entries).Nodup
  bounded : s.entries.length ≤ MAX_ENTRIES
  past : ∀ entry ∈ s.entries, entry.startedAt ≤ s.clock

/-- Where the times are in order, so is the rest. -/
theorem Sound.inOrder_iff {s : IndexState} (h : Sound s) :
    Chronological s.entries ↔ s.entries.Pairwise fun a b => b.startedAt ≤ a.startedAt := by
  refine ⟨fun hc => hc.newestFirst, fun hnewest => ⟨h.unique, h.bounded, hnewest, ?_⟩⟩
  intro zone labelled hentries hreadings
  apply grouped_inOrder
  rw [← hentries, List.pairwise_map] at hnewest
  exact hnewest.and hreadings

/-- A conversation that is remembered again is at least as new as all that are listed. -/
def KeepsOrder (s : IndexState) (e : TimedIndexCall) : Prop :=
  match e.call with
  | .remember id _ => ∀ entry ∈ s.entries, entry.id = id →
      ∀ other ∈ s.entries, other.startedAt ≤ entry.startedAt
  | _ => True

instance (s : IndexState) (e : TimedIndexCall) : Decidable (KeepsOrder s e) := by
  unfold KeepsOrder
  split <;> infer_instance

/-! ## Calls -/

/-- `others` leaves the entries in their order. -/
theorem others_sublist (current : List IndexedConversation) (id : JsString) :
    (others current id).Sublist current := List.filter_sublist

/-- A list is kept sound by any call. -/
theorem sound_after {s : IndexState} (h : Sound s) (elapsed : Nat) (call : IndexCall) :
    Sound { entries := after (s.clock + elapsed) s.entries call, clock := s.clock + elapsed } := by
  have hpast : ∀ entry ∈ s.entries, entry.startedAt ≤ s.clock + elapsed := by
    intro entry hentry
    have := h.past entry hentry
    omega
  cases call with
  -- The remembered conversation comes first, and the rest moves back by one
  | remember id title =>
    constructor
    · rw [show ids (after (s.clock + elapsed) s.entries (.remember id title)) = _ from
        ids_remember s.entries id title (s.clock + elapsed)]
      refine (List.take_sublist _ _).nodup (List.nodup_cons.mpr ⟨by simp, ?_⟩)
      exact h.unique.filter _
    · exact List.length_take_le _ _
    · intro entry hentry
      rcases List.mem_cons.mp (List.mem_of_mem_take hentry) with rfl | hother
      -- Its start is kept from the entry it replaces, or is the present
      · by_cases hid : id ∈ ids s.entries
        · obtain ⟨existing, hexisting, hid⟩ := List.mem_map.mp hid
          rw [remembered_startedAt s.entries id title _ hexisting h.unique hid]
          exact hpast existing hexisting
        · have hnew := remembered_of_new s.entries id title (s.clock + elapsed) hid
          exact Int.le_of_eq (congrArg (·.startedAt) hnew)
      · exact hpast entry (others_sublist s.entries id |>.mem hother)
  | nameIfUnnamed id question =>
    -- Naming changes a title, never an id or a start
    obtain hsame | ⟨rename, hrename, hfields⟩ := nameIfUnnamed_cases s.entries id question
    · have hafter : after (s.clock + elapsed) s.entries (.nameIfUnnamed id question) = s.entries := by
        simp [after, written, hsame]
      rw [hafter]
      exact ⟨h.unique, h.bounded, hpast⟩
    · have hafter : after (s.clock + elapsed) s.entries (.nameIfUnnamed id question) =
          s.entries.map rename := by
        simp [after, written, hrename]
      rw [hafter]
      refine ⟨?_, by simpa using h.bounded, ?_⟩
      · simpa [ids, Function.comp_def, hfields] using h.unique
      · intro entry hentry
        obtain ⟨existing, hexisting, rfl⟩ := List.mem_map.mp hentry
        rw [(hfields existing).2]
        exact hpast existing hexisting
  -- Forgetting leaves a sublist
  | forget id =>
    have hsub := others_sublist s.entries id
    refine ⟨(hsub.map _).nodup h.unique, hsub.length_le.trans h.bounded, ?_⟩
    intro entry hentry
    exact hpast entry (hsub.mem hentry)

/-- A conversation that is listed leaves room for itself. -/
theorem length_others_lt {s : IndexState} (h : Sound s) {id : JsString} (hid : id ∈ ids s.entries) :
    (others s.entries id).length < MAX_ENTRIES := by
  obtain ⟨entry, hentry, hid⟩ := List.mem_map.mp hid
  have hlt : (others s.entries id).length < s.entries.length := by
    rw [others, List.length_filter_lt_length_iff_exists]
    exact ⟨entry, hentry, by simpa using hid⟩
  exact hlt.trans_le h.bounded

/-- `remember` leaves a list in order just if no other entry is newer than the one it reopens. -/
theorem newestFirst_remember_iff {s : IndexState} (h : Sound s)
    (hnewest : s.entries.Pairwise fun a b => b.startedAt ≤ a.startedAt) (id title : JsString)
    (elapsed : Nat) :
    ((Frontend.remember s.entries id title (s.clock + elapsed)).Pairwise
      fun a b => b.startedAt ≤ a.startedAt) ↔
      ∀ entry ∈ s.entries, entry.id = id → ∀ other ∈ s.entries,
        other.startedAt ≤ entry.startedAt := by
  have hothers := hnewest.sublist (others_sublist s.entries id)
  by_cases hid : id ∈ ids s.entries
  · have hroom := length_others_lt h hid
    have hfits : (remembered s.entries id title (s.clock + elapsed) ::
        others s.entries id).length ≤ MAX_ENTRIES := hroom
    rw [Frontend.remember, List.take_of_length_le hfits, List.pairwise_cons, and_iff_left hothers]
    constructor
    · intro hfirst entry hentry hentryId other hother
      by_cases hotherId : other.id = id
      · have hstart :=
          remembered_startedAt s.entries id title (s.clock + elapsed) hentry h.unique hentryId
        have hotherStart :=
          remembered_startedAt s.entries id title (s.clock + elapsed) hother h.unique hotherId
        exact Int.le_of_eq (hotherStart.symm.trans hstart)
      · rw [← remembered_startedAt s.entries id title (s.clock + elapsed) hentry h.unique hentryId]
        exact hfirst other (List.mem_filter.mpr ⟨hother, by simpa using hotherId⟩)
    · intro hall other hother
      obtain ⟨entry, hentry, hentryId⟩ := List.mem_map.mp hid
      rw [remembered_startedAt s.entries id title (s.clock + elapsed) hentry h.unique hentryId]
      exact hall entry hentry hentryId other ((others_sublist s.entries id).mem hother)
  · refine iff_of_true ?_ ?_
    · refine List.Pairwise.sublist (List.take_sublist _ _) (List.pairwise_cons.mpr ⟨?_, hothers⟩)
      intro other hother
      have hpast := h.past other ((others_sublist s.entries id).mem hother)
      rw [remembered_of_new s.entries id title _ hid]
      show other.startedAt ≤ s.clock + elapsed
      omega
    · intro entry hentry hentryId
      exact absurd (hentryId ▸ List.mem_map_of_mem hentry) hid

/-- A call leaves a list in order just if it `KeepsOrder`, where the list was in order. -/
theorem newestFirst_after_iff {s : IndexState} (h : Sound s)
    (hnewest : s.entries.Pairwise fun a b => b.startedAt ≤ a.startedAt) (e : TimedIndexCall) :
    ((after (s.clock + e.elapsed) s.entries e.call).Pairwise fun a b => b.startedAt ≤ a.startedAt) ↔
      KeepsOrder s e := by
  obtain ⟨elapsed, call⟩ := e
  cases call with
  | remember id title => exact newestFirst_remember_iff h hnewest id title elapsed
  | nameIfUnnamed id question =>
    refine iff_of_true ?_ trivial
    obtain hsame | ⟨rename, hrename, hfields⟩ := nameIfUnnamed_cases s.entries id question
    · simpa [after, written, hsame] using hnewest
    · simpa [after, written, hrename, List.pairwise_map, hfields] using hnewest
  | forget id =>
    refine iff_of_true ?_ trivial
    exact hnewest.sublist (others_sublist s.entries id)

/-- After every one of some calls, however many and at whatever times, the list is in order just
    if none of them reopens a conversation that another one in the list is newer than. -/
theorem chronological_iff (start : Int) (calls : List TimedIndexCall) :
    (∀ before s, before <+: calls → (conversationIndex start).run before = some s →
      Chronological s.entries) ↔
    (conversationIndex start).Meets KeepsOrder (conversationIndex start).init calls := by
  have hinit : Sound (conversationIndex start).init := ⟨List.nodup_nil, Nat.zero_le _, nofun⟩
  refine Machine.always_iff_meets Sound (fun s => Chronological s.entries) ?_ ?_ nofun hinit
    (hinit.inOrder_iff.mpr List.Pairwise.nil) calls
  · rintro s e _ hsound ⟨⟩
    exact sound_after hsound e.elapsed e.call
  · rintro s e _ hsound hgood ⟨⟩
    rw [(sound_after hsound e.elapsed e.call).inOrder_iff]
    exact newestFirst_after_iff hsound hgood.newestFirst e

/-- One conversation is started, another one a day later, and the first is opened again. -/
theorem reopened_not_chronological :
    ¬∀ start calls s, (conversationIndex start).run calls = some s → Chronological s.entries := by
  intro hall
  have hchronological := hall 0 [
    ⟨0, .remember (.ofAscii "c1") UNTITLED⟩, ⟨86400000, .remember (.ofAscii "c2") UNTITLED⟩,
    ⟨60000, .remember (.ofAscii "c1") UNTITLED⟩] _ rfl
  have hnewest := hchronological.newestFirst
  revert hnewest
  decide +kernel

end NexaAssist.Spec.ConversationOrder
