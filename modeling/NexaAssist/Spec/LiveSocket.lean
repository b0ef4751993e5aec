import Mathlib.Data.List.Basic
import NexaAssist.ForStd.List
import NexaAssist.Frontend.UseRealtime

/-!
# How many sockets the hook has open

One `closedByUs` flag and one `socketRef` serve every run of the mount effect, while a
ticket or a close event of an earlier run may still be on its way. Where neither
arrives while a later run is in force, the runs stay apart: each has at most one
connection attempt at a time, be it a ticket, a socket or a reconnect timer.
-/

namespace NexaAssist.Spec.LiveSocket

open NexaAssist Frontend World

/-! ## The property and the condition -/

/-- At most one socket has not been closed, and it is the one `socketRef` holds. -/
def SingleSocket (w : World) : Prop :=
  ∀ k, (w.sockets k).unclosed = true → w.socketRef = some k

/-- The close event of socket `k`, which `socketRef` does not hold, leaves `socketRef`
    and the reconnect timers, and the question asked on the socket it does hold. -/
def SupersededCloseHarmless (w : World) (k : Nat) : Prop :=
  w.socketRef ≠ some k → ∀ w', useRealtime.step w (.closed k) = some w' →
    w'.socketRef = w.socketRef ∧ w'.reconnects = w.reconnects ∧
      (w.socketRef.isSome = true → w'.awaiting = w.awaiting)

/-- A ticket that was granted, or the close event of a socket, reaches the hook in the
    mount it belongs to, or while nothing is mounted. -/
def MountsKeptApart (w : World) : RealtimeEvent → Prop
  | .ticket i granted _ =>
    granted = true → ∀ m, w.tickets[i]? = some m → m = w.mounts ∨ w.closedByUs = true
  | .closed k => (w.sockets k).mount = w.mounts ∨ w.closedByUs = true
  | _ => True

/-! ## The invariant -/

/-- An enabled mount effect is in force. -/
def Mounted (w : World) : Prop := w.effect = some true

structure Inv (w : World) : Prop where
  single : SingleSocket w
  mounted : Mounted w → w.closedByUs = false ∧ 1 ≤ w.mounts
  unmounted : ¬ Mounted w → w.reconnects = [] ∧ w.socketRef = none ∧
    (w.closedByUs = true ∨ w.mounts = 0)
  mounts : ∀ k, (w.sockets k).readyState ≠ .closed →
    1 ≤ (w.sockets k).mount ∧ (w.sockets k).mount ≤ w.mounts
  /-- A socket the hook has closed is one of an earlier mount. -/
  called : ∀ k, (w.sockets k).readyState ≠ .closed → (w.sockets k).closeCalled = true →
    Mounted w → (w.sockets k).mount < w.mounts
  tickets : ∀ m ∈ w.tickets, 1 ≤ m ∧ m ≤ w.mounts
  timers : ∀ r ∈ w.reconnects, r.mount = w.mounts ∧ w.timerRef = some r.handle
  /-- The current mount has one connection attempt at most. -/
  ticketOnce : w.tickets.count w.mounts ≤ 1
  ticketAlone : Mounted w → w.mounts ∈ w.tickets → w.reconnects = [] ∧ w.socketRef = none
  timerAlone : w.reconnects ≠ [] → w.socketRef = none

/-- What the invariant looks at in a socket. -/
def life (socket : Socket) : Nat × Bool × Bool :=
  (socket.mount, socket.closeCalled, socket.readyState == .closed)

/-- Sockets with the same life have the same mount. -/
theorem life_mount {s s' : Socket} (h : life s' = life s) : s'.mount = s.mount :=
  congrArg Prod.fst h

/-- On both or on neither `close` was called. -/
theorem life_called {s s' : Socket} (h : life s' = life s) : s'.closeCalled = s.closeCalled :=
  congrArg (·.2.1) h

/-- Of two sockets with the same `life`, both or neither are closed. -/
theorem life_closed {s s' : Socket} (h : life s' = life s) :
    s'.readyState = .closed ↔ s.readyState = .closed := by
  have hclosed : (s'.readyState == .closed) = (s.readyState == .closed) := congrArg (·.2.2) h
  rw [← beq_iff_eq, hclosed, beq_iff_eq]

/-- Of two sockets with the same `life`, both or neither are yet to close. -/
theorem life_unclosed {s s' : Socket} (h : life s' = life s) : s'.unclosed = s.unclosed := by
  have hclosed : (s'.readyState == .closed) = (s.readyState == .closed) := congrArg (·.2.2) h
  simp only [Socket.unclosed, life_called h, bne, hclosed]

/-- `Inv` is kept by a step that changes nothing it looks at. -/
theorem Inv.frame {w w' : World} (h : Inv w)
    (hlife : ∀ k, life (w'.sockets k) = life (w.sockets k))
    (hsocket : w'.socketRef = w.socketRef) (htimer : w'.timerRef = w.timerRef)
    (hclosed : w'.closedByUs = w.closedByUs) (heffect : w'.effect = w.effect)
    (hmounts : w'.mounts = w.mounts) (htickets : w'.tickets = w.tickets)
    (hreconnects : w'.reconnects = w.reconnects) : Inv w' where
  single k hk := by
    rw [hsocket]
    exact h.single k (life_unclosed (hlife k) ▸ hk)
  mounted hm := by
    rw [hclosed, hmounts]
    exact h.mounted (heffect.symm.trans hm)
  unmounted hm := by
    rw [hreconnects, hsocket, hclosed, hmounts]
    exact h.unmounted fun hm' => hm (heffect.trans hm')
  mounts k hk := by
    rw [life_mount (hlife k), hmounts]
    exact h.mounts k fun hc => hk ((life_closed (hlife k)).mpr hc)
  called k hk hcalled hm := by
    rw [life_mount (hlife k), hmounts]
    rw [life_called (hlife k)] at hcalled
    exact h.called k (fun hc => hk ((life_closed (hlife k)).mpr hc)) hcalled (heffect.symm.trans hm)
  tickets := by
    rw [htickets, hmounts]
    exact h.tickets
  timers := by
    rw [hreconnects, hmounts, htimer]
    exact h.timers
  ticketOnce := by
    rw [htickets, hmounts]
    exact h.ticketOnce
  ticketAlone hm := by
    rw [hmounts, htickets, hreconnects, hsocket]
    exact h.ticketAlone (heffect.symm.trans hm)
  timerAlone := by
    rw [hreconnects, hsocket]
    exact h.timerAlone

/-- `Inv` is kept by `setSocket` with a socket of the same `life`. -/
theorem Inv.setSocket {w : World} (h : Inv w) {k : Nat} {socket : Socket}
    (hlife : life socket = life (w.sockets k)) : Inv (w.setSocket k socket) := by
  refine h.frame (fun j => ?_) rfl rfl rfl rfl rfl rfl rfl
  show life (if j = k then socket else w.sockets j) = life (w.sockets j)
  split
  · rename_i hj
    rw [hj, hlife]
  · rfl

/-- `Inv` holds at first. -/
theorem inv_init : Inv useRealtime.init where
  single _ h := nomatch h
  mounted h := nomatch h
  unmounted _ := ⟨rfl, rfl, .inr rfl⟩
  mounts _ h := absurd rfl h
  called _ h := absurd rfl h
  tickets _ h := nomatch h
  timers _ h := nomatch h
  ticketOnce := by decide
  ticketAlone h := nomatch h
  timerAlone h := absurd rfl h

/-! ## Connecting -/

/-- Nothing is on its way in the mount that is in force. -/
structure Idle (w : World) : Prop extends Inv w where
  isMounted : Mounted w
  noSocket : w.socketRef = none
  noTimer : w.reconnects = []
  noTicket : w.mounts ∉ w.tickets

section Connect

variable {w : World} (h : Idle w)
include h

/-- `Inv` is kept by `openSocket` in a mount that has no other attempt. -/
theorem openSocket_inv (creates : Bool) : Inv (w.openSocket w.mounts creates) := by
  obtain ⟨hclosed, hpos⟩ := h.mounted h.isMounted
  have hnone : ∀ k, (w.sockets k).unclosed ≠ true := by
    intro k hk
    have := h.single k hk
    rw [h.noSocket] at this
    exact nomatch this
  unfold openSocket
  rw [if_neg (by rw [hclosed]; decide)]
  split
  · exact h.toInv.frame (fun _ => rfl) rfl rfl rfl rfl rfl rfl rfl
  · have hsock : ∀ k, (w.setSocket w.created (.new w.mounts)).sockets k =
        if k = w.created then .new w.mounts else w.sockets k := fun _ => rfl
    refine ⟨fun k hk => ?_, fun _ => ⟨hclosed, hpos⟩, fun hno => absurd h.isMounted hno,
      fun k hk => ?_, fun k hk hcalled _ => ?_, h.tickets, h.timers, h.ticketOnce,
      fun _ hmem => absurd hmem h.noTicket, fun hne => absurd h.noTimer hne⟩
    · by_cases hkc : k = w.created
      · rw [hkc]
      · simp only [hsock, if_neg hkc] at hk
        exact absurd hk (hnone k)
    · by_cases hkc : k = w.created
      · simp only [hsock, if_pos hkc]
        exact ⟨hpos, Nat.le_refl _⟩
      · simp only [hsock, if_neg hkc] at hk ⊢
        exact h.mounts k hk
    · by_cases hkc : k = w.created
      · simp only [hsock, if_pos hkc] at hcalled
        exact nomatch hcalled
      · simp only [hsock, if_neg hkc] at hk hcalled ⊢
        exact h.called k hk hcalled h.isMounted

/-- `Inv` is kept by `connect`. -/
theorem connect_inv (hasTicketSource creates : Bool) :
    Inv (w.connect w.mounts hasTicketSource creates) := by
  unfold connect
  split
  · -- The attempt is now a ticket on its way.
    obtain ⟨hclosed, hpos⟩ := h.mounted h.isMounted
    refine ⟨h.single, h.mounted, h.unmounted, h.mounts, h.called, fun m hm => ?_, h.timers, ?_,
      fun _ _ => ⟨h.noTimer, h.noSocket⟩, h.timerAlone⟩
    · rw [List.mem_append, List.mem_singleton] at hm
      cases hm with
      | inl hm => exact h.tickets m hm
      | inr hm => rw [hm]; exact ⟨hpos, Nat.le_refl _⟩
    · have hcount : (w.tickets ++ [w.mounts]).count w.mounts = 0 + 1 := by
        rw [List.count_append, List.count_eq_zero_of_not_mem h.noTicket, List.count_singleton_self]
      exact Nat.le_of_eq hcount
  · exact openSocket_inv h creates

end Connect

/-! ## The steps -/

section Steps

variable {w w' : World} (h : Inv w)
include h

/-- `Inv` is kept when the hook is mounted. -/
theorem mountEffect_inv {enabled hasTicketSource creates : Bool}
    (hstep : w.mountEffect enabled hasTicketSource creates = some w') : Inv w' := by
  unfold mountEffect at hstep
  split at hstep
  · exact nomatch hstep
  · rename_i heffect
    have hno : ¬ Mounted w := fun hm => by rw [Mounted, heffect] at hm; exact nomatch hm
    -- The hook was unmounted, so it holds neither a timer nor a socket
    obtain ⟨htimers, hsocket, hclosed⟩ := h.unmounted hno
    split at hstep
    · simp only [Option.some.injEq] at hstep
      subst hstep
      refine ⟨h.single, fun hm => (nomatch hm), fun _ => ⟨htimers, hsocket, hclosed⟩, h.mounts,
        fun _ _ _ hm => (nomatch hm), h.tickets, h.timers, h.ticketOnce, fun hm => (nomatch hm),
        h.timerAlone⟩
    · simp only [Option.some.injEq] at hstep
      subst hstep
      -- No ticket has been asked for under the new mount
      have hnew : w.mounts + 1 ∉ w.tickets := by
        intro hmem
        have := (h.tickets _ hmem).2
        omega
      apply connect_inv
      refine ⟨⟨h.single, fun _ => ⟨rfl, by simp⟩, fun hno => absurd rfl hno, fun k hk => ?_,
        fun k hk _ _ => ?_, fun m hm => ?_, ?_, ?_, fun _ hmem => absurd hmem hnew,
        h.timerAlone⟩, rfl, hsocket, htimers, hnew⟩
      · have := h.mounts k hk
        exact ⟨this.1, Nat.le_succ_of_le this.2⟩
      · have := (h.mounts k hk).2
        exact Nat.lt_succ_of_le this
      · have := h.tickets m hm
        exact ⟨this.1, Nat.le_succ_of_le this.2⟩
      · intro r hr
        rw [show (_ : List Reconnect) = w.reconnects from rfl, htimers] at hr
        exact nomatch hr
      · have hcount : w.tickets.count (w.mounts + 1) = 0 := List.count_eq_zero_of_not_mem hnew
        show w.tickets.count (w.mounts + 1) ≤ 1
        omega

/-- No timer is left once the one `timerRef` holds is cleared. -/
theorem reconnectsWithout_eq_nil {handle : Nat} (hhandle : w.reconnects ≠ [] →
    w.timerRef = some handle) : w.reconnectsWithout (some handle) = [] := by
  simp only [reconnectsWithout, List.filter_eq_nil_iff, decide_eq_true_eq, not_not]
  intro r hr
  have htimer := hhandle (List.ne_nil_of_mem hr)
  rw [(h.timers r hr).2, Option.some.injEq] at htimer
  exact htimer

omit h in
/-- What closing the socket the hook holds makes of each socket. -/
theorem socketsClosing_cases (w : World) (k : Nat) :
    (w.socketRef = some k ∧ w.socketsClosing w.socketRef k = (w.sockets k).close) ∨
    (w.socketRef ≠ some k ∧ w.socketsClosing w.socketRef k = w.sockets k) := by
  cases href : w.socketRef with
  | none => exact .inr ⟨fun hno => (nomatch hno), rfl⟩
  | some j =>
    show _ ∨ (_ ∧ (if k = j then (w.sockets j).close else w.sockets k) = w.sockets k)
    by_cases hkj : k = j
    · subst hkj
      exact .inl ⟨rfl, if_pos rfl⟩
    · rw [if_neg hkj]
      exact .inr ⟨fun heq => hkj (Option.some.inj heq).symm, rfl⟩

/-- `Inv` is kept by the cleanup. -/
theorem cleanup_inv (hstep : w.cleanup = some w') : Inv w' := by
  unfold cleanup at hstep
  split at hstep
  · exact nomatch hstep
  · rename_i heffect
    have hno : ¬ Mounted w := fun hm => by rw [Mounted, heffect] at hm; exact nomatch hm
    simp only [Option.some.injEq] at hstep
    subst hstep
    refine ⟨h.single, fun hm => (nomatch hm), fun _ => h.unmounted hno, h.mounts,
      fun _ _ _ hm => (nomatch hm), h.tickets, h.timers, h.ticketOnce, fun hm => (nomatch hm),
      h.timerAlone⟩
  -- The hook is unmounted: the one timer there can be is cleared
  · simp only [Option.some.injEq] at hstep
    subst hstep
    have htimers : w.reconnectsWithout w.timerRef = [] := by
      cases href : w.timerRef with
      | some handle => exact reconnectsWithout_eq_nil h fun _ => href
      | none =>
        refine List.eq_nil_iff_forall_not_mem.mpr fun r hr => ?_
        have := (h.timers r hr).2
        rw [href] at this
        exact nomatch this
    refine ⟨fun k hk => ?_, fun hm => (nomatch hm), fun _ => ⟨htimers, rfl, .inl rfl⟩,
      fun k hk => ?_, fun _ _ _ hm => (nomatch hm), h.tickets, fun r hr => ?_, h.ticketOnce,
      fun hm => (nomatch hm), fun hne => absurd htimers hne⟩
    · -- The socket the hook held is closed, and it held the only one.
      cases socketsClosing_cases w k with
      | inl hheld =>
        have hk : (w.socketsClosing w.socketRef k).unclosed = true := hk
        rw [hheld.2] at hk
        exact nomatch hk
      | inr hother =>
        have hk : (w.socketsClosing w.socketRef k).unclosed = true := hk
        rw [hother.2] at hk
        exact absurd (h.single k hk) hother.1
    · have hk : (w.socketsClosing w.socketRef k).readyState ≠ .closed := hk
      show 1 ≤ (w.socketsClosing w.socketRef k).mount ∧
        (w.socketsClosing w.socketRef k).mount ≤ w.mounts
      cases socketsClosing_cases w k with
      | inl hheld =>
        rw [hheld.2] at hk ⊢
        exact h.mounts k fun hc => hk (by simp only [Socket.close, if_pos hc])
      | inr hother =>
        rw [hother.2] at hk ⊢
        exact h.mounts k hk
    · have hr : r ∈ w.reconnectsWithout w.timerRef := hr
      rw [htimers] at hr
      exact nomatch hr

/-- A ticket arrives in its own mount, which has no other attempt. -/
theorem ticketArrives_inv {i : Nat} {granted creates : Bool}
    (hok : MountsKeptApart w (.ticket i granted creates))
    (hstep : w.ticketArrives i granted creates = some w') : Inv w' := by
  unfold ticketArrives at hstep
  split at hstep
  · exact nomatch hstep
  · rename_i mount hget
    simp only [Option.some.injEq] at hstep
    have hmem : mount ∈ w.tickets := List.mem_of_getElem? hget
    have hsub : ∀ m, m ∈ w.tickets.eraseIdx i → m ∈ w.tickets :=
      fun m hm => List.mem_of_mem_eraseIdx hm
    have hcount : (w.tickets.eraseIdx i).count w.mounts ≤ w.tickets.count w.mounts :=
      (List.eraseIdx_sublist w.tickets i).count_le _
    -- Without the ticket the invariant still holds
    have htaken : Inv { w with tickets := w.tickets.eraseIdx i } :=
      ⟨h.single, h.mounted, h.unmounted, h.mounts, h.called, fun m hm => h.tickets m (hsub m hm),
        h.timers, Nat.le_trans hcount h.ticketOnce,
        fun hm hmem => h.ticketAlone hm (hsub _ hmem), h.timerAlone⟩
    subst hstep
    cases granted with
    | false => exact htaken.frame (fun _ => rfl) rfl rfl rfl rfl rfl rfl rfl
    | true =>
      simp only [if_true]
      by_cases hclosed : w.closedByUs = true
      -- A ticket that comes after the hook was closed opens nothing
      · unfold openSocket
        rw [if_pos (show _ from hclosed)]
        exact htaken
      · obtain rfl := (hok rfl mount hget).resolve_right hclosed
        -- Else it is the ticket of the present mount, which holds no socket yet
        have hm : Mounted w := by
          by_contra hno
          obtain ⟨-, -, hor⟩ := h.unmounted hno
          have := (h.tickets _ hmem).1
          have hzero := hor.resolve_left hclosed
          omega
        obtain ⟨htimers, hsocket⟩ := h.ticketAlone hm hmem
        have hgone : w.mounts ∉ w.tickets.eraseIdx i := by
          intro hmem'
          have hone := h.ticketOnce
          have herase := List.count_eraseIdx_of_getElem? hget
          have := List.count_pos_iff.mpr hmem'
          omega
        exact openSocket_inv ⟨htaken, hm, hsocket, htimers, hgone⟩ creates

/-- A reconnect timer fires: it was the only attempt of the mount that is in force. -/
theorem reconnectFires_inv {handle : Nat} {hasTicketSource creates : Bool}
    (hstep : w.reconnectFires handle hasTicketSource creates = some w') : Inv w' := by
  unfold reconnectFires at hstep
  split at hstep
  · exact nomatch hstep
  · rename_i timer hfind
    simp only [Option.some.injEq] at hstep
    subst hstep
    have hmem : timer ∈ w.reconnects := List.mem_of_find?_eq_some hfind
    have hne : w.reconnects ≠ [] := List.ne_nil_of_mem hmem
    have hm : Mounted w := by
      by_contra hno
      exact hne (h.unmounted hno).1
    obtain ⟨hmount, hhandle⟩ := h.timers timer hmem
    have heq : timer.handle = handle := by simpa using List.find?_some hfind
    rw [heq] at hhandle
    have hcleared := reconnectsWithout_eq_nil h fun _ => hhandle
    have hsocket := h.timerAlone hne
    rw [hmount]
    apply connect_inv
    refine ⟨⟨h.single, h.mounted, fun hno => absurd hm hno, h.mounts, h.called, h.tickets,
      fun r hr => ?_, h.ticketOnce, fun _ hmem => absurd (h.ticketAlone hm hmem).1 hne,
      fun hno => absurd hcleared hno⟩, hm, hsocket, hcleared,
      fun hmem => absurd (h.ticketAlone hm hmem).1 hne⟩
    have hr : r ∈ w.reconnectsWithout (some handle) := hr
    rw [hcleared] at hr
    exact nomatch hr

/-- A socket other than the one `socketRef` holds closes only while nothing is mounted. -/
theorem closing_held {k : Nat} (hok : MountsKeptApart w (.closed k))
    (hlive : (w.sockets k).readyState ≠ .closed) :
    w.closedByUs = true ∨ Mounted w ∧ w.socketRef = some k := by
  by_cases hclosed : w.closedByUs = true
  · exact .inl hclosed
  · right
    have hmount : (w.sockets k).mount = w.mounts := hok.resolve_right hclosed
    have hm : Mounted w := by
      by_contra hno
      obtain ⟨-, -, hor⟩ := h.unmounted hno
      have := (h.mounts k hlive).1
      have hzero := hor.resolve_left hclosed
      omega
    refine ⟨hm, h.single k ?_⟩
    have hcalled : (w.sockets k).closeCalled = false := by
      refine Bool.eq_false_iff.mpr fun hcalled => ?_
      have := h.called k hlive hcalled hm
      omega
    simp only [Socket.unclosed, hcalled, Bool.not_false, Bool.true_and, bne_iff_ne, ne_eq]
    exact hlive

omit h in
/-- `closeEvent` while nothing is mounted closes the socket and drops the question. -/
theorem closeEvent_unmounted {k : Nat} (hclosed : w.closedByUs = true)
    (hstep : w.closeEvent k = some w') :
    w' = (w.setSocket k { w.sockets k with readyState := .closed }).dropQuestion := by
  unfold closeEvent at hstep
  split at hstep
  · exact nomatch hstep
  · simp only [Option.some.injEq] at hstep
    rw [← hstep]
    unfold onclose
    dsimp only
    exact if_pos hclosed

/-- The socket that closes is the one that was held, or none was. -/
theorem dropQuestion_inv {k : Nat} (hheld : w.socketRef = none ∨ w.socketRef = some k) :
    Inv (w.setSocket k { w.sockets k with readyState := .closed }).dropQuestion := by
  have hsock : ∀ j, (w.setSocket k { w.sockets k with readyState := .closed }).sockets j =
      if j = k then { w.sockets k with readyState := .closed } else w.sockets j := fun _ => rfl
  refine ⟨fun j hj => ?_, h.mounted, fun hno => ?_, fun j hj => ?_, fun j hj hcalled hm => ?_,
    h.tickets, h.timers, h.ticketOnce, fun hm hmem => ?_, fun hne => rfl⟩
  -- The socket that closed is gone, and every other was held
  · by_cases hjk : j = k
    · have hj : Socket.unclosed _ = true := hj
      simp only [dropQuestion, settle, hsock, if_pos hjk] at hj
      simp [Socket.unclosed] at hj
    · simp only [dropQuestion, settle, hsock, if_neg hjk] at hj
      have hheld' := h.single j hj
      cases hheld with
      | inl hnone => rw [hnone] at hheld'; exact nomatch hheld'
      | inr hsome =>
        rw [hsome, Option.some.injEq] at hheld'
        exact absurd hheld'.symm hjk
  · obtain ⟨htimers, -, hclosed⟩ := h.unmounted hno
    exact ⟨htimers, rfl, hclosed⟩
  · simp only [dropQuestion, settle, hsock] at hj ⊢
    split at hj
    · exact absurd rfl hj
    · rename_i hjk
      simp only [if_neg hjk]
      exact h.mounts j hj
  · simp only [dropQuestion, settle, hsock] at hj hcalled ⊢
    split at hj
    · exact absurd rfl hj
    · rename_i hjk
      simp only [if_neg hjk] at hcalled ⊢
      exact h.called j hj hcalled hm
  · exact ⟨(h.ticketAlone hm hmem).1, rfl⟩

omit h in
/-- `Inv` is kept when a reconnection is scheduled in a mount that has no other attempt. -/
theorem schedule_inv (h : Idle w) (state : RealtimeState) (attempts handle handles delay : Nat) :
    Inv { w with
      state, attempts, handles
      reconnects := w.reconnects ++ [{ handle, mount := w.mounts, delay }]
      timerRef := some handle } := by
  refine ⟨h.single, h.mounted, fun hno => absurd h.isMounted hno, h.mounts, h.called, h.tickets,
    fun r hr => ?_, h.ticketOnce, fun _ hmem => absurd hmem h.noTicket, fun _ => h.noSocket⟩
  have hr : r ∈ w.reconnects ++ [{ handle, mount := w.mounts, delay }] := hr
  rw [h.noTimer, List.nil_append, List.mem_singleton] at hr
  rw [hr]
  exact ⟨rfl, rfl⟩

/-- `Inv` is kept by a close event of the current mount. -/
theorem closeEvent_inv {k : Nat} (hok : MountsKeptApart w (.closed k))
    (hstep : w.closeEvent k = some w') : Inv w' := by
  by_cases hgone : (w.sockets k).readyState = .closed
  · rw [closeEvent, if_pos hgone] at hstep
    exact nomatch hstep
  · by_cases hclosed : w.closedByUs = true
    -- After the cleanup the close event finds nothing to do
    · have hno : ¬ Mounted w := fun hm => by
        rw [(h.mounted hm).1] at hclosed
        exact nomatch hclosed
      rw [closeEvent_unmounted hclosed hstep]
      exact dropQuestion_inv h (.inl (h.unmounted hno).2.1)
    -- The hook held the socket, so it now holds none and may set a timer
    · obtain ⟨hm, hheld⟩ := (closing_held h hok hgone).resolve_left hclosed
      have hmount : (w.sockets k).mount = w.mounts := hok.resolve_right hclosed
      have hdrop := dropQuestion_inv h (.inr hheld)
      -- No timer and no ticket were there beside the socket
      have hidle : Idle (w.setSocket k { w.sockets k with readyState := .closed }).dropQuestion := by
        refine ⟨hdrop, hm, rfl, ?_, fun hmem => ?_⟩
        · by_contra hne
          have hnone := h.timerAlone hne
          rw [hheld] at hnone
          exact nomatch hnone
        · have hnone := (h.ticketAlone hm hmem).2
          rw [hheld] at hnone
          exact nomatch hnone
      rw [closeEvent, if_neg hgone, Option.some.injEq, hmount] at hstep
      subst hstep
      unfold onclose
      dsimp only
      split
      · exact hdrop
      · split
        · exact hdrop.frame (fun _ => rfl) rfl rfl rfl rfl rfl rfl rfl
        · exact schedule_inv hidle _ _ _ _ _

/-- A frame changes neither the sockets nor anything that leads to one. -/
theorem onmessage_inv (source : Option Nat) (frame : ServerFrame) :
    Inv (w.onmessage source frame) := by
  cases frame with
  | delta text =>
    simp only [onmessage]
    split
    · exact h.frame (fun _ => rfl) rfl rfl rfl rfl rfl rfl rfl
    · exact h
  | complete text conversationId grounded citations escalated =>
    simp only [onmessage]
    split
    · exact h.frame (fun _ => rfl) rfl rfl rfl rfl rfl rfl rfl
    · exact h
  | error code message => exact h.frame (fun _ => rfl) rfl rfl rfl rfl rfl rfl rfl
  | ready connectionId version => exact h
  | pong => exact h
  | unrecognised raw => exact h

/-- `Inv` is kept when a socket opens. -/
theorem onopen_inv {k : Nat} (hstep : w.onopen k = some w') : Inv w' := by
  unfold onopen at hstep
  split at hstep
  · rename_i hconn
    simp only [Option.some.injEq] at hstep
    subst hstep
    have hlife : life { w.sockets k with readyState := .opened } = life (w.sockets k) := by
      simp only [life, hconn]
      rfl
    exact (h.setSocket hlife).frame (fun _ => rfl) rfl rfl rfl rfl rfl rfl rfl
  · exact nomatch hstep

/-- `Inv` is kept by a delivery. -/
theorem deliver_inv {k : Nat} (hstep : w.deliver k = some w') : Inv w' := by
  unfold deliver at hstep
  split at hstep
  · simp only [Option.some.injEq] at hstep
    subst hstep
    apply onmessage_inv
    exact h.setSocket rfl
  · exact nomatch hstep

/-- `Inv` is kept when a socket begins to close. -/
theorem closingStarts_inv {k : Nat} (hstep : w.closingStarts k = some w') : Inv w' := by
  unfold closingStarts at hstep
  split at hstep
  · rename_i hconn
    simp only [Option.some.injEq] at hstep
    subst hstep
    exact h.setSocket (by simp only [life, hconn]; rfl)
  · rename_i hopen
    simp only [Option.some.injEq] at hstep
    subst hstep
    exact h.setSocket (by simp only [life, hopen]; rfl)
  · exact nomatch hstep

/-- `Inv` is kept by `ask`. -/
theorem ask_inv (question : String) (conversationId : Option String) :
    Inv (w.ask question conversationId).2 := by
  unfold ask
  split
  · exact h
  · cases w.sendTarget with
    | none => exact h
    | some k =>
      have hset : ∀ asks, Inv (w.setSocket k { w.sockets k with asks }) := fun _ =>
        h.setSocket rfl
      exact (hset _).frame (fun _ => rfl) rfl rfl rfl rfl rfl rfl rfl

/-- `Inv` is kept when an answer times out. -/
theorem answerTimeout_inv {handle : Nat} (hstep : w.answerTimeout handle = some w') : Inv w' := by
  unfold answerTimeout at hstep
  split at hstep
  · dsimp only at hstep
    split at hstep
    · simp only [Option.some.injEq] at hstep
      exact hstep ▸ h.frame (fun _ => rfl) rfl rfl rfl rfl rfl rfl rfl
    · simp only [Option.some.injEq] at hstep
      exact hstep ▸ h.frame (fun _ => rfl) rfl rfl rfl rfl rfl rfl rfl
  · exact nomatch hstep

/-- Every step that keeps the mounts apart keeps the invariant. -/
theorem inv_step {e : RealtimeEvent} (hok : MountsKeptApart w e)
    (hstep : useRealtime.step w e = some w') : Inv w' := by
  change w.step e = some w' at hstep
  cases e with
  | mountEffect enabled hasTicketSource creates => exact mountEffect_inv h hstep
  | cleanup => exact cleanup_inv h hstep
  | ticket i granted creates => exact ticketArrives_inv h hok hstep
  | reconnect handle hasTicketSource creates => exact reconnectFires_inv h hstep
  | opened k => exact onopen_inv h hstep
  | deliver k => exact deliver_inv h hstep
  | closing k => exact closingStarts_inv h hstep
  | closed k => exact closeEvent_inv h hok hstep
  | ask question conversationId =>
    simp only [World.step, Option.some.injEq] at hstep
    exact hstep ▸ ask_inv h question conversationId
  | answerTimeout handle => exact answerTimeout_inv h hstep
  | serve k frame =>
    -- What the server does touches no socket's state
    simp only [World.step, serve] at hstep
    split at hstep
    · exact nomatch hstep
    · simp only [Option.some.injEq] at hstep
      exact hstep ▸ h.setSocket rfl
  | serverFinishes k =>
    simp only [World.step, serverFinishes] at hstep
    split at hstep
    · exact nomatch hstep
    · simp only [Option.some.injEq] at hstep
      exact hstep ▸ h.setSocket rfl
  | greet k connectionId =>
    simp only [World.step, greet] at hstep
    split at hstep
    · simp only [Option.some.injEq] at hstep
      exact hstep ▸ h.setSocket rfl
    · exact nomatch hstep
  | serverStops k =>
    simp only [World.step, Option.some.injEq] at hstep
    exact hstep ▸ h.setSocket rfl

/-- The close event of a superseded socket is harmless, where `MountsKeptApart` holds. -/
theorem supersededClose {k : Nat} (hok : MountsKeptApart w (.closed k)) :
    SupersededCloseHarmless w k := by
  intro hother w' hstep
  have hstep : w.closeEvent k = some w' := hstep
  by_cases hgone : (w.sockets k).readyState = .closed
  · rw [closeEvent, if_pos hgone] at hstep
    exact nomatch hstep
  · cases closing_held h hok hgone with
    | inr hheld => exact absurd hheld.2 hother
    | inl hclosed =>
      have hno : ¬ Mounted w := fun hm => by
        rw [(h.mounted hm).1] at hclosed
        exact nomatch hclosed
      have hnone := (h.unmounted hno).2.1
      rw [closeEvent_unmounted hclosed hstep]
      refine ⟨hnone.symm, rfl, fun hsome => ?_⟩
      rw [hnone] at hsome
      exact nomatch hsome

end Steps

/-! ## Every run -/

/-- In every run in which tickets and close events reach the hook in their own mount, or
    while nothing is mounted, at most one socket has not been closed, `socketRef` holds
    it, and the close event of any other socket changes nothing for it. -/
theorem one_live_socket (w : World) (h : useRealtime.ReachableVia MountsKeptApart w) :
    SingleSocket w ∧
      ∀ k, MountsKeptApart w (.closed k) → SupersededCloseHarmless w k := by
  have hinv : Inv w := Machine.ReachableVia.invariant inv_init
    (fun _ _ _ hi hok hstep => inv_step hi hok hstep) h
  exact ⟨hinv.single, fun k hok => supersededClose hinv hok⟩

/-- A development build mounts twice. Here the first socket's close event comes while
    nothing is mounted. -/
private def mountedTwice : List RealtimeEvent :=
  [.mountEffect true false true, .cleanup, .closed 0, .mountEffect true false true, .opened 1]

/-- In the run with two mounts they are kept apart. -/
private theorem mountedTwice_meets :
    useRealtime.Meets MountsKeptApart useRealtime.init mountedTwice := by
  refine ⟨trivial, fun w₁ h₁ => ⟨trivial, fun w₂ h₂ => ⟨.inr ?_, fun _ _ => ?_⟩⟩⟩
  · obtain rfl := Option.some.inj h₁
    obtain rfl := Option.some.inj h₂
    rfl
  · exact ⟨trivial, fun _ _ => ⟨trivial, fun _ _ => trivial⟩⟩

/-- A run of two mounts in which the socket of the second is the only one. -/
theorem one_live_socket_mounted_twice :
    ∃ w, useRealtime.run mountedTwice = some w ∧ (w.sockets 1).unclosed = true ∧
      SingleSocket w :=
  ⟨_, rfl, rfl,
    (one_live_socket _ (Machine.reachableVia_of_run mountedTwice mountedTwice_meets rfl)).1⟩

/-- Mounted twice, and the first socket's close event comes after the second mount: it
    drops the second socket from `socketRef` and schedules a reconnect, which opens a
    third beside it. -/
theorem two_live_sockets :
    ∃ w, useRealtime.run
        [.mountEffect true false true, .cleanup, .mountEffect true false true, .closed 0,
          .reconnect 0 false true] = some w ∧
      (w.sockets 1).unclosed = true ∧ (w.sockets 2).unclosed = true ∧ ¬ SingleSocket w := by
  refine ⟨_, rfl, rfl, rfl, fun h => ?_⟩
  exact absurd (h 1 rfl) (by decide)

end NexaAssist.Spec.LiveSocket
