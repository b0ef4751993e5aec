import Mathlib.Data.Finset.Card
import Mathlib.Order.Interval.Finset.Nat
import Mathlib.Tactic.IntervalCases
import NexaAssist.Spec.LiveSocket

/-!
# How often the hook knocks

`onclose` counts the sockets that failed, and gives up when there are too many; `onopen`
sets the count back. A server that accepts a socket and closes it at once has it set back
every time. Where no open event does, a mount comes to `maxAttempts + 1` sockets at most,
and once they are closed the hook is unavailable until it unmounts.

A ticket asked for in an earlier mount opens a socket that is not counted, so the bound
also asks that none of those is granted while a later mount is in force.
-/

namespace NexaAssist.Spec.OutageBackoff

open NexaAssist Frontend World
open LiveSocket (Mounted socketsClosing_cases)

/-! ## The property and the condition -/

/-- A world, with the sockets that had been created before the last mount, and the tickets
    at the head of the list that were asked for before it. -/
structure Watch where
  world : World
  base : Nat
  stale : Nat

def Watch.step (s : Watch) (e : RealtimeEvent) : Option Watch :=
  (s.world.step e).map fun world =>
    match e with
    | .mountEffect _ _ _ => { world, base := s.world.created, stale := s.world.tickets.length }
    | .ticket i _ _ => { s with world, stale := if i < s.stale then s.stale - 1 else s.stale }
    | _ => { s with world }

/-- The hook, watched. -/
def watch : Machine Watch RealtimeEvent where
  init := { world := .init, base := 0, stale := 0 }
  step := Watch.step

/-- The sockets created since the last mount. -/
def Watch.opened (s : Watch) : Nat := s.world.created - s.base

/-- As many sockets as are allowed were created since the last mount, and are closed. -/
def Spent (s : Watch) : Prop :=
  s.opened = maxAttempts + 1 ∧ ∀ k, s.base ≤ k → (s.world.sockets k).readyState = .closed

/-- Nothing is on its way any more. -/
def Stopped (w : World) : Prop :=
  w.tickets = [] ∧ w.reconnects = [] ∧ ∀ k, (w.sockets k).readyState = .closed

/-- The bound, and what the hook is when it has used its attempts up. -/
def GivesUp (s : Watch) : Prop :=
  Mounted s.world → s.opened ≤ maxAttempts + 1 ∧
    (Spent s ∨ Stopped s.world → s.world.state = .unavailable)

/-- An open event finds no failure counted, and a ticket that is granted was asked for in
    this mount, or nothing is mounted. -/
def CountKept (s : Watch) : RealtimeEvent → Prop
  | .opened _ => s.world.attempts = 0
  | .ticket i granted _ => granted = true → s.stale ≤ i ∨ s.world.closedByUs = true
  | _ => True

/-! ## The invariant -/

/-- The sockets created since the last mount that have closed. -/
def closedSince (s : Watch) : Finset Nat :=
  (Finset.Ico s.base s.world.created).filter fun k => (s.world.sockets k).readyState = .closed

structure Inv (s : Watch) : Prop where
  base : s.base ≤ s.world.created
  stale : s.stale ≤ s.world.tickets.length
  absent : ∀ k, s.world.created ≤ k → (s.world.sockets k).readyState = .closed
  mounted : Mounted s.world → s.world.closedByUs = false
  unmounted : ¬ Mounted s.world → s.world.closedByUs = true ∨
    s.world.created = 0 ∧ s.world.tickets = [] ∧ s.world.reconnects = []
  /-- Each timer was set by a failure that was counted. -/
  timers : s.world.reconnects.length ≤ s.world.attempts ∧
    s.world.reconnects.length ≤ maxAttempts
  /-- A socket, the ticket or the timer it comes from, or a failure still allowed. -/
  spent : Mounted s.world →
    (s.world.created - s.base) + (s.world.tickets.length - s.stale) + s.world.reconnects.length +
      (maxAttempts - s.world.attempts) ≤ maxAttempts + 1
  counted : Mounted s.world → (closedSince s).card ≤ s.world.attempts
  worn : maxAttempts < s.world.attempts → s.world.state = .unavailable
  stopped : Mounted s.world → Stopped s.world → s.world.state = .unavailable

/-- Every socket that closed was counted. -/
theorem Inv.attempts_of_spent {s : Watch} (h : Inv s) (hm : Mounted s.world) (hspent : Spent s) :
    maxAttempts < s.world.attempts := by
  obtain ⟨hopened, hclosed⟩ := hspent
  have hopened : s.world.created - s.base = maxAttempts + 1 := hopened
  have hall : closedSince s = Finset.Ico s.base s.world.created := by
    apply Finset.filter_true_of_mem
    intro k hk
    exact hclosed k (Finset.mem_Ico.mp hk).1
  have hcard := h.counted hm
  rw [hall, Nat.card_Ico] at hcard
  omega

/-- Where `Inv` holds, the hook gives up in time. -/
theorem Inv.givesUp {s : Watch} (h : Inv s) : GivesUp s := by
  intro hm
  have hspent := h.spent hm
  constructor
  · show s.world.created - s.base ≤ maxAttempts + 1
    omega
  · rintro (hworn | hstopped)
    · exact h.worn (h.attempts_of_spent hm hworn)
    · exact h.stopped hm hstopped

/-- `Inv` is kept by a step that changes nothing it looks at. -/
theorem Inv.frame {s : Watch} {w : World} (h : Inv s)
    (hsockets : ∀ k, (w.sockets k).readyState = .closed ↔
      (s.world.sockets k).readyState = .closed)
    (hcreated : w.created = s.world.created) (htickets : w.tickets = s.world.tickets)
    (hreconnects : w.reconnects = s.world.reconnects) (hattempts : w.attempts = s.world.attempts)
    (heffect : w.effect = s.world.effect) (hclosed : w.closedByUs = s.world.closedByUs)
    (hstate : w.state = s.world.state) : Inv { s with world := w } where
  base := by rw [hcreated]; exact h.base
  stale := by rw [htickets]; exact h.stale
  absent k hk := (hsockets k).mpr (h.absent k (hcreated ▸ hk))
  mounted hm := hclosed.trans (h.mounted (heffect.symm.trans hm))
  unmounted hm := by
    rw [hclosed, hcreated, htickets, hreconnects]
    exact h.unmounted fun hm' => hm (heffect.trans hm')
  timers := by rw [hreconnects, hattempts]; exact h.timers
  spent hm := by
    rw [hcreated, htickets, hreconnects, hattempts]
    exact h.spent (heffect.symm.trans hm)
  counted hm := by
    have hsame : closedSince { s with world := w } = closedSince s := by
      unfold closedSince
      rw [hcreated]
      apply Finset.filter_congr
      exact fun k _ => hsockets k
    rw [hsame, hattempts]
    exact h.counted (heffect.symm.trans hm)
  worn hw := hstate.trans (h.worn (hattempts ▸ hw))
  stopped hm hs := hstate.trans (h.stopped (heffect.symm.trans hm)
    ⟨htickets ▸ hs.1, hreconnects ▸ hs.2.1, fun k => (hsockets k).mp (hs.2.2 k)⟩)

/-- `Inv` is kept by `setSocket` with a socket that is closed just if the old one is. -/
theorem Inv.setSocket {s : Watch} (h : Inv s) {k : Nat} {socket : Socket}
    (hsocket : socket.readyState = .closed ↔ (s.world.sockets k).readyState = .closed) :
    Inv { s with world := s.world.setSocket k socket } := by
  apply Inv.frame (w := s.world.setSocket k socket) h _ rfl rfl rfl rfl rfl rfl rfl
  intro j
  show (if j = k then socket else s.world.sockets j).readyState = .closed ↔ _
  by_cases hj : j = k
  · rw [if_pos hj, hj]
    exact hsocket
  · rw [if_neg hj]

/-! ## Connecting -/

/-- A world in which one more attempt may be made: the invariant, but for what an attempt
    that has just begun makes true. -/
structure Ready (s : Watch) : Prop where
  base : s.base ≤ s.world.created
  stale : s.stale ≤ s.world.tickets.length
  absent : ∀ k, s.world.created ≤ k → (s.world.sockets k).readyState = .closed
  mounted : Mounted s.world → s.world.closedByUs = false
  unmounted : ¬ Mounted s.world → s.world.closedByUs = true
  timers : s.world.reconnects.length ≤ s.world.attempts ∧
    s.world.reconnects.length ≤ maxAttempts
  spent : Mounted s.world →
    (s.world.created - s.base) + (s.world.tickets.length - s.stale) + s.world.reconnects.length +
      (maxAttempts - s.world.attempts) ≤ maxAttempts
  counted : Mounted s.world → (closedSince s).card ≤ s.world.attempts
  worn : maxAttempts < s.world.attempts → s.world.state = .unavailable

/-- `Inv` is kept by `openSocket`. -/
theorem openSocket_inv {s : Watch} (h : Ready s) (mount : Nat) (creates : Bool) :
    Inv { s with world := s.world.openSocket mount creates } := by
  unfold openSocket
  split
  · -- Nothing is mounted.
    rename_i hclosed
    have hno : ¬ Mounted s.world := by
      intro hm
      rw [h.mounted hm] at hclosed
      exact Bool.false_ne_true hclosed
    exact {
      base := h.base
      stale := h.stale
      absent := h.absent
      mounted := h.mounted
      unmounted := fun _ => .inl hclosed
      timers := h.timers
      spent := fun hm => absurd hm hno
      counted := h.counted
      worn := h.worn
      stopped := fun hm _ => absurd hm hno }
  -- A ticket arrived, and the hook was not closed meanwhile
  · rename_i hopen
    have hm : Mounted s.world := by
      by_contra hno
      exact hopen (h.unmounted hno)
    have hspent := h.spent hm
    -- Creating the socket may raise, which gives up
    split
    · exact {
        base := h.base
        stale := h.stale
        absent := h.absent
        mounted := h.mounted
        unmounted := fun hno => absurd hm hno
        timers := h.timers
        spent := by
          intro _
          show (s.world.created - s.base) + (s.world.tickets.length - s.stale) +
            s.world.reconnects.length + (maxAttempts - s.world.attempts) ≤ maxAttempts + 1
          omega
        counted := h.counted
        worn := fun _ => rfl
        stopped := fun _ _ => rfl }
    · -- The new socket is not closed.
      have hsocket : ∀ k, (s.world.setSocket s.world.created (.new mount)).sockets k =
          if k = s.world.created then .new mount else s.world.sockets k := fun _ => rfl
      have hbase := h.base
      exact {
        base := by
          show s.base ≤ s.world.created + 1
          omega
        stale := h.stale
        absent := by
          intro k hk
          have hk : s.world.created + 1 ≤ k := hk
          have hne : k ≠ s.world.created := by omega
          show ((s.world.setSocket s.world.created (.new mount)).sockets k).readyState = .closed
          rw [hsocket, if_neg hne]
          exact h.absent k (by omega)
        mounted := h.mounted
        unmounted := fun hno => absurd hm hno
        timers := h.timers
        spent := by
          intro _
          show (s.world.created + 1 - s.base) + (s.world.tickets.length - s.stale) +
            s.world.reconnects.length + (maxAttempts - s.world.attempts) ≤ maxAttempts + 1
          omega
        -- Nor are there more closed sockets than before
        counted := by
          intro _
          apply Nat.le_trans _ (h.counted hm)
          apply Finset.card_le_card
          intro k hk
          obtain ⟨hmem, hclosed⟩ := Finset.mem_filter.mp hk
          obtain ⟨hle, hlt⟩ := Finset.mem_Ico.mp hmem
          have hlt : k < s.world.created + 1 := hlt
          have hclosed : ((s.world.setSocket s.world.created (.new mount)).sockets k).readyState =
            .closed := hclosed
          rw [hsocket] at hclosed
          by_cases hk : k = s.world.created
          · rw [if_pos hk] at hclosed
            exact nomatch hclosed
          · rw [if_neg hk] at hclosed
            apply Finset.mem_filter.mpr
            exact ⟨Finset.mem_Ico.mpr ⟨hle, by omega⟩, hclosed⟩
        worn := h.worn
        stopped := by
          rintro - ⟨-, -, hall⟩
          have hnew := hall s.world.created
          have hnew : ((s.world.setSocket s.world.created (.new mount)).sockets
            s.world.created).readyState = .closed := hnew
          rw [hsocket, if_pos rfl] at hnew
          exact nomatch hnew }

/-- `Inv` is kept by `connect`. -/
theorem connect_inv {s : Watch} (h : Ready s) (mount : Nat) (hasTicketSource creates : Bool) :
    Inv { s with world := s.world.connect mount hasTicketSource creates } := by
  unfold connect
  split
  · have hstale := h.stale
    have hlength : (s.world.tickets ++ [mount]).length = s.world.tickets.length + 1 :=
      List.length_append
    exact {
      base := h.base
      stale := by
        show s.stale ≤ (s.world.tickets ++ [mount]).length
        omega
      absent := h.absent
      mounted := h.mounted
      unmounted := fun hno => .inl (h.unmounted hno)
      timers := h.timers
      spent := by
        intro hm
        have hspent := h.spent hm
        show (s.world.created - s.base) + ((s.world.tickets ++ [mount]).length - s.stale) +
          s.world.reconnects.length + (maxAttempts - s.world.attempts) ≤ maxAttempts + 1
        omega
      counted := h.counted
      worn := h.worn
      stopped := by
        rintro - ⟨htickets, -⟩
        exact absurd htickets (by simp) }
  · exact openSocket_inv h mount creates

/-! ## The steps -/

/-- `Inv` holds at first. -/
theorem inv_init : Inv watch.init where
  base := Nat.le_refl 0
  stale := Nat.le_refl 0
  absent _ _ := rfl
  mounted h := nomatch h
  unmounted _ := .inr ⟨rfl, rfl, rfl⟩
  timers := by decide
  spent h := nomatch h
  counted h := nomatch h
  worn h := absurd h (by decide)
  stopped h := nomatch h

section Steps

variable {s : Watch} {w : World} (h : Inv s)
include h

/-- A mount starts counting sockets afresh, but not failures. -/
theorem mountEffect_inv {enabled hasTicketSource creates : Bool}
    (hstep : s.world.mountEffect enabled hasTicketSource creates = some w) :
    Inv { world := w, base := s.world.created, stale := s.world.tickets.length } := by
  unfold mountEffect at hstep
  split at hstep
  · cases hstep
  · rename_i heffect
    have hno : ¬ Mounted s.world := by
      intro hm
      rw [Mounted, heffect] at hm
      cases hm
    split at hstep
    · obtain rfl := Option.some.inj hstep
      exact {
        base := Nat.le_refl _
        stale := Nat.le_refl _
        absent := h.absent
        mounted := fun hm => by cases hm
        unmounted := fun _ => h.unmounted hno
        timers := h.timers
        spent := fun hm => by cases hm
        counted := fun hm => by cases hm
        worn := fun _ => rfl
        stopped := fun hm => by cases hm }
    · obtain rfl := Option.some.inj hstep
      obtain ⟨hattempts, hmax⟩ := h.timers
      -- The count begins anew with the mount
      have hready : Ready {
          world := { s.world with
            effect := some true, mounts := s.world.mounts + 1, closedByUs := false }
          base := s.world.created, stale := s.world.tickets.length } := {
        base := Nat.le_refl _
        stale := Nat.le_refl _
        absent := h.absent
        mounted := fun _ => rfl
        unmounted := fun hno => absurd rfl hno
        timers := h.timers
        spent := by
          intro _
          show (s.world.created - s.world.created) +
            (s.world.tickets.length - s.world.tickets.length) + s.world.reconnects.length +
            (maxAttempts - s.world.attempts) ≤ maxAttempts
          omega
        counted := by
          intro _
          show ((Finset.Ico s.world.created s.world.created).filter _).card ≤ _
          simp
        worn := h.worn }
      exact connect_inv hready (s.world.mounts + 1) hasTicketSource creates

/-- `Inv` is kept by the cleanup. -/
theorem cleanup_inv (hstep : s.world.cleanup = some w) : Inv { s with world := w } := by
  unfold cleanup at hstep
  split at hstep
  · cases hstep
  · rename_i heffect
    have hno : ¬ Mounted s.world := by
      intro hm
      rw [Mounted, heffect] at hm
      cases hm
    obtain rfl := Option.some.inj hstep
    exact {
      base := h.base
      stale := h.stale
      absent := h.absent
      mounted := fun hm => by cases hm
      unmounted := fun _ => h.unmounted hno
      timers := h.timers
      spent := fun hm => by cases hm
      counted := fun hm => by cases hm
      worn := h.worn
      stopped := fun hm => by cases hm }
  · obtain rfl := Option.some.inj hstep
    -- At most the one timer is cleared
    have hfewer : (s.world.reconnectsWithout s.world.timerRef).length ≤
        s.world.reconnects.length := by
      unfold reconnectsWithout
      split
      · exact Nat.le_refl _
      · exact List.length_filter_le _ _
    exact {
      base := h.base
      stale := h.stale
      -- The socket the hook held begins to close
      absent := by
        intro k hk
        have hclosed := h.absent k hk
        show (s.world.socketsClosing s.world.socketRef k).readyState = .closed
        cases socketsClosing_cases s.world k with
        | inl hheld =>
          rw [hheld.2]
          show (if (s.world.sockets k).readyState = .closed then ReadyState.closed
            else .closing) = .closed
          rw [if_pos hclosed]
        | inr hother =>
          rw [hother.2]
          exact hclosed
      mounted := fun hm => by cases hm
      unmounted := fun _ => .inl rfl
      timers := ⟨Nat.le_trans hfewer h.timers.1, Nat.le_trans hfewer h.timers.2⟩
      spent := fun hm => by cases hm
      counted := fun hm => by cases hm
      worn := h.worn
      stopped := fun hm => by cases hm }

/-- A ticket that opens a socket was counted when it was asked for. -/
theorem ticketArrives_inv {i : Nat} {granted creates : Bool}
    (hok : CountKept s (.ticket i granted creates))
    (hstep : s.world.ticketArrives i granted creates = some w) :
    Inv { s with world := w, stale := if i < s.stale then s.stale - 1 else s.stale } := by
  unfold ticketArrives at hstep
  split at hstep
  · exact nomatch hstep
  · rename_i mount hget
    obtain rfl := Option.some.inj hstep
    obtain ⟨hbound, -⟩ := List.getElem?_eq_some_iff.mp hget
    have hlength : (s.world.tickets.eraseIdx i).length = s.world.tickets.length - 1 :=
      List.length_eraseIdx_of_lt hbound
    have hstale := h.stale
    -- A ticket from before the mount counts for none of its attempts
    have hfewer : (if i < s.stale then s.stale - 1 else s.stale) ≤
        (s.world.tickets.eraseIdx i).length := by
      split <;> omega
    have hunmounted : ¬ Mounted s.world → s.world.closedByUs = true := by
      intro hno
      cases h.unmounted hno with
      | inl hclosed => exact hclosed
      | inr hnothing =>
        rw [hnothing.2.1] at hbound
        exact nomatch hbound
    cases granted with
    | false =>
      exact {
        base := h.base
        stale := hfewer
        absent := h.absent
        mounted := h.mounted
        unmounted := fun hno => .inl (hunmounted hno)
        timers := h.timers
        spent := by
          intro hm
          have hspent := h.spent hm
          show (s.world.created - s.base) + ((s.world.tickets.eraseIdx i).length -
            (if i < s.stale then s.stale - 1 else s.stale)) + s.world.reconnects.length +
            (maxAttempts - s.world.attempts) ≤ maxAttempts + 1
          split <;> omega
        counted := h.counted
        worn := fun _ => rfl
        stopped := fun _ _ => rfl }
    -- The one of the mount is traded for a socket
    | true =>
      have hready : Ready { s with
          world := { s.world with tickets := s.world.tickets.eraseIdx i }
          stale := if i < s.stale then s.stale - 1 else s.stale } := {
        base := h.base
        stale := hfewer
        absent := h.absent
        mounted := h.mounted
        unmounted := hunmounted
        timers := h.timers
        spent := by
          intro hm
          have hspent := h.spent hm
          show (s.world.created - s.base) + ((s.world.tickets.eraseIdx i).length -
            (if i < s.stale then s.stale - 1 else s.stale)) + s.world.reconnects.length +
            (maxAttempts - s.world.attempts) ≤ maxAttempts
          cases hok rfl with
          | inl hle =>
            rw [if_neg (by omega)]
            omega
          | inr hclosed =>
            rw [h.mounted hm] at hclosed
            exact nomatch hclosed
        counted := h.counted
        worn := h.worn }
      exact openSocket_inv hready mount creates

/-- `Inv` is kept when a reconnection is due. -/
theorem reconnectFires_inv {handle : Nat} {hasTicketSource creates : Bool}
    (hstep : s.world.reconnectFires handle hasTicketSource creates = some w) :
    Inv { s with world := w } := by
  unfold reconnectFires at hstep
  split at hstep
  · exact nomatch hstep
  · rename_i timer hfind
    obtain rfl := Option.some.inj hstep
    have hmem : timer ∈ s.world.reconnects := List.mem_of_find?_eq_some hfind
    have hhandle : timer.handle = handle := by simpa using List.find?_some hfind
    -- The timer that fired is gone, which makes room for one connection
    have hfewer : (s.world.reconnectsWithout (some handle)).length <
        s.world.reconnects.length := by
      apply List.length_filter_lt_length_iff_exists.mpr
      exact ⟨timer, hmem, by simp [hhandle]⟩
    obtain ⟨hattempts, hmax⟩ := h.timers
    have hready : Ready { s with
        world := { s.world with reconnects := s.world.reconnectsWithout (some handle) } } := {
      base := h.base
      stale := h.stale
      absent := h.absent
      mounted := h.mounted
      unmounted := by
        intro hno
        cases h.unmounted hno with
        | inl hclosed => exact hclosed
        | inr hnothing =>
          rw [hnothing.2.2] at hmem
          exact nomatch hmem
      timers := by
        show (s.world.reconnectsWithout (some handle)).length ≤ s.world.attempts ∧
          (s.world.reconnectsWithout (some handle)).length ≤ maxAttempts
        omega
      spent := by
        intro hm
        have hspent := h.spent hm
        show (s.world.created - s.base) + (s.world.tickets.length - s.stale) +
          (s.world.reconnectsWithout (some handle)).length +
          (maxAttempts - s.world.attempts) ≤ maxAttempts
        omega
      counted := h.counted
      worn := h.worn }
    exact connect_inv hready timer.mount hasTicketSource creates

/-- The count that an open event sets to 0 was 0. -/
theorem onopen_inv {k : Nat} (hok : CountKept s (.opened k))
    (hstep : s.world.onopen k = some w) : Inv { s with world := w } := by
  -- The condition says that an opened socket resets nothing
  have hzero : s.world.attempts = 0 := hok
  unfold onopen at hstep
  split at hstep
  · rename_i hconnecting
    obtain rfl := Option.some.inj hstep
    have hsocket : Inv { s with
        world := s.world.setSocket k { s.world.sockets k with readyState := .opened } } := by
      apply h.setSocket
      rw [hconnecting]
      show ReadyState.opened = .closed ↔ ReadyState.connecting = .closed
      decide
    have hopened : ((s.world.setSocket k
        { s.world.sockets k with readyState := .opened }).sockets k).readyState = .opened := by
      show (if k = k then _ else _ : Socket).readyState = .opened
      rw [if_pos rfl]
    exact {
      base := hsocket.base
      stale := hsocket.stale
      absent := hsocket.absent
      mounted := hsocket.mounted
      unmounted := hsocket.unmounted
      timers := by
        have htimers := hsocket.timers
        rw [show (s.world.setSocket k _).attempts = 0 from hzero] at htimers
        exact htimers
      spent := by
        intro hm
        have hspent := hsocket.spent hm
        rw [show (s.world.setSocket k _).attempts = 0 from hzero] at hspent
        exact hspent
      counted := by
        intro hm
        have hcounted := hsocket.counted hm
        rw [show (s.world.setSocket k _).attempts = 0 from hzero] at hcounted
        exact hcounted
      worn := fun hw => absurd hw (Nat.not_lt_zero _)
      stopped := by
        rintro - ⟨-, -, hall⟩
        have hclosed := hall k
        rw [show _ = ReadyState.opened from hopened] at hclosed
        exact nomatch hclosed }
  · exact nomatch hstep

/-- A close event counts a failure, whichever mount the socket is of. -/
theorem closeEvent_inv {k : Nat} (hstep : s.world.closeEvent k = some w) :
    Inv { s with world := w } := by
  unfold closeEvent at hstep
  split at hstep
  · exact nomatch hstep
  · rename_i hlive
    obtain rfl := Option.some.inj hstep
    have hsocket : ∀ j, (s.world.setSocket k
        { s.world.sockets k with readyState := .closed }).sockets j =
        if j = k then { s.world.sockets k with readyState := .closed } else s.world.sockets j :=
      fun _ => rfl
    have habsent : ∀ j, s.world.created ≤ j → ((s.world.setSocket k
        { s.world.sockets k with readyState := .closed }).sockets j).readyState = .closed := by
      intro j hj
      rw [hsocket]
      split
      · rfl
      · exact h.absent j hj
    -- A socket was there to close
    have hcreated : s.world.created ≠ 0 := by
      intro hzero
      exact hlive (h.absent k (by omega))
    have hunmounted : ¬ Mounted s.world → s.world.closedByUs = true := by
      intro hno
      cases h.unmounted hno with
      | inl hclosed => exact hclosed
      | inr hnothing => exact absurd hnothing.1 hcreated
    -- One more socket is closed, and one more attempt counted
    have hcounted : Mounted s.world → (((Finset.Ico s.base s.world.created).filter fun j =>
        ((s.world.setSocket k { s.world.sockets k with readyState := .closed }).sockets
          j).readyState = .closed)).card ≤ s.world.attempts + 1 := by
      intro hm
      have hsub : ((Finset.Ico s.base s.world.created).filter fun j =>
          ((s.world.setSocket k { s.world.sockets k with readyState := .closed }).sockets
            j).readyState = .closed) ⊆ insert k (closedSince s) := by
        intro j hj
        obtain ⟨hmem, hclosed⟩ := Finset.mem_filter.mp hj
        rw [hsocket] at hclosed
        by_cases hjk : j = k
        · rw [hjk]
          exact Finset.mem_insert_self _ _
        · rw [if_neg hjk] at hclosed
          exact Finset.mem_insert_of_mem (Finset.mem_filter.mpr ⟨hmem, hclosed⟩)
      have hcard := Finset.card_le_card hsub
      have hinsert := Finset.card_insert_le k (closedSince s)
      have hbefore := h.counted hm
      omega
    obtain ⟨hattempts, hmax⟩ := h.timers
    unfold onclose
    dsimp only
    split
    -- The hook was closed, so no timer is set
    · rename_i hclosed
      have hclosed : s.world.closedByUs = true := hclosed
      have hno : ¬ Mounted s.world := by
        intro hm
        rw [h.mounted hm] at hclosed
        exact nomatch hclosed
      exact {
        base := h.base
        stale := h.stale
        absent := habsent
        mounted := h.mounted
        unmounted := fun _ => .inl hclosed
        timers := h.timers
        spent := fun hm => absurd hm hno
        counted := fun hm => absurd hm hno
        worn := h.worn
        stopped := fun hm => absurd hm hno }
    -- Past the last attempt the hook stops, else it sets a timer
    · split
      · exact {
          base := h.base
          stale := h.stale
          absent := habsent
          mounted := h.mounted
          unmounted := fun hno => .inl (hunmounted hno)
          timers := ⟨Nat.le_succ_of_le hattempts, hmax⟩
          spent := by
            intro hm
            have hspent := h.spent hm
            show (s.world.created - s.base) + (s.world.tickets.length - s.stale) +
              s.world.reconnects.length + (maxAttempts - (s.world.attempts + 1)) ≤ maxAttempts + 1
            omega
          counted := hcounted
          worn := fun _ => rfl
          stopped := fun _ _ => rfl }
      · rename_i hleft
        have hleft : ¬ maxAttempts < s.world.attempts + 1 := hleft
        have hlength : ∀ r : Reconnect,
            (s.world.reconnects ++ [r]).length = s.world.reconnects.length + 1 :=
          fun _ => List.length_append
        exact {
          base := h.base
          stale := h.stale
          absent := habsent
          mounted := h.mounted
          unmounted := fun hno => .inl (hunmounted hno)
          timers := by
            show (s.world.reconnects ++ [_]).length ≤ s.world.attempts + 1 ∧
              (s.world.reconnects ++ [_]).length ≤ maxAttempts
            rw [hlength]
            omega
          spent := by
            intro hm
            have hspent := h.spent hm
            show (s.world.created - s.base) + (s.world.tickets.length - s.stale) +
              (s.world.reconnects ++ [_]).length + (maxAttempts - (s.world.attempts + 1)) ≤
              maxAttempts + 1
            rw [hlength]
            omega
          counted := hcounted
          worn := fun hw => absurd hw hleft
          stopped := by
            rintro - ⟨-, hnone, -⟩
            have hnone : s.world.reconnects ++ [_] = [] := hnone
            exact absurd hnone (by simp) }

/-- `Inv` is kept by `deliver`, which changes nothing it looks at. -/
theorem deliver_inv {k : Nat} (hstep : s.world.deliver k = some w) :
    Inv { s with world := w } := by
  unfold deliver at hstep
  split at hstep
  · rename_i message rest hopened hinbox
    obtain rfl := Option.some.inj hstep
    have hsocket : Inv { s with
        world := s.world.setSocket k { s.world.sockets k with inbox := rest } } :=
      h.setSocket Iff.rfl
    unfold onmessage
    split
    · split
      · exact hsocket.frame (fun _ => Iff.rfl) rfl rfl rfl rfl rfl rfl rfl
      · exact hsocket
    · split
      · exact hsocket.frame (fun _ => Iff.rfl) rfl rfl rfl rfl rfl rfl rfl
      · exact hsocket
    · exact hsocket.frame (fun _ => Iff.rfl) rfl rfl rfl rfl rfl rfl rfl
    · exact hsocket
    · exact hsocket
    · exact hsocket
  · exact nomatch hstep

/-- `Inv` is kept when a socket begins to close. -/
theorem closingStarts_inv {k : Nat} (hstep : s.world.closingStarts k = some w) :
    Inv { s with world := w } := by
  unfold closingStarts at hstep
  split at hstep
  · rename_i hstate
    obtain rfl := Option.some.inj hstep
    apply h.setSocket
    rw [hstate]
    show ReadyState.closing = .closed ↔ ReadyState.connecting = .closed
    decide
  · rename_i hstate
    obtain rfl := Option.some.inj hstep
    apply h.setSocket
    rw [hstate]
    show ReadyState.closing = .closed ↔ ReadyState.opened = .closed
    decide
  · exact nomatch hstep

/-- `Inv` is kept by `ask`. -/
theorem ask_inv (question : String) (conversationId : Option String) :
    Inv { s with world := (s.world.ask question conversationId).2 } := by
  unfold World.ask
  split
  · exact h
  · split
    · exact h
    · rename_i k hk
      have hsocket : Inv { s with world := s.world.setSocket k { s.world.sockets k with
          asks := if (s.world.sockets k).serving then (s.world.sockets k).asks ++
            [{ number := s.world.asked, question, conversationId }]
            else (s.world.sockets k).asks } } := h.setSocket Iff.rfl
      exact hsocket.frame (fun _ => Iff.rfl) rfl rfl rfl rfl rfl rfl rfl

/-- `Inv` is kept when an answer times out. -/
theorem answerTimeout_inv {handle : Nat} (hstep : s.world.answerTimeout handle = some w) :
    Inv { s with world := w } := by
  unfold World.answerTimeout at hstep
  split at hstep
  · dsimp only at hstep
    split at hstep
    · obtain rfl := Option.some.inj hstep
      exact h.frame (fun _ => Iff.rfl) rfl rfl rfl rfl rfl rfl rfl
    · obtain rfl := Option.some.inj hstep
      exact h.frame (fun _ => Iff.rfl) rfl rfl rfl rfl rfl rfl rfl
  · exact nomatch hstep

end Steps

/-! ## Every run -/

/-- `Inv` is kept by every step that keeps the count. -/
theorem inv_step {s s' : Watch} {e : RealtimeEvent} (h : Inv s) (hok : CountKept s e)
    (hstep : watch.step s e = some s') : Inv s' := by
  obtain ⟨w, hw, hs'⟩ := Option.map_eq_some_iff.mp hstep
  subst hs'
  cases e with
  | mountEffect enabled hasTicketSource creates => exact mountEffect_inv h hw
  | cleanup => exact cleanup_inv h hw
  | ticket i granted creates => exact ticketArrives_inv h hok hw
  | reconnect handle hasTicketSource creates => exact reconnectFires_inv h hw
  | opened k => exact onopen_inv h hok hw
  | closed k => exact closeEvent_inv h hw
  | deliver k => exact deliver_inv h hw
  | closing k => exact closingStarts_inv h hw
  -- The other events create no socket and close none
  | ask question conversationId =>
    have hw : some (s.world.ask question conversationId).2 = some w := hw
    obtain rfl := Option.some.inj hw
    exact ask_inv h question conversationId
  | answerTimeout handle => exact answerTimeout_inv h hw
  | serve k frame =>
    have hw : s.world.serve k frame = some w := hw
    unfold World.serve at hw
    split at hw
    · exact nomatch hw
    · obtain rfl := Option.some.inj hw
      exact h.setSocket Iff.rfl
  | serverFinishes k =>
    have hw : s.world.serverFinishes k = some w := hw
    unfold World.serverFinishes at hw
    split at hw
    · exact nomatch hw
    · obtain rfl := Option.some.inj hw
      exact h.setSocket Iff.rfl
  | greet k connectionId =>
    have hw : s.world.greet k connectionId = some w := hw
    unfold World.greet at hw
    split at hw
    · obtain rfl := Option.some.inj hw
      exact h.setSocket Iff.rfl
    · exact nomatch hw
  | serverStops k =>
    have hw : some (s.world.serverStops k) = some w := hw
    obtain rfl := Option.some.inj hw
    exact h.setSocket Iff.rfl

/-! ## Giving up is for good -/

/-- What no step but an unmount takes back. -/
structure Kept (s s' : Watch) : Prop where
  mounted : Mounted s'.world
  base : s'.base = s.base
  created : s.world.created ≤ s'.world.created
  attempts : s.world.attempts ≤ s'.world.attempts

/-- What is kept twice is kept. -/
theorem Kept.trans {s t u : Watch} (h : Kept s t) (h' : Kept t u) : Kept s u where
  mounted := h'.mounted
  base := h'.base.trans h.base
  created := Nat.le_trans h.created h'.created
  attempts := Nat.le_trans h.attempts h'.attempts

/-- An attempt to connect creates a socket or does not, and counts no failure. -/
theorem openSocket_kept (w : World) (mount : Nat) (creates : Bool) :
    (w.openSocket mount creates).effect = w.effect ∧
      w.created ≤ (w.openSocket mount creates).created ∧
      (w.openSocket mount creates).attempts = w.attempts := by
  unfold openSocket
  split
  · exact ⟨rfl, Nat.le_refl _, rfl⟩
  · split
    · exact ⟨rfl, Nat.le_refl _, rfl⟩
    · exact ⟨rfl, Nat.le_succ _, rfl⟩

/-- `connect` keeps the mount, and creates at most more. -/
theorem connect_kept (w : World) (mount : Nat) (hasTicketSource creates : Bool) :
    (w.connect mount hasTicketSource creates).effect = w.effect ∧
      w.created ≤ (w.connect mount hasTicketSource creates).created ∧
      (w.connect mount hasTicketSource creates).attempts = w.attempts := by
  unfold connect
  split
  · exact ⟨rfl, Nat.le_refl _, rfl⟩
  · exact openSocket_kept w mount creates

/-- A close event adds to the count. -/
theorem onclose_kept (w : World) (mount : Nat) :
    (w.onclose mount).effect = w.effect ∧ w.created = (w.onclose mount).created ∧
      w.attempts ≤ (w.onclose mount).attempts := by
  unfold onclose
  dsimp only
  split
  · exact ⟨rfl, rfl, Nat.le_refl _⟩
  · split
    · exact ⟨rfl, rfl, Nat.le_succ _⟩
    · exact ⟨rfl, rfl, Nat.le_succ _⟩

/-- `onmessage` keeps the mount and the count. -/
theorem onmessage_kept (w : World) (source : Option Nat) (frame : ServerFrame) :
    (w.onmessage source frame).effect = w.effect ∧
      w.created = (w.onmessage source frame).created ∧
      w.attempts = (w.onmessage source frame).attempts := by
  unfold onmessage
  split
  · split
    · exact ⟨rfl, rfl, rfl⟩
    · exact ⟨rfl, rfl, rfl⟩
  · split
    · exact ⟨rfl, rfl, rfl⟩
    · exact ⟨rfl, rfl, rfl⟩
  all_goals exact ⟨rfl, rfl, rfl⟩

/-- Every step but a cleanup keeps what `Kept` says. -/
theorem kept_step {s s' : Watch} {e : RealtimeEvent} (hm : Mounted s.world)
    (hok : CountKept s e) (hne : e ≠ .cleanup) (hstep : watch.step s e = some s') :
    Kept s s' := by
  obtain ⟨w, hw, hs'⟩ := Option.map_eq_some_iff.mp hstep
  subst hs'
  cases e with
  | mountEffect enabled hasTicketSource creates =>
    -- It is in force already.
    have hw : s.world.mountEffect enabled hasTicketSource creates = some w := hw
    unfold mountEffect at hw
    rw [show s.world.effect = some true from hm] at hw
    exact nomatch hw
  | cleanup => exact absurd rfl hne
  -- A mounted hook stays mounted, creates sockets but takes none back, and counts its attempts up
  | ticket i granted creates =>
    have hw : s.world.ticketArrives i granted creates = some w := hw
    unfold ticketArrives at hw
    split at hw
    · exact nomatch hw
    · rename_i mount hget
      obtain rfl := Option.some.inj hw
      cases granted with
      | false => exact ⟨hm, rfl, Nat.le_refl _, Nat.le_refl _⟩
      | true =>
        obtain ⟨heffect, hcreated, hattempts⟩ := openSocket_kept
          { s.world with tickets := s.world.tickets.eraseIdx i } mount creates
        exact ⟨heffect.trans hm, rfl, hcreated, Nat.le_of_eq hattempts.symm⟩
  | reconnect handle hasTicketSource creates =>
    have hw : s.world.reconnectFires handle hasTicketSource creates = some w := hw
    unfold reconnectFires at hw
    split at hw
    · exact nomatch hw
    · rename_i timer hfind
      obtain rfl := Option.some.inj hw
      obtain ⟨heffect, hcreated, hattempts⟩ := connect_kept
        { s.world with reconnects := s.world.reconnectsWithout (some handle) } timer.mount
        hasTicketSource creates
      exact ⟨heffect.trans hm, rfl, hcreated, Nat.le_of_eq hattempts.symm⟩
  -- Only an opened socket could count them down, and the condition says there are none
  | opened k =>
    have hzero : s.world.attempts = 0 := hok
    have hw : s.world.onopen k = some w := hw
    unfold onopen at hw
    split at hw
    · obtain rfl := Option.some.inj hw
      exact ⟨hm, rfl, Nat.le_refl _, Nat.le_of_eq hzero⟩
    · exact nomatch hw
  -- A close counts one attempt more
  | closed k =>
    have hw : s.world.closeEvent k = some w := hw
    unfold closeEvent at hw
    split at hw
    · exact nomatch hw
    · obtain rfl := Option.some.inj hw
      obtain ⟨heffect, hcreated, hattempts⟩ := onclose_kept
        (s.world.setSocket k { s.world.sockets k with readyState := .closed })
        (s.world.sockets k).mount
      exact ⟨heffect.trans hm, rfl, Nat.le_of_eq hcreated, hattempts⟩
  | deliver k =>
    have hw : s.world.deliver k = some w := hw
    unfold deliver at hw
    split at hw
    · rename_i message rest hopened hinbox
      obtain rfl := Option.some.inj hw
      obtain ⟨heffect, hcreated, hattempts⟩ := onmessage_kept
        (s.world.setSocket k { s.world.sockets k with inbox := rest }) message.source message.frame
      exact ⟨heffect.trans hm, rfl, Nat.le_of_eq hcreated, Nat.le_of_eq hattempts⟩
    · exact nomatch hw
  | closing k =>
    have hw : s.world.closingStarts k = some w := hw
    unfold closingStarts at hw
    split at hw
    · obtain rfl := Option.some.inj hw
      exact ⟨hm, rfl, Nat.le_refl _, Nat.le_refl _⟩
    · obtain rfl := Option.some.inj hw
      exact ⟨hm, rfl, Nat.le_refl _, Nat.le_refl _⟩
    · exact nomatch hw
  | ask question conversationId =>
    have hw : some (s.world.ask question conversationId).2 = some w := hw
    obtain rfl := Option.some.inj hw
    unfold World.ask
    dsimp only
    split
    · exact ⟨hm, rfl, Nat.le_refl _, Nat.le_refl _⟩
    · split
      · exact ⟨hm, rfl, Nat.le_refl _, Nat.le_refl _⟩
      · exact ⟨hm, rfl, Nat.le_refl _, Nat.le_refl _⟩
  | answerTimeout handle =>
    have hw : s.world.answerTimeout handle = some w := hw
    unfold World.answerTimeout at hw
    split at hw
    · dsimp only at hw
      split at hw
      · obtain rfl := Option.some.inj hw
        exact ⟨hm, rfl, Nat.le_refl _, Nat.le_refl _⟩
      · obtain rfl := Option.some.inj hw
        exact ⟨hm, rfl, Nat.le_refl _, Nat.le_refl _⟩
    · exact nomatch hw
  | serve k frame =>
    have hw : s.world.serve k frame = some w := hw
    unfold World.serve at hw
    split at hw
    · exact nomatch hw
    · obtain rfl := Option.some.inj hw
      exact ⟨hm, rfl, Nat.le_refl _, Nat.le_refl _⟩
  | serverFinishes k =>
    have hw : s.world.serverFinishes k = some w := hw
    unfold World.serverFinishes at hw
    split at hw
    · exact nomatch hw
    · obtain rfl := Option.some.inj hw
      exact ⟨hm, rfl, Nat.le_refl _, Nat.le_refl _⟩
  | greet k connectionId =>
    have hw : s.world.greet k connectionId = some w := hw
    unfold World.greet at hw
    split at hw
    · obtain rfl := Option.some.inj hw
      exact ⟨hm, rfl, Nat.le_refl _, Nat.le_refl _⟩
    · exact nomatch hw
  | serverStops k =>
    have hw : some (s.world.serverStops k) = some w := hw
    obtain rfl := Option.some.inj hw
    exact ⟨hm, rfl, Nat.le_refl _, Nat.le_refl _⟩

/-- `Inv` holds wherever a run that keeps the count has come to. -/
theorem inv_of_reachable {s : Watch} (h : watch.ReachableVia CountKept s) : Inv s :=
  h.invariant inv_init fun _ _ _ hinv hok hstep => inv_step hinv hok hstep

/-- Without an unmount a run keeps what no step takes back. -/
theorem kept_run {s s' : Watch} (hm : Mounted s.world) (es : List RealtimeEvent)
    (hmeets : watch.Meets CountKept s es) (hstay : .cleanup ∉ es)
    (hrun : watch.runFrom s es = some s') : Kept s s' := by
  induction es generalizing s with
  | nil =>
    obtain rfl := Option.some.inj hrun
    exact ⟨hm, rfl, Nat.le_refl _, Nat.le_refl _⟩
  | cons e es ih =>
    rw [List.mem_cons, not_or] at hstay
    obtain ⟨s₁, hstep, hrest⟩ := Option.bind_eq_some_iff.mp hrun
    have hkept := kept_step hm hmeets.1 (Ne.symm hstay.1) hstep
    exact hkept.trans (ih hkept.mounted (hmeets.2 s₁ hstep) hstay.2 hrest)

/-- In every run whose open events find no failure counted, and whose granted tickets were
    asked for in the mount in force, a mount opens `maxAttempts + 1` sockets at most. When
    they have closed the hook is unavailable, and stays so, opening no other, until it
    unmounts; so it is when nothing is on its way any more. -/
theorem outage_bounded (s : Watch) (h : watch.ReachableVia CountKept s) :
    GivesUp s ∧
      (Mounted s.world → Spent s → ∀ es s', watch.Meets CountKept s es → .cleanup ∉ es →
        watch.runFrom s es = some s' →
        s'.opened = maxAttempts + 1 ∧ s'.world.state = .unavailable) := by
  have hinv := inv_of_reachable h
  constructor
  · exact hinv.givesUp
  · intro hm hspent es s' hmeets hstay hrun
    have hkept := kept_run hm es hmeets hstay hrun
    have hinv' := inv_of_reachable (h.runFrom es hmeets hrun)
    have hopened : s.world.created - s.base = maxAttempts + 1 := hspent.1
    have hbound : s'.world.created - s'.base ≤ maxAttempts + 1 := (hinv'.givesUp hkept.mounted).1
    have hbase := hkept.base
    have hcreated := hkept.created
    constructor
    · show s'.world.created - s'.base = maxAttempts + 1
      omega
    · -- The count of failures only grows.
      have hworn := hinv.attempts_of_spent hm hspent
      have hattempts := hkept.attempts
      apply hinv'.worn
      omega

/-- A server that is down: every socket fails before it opens. -/
private def down : List RealtimeEvent :=
  .mountEffect true false true ::
    (List.range maxAttempts).flatMap (fun k => [.closed k, .reconnect k false true]) ++
    [.closed maxAttempts]

/-- Without open events and tickets the count is kept. -/
private theorem meets_of_uncounted (es : List RealtimeEvent) (s : Watch)
    (h : ∀ e ∈ es, ∀ t, CountKept t e) : watch.Meets CountKept s es := by
  induction es generalizing s with
  | nil => trivial
  | cons e es ih =>
    constructor
    · exact h e List.mem_cons_self s
    · intro s' _
      exact ih s' fun e' hmem => h e' (List.mem_cons_of_mem e hmem)

/-- In the run with a server that is down the count is kept. -/
private theorem down_meets : watch.Meets CountKept watch.init down := by
  apply meets_of_uncounted
  intro e hmem t
  simp only [down, List.cons_append, List.mem_cons, List.mem_append, List.mem_flatMap,
    List.not_mem_nil, or_false] at hmem
  rcases hmem with rfl | ⟨k, -, rfl | rfl⟩ | rfl
  all_goals trivial

/-- A run against a server that is down gives up after six sockets. -/
theorem outage_bounded_down :
    ∃ s, watch.run down = some s ∧ Mounted s.world ∧ s.opened = 6 ∧
      s.world.state = .unavailable := by
  have hreach := Machine.reachableVia_of_run (M := watch) down down_meets rfl
  have hgone := ((outage_bounded _ hreach).1 rfl).2
  refine ⟨_, rfl, rfl, rfl, hgone (.inl ⟨rfl, ?_⟩)⟩
  intro k _
  by_cases hk : k < 6
  · interval_cases k
    all_goals rfl
  · exact (inv_of_reachable hreach).absent k (Nat.le_of_not_lt hk)

/-- A server that is up, and at capacity: it accepts every socket and closes it. -/
private def refusing : List RealtimeEvent :=
  .mountEffect true false true ::
    (List.range (maxAttempts + 1)).flatMap fun k =>
      [.opened k, .closing k, .closed k, .reconnect k false true]

private def delivers : RealtimeEvent → Bool
  | .deliver _ => true
  | _ => false

/-- A run against a server that accepts and closes opens a seventh socket, without a frame
    delivered. -/
theorem refusals_uncounted :
    ∃ s, watch.run refusing = some s ∧ refusing.any delivers = false ∧ ¬ GivesUp s := by
  refine ⟨_, rfl, rfl, ?_⟩
  intro h
  exact absurd (h rfl).1 (by decide)

end NexaAssist.Spec.OutageBackoff
