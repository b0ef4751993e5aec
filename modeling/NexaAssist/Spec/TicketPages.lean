import NexaAssist.ForStd.Machine
import NexaAssist.ForStd.Paging
import NexaAssist.Services.Records

/-!
# Every ticket is on a page

A client reads a listing of tickets page by page, by offsets, while tickets are created. The
walk passes over no ticket that was there when it began, and where it shows some twice, it is
for no more of them than tickets were created meanwhile.
-/

namespace NexaAssist.Spec.TicketPages

open PyJson

/-- The size of a page, as `GET /tickets` accepts it. -/
abbrev PageLimit := { limit : Nat // 1 ≤ limit ∧ limit ≤ MAX_PAGE_SIZE }

/-! ## The order of a listing -/

/-- `Uuid.le` compares ids as numbers in base 16. -/
theorem uuid_le_iff (a b : Uuid) : a.le b = true ↔
    a.digits.foldl (fun n d => 16 * n + d.val) 0 ≤ b.digits.foldl (fun n d => 16 * n + d.val) 0 :=
  decide_eq_true_iff

/-- `newestFirst` orders by the time of creation and, at the same time, by the id. -/
theorem newestFirst_iff (a b : Ticket) : newestFirst a b = true ↔
    b.createdAt < a.createdAt ∨ a.createdAt = b.createdAt ∧ b.id.le a.id = true := by
  simp [newestFirst]

instance : IsTrans Ticket (newestFirst · ·) where
  trans a b c hab hbc := by
    rw [newestFirst_iff, uuid_le_iff] at *
    omega

instance : Std.Total fun a b : Ticket => newestFirst a b = true where
  total a b := by
    rw [newestFirst_iff, newestFirst_iff, uuid_le_iff, uuid_le_iff]
    omega

section Walk

variable (status : Option TicketStatus) (scope : Option OwnerScope) (limit : PageLimit)

/-- A whole listing. -/
def listing (tickets : List Ticket) : List Ticket :=
  (tickets.filter (TicketService.matching status scope)).insertionSort (newestFirst · ·)

/-! ## A walk -/

/-- The table, and how far the client is. -/
structure Walk where
  tickets : List Ticket
  offset : Nat
  shown : List Ticket
  /-- How many tickets of the listing were created since the first page. -/
  created : Nat
  finished : Bool

inductive WalkEvent
  /-- Somebody creates a ticket. Its id is a new one, and its time may be any. -/
  | create (ticket : Ticket)
  /-- The client asks for the next page, unless the last one was not full. -/
  | read

def Walk.step (s : Walk) : WalkEvent → Option Walk
  | .create ticket =>
    if ticket.id ∈ s.tickets.map (·.id) then none
    else some { s with
      tickets := s.tickets ++ [ticket]
      created := s.created + if TicketService.matching status scope ticket then 1 else 0 }
  | .read =>
    if s.finished then none
    else
      let items := TicketService.page status scope limit.val s.offset s.tickets
      some { s with
        offset := s.offset + limit.val
        shown := s.shown ++ items
        finished := items.length < limit.val }

/-- A walk over a table that holds `tickets` when it begins. -/
def walk (tickets : List Ticket) : Machine Walk WalkEvent where
  init := { tickets, offset := 0, shown := [], created := 0, finished := false }
  step := Walk.step status scope limit

/-! ## As a reader of the listing -/

/-- What the client sees of a walk. -/
def Walk.pager (s : Walk) : Pager Ticket where
  rows := listing status scope s.tickets
  offset := s.offset
  shown := s.shown
  gained := s.created
  finished := s.finished

variable {status scope limit}

/-- `listing` has the tickets that `matching` takes. -/
theorem mem_listing {tickets : List Ticket} {ticket : Ticket} :
    ticket ∈ listing status scope tickets ↔
      ticket ∈ tickets ∧ TicketService.matching status scope ticket = true := by
  rw [listing, List.mem_insertionSort, List.mem_filter]

/-- `listing` has no ticket twice. -/
theorem nodup_listing {tickets : List Ticket} (h : (tickets.map (·.id)).Nodup) :
    (listing status scope tickets).Nodup :=
  (List.perm_insertionSort _ _).nodup_iff.mpr ((List.Nodup.of_map _ h).filter _)

variable (status scope) in
/-- One more ticket takes none out of `listing`. -/
theorem listing_sublist (tickets : List Ticket) (ticket : Ticket) :
    (listing status scope tickets).Sublist (listing status scope (tickets ++ [ticket])) :=
  ((List.sublist_append_left tickets [ticket]).filter _).insertionSort

/-- One more ticket adds at most itself to `listing`. -/
theorem length_listing_append (tickets : List Ticket) (ticket : Ticket) :
    (listing status scope (tickets ++ [ticket])).length =
      (listing status scope tickets).length +
        if TicketService.matching status scope ticket then 1 else 0 := by
  rw [listing, listing, List.length_insertionSort, List.length_insertionSort, List.filter_append,
    List.length_append, List.filter_singleton]
  cases TicketService.matching status scope ticket <;> rfl

/-- `TicketService.page` gives the page of the pager at the same offset. -/
theorem page_eq (s : Walk) : TicketService.page status scope limit.val s.offset s.tickets =
    (s.pager status scope).page limit.val := by
  rw [TicketService.page, Nat.min_eq_left limit.property.2]
  rfl

/-- What holds of a walk after any steps. -/
structure Inv (status : Option TicketStatus) (scope : Option OwnerScope) (tickets : List Ticket)
    (s : Walk) : Prop where
  ids : (s.tickets.map (·.id)).Nodup
  kept : s.shown ⊆ listing status scope s.tickets
  pager : Pager.Inv (listing status scope tickets) (s.pager status scope)

/-- `Inv` is kept when a ticket is created. -/
theorem Inv.create {tickets : List Ticket} {s s' : Walk} {ticket : Ticket}
    (h : Inv status scope tickets s)
    (hstep : s.step status scope limit (.create ticket) = some s') :
    Inv status scope tickets s' := by
  simp only [Walk.step] at hstep
  split at hstep
  · cases hstep
  · rename_i hnew
    obtain rfl := Option.some.inj hstep
    have hids : ((s.tickets ++ [ticket]).map (·.id)).Nodup := by
      rw [List.map_append, List.nodup_append']
      exact ⟨h.ids, List.nodup_singleton _, by simpa using hnew⟩
    have hsublist := listing_sublist status scope s.tickets ticket
    have hgrow := h.pager.grow hsublist (nodup_listing hids)
    refine ⟨hids, fun x hx => hsublist.mem (h.kept hx), ?_⟩
    have hgained : (s.pager status scope).grow (listing status scope (s.tickets ++ [ticket])) =
        Walk.pager status scope { s with
          tickets := s.tickets ++ [ticket]
          created := s.created + if TicketService.matching status scope ticket then 1 else 0 } := by
      simp only [Pager.grow, Walk.pager, length_listing_append, Nat.add_sub_cancel_left]
    exact hgained ▸ hgrow

/-- `Inv` is kept when a page is read. -/
theorem Inv.read {tickets : List Ticket} {s s' : Walk} (h : Inv status scope tickets s)
    (hstep : s.step status scope limit .read = some s') : Inv status scope tickets s' := by
  simp only [Walk.step] at hstep
  split at hstep
  · cases hstep
  · obtain rfl := Option.some.inj hstep
    refine ⟨h.ids, ?_, ?_⟩
    · intro x hx
      rcases List.mem_append.mp hx with hshown | hpage
      · exact h.kept hshown
      · rw [page_eq] at hpage
        exact List.mem_of_mem_drop (List.mem_of_mem_take hpage)
    · have hread := h.pager.read limit.val
      simp only [page_eq]
      exact hread

/-! ## The walk is complete -/

/-- What the client can rely on. -/
structure Complete (status : Option TicketStatus) (scope : Option OwnerScope)
    (tickets : List Ticket) (s : Walk) : Prop where
  /-- When the walk is over, every ticket of the listing that was there has been shown. -/
  complete : s.finished = true → ∀ ticket ∈ tickets,
    TicketService.matching status scope ticket = true → ticket ∈ s.shown
  /-- Only tickets of the listing are shown. -/
  proper : ∀ ticket ∈ s.shown,
    ticket ∈ s.tickets ∧ TicketService.matching status scope ticket = true
  /-- No more tickets are shown again than were created. -/
  again : s.shown.length ≤ s.shown.toFinset.card + s.created
  /-- Where none was created the pages are the listing, in its order. -/
  exact : s.created = 0 → s.shown = (listing status scope tickets).take s.offset

/-- A walk over the pages is `Complete`, however tickets are created between them. -/
theorem walk_complete {tickets : List Ticket} (hids : (tickets.map (·.id)).Nodup) {s : Walk}
    (h : (walk status scope limit tickets).Reachable s) : Complete status scope tickets s := by
  have hinv : Inv status scope tickets s := by
    refine Machine.ReachableVia.invariant (M := walk status scope limit tickets) ?_ ?_ h
    · exact ⟨hids, List.nil_subset _, Pager.inv_start (nodup_listing hids)⟩
    · intro s e s' hinv _ hstep
      cases e with
      | create ticket =>
        have hcreate : s.step status scope limit (.create ticket) = some s' := hstep
        exact hinv.create hcreate
      | read => exact hinv.read hstep
  constructor
  case complete =>
    intro hover ticket hmem hmatching
    exact hinv.pager.complete hover ticket (mem_listing.mpr ⟨hmem, hmatching⟩)
  case proper => exact fun ticket hmem => mem_listing.mp (hinv.kept hmem)
  case again => exact (Nat.le_add_right _ _).trans hinv.pager.again
  case exact => exact fun hcreated => (hinv.pager.still hcreated).2

end Walk

/-! ## A walk past a new ticket -/

private def ticketAt (id : Fin 16) (createdAt : Int) : Ticket where
  id := .repeated id
  customerId := .repeated 0
  ownerSubject := none
  subject := lit "Refund"
  body := lit "Please."
  status := .opened
  createdAt := createdAt
  updatedAt := createdAt

/-- A walk in which a ticket is created behind the first page, so that its ticket is shown again. -/
theorem walk_complete_created : ∃ s,
    (walk none none ⟨1, Nat.one_pos, by decide⟩ [ticketAt 1 10, ticketAt 2 20]).run
      [.read, .create (ticketAt 3 30), .read, .read, .read] = some s ∧
    s.finished = true ∧ s.shown.map (·.createdAt) = [20, 20, 10] ∧
    Complete none none [ticketAt 1 10, ticketAt 2 20] s := by
  obtain ⟨s, hrun, hover, hshown⟩ : ∃ s,
      (walk none none ⟨1, Nat.one_pos, by decide⟩ [ticketAt 1 10, ticketAt 2 20]).run
        [.read, .create (ticketAt 3 30), .read, .read, .read] = some s ∧
      s.finished = true ∧ s.shown.map (·.createdAt) = [20, 20, 10] :=
    ⟨_, rfl, by decide, by decide⟩
  exact ⟨s, hrun, hover, hshown, walk_complete (by decide) (Machine.reachable_of_run _ hrun)⟩

end NexaAssist.Spec.TicketPages
