import Mathlib.Algebra.Order.Ring.Rat
import Mathlib.Tactic.Linarith
import NexaAssist.ForStd.List
import NexaAssist.Auth.Tickets
import NexaAssist.ForStd.Machine

/-!
# Tickets are spent once

Calls of a ticket store, begun and answered in any order. What they did is written down in
a log, and where a ticket stands can be read off the log alone. Both stores answer what
the log says, so no ticket is spent twice, and they answer every call alike.
-/

namespace NexaAssist.Spec.TicketReplay

open NexaAssist PyJson

/-! ## The calls of a store -/

inductive Request
  | issue (subject : Text)
  | redeem (ticket : PyStr)
  | authenticateSocket (protects : Bool) (ticket : Option PyStr)

inductive Answer
  | ticket (ticket : PyStr)
  | subject (subject : Option Text)
  | identity (identity : Option RequestIdentity)
  deriving DecidableEq

structure Call where
  request : Request
  answer : Option Answer

/-- What a call did to the store. -/
inductive Action
  | issued (ticket : PyStr) (subject : Text) (now : Rat)
  | redeemed (ticket : PyStr) (subject : Option Text) (now : Rat)
  deriving DecidableEq

/-- An action, and the call it was done by. -/
structure Entry where
  call : Nat
  action : Action
  deriving DecidableEq

/-- A store, the time, the calls made of it, and what they did. -/
structure Traffic (σ : Type) where
  store : σ
  clock : Rat
  calls : List Call
  log : List Entry

inductive TrafficEvent
  | begin (request : Request)
  /-- Call `n` touches the store, in one piece, at a time its clock reads. `ticket` is the
      one it generates, if it does. -/
  | answer (n : Nat) (ticket : PyStr) (pruned now : Rat)

def issues (ticket : PyStr) (entry : Entry) : Bool :=
  match entry.action with
  | .issued t _ _ => t = ticket
  | .redeemed _ _ _ => false

def redeems (ticket : PyStr) (entry : Entry) : Bool :=
  match entry.action with
  | .issued _ _ _ => false
  | .redeemed t subject _ => t = ticket && subject.isSome

section Calls

variable {σ : Type} (tickets : TicketStore σ)

/-- The answer of a request, the store after it, and what was done. -/
def answerOf (store : σ) (ticket : PyStr) (pruned now : Rat) :
    Request → Answer × σ × Option Action
  | .issue subject =>
    (.ticket ticket, tickets.issue store ticket subject pruned now,
      some (.issued ticket subject now))
  | .redeem ticket =>
    let (subject, store) := tickets.redeem store ticket now
    (.subject subject, store, some (.redeemed ticket subject now))
  | .authenticateSocket protects ticket =>
    let (identity, store, spent) := authenticateSocket tickets protects ticket store now
    (.identity identity, store, spent.map fun (ticket, subject) => .redeemed ticket subject now)

/-- The clock never runs back, and a ticket that was issued is not generated again. -/
def Traffic.permits (s : Traffic σ) (ticket : PyStr) (pruned now : Rat) : Request → Bool
  | .issue _ => s.clock ≤ pruned && pruned ≤ now && !s.log.any (issues ticket)
  | _ => s.clock ≤ pruned && pruned ≤ now

def Traffic.step (s : Traffic σ) : TrafficEvent → Option (Traffic σ)
  | .begin request => some { s with calls := s.calls ++ [{ request, answer := none }] }
  | .answer n ticket pruned now =>
    match s.calls[n]? with
    | some { request, answer := none } =>
      if s.permits ticket pruned now request then
        let (answer, store, action) := answerOf tickets s.store ticket pruned now request
        some {
          store
          clock := now
          calls := s.calls.set n { request, answer := some answer }
          log := s.log ++ (action.map fun action => { call := n, action }).toList }
      else none
    | _ => none

/-- A store under every interleaving of its calls, from what the clock reads at first. -/
def traffic (start : Rat) : Machine (Traffic σ) TrafficEvent where
  init := { store := tickets.empty, clock := start, calls := [], log := [] }
  step := Traffic.step tickets

end Calls

/-- What can be seen of a store from outside: the calls, their answers, what they did. -/
def Traffic.seen {σ : Type} (s : Traffic σ) : Rat × List Call × List Entry :=
  (s.clock, s.calls, s.log)

/-! ## Where a ticket stands -/

/-- A ticket that is not spent: its subject, and when it expires. -/
abbrev Standing := Option (Text × Rat)

/-- Whose a ticket is at a time, if it is still good. -/
def Standing.holder (standing : Standing) (now : Rat) : Option Text :=
  (standing.filter fun entry => now < entry.2).map Prod.fst

/-- Where a ticket stands after an action. -/
def Action.settle (ttl : Nat) (ticket : PyStr) (standing : Standing) : Action → Standing
  | .issued t subject now => if t = ticket then some (subject, now + ttl) else standing
  | .redeemed t subject _ => if t = ticket ∧ subject.isSome then none else standing

def standing (ttl : Nat) (ticket : PyStr) (log : List Entry) : Standing :=
  log.foldl (fun standing entry => entry.action.settle ttl ticket standing) none

/-- No ticket stands at first. -/
@[simp] theorem standing_nil (ttl : Nat) (ticket : PyStr) : standing ttl ticket [] = none := rfl

/-- Each entry settles the standing of its ticket anew. -/
@[simp] theorem standing_snoc (ttl : Nat) (ticket : PyStr) (log : List Entry) (entry : Entry) :
    standing ttl ticket (log ++ [entry]) =
      entry.action.settle ttl ticket (standing ttl ticket log) := by
  simp [standing]

/-- What may follow a log: an issue of a ticket not issued before, or a redeem answered by
    where the ticket stands. -/
def Fits (ttl : Nat) (log : List Entry) (entry : Entry) : Prop :=
  match entry.action with
  | .issued ticket _ _ => log.any (issues ticket) = false
  | .redeemed ticket subject now => subject = (standing ttl ticket log).holder now

/-- An issue fits just if the ticket is new. -/
theorem fits_issued {ttl : Nat} {log : List Entry} {n : Nat} {ticket : PyStr} {subject : Text}
    {now : Rat} : Fits ttl log ⟨n, .issued ticket subject now⟩ ↔
      log.any (issues ticket) = false := Iff.rfl

/-- A redemption fits just if it gives the holder at that time. -/
theorem fits_redeemed {ttl : Nat} {log : List Entry} {n : Nat} {ticket : PyStr}
    {subject : Option Text} {now : Rat} : Fits ttl log ⟨n, .redeemed ticket subject now⟩ ↔
      subject = (standing ttl ticket log).holder now := Iff.rfl

inductive Honest (ttl : Nat) : List Entry → Prop
  | nil : Honest ttl []
  | snoc {log : List Entry} {entry : Entry} :
      Honest ttl log → Fits ttl log entry → Honest ttl (log ++ [entry])

/-! ## What an honest log can hold -/

/-- What does not stand has no holder. -/
@[simp] theorem Standing.holder_none (now : Rat) : Standing.holder none now = none := rfl

/-- What does has one until it expires. -/
@[simp] theorem Standing.holder_some (subject : Text) (expires now : Rat) :
    Standing.holder (some (subject, expires)) now =
      if now < expires then some subject else none := by
  by_cases h : now < expires <;> simp [holder, Option.filter_some, h]

/-- A standing has a holder just if it is of a ticket that has not expired. -/
theorem Standing.holder_eq_some {standing : Standing} {now : Rat} {subject : Text} :
    standing.holder now = some subject ↔ ∃ expires, standing = some (subject, expires) ∧
      now < expires := by
  cases standing with
  | none => simp [holder]
  | some entry =>
    obtain ⟨s, expires⟩ := entry
    by_cases h : now < expires <;> simp [holder, h]

section Honest

variable {ttl : Nat} {log : List Entry}

/-- Each entry of an honest log fits what is before it. -/
theorem Honest.fits (h : Honest ttl log) :
    ∀ {before after : List Entry} {entry : Entry}, log = before ++ entry :: after →
      Honest ttl before ∧ Fits ttl before entry := by
  induction h with
  | nil => intro before after entry heq; simp at heq
  | @snoc log last hlog hfit ih =>
    intro before after entry heq
    -- The entry is the last one, or one of the log before it
    rcases List.eq_nil_or_concat after with rfl | ⟨after, last', rfl⟩
    · obtain ⟨rfl, hlast⟩ := List.append_inj' heq rfl
      simp only [List.cons.injEq, and_true] at hlast
      exact hlast ▸ ⟨hlog, hfit⟩
    · have heq' : log ++ [last] = (before ++ entry :: after) ++ [last'] := by
        simpa using heq
      exact ih (List.append_inj' heq' rfl).1

/-- A ticket that stands was issued so, and has not been redeemed. -/
theorem Honest.issued_of_standing (h : Honest ttl log) {ticket : PyStr} {subject : Text}
    {expires : Rat} (hs : standing ttl ticket log = some (subject, expires)) :
    (∃ n now, ⟨n, .issued ticket subject now⟩ ∈ log ∧ expires = now + ttl) := by
  induction h with
  | nil => simp at hs
  | @snoc log entry _ _ ih =>
    obtain ⟨n, action⟩ := entry
    rw [standing_snoc] at hs
    cases action with
    | issued t s now =>
      simp only [Action.settle] at hs
      split at hs
      · next heq =>
        simp only [Option.some.injEq, Prod.mk.injEq] at hs
        exact ⟨n, now, by simp [heq, hs.1], hs.2.symm⟩
      · obtain ⟨m, at', hmem, hexp⟩ := ih hs
        exact ⟨m, at', by simp [hmem], hexp⟩
    | redeemed t s now =>
      simp only [Action.settle] at hs
      split at hs
      · exact nomatch hs
      · obtain ⟨m, at', hmem, hexp⟩ := ih hs
        exact ⟨m, at', by simp [hmem], hexp⟩

/-- A ticket whose issue is in the log was issued. -/
theorem any_issues {ticket : PyStr} {subject : Text} {n : Nat} {now : Rat}
    (h : ⟨n, .issued ticket subject now⟩ ∈ log) : log.any (issues ticket) = true :=
  List.any_eq_true.2 ⟨_, h, by simp [issues]⟩

/-- A ticket that was never issued does not stand, and has not been redeemed. -/
theorem Honest.unissued (h : Honest ttl log) {ticket : PyStr}
    (hi : log.any (issues ticket) = false) :
    standing ttl ticket log = none ∧ log.countP (redeems ticket) = 0 := by
  induction h with
  | nil => simp
  | @snoc log entry hlog hfit ih =>
    obtain ⟨n, action⟩ := entry
    simp only [List.any_append, Bool.or_eq_false_iff, List.any_cons, List.any_nil,
      Bool.or_false] at hi
    obtain ⟨hnone, hcount⟩ := ih hi.1
    cases action with
    | issued t s now =>
      have hne : t ≠ ticket := by simpa [issues] using hi.2
      simp [Action.settle, hne, hnone, hcount, redeems]
    | redeemed t s now =>
      -- A redeem of it would have been refused
      have hrefused : t = ticket → s = none := by
        rintro rfl
        simpa [Fits, hnone, Standing.holder] using hfit
      by_cases ht : t = ticket
      · simp [Action.settle, hrefused ht, hnone, hcount, redeems]
      · simp [Action.settle, ht, hnone, hcount, redeems]

/-- A ticket is redeemed at most once, and one that stands has not been. -/
theorem Honest.redeemed_once (h : Honest ttl log) (ticket : PyStr) :
    log.countP (redeems ticket) ≤ 1 ∧
      ((standing ttl ticket log).isSome → log.countP (redeems ticket) = 0) := by
  induction h with
  | nil => simp
  | @snoc log entry hlog hfit ih =>
    obtain ⟨n, action⟩ := entry
    obtain ⟨hle, hzero⟩ := ih
    cases action with
    | issued t s now =>
      by_cases ht : t = ticket
      · subst ht
        have hcount := (hlog.unissued hfit).2
        simp [hcount, redeems]
      · have hno : redeems ticket ⟨n, .issued t s now⟩ = false := rfl
        simpa [Action.settle, ht, hno, -List.countP_eq_zero] using ⟨hle, hzero⟩
    | redeemed t s now =>
      by_cases ht : t = ticket ∧ s.isSome
      · obtain ⟨rfl, hsome⟩ := ht
        obtain ⟨subject, rfl⟩ := Option.isSome_iff_exists.1 hsome
        obtain ⟨expires, hs, -⟩ := Standing.holder_eq_some.1 (fits_redeemed.1 hfit).symm
        have hcount := hzero (by simp [hs])
        simp [Action.settle, redeems, hcount]
      · have hno : redeems ticket ⟨n, .redeemed t s now⟩ = false := by
          simpa [redeems] using ht
        simpa [Action.settle, ht, hno, -List.countP_eq_zero] using ⟨hle, hzero⟩

/-- A ticket is issued at most once. -/
theorem Honest.issued_once (h : Honest ttl log) (ticket : PyStr) :
    log.countP (issues ticket) ≤ 1 := by
  induction h with
  | nil => simp
  | @snoc log entry hlog hfit ih =>
    obtain ⟨n, action⟩ := entry
    cases action with
    | issued t s now =>
      by_cases ht : t = ticket
      · subst ht
        have hzero : log.countP (issues t) = 0 := by
          rw [List.countP_eq_zero]
          intro entry hmem hissues
          exact List.any_eq_false.1 (fits_issued.1 hfit) entry hmem hissues
        simp [hzero, issues]
      · simpa [issues, ht] using ih
    | redeemed t s now => simpa [issues] using ih

/-- A ticket that was issued and has not been redeemed stands. -/
theorem Honest.standing_of_issued (h : Honest ttl log) {ticket : PyStr} {subject : Text}
    {n : Nat} {now : Rat} (hmem : ⟨n, .issued ticket subject now⟩ ∈ log)
    (hun : log.countP (redeems ticket) = 0) :
    standing ttl ticket log = some (subject, now + ttl) := by
  induction h with
  | nil => simp at hmem
  | @snoc log entry hlog hfit ih =>
    obtain ⟨m, action⟩ := entry
    rw [List.countP_append, Nat.add_eq_zero_iff] at hun
    rw [standing_snoc]
    rcases List.mem_append.1 hmem with hold | hlast
    · rw [ih hold hun.1]
      cases action with
      | issued t s at' =>
        -- It is another ticket: this one was issued before
        have hne : t ≠ ticket := by
          rintro rfl
          exact absurd (any_issues hold) (by simp [fits_issued.1 hfit])
        simp [Action.settle, hne]
      | redeemed t s at' =>
        have hno : ¬(t = ticket ∧ s.isSome) := by simpa [redeems] using hun.2
        simp [Action.settle, hno]
    · simp only [List.mem_singleton, Entry.mk.injEq] at hlast
      simp [← hlast.2, Action.settle]

/-- A redeem that succeeded came after the issue, in time, and as its subject. -/
theorem Honest.redeemed_issued (h : Honest ttl log) {before after : List Entry} {n : Nat}
    {ticket : PyStr} {subject : Text} {now : Rat}
    (heq : log = before ++ ⟨n, .redeemed ticket (some subject) now⟩ :: after) :
    ∃ m at', ⟨m, .issued ticket subject at'⟩ ∈ before ∧ now < at' + ttl := by
  obtain ⟨hbefore, hfit⟩ := h.fits heq
  obtain ⟨expires, hs, hlt⟩ := Standing.holder_eq_some.1 (fits_redeemed.1 hfit).symm
  obtain ⟨m, at', hmem, rfl⟩ := hbefore.issued_of_standing hs
  exact ⟨m, at', hmem, hlt⟩

end Honest

/-! ## Stores that keep tickets -/

/-- What a store of tickets does to what it has for each of them. It may forget one that
    has expired whenever it likes. -/
structure KeepsTickets {σ : Type} (tickets : TicketStore σ) (ttl : Nat)
    (entry : σ → PyStr → Standing) : Prop where
  empty : ∀ t, entry tickets.empty t = none
  issued : ∀ store ticket subject pruned now,
    entry (tickets.issue store ticket subject pruned now) ticket = some (subject, now + ttl)
  issue_other : ∀ store ticket subject pruned now t later, t ≠ ticket → pruned ≤ later →
    (entry (tickets.issue store ticket subject pruned now) t).holder later =
      (entry store t).holder later
  redeem_fst : ∀ store ticket now, (tickets.redeem store ticket now).1 =
    (entry store ticket).holder now
  redeemed : ∀ store ticket now, entry (tickets.redeem store ticket now).2 ticket = none
  redeem_other : ∀ store ticket now t, t ≠ ticket →
    entry (tickets.redeem store ticket now).2 t = entry store t

/-- The store in memory keeps its tickets. -/
theorem memoryTickets_keeps (ttl : TicketTtl) :
    KeepsTickets (memoryTickets ttl) ttl.val InMemoryTicketStore.tickets where
  empty _ := rfl
  issued store ticket subject pruned now := by simp [memoryTickets, InMemoryTicketStore.issue]
  issue_other store ticket subject pruned now t later hne hle := by
    simp only [memoryTickets, InMemoryTicketStore.issue, hne, if_false,
      InMemoryTicketStore.prune]
    -- What was pruned had expired before `later` already
    cases hentry : store.tickets t with
    | none => rfl
    | some entry =>
      obtain ⟨s, expires⟩ := entry
      by_cases hp : expires ≤ pruned
      · have hlater : ¬later < expires := by linarith
        simp [Option.filter_some, hp, hlater]
      · simp [Option.filter_some, hp]
  redeem_fst store ticket now := by
    simp only [memoryTickets, InMemoryTicketStore.redeem]
    cases store.tickets ticket with
    | none => rfl
    | some entry =>
      obtain ⟨s, expires⟩ := entry
      by_cases h : expires ≤ now
      · simp [h, not_lt.2 h]
      · simp [h, not_le.1 h]
  redeemed store ticket now := by
    simp only [memoryTickets, InMemoryTicketStore.redeem]
    split <;> simp_all
  redeem_other store ticket now t hne := by
    simp only [memoryTickets, InMemoryTicketStore.redeem]
    split <;> simp [hne]

/-- `RedisTicketStore.key` gives two tickets two keys. -/
theorem RedisTicketStore.key_inj {ns t t' : PyStr} (h : t ≠ t') :
    RedisTicketStore.key ns t ≠ RedisTicketStore.key ns t' := by
  intro heq
  exact h (List.append_cancel_left heq)

/-- The store in Redis keeps its tickets. -/
theorem redisTickets_keeps (ns : PyStr) (ttl : TicketTtl) :
    KeepsTickets (redisTickets ns ttl) ttl.val
      (fun store t => store.server.keys (RedisTicketStore.key ns t)) where
  empty _ := rfl
  issued store ticket subject pruned now := by
    simp [redisTickets, RedisTicketStore.issue, ExpiringKeys.setEx]
  issue_other store ticket subject pruned now t later hne _ := by
    simp [redisTickets, RedisTicketStore.issue, ExpiringKeys.setEx,
      RedisTicketStore.key_inj hne]
  redeem_fst store ticket now := by
    simp only [redisTickets, RedisTicketStore.redeem, ExpiringKeys.getDel]
    cases store.server.keys (RedisTicketStore.key ns ticket) with
    | none => rfl
    | some entry => exact (Standing.holder_some entry.1 entry.2 now).symm
  redeemed store ticket now := by
    simp only [redisTickets, RedisTicketStore.redeem, ExpiringKeys.getDel]
    split <;> simp_all
  redeem_other store ticket now t hne := by
    simp only [redisTickets, RedisTicketStore.redeem, ExpiringKeys.getDel]
    split <;> simp [RedisTicketStore.key_inj hne]

/-! ## What a store answers is what the log says -/

/-- A log and the store it is of, at a time. -/
structure Recorded {σ : Type} (ttl : Nat) (entry : σ → PyStr → Standing) (store : σ)
    (clock : Rat) (log : List Entry) : Prop where
  honest : Honest ttl log
  kept : ∀ t later, clock ≤ later →
    (entry store t).holder later = (standing ttl t log).holder later

section Recorded

variable {σ : Type} {tickets : TicketStore σ} {ttl : Nat} {entry : σ → PyStr → Standing}
  {store : σ} {clock pruned now : Rat} {log : List Entry}

/-- The log stays true while time goes by. -/
theorem Recorded.wait (h : Recorded ttl entry store clock log) (hle : clock ≤ now) :
    Recorded ttl entry store now log where
  honest := h.honest
  kept t later hlater := h.kept t later (hle.trans hlater)

/-- `Recorded` is kept when a new ticket is issued. -/
theorem Recorded.issue (h : Recorded ttl entry store clock log)
    (hk : KeepsTickets tickets ttl entry) (n : Nat) (ticket : PyStr) (subject : Text)
    (hpruned : clock ≤ pruned) (hnow : pruned ≤ now) (hnew : log.any (issues ticket) = false) :
    Recorded ttl entry (tickets.issue store ticket subject pruned now) now
      (log ++ [⟨n, .issued ticket subject now⟩]) where
  honest := h.honest.snoc hnew
  kept t later hlater := by
    rw [standing_snoc, Action.settle]
    by_cases ht : ticket = t
    · subst ht
      simp [hk.issued]
    · rw [if_neg ht, hk.issue_other _ _ _ _ _ _ _ (Ne.symm ht) (hnow.trans hlater)]
      exact h.kept t later (hpruned.trans (hnow.trans hlater))

/-- A redeem is answered by where the ticket stands. -/
theorem Recorded.redeem_fst (h : Recorded ttl entry store clock log)
    (hk : KeepsTickets tickets ttl entry) (ticket : PyStr) (hnow : clock ≤ now) :
    (tickets.redeem store ticket now).1 = (standing ttl ticket log).holder now := by
  rw [hk.redeem_fst, h.kept ticket now hnow]

/-- `Recorded` is kept when a ticket is redeemed. -/
theorem Recorded.redeem (h : Recorded ttl entry store clock log)
    (hk : KeepsTickets tickets ttl entry) (n : Nat) (ticket : PyStr) (hnow : clock ≤ now) :
    Recorded ttl entry (tickets.redeem store ticket now).2 now
      (log ++ [⟨n, .redeemed ticket (tickets.redeem store ticket now).1 now⟩]) where
  honest := h.honest.snoc (h.redeem_fst hk ticket hnow)
  kept t later hlater := by
    rw [standing_snoc, Action.settle, h.redeem_fst hk ticket hnow]
    by_cases ht : ticket = t
    · subst ht
      rw [hk.redeemed]
      -- One that could not be redeemed had expired, and still has
      cases hs : standing ttl ticket log with
      | none => simp
      | some e =>
        by_cases hlt : now < e.2
        · simp [Standing.holder_some e.1 e.2, hlt]
        · have hstill : ¬later < e.2 := by linarith
          simp [Standing.holder_some e.1 e.2, hlt, hstill]
    · rw [if_neg (by simp [ht]), hk.redeem_other _ _ _ _ (Ne.symm ht)]
      exact h.kept t later (hnow.trans hlater)

/-- `Recorded` is kept by whatever is asked of the store, which goes down in the log. -/
theorem Recorded.answered (h : Recorded ttl entry store clock log)
    (hk : KeepsTickets tickets ttl entry) (n : Nat) (ticket : PyStr) (request : Request)
    (hpruned : clock ≤ pruned) (hnow : pruned ≤ now)
    (hnew : ∀ subject, request = .issue subject → log.any (issues ticket) = false) :
    Recorded ttl entry (answerOf tickets store ticket pruned now request).2.1 now
      (log ++ ((answerOf tickets store ticket pruned now request).2.2.map
        fun action => ⟨n, action⟩).toList) := by
  have hle : clock ≤ now := hpruned.trans hnow
  cases request with
  | issue subject => exact h.issue hk n ticket subject hpruned hnow (hnew subject rfl)
  | redeem ticket => exact h.redeem hk n ticket hle
  | authenticateSocket protects ticket =>
    have hidle : Recorded ttl entry store now (log ++ []) := by
      rw [List.append_nil]
      exact h.wait hle
    cases protects with
    | false => exact hidle
    | true =>
      cases ticket with
      | none => exact hidle
      | some ticket =>
        by_cases hempty : ticket = []
        · simpa [answerOf, authenticateSocket, hempty] using hidle
        · simpa [answerOf, authenticateSocket, hempty] using h.redeem hk n ticket hle

variable (pruned) in
/-- Two stores with one log answer alike, and add the same to it. -/
theorem Recorded.agree {τ : Type} {tickets' : TicketStore τ}
    {entry' : τ → PyStr → Standing} {store' : τ} (h : Recorded ttl entry store clock log)
    (h' : Recorded ttl entry' store' clock log) (hk : KeepsTickets tickets ttl entry)
    (hk' : KeepsTickets tickets' ttl entry') (ticket : PyStr) (request : Request)
    (hnow : clock ≤ now) :
    (answerOf tickets store ticket pruned now request).1 =
        (answerOf tickets' store' ticket pruned now request).1 ∧
      (answerOf tickets store ticket pruned now request).2.2 =
        (answerOf tickets' store' ticket pruned now request).2.2 := by
  have hredeem : ∀ t, (tickets.redeem store t now).1 = (tickets'.redeem store' t now).1 := by
    intro t
    rw [h.redeem_fst hk t hnow, h'.redeem_fst hk' t hnow]
  cases request with
  | issue subject => exact ⟨rfl, rfl⟩
  | redeem ticket => simp [answerOf, hredeem]
  | authenticateSocket protects ticket =>
    simp only [answerOf, authenticateSocket]
    split
    · exact ⟨rfl, rfl⟩
    · split
      · exact ⟨rfl, rfl⟩
      · split <;> simp [hredeem]

end Recorded

/-- A protected socket is admitted as the subject a ticket was redeemed for, or not. -/
theorem authenticateSocket_admits {σ : Type} {tickets : TicketStore σ} {store : σ} {now : Rat}
    {ticket : Option PyStr} {identity : RequestIdentity}
    (h : (authenticateSocket tickets true ticket store now).1 = some identity) :
    ∃ t subject, ticket = some t ∧ identity = .apiKey subject ∧
      (authenticateSocket tickets true ticket store now).2.2 = some (t, some subject) := by
  cases ticket with
  | none => exact nomatch h
  | some t =>
    simp only [authenticateSocket, Bool.not_true, Bool.false_eq_true, if_false] at h ⊢
    split at h
    · exact nomatch h
    · next hne =>
      obtain ⟨subject, hsubject, rfl⟩ := Option.map_eq_some_iff.1 h
      exact ⟨t, subject, rfl, rfl, by simp [hne, hsubject]⟩

/-- `authenticateSocket` admits as its subject the ticket that it has redeemed. -/
theorem authenticateSocket_spent {σ : Type} {tickets : TicketStore σ} {protects : Bool}
    {store : σ} {now : Rat} {ticket : Option PyStr} {t : PyStr} {subject : Text}
    (h : (authenticateSocket tickets protects ticket store now).2.2 = some (t, some subject)) :
    protects = true ∧ ticket = some t ∧
      (authenticateSocket tickets protects ticket store now).1 = some (.apiKey subject) := by
  cases protects with
  | false => exact nomatch h
  | true =>
    cases ticket with
    | none => exact nomatch h
    | some t' =>
      simp only [authenticateSocket, Bool.not_true, Bool.false_eq_true, if_false] at h ⊢
      split at h
      · exact nomatch h
      · next hne =>
        simp only [Option.some.injEq, Prod.mk.injEq] at h
        obtain ⟨rfl, hsubject⟩ := h
        exact ⟨trivial, rfl, by simp [hne, hsubject]⟩

/-! ## What a call did -/

inductive Deed
  | issue (ticket : PyStr) (subject : Text)
  | spend (ticket : PyStr) (subject : Text)

def Deed.action (now : Rat) : Deed → Action
  | .issue ticket subject => .issued ticket subject now
  | .spend ticket subject => .redeemed ticket (some subject) now

/-- A ticket is spent by a redeem that returns its subject, and by a protected handshake
    that returns its identity. -/
def Call.does (call : Call) : Deed → Prop
  | .issue ticket subject => call.request = .issue subject ∧ call.answer = some (.ticket ticket)
  | .spend ticket subject =>
    call.request = .redeem ticket ∧ call.answer = some (.subject (some subject)) ∨
      call.request = .authenticateSocket true (some ticket) ∧
        call.answer = some (.identity (some (.apiKey subject)))

/-- The calls and the log tell the same. -/
def Logged (calls : List Call) (log : List Entry) : Prop :=
  ∀ n deed, (∃ call, calls[n]? = some call ∧ call.does deed) ↔
    ∃ now, ⟨n, deed.action now⟩ ∈ log

/-- A call that has no answer has done nothing. -/
theorem Call.not_does {request : Request} {deed : Deed} :
    ¬Call.does { request, answer := none } deed := by
  cases deed <;> simp [Call.does]

/-- What a call has done is what `answerOf` notes. -/
theorem answerOf_does {σ : Type} (tickets : TicketStore σ) (store : σ) (ticket : PyStr)
    (pruned now : Rat) (request : Request) (deed : Deed) :
    Call.does { request, answer := some (answerOf tickets store ticket pruned now request).1 }
        deed ↔
      ∃ at', (answerOf tickets store ticket pruned now request).2.2 =
        some (deed.action at') := by
  cases request with
  | issue subject =>
    cases deed with
    | issue t a => simp [Call.does, answerOf, Deed.action, and_comm]
    | spend t a => simp [Call.does, answerOf, Deed.action]
  | redeem t' =>
    cases deed with
    | issue t a => simp [Call.does, answerOf, Deed.action]
    | spend t a => simp [Call.does, answerOf, Deed.action]
  -- A socket spends its ticket only where sockets are protected
  | authenticateSocket protects t' =>
    cases deed with
    | issue t a => simp [Call.does, answerOf, Deed.action]
    | spend t a =>
      constructor
      · rintro (⟨hreq, -⟩ | ⟨hreq, hanswer⟩)
        · exact nomatch hreq
        · simp only [Request.authenticateSocket.injEq] at hreq
          obtain ⟨rfl, rfl⟩ := hreq
          have hfst : (authenticateSocket tickets true (some t) store now).1 =
              some (.apiKey a) := by simpa [answerOf] using hanswer
          obtain ⟨t', a', ht, ha, hspent⟩ := authenticateSocket_admits hfst
          simp only [Option.some.injEq] at ht
          simp only [RequestIdentity.apiKey, RequestIdentity.mk.injEq, and_true] at ha
          subst ht ha
          exact ⟨now, by simp [answerOf, hspent, Deed.action]⟩
      · rintro ⟨at', h⟩
        obtain ⟨⟨t'', a'⟩, hspent, hdeed⟩ := Option.map_eq_some_iff.1 h
        simp only [Deed.action, Action.redeemed.injEq] at hdeed
        obtain ⟨rfl, rfl, -⟩ := hdeed
        obtain ⟨rfl, rfl, hfst⟩ := authenticateSocket_spent hspent
        exact .inr ⟨rfl, by simp [answerOf, hfst]⟩

/-! ## Runs -/

section Runs

variable {σ : Type} {tickets : TicketStore σ} {ttl : Nat} {entry : σ → PyStr → Standing}
  {s s' : Traffic σ} {e : TrafficEvent}

/-- A step of the traffic begins a call or answers one. -/
theorem Traffic.step_cases (h : s.step tickets e = some s') :
    (∃ request, e = .begin request ∧
      s' = { s with calls := s.calls ++ [{ request, answer := none }] }) ∨
    ∃ n ticket pruned now request, e = .answer n ticket pruned now ∧
      s.calls[n]? = some { request, answer := none } ∧
      s.permits ticket pruned now request = true ∧
      s' = {
        store := (answerOf tickets s.store ticket pruned now request).2.1
        clock := now
        calls := s.calls.set n {
          request, answer := some (answerOf tickets s.store ticket pruned now request).1 }
        log := s.log ++ ((answerOf tickets s.store ticket pruned now request).2.2.map
          fun action => ⟨n, action⟩).toList } := by
  cases e with
  | begin request => exact .inl ⟨request, rfl, by simpa [Traffic.step] using h.symm⟩
  | answer n ticket pruned now =>
    simp only [Traffic.step] at h
    split at h
    · next request hcall =>
      split at h
      · next hpermits =>
        exact .inr ⟨n, ticket, pruned, now, request, rfl, hcall, hpermits, by simpa using h.symm⟩
      · exact nomatch h
    · exact nomatch h

/-- `permits` asks for a clock that goes on, and for new tickets. -/
theorem Traffic.permits_iff {ticket : PyStr} {pruned now : Rat} {request : Request} :
    s.permits ticket pruned now request = true ↔ s.clock ≤ pruned ∧ pruned ≤ now ∧
      ∀ subject, request = .issue subject → s.log.any (issues ticket) = false := by
  cases request <;> simp [Traffic.permits, and_assoc]

/-- A protected socket gets no identity but that of a key. -/
def Admitted (calls : List Call) : Prop :=
  ∀ (n : Nat) ticket identity,
    calls[n]? = some ⟨.authenticateSocket true ticket, some (.identity (some identity))⟩ →
    ∃ (t : PyStr) (subject : Text), ticket = some t ∧ identity = .apiKey subject

/-- The log stays true in every step. -/
theorem Recorded.step (hk : KeepsTickets tickets ttl entry)
    (h : Recorded ttl entry s.store s.clock s.log) (hstep : s.step tickets e = some s') :
    Recorded ttl entry s'.store s'.clock s'.log := by
  obtain ⟨request, -, rfl⟩ | ⟨n, ticket, pruned, now, request, -, -, hpermits, rfl⟩ :=
    Traffic.step_cases hstep
  · exact h
  · obtain ⟨hpruned, hnow, hnew⟩ := Traffic.permits_iff.1 hpermits
    exact h.answered hk n ticket request hpruned hnow hnew

/-- Every deed stays logged. -/
theorem Logged.step (h : Logged s.calls s.log) (hstep : s.step tickets e = some s') :
    Logged s'.calls s'.log := by
  obtain ⟨request, -, rfl⟩ | ⟨n, ticket, pruned, now, request, -, hcall, -, rfl⟩ :=
    Traffic.step_cases hstep
  -- A new call has no answer to log
  · intro m deed
    rw [← h m deed]
    constructor
    · rintro ⟨call, hm, hdoes⟩
      rcases List.getElem?_append_singleton_cases hm with hm | rfl
      · exact ⟨call, hm, hdoes⟩
      · exact absurd hdoes Call.not_does
    · rintro ⟨call, hm, hdoes⟩
      refine ⟨call, ?_, hdoes⟩
      rw [List.getElem?_append_left (List.getElem?_eq_some_iff.1 hm).1]
      exact hm
  · intro m deed
    obtain ⟨hlt, -⟩ := List.getElem?_eq_some_iff.1 hcall
    by_cases hm : n = m
    · -- nothing was logged for this call before
      subst hm
      have hbefore : ∀ at', ⟨n, deed.action at'⟩ ∉ s.log := by
        intro at' hmem
        obtain ⟨call, hc, hdoes⟩ := (h n deed).2 ⟨at', hmem⟩
        obtain rfl : _ = call := Option.some.inj (hcall.symm.trans hc)
        exact Call.not_does hdoes
      simp [hlt, hbefore, answerOf_does]
    · have hother : ∀ (action : Option Action) at',
          ⟨m, deed.action at'⟩ ∉ (action.map fun action => (⟨n, action⟩ : Entry)).toList := by
        intro action at'
        cases action <;> simp [Ne.symm hm]
      simp only [List.getElem?_set, hm, if_false, List.mem_append, hother, or_false]
      exact h m deed

/-- Every admitted call stays one that redeemed its ticket. -/
theorem Admitted.step (h : Admitted s.calls) (hstep : s.step tickets e = some s') :
    Admitted s'.calls := by
  obtain ⟨request, -, rfl⟩ | ⟨n, ticket, pruned, now, request, -, hcall, -, rfl⟩ :=
    Traffic.step_cases hstep
  · intro m t identity hm
    rcases List.getElem?_append_singleton_cases hm with hm | hcall
    · exact h m t identity hm
    · exact nomatch hcall
  · intro m t identity hm
    rw [List.getElem?_set] at hm
    split at hm
    · split at hm
      · simp only [Option.some.injEq, Call.mk.injEq] at hm
        obtain ⟨rfl, hanswer⟩ := hm
        have hfst : (authenticateSocket tickets true t s.store now).1 = some identity := by
          simpa [answerOf] using hanswer
        obtain ⟨t', subject, ht, hid, -⟩ := authenticateSocket_admits hfst
        exact ⟨t', subject, ht, hid⟩
      · exact nomatch hm
    · exact h m t identity hm

/-- `Recorded` holds in every reachable state of the traffic. -/
theorem recorded_of_reachable {start : Rat} (hk : KeepsTickets tickets ttl entry)
    (h : (traffic tickets start).Reachable s) : Recorded ttl entry s.store s.clock s.log := by
  induction h with
  | init => exact { honest := .nil, kept := fun t later _ => by simp [traffic, hk.empty] }
  | step _ _ hstep hs => exact hs.step hk hstep

/-- Every deed is logged, in every reachable state of the traffic. -/
theorem logged_of_reachable {start : Rat} (h : (traffic tickets start).Reachable s) :
    Logged s.calls s.log ∧ Admitted s.calls := by
  induction h with
  | init => exact ⟨fun n deed => by simp [traffic], fun n t identity hn => by simp [traffic] at hn⟩
  | step _ _ hstep hs => exact ⟨hs.1.step hstep, hs.2.step hstep⟩

end Runs

/-- Two stores that keep tickets go through the same traffic together. -/
theorem step_rel {σ τ : Type} {S : TicketStore σ} {T : TicketStore τ} {ttl : Nat}
    {entry : σ → PyStr → Standing} {entry' : τ → PyStr → Standing}
    (hS : KeepsTickets S ttl entry) (hT : KeepsTickets T ttl entry') {s : Traffic σ}
    {t : Traffic τ} (hs : Recorded ttl entry s.store s.clock s.log)
    (ht : Recorded ttl entry' t.store t.clock t.log) (hseen : s.seen = t.seen)
    (e : TrafficEvent) :
    Option.Rel (fun s' t' => Traffic.seen s' = t'.seen) (s.step S e) (t.step T e) := by
  obtain ⟨store, clock, calls, log⟩ := s
  obtain ⟨store', clock', calls', log'⟩ := t
  simp only [Traffic.seen, Prod.mk.injEq] at hseen
  obtain ⟨rfl, rfl, rfl⟩ := hseen
  cases e with
  | begin request => exact .some rfl
  | answer n ticket pruned now =>
    simp only [Traffic.step]
    split
    · next request _ =>
      by_cases hp : Traffic.permits ⟨store, clock, calls, log⟩ ticket pruned now request = true
      · have hp' : Traffic.permits ⟨store', clock, calls, log⟩ ticket pruned now request = true :=
          Traffic.permits_iff.2 (Traffic.permits_iff.1 hp)
        obtain ⟨hpruned, hnow, -⟩ := Traffic.permits_iff.1 hp
        obtain ⟨hanswer, haction⟩ := hs.agree pruned ht hS hT ticket request (hpruned.trans hnow)
        rw [if_pos hp, if_pos hp']
        exact .some (by simp [Traffic.seen, hanswer, haction])
      · have hp' : ¬Traffic.permits ⟨store', clock, calls, log⟩ ticket pruned now request = true :=
          fun h => hp (Traffic.permits_iff.2 (Traffic.permits_iff.1 h))
        rw [if_neg hp, if_neg hp']
        exact .none
    · exact .none

/-- Two stores that keep their tickets give the same answers in every run. -/
theorem run_seen_eq {σ τ : Type} {S : TicketStore σ} {T : TicketStore τ} {ttl : Nat}
    {entry : σ → PyStr → Standing} {entry' : τ → PyStr → Standing}
    (hS : KeepsTickets S ttl entry) (hT : KeepsTickets T ttl entry') (start : Rat)
    (es : List TrafficEvent) :
    ((traffic S start).run es).map Traffic.seen = ((traffic T start).run es).map Traffic.seen := by
  have hrel := Machine.runFrom_rel (M := traffic S start) (N := traffic T start)
    (R := fun s t => Recorded ttl entry s.store s.clock s.log ∧
      Recorded ttl entry' t.store t.clock t.log ∧ s.seen = t.seen)
    (s := (traffic S start).init) (t := (traffic T start).init) ?_ ?_ es
  · simp only [Machine.run]
    generalize (traffic S start).runFrom (traffic S start).init es = s',
      (traffic T start).runFrom (traffic T start).init es = t' at hrel ⊢
    cases hrel with
    | some h => exact congrArg some h.2.2
    | none => rfl
  · rintro s t e ⟨hs, ht, hseen⟩
    have hrel := step_rel hS hT hs ht hseen e
    simp only [traffic]
    generalize hs' : s.step S e = s', ht' : t.step T e = t' at hrel ⊢
    cases hrel with
    | some h => exact .some ⟨hs.step hS hs', ht.step hT ht', h⟩
    | none => exact .none
  · exact ⟨recorded_of_reachable hS .init, recorded_of_reachable hT .init, rfl⟩

/-! ## Replay -/

/-- What keeps a ticket from being replayed. -/
structure ReplaySafe {σ : Type} (tickets : TicketStore σ) (ttl : Nat) (s : Traffic σ) :
    Prop where
  /-- The log is what the calls were answered. -/
  logged : Logged s.calls s.log
  once : ∀ ticket, s.log.countP (redeems ticket) ≤ 1
  /-- A ticket is spent after it was issued, as who it was issued to, and in time. -/
  bound : ∀ before after n ticket subject (now : Rat),
    s.log = before ++ ⟨n, .redeemed ticket (some subject) now⟩ :: after →
    (∃ m at', ⟨m, .issued ticket subject at'⟩ ∈ before) ∧
      ∀ m subject' (at' : Rat), ⟨m, .issued ticket subject' at'⟩ ∈ s.log →
        subject' = subject ∧ now < at' + ttl
  /-- A ticket that is neither spent nor expired can be redeemed. -/
  kept : ∀ m ticket subject (at' now : Rat), ⟨m, .issued ticket subject at'⟩ ∈ s.log →
    s.log.countP (redeems ticket) = 0 → s.clock ≤ now → now < at' + ttl →
    (tickets.redeem s.store ticket now).1 = some subject
  /-- A protected socket has an identity only if this call spent a ticket issued to it. -/
  admitted : ∀ (n : Nat) ticket identity,
    s.calls[n]? = some ⟨.authenticateSocket true ticket, some (.identity (some identity))⟩ →
    ∃ t subject, ∃ (now : Rat) (m : Nat) (at' : Rat),
      ticket = some t ∧ identity = .apiKey subject ∧
      ⟨n, .redeemed t (some subject) now⟩ ∈ s.log ∧
      ⟨m, .issued t subject at'⟩ ∈ s.log ∧ now < at' + ttl

/-- Two issues of one ticket are one. -/
theorem Honest.issued_unique {ttl : Nat} {log : List Entry} (h : Honest ttl log)
    {ticket : PyStr} {n m : Nat} {a b : Text} {now later : Rat}
    (ha : ⟨n, .issued ticket a now⟩ ∈ log) (hb : ⟨m, .issued ticket b later⟩ ∈ log) :
    a = b ∧ now = later := by
  have heq := List.eq_of_countP_le_one (h.issued_once ticket) ha hb (by simp [issues])
    (by simp [issues])
  simp only [Entry.mk.injEq, Action.issued.injEq] at heq
  exact ⟨heq.2.2.1, heq.2.2.2⟩

/-- In every reachable state no ticket was redeemed twice. -/
theorem replaySafe_of_reachable {σ : Type} {tickets : TicketStore σ} {ttl : Nat}
    {entry : σ → PyStr → Standing} (hk : KeepsTickets tickets ttl entry) {start : Rat}
    {s : Traffic σ} (h : (traffic tickets start).Reachable s) : ReplaySafe tickets ttl s := by
  have hrec := recorded_of_reachable hk h
  obtain ⟨hlogged, hadmitted⟩ := logged_of_reachable h
  exact {
    logged := hlogged
    once := fun ticket => (hrec.honest.redeemed_once ticket).1
    bound := by
      intro before after n ticket subject now heq
      obtain ⟨m, at', hmem, hlt⟩ := hrec.honest.redeemed_issued heq
      refine ⟨⟨m, at', hmem⟩, ?_⟩
      intro m' subject' later hissued
      have hmem' : ⟨m, .issued ticket subject at'⟩ ∈ s.log := by simp [heq, hmem]
      obtain ⟨rfl, rfl⟩ := hrec.honest.issued_unique hmem' hissued
      exact ⟨rfl, hlt⟩
    kept := by
      intro m ticket subject at' now hissued hun hclock hlt
      rw [hrec.redeem_fst hk ticket hclock, hrec.honest.standing_of_issued hissued hun]
      simp [hlt]
    admitted := by
      intro n ticket identity hcall
      obtain ⟨t, subject, rfl, rfl⟩ := hadmitted n ticket identity hcall
      -- The call spent its ticket, so the log has it, and the issue before it
      obtain ⟨now, hmem⟩ := (hlogged n (.spend t subject)).1 ⟨_, hcall, .inr ⟨rfl, rfl⟩⟩
      obtain ⟨before, after, heq⟩ := List.append_of_mem hmem
      obtain ⟨m, at', hissued, hlt⟩ := hrec.honest.redeemed_issued heq
      exact ⟨t, subject, now, m, at', rfl, rfl, hmem, by simp [heq, hissued], hlt⟩ }

/-- Whatever is asked of a ticket store, and however the calls interleave: no ticket is
    spent twice, or late, or as someone else, none that is good is lost, a protected socket
    is admitted by spending one, and the store in Redis cannot be told from the one in the
    process. -/
theorem tickets_spent_once (ttl : TicketTtl) (ns : PyStr) (start : Rat) :
    (∀ s, (traffic (memoryTickets ttl) start).Reachable s →
      ReplaySafe (memoryTickets ttl) ttl.val s) ∧
    (∀ s, (traffic (redisTickets ns ttl) start).Reachable s →
      ReplaySafe (redisTickets ns ttl) ttl.val s) ∧
    ∀ es, ((traffic (memoryTickets ttl) start).run es).map Traffic.seen =
      ((traffic (redisTickets ns ttl) start).run es).map Traffic.seen :=
  ⟨fun _ => replaySafe_of_reachable (memoryTickets_keeps ttl),
    fun _ => replaySafe_of_reachable (redisTickets_keeps ns ttl),
    run_seen_eq (memoryTickets_keeps ttl) (redisTickets_keeps ns ttl) start⟩

end NexaAssist.Spec.TicketReplay
