import Mathlib.Logic.Function.Basic
import NexaAssist.ForStd.JsonText

/-!
# A Redis server

Keys with lists and strings behind them, some of which are forgotten at a time, and the commands
that read and change them. A command that meets a value of the other type raises and changes
nothing.

A command reads and changes no other keys than its own: what it is answered depends on these
(`AgreeOn.exec`), and the rest stays (`untouched_exec`).

A user of a server has names for its keys. Where the names are distinct, what the server holds under
them is a function of the names, and a command at one name changes it at that name only
(`Named.put`).
-/

namespace PyJson

namespace RedisStore

/-! ## What is stored -/

inductive Value
  | list (items : List PyStr)
  | string (text : PyStr)

/-- A value, and when it is forgotten. -/
structure Entry where
  value : Value
  expiresAt : Option Rat := none

/-- What a command raises. -/
inductive Fault
  /-- `WRONGTYPE`. -/
  | wrongType
  /-- What is to be incremented is not an integer. -/
  | notAnInteger
  deriving DecidableEq, Repr

structure Store where
  clock : Rat
  keys : PyStr → Option Entry

def empty : Store where
  clock := 0
  keys _ := none

/-- What a visit of a key leaves there. -/
inductive Change
  | keep
  | become (entry : Option Entry)

namespace Store

variable (store : Store)

/-- What is found at a key. An entry whose time is over is not there. -/
def live (key : PyStr) : Option Entry :=
  (store.keys key).filter fun entry => entry.expiresAt.all (store.clock < ·)

def put (key : PyStr) (entry : Option Entry) : Store :=
  { store with keys := fun k => if k = key then entry else store.keys k }

/-- Some time passes. -/
def tick (clock : Rat) : Store := { store with clock }

/-- Look at a key, at the time it is, and leave something there. -/
def visit {α : Type} (key : PyStr) (look : Rat → Option Entry → α × Change) : α × Store :=
  match look store.clock (store.live key) with
  | (answer, .keep) => (answer, store)
  | (answer, .become entry) => (answer, store.put key entry)

end Store

/-! ## Values -/

/-- The string that is found. -/
def textOf : Option Entry → Except Fault (Option PyStr)
  | none => .ok none
  | some ⟨.string text, _⟩ => .ok (some text)
  | some ⟨.list _, _⟩ => .error .wrongType

/-- The list that is found, and when it is forgotten. What is not there is an empty one. -/
def itemsOf : Option Entry → Except Fault (List PyStr × Option Rat)
  | none => .ok ([], none)
  | some ⟨.list items, expiresAt⟩ => .ok (items, expiresAt)
  | some ⟨.string _, _⟩ => .error .wrongType

/-- A list that has become empty is removed. -/
def listEntry (items : List PyStr) (expiresAt : Option Rat) : Option Entry :=
  if items = [] then none else some { value := .list items, expiresAt }

/-- The integer that a string is. -/
def readInt (text : PyStr) : Option Int :=
  let (negative, digits) := JsonText.minus text
  if JsonText.whole digits && !(negative && digits = [0x30]) then
    some (if negative then -Numeral.ofDigits digits else Numeral.ofDigits digits)
  else none

/-! ## Commands -/

/-- A command in a pipeline. -/
inductive Op
  | set (key text : PyStr)
  | lrem (key item : PyStr)
  | rpush (key item : PyStr)
  | incr (key : PyStr)
  | expireNx (key : PyStr) (seconds : Nat)

inductive OpReply
  | ok
  | int (n : Int)
  deriving DecidableEq

inductive Command
  | get (key : PyStr)
  | getDel (key : PyStr)
  | mget (keys : List PyStr)
  | set (key text : PyStr)
  | setEx (key text : PyStr) (seconds : Nat)
  | lmove (src dst : PyStr)
  | llen (key : PyStr)
  | lrange (key : PyStr)
  | multi (ops : List Op)

def Command.Reply : Command → Type
  | .get _ => Option PyStr
  | .getDel _ => Option PyStr
  | .mget _ => List (Option PyStr)
  | .set _ _ => Unit
  | .setEx _ _ _ => Unit
  | .lmove _ _ => Option PyStr
  | .llen _ => Nat
  | .lrange _ => List PyStr
  | .multi _ => List OpReply

/-- Change the list that is found. -/
def onList (change : List PyStr → Int × List PyStr) (found : Option Entry) :
    Except Fault OpReply × Change :=
  match itemsOf found with
  | .error fault => (.error fault, .keep)
  | .ok (items, expiresAt) =>
    (.ok (.int (change items).1), .become (listEntry (change items).2 expiresAt))

def incr (found : Option Entry) : Except Fault OpReply × Change :=
  match found with
  | none => (.ok (.int 1), .become (some { value := .string (JsonText.intText 1) }))
  | some ⟨.list _, _⟩ => (.error .wrongType, .keep)
  | some ⟨.string text, expiresAt⟩ =>
    match readInt text with
    | none => (.error .notAnInteger, .keep)
    | some n =>
      (.ok (.int (n + 1)),
        .become (some { value := .string (JsonText.intText (n + 1)), expiresAt }))

/-- `EXPIRE key seconds NX`: only what would not be forgotten is from now on. -/
def expireNx (seconds : Nat) (now : Rat) (found : Option Entry) :
    Except Fault OpReply × Change :=
  match found with
  | some ⟨value, none⟩ =>
    (.ok (.int 1), .become (some { value, expiresAt := some (now + seconds) }))
  | _ => (.ok (.int 0), .keep)

def Op.key : Op → PyStr
  | .set key _ | .lrem key _ | .rpush key _ | .incr key | .expireNx key _ => key

/-- What a command in a pipeline does at its key. -/
def Op.look : Op → Rat → Option Entry → Except Fault OpReply × Change
  | .set _ text, _, _ => (.ok .ok, .become (some { value := .string text }))
  | .lrem _ item, _, found =>
    onList (fun items => (if item ∈ items then 1 else 0, items.erase item)) found
  | .rpush _ item, _, found => onList (fun items => (items.length + 1, items ++ [item])) found
  | .incr _, _, found => RedisStore.incr found
  | .expireNx _ seconds, now, found => RedisStore.expireNx seconds now found

def getDel (found : Option Entry) : Except Fault (Option PyStr) × Change :=
  match textOf found with
  | .error fault => (.error fault, .keep)
  | .ok text => (.ok text, .become none)

namespace Store

variable (store : Store)

def runOp (op : Op) : Except Fault OpReply × Store := store.visit op.key op.look

/-- A pipeline runs to its end, and the first fault of it is raised. -/
def runOps (store : Store) : List Op → Except Fault (List OpReply) × Store
  | [] => (.ok [], store)
  | op :: ops =>
    let (reply, after) := store.runOp op
    let (replies, last) := after.runOps ops
    (do return (← reply) :: (← replies), last)

def exec : (c : Command) → Except Fault c.Reply × Store
  | .get key => (textOf (store.live key), store)
  | .getDel key => store.visit key fun _ found => getDel found
  | .mget keys => (.ok (keys.map fun key => (textOf (store.live key)).toOption.join), store)
  | .set key text => (.ok (), store.put key (some { value := .string text }))
  | .setEx key text seconds =>
    (.ok (), store.put key
      (some { value := .string text, expiresAt := some (store.clock + seconds) }))
  | .lmove src dst =>
    match itemsOf (store.live src), itemsOf (store.live dst) with
    | .error fault, _ => (.error fault, store)
    | .ok ([], _), _ => (.ok none, store)
    | .ok (_ :: _, _), .error fault => (.error fault, store)
    | .ok (item :: rest, expiresAt), .ok _ =>
      (.ok (some item), ((store.put src (listEntry rest expiresAt)).runOp (.rpush dst item)).2)
  | .llen key => ((itemsOf (store.live key)).map fun list => list.1.length, store)
  | .lrange key => ((itemsOf (store.live key)).map Prod.fst, store)
  | .multi ops => store.runOps ops

end Store

/-! ## What a command depends on -/

def Command.keys : Command → List PyStr
  | .get key | .getDel key | .set key _ | .setEx key _ _ | .llen key | .lrange key => [key]
  | .mget keys => keys
  | .lmove src dst => [src, dst]
  | .multi ops => ops.map Op.key

section Locality

variable {K : PyStr → Prop} {s t : Store} {key : PyStr}

/-- Two servers that are alike as far as some keys go. -/
structure AgreeOn (K : PyStr → Prop) (s t : Store) : Prop where
  clock : s.clock = t.clock
  keys : ∀ key, K key → s.keys key = t.keys key

/-- Stores that agree on a key have the same entry live under it. -/
theorem AgreeOn.live (h : AgreeOn K s t) (hkey : K key) : s.live key = t.live key := by
  rw [Store.live, Store.live, h.keys key hkey, h.clock]

/-- Stores still agree when the same entry is put in both. -/
theorem AgreeOn.put (h : AgreeOn K s t) (key : PyStr) (entry : Option Entry) :
    AgreeOn K (s.put key entry) (t.put key entry) where
  clock := h.clock
  keys k hk := by
    have hold := h.keys k hk
    unfold Store.put
    by_cases heq : k = key
    · simp only [heq, if_true]
    · simp only [heq, if_false, hold]

/-- Stores still agree as time goes by in both. -/
theorem AgreeOn.tick (h : AgreeOn K s t) (clock : Rat) :
    AgreeOn K (s.tick clock) (t.tick clock) := ⟨rfl, h.keys⟩

/-- A visit of a key they agree on tells the same of both. -/
theorem AgreeOn.visit {α : Type} {look : Rat → Option Entry → α × Change} (h : AgreeOn K s t)
    (hkey : K key) :
    (s.visit key look).1 = (t.visit key look).1 ∧
      AgreeOn K (s.visit key look).2 (t.visit key look).2 := by
  unfold Store.visit
  rw [h.live hkey, h.clock]
  rcases look t.clock (t.live key) with ⟨answer, _ | entry⟩
  · exact ⟨rfl, h⟩
  · exact ⟨rfl, h.put key entry⟩

/-- A transaction on keys that two stores agree on answers alike and keeps them agreeing. -/
theorem AgreeOn.runOps {ops : List Op} (hkeys : ∀ op ∈ ops, K op.key) (h : AgreeOn K s t) :
    (s.runOps ops).1 = (t.runOps ops).1 ∧ AgreeOn K (s.runOps ops).2 (t.runOps ops).2 := by
  induction ops generalizing s t with
  | nil => exact ⟨rfl, h⟩
  | cons op ops ih =>
    obtain ⟨hop, hops⟩ := List.forall_mem_cons.mp hkeys
    have hvisit : (s.runOp op).1 = (t.runOp op).1 ∧ AgreeOn K (s.runOp op).2 (t.runOp op).2 :=
      h.visit hop
    obtain ⟨hreply, hafter⟩ := hvisit
    obtain ⟨hreplies, hlast⟩ := ih hops hafter
    simp only [Store.runOps, hreply, hreplies]
    exact ⟨trivial, hlast⟩

/-- `exec` answers alike on stores that agree on the keys of the command, which then still agree. -/
theorem AgreeOn.exec (h : AgreeOn K s t) {c : Command} (hkeys : ∀ key ∈ c.keys, K key) :
    (s.exec c).1 = (t.exec c).1 ∧ AgreeOn K (s.exec c).2 (t.exec c).2 := by
  -- Each command reads its keys, on which the stores agree, and writes the same under them
  cases c with
  | get key =>
    have hkey : K key := hkeys key List.mem_cons_self
    exact ⟨congrArg textOf (h.live hkey), h⟩
  | getDel key =>
    have hkey : K key := hkeys key List.mem_cons_self
    exact h.visit hkey
  | mget keys =>
    refine ⟨congrArg Except.ok (List.map_congr_left fun key hmem => ?_), h⟩
    rw [h.live (hkeys key hmem)]
  | set key text => exact ⟨rfl, h.put key _⟩
  | setEx key text seconds =>
    simp only [Store.exec, h.clock]
    exact ⟨trivial, h.put key _⟩
  | lmove src dst =>
    have hsrc : K src := hkeys src List.mem_cons_self
    have hdst : K dst := hkeys dst (List.mem_cons_of_mem _ List.mem_cons_self)
    simp only [Store.exec, h.live hsrc, h.live hdst]
    rcases itemsOf (t.live src) with fault | ⟨_ | ⟨item, rest⟩, expiresAt⟩
    · exact ⟨rfl, h⟩
    · exact ⟨rfl, h⟩
    · cases itemsOf (t.live dst) with
      | error fault => exact ⟨rfl, h⟩
      | ok list =>
        -- The item is gone from the one end before it is put at the other
        have hpopped := h.put src (listEntry rest expiresAt)
        exact ⟨rfl, (hpopped.visit hdst).2⟩
  | llen key =>
    have hkey : K key := hkeys key List.mem_cons_self
    exact ⟨by simp only [Store.exec, h.live hkey], h⟩
  | lrange key =>
    have hkey : K key := hkeys key List.mem_cons_self
    exact ⟨by simp only [Store.exec, h.live hkey], h⟩
  | multi ops => exact h.runOps fun op hop => hkeys op.key (List.mem_map_of_mem hop)

/-! ### What stays -/

/-- A server after commands on other keys than some. -/
structure Untouched (K : PyStr → Prop) (before after : Store) : Prop where
  clock : after.clock = before.clock
  keys : ∀ key, K key → after.keys key = before.keys key

/-- A store leaves its own keys alone. -/
theorem Untouched.refl (K : PyStr → Prop) (store : Store) : Untouched K store store :=
  ⟨rfl, fun _ _ => rfl⟩

/-- What two commands leave alone they leave together. -/
theorem Untouched.trans {u : Store} (h : Untouched K s t) (h' : Untouched K t u) :
    Untouched K s u :=
  ⟨h'.clock.trans h.clock, fun key hkey => (h'.keys key hkey).trans (h.keys key hkey)⟩

/-- Stores agree on keys that one of them leaves alone. -/
theorem AgreeOn.of_untouched {after : Store} (h : AgreeOn K s t) (hafter : Untouched K s after) :
    AgreeOn K after t :=
  ⟨hafter.clock.trans h.clock, fun key hkey => (hafter.keys key hkey).trans (h.keys key hkey)⟩

/-- `put` leaves the other keys alone. -/
theorem untouched_put (store : Store) (hkey : ¬K key) (entry : Option Entry) :
    Untouched K store (store.put key entry) where
  clock := rfl
  keys k hk := if_neg (by rintro rfl; exact hkey hk)

/-- `visit` of another key leaves the keys of `K`. -/
theorem untouched_visit {α : Type} (store : Store) (hkey : ¬K key)
    (look : Rat → Option Entry → α × Change) : Untouched K store (store.visit key look).2 := by
  unfold Store.visit
  rcases look store.clock (store.live key) with ⟨answer, _ | entry⟩
  · exact .refl K store
  · exact untouched_put store hkey entry

/-- A transaction on other keys leaves the keys of `K`. -/
theorem untouched_runOps {ops : List Op} (hkeys : ∀ op ∈ ops, ¬K op.key) (store : Store) :
    Untouched K store (store.runOps ops).2 := by
  induction ops generalizing store with
  | nil => exact .refl K store
  | cons op ops ih =>
    obtain ⟨hop, hops⟩ := List.forall_mem_cons.mp hkeys
    exact (untouched_visit store hop op.look).trans (ih hops _)

/-- A command on other keys leaves the keys of `K`. -/
theorem untouched_exec {c : Command} (hkeys : ∀ key ∈ c.keys, ¬K key) (store : Store) :
    Untouched K store (store.exec c).2 := by
  cases c with
  | get | mget | llen | lrange => exact .refl K store
  | getDel key => exact untouched_visit store (hkeys key List.mem_cons_self) _
  | set key | setEx key => exact untouched_put store (hkeys key List.mem_cons_self) _
  | lmove src dst =>
    have hsrc : ¬K src := hkeys src List.mem_cons_self
    have hdst : ¬K dst := hkeys dst (List.mem_cons_of_mem _ List.mem_cons_self)
    simp only [Store.exec]
    rcases itemsOf (store.live src) with fault | ⟨_ | ⟨item, rest⟩, expiresAt⟩
    · exact .refl K store
    · exact .refl K store
    · cases itemsOf (store.live dst) with
      | error fault => exact .refl K store
      | ok list => exact (untouched_put store hsrc _).trans (untouched_visit _ hdst _)
  | multi ops => exact untouched_runOps (fun op hop => hkeys op.key (List.mem_map_of_mem hop)) store

end Locality

/-! ## Names -/

section Named

variable {ι : Type} {name : ι → PyStr} {entries : ι → Option Entry} {store : Store}

/-- What is held under the names. -/
def Named (name : ι → PyStr) (store : Store) (entries : ι → Option Entry) : Prop :=
  ∀ i, store.keys (name i) = entries i

/-- What is found by a name. -/
def liveOf (clock : Rat) (entry : Option Entry) : Option Entry :=
  entry.filter fun entry => entry.expiresAt.all (clock < ·)

/-- What is live under a name is its entry, unless it has expired. -/
theorem Named.live (h : Named name store entries) (i : ι) :
    store.live (name i) = liveOf store.clock (entries i) := by
  rw [Store.live, h i, liveOf]

/-- `put` under a name updates the named entry only, if the names are apart. -/
theorem Named.put [DecidableEq ι] (hname : Function.Injective name)
    (h : Named name store entries) (i : ι) (entry : Option Entry) :
    Named name (store.put (name i) entry) (Function.update entries i entry) := by
  intro j
  by_cases hj : j = i
  · rw [hj, Function.update_self]
    exact if_pos rfl
  · rw [Function.update_of_ne hj, ← h j]
    exact if_neg fun heq => hj (hname heq)

/-- A store keeps its entries where their names are left alone. -/
theorem Named.of_untouched {K : PyStr → Prop} {after : Store} (h : Named name store entries)
    (huntouched : Untouched K store after) (hnames : ∀ i, K (name i)) :
    Named name after entries :=
  fun i => (huntouched.keys (name i) (hnames i)).trans (h i)

/-- `Named` entries stay `Named` as time goes by. -/
theorem Named.tick (h : Named name store entries) (clock : Rat) :
    Named name (store.tick clock) entries := h

end Named

/-- `readInt` reads back what `intText` writes. -/
theorem readInt_intText (n : Nat) : readInt (JsonText.intText n) = some (n : Int) := by
  have htext : JsonText.intText (n : Int) = PyStr.ofString n.repr := by
    rw [JsonText.intText, Int.toString_eq_repr, Int.repr_eq_if, if_pos (Int.natCast_nonneg n)]
    rfl
  have hminus : JsonText.minus (PyStr.ofString n.repr) = (false, PyStr.ofString n.repr) := by
    have hdigits := JsonText.all_isDigit_repr n
    cases hdigit : PyStr.ofString n.repr with
    | nil => rfl
    | cons c text =>
      -- No digit is a minus sign
      have hc : c ≠ 0x2d := by
        rintro rfl
        rw [hdigit] at hdigits
        cases hdigits
      exact if_neg hc
  rw [htext, readInt, hminus]
  simp only [JsonText.whole_repr, JsonText.ofDigits_repr, Bool.false_and, Bool.not_false,
    Bool.and_true, if_true, Bool.false_eq_true, if_false]

/-! ## Counting -/

section Count

variable {store : Store} {key : PyStr} {expiresAt : Option Rat}

/-- What is put last counts. -/
theorem put_put (store : Store) (key : PyStr) (entry entry' : Option Entry) :
    (store.put key entry).put key entry' = store.put key entry' := by
  unfold Store.put
  congr 1
  funext k
  by_cases heq : k = key
  · rw [if_pos heq, if_pos heq]
  · rw [if_neg heq, if_neg heq]
    exact if_neg heq

/-- What is put under a key is live there unless it has expired. -/
theorem live_put (store : Store) (key : PyStr) (entry : Option Entry) :
    (store.put key entry).live key = liveOf store.clock entry := by
  simp only [Store.live, Store.put, if_true]
  rfl

/-- `EXPIRE NX` keeps the text under a key, and gives it an expiry if it had none. -/
theorem runOps_expireNx (seconds : Nat) {n : Int}
    (hlive : expiresAt.all (store.clock < ·) = true) :
    ∃ last, (store.put key (some ⟨.string (JsonText.intText n), expiresAt⟩)).runOps
        [.expireNx key seconds] =
      (.ok [last], store.put key
        (some ⟨.string (JsonText.intText n), some (expiresAt.getD (store.clock + seconds))⟩)) := by
  have hfound : liveOf store.clock (some ⟨.string (JsonText.intText n), expiresAt⟩) =
      some ⟨.string (JsonText.intText n), expiresAt⟩ := by
    rw [liveOf, Option.filter_some, if_pos hlive]
  simp only [Store.runOps, Store.runOp, Store.visit, Op.key, Op.look, live_put, hfound]
  cases expiresAt with
  | none => exact ⟨.int 1, congrArg (Prod.mk (Except.ok [OpReply.int 1])) (put_put store key _ _)⟩
  | some time => exact ⟨.int 0, rfl⟩

/-- `INCR` and `EXPIRE .. NX` of a counter, which is zero where there is none. -/
theorem runOps_count (seconds : Nat) {n : Nat}
    (hfound : store.live key = none ∧ n = 0 ∧ expiresAt = none ∨
      store.live key = some ⟨.string (JsonText.intText n), expiresAt⟩) :
    ∃ last, store.runOps [.incr key, .expireNx key seconds] =
      (.ok [.int (n + 1), last], store.put key
        (some ⟨.string (JsonText.intText (n + 1)),
          some (expiresAt.getD (store.clock + seconds))⟩)) := by
  have hincr : store.runOp (.incr key) = (.ok (.int (n + 1)),
      store.put key (some ⟨.string (JsonText.intText (n + 1)), expiresAt⟩)) := by
    obtain ⟨hnone, rfl, rfl⟩ | hsome := hfound
    · simp only [Store.runOp, Store.visit, Op.key, Op.look, hnone, incr]
      rfl
    · simp only [Store.runOp, Store.visit, Op.key, Op.look, hsome, incr, readInt_intText]
  have htime : expiresAt.all (store.clock < ·) = true := by
    obtain ⟨-, -, rfl⟩ | hsome := hfound
    · rfl
    · exact (Option.filter_eq_some_iff.mp hsome).2
  obtain ⟨last, hlast⟩ := @runOps_expireNx store key expiresAt seconds (n + 1) htime
  refine ⟨last, ?_⟩
  rw [Store.runOps]
  simp only [hincr, hlast]
  rfl

end Count

end RedisStore

end PyJson
