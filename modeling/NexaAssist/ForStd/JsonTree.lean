import NexaAssist.ForStd.PyDict
import NexaAssist.ForStd.PyJson

/-!
# JSON values as trees

A JSON value in which places differ in what they stand for. A `Grammar` says of which kind the
values of a dictionary and the items of a list are; `dicts` lists the dictionaries of a tree
with their kinds, and `prune` takes entries away from them.
-/

namespace PyJson

/-- A JSON value as Python has it. -/
inductive Json
  | null
  | bool (b : Bool)
  | int (i : Int)
  | float (f : PyFloat)
  | str (s : PyStr)
  | arr (xs : List Json)
  | obj (fields : List (PyStr × Json))

namespace Json

/-- Induction on a value, with hypotheses for what a container holds. -/
@[elab_as_elim, induction_eliminator]
theorem ind {P : Json → Prop} (null : P .null) (bool : ∀ b, P (.bool b))
    (int : ∀ i, P (.int i)) (float : ∀ f, P (.float f)) (str : ∀ s, P (.str s))
    (arr : ∀ xs, (∀ v ∈ xs, P v) → P (.arr xs))
    (obj : ∀ fields, (∀ e ∈ fields, P e.2) → P (.obj fields)) (v : Json) : P v :=
  @Json.rec P (fun xs => ∀ v ∈ xs, P v) (fun es => ∀ e ∈ es, P e.2) (fun e => P e.2)
    null bool int float str arr obj
    (by simp) (fun _ _ hv hxs => by simpa using ⟨hv, hxs⟩)
    (by simp) (fun _ _ he hes => by simpa using ⟨he, fun a b => hes (a, b)⟩)
    (fun _ _ hv => hv) v

/-- Which kind a value under a key is of, and which kind an item of a list. -/
structure Grammar (κ : Type) where
  child : κ → PyStr → κ
  item : κ → κ

variable {κ : Type} (g : Grammar κ) (skip : κ → PyDict PyStr Json → PyStr → Bool)

/-! ## Dictionaries of a tree -/

mutual

/-- The dictionaries of a tree with their kinds, but for what lies under skipped keys. -/
def dicts (kind : κ) : Json → List (κ × PyDict PyStr Json)
  | .arr xs => itemDicts (g.item kind) xs
  | .obj fields => (kind, fields) :: fieldDicts kind (skip kind fields) fields
  | _ => []

def itemDicts (kind : κ) : List Json → List (κ × PyDict PyStr Json)
  | [] => []
  | v :: vs => dicts kind v ++ itemDicts kind vs

def fieldDicts (kind : κ) (skipped : PyStr → Bool) :
    List (PyStr × Json) → List (κ × PyDict PyStr Json)
  | [] => []
  | (key, v) :: fields =>
    (if skipped key then [] else dicts (g.child kind key) v) ++ fieldDicts kind skipped fields

end

variable {g skip} {kind : κ} {fields : PyDict PyStr Json} {xs : List Json}
  {node : κ × PyDict PyStr Json}

/-- The dictionaries of items are those of each item. -/
theorem mem_itemDicts :
    node ∈ itemDicts g skip kind xs ↔ ∃ v ∈ xs, node ∈ dicts g skip kind v := by
  induction xs with
  | nil => simp [itemDicts]
  | cons v vs ih => simp only [itemDicts, List.mem_append, ih, List.mem_cons, exists_eq_or_imp]

/-- The dictionaries of an array are those of its items. -/
theorem mem_dicts_arr :
    node ∈ dicts g skip kind (.arr xs) ↔ ∃ v ∈ xs, node ∈ dicts g skip (g.item kind) v := by
  rw [dicts, mem_itemDicts]

/-- The dictionaries of fields are those of each field that is not skipped. -/
theorem mem_fieldDicts {skipped : PyStr → Bool} :
    node ∈ fieldDicts g skip kind skipped fields ↔
      ∃ e ∈ fields, skipped e.1 = false ∧ node ∈ dicts g skip (g.child kind e.1) e.2 := by
  induction fields with
  | nil => simp [fieldDicts]
  | cons e fields ih =>
    obtain ⟨key, v⟩ := e
    cases h : skipped key <;> simp [fieldDicts, ih, h]

/-- The dictionaries of an object are itself and those of its fields that are not skipped. -/
theorem mem_dicts_obj :
    node ∈ dicts g skip kind (.obj fields) ↔ node = (kind, fields) ∨
      ∃ e ∈ fields, skip kind fields e.1 = false ∧ node ∈ dicts g skip (g.child kind e.1) e.2 := by
  rw [dicts, List.mem_cons, mem_fieldDicts]

/-! ## Pruning -/

variable (g skip)

mutual

/-- A tree without the entries under skipped keys. -/
def prune (kind : κ) : Json → Json
  | .arr xs => .arr (pruneItems (g.item kind) xs)
  | .obj fields => .obj (pruneFields kind (skip kind fields) fields)
  | v => v

def pruneItems (kind : κ) : List Json → List Json
  | [] => []
  | v :: vs => prune kind v :: pruneItems kind vs

def pruneFields (kind : κ) (skipped : PyStr → Bool) :
    List (PyStr × Json) → List (PyStr × Json)
  | [] => []
  | (key, v) :: fields =>
    if skipped key then pruneFields kind skipped fields
    else (key, prune (g.child kind key) v) :: pruneFields kind skipped fields

end

variable {g skip}

/-- `prune` of an array prunes its items. -/
theorem prune_arr :
    prune g skip kind (.arr xs) = .arr (xs.map (prune g skip (g.item kind))) := by
  have hitems : ∀ kind, pruneItems g skip kind xs = xs.map (prune g skip kind) := by
    intro kind
    induction xs with
    | nil => rfl
    | cons v vs ih => rw [pruneItems, List.map_cons, ih]
  rw [prune, hitems]

/-- `prune` of an object drops the fields that are skipped and prunes the others. -/
theorem prune_obj :
    prune g skip kind (.obj fields) =
      .obj ((fields.filter fun e => !skip kind fields e.1).map fun e =>
        (e.1, prune g skip (g.child kind e.1) e.2)) := by
  have hfields : ∀ skipped : PyStr → Bool, pruneFields g skip kind skipped fields =
      (fields.filter fun e => !skipped e.1).map fun e =>
        (e.1, prune g skip (g.child kind e.1) e.2) := by
    intro skipped
    induction fields with
    | nil => rfl
    | cons e fields ih =>
      obtain ⟨key, v⟩ := e
      rw [pruneFields, ih, List.filter_cons]
      cases skipped key <;> simp
  rw [prune, hfields]

/-- Where no key is skipped nothing is pruned. -/
theorem prune_eq_self {P : κ → Prop} (hskip : ∀ kind, P kind → ∀ fields key,
      skip kind fields key = false)
    (hchild : ∀ kind, P kind → ∀ key, P (g.child kind key))
    (hitem : ∀ kind, P kind → P (g.item kind)) {v : Json} (hkind : P kind) :
    prune g skip kind v = v := by
  induction v generalizing kind with
  | arr xs ih =>
    rw [prune_arr]
    have hmap : xs.map (prune g skip (g.item kind)) = xs.map id :=
      List.map_congr_left fun v hv => ih v hv (hitem kind hkind)
    rw [hmap, List.map_id]
  | obj fields ih =>
    rw [prune_obj]
    have hfilter : (fields.filter fun e => !skip kind fields e.1) = fields :=
      List.filter_eq_self.mpr fun e _ => by rw [hskip kind hkind, Bool.not_false]
    have hmap : (fields.map fun e => (e.1, prune g skip (g.child kind e.1) e.2)) =
        fields.map id :=
      List.map_congr_left fun e he => by rw [ih e he (hchild kind hkind e.1)]; rfl
    rw [hfilter, hmap, List.map_id]
  | _ => rfl

end Json

end PyJson
