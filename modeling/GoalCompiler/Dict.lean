/-! Finite maps from texts, held as their entries in the order of the keys. -/
namespace GoalCompiler

abbrev Dict (α : Type) := List (String × α)

namespace Dict
variable {α β : Type}

def empty : Dict α := []

def get? : Dict α → String → Option α
  | [], _ => none
  | (k', v) :: rest, k => if k = k' then some v else get? rest k

def contains (m : Dict α) (k : String) : Bool := (get? m k).isSome

/-- Binds the key, in place of a binding that it has. -/
def insert : Dict α → String → α → Dict α
  | [], k, v => [(k, v)]
  | (k', v') :: rest, k, v =>
    if k = k' then (k, v) :: rest
    else if k < k' then (k, v) :: (k', v') :: rest
    else (k', v') :: insert rest k v

def erase (m : Dict α) (k : String) : Dict α := m.filter fun e => e.1 != k

def keys (m : Dict α) : List String := m.map Prod.fst

def values (m : Dict α) : List α := m.map Prod.snd

/-- Of two entries with one key the later counts. -/
def ofList (entries : List (String × α)) : Dict α :=
  entries.foldl (fun m e => insert m e.1 e.2) []

/-- The bindings of `other` added to those of `m`. -/
def update (m other : Dict α) : Dict α :=
  other.foldl (fun m e => insert m e.1 e.2) m

def mapValues (f : α → β) (m : Dict α) : Dict β := m.map fun e => (e.1, f e.2)

theorem get?_insert_self (m : Dict α) (k : String) (v : α) : get? (insert m k v) k = some v := by
  induction m with
  | nil => simp [insert, get?]
  | cons e rest ih =>
    by_cases h : k = e.1
    · simp [insert, get?, h]
    · by_cases lt : k < e.1 <;> simp [insert, get?, h, lt, ih]

theorem get?_insert_of_ne (m : Dict α) {k j : String} (v : α) (h : j ≠ k) :
    get? (insert m k v) j = get? m j := by
  induction m with
  | nil => simp [insert, get?, h]
  | cons e rest ih =>
    by_cases hk : k = e.1
    · have hj : j ≠ e.1 := hk ▸ h
      simp [insert, get?, hk, hj]
    · by_cases lt : k < e.1 <;> simp [insert, get?, hk, lt, h, ih]

end Dict

/-- Names in order, each once. -/
abbrev NameSet := List String

namespace NameSet

def insert : NameSet → String → NameSet
  | [], k => [k]
  | k' :: rest, k =>
    if k = k' then k' :: rest
    else if k < k' then k :: k' :: rest
    else k' :: insert rest k

def union (s t : NameSet) : NameSet := t.foldl insert s

def ofList (names : List String) : NameSet := names.foldl insert []

theorem mem_insert {s : NameSet} {k j : String} : j ∈ insert s k ↔ j = k ∨ j ∈ s := by
  induction s with
  | nil => simp [insert]
  | cons k' rest ih =>
    by_cases h : k = k'
    · subst h; simp [insert]
    · by_cases lt : k < k'
      · simp [insert, h, lt]
      · simp only [insert, h, lt, if_false, List.mem_cons, ih]
        exact or_left_comm

theorem mem_union {s t : NameSet} {j : String} : j ∈ union s t ↔ j ∈ s ∨ j ∈ t := by
  induction t generalizing s with
  | nil => simp [union]
  | cons k rest ih =>
    have step : union s (k :: rest) = union (insert s k) rest := rfl
    rw [step, ih, mem_insert, List.mem_cons, or_assoc, or_left_comm]

theorem mem_ofList {names : List String} {j : String} : j ∈ ofList names ↔ j ∈ names := by
  have h : ofList names = union [] names := rfl
  simp [h, mem_union]

end NameSet

end GoalCompiler
