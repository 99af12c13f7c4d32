/-!
# CodeIndex.Table

Tables with texts as keys, kept as pairs in the order of insertion.

* `insert` puts a new key at the end and gives a present key its new value in place.
* `get?_insert`, `get?_erase` say what each operation does to the lookups.
-/

namespace CodeIndex

abbrev Table (α : Type) := List (String × α)

namespace Table

variable {α : Type}

def get? : Table α → String → Option α
  | [], _ => none
  | (k, a) :: table, key => if k = key then some a else get? table key

def contains (table : Table α) (key : String) : Bool := (table.get? key).isSome

def insert : Table α → String → α → Table α
  | [], key, a => [(key, a)]
  | (k, b) :: table, key, a => if k = key then (key, a) :: table else (k, b) :: insert table key a

def erase : Table α → String → Table α
  | [], _ => []
  | (k, a) :: table, key => if k = key then erase table key else (k, a) :: erase table key

/-- One entry for each key: at the place of its first pair, with the value of its last. -/
def ofPairs (pairs : List (String × α)) : Table α :=
  pairs.foldl (fun table p => insert table p.1 p.2) []

/-- The keys by code points. -/
def sortedKeys (table : Table α) : List String :=
  (table.map Prod.fst).mergeSort fun a b => !(b < a : Bool)

@[simp] theorem get?_nil (key : String) : get? ([] : Table α) key = none := rfl

theorem get?_cons (k key : String) (a : α) (table : Table α) :
    get? ((k, a) :: table) key = if k = key then some a else get? table key := rfl

theorem get?_insert (table : Table α) (key other : String) (a : α) :
    get? (insert table key a) other = if key = other then some a else get? table other := by
  induction table with
  | nil => rfl
  | cons p table ih =>
    obtain ⟨k, b⟩ := p
    by_cases hk : k = key
    · subst hk
      by_cases h : k = other <;> simp [insert, get?_cons, h]
    · by_cases h : k = other
      · subst h
        simp [insert, get?_cons, hk, Ne.symm hk]
      · simp [insert, get?_cons, hk, h, ih]

theorem get?_erase (table : Table α) (key other : String) :
    get? (erase table key) other = if key = other then none else get? table other := by
  induction table with
  | nil => simp [erase]
  | cons p table ih =>
    obtain ⟨k, b⟩ := p
    by_cases hk : k = key
    · subst hk
      rw [erase, if_pos rfl, ih, get?_cons]
      by_cases h : k = other <;> simp [h]
    · by_cases h : k = other
      · subst h
        simp [erase, get?_cons, hk, Ne.symm hk]
      · simp [erase, get?_cons, hk, h, ih]

end Table
end CodeIndex
