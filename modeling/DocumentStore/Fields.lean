/-!
# Ordered fields

A list of keys with values in order of first insertion.  Writing to a key that is
present keeps its place, and a new key goes to the end.
-/

namespace DocumentStore

abbrev Fields (α : Type) := List (String × α)

namespace Fields

variable {α β : Type}

def get? (key : String) : Fields α → Option α
  | [] => none
  | (k, v) :: fields => if k = key then some v else get? key fields

def contains (key : String) (fields : Fields α) : Bool := (get? key fields).isSome

def insert (key : String) (value : α) : Fields α → Fields α
  | [] => [(key, value)]
  | (k, v) :: fields =>
    if k = key then (k, value) :: fields else (k, v) :: insert key value fields

def erase (key : String) (fields : Fields α) : Fields α :=
  fields.filter fun field => field.1 != key

def insertAll (fields : Fields α) (added : Fields α) : Fields α :=
  added.foldl (fun fields field => insert field.1 field.2 fields) fields

/-- The fields of a list of pairs: of a repeated key the first place and the last value. -/
def ofList (pairs : List (String × α)) : Fields α := insertAll [] pairs

def keys (fields : Fields α) : List String := fields.map Prod.fst

/-! ## Each operation through `get?` -/

@[simp] theorem get?_nil (key : String) : get? key ([] : Fields α) = none := rfl

theorem get?_cons (key k : String) (v : α) (fields : Fields α) :
    get? key ((k, v) :: fields) = if k = key then some v else get? key fields := rfl

theorem get?_append (key : String) (fields others : Fields α) :
    get? key (fields ++ others) = (get? key fields).or (get? key others) := by
  induction fields with
  | nil => rfl
  | cons field fields ih =>
      rw [List.cons_append, get?_cons, get?_cons, ih]
      split <;> rfl

@[simp] theorem get?_insert_self (key : String) (value : α) (fields : Fields α) :
    get? key (insert key value fields) = some value := by
  induction fields with
  | nil => simp [insert, get?]
  | cons field fields ih => by_cases h : field.1 = key <;> simp [insert, get?, h, ih]

theorem get?_insert_of_ne {key other : String} (h : other ≠ key) (value : α)
    (fields : Fields α) : get? other (insert key value fields) = get? other fields := by
  induction fields with
  | nil => simp [insert, get?, Ne.symm h]
  | cons field fields ih =>
    by_cases hk : field.1 = key
    · simp [insert, get?, hk, Ne.symm h]
    · simp [insert, get?, hk, ih]

@[simp] theorem get?_erase_self (key : String) (fields : Fields α) :
    get? key (erase key fields) = none := by
  induction fields with
  | nil => rfl
  | cons field fields ih =>
    by_cases h : field.1 = key
    · simpa [erase, h] using ih
    · simpa [erase, h, get?] using ih

theorem get?_erase_of_ne {key other : String} (h : other ≠ key) (fields : Fields α) :
    get? other (erase key fields) = get? other fields := by
  induction fields with
  | nil => rfl
  | cons field fields ih =>
    by_cases hk : field.1 = key
    · simpa [erase, hk, get?, Ne.symm h] using ih
    · by_cases ho : field.1 = other <;> simp_all [erase, get?]

end Fields

end DocumentStore
