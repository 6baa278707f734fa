/-! # Keyed lists

Finite maps as lists of keys and values in ascending order of their keys, each key once. The list
is determined by the map, so two maps with the same entries are equal as lists. -/
namespace Accord.Keyed

variable {κ α : Type} [DecidableEq κ]

/-- The value kept under a key. -/
def get? (key : κ) : List (κ × α) → Option α
  | [] => none
  | (k, v) :: rest => if key = k then some v else get? key rest

def contains (key : κ) (entries : List (κ × α)) : Bool :=
  (get? key entries).isSome

def keys (entries : List (κ × α)) : List κ :=
  entries.map (·.1)

/-- Keeps `value` under `key`, in the place of what was there. -/
def put [LT κ] [DecidableLT κ] (key : κ) (value : α) : List (κ × α) → List (κ × α)
  | [] => [(key, value)]
  | (k, v) :: rest =>
    if key = k then (key, value) :: rest
    else if key < k then (key, value) :: (k, v) :: rest
    else (k, v) :: put key value rest

/-- Forgets a key. -/
def erase (key : κ) (entries : List (κ × α)) : List (κ × α) :=
  entries.filter fun entry => entry.1 ≠ key

/-- Changes the value kept under a key, if there is one. -/
def modify (key : κ) (f : α → α) (entries : List (κ × α)) : List (κ × α) :=
  entries.map fun entry => if entry.1 = key then (entry.1, f entry.2) else entry

/-- Puts the entries of a list one after another, so that the last one of a key stays. -/
def ofList [LT κ] [DecidableLT κ] (entries : List (κ × α)) : List (κ × α) :=
  entries.foldl (fun kept entry => put entry.1 entry.2 kept) []

theorem get?_put_self [LT κ] [DecidableLT κ] (key : κ) (value : α) (entries : List (κ × α)) :
    get? key (put key value entries) = some value := by
  induction entries with
  | nil => simp [put, get?]
  | cons entry rest ih =>
    obtain ⟨k, v⟩ := entry
    simp only [put]
    split
    · simp [get?]
    · rename_i hne
      split
      · simp [get?]
      · simp [get?, hne, ih]

theorem get?_put_of_ne [LT κ] [DecidableLT κ] {key other : κ} (h : other ≠ key) (value : α)
    (entries : List (κ × α)) : get? other (put key value entries) = get? other entries := by
  induction entries with
  | nil => simp [put, get?, h]
  | cons entry rest ih =>
    obtain ⟨k, v⟩ := entry
    simp only [put]
    split
    · rename_i hk
      subst hk
      simp [get?, h]
    · split
      · simp [get?, h]
      · simp only [get?, ih]

end Accord.Keyed
