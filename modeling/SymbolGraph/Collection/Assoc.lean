/-!
# Maps that keep their order

An `Assoc` is a list of keys with values.  Two disciplines of insertion are used on it:

* `put` keeps insertion order: a new key goes to the end, a key already present keeps its place
  and only its value changes;
* `putSorted` keeps the keys in increasing order.

`without` drops a key and keeps the order of the others, `adjust` changes the value of a key in
place.  The view is `at?`; each operation has one equation through it.
-/

namespace SymbolGraph

/-- A list of keys with values, in an order that iteration shows. -/
abbrev Assoc (κ ν : Type) := List (κ × ν)

namespace Assoc

variable {κ ν : Type} [DecidableEq κ]

/-- The value of a key, if it is present. -/
def at? : Assoc κ ν → κ → Option ν
  | [], _ => none
  | (key, value) :: rest, k => if key = k then some value else at? rest k

/-- The keys in order. -/
def keys (m : Assoc κ ν) : List κ := m.map Prod.fst

/-- The values in order of their keys. -/
def values (m : Assoc κ ν) : List ν := m.map Prod.snd

/-- Whether a key is present. -/
def has (m : Assoc κ ν) (k : κ) : Bool := (m.at? k).isSome

/-- Set the value of a key; a new key goes to the end. -/
def put : Assoc κ ν → κ → ν → Assoc κ ν
  | [], k, v => [(k, v)]
  | (key, value) :: rest, k, v =>
    if key = k then (key, v) :: rest else (key, value) :: put rest k v

/-- Change the value of a key in place; an absent key changes nothing. -/
def adjust : Assoc κ ν → κ → (ν → ν) → Assoc κ ν
  | [], _, _ => []
  | (key, value) :: rest, k, f =>
    if key = k then (key, f value) :: rest else (key, value) :: adjust rest k f

/-- Drop a key; the others keep their order. -/
def without (m : Assoc κ ν) (k : κ) : Assoc κ ν := m.filter fun entry => entry.1 ≠ k

/-- Set the value of a key in a map whose keys increase. -/
def putSorted [LT κ] [DecidableLT κ] : Assoc κ ν → κ → ν → Assoc κ ν
  | [], k, v => [(k, v)]
  | (key, value) :: rest, k, v =>
    if key = k then (key, v) :: rest
    else if k < key then (k, v) :: (key, value) :: rest
    else (key, value) :: putSorted rest k v

@[simp] theorem at?_nil (k : κ) : at? ([] : Assoc κ ν) k = none := rfl

@[simp] theorem at?_cons (key k : κ) (value : ν) (rest : Assoc κ ν) :
    at? ((key, value) :: rest) k = if key = k then some value else at? rest k := rfl

theorem at?_eq_none_iff (m : Assoc κ ν) (k : κ) : m.at? k = none ↔ k ∉ m.keys := by
  induction m with
  | nil => simp [keys]
  | cons entry rest ih =>
    obtain ⟨key, value⟩ := entry
    by_cases h : key = k
    · simp [keys, h]
    · simpa [keys, h, Ne.symm h] using ih

@[simp] theorem at?_put (m : Assoc κ ν) (k k' : κ) (v : ν) :
    (m.put k v).at? k' = if k = k' then some v else m.at? k' := by
  induction m with
  | nil => simp [put]
  | cons entry rest ih =>
    obtain ⟨key, value⟩ := entry
    by_cases h : key = k
    · subst h
      simp only [put, if_true, at?_cons]
      split <;> rfl
    · simp only [put, h, if_false, at?_cons, ih]
      by_cases hk : key = k' <;> simp_all [Ne.symm]

@[simp] theorem at?_adjust (m : Assoc κ ν) (k k' : κ) (f : ν → ν) :
    (m.adjust k f).at? k' = if k = k' then (m.at? k').map f else m.at? k' := by
  induction m with
  | nil => simp [adjust]
  | cons entry rest ih =>
    obtain ⟨key, value⟩ := entry
    by_cases h : key = k
    · subst h
      simp only [adjust, if_true, at?_cons]
      by_cases hk : key = k' <;> simp [hk]
    · simp only [adjust, h, if_false, at?_cons, ih]
      by_cases hk : key = k'
      · subst hk
        simp [Ne.symm h]
      · simp [hk]

@[simp] theorem at?_without (m : Assoc κ ν) (k k' : κ) :
    (m.without k).at? k' = if k = k' then none else m.at? k' := by
  induction m with
  | nil => simp [without]
  | cons entry rest ih =>
    obtain ⟨key, value⟩ := entry
    simp only [without] at ih
    by_cases h : key = k
    · subst h
      by_cases hk : key = k' <;> simp_all [without]
    · by_cases hk : key = k' <;> simp_all [without, Ne.symm]

omit [DecidableEq κ] in
@[simp] theorem keys_nil : keys ([] : Assoc κ ν) = [] := rfl

omit [DecidableEq κ] in
@[simp] theorem keys_cons (key : κ) (value : ν) (rest : Assoc κ ν) :
    keys ((key, value) :: rest) = key :: keys rest := rfl

/-- Setting a value adds a new key at the end and leaves the order of the others alone. -/
theorem keys_put (m : Assoc κ ν) (k : κ) (v : ν) :
    (m.put k v).keys = if k ∈ m.keys then m.keys else m.keys ++ [k] := by
  induction m with
  | nil => simp [put]
  | cons entry rest ih =>
    obtain ⟨key, value⟩ := entry
    by_cases h : key = k
    · simp [put, h]
    · simp only [put, h, if_false, keys_cons, ih, List.mem_cons, Ne.symm h, false_or]
      split <;> simp

theorem nodup_keys_put {m : Assoc κ ν} (h : m.keys.Nodup) (k : κ) (v : ν) :
    (m.put k v).keys.Nodup := by
  rw [keys_put]
  split
  · exact h
  · next hnew =>
    refine List.nodup_append.2 ⟨h, List.pairwise_singleton _ k,
      fun key hkey other hother heq => hnew ?_⟩
    rwa [← List.mem_singleton.1 hother, ← heq]

@[simp] theorem keys_without (m : Assoc κ ν) (k : κ) :
    (m.without k).keys = m.keys.filter (· ≠ k) := by
  simp [keys, without, List.filter_map, Function.comp_def]

end Assoc

end SymbolGraph
