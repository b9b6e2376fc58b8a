/-! # Entries by key, in order of insertion

A list of pairs serves as a table that remembers the order in which its keys were first put.

* `lookup? key entries` finds the value of a key.
* `put key value entries` replaces the value of a key at its place or appends a new entry.
* `keys entries` lists the keys.
-/

namespace LuaGlobals.Keyed

variable {K V : Type} [DecidableEq K]

/-- The value of the first entry with the given key. -/
def lookup? (key : K) : List (K × V) → Option V
  | [] => none
  | (k, v) :: rest => if k = key then some v else lookup? key rest

/-- The entries with `key` bound to `value`: in the place of its present entry, else at the
end. -/
def put (key : K) (value : V) : List (K × V) → List (K × V)
  | [] => [(key, value)]
  | (k, v) :: rest => if k = key then (k, value) :: rest else (k, v) :: put key value rest

/-- The keys of the entries, in order. -/
def keys (entries : List (K × V)) : List K :=
  entries.map Prod.fst

/-- Whether some entry has the key. -/
def hasKey (key : K) (entries : List (K × V)) : Bool :=
  (lookup? key entries).isSome

/-- The entries put into a table one after the other. -/
def putAll (entries additions : List (K × V)) : List (K × V) :=
  additions.foldl (fun table entry => put entry.1 entry.2 table) entries

/-- A key that was just put is found with its value. -/
@[simp] theorem lookup?_put_self (key : K) (value : V) (entries : List (K × V)) :
    lookup? key (put key value entries) = some value := by
  induction entries with
  | nil => simp [put, lookup?]
  | cons entry rest ih =>
    obtain ⟨k, v⟩ := entry
    by_cases h : k = key <;> simp [put, lookup?, h, ih]

/-- Putting one key leaves all other keys as they were. -/
theorem lookup?_put_of_ne {key other : K} (h : other ≠ key) (value : V) (entries : List (K × V)) :
    lookup? other (put key value entries) = lookup? other entries := by
  induction entries with
  | nil => simp [put, lookup?, Ne.symm h]
  | cons entry rest ih =>
    obtain ⟨k, v⟩ := entry
    by_cases hk : k = key
    · subst hk; simp [put, lookup?, Ne.symm h]
    · simp [put, lookup?, hk, ih]

/-- A key is found exactly when it is one of the keys. -/
theorem lookup?_isSome_iff (key : K) (entries : List (K × V)) :
    (lookup? key entries).isSome ↔ key ∈ keys entries := by
  induction entries with
  | nil => simp [lookup?, keys]
  | cons entry rest ih =>
    obtain ⟨k, v⟩ := entry
    by_cases h : k = key
    · simp [lookup?, keys, h]
    · simpa [lookup?, keys, h, Ne.symm h] using ih

/-- Putting a key that is there keeps the keys and their order; a new key comes last. -/
theorem keys_put (key : K) (value : V) (entries : List (K × V)) :
    keys (put key value entries) =
      if key ∈ keys entries then keys entries else keys entries ++ [key] := by
  induction entries with
  | nil => simp [put, keys]
  | cons entry rest ih =>
    obtain ⟨k, v⟩ := entry
    by_cases h : k = key
    · simp [put, keys, h]
    · simp only [put, h, if_false, keys, List.map_cons, List.mem_cons, Ne.symm h, false_or]
      rw [show (put key value rest).map Prod.fst = keys (put key value rest) from rfl, ih]
      by_cases hmem : key ∈ keys rest <;> simp_all [keys]

end LuaGlobals.Keyed
