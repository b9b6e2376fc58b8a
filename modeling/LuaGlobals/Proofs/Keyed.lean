import LuaGlobals.Keyed
import Mathlib.Data.List.Induction
import Mathlib.Data.List.Nodup
import Mathlib.Tactic.Tauto

/-! # Tables that are filled entry by entry

A table is kept as a row of entries, each key once, in the order in which keys were first put.

* `eraseDups_concat` and `length_eraseDups_eq_iff` are about rows in which each value is kept once.
* `Keyed.put_eq_self` and `Keyed.put_of_lookup?_eq_none` tell apart what a put may do.
* **`Keyed.lookup?_putAll`**: behind a row of additions the last one with a key decides.
* **`Keyed.keys_putAll_nil`** and **`Keyed.putAll_map`**: what a table holds that is filled from the
  start. -/

namespace LuaGlobals

/-! ## Each value once -/

section EraseDups

variable {α : Type} [DecidableEq α]

/-- A value behind others is kept if it is not one of them. -/
theorem eraseDups_concat (values : List α) (value : α) :
    (values ++ [value]).eraseDups =
      if value ∈ values.eraseDups then values.eraseDups else values.eraseDups ++ [value] := by
  rw [List.eraseDups_append]
  by_cases h : value ∈ values <;> simp [List.removeAll, List.eraseDups_cons, h]

/-- No value is kept twice. -/
theorem nodup_eraseDups (values : List α) : values.eraseDups.Nodup := by
  induction values using List.reverseRecOn with
  | nil => exact List.nodup_nil
  | append_singleton values value ih =>
      rw [eraseDups_concat]
      split
      · exact ih
      · rename_i hnew
        exact List.Nodup.append ih (List.nodup_singleton value) (List.disjoint_singleton.mpr hnew)

/-- What is kept is a part of the row. -/
theorem eraseDups_sublist (values : List α) : values.eraseDups.Sublist values := by
  induction values using List.reverseRecOn with
  | nil => exact List.Sublist.refl _
  | append_singleton values value ih =>
      rw [eraseDups_concat]
      split
      · exact ih.trans (List.sublist_append_left values [value])
      · exact ih.append_right [value]

/-- All values are kept exactly when none stands twice. -/
theorem eraseDups_eq_self_iff {values : List α} : values.eraseDups = values ↔ values.Nodup := by
  constructor
  · exact fun h => h ▸ nodup_eraseDups values
  · intro h
    induction values using List.reverseRecOn with
    | nil => rfl
    | append_singleton values value ih =>
        obtain ⟨hvalues, -, hnew⟩ := List.nodup_append'.mp h
        rw [eraseDups_concat, ih hvalues, if_neg (List.disjoint_singleton.mp hnew)]

/-- As many values are kept as there are exactly when none stands twice. -/
theorem length_eraseDups_eq_iff {values : List α} :
    values.eraseDups.length = values.length ↔ values.Nodup := by
  rw [← eraseDups_eq_self_iff]
  exact ⟨(eraseDups_sublist values).eq_of_length, congrArg List.length⟩

end EraseDups

namespace Keyed

variable {K V : Type} [DecidableEq K]

/-! ## Entries found and put -/

/-- What is found is one of the entries. -/
theorem mem_of_lookup? {key : K} {value : V} {entries : List (K × V)}
    (h : lookup? key entries = some value) : (key, value) ∈ entries := by
  induction entries with
  | nil => simp [lookup?] at h
  | cons entry rest ih =>
      rw [lookup?] at h
      split at h
      case isTrue hkey =>
          obtain rfl := Option.some.inj h
          simp [← hkey]
      case isFalse => exact List.mem_cons_of_mem _ (ih h)

/-- With distinct keys every entry is found. -/
theorem lookup?_of_mem {entry : K × V} {entries : List (K × V)} (hkeys : (keys entries).Nodup)
    (h : entry ∈ entries) : lookup? entry.1 entries = some entry.2 := by
  induction entries with
  | nil => simp at h
  | cons first rest ih =>
      obtain ⟨hnew, hrest⟩ := List.nodup_cons.mp hkeys
      rw [lookup?]
      rcases List.mem_cons.mp h with rfl | h
      · rw [if_pos rfl]
      · -- The first entry has another key, which stands only there.
        have hne : first.1 ≠ entry.1 := by
          intro hsame
          apply hnew
          rw [hsame]
          exact List.mem_map_of_mem h
        rw [if_neg hne]
        exact ih hrest h

/-- An entry that is found may be put again. -/
theorem put_eq_self {key : K} {value : V} {entries : List (K × V)}
    (h : lookup? key entries = some value) : put key value entries = entries := by
  induction entries with
  | nil => simp [lookup?] at h
  | cons entry rest ih =>
      rw [lookup?] at h
      rw [put]
      split
      case isTrue hkey =>
          rw [if_pos hkey] at h
          rw [← Option.some.inj h]
      case isFalse hkey =>
          rw [if_neg hkey] at h
          rw [ih h]

/-- Entries that are found may be put again. -/
theorem putAll_eq_self {entries additions : List (K × V)}
    (h : ∀ addition ∈ additions, lookup? addition.1 entries = some addition.2) :
    putAll entries additions = entries := by
  induction additions with
  | nil => rfl
  | cons addition rest ih =>
      obtain ⟨hfirst, hrest⟩ := List.forall_mem_cons.mp h
      have hput : putAll entries (addition :: rest)
          = putAll (put addition.1 addition.2 entries) rest := rfl
      rw [hput, put_eq_self hfirst, ih hrest]

/-- A key that is not found is put at the end. -/
theorem put_of_lookup?_eq_none {key : K} {value : V} {entries : List (K × V)}
    (h : lookup? key entries = none) : put key value entries = entries ++ [(key, value)] := by
  induction entries with
  | nil => rfl
  | cons entry rest ih =>
      rw [lookup?] at h
      rw [put]
      split
      case isTrue hkey => simp [hkey] at h
      case isFalse hkey =>
          rw [if_neg hkey] at h
          rw [ih h, List.cons_append]

/-- An entry behind a put is the one that was put or was there before. -/
theorem mem_put {key : K} {value : V} {entry : K × V} {entries : List (K × V)}
    (h : entry ∈ put key value entries) : entry = (key, value) ∨ entry ∈ entries := by
  induction entries with
  | nil => exact Or.inl (List.mem_singleton.mp h)
  | cons first rest ih =>
      rw [put] at h
      split at h
      case isTrue hkey =>
          rw [hkey] at h
          exact (List.mem_cons.mp h).imp_right (List.mem_cons_of_mem _)
      case isFalse =>
          rcases List.mem_cons.mp h with rfl | h
          · exact Or.inr List.mem_cons_self
          · exact (ih h).imp_right (List.mem_cons_of_mem _)

/-- Entries that stand under the same keys in the same order, and are found among the others, are
the others. -/
theorem eq_of_keys_eq {entries others : List (K × V)} (hkeys : keys entries = keys others)
    (hothers : (keys others).Nodup)
    (hfound : ∀ entry ∈ entries, lookup? entry.1 others = some entry.2) : entries = others := by
  induction entries generalizing others with
  | nil => exact (List.map_eq_nil_iff.mp hkeys.symm).symm
  | cons entry rest ih =>
      cases others with
      | nil => simp [keys] at hkeys
      | cons other others =>
          obtain ⟨hkey, hrest⟩ := List.cons.inj hkeys
          obtain ⟨hnew, hothers⟩ := List.nodup_cons.mp hothers
          obtain ⟨hfirst, hfound⟩ := List.forall_mem_cons.mp hfound
          rw [lookup?, if_pos hkey.symm] at hfirst
          have hentry : entry = other := Prod.ext hkey (Option.some.inj hfirst).symm
          rw [hentry, ih hrest hothers]
          intro later hlater
          have hne : other.1 ≠ later.1 := by
            intro hsame
            apply hnew
            rw [hsame, ← show keys rest = others.map Prod.fst from hrest]
            exact List.mem_map_of_mem hlater
          have hlookup := hfound later hlater
          rwa [lookup?, if_neg hne] at hlookup

/-! ## Tables filled with further entries -/

/-- Putting a key adds it to the keys and removes none. -/
theorem mem_keys_put {key added : K} {value : V} {entries : List (K × V)} :
    key ∈ keys (put added value entries) ↔ key = added ∨ key ∈ keys entries := by
  rw [keys_put]
  split
  case isTrue hmem =>
      constructor
      · exact Or.inr
      · rintro (rfl | h)
        · exact hmem
        · exact h
  case isFalse =>
      rw [List.mem_append, List.mem_singleton]
      exact or_comm

/-- Putting several entries adds their keys and removes none. -/
theorem mem_keys_putAll {key : K} {entries additions : List (K × V)} :
    key ∈ keys (putAll entries additions) ↔ key ∈ keys entries ∨ key ∈ keys additions := by
  induction additions generalizing entries with
  | nil => simp [putAll, keys]
  | cons addition rest ih =>
      have hkeys : keys (addition :: rest) = addition.1 :: keys rest := rfl
      change key ∈ keys (putAll (put addition.1 addition.2 entries) rest) ↔ _
      rw [ih, mem_keys_put, hkeys, List.mem_cons]
      tauto

/-- A key that is none of the keys is not found. -/
theorem lookup?_eq_none_iff {key : K} {entries : List (K × V)} :
    lookup? key entries = none ↔ key ∉ keys entries := by
  rw [← lookup?_isSome_iff, Option.not_isSome_iff_eq_none]

/-- A lookup in two rows of entries prefers the first. -/
theorem lookup?_append (key : K) (entries others : List (K × V)) :
    lookup? key (entries ++ others) = (lookup? key entries).or (lookup? key others) := by
  induction entries with
  | nil => rfl
  | cons entry rest ih =>
      rw [List.cons_append, lookup?, lookup?]
      split
      · rfl
      · exact ih

/-- **The last addition with a key decides**, and without one the entries that were there. -/
theorem lookup?_putAll (key : K) (entries additions : List (K × V)) :
    lookup? key (putAll entries additions) =
      (lookup? key additions.reverse).or (lookup? key entries) := by
  induction additions generalizing entries with
  | nil => rfl
  | cons addition rest ih =>
      change lookup? key (putAll (put addition.1 addition.2 entries) rest) = _
      -- The first addition is the last that a lookup in the reversed row comes to.
      rw [ih, List.reverse_cons, lookup?_append, Option.or_assoc]
      congr 1
      by_cases h : addition.1 = key
      · rw [← h, lookup?_put_self, lookup?, if_pos rfl]
        rfl
      · rw [lookup?_put_of_ne (Ne.symm h), lookup?, if_neg h]
        rfl

/-- Putting a key keeps the keys distinct. -/
theorem nodup_keys_put {key : K} {value : V} {entries : List (K × V)} (h : (keys entries).Nodup) :
    (keys (put key value entries)).Nodup := by
  rw [keys_put]
  split
  case isTrue => exact h
  case isFalse hnew =>
      refine List.nodup_append.mpr ⟨h, List.pairwise_singleton _ key, ?_⟩
      intro other hother added hadded hsame
      rw [List.mem_singleton.mp hadded] at hsame
      exact hnew (hsame ▸ hother)

/-- Where the keys are distinct it does not matter from which end a lookup starts. -/
theorem lookup?_reverse {entries : List (K × V)} (h : (keys entries).Nodup) (key : K) :
    lookup? key entries.reverse = lookup? key entries := by
  induction entries with
  | nil => rfl
  | cons entry rest ih =>
      obtain ⟨hnew, hrest⟩ := List.nodup_cons.mp h
      rw [List.reverse_cons, lookup?_append, ih hrest]
      by_cases hkey : entry.1 = key
      · have hnone : lookup? key rest = none := lookup?_eq_none_iff.mpr (hkey ▸ hnew)
        simp [lookup?, hkey, hnone]
      · simp [lookup?, hkey]

/-- **Additions with distinct keys hide the entries below them.** -/
theorem lookup?_putAll_of_nodup {entries additions : List (K × V)} (h : (keys additions).Nodup)
    (key : K) :
    lookup? key (putAll entries additions)
      = (lookup? key additions).or (lookup? key entries) := by
  rw [lookup?_putAll, lookup?_reverse h]

/-! ## Tables filled from the start -/

/-- The last of the entries is put last. -/
theorem putAll_concat (entries additions : List (K × V)) (addition : K × V) :
    putAll entries (additions ++ [addition])
      = put addition.1 addition.2 (putAll entries additions) := by
  rw [putAll, List.foldl_append]
  rfl

/-- **The keys of a table that is filled**: each once, in order of first occurrence. -/
theorem keys_putAll_nil (additions : List (K × V)) :
    keys (putAll [] additions) = (keys additions).eraseDups := by
  induction additions using List.reverseRecOn with
  | nil => rfl
  | append_singleton additions addition ih =>
      have hkeys : keys (additions ++ [addition]) = keys additions ++ [addition.1] :=
        List.map_append
      rw [putAll_concat, keys_put, ih, hkeys, eraseDups_concat]

/-- What a table of a function gives for a key. -/
theorem lookup?_map (value : K → V) (key : K) (names : List K) :
    lookup? key (names.map fun name => (name, value name))
      = if key ∈ names then some (value key) else none := by
  induction names with
  | nil => rfl
  | cons name rest ih =>
      rw [List.map_cons, lookup?, ih]
      by_cases h : name = key
      · rw [if_pos h, if_pos (h ▸ List.mem_cons_self), h]
      · rw [if_neg h]
        simp only [List.mem_cons, Ne.symm h, false_or]

/-- A key that is bound to one value with others. -/
theorem lookup?_map_const (key : K) (names : List K) (value : V) :
    lookup? key (names.map (·, value)) = if key ∈ names then some value else none :=
  lookup?_map (fun _ => value) key names

/-- **A table that is filled with what a function gives for the keys.** -/
theorem putAll_map (value : K → V) (names : List K) :
    putAll [] (names.map fun name => (name, value name))
      = names.eraseDups.map fun name => (name, value name) := by
  induction names using List.reverseRecOn with
  | nil => rfl
  | append_singleton names name ih =>
      rw [List.map_append, List.map_singleton, putAll_concat, ih, eraseDups_concat]
      split
      case isTrue hkept => rw [put_eq_self (by rw [lookup?_map, if_pos hkept])]
      case isFalse hnew =>
          rw [put_of_lookup?_eq_none (by rw [lookup?_map, if_neg hnew]), List.map_append]
          rfl

end Keyed

end LuaGlobals
