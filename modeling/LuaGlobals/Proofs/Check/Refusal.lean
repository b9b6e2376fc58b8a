import LuaGlobals.Check.Trace
import Mathlib.Data.List.TakeWhile

/-! # Runs that break off

What a host refuses first breaks a run off. Where a run is made of others, that is what it refuses
first in the first of these in which it refuses anything; what comes behind is not begun.

* `refused?_bind` and **`effects_on_bind`**: two runs, one after the other.
* **`on_of_refused?_eq_none`**: a run of which nothing is refused goes to its end.
* **`refused?_eq_find?_logs`**: on a host that refuses nothing but messages, only the messages of a
  run matter. -/

namespace LuaGlobals.Traced

variable {α β : Type} {host : Host} {traced : Traced α}

/-- Nothing is refused first when nothing is refused at all. -/
theorem refused?_eq_none_iff :
    traced.refused? host = none ↔ ∀ effect ∈ traced.effects, host.refuses effect = false := by
  rw [refused?, List.find?_eq_none]
  simp only [Bool.not_eq_true]

/-- **A run of which nothing is refused** goes to its end. -/
theorem on_of_refused?_eq_none (h : traced.refused? host = none) :
    traced.on host = ⟨.ok traced.value, traced.effects⟩ := by
  have hall : ∀ effect ∈ traced.effects, (!host.refuses effect) = true :=
    fun effect hmem => by rw [refused?_eq_none_iff.mp h effect hmem, Bool.not_false]
  have htaken : traced.effects.takeWhile (fun effect => !host.refuses effect) = traced.effects :=
    List.takeWhile_eq_self_iff.mpr hall
  rw [on, h, htaken]
  rfl

/-- Two runs break off in the first one, or else in the second. -/
theorem refused?_bind (host : Host) (traced : Traced α) (next : α → Traced β) :
    (traced >>= next).refused? host
      = (traced.refused? host).or ((next traced.value).refused? host) :=
  List.find?_append

/-- **When the first of two runs breaks off**, the second is not begun. -/
theorem effects_on_bind (next : α → Traced β) (h : traced.refused? host ≠ none) :
    ((traced >>= next).on host).effects = (traced.on host).effects := by
  have hshort : (traced.effects.takeWhile fun effect => !host.refuses effect).length
      ≠ traced.effects.length := by
    intro hlength
    -- Had all of its effects taken place, none would have been refused.
    refine h (refused?_eq_none_iff.mpr fun effect hmem => ?_)
    have hall := List.takeWhile_eq_self_iff.mp
      ((List.takeWhile_prefix _).eq_of_length hlength) effect hmem
    rwa [Bool.not_eq_true'] at hall
  rw [on, effects_bind, List.takeWhile_append, if_neg hshort]
  rfl

/-- **On a host that refuses nothing but messages**, only the messages of a run matter. -/
theorem refused?_eq_find?_logs
    (hhost : ∀ effect, host.refuses effect = true → ∃ record, effect = .log record)
    (traced : Traced α) :
    traced.refused? host = (traced.logs.map Effect.log).find? host.refuses := by
  rw [refused?, logs]
  generalize traced.effects = effects
  induction effects with
  | nil => rfl
  | cons effect rest ih =>
      cases hrefused : host.refuses effect with
      | true =>
          obtain ⟨record, rfl⟩ := hhost effect hrefused
          rw [List.find?_cons_of_pos hrefused]
          exact (List.find?_cons_of_pos hrefused).symm
      | false =>
          rw [List.find?_cons_of_neg (Bool.eq_false_iff.mp hrefused), ih]
          cases effect with
          | log record => exact (List.find?_cons_of_neg (Bool.eq_false_iff.mp hrefused)).symm
          | _ => rfl

end LuaGlobals.Traced
