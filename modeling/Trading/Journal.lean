import Mathlib.Logic.Function.Basic
import Trading.Runs

/-!
# Journals

A journal has a list of entries for each key, and entries are only ever added at the end.
`run_apply` says what a key has after some additions: what it had, and the entries for it in the
order in which they came.
-/

set_option autoImplicit false

namespace Trading.Journal

variable {K A : Type} [DecidableEq K]

/-- The journal as a machine whose events are the additions. -/
def journal : Runs.Machine (K → List A) (K × A) where
  Enabled _ _ := True
  step entries added := Function.update entries added.1 (entries added.1 ++ [added.2])

/-- The entries for a key among some additions. -/
def entriesOf (key : K) (added : List (K × A)) : List A :=
  (added.filter fun entry => decide (entry.1 = key)).map Prod.snd

theorem entriesOf_append (key : K) (first second : List (K × A)) :
    entriesOf key (first ++ second) = entriesOf key first ++ entriesOf key second := by
  simp only [entriesOf, List.filter_append, List.map_append]

/-- **What a key has after some additions.** -/
theorem run_apply (entries : K → List A) (added : List (K × A)) (key : K) :
    journal.run entries added key = entries key ++ entriesOf key added := by
  induction added generalizing entries with
  | nil => exact (List.append_nil _).symm
  | cons entry added ih =>
      rw [Runs.Machine.run, ih, journal]
      by_cases same : entry.1 = key
      · subst same
        simp [entriesOf, List.append_assoc]
      · have other : key ≠ entry.1 := fun equal => same equal.symm
        simp [entriesOf, same, Function.update_of_ne other]

end Trading.Journal
