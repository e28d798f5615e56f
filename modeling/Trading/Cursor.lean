import Mathlib.Data.List.Basic

/-!
# Readers with a cursor

Entries are stored in the order of their times, and some of them are removed later. A reader asks
from time to time for the entries after its cursor, which is the time of the last entry that it
has read. `stored` are the entries as if none had ever been removed.

A reader that has missed nothing has read what was stored, up to the entries that it will read
next (`Complete`). A step keeps this exactly when it stores no entry at the time of the cursor and
removes no entry that was not read (`complete_step_iff`).
-/

set_option autoImplicit false

namespace Trading.Cursor

variable {E : Type}

structure Reader (E : Type) where
  live : List E
  cursor : Int
  now : Int
  read : List E
  stored : List E

inductive Access (E : Type) where
  | wait (now : Int)
  | store (entry : E)
  | purge (keep : E → Bool)
  | poll

variable (time : E → Int)

namespace Reader

/-- What the reader will read next. -/
def fresh (reader : Reader E) : List E :=
  reader.live.filter fun entry => decide (reader.cursor < time entry)

/-- The reader after a poll. -/
def poll (reader : Reader E) : Reader E :=
  { reader with
    cursor := ((reader.fresh time).getLast?.map time).getD reader.cursor
    read := reader.read ++ reader.fresh time }

def step (reader : Reader E) : Access E → Reader E
  | .wait now => { reader with now := now }
  | .store entry =>
      { reader with
        live := reader.live ++ [entry]
        now := time entry
        stored := reader.stored ++ [entry] }
  | .purge keep => { reader with live := reader.live.filter keep }
  | .poll => reader.poll time

/-- Times do not go back. -/
def Possible (reader : Reader E) : Access E → Prop
  | .wait now => reader.now ≤ now
  | .store entry => reader.now ≤ time entry
  | _ => True

/-- Nothing has been missed. -/
def Complete (reader : Reader E) : Prop := reader.read ++ reader.fresh time = reader.stored

/-- A new entry is after the cursor, and a removed one is not. -/
def Spares (reader : Reader E) : Access E → Prop
  | .store entry => reader.cursor < time entry
  | .purge keep => ∀ entry ∈ reader.live, keep entry = false → time entry ≤ reader.cursor
  | _ => True

/-- The entries are in the order of their times, and there is none from the future. -/
structure Ordered (reader : Reader E) : Prop where
  sorted : reader.live.Pairwise fun first second => time first ≤ time second
  past : ∀ entry ∈ reader.live, time entry ≤ reader.now
  cursor : reader.cursor ≤ reader.now

variable {time} {reader : Reader E}

theorem Ordered.fresh_le (ordered : Ordered time reader) {last : E}
    (lastOf : (reader.fresh time).getLast? = some last) {entry : E} (member : entry ∈ reader.live) :
    time entry ≤ time last := by
  have sorted : (reader.fresh time).Pairwise fun first second => time first ≤ time second :=
    ordered.sorted.filter _
  obtain ⟨before, split⟩ := List.getLast?_eq_some_iff.mp lastOf
  have after : reader.cursor < time last := by
    have inFresh : last ∈ reader.fresh time := split ▸ List.mem_concat_self
    simpa using (List.mem_filter.mp inFresh).2
  rcases Int.lt_or_le reader.cursor (time entry) with late | early
  · have inFresh : entry ∈ reader.fresh time := List.mem_filter.mpr ⟨member, decide_eq_true late⟩
    rw [split] at sorted inFresh
    rcases List.mem_append.mp inFresh with isBefore | isLast
    · exact (List.pairwise_append.mp sorted).2.2 entry isBefore last (List.mem_singleton_self _)
    · exact Int.le_of_eq (congrArg time (List.mem_singleton.mp isLast))
  · exact Int.le_trans early (Int.le_of_lt after)

/-- After a poll there is nothing to read. -/
theorem Ordered.fresh_poll (ordered : Ordered time reader) :
    (reader.poll time).fresh time = [] := by
  refine List.filter_eq_nil_iff.mpr fun entry member => ?_
  rw [decide_eq_true_eq, Int.not_lt]
  change time entry ≤ ((reader.fresh time).getLast?.map time).getD reader.cursor
  cases lastOf : (reader.fresh time).getLast? with
  | some last => exact ordered.fresh_le lastOf member
  | none =>
      by_contra late
      have inFresh : entry ∈ reader.fresh time :=
        List.mem_filter.mpr ⟨member, decide_eq_true (Int.not_le.mp late)⟩
      rw [List.getLast?_eq_none_iff.mp lastOf] at inFresh
      cases inFresh

theorem Ordered.step (ordered : Ordered time reader) {access : Access E}
    (possible : reader.Possible time access) : Ordered time (reader.step time access) := by
  cases access with
  | wait now =>
      exact ⟨ordered.sorted, fun entry member => Int.le_trans (ordered.past entry member) possible,
        Int.le_trans ordered.cursor possible⟩
  | store entry =>
      refine ⟨?_, ?_, Int.le_trans ordered.cursor possible⟩
      · refine List.pairwise_append.mpr ⟨ordered.sorted, List.pairwise_singleton _ _, ?_⟩
        intro first member second isNew
        rw [List.mem_singleton.mp isNew]
        exact Int.le_trans (ordered.past first member) possible
      · intro other member
        rcases List.mem_append.mp member with old | isNew
        · exact Int.le_trans (ordered.past other old) possible
        · exact Int.le_of_eq (congrArg time (List.mem_singleton.mp isNew))
  | purge keep =>
      exact ⟨ordered.sorted.filter _,
        fun entry member => ordered.past entry (List.mem_filter.mp member).1, ordered.cursor⟩
  | poll =>
      refine ⟨ordered.sorted, ordered.past, ?_⟩
      change ((reader.fresh time).getLast?.map time).getD reader.cursor ≤ reader.now
      cases lastOf : (reader.fresh time).getLast? with
      | none => exact ordered.cursor
      | some last =>
          have inFresh := List.mem_of_getLast? lastOf
          exact ordered.past last (List.mem_filter.mp inFresh).1

/-- What stays of a part of a list when the list is filtered. -/
theorem filter_filter_eq_iff {p q : E → Bool} {entries : List E} :
    (entries.filter q).filter p = entries.filter p ↔
      ∀ entry ∈ entries, q entry = false → p entry = false := by
  rw [List.filter_filter]
  constructor
  · intro same entry member removed
    rw [Bool.eq_false_iff]
    intro chosen
    have kept : entry ∈ entries.filter p := List.mem_filter.mpr ⟨member, chosen⟩
    rw [← same] at kept
    have both := (List.mem_filter.mp kept).2
    rw [removed, Bool.and_false] at both
    cases both
  · intro spares
    apply List.filter_congr
    intro entry member
    cases kept : q entry with
    | true => rw [Bool.and_true]
    | false => rw [spares entry member kept, Bool.false_and]

/-- **One step misses nothing exactly when it spares what was not read.** -/
theorem complete_step_iff (ordered : Ordered time reader) (complete : reader.Complete time)
    (access : Access E) :
    (reader.step time access).Complete time ↔ reader.Spares time access := by
  have whole : reader.read ++ reader.fresh time = reader.stored := complete
  cases access with
  | wait now => exact iff_of_true complete trivial
  | store entry =>
      change reader.read ++ (reader.live ++ [entry]).filter
        (fun entry => decide (reader.cursor < time entry)) = reader.stored ++ [entry] ↔
          reader.cursor < time entry
      rw [List.filter_append, ← List.append_assoc]
      change reader.read ++ reader.fresh time ++ _ = _ ↔ _
      rw [whole, List.append_cancel_left_eq]
      simp
  | purge keep =>
      change reader.read ++ (reader.live.filter keep).filter
        (fun entry => decide (reader.cursor < time entry)) = reader.stored ↔ _
      rw [← whole, List.append_cancel_left_eq]
      refine filter_filter_eq_iff.trans ?_
      simp only [decide_eq_false_iff_not, Int.not_lt]
      rfl
  | poll =>
      refine iff_of_true ?_ trivial
      change reader.read ++ reader.fresh time ++ (reader.poll time).fresh time = reader.stored
      rw [ordered.fresh_poll, List.append_nil]
      exact complete

end Reader

end Trading.Cursor
