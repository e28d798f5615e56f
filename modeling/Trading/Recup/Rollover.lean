import Trading.Recup.ArchiveSafety

/-!
# The day rollover

The launcher runs the archiver when it starts and then whenever a periodic check finds that
the day has changed. The check (`verifDate`) compares the day of the month with the field
`jmore`, the day of the month of the day after the last archive run.

`Machine` is the state the archive depends on: the database with its cache files, and the
field `jmore` of the program while one runs. The log of the days on which `BDD.run` was
executed is kept beside it.

When the date advances by at most one day from check to check, the runs are executed on
consecutive days, and their windows tile the calendar (`rollover_tiles`). The proof is an
invariant of the program: `jmore` belongs to the day after the last execution.
-/

set_option autoImplicit false

namespace Trading.Recup

open Trading.Calendar Trading.Text

variable {ν : Type}

/-! ## The launcher and its check -/

/-- The world, the field `jmore` of the running program, and the days on which `BDD.run` was
executed. -/
structure Machine (ν : Type) where
  world : World ν
  jmore : Option Nat
  executions : List Int

/-- `cal.set(YEAR, MONTH, DAY_OF_MONTH+1)`, then `cal.get(DAY_OF_MONTH)`. -/
def jmoreOf (jour : Int) : Nat :=
  (civil (lenient (civil jour).year (civil jour).month ((civil jour).day + 1))).day

/-- `new BDD(SITES,st)`, which executes `BDD.run` with its own reading of the clock. -/
def Machine.archive [Rendered ν] (m : Machine ν) (sites : List Site) (runDay : Int)
    (faults : Nat → Faults) : Machine ν :=
  { m with world := run sites runDay faults m.world, executions := m.executions ++ [runDay] }

/-- `Launcher.init`. The archiver runs when the connection to the database succeeds; the
calendar for `jmore` is read after it. -/
def Machine.init [Rendered ν] (m : Machine ν) (sites : List Site) (connected : Bool)
    (runDay calDay : Int) (faults : Nat → Faults) : Machine ν :=
  { (if connected then m.archive sites runDay faults else m) with jmore := some (jmoreOf calDay) }

/-- `Launcher.verifDate` of a running program. The calendar is read before the archiver runs. -/
def Machine.verifDate [Rendered ν] (m : Machine ν) (sites : List Site) (calDay runDay : Int)
    (faults : Nat → Faults) : Machine ν :=
  if m.jmore = some (civil calDay).day then
    { m.archive sites runDay faults with jmore := some (jmoreOf calDay) }
  else m

/-- `jmore` is the day of the month of tomorrow. -/
theorem jmoreOf_eq (jour : Int) : jmoreOf jour = (civil (jour + 1)).day := by
  rw [jmoreOf, lenient_civil]

/-! ## The windows tile the calendar -/

section Tiling

variable [Rendered ν]

/-- The checks of a program, each with all its readings of the clock on one day. -/
def Machine.checks (sites : List Site) : List (Int × (Nat → Faults)) → Machine ν → Machine ν
  | [], m => m
  | (jour, faults) :: later, m => Machine.checks sites later (m.verifDate sites jour jour faults)

/-- From one check to the next the date advances by at most one day. -/
def Advancing : Int → List (Int × (Nat → Faults)) → Prop
  | _, [] => True
  | last, (jour, _) :: later => last ≤ jour ∧ jour ≤ last + 1 ∧ Advancing jour later

/-- The day of the last check. -/
def lastDay : Int → List (Int × (Nat → Faults)) → Int
  | last, [] => last
  | _, (jour, _) :: later => lastDay jour later

/-- The days from one to another. -/
def daysFrom (first last : Int) : List Int :=
  (List.range (last + 1 - first).toNat).map fun i : Nat => first + (i : Int)

theorem daysFrom_succ {first last : Int} (ordered : first ≤ last + 1) :
    daysFrom first (last + 1) = daysFrom first last ++ [last + 1] := by
  have length : (last + 1 + 1 - first).toNat = (last + 1 - first).toNat + 1 := by omega
  rw [daysFrom, length, List.range_succ, List.map_append, List.map_singleton, daysFrom]
  congr 2
  omega

theorem mem_daysFrom {first last jour : Int} :
    jour ∈ daysFrom first last ↔ first ≤ jour ∧ jour ≤ last := by
  simp only [daysFrom, List.mem_map, List.mem_range]
  constructor
  · rintro ⟨i, bound, rfl⟩
    omega
  · rintro ⟨lower, upper⟩
    exact ⟨(jour - first).toNat, by omega, by omega⟩

theorem nodup_daysFrom (first last : Int) : (daysFrom first last).Nodup := by
  refine List.Nodup.map ?_ List.nodup_range
  intro i j same
  simpa using same

/-- What a program that was started on a day knows on the day of its last check. -/
structure Tiled (first last : Int) (m : Machine ν) : Prop where
  ordered : first ≤ last
  jmore : m.jmore = some (civil (last + 1)).day
  executions : m.executions = daysFrom first last

theorem Tiled.verifDate {first last jour : Int} {m : Machine ν} (tiled : Tiled first last m)
    (sites : List Site) (faults : Nat → Faults) (lower : last ≤ jour) (upper : jour ≤ last + 1) :
    Tiled first jour (m.verifDate sites jour jour faults) := by
  rcases lt_or_ge last jour with later | same
  · -- the next day: its day of the month is `jmore`
    obtain rfl : jour = last + 1 := by omega
    have fires : m.verifDate sites (last + 1) (last + 1) faults =
        { m.archive sites (last + 1) faults with jmore := some (jmoreOf (last + 1)) } := by
      rw [Machine.verifDate, if_pos tiled.jmore]
    rw [fires]
    exact
      { ordered := tiled.ordered.trans lower
        jmore := congrArg some (jmoreOf_eq (last + 1))
        executions := by
          rw [daysFrom_succ (by have := tiled.ordered; omega), ← tiled.executions]
          rfl }
  · -- the same day: its day of the month is not the one of tomorrow
    obtain rfl : jour = last := Int.le_antisymm same lower
    have idle : m.verifDate sites jour jour faults = m := by
      rw [Machine.verifDate, if_neg]
      rw [tiled.jmore]
      exact fun equal => day_civil_succ_ne jour (Option.some.inj equal)
    rw [idle]
    exact tiled

theorem Tiled.checks {first : Int} (sites : List Site) (calls : List (Int × (Nat → Faults))) :
    ∀ {last : Int} {m : Machine ν}, Tiled first last m → Advancing last calls →
      Tiled first (lastDay last calls) (m.checks sites calls) := by
  induction calls with
  | nil => exact fun tiled _ => tiled
  | cons call later ih =>
      intro last m tiled advancing
      obtain ⟨jour, faults⟩ := call
      obtain ⟨lower, upper, rest⟩ := advancing
      exact ih (tiled.verifDate sites faults lower upper) rest

/-- **The archived windows tile the calendar.** A program is launched on a day with a working
connection, and checks the date any number of times, the date advancing by at most one day
from one call to the next. Then `BDD.run` is executed once on each day up to the last one;
the window of an execution is the day before it; and no two of them have the same file name,
as long as the years have four digits. -/
theorem rollover_tiles (sites : List Site) (d0 : Int) (faults : Nat → Faults)
    (calls : List (Int × (Nat → Faults))) (w : World ν) (advancing : Advancing d0 calls)
    (start : InEra (d0 - 1)) (finish : InEra (lastDay d0 calls)) :
    let m := ((⟨w, none, []⟩ : Machine ν).init sites true d0 d0 faults).checks sites calls
    m.executions = daysFrom d0 (lastDay d0 calls) ∧
      m.executions.map (fun jour => (hierOf jour, jour)) =
        (daysFrom d0 (lastDay d0 calls)).map (fun jour => (jour - 1, jour)) ∧
      (m.executions.map fun jour => fileName (hierOf jour)).Nodup := by
  intro m
  have launched : Tiled d0 d0 ((⟨w, none, []⟩ : Machine ν).init sites true d0 d0 faults) :=
    { ordered := le_rfl
      jmore := congrArg some (jmoreOf_eq d0)
      executions := by
        have single : daysFrom d0 d0 = [d0] := by
          rw [daysFrom, show (d0 + 1 - d0).toNat = 1 by omega]
          simp
        rw [single]
        rfl }
  have tiled : Tiled d0 (lastDay d0 calls) m := launched.checks sites calls advancing
  refine ⟨tiled.executions, ?_, ?_⟩
  · rw [tiled.executions]
    exact List.map_congr_left fun jour _ => by rw [hierOf_eq]
  · rw [tiled.executions]
    refine List.Nodup.map_on ?_ (nodup_daysFrom _ _)
    intro jour member jour' member' same
    rw [mem_daysFrom] at member member'
    rw [hierOf_eq, hierOf_eq] at same
    have equal := fileName_injective (start.of_between finish (by omega) (by omega))
      (start.of_between finish (by omega) (by omega)) same
    omega

/-- Four checks over a month end, the first two on the day of the launch. -/
theorem rollover_tiles_sample :
    (((⟨sampleWorld [], none, []⟩ : Machine Int).init [sampleSite] true 737453 737453
        fun _ => noFault).checks [sampleSite]
      [(737453, fun _ => noFault), (737453, fun _ => noFault), (737454, fun _ => noFault),
        (737455, fun _ => noFault)]).executions = [737453, 737454, 737455] := by
  have tiles := (rollover_tiles [sampleSite] 737453 (fun _ => noFault)
    [(737453, fun _ => noFault), (737453, fun _ => noFault), (737454, fun _ => noFault),
      (737455, fun _ => noFault)] (sampleWorld []) (by simp [Advancing]) (by decide) (by decide)).1
  exact tiles

/-- Without a connection no archive runs on the day of the launch. In the year 10000 the ten
characters of the name no longer hold the day, and two days in a row have one name. -/
theorem rollover_without_connection_or_in_year_10000 :
    ((⟨sampleWorld [], none, []⟩ : Machine Int).init [sampleSite] false 737453 737453
        fun _ => noFault).executions ≠ [737453] ∧
      Advancing 3652060 [(3652061, fun _ => noFault)] ∧
      ¬ ((((⟨sampleWorld [], none, []⟩ : Machine Int).init [sampleSite] true 3652060 3652060
          fun _ => noFault).checks [sampleSite]
        [(3652061, fun _ => noFault)]).executions.map fun jour =>
          fileName (hierOf jour)).Nodup := by
  refine ⟨by decide, by simp [Advancing], by decide +kernel⟩

end Tiling

end Trading.Recup
