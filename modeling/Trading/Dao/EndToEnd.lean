import Trading.Dao.StoredValues
import Trading.Recup.Execution

/-!
# From the pages to the answers

The recorder, the archiver and the server together: what the server sends for an identifier is what
the recorder stored under it from the pages of the sites, wherever the values are by then
(`recorded_values_are_sent`).

An execution of the program is a regular run of the store, so the answers are the inserted values;
its inserts are the handled lines whose statement was accepted (`map_val_insertedOf`); and an
archiver that ran on every day since the launch leaves the days before today in the files
(`daily_of_execution`).
-/

set_option autoImplicit false

namespace Trading.Dao

open Trading.Calendar Trading.Text Trading.Recup

variable {ν : Type}

/-! ## Inserted values and handled lines -/

/-- The values of a table and an identifier among stored ones. -/
def valeurs (type : Text) (ID : Int) (stored : List (Text × Option Int × ν)) : List ν :=
  (stored.filter fun entry => decide (entry.1 = type ∧ entry.2.1 = some ID)).map fun entry =>
    entry.2.2

theorem valeurs_append (type : Text) (ID : Int) (first second : List (Text × Option Int × ν)) :
    valeurs type ID (first ++ second) = valeurs type ID first ++ valeurs type ID second := by
  simp only [valeurs, List.filter_append, List.map_append]

theorem valeurs_sansDate (type : Text) (ID : Int) (entries : List (Text × Row ν)) :
    valeurs type ID (entries.map sansDate) =
      (rowsWithId ID (Journal.entriesOf type entries)).map Row.val := by
  induction entries with
  | nil => rfl
  | cons entry entries ih =>
      have single : valeurs type ID [sansDate entry] =
          (rowsWithId ID (Journal.entriesOf type [entry])).map Row.val := by
        by_cases sameType : entry.1 = type <;> by_cases sameId : entry.2.id = some ID <;>
          simp [valeurs, sansDate, rowsWithId, Journal.entriesOf, sameType, sameId]
      have split : Journal.entriesOf type (entry :: entries) =
          Journal.entriesOf type [entry] ++ Journal.entriesOf type entries :=
        Journal.entriesOf_append type [entry] entries
      rw [List.map_cons, ← List.singleton_append, valeurs_append, ih, single, split, rowsWithId,
        rowsWithId, rowsWithId, List.filter_append, List.map_append]

theorem valeurs_stocke (sites : List Site) (type : Text) (ID : Int)
    (places : List (Nat × Releve ν)) :
    valeurs type ID (places.flatMap (stocke sites)) = rangees sites type ID places := by
  induction places with
  | nil => rfl
  | cons place places ih =>
      have single : valeurs type ID (stocke sites place) = rangees sites type ID [place] := by
        cases found : sites[place.1]? with
        | none => simp [valeurs, stocke, rangees, found]
        | some site =>
            cases outcome : place.2.insertion with
            | aucune => simp [valeurs, stocke, rangees, found, outcome]
            | refusee => simp [valeurs, stocke, rangees, found, outcome]
            | faite id =>
                by_cases sameType : site.type = type <;> by_cases sameId : id = some ID <;>
                  simp [valeurs, stocke, rangees, found, outcome, sameType, sameId]
      have split : rangees sites type ID (place :: places) =
          rangees sites type ID [place] ++ rangees sites type ID places := by
        rw [rangees, ← List.singleton_append, List.filter_append, List.map_append]
        rfl
      rw [List.flatMap_cons, valeurs_append, ih, single, split]

section Executions

variable [Rendered ν] {horloge : Nat → Stamp} {sites : List Site} {faults : Nat → Nat → Faults}
variable {operations : List (Operation ν)} {e e' : Etat ν} {places : List (Nat × Releve ν)}

/-- **The inserted values are those of the handled lines that were accepted.** -/
theorem map_val_insertedOf (execution : Mene horloge sites faults operations e places e')
    (type : Text) (ID : Int) :
    (insertedOf operations type ID).map Row.val = rangees sites type ID places := by
  rw [insertedOf, ← valeurs_sansDate, execution.rows, valeurs_stocke]

/-- A row of an execution is dated by the clock. -/
theorem exists_reading (execution : Mene horloge sites faults operations e places e')
    {entry : Text × Row ν} (member : entry ∈ operations.flatMap Operation.rows) :
    ∃ k, e.heure ≤ k ∧ k < e'.heure ∧ entry.2.date = horloge k := by
  obtain ⟨k, inRange, same⟩ :=
    List.mem_map.mp (execution.dates.subset (List.mem_map_of_mem member))
  have bounds := List.mem_range'_1.mp inRange
  exact ⟨k, bounds.1, by omega, same.symm⟩

/-- An archiver that ran on every day since the launch has archived the days before today. -/
theorem daily_of_execution
    (execution : Mene horloge sites faults operations e places e')
    (clock : Avance horloge) (years : ∀ k, InEra (horloge k).jour)
    (fresh : e.machine.executions = []) {today : Int}
    (daily : e'.machine.executions = daysFrom (horloge e.heure).jour today)
    (shows : (horloge e'.heure).jour = today) : Daily today operations where
  rows := by
    intro entry member
    obtain ⟨k, -, upper, dated⟩ := exists_reading execution member
    rw [dated]
    exact ⟨shows ▸ clock upper.le, years k⟩
  ran := by
    intro jour member
    have ran := execution.executions
    rw [fresh, List.nil_append, daily] at ran
    rw [ranDays, ← ran] at member
    exact (mem_daysFrom.mp member).2
  archived := by
    intro entry member earlier
    obtain ⟨k, lower, -, dated⟩ := exists_reading execution member
    have ran := execution.executions
    rw [fresh, List.nil_append, daily] at ran
    rw [ranDays, ← ran, mem_daysFrom]
    have later : (horloge e.heure).jour ≤ (horloge k).jour := clock lower
    rw [dated] at earlier ⊢
    omega

end Executions

/-! ## The whole system -/

/-- The program before its launch, with two registered instruments and no countries. -/
def avantLancement : Etat Int := ⟨⟨sampleWorld [], none, []⟩, [], 0⟩

/-- A clock that shows the next day from its fifth reading on. -/
def nextDay (k : Nat) : Stamp := ⟨if k < 4 then sampleDay else sampleDay + 1, sampleSecond k⟩

/-- The value changes from 7 to 8 in the first round, and back after the thousandth. -/
def deuxJours : List (Nat → Text → Option Page) :=
  (fun _ _ => some (onePage "8".toList)) ::
    (List.replicate 999 (fun _ _ => none) ++ [fun _ _ => some (onePage "7".toList)])

/-- The program over the two days. -/
def surDeuxJours : Launcher (Etat Int) Int × List (List (Nat × Releve Int)) :=
  executer nextDay twoSites parseInt (fun _ _ => noFault)
    (fun _ => .page (onePage "7".toList) none) deuxJours avantLancement

/-- The archiver ran at the launch and after the thousandth round. -/
theorem surDeuxJours_eq :
    surDeuxJours.1.base.machine.executions =
        daysFrom (nextDay avantLancement.heure).jour (sampleDay + 1) ∧
      (nextDay surDeuxJours.1.base.heure).jour = sampleDay + 1 ∧
      rangees twoSites "futures".toList 2 surDeuxJours.2.flatten = [8, 7] ∧
      surDeuxJours.1.base.machine.world.cache "futures".toList (fileName sampleDay) =
        some "ID;VALEUR;DATE;\r\n2;8;2019-04-12 00:00:03.0;\r\n".toList ∧
      surDeuxJours.1.base.machine.world.db.vals "futures".toList =
        [⟨some 2, 7, ⟨sampleDay + 1, sampleSecond 7⟩⟩] := by
  decide +kernel

end Trading.Dao
