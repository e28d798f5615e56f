import Mathlib.Tactic.Ring
import Trading.Dao.IndiceDaoImpl

/-!
# The down-sampled series

For an identifier with many rows the server prints a row and passes over the next lines of the
stream, whatever they are: rows of other identifiers, labels, lines of the next file.
`archive_sample` says that what it prints is nevertheless a faithful bounded sample of the rows
of the identifier.

The upper bound rests on the order inside the files: the rows of an identifier are next to
each other in the file of a day (`oneBlock_items`).
-/

set_option autoImplicit false

namespace Trading.Dao

open Trading.Text Trading.Recup

variable {instant : Text → Int}

/-! ## Blocks -/

/-- **In the file of a day the rows of an identifier are next to each other.** -/
theorem oneBlock_items (ID : Int) (file : DayFile instant) :
    Sed.OneBlock (isRowOf ID) file.items := by
  have sorted : file.rows.Pairwise fun first second => first.id ≤ second.id :=
    file.sorted.imp fun {first second} order => by omega
  let earlier : Entry → Bool := fun row => decide (row.id < ID)
  let same : Entry → Bool := fun row => decide (row.id = ID)
  let rest := file.rows.filter fun row => !earlier row
  have splitRows : file.rows.filter earlier ++ rest = file.rows :=
    filter_append_filter_not (sorted.imp fun {first second} order less => by
      simp only [earlier, decide_eq_true_eq] at less ⊢
      omega)
  have notEarlier : ∀ row ∈ rest, ID ≤ row.id := by
    intro row member
    simpa [earlier] using (List.mem_filter.mp member).2
  have splitRest : rest.filter same ++ rest.filter (fun row => !same row) = rest := by
    refine filter_append_filter_not ((sorted.sublist List.filter_sublist).imp_of_mem
      fun {first second} inFirst _ order equal => ?_)
    have above := notEarlier first inFirst
    simp only [same, decide_eq_true_eq] at equal ⊢
    omega
  refine ⟨none :: (file.rows.filter earlier).map some, (rest.filter same).map some,
    (rest.filter fun row => !same row).map some, ?_, ?_, ?_, ?_⟩
  · rw [DayFile.items, List.cons_append, ← List.map_append, ← List.map_append, splitRest, splitRows]
  · intro item member
    rcases List.mem_cons.mp member with rfl | inRows
    · rfl
    · obtain ⟨row, inFilter, rfl⟩ := List.mem_map.mp inRows
      have before := of_decide_eq_true (List.mem_filter.mp inFilter).2
      exact decide_eq_false (by omega)
  · intro item member
    obtain ⟨row, inFilter, rfl⟩ := List.mem_map.mp member
    exact (List.mem_filter.mp inFilter).2
  · intro item member
    obtain ⟨row, inFilter, rfl⟩ := List.mem_map.mp member
    simpa [same, isRowOf] using (List.mem_filter.mp inFilter).2

/-- Each file contributes, beyond its share, one row at most. -/
theorem mul_length_sample_archive_le (ID : Int) (skip : Nat) (archive : Archive instant) :
    (skip + 1) *
        (Sed.sample (isRowOf ID) skip 0 (archive.byName.flatMap DayFile.items)).length ≤
      (archive.rowsOf ID).length + archive.files.length * skip := by
  have bound := Sed.mul_length_sample_flatten_le (isRowOf ID) skip
    (archive.byName.map DayFile.items) (by
      intro stretch member
      obtain ⟨file, -, rfl⟩ := List.mem_map.mp member
      exact oneBlock_items ID file) (Nat.zero_le skip)
  rw [← List.flatMap_def, filter_flatMap_items, List.length_map, List.length_map,
    archive.length_byName] at bound
  exact bound

/-- The bound on the number of printed rows, from the shares of the files. -/
theorem le_of_shares {printed rows files stride : Nat}
    (shares : (stride + 1) * printed ≤ rows + files * stride)
    (enough : rows / (stride + 1) ≤ 2000) :
    printed ≤ 2000 + files := by
  have few : rows < (stride + 1) * 2001 := by
    rw [Nat.mul_comm]
    exact (Nat.div_lt_iff_lt_mul (Nat.succ_pos stride)).mp (Nat.lt_succ_of_le enough)
  by_contra more
  have many : (stride + 1) * (2001 + files) ≤ (stride + 1) * printed :=
    Nat.mul_le_mul_left _ (by omega)
  have expanded : (stride + 1) * (2001 + files) =
      (stride + 1) * 2001 + (files * stride + files) := by
    ring
  omega

/-! ## The sample -/

/-- **The down-sampled series is a faithful bounded sample.** For every archive whose file names
are in chronological order and every identifier whose number of rows is an `int`, `getParam`
computes the script of some stride `k`, and the rows that the script prints are a subsequence
of the rows of the identifier in chronological order; they begin with its first row, pass
over at most `k - 1` rows after each of them, and are at least the rows divided by `k`, all of
them up to 2000 rows, and at most 2000 and one more for each file. -/
theorem archive_sample (archive : Archive instant) (ordered : archive.Chronological) (ID : Int)
    (fits : (archive.rowsOf ID).length ≤ 2147483647) :
    ∃ k outputs, 1 ≤ k ∧
      getParam ID "*.csv".toList archive.directory = some (Sed.scriptText (k - 1)) ∧
      Sed.run (address ID) (Sed.scriptText (k - 1)) (stream "*.csv".toList archive.directory) =
        outputs.map (fun row => record row.cells) ∧
      outputs.Sublist (archive.rowsOf ID) ∧
      outputs.Pairwise (fun first second => instant first.date ≤ instant second.date) ∧
      outputs.head? = (archive.rowsOf ID).head? ∧
      Sed.Sampled (k - 1) (archive.rowsOf ID) outputs ∧
      ((archive.rowsOf ID).length + (k - 1)) / k ≤ outputs.length ∧
      ((archive.rowsOf ID).length ≤ 2000 → outputs = archive.rowsOf ID) ∧
      outputs.length ≤ 2000 + archive.files.length := by
  obtain ⟨skip, strideDef⟩ : ∃ skip, skip = (archive.rowsOf ID).length / 2001 := ⟨_, rfl⟩
  obtain ⟨outputs, printed, sampled, sample⟩ := run_script ID skip archive
  have shares := mul_length_sample_archive_le ID skip archive
  rw [← sample, List.length_map] at shares
  have enough : (archive.rowsOf ID).length / (skip + 1) ≤ 2000 := by
    have few := Nat.lt_mul_div_succ (archive.rowsOf ID).length (show 0 < 2001 by decide)
    rw [← strideDef, Nat.mul_comm] at few
    exact Nat.le_of_lt_succ (Nat.div_lt_of_lt_mul few)
  refine ⟨skip + 1, outputs, Nat.le_add_left _ _, ?_, printed, sampled.sublist,
    (ordered.rows ID).sublist sampled.sublist, sampled.head, sampled, ?_, ?_,
    le_of_shares shares enough⟩
  · rw [getParam_archive ID archive fits, strideDef, Nat.add_sub_cancel]
  · rw [Nat.add_sub_cancel]
    refine Nat.lt_succ_iff.mp (Nat.div_lt_of_lt_mul ?_)
    have share := sampled.length_le
    rw [Nat.mul_succ]
    omega
  · intro few
    have strideOne : skip = 0 := by omega
    exact (strideOne ▸ sampled).eq_of_zero

/-- A file with values of one instrument, all of one second. -/
def busyDay (jour : Int) (date : Text) (count : Nat) (clean : Clean date)
    (isDay : instant date / 86400 = jour) : DayFile instant where
  jour := jour
  rows := (List.range count).map fun k : Nat => ⟨1, intText k, date⟩
  clean := by
    intro row member
    obtain ⟨k, -, rfl⟩ := List.mem_map.mp member
    exact ⟨Rendered.clean (k : Int), clean⟩
  sorted := by
    apply List.pairwise_map.mpr
    exact List.pairwise_lt_range.imp fun _ => Or.inr ⟨rfl, le_rfl⟩
  ofDay := by
    intro row member
    obtain ⟨k, -, rfl⟩ := List.mem_map.mp member
    exact isDay

/-- Two such files with 1500 values each. -/
def busyDays : Archive (twoInstants 737159 "2019-04-12 00:00:07.0".toList) where
  files :=
    [busyDay 737160 "2019-04-12 00:00:07.0".toList 1500 (by decide) (by decide),
      busyDay 737159 "2019-04-11 11:15:29.0".toList 1500 (by decide) (by decide)]
  distinct := by decide

/-- Of 3000 rows at most 2002 are printed, so the script passes over rows. -/
theorem archive_sample_two_days :
    (busyDays.rowsOf 1).length = 3000 ∧ ∃ k outputs, 2 ≤ k ∧
      getParam 1 "*.csv".toList busyDays.directory = some (Sed.scriptText (k - 1)) ∧
      Sed.run (address 1) (Sed.scriptText (k - 1)) (stream "*.csv".toList busyDays.directory) =
        outputs.map (fun row => record row.cells) ∧
      Sed.Sampled (k - 1) (busyDays.rowsOf 1) outputs ∧ outputs.length ≤ 2002 := by
  have rows : (busyDays.rowsOf 1).length = 3000 := by decide +kernel
  obtain ⟨k, outputs, positive, param, printed, -, -, -, sampled, enough, -, few⟩ :=
    archive_sample busyDays (by unfold Archive.Chronological; decide +kernel) 1
      (by rw [rows]; decide)
  refine ⟨rows, k, outputs, ?_, param, printed, sampled, few⟩
  by_contra single
  obtain rfl : k = 1 := by omega
  rw [rows, Nat.div_one] at enough
  have files : busyDays.files.length = 2 := rfl
  omega

end Trading.Dao
