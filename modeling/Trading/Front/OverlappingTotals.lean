import Trading.Dao.SplitReads
import Trading.Front.Totals

/-!
# Numbers counted during an archive run

`getIndicesTotal` counts the files three times and then the table. When a call of the archiver is
under way, the four counts may find four stages of it. A row of yesterday is then counted as often
as it is found: in the file, in the table, in both or in neither.

`overlapping_totals_iff` says for every order of the reads and the steps of the call when the
numbers of the page are right. The sum for all time is right when the file was counted without the
rows and the table with them, or the other way round; all four numbers are those after the call
when the file had all rows at the first count and the window was deleted at the last.
-/

set_option autoImplicit false

namespace Trading.Front

open Trading.Calendar Trading.Recup Trading.Dao
open Trading.Text (natText wildcard openLine)

variable {ν V : Type}

/-- `getIndicesTotal` without exceptions, where each count finds the store of its own moment. -/
def getIndicesTotalLus (ID : Int) (curYear curMonth : Nat) (allTime year month : Directory)
    (live : List (LiveRow V)) : List (Option Text) :=
  [getCountLu ID "*.csv".toList allTime, getCountLu ID (yearFiles curYear) year,
    getCountLu ID (monthFiles curYear curMonth) month, some (countText ID live)]

/-- Counts of one moment, when no file is open, are those of `getIndicesTotal`. -/
theorem getIndicesTotal_eq_lus (ID : Int) (curYear curMonth : Nat) {directory : Directory}
    (complete : ∀ file ∈ directory, openLine file.2 = []) (live : List (LiveRow V)) :
    getIndicesTotal ID curYear curMonth (fun _ => false) directory live =
      getIndicesTotalLus ID curYear curMonth directory directory directory live := by
  simp only [getIndicesTotalLus, getCountLu_complete _ _ complete]
  rfl

/-- Four numbers of the server are the numbers of the page. -/
theorem totalNumbers_eq_iff {allTime year month today allTime' year' month' today' : Nat} :
    totalNumbers [some (natText allTime), some (natText year), some (natText month),
          some (natText today)] =
        totalNumbers [some (natText allTime'), some (natText year'), some (natText month'),
          some (natText today')] ↔
      allTime = allTime' ∧ year = year' ∧ month = month' ∧ today = today' := by
  constructor
  · intro same
    have first := totalNumbers_four allTime year month today
    rw [same] at first
    obtain ⟨sameToday, sameMonth, sameYear, sameAllTime⟩ :=
      first.unique (totalNumbers_four allTime' year' month' today')
    omega
  · rintro ⟨rfl, rfl, rfl, rfl⟩
    rfl

section Overlap

variable [Rendered ν] [DecidableEq ν] {w : Recup.World ν} {hier ojd : Int} {type bdd : Text}

omit [Rendered ν] in
/-- The selected rows of an identifier that is registered once are those of the window. -/
theorem length_rowsWithId_select {ID : Int} (registered : w.db.registered bdd (some ID) = 1) :
    (rowsWithId ID (w.db.select type bdd hier ojd)).length =
      (rowsWithId ID ((w.db.vals type).filter fun row => row.inWindow hier ojd)).length := by
  apply List.Perm.length_eq
  rw [List.perm_iff_count]
  intro row
  by_cases same : row.id = some ID
  · rw [rowsWithId, rowsWithId, List.count_filter (by simpa using same),
      List.count_filter (by simpa using same), w.db.count_select, same, registered, Nat.one_mul]
  · rw [List.count_eq_zero.mpr, List.count_eq_zero.mpr]
    · exact fun member => same (of_decide_eq_true (List.mem_filter.mp member).2)
    · exact fun member => same (of_decide_eq_true (List.mem_filter.mp member).2)

omit [DecidableEq ν] in
/-- The rows of an identifier in the table at a stage: those of the window until the end, and the
others. -/
theorem countText_monde (value : ν → V) (absent : w.cache type (fileName hier) = none) (ID : Int)
    (stade : Stade) :
    countText ID (liveOf value ((stade.monde hier ojd type bdd w).db.vals type)) =
      natText ((rowsWithId ID ((w.db.vals type).filter fun row => !row.inWindow hier ojd)).length +
        if stade = .fini then 0
        else
          (rowsWithId ID ((w.db.vals type).filter fun row => row.inWindow hier ojd)).length) := by
  have split := (List.filter_append_perm (fun row : Row ν => row.inWindow hier ojd)
    (w.db.vals type)).filter fun row => decide (row.id = some ID)
  have lengths := split.length_eq
  rw [List.filter_append, List.length_append] at lengths
  rw [countText, length_rowsOfId_liveOf, (stade.monde_eq absent).2]
  congr 1
  by_cases ended : stade = .fini
  · rw [if_pos ended, if_pos ended, Nat.add_zero]
  · rw [if_neg ended, if_neg ended]
    simp only [rowsWithId]
    omega

/-- Counts that include more and more lines of the new file are those of the complete file exactly
when the first of them is, and when nothing of the window is left in the table. -/
theorem totalNumbers_growing_iff {autres autres' autres'' : Nat} {year month : Prop}
    [Decidable year] [Decidable month] {vus vus' vus'' reste nb jour : Nat} (grows : vus ≤ vus')
    (grows' : vus' ≤ vus'') (bounded : vus'' ≤ nb) :
    totalNumbers [some (natText (autres + vus)),
          some (natText (autres' + if year then vus' else 0)),
          some (natText (autres'' + if month then vus'' else 0)), some (natText (jour + reste))] =
        totalNumbers [some (natText (autres + nb)),
          some (natText (autres' + if year then nb else 0)),
          some (natText (autres'' + if month then nb else 0)), some (natText (jour + 0))] ↔
      vus = nb ∧ reste = 0 := by
  rw [totalNumbers_eq_iff]
  constructor
  · rintro ⟨allTime, -, -, today⟩
    omega
  · rintro ⟨whole, cleared⟩
    refine ⟨by omega, ?_, ?_, by omega⟩
    · split <;> omega
    · split <;> omega

variable (hier ojd) in
/-- **When overlapping counts are right.** A request for the numbers overlaps a call of `write` for
its table: the three counts of the files and the count of the table are made one after the other,
at any stages of the call. The other files are those of earlier days. For an identifier that is
registered once, the page then shows the numbers that it would show after the call exactly when the
window has no row of the identifier, or its file had all of them at the first count and the window
was deleted at the last. Its number for all time is right exactly when the file had all rows at the
first count and the table none at the last, or the file had none and the table all. -/
theorem overlapping_totals_iff (value : ν → V) {volumes : List (Volume ν)}
    (ranges : Ranges volumes (w.cache type)) (era : InEra hier)
    (earlier : ∀ volume ∈ volumes, volume.jour < hier)
    {ID : Int} (registered : w.db.registered bdd (some ID) = 1) (directory : Stade → Directory)
    (listed : ∀ stade, Listing (directory stade) ((stade.monde hier ojd type bdd w).cache type))
    (curYear curMonth : Nat) (first second third last : Stade) (ordered : first.Precede second)
    (ordered' : second.Precede third) :
    let rs := w.db.select type bdd hier ojd
    let nb := (rowsWithId ID ((w.db.vals type).filter fun row => row.inWindow hier ojd)).length
    let live (stade : Stade) := liveOf value ((stade.monde hier ojd type bdd w).db.vals type)
    let lus := totalNumbers (getIndicesTotalLus ID curYear curMonth (directory first)
      (directory second) (directory third) (live last))
    let apres := totalNumbers (getIndicesTotal ID curYear curMonth (fun _ => false)
      (directory .fini) (live .fini))
    (lus = apres ↔ nb = 0 ∨ first.vus ID rs = nb ∧ last = .fini) ∧
      (numberOf "All time values" lus = numberOf "All time values" apres ↔
        first.vus ID rs = if last = .fini then nb else 0) := by
  intro rs nb live lus apres
  have absent := absent_of_earlier ranges era earlier
  have complete : Stade.vus ID rs .fini = nb := by
    rw [Stade.vus_fini, length_rowsWithId_select registered]
  have counted : ∀ (pattern : Text) (stade : Stade), getCountLu ID pattern (directory stade) =
      some (natText (foundLines ID pattern (directory .avant) +
        if wildcard pattern (fileName hier) = true then stade.vus ID rs else 0)) :=
    fun pattern stade =>
      Stade.getCountLu_eq ranges era earlier (listed .avant) (listed stade) ID pattern
  have everyFile : wildcard "*.csv".toList (fileName hier) = true := wildcard_fileName hier
  have grows := Stade.vus_mono ID rs ordered
  have grows' := Stade.vus_mono ID rs ordered'
  have bounded := third.vus_le ID rs
  rw [complete] at bounded
  have closed := Stade.complete_fini ranges era earlier (listed .fini)
  simp only [lus, apres, getIndicesTotal_eq_lus ID curYear curMonth closed, getIndicesTotalLus,
    counted, live, countText_monde value absent, everyFile, ↓reduceIte, complete]
  constructor
  · rw [totalNumbers_growing_iff grows grows' bounded]
    by_cases ended : last = .fini
    · simp only [ended, ↓reduceIte, and_true]
      omega
    · simp only [ended, ↓reduceIte, and_false, or_false]
      omega
  · have allTime := fun allTime year month today : Nat =>
      (totalNumbers_four allTime year month today).allTime
    rw [allTime, allTime, Option.some_inj, Text.natText_injective.eq_iff]
    by_cases ended : last = .fini
    · rw [if_pos ended, if_pos ended]
      omega
    · rw [if_neg ended, if_neg ended]
      omega

end Overlap

/-- A request that counts the files and then the table, each at a stage of the call that archives a
row of yesterday. -/
def sampleTotals (files table : Stade) : List (Text × Option Text) :=
  let directory := files.repertoire (fileName (sampleDay - 1))
    ((sampleWorld sampleRows).db.select "cfd".toList "indices".toList (sampleDay - 1) sampleDay) []
  totalNumbers (getIndicesTotalLus 0 2019 4 directory directory directory
    (liveOf id ((table.monde (sampleDay - 1) sampleDay "cfd".toList "indices".toList
      (sampleWorld sampleRows)).db.vals "cfd".toList)))

/-- The row is counted twice when the file is complete and the table is not yet cleared, and not
at all when the file was counted before it was made and the table after it was cleared. -/
theorem overlapping_totals_sample :
    numberOf "All time values" (sampleTotals .ferme .ferme) ≠
        numberOf "All time values" (sampleTotals .fini .fini) ∧
      numberOf "All time values" (sampleTotals .avant .fini) ≠
        numberOf "All time values" (sampleTotals .fini .fini) ∧
      sampleTotals .ferme .fini = sampleTotals .fini .fini := by
  have nothing : Listing [] ((sampleWorld sampleRows).cache "cfd".toList) :=
    ⟨List.nodup_nil, fun _ => ⟨fun absent => absurd absent List.not_mem_nil, fun absent => by
      cases absent⟩⟩
  have ranges : Ranges ([] : List (Volume Int)) ((sampleWorld sampleRows).cache "cfd".toList) :=
    ⟨List.nodup_nil, fun _ absent => absurd absent List.not_mem_nil, fun _ absent =>
      absurd rfl absent⟩
  have absent : (sampleWorld sampleRows).cache "cfd".toList (fileName (sampleDay - 1)) = none := rfl
  have registered : (sampleWorld sampleRows).db.registered "indices".toList (some 0) = 1 := by
    decide
  have conditions := fun (files table : Stade) (same : files.Precede files) =>
    overlapping_totals_iff (sampleDay - 1) sampleDay (id : Int → Int) ranges (by decide)
      (fun _ absent => absurd absent List.not_mem_nil) registered _
      (fun stade => stade.listing_repertoire absent nothing) 2019 4 files files files table same
      same
  refine ⟨mt (conditions .ferme .ferme trivial).2.mp (by decide +kernel),
    mt (conditions .avant .fini trivial).2.mp (by decide +kernel),
    (conditions .ferme .fini trivial).1.mpr (.inr ⟨by decide +kernel, rfl⟩)⟩

end Trading.Front
