import Mathlib.Data.List.Flatten
import Trading.Dao.IndiceDaoImpl

/-!
# The files of a period

The server reads the files of the current year, or of the current month, by the beginning of
their names. A pattern selects some of the days of an archive (`Archive.matching`), and what is
known about whole archives holds for the selected ones, since both have the same stream of
lines (`stream_matching`). So `getCount` is the number of rows in the selected files
(`getCount_files`).

The year of a pattern is not padded. It finds the files of its year when the year has four
digits, and no files of an earlier year (`wildcard_year`, `wildcard_month`).
-/

set_option autoImplicit false

namespace Trading.Dao

open Trading.Calendar Trading.Text Trading.Recup

/-! ## Patterns -/

/-- `curYear+"-*.csv"`. -/
def yearFiles (curYear : Nat) : Text := natText curYear ++ "-*.csv".toList

/-- `curYear+"-"+String.format("%02d", curMonth)+"-*.csv"`. -/
def monthFiles (curYear curMonth : Nat) : Text :=
  natText curYear ++ '-' :: (padded 2 curMonth ++ "-*.csv".toList)

/-- The first separator divides a text in one way only. -/
theorem append_cons_injective {c : Char} {first first' rest rest' : Text} (clean : c ∉ first)
    (clean' : c ∉ first') (same : first ++ c :: rest = first' ++ c :: rest') :
    first = first' ∧ rest = rest' := by
  induction first generalizing first' with
  | nil =>
      cases first' with
      | nil => exact ⟨rfl, (List.cons.inj same).2⟩
      | cons d first' =>
          obtain ⟨rfl, -⟩ := List.cons.inj same
          exact absurd List.mem_cons_self clean'
  | cons d first ih =>
      cases first' with
      | nil =>
          obtain ⟨rfl, -⟩ := List.cons.inj same
          exact absurd List.mem_cons_self clean
      | cons d' first' =>
          obtain ⟨rfl, tails⟩ := List.cons.inj same
          obtain ⟨rfl, sameRest⟩ := ih (fun member => clean (List.mem_cons_of_mem _ member))
            (fun member => clean' (List.mem_cons_of_mem _ member)) tails
          exact ⟨rfl, sameRest⟩

theorem not_mem_of_isDigit {t : Text} {c : Char} (digits : ∀ d ∈ t, d.isDigit = true)
    (noDigit : c.isDigit = false) : c ∉ t := by
  intro member
  rw [digits c member] at noDigit
  cases noDigit

/-- An unpadded numeral is the padded one of a number exactly when it fills the width. -/
theorem natText_eq_padded_iff {n m : Nat} (fits : m < 10000) :
    natText n = padded 4 m ↔ 1000 ≤ n ∧ m = n := by
  constructor
  · intro same
    have equal : n = m := by
      rw [← ofDigitChars_padded 4 m, ← same]
      exact Nat.ofDigitChars_ten_toDigits.symm
    refine ⟨?_, equal.symm⟩
    by_contra small
    have short : (natText n).length ≤ 3 :=
      (Nat.length_toDigits_le_iff (by decide) (by decide)).mpr (by omega)
    have long := congrArg List.length same
    rw [length_padded (by decide) fits] at long
    omega
  · rintro ⟨large, rfl⟩
    have long : ¬ (natText m).length ≤ 3 := by
      rw [natText, Nat.length_toDigits_le_iff (by decide) (by decide)]
      omega
    have filled : 4 - (natText m).length = 0 := by omega
    rw [padded, filled, List.replicate_zero, List.nil_append]

/-- The name of a day, part by part. -/
theorem fileName_parts {jour : Int} (inEra : InEra jour) :
    fileName jour = padded 4 (civil jour).year.toNat ++ '-' ::
      (padded 2 (civil jour).month ++ '-' :: (padded 2 (civil jour).day ++ ".csv".toList)) := by
  rw [fileName_eq inEra, formatDay_eq inEra, List.append_assoc, List.cons_append,
    List.append_assoc, List.cons_append]

/-- **The pattern of a year finds the days of the year**, if it has four digits. -/
theorem wildcard_year {jour : Int} (inEra : InEra jour) (curYear : Nat) :
    wildcard (yearFiles curYear) (fileName jour) = true ↔
      1000 ≤ curYear ∧ (civil jour).year = curYear := by
  have lower := inEra.1
  have upper := inEra.2
  have star : yearFiles curYear = (natText curYear ++ ['-']) ++ '*' :: ".csv".toList := by
    rw [yearFiles, List.append_assoc]
    rfl
  have noStar : '*' ∉ natText curYear ++ ['-'] := by
    rw [List.mem_append, not_or]
    exact ⟨not_mem_of_isDigit (fun _ member => isDigit_of_mem_natText member) (by decide),
      by decide⟩
  rw [star, wildcard_star noStar (by decide), fileName_parts inEra]
  constructor
  · rintro ⟨middle, same⟩
    rw [List.append_assoc, List.singleton_append] at same
    obtain ⟨years, -⟩ := append_cons_injective
      (not_mem_of_isDigit (fun _ member => isDigit_of_mem_padded member) (by decide))
      (not_mem_of_isDigit (fun _ member => isDigit_of_mem_natText member) (by decide)) same
    obtain ⟨large, equal⟩ := (natText_eq_padded_iff (by omega)).mp years.symm
    exact ⟨large, by omega⟩
  · rintro ⟨large, equal⟩
    have years : natText curYear = padded 4 (civil jour).year.toNat :=
      (natText_eq_padded_iff (by omega)).mpr ⟨large, by omega⟩
    refine ⟨padded 2 (civil jour).month ++ '-' :: padded 2 (civil jour).day, ?_⟩
    simp only [years, List.append_assoc, List.cons_append, List.nil_append]

/-- **The pattern of a month finds the days of the month**, if its year has four digits. -/
theorem wildcard_month {jour : Int} (inEra : InEra jour) (curYear curMonth : Nat) :
    wildcard (monthFiles curYear curMonth) (fileName jour) = true ↔
      1000 ≤ curYear ∧ (civil jour).year = curYear ∧ (civil jour).month = curMonth := by
  have lower := inEra.1
  have upper := inEra.2
  have star : monthFiles curYear curMonth =
      (natText curYear ++ '-' :: (padded 2 curMonth ++ ['-'])) ++ '*' :: ".csv".toList := by
    rw [monthFiles, List.append_assoc, List.cons_append, List.append_assoc]
    rfl
  have noStar : '*' ∉ natText curYear ++ '-' :: (padded 2 curMonth ++ ['-']) := by
    simp only [List.mem_append, List.mem_cons, List.not_mem_nil, or_false, not_or]
    exact ⟨not_mem_of_isDigit (fun _ member => isDigit_of_mem_natText member) (by decide),
      by decide, not_mem_of_isDigit (fun _ member => isDigit_of_mem_padded member) (by decide),
      by decide⟩
  rw [star, wildcard_star noStar (by decide), fileName_parts inEra]
  have dash : ∀ width n, '-' ∉ padded width n := fun width n =>
    not_mem_of_isDigit (fun _ member => isDigit_of_mem_padded member) (by decide)
  constructor
  · rintro ⟨middle, same⟩
    simp only [List.append_assoc, List.cons_append, List.nil_append] at same
    obtain ⟨years, rest⟩ := append_cons_injective (dash _ _)
      (not_mem_of_isDigit (fun _ member => isDigit_of_mem_natText member) (by decide)) same
    obtain ⟨months, -⟩ := append_cons_injective (dash _ _) (dash _ _) rest
    obtain ⟨large, equal⟩ := (natText_eq_padded_iff (by omega)).mp years.symm
    exact ⟨large, by omega, padded_injective 2 months⟩
  · rintro ⟨large, equal, sameMonth⟩
    have years : natText curYear = padded 4 (civil jour).year.toNat :=
      (natText_eq_padded_iff (by omega)).mpr ⟨large, by omega⟩
    refine ⟨padded 2 (civil jour).day, ?_⟩
    simp only [years, sameMonth, List.append_assoc, List.cons_append, List.nil_append]

/-! ## Parts of an archive -/

variable {instant : Text → Int}

namespace Archive

/-- The days of an archive whose file names match a pattern. -/
def matching (files : Text) (archive : Archive instant) : Archive instant where
  files := archive.files.filter fun file => wildcard files file.name
  distinct := archive.distinct.sublist (List.filter_sublist.map DayFile.jour)

/-- The number of rows of an identifier in the files of some days. -/
def count (ID : Int) (days : Int → Bool) (archive : Archive instant) : Nat :=
  ((archive.files.filter fun file => days file.jour).flatMap (DayFile.rowsOf ID)).length

theorem count_mono (ID : Int) {days days' : Int → Bool} {archive : Archive instant}
    (fewer : ∀ file ∈ archive.files, days file.jour = true → days' file.jour = true) :
    archive.count ID days ≤ archive.count ID days' := by
  have within : (archive.files.filter fun file => days file.jour) =
      (archive.files.filter fun file => days' file.jour).filter fun file => days file.jour := by
    rw [List.filter_filter]
    apply List.filter_congr
    intro file member
    cases here : days file.jour with
    | false => rfl
    | true => rw [fewer file member here, Bool.and_self]
  unfold count
  rw [within]
  exact (List.filter_sublist.flatMap (DayFile.rowsOf ID)).length_le

theorem count_congr (ID : Int) {days days' : Int → Bool} {archive : Archive instant}
    (same : ∀ file ∈ archive.files, days file.jour = days' file.jour) :
    archive.count ID days = archive.count ID days' := by
  unfold count
  rw [List.filter_congr same]

theorem count_none (ID : Int) (archive : Archive instant) :
    archive.count ID (fun _ => false) = 0 := by
  simp [count]

theorem length_rowsOf_matching (ID : Int) (files : Text) (archive : Archive instant) :
    ((archive.matching files).rowsOf ID).length =
      archive.count ID fun jour => wildcard files (fileName jour) :=
  ((List.perm_insertionSort _ (archive.matching files).files).flatMap_right
    (DayFile.rowsOf ID)).length_eq

end Archive

/-- **A pattern reads the archive of its days.** -/
theorem stream_matching (files : Text) (archive : Archive instant) :
    stream files archive.directory =
      stream "*.csv".toList (archive.matching files).directory := by
  have selected : (archive.directory.filter fun file => wildcard files file.1) =
      (archive.matching files).directory := by
    rw [Archive.directory, List.filter_map]
    rfl
  have everyFile : ((archive.matching files).directory.filter fun file =>
      wildcard "*.csv".toList file.1) = (archive.matching files).directory := by
    apply List.filter_eq_self.mpr
    intro file member
    obtain ⟨day, -, rfl⟩ := List.mem_map.mp member
    exact wildcard_fileName day.jour
  rw [stream, stream, glob, glob, selected, everyFile]

/-- **`getCount` is the number of rows in the files of the pattern.** -/
theorem getCount_files (ID : Int) (files : Text) (archive : Archive instant) :
    getCount ID files archive.directory =
      some (natText (archive.count ID fun jour => wildcard files (fileName jour))) := by
  have whole := getCount_archive ID (archive.matching files)
  rw [Archive.length_rowsOf_matching] at whole
  rw [← whole, getCount, getCount, run, run, commande, commande]
  simp only [stream_matching files archive]

end Trading.Dao
