import Trading.Dao.IndiceDaoImpl

/-!
# The cache files read back

The archiver writes the cache files and the server reads them. `cache_round_trip` says that
the server reads for an identifier the values and the dates of exactly its rows, in
chronological order, and that `getCount` is their number.

Java's `split` drops empty fields at the end of a line, so the date of a row is read only if its
text is not empty. The names of the files have ten characters of the day, which order the
files by the day only as long as the year has four digits. Both are needed
(`empty_date_or_year_10000`).
-/

set_option autoImplicit false

namespace Trading.Dao

open Trading.Calendar Trading.Text Trading.Recup

variable {V : Type} {instant : Text → Int}

/-! ## Lines -/

/-- The line of a row without its end. -/
def Entry.body (entry : Entry) : Text :=
  intText entry.id ++ ';' :: (entry.val ++ ';' :: (entry.date ++ [';']))

theorem line_eq_body (entry : Entry) : line (some entry) = entry.body ++ ['\r'] := by
  simp [line, record, Entry.cells, Entry.body]

theorem not_mem_body {entry : Entry} (clean : Clean entry.val ∧ Clean entry.date) {c : Char}
    (lineEnd : c = '\r' ∨ c = '\n') : c ∉ entry.body := by
  have outside : ∀ {text : Text}, Clean text → c ∉ text := by
    intro text cleanText member
    obtain ⟨-, noReturn, noNewline⟩ := cleanText c member
    rcases lineEnd with isReturn | isNewline
    · exact noReturn isReturn
    · exact noNewline isNewline
  have noSeparator : c ≠ ';' := by
    rcases lineEnd with rfl | rfl <;> decide
  simp only [Entry.body, List.mem_append, List.mem_cons, List.not_mem_nil, or_false, not_or]
  exact ⟨outside (clean_intText _), noSeparator, outside clean.1, noSeparator, outside clean.2,
    noSeparator⟩

/-- The fields of a line are those of its row, but for empty ones at the end. -/
theorem fields_body {entry : Entry} (clean : Clean entry.val ∧ Clean entry.date) :
    fields ';' entry.body =
      [intText entry.id, entry.val, entry.date].rdropWhile (fun field => decide (field = [])) := by
  have noSeparator : ∀ {text : Text}, Clean text → ';' ∉ text := fun cleanText member =>
    (cleanText ';' member).1 rfl
  rw [Entry.body, fields_three ⟨noSeparator (clean_intText _), noSeparator clean.1,
    noSeparator clean.2⟩]

/-- The second and the third field of a line are the value and the date of its row, unless the
date is empty. -/
theorem readLine_body (parseDouble : Text → Option V) {entry : Entry}
    (clean : Clean entry.val ∧ Clean entry.date) (dated : entry.date ≠ []) :
    readLine parseDouble entry.body =
      (parseDouble entry.val).map fun val => ⟨val, entry.date⟩ := by
  have cut : fields ';' entry.body = [intText entry.id, entry.val, entry.date] := by
    rw [fields_body clean]
    exact List.rdropWhile_concat_neg _ [intText entry.id, entry.val] entry.date
      (by simpa using dated)
  simp only [readLine, cut, List.getElem?_cons_succ, List.getElem?_cons_zero, Option.bind_eq_bind,
    Option.bind_some]
  cases parseDouble entry.val <;> rfl

/-- The date that is read from a line is the date of its row. -/
theorem date_of_readLine {parseDouble : Text → Option V} {entry : Entry}
    (clean : Clean entry.val ∧ Clean entry.date) {indice : IndiceVal V}
    (read : readLine parseDouble entry.body = some indice) : indice.date = entry.date := by
  simp only [readLine, fields_body clean, Option.bind_eq_bind, Option.bind_eq_some_iff,
    Option.pure_def, Option.some.injEq] at read
  obtain ⟨-, -, -, -, date, third, rfl⟩ := read
  obtain ⟨inFields, isThird⟩ := List.getElem?_eq_some_iff.mp third
  have inRow := List.prefix_iff_getElem?.mp (List.rdropWhile_prefix _ _) 2 inFields
  rw [isThird] at inRow
  exact (Option.some.inj inRow).symm

/-- Lines that can all be read give the list of what is read from each. -/
theorem mapM_map_some {A B : Type} {read : Text → Option B} {text : A → Text} {P : A → B → Prop}
    (items : List A)
    (readable : ∀ item ∈ items, ∃ result, read (text item) = some result ∧ P item result) :
    ∃ results, (items.map text).mapM read = some results ∧ List.Forall₂ P items results := by
  induction items with
  | nil => exact ⟨[], rfl, .nil⟩
  | cons item items ih =>
      obtain ⟨result, first, holds⟩ := readable item List.mem_cons_self
      obtain ⟨results, later, allHold⟩ :=
        ih fun other member => readable other (List.mem_cons_of_mem _ member)
      refine ⟨result :: results, ?_, .cons holds allHold⟩
      simp only [List.map_cons, List.mapM_cons, first, later, Option.bind_eq_bind, Option.bind_some,
        Option.pure_def]

/-! ## The round trip -/

/-- The lines that `readLine` returns for the output of a sampling script. -/
theorem readLines_script (ID : Int) (skip : Nat) (archive : Archive instant) :
    ∃ outputs, Sed.Sampled skip (archive.rowsOf ID) outputs ∧
      readLines [] (run (commande ID (Sed.scriptText skip) "*.csv".toList) archive.directory) =
        outputs.map Entry.body := by
  obtain ⟨outputs, printed, sampled, -⟩ := run_script ID skip archive
  have clean : ∀ row ∈ outputs, Clean row.val ∧ Clean row.date := fun row member =>
    clean_of_mem_rowsOf (sampled.sublist.subset member)
  have noLineEnd : ∀ c, c = '\r' ∨ c = '\n' → ∀ text ∈ outputs.map Entry.body, c ∉ text := by
    intro c lineEnd text member
    obtain ⟨row, inRows, rfl⟩ := List.mem_map.mp member
    exact not_mem_body (clean row inRows) lineEnd
  have output : run (commande ID (Sed.scriptText skip) "*.csv".toList) archive.directory =
      (outputs.map Entry.body).flatMap fun text => text ++ ['\r', '\n'] := by
    rw [run, commande, printed, List.flatMap_map, List.flatMap_map]
    apply List.flatMap_congr
    intro row _
    rw [line_eq_body, List.append_assoc, List.singleton_append]
  refine ⟨outputs, sampled, ?_⟩
  rw [output, readLines_flatMap _ (noLineEnd _ (.inl rfl)) (noLineEnd _ (.inr rfl))]

/-- The lines that `readLine` returns for the rows of an identifier. -/
theorem readLines_run (ID : Int) (archive : Archive instant) :
    readLines [] (run (commande ID ['{', 'p', ';', '}'] "*.csv".toList) archive.directory) =
      (archive.rowsOf ID).map Entry.body := by
  obtain ⟨outputs, sampled, read⟩ := readLines_script ID 0 archive
  rw [sampled.eq_of_zero] at read
  exact read

/-- **The cache files are read back.** For every archive of day files with years of four
digits, whose values are decimal numerals and whose dates are not empty texts, and every
identifier, `getIndicesComm` returns the values and the dates of the rows of the identifier,
each once and in chronological order, and `getCount` is their number. -/
theorem cache_round_trip (parseDouble : Text → Option V)
    (numerals : ∀ text, (parseDecimal text).isSome = true → (parseDouble text).isSome = true)
    (archive : Archive instant) (years : ∀ file ∈ archive.files, InEra file.jour)
    (decimal : ∀ file ∈ archive.files, ∀ row ∈ file.rows, (parseDecimal row.val).isSome = true)
    (dated : ∀ file ∈ archive.files, ∀ row ∈ file.rows, row.date ≠ []) (ID : Int) :
    ∃ series, getIndicesComm parseDouble (commande ID ['{', 'p', ';', '}'] "*.csv".toList)
          archive.directory = some series ∧
      List.Forall₂ (fun row indice => parseDouble row.val = some indice.val ∧
        indice.date = row.date)
        (archive.rowsOf ID) series ∧
      (archive.rowsOf ID).Perm
        ((archive.files.flatMap DayFile.rows).filter fun row => decide (row.id = ID)) ∧
      (archive.rowsOf ID).Pairwise
        (fun first second => instant first.date ≤ instant second.date) ∧
      getCount ID "*.csv".toList archive.directory = some (natText series.length) := by
  have readable : ∀ row ∈ archive.rowsOf ID, ∃ indice : IndiceVal V,
      readLine parseDouble row.body = some indice ∧
        (parseDouble row.val = some indice.val ∧ indice.date = row.date) := by
    intro row member
    obtain ⟨file, listed, inFile⟩ := List.mem_flatMap.mp member
    have inArchive := Archive.mem_byName.mp listed
    have inRows := (List.mem_filter.mp inFile).1
    obtain ⟨val, parsed⟩ := Option.isSome_iff_exists.mp
      (numerals row.val (decimal file inArchive row inRows))
    refine ⟨⟨val, row.date⟩, ?_, parsed, rfl⟩
    rw [readLine_body parseDouble (file.clean row inRows) (dated file inArchive row inRows), parsed,
      Option.map_some]
  obtain ⟨series, read, pairs⟩ := mapM_map_some (archive.rowsOf ID) readable
  refine ⟨series, ?_, pairs, archive.rowsOf_perm ID, (Archive.chronological years).rows ID, ?_⟩
  · rw [getIndicesComm, readLines_run]
    exact read
  · rw [getCount_archive, pairs.length_eq]

theorem cache_round_trip_two_days :
    ∃ series : List (IndiceVal ℚ), getIndicesComm parseDecimal
        (commande 1 ['{', 'p', ';', '}'] "*.csv".toList) twoDays.directory = some series ∧
      List.Forall₂ (fun row indice => parseDecimal row.val = some indice.val ∧
        indice.date = row.date)
        (twoDays.rowsOf 1) series :=
  have ⟨series, read, pairs, _⟩ := cache_round_trip parseDecimal (fun _ isSome => isSome) twoDays
    (by decide) (by decide) (by decide) 1
  ⟨series, read, pairs⟩

example : (twoDays.rowsOf 1).map Entry.val = ["24".toList, "25.5".toList] := by decide

/-! ## What the conditions exclude -/

/-- A row whose date is the empty text. -/
def emptyDate : Archive fun _ => 86400 * 737159 where
  files :=
    [{ jour := 737159
       rows := [⟨1, "24".toList, []⟩]
       clean := by decide
       sorted := by decide
       ofDay := by decide }]
  distinct := by decide

/-- The last day of the year 9999 and the first day of the year 10000. -/
def year10000 : Archive (twoInstants 3652058 "10000-01-01 00:00:07.0".toList) where
  files :=
    [{ jour := 3652058
       rows := [⟨1, "24".toList, "9999-12-31 11:15:29.0".toList⟩]
       clean := by decide
       sorted := by decide
       ofDay := by decide },
     { jour := 3652059
       rows := [⟨1, "25.5".toList, "10000-01-01 00:00:07.0".toList⟩]
       clean := by decide
       sorted := by decide
       ofDay := by decide }]
  distinct := by decide

/-- An empty date is dropped by `split`, and `tmp[2]` throws. In the year 10000 the name of the
later file comes first. -/
theorem empty_date_or_year_10000 :
    getIndicesComm parseDecimal (commande 1 ['{', 'p', ';', '}'] "*.csv".toList)
        emptyDate.directory = none ∧
      (getIndicesComm parseDecimal (commande 1 ['{', 'p', ';', '}'] "*.csv".toList)
          year10000.directory).map (fun series => series.map IndiceVal.date) =
        some ["10000-01-01 00:00:07.0".toList, "9999-12-31 11:15:29.0".toList] ∧
      twoInstants 3652058 "10000-01-01 00:00:07.0".toList "9999-12-31 11:15:29.0".toList <
        twoInstants 3652058 "10000-01-01 00:00:07.0".toList "10000-01-01 00:00:07.0".toList := by
  refine ⟨?_, ?_, ?_⟩
  · decide +kernel
  · decide +kernel
  · decide

end Trading.Dao
