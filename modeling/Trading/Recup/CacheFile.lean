import Trading.Recup.Database

/-!
# Cache files

A cache file has the rows of one table and one day: a line of column labels, then one line
`ID;VAL;DATE;` for each row, each line ended by a carriage return and a newline. Its name is
the day.

The texts of the columns have none of the separators, so the lines of a written file are the
labels and the rows (`lines_csvFile`), and the line of a row tells the rows of one day apart
(`record_injective`).
-/

set_option autoImplicit false

namespace Trading.Recup

open Trading.Calendar Trading.Text

variable {ν : Type}

/-! ## Files -/

/-- `hier.substring(0,10)+".csv"`, where `hier` begins with the formatted day. -/
def fileName (hier : Int) : Text :=
  (formatDay hier ++ " 00:00:00".toList).take 10 ++ ".csv".toList

/-- One line: each cell followed by its separator, then the end of the line. -/
def csvLine (cells : List Text) : Text := cells.flatMap (fun cell => cell ++ [';']) ++ ['\r', '\n']

/-- The column labels of the archiver's `SELECT`. -/
def labels : List Text := ["ID".toList, "VALEUR".toList, "DATE".toList]

/-- The text of an identifier; a null prints as `null`. -/
def idText : Option Int → Text
  | none => "null".toList
  | some i => intText i

/-- `rs.getString(x)` for the three columns. -/
def Row.cells [Rendered ν] (row : Row ν) : List Text :=
  [idText row.id, Rendered.text row.val, row.date.text]

/-- The text of a complete cache file. -/
def csvFile [Rendered ν] (rows : List (Row ν)) : Text :=
  csvLine labels ++ rows.flatMap fun row => csvLine row.cells

/-! ## Lines -/

/-- A text without separator and line end. -/
def Clean (t : Text) : Prop := ∀ c ∈ t, c ≠ ';' ∧ c ≠ '\r' ∧ c ≠ '\n'

instance : DecidablePred Clean := fun t =>
  decidable_of_iff ((t.all fun c => c != ';' && (c != '\r' && c != '\n')) = true) (by simp [Clean])

/-- A line without its newline. -/
def record (cells : List Text) : Text := cells.flatMap (fun cell => cell ++ [';']) ++ ['\r']

theorem csvLine_cons (cell : Text) (cells : List Text) :
    csvLine (cell :: cells) = (cell ++ [';']) ++ csvLine cells := by
  simp only [csvLine, List.flatMap_cons, List.append_assoc]

theorem csvLine_eq (cells : List Text) : csvLine cells = record cells ++ ['\n'] := by
  simp only [csvLine, record, List.append_assoc, List.cons_append, List.nil_append]

theorem labels_length : labels.length = 3 := rfl

theorem clean_labels : ∀ label ∈ labels, Clean label := by decide

theorem Clean.of_isDigit {t : Text} (digits : ∀ c ∈ t, c.isDigit = true) : Clean t := by
  intro c member
  have digit := digits c member
  refine ⟨?_, ?_, ?_⟩ <;> rintro rfl <;> revert digit <;> decide

theorem Clean.append {s t : Text} (first : Clean s) (second : Clean t) : Clean (s ++ t) := by
  intro c member
  rcases List.mem_append.mp member with left | right
  · exact first c left
  · exact second c right

theorem Clean.cons {c : Char} {t : Text} (head : c ≠ ';' ∧ c ≠ '\r' ∧ c ≠ '\n') (tail : Clean t) :
    Clean (c :: t) := by
  intro d member
  rcases List.mem_cons.mp member with rfl | later
  · exact head
  · exact tail d later

theorem clean_padded (width n : Nat) : Clean (padded width n) :=
  Clean.of_isDigit fun _ member => isDigit_of_mem_padded member

theorem clean_intText (i : Int) : Clean (intText i) := by
  intro c member
  rcases mem_intText member with rfl | digit
  · decide
  · exact Clean.of_isDigit (t := [c]) (by simpa using digit) c List.mem_cons_self

/-- Integer columns. -/
instance : Rendered Int where
  text := intText
  clean := clean_intText
  text_injective := intText_injective

theorem clean_idText (id : Option Int) : Clean (idText id) := by
  cases id with
  | none =>
      show Clean "null".toList
      decide
  | some i => exact clean_intText i

theorem clean_formatDay (jour : Int) : Clean (formatDay jour) :=
  (clean_padded _ _).append (.cons (by decide) ((clean_padded _ _).append
    (.cons (by decide) (clean_padded _ _))))

theorem Stamp.clean_text (date : Stamp) : Clean date.text :=
  (clean_formatDay _).append (.cons (by decide) ((clean_padded _ _).append
    (.cons (by decide) ((clean_padded _ _).append
      (.cons (by decide) ((clean_padded _ _).append
        (.cons (by decide) (.cons (by decide) (fun _ member =>
          absurd member List.not_mem_nil)))))))))

/-- The cells of a clean line are read back at the separators. -/
theorem splitOn_record (cells : List Text) (clean : ∀ cell ∈ cells, Clean cell) :
    (record cells).splitOn ';' = cells ++ [['\r']] := by
  induction cells with
  | nil => decide
  | cons cell cells ih =>
      have noSeparator : ';' ∉ cell := fun member =>
        (clean cell List.mem_cons_self ';' member).1 rfl
      have unfolded : record (cell :: cells) = cell ++ ';' :: record cells := by
        simp [record, List.flatMap_cons]
      rw [unfolded, List.splitOn_append_cons_self_of_not_mem noSeparator,
        ih fun later member => clean later (List.mem_cons_of_mem _ member), List.cons_append]

theorem newline_not_mem_record {cells : List Text} (clean : ∀ cell ∈ cells, Clean cell) :
    '\n' ∉ record cells := by
  intro member
  rcases List.mem_append.mp member with inCells | inEnd
  · obtain ⟨cell, cellMember, inCell⟩ := List.mem_flatMap.mp inCells
    rcases List.mem_append.mp inCell with inText | inSeparator
    · exact (clean cell cellMember '\n' inText).2.2 rfl
    · revert inSeparator
      decide
  · revert inEnd
    decide

variable [Rendered ν]

theorem Row.cells_length (row : Row ν) : row.cells.length = 3 := rfl

theorem Row.clean_cells (row : Row ν) : ∀ cell ∈ row.cells, Clean cell := by
  intro cell member
  simp only [Row.cells, List.mem_cons, List.not_mem_nil, or_false] at member
  rcases member with rfl | rfl | rfl
  · exact clean_idText row.id
  · exact Rendered.clean row.val
  · exact row.date.clean_text

/-- A written file is its lines. -/
theorem csvFile_eq (rows : List (Row ν)) :
    csvFile rows = (record labels :: rows.map fun row => record row.cells).flatMap
      fun line => line ++ ['\n'] := by
  simp only [csvFile, csvLine_eq, List.flatMap_cons, List.flatMap_map]

/-- **The lines of a written file are the labels and the rows.** -/
theorem lines_csvFile (rows : List (Row ν)) :
    lines (csvFile rows) = record labels :: rows.map fun row => record row.cells := by
  rw [csvFile_eq]
  apply lines_flatMap
  intro line member
  rcases List.mem_cons.mp member with rfl | inRows
  · exact newline_not_mem_record clean_labels
  · obtain ⟨row, -, rfl⟩ := List.mem_map.mp inRows
    exact newline_not_mem_record row.clean_cells

/-! ## The line of a row -/

theorem idText_injective : Function.Injective idText := by
  have notNull : ∀ i, "null".toList ≠ intText i := by
    intro i same
    have letter : 'n' ∈ intText i := same ▸ (by decide)
    exact not_mem_intText (by decide) (by decide) letter
  intro first second same
  cases first with
  | none =>
      cases second with
      | none => rfl
      | some j => exact absurd same (notNull j)
  | some i =>
      cases second with
      | none => exact absurd same.symm (notNull i)
      | some j => exact congrArg some (intText_injective same)

/-- On one day the text of a date tells the seconds apart. -/
theorem Stamp.text_injective_of_jour {first second : Stamp} (sameJour : first.jour = second.jour)
    (sameText : first.text = second.text) : first = second := by
  obtain ⟨jour, s⟩ := first
  obtain ⟨jour', s'⟩ := second
  obtain rfl : jour = jour' := sameJour
  have bound := s.isLt
  have bound' := s'.isLt
  have width : ∀ n, n < 100 → (padded 2 n).length = 2 := fun n small =>
    length_padded (by decide) small
  simp only [Stamp.text, List.append_cancel_left_eq, List.cons.injEq, true_and] at sameText
  obtain ⟨hours, rest⟩ := List.append_inj sameText (by rw [width _ (by omega), width _ (by omega)])
  obtain ⟨minutes, rest⟩ := List.append_inj (List.cons.inj rest).2
    (by rw [width _ (by omega), width _ (by omega)])
  obtain ⟨seconds, -⟩ := List.append_inj (List.cons.inj rest).2
    (by rw [width _ (by omega), width _ (by omega)])
  have sameHours := padded_injective 2 hours
  have sameMinutes := padded_injective 2 minutes
  have sameSeconds := padded_injective 2 seconds
  congr 1
  apply Fin.ext
  omega

/-- **The line of a row tells the rows of one day apart.** -/
theorem record_injective {first second : Row ν} (sameJour : first.date.jour = second.date.jour)
    (sameLine : record first.cells = record second.cells) : first = second := by
  have sameCells : first.cells ++ [['\r']] = second.cells ++ [['\r']] := by
    rw [← splitOn_record _ first.clean_cells, ← splitOn_record _ second.clean_cells, sameLine]
  have cells := List.append_cancel_right sameCells
  simp only [Row.cells, List.cons.injEq, and_true] at cells
  obtain ⟨i, v, d⟩ := first
  obtain ⟨i', v', d'⟩ := second
  obtain rfl := idText_injective cells.1
  obtain rfl := Rendered.text_injective cells.2.1
  obtain rfl := Stamp.text_injective_of_jour sameJour cells.2.2
  rfl

/-- The line of the labels is not the line of a row. -/
theorem record_labels_ne (row : Row ν) : record labels ≠ record row.cells := by
  intro same
  have sameCells : labels ++ [['\r']] = row.cells ++ [['\r']] := by
    rw [← splitOn_record _ clean_labels, ← splitOn_record _ row.clean_cells, same]
  have head := (List.cons.inj sameCells).1
  cases id : row.id with
  | none =>
      rw [id] at head
      revert head
      decide
  | some i =>
      rw [id] at head
      have letter : 'I' ∈ intText i := by
        rw [show intText i = "ID".toList from head.symm]
        decide
      exact not_mem_intText (by decide) (by decide) letter

/-! ## The name of a day -/

/-- The days whose year has at most four digits. -/
def InEra (jour : Int) : Prop := 1 ≤ (civil jour).year ∧ (civil jour).year ≤ 9999

instance : DecidablePred InEra := fun jour =>
  inferInstanceAs (Decidable (1 ≤ (civil jour).year ∧ (civil jour).year ≤ 9999))

theorem InEra.of_between {first jour last : Int} (start : InEra first) (finish : InEra last)
    (lower : first ≤ jour) (upper : jour ≤ last) : InEra jour :=
  ⟨start.1.trans (year_civil_mono lower), (year_civil_mono upper).trans finish.2⟩

theorem daysInMonth_le (year : Int) (month : Nat) : daysInMonth year month ≤ 31 := by
  unfold daysInMonth
  split
  · split <;> omega
  all_goals omega

theorem formatDay_eq {jour : Int} (inEra : InEra jour) :
    formatDay jour = padded 4 (civil jour).year.toNat ++
      '-' :: (padded 2 (civil jour).month ++ '-' :: padded 2 (civil jour).day) := by
  simp only [formatDay, inEra.1, ↓reduceIte]

/-- The lengths of the three parts of a formatted day. -/
theorem length_parts {jour : Int} (inEra : InEra jour) :
    (padded 4 (civil jour).year.toNat).length = 4 ∧ (padded 2 (civil jour).month).length = 2 ∧
      (padded 2 (civil jour).day).length = 2 := by
  have month := (civil jour).month_le
  have day := (civil jour).day_le
  have long := daysInMonth_le (civil jour).year (civil jour).month
  have year := inEra.2
  exact ⟨length_padded (by decide) (by omega), length_padded (by decide) (by omega),
    length_padded (by decide) (by omega)⟩

theorem length_formatDay {jour : Int} (inEra : InEra jour) : (formatDay jour).length = 10 := by
  obtain ⟨years, months, days⟩ := length_parts inEra
  rw [formatDay_eq inEra]
  simp only [List.length_append, List.length_cons, years, months, days]

/-- With a year of four digits, the ten characters are the whole day. -/
theorem fileName_eq {jour : Int} (inEra : InEra jour) :
    fileName jour = formatDay jour ++ ".csv".toList := by
  rw [fileName, List.take_append_of_le_length (length_formatDay inEra).ge,
    List.take_of_length_le (length_formatDay inEra).le]

theorem formatDay_injective {first second : Int} (firstEra : InEra first) (secondEra : InEra second)
    (same : formatDay first = formatDay second) : first = second := by
  obtain ⟨years, months, -⟩ := length_parts firstEra
  obtain ⟨years', months', -⟩ := length_parts secondEra
  rw [formatDay_eq firstEra, formatDay_eq secondEra] at same
  obtain ⟨sameYear, rest⟩ := List.append_inj same (by rw [years, years'])
  obtain ⟨sameMonth, rest⟩ := List.append_inj (List.cons.inj rest).2 (by rw [months, months'])
  have sameDay := padded_injective 2 (List.cons.inj rest).2
  have yearEqual := padded_injective 4 sameYear
  have lower := firstEra.1
  have lower' := secondEra.1
  exact civil_injective
    (CivilDate.ext (by omega) (padded_injective 2 sameMonth) sameDay)

/-- **Days with a year of four digits have different file names.** -/
theorem fileName_injective {first second : Int} (firstEra : InEra first) (secondEra : InEra second)
    (same : fileName first = fileName second) : first = second := by
  rw [fileName_eq firstEra, fileName_eq secondEra] at same
  exact formatDay_injective firstEra secondEra (List.append_cancel_right same)

/-- **The order of the names is the order of the days**, as long as the years have four
digits. -/
theorem fileName_lt {first second : Int} (firstEra : InEra first) (secondEra : InEra second)
    (before : first < second) : fileName first < fileName second := by
  obtain ⟨years, months, days⟩ := length_parts firstEra
  obtain ⟨years', months', days'⟩ := length_parts secondEra
  have lastMonth := (civil second).month_le
  have lastDay := (civil second).day_le
  have long := daysInMonth_le (civil second).year (civil second).month
  rw [fileName_eq firstEra, fileName_eq secondEra]
  refine append_lt_append_of_lt
    (by rw [length_formatDay firstEra, length_formatDay secondEra]) ?_ _ _
  rw [formatDay_eq firstEra, formatDay_eq secondEra]
  rcases civil_lt before with earlierYear | ⟨sameYear, earlier⟩
  · have latest := secondEra.2
    have earliest := firstEra.1
    exact append_lt_append_of_lt (by rw [years, years'])
      (padded_lt (by decide) (by omega) (by omega)) _ _
  rw [sameYear]
  refine append_lt_append_left _ (append_lt_append_left ['-'] ?_)
  rcases earlier with earlierMonth | ⟨sameMonth, earlierDay⟩
  · exact append_lt_append_of_lt (by rw [months, months'])
      (padded_lt (by decide) earlierMonth (by omega)) _ _
  rw [sameMonth]
  exact append_lt_append_left _ (append_lt_append_left ['-']
    (padded_lt (by decide) earlierDay (by omega)))

end Trading.Recup
