import Trading.Recup.BDD
import Trading.Sed

/-!
# The cache directory as the server reads it

The server finds the day files of the archiver in a directory, and reads those whose names
match a pattern as one stream of lines, in the order of their names.

An `Archive` is what the archiver leaves in the directory: a file for each of some days, with
the rows of that day sorted by their identifiers and dates (`write_leaves_dayFile`).
`stream_directory` says which lines the stream of such a directory has. An address of the
server, `^ID;.*`, matches the lines of the rows with that identifier and no others
(`matchesLine_line`), and `chronological` says that the order of the names is the order of the
days.
-/

set_option autoImplicit false

namespace Trading.Dao

open Trading.Calendar Trading.Text Trading.Recup

/-! ## Files -/

/-- The columns of a line of a cache file. -/
structure Entry where
  id : Int
  val : Text
  date : Text
  deriving DecidableEq

def Entry.cells (entry : Entry) : List Text := [intText entry.id, entry.val, entry.date]

/-- A complete cache file of the archiver. -/
def cacheFile (entries : List Entry) : Text :=
  csvLine labels ++ entries.flatMap fun entry => csvLine entry.cells

/-- Names and contents of the files of a directory. -/
abbrev Directory := List (Text × Text)

/-- The files whose names match a pattern, in the order of their names. -/
def glob (files : Text) (directory : Directory) : Directory :=
  (directory.filter fun file => wildcard files file.1).insertionSort fun first second =>
    first.1 ≤ second.1

/-- The lines of the files, read one after the other. -/
def stream (files : Text) (directory : Directory) : List Text :=
  (glob files directory).flatMap fun file => lines file.2

/-! ## Archives -/

/-- The file of a day: rows of that day, in the order of the archiver's query. `instant` is the
second that the text of a date stands for. -/
structure DayFile (instant : Text → Int) where
  jour : Int
  rows : List Entry
  clean : ∀ row ∈ rows, Clean row.val ∧ Clean row.date
  sorted : rows.Pairwise fun first second =>
    first.id < second.id ∨ first.id = second.id ∧ instant first.date ≤ instant second.date
  ofDay : ∀ row ∈ rows, instant row.date / 86400 = jour

/-- A file for each of some days, in any order. -/
structure Archive (instant : Text → Int) where
  files : List (DayFile instant)
  distinct : (files.map DayFile.jour).Nodup

section Archives

variable {instant : Text → Int}

def DayFile.name (file : DayFile instant) : Text := fileName file.jour

/-- The rows of one identifier. -/
def DayFile.rowsOf (ID : Int) (file : DayFile instant) : List Entry :=
  file.rows.filter fun row => decide (row.id = ID)

namespace Archive

def directory (archive : Archive instant) : Directory :=
  archive.files.map fun file => (file.name, cacheFile file.rows)

/-- The files of the archive in the order of their names. -/
def byName (archive : Archive instant) : List (DayFile instant) :=
  archive.files.insertionSort fun first second => first.name ≤ second.name

/-- The rows of one identifier in the whole archive, as the order of the names has them. -/
def rowsOf (ID : Int) (archive : Archive instant) : List Entry :=
  archive.byName.flatMap (DayFile.rowsOf ID)

/-- The order of the names is the order of the days. -/
def Chronological (archive : Archive instant) : Prop :=
  archive.byName.Pairwise fun first second => first.jour < second.jour

theorem mem_byName {archive : Archive instant} {file : DayFile instant} :
    file ∈ archive.byName ↔ file ∈ archive.files := List.mem_insertionSort _

theorem mem_rowsOf {ID : Int} {archive : Archive instant} {row : Entry} :
    row ∈ archive.rowsOf ID ↔ ∃ file ∈ archive.files, row ∈ file.rowsOf ID := by
  simp only [rowsOf, List.mem_flatMap, mem_byName]

theorem length_byName (archive : Archive instant) : archive.byName.length = archive.files.length :=
  List.length_insertionSort _ _

/-- The rows of an identifier are those of the files, whatever order these have. -/
theorem rowsOf_perm (ID : Int) (archive : Archive instant) :
    (archive.rowsOf ID).Perm
      ((archive.files.flatMap DayFile.rows).filter fun row => decide (row.id = ID)) := by
  rw [List.filter_flatMap]
  exact (List.perm_insertionSort _ archive.files).flatMap_right (DayFile.rowsOf ID)

/-- **With years of four digits, the files are read day by day.** -/
theorem chronological {archive : Archive instant}
    (years : ∀ file ∈ archive.files, InEra file.jour) :
    archive.Chronological := by
  have ordered : archive.byName.Pairwise fun first second => first.name ≤ second.name :=
    have : Std.Total fun first second : DayFile instant => first.name ≤ second.name :=
      ⟨fun first second => le_total _ _⟩
    have : IsTrans (DayFile instant) fun first second => first.name ≤ second.name :=
      ⟨fun _ _ _ => le_trans⟩
    List.pairwise_insertionSort _ archive.files
  have distinct : archive.byName.Pairwise fun first second => first.jour ≠ second.jour :=
    List.pairwise_map.mp (((List.perm_insertionSort _ archive.files).map DayFile.jour).nodup_iff.mpr
      archive.distinct)
  apply (ordered.and distinct).imp_of_mem
  intro first second inFirst inSecond names
  rcases lt_trichotomy first.jour second.jour with before | same | after
  · exact before
  · exact absurd same names.2
  · exact absurd (fileName_lt (years _ (mem_byName.mp inSecond)) (years _ (mem_byName.mp inFirst))
      after) (not_lt.mpr names.1)

/-- In chronological order of the files, the rows of an identifier are in chronological order. -/
theorem Chronological.rows {archive : Archive instant} (ordered : archive.Chronological)
    (ID : Int) :
    (archive.rowsOf ID).Pairwise fun first second => instant first.date ≤ instant second.date := by
  rw [rowsOf, List.pairwise_flatMap]
  constructor
  · intro file _
    refine (file.sorted.sublist List.filter_sublist).imp_of_mem
      fun {first second} inFirst inSecond sorted => ?_
    have sameFirst := of_decide_eq_true (List.mem_filter.mp inFirst).2
    have sameSecond := of_decide_eq_true (List.mem_filter.mp inSecond).2
    rcases sorted with differ | ⟨-, before⟩
    · omega
    · exact before
  · apply ordered.imp
    intro first second before row inFirst row' inSecond
    have day := first.ofDay row (List.mem_filter.mp inFirst).1
    have day' := second.ofDay row' (List.mem_filter.mp inSecond).1
    omega

end Archive

/-! ## The stream of an archive -/

/-- A line of a cache file: the labels or a row. -/
def line : Option Entry → Text
  | none => record labels
  | some entry => record entry.cells

/-- The lines of a file, as rows. -/
def DayFile.items (file : DayFile instant) : List (Option Entry) := none :: file.rows.map some

theorem Entry.clean_cells {entry : Entry} (clean : Clean entry.val ∧ Clean entry.date) :
    ∀ cell ∈ entry.cells, Clean cell := by
  intro cell member
  simp only [Entry.cells, List.mem_cons, List.not_mem_nil, or_false] at member
  rcases member with rfl | rfl | rfl
  · exact clean_intText entry.id
  · exact clean.1
  · exact clean.2

/-- **The lines of a day file are the labels and its rows.** -/
theorem lines_cacheFile (file : DayFile instant) :
    lines (cacheFile file.rows) = file.items.map line := by
  have written : cacheFile file.rows = (file.items.map line).flatMap fun text =>
      text ++ ['\n'] := by
    simp only [cacheFile, csvLine_eq, DayFile.items, List.map_cons, List.map_map, List.flatMap_cons,
      List.flatMap_map, line, Function.comp_apply]
  rw [written]
  apply lines_flatMap
  intro text member
  rcases List.mem_cons.mp member with rfl | inRows
  · exact newline_not_mem_record clean_labels
  · rw [List.map_map] at inRows
    obtain ⟨row, inFile, rfl⟩ := List.mem_map.mp inRows
    exact newline_not_mem_record (Entry.clean_cells (file.clean row inFile))

theorem wildcard_fileName (jour : Int) : wildcard "*.csv".toList (fileName jour) = true := by
  have star : "*.csv".toList = [] ++ '*' :: ".csv".toList := rfl
  rw [star, wildcard_star (by decide) (by decide)]
  exact ⟨_, rfl⟩

/-- **The stream of an archive.** -/
theorem stream_directory (archive : Archive instant) :
    stream "*.csv".toList archive.directory =
      (archive.byName.flatMap DayFile.items).map line := by
  have everyFile : (archive.directory.filter fun file => wildcard "*.csv".toList file.1) =
      archive.directory := by
    apply List.filter_eq_self.mpr
    intro file member
    obtain ⟨day, -, rfl⟩ := List.mem_map.mp member
    exact wildcard_fileName day.jour
  have listed : glob "*.csv".toList archive.directory =
      archive.byName.map fun file => (file.name, cacheFile file.rows) := by
    rw [glob, everyFile]
    exact (List.map_insertionSort (fun first second : DayFile instant => first.name ≤ second.name) _
      (fun file : DayFile instant => (file.name, cacheFile file.rows)) archive.files
      fun _ _ _ _ => Iff.rfl).symm
  rw [stream, listed, List.flatMap_map, List.map_flatMap]
  exact List.flatMap_congr fun file _ => lines_cacheFile file

/-! ## The address of an identifier -/

/-- `"^"+ID+";.*"`. -/
def address (ID : Int) : Text := '^' :: (intText ID ++ ";.*".toList)

/-- Whether a line is a row of the identifier. -/
def isRowOf (ID : Int) : Option Entry → Bool
  | none => false
  | some entry => decide (entry.id = ID)

theorem record_cons (cell : Text) (cells : List Text) :
    record (cell :: cells) = cell ++ ';' :: record cells := by
  simp [record, List.flatMap_cons]

/-- A line begins with an identifier and a separator if and only if that is its first cell. -/
theorem word_prefix_iff {ID : Int} {cell : Text} {cells : List Text} (clean : ';' ∉ cell) :
    (intText ID ++ [';']) <+: record (cell :: cells) ↔ cell = intText ID := by
  have cleanWord : ';' ∉ intText ID := not_mem_intText (by decide) (by decide)
  rw [record_cons]
  constructor
  · rintro ⟨rest, same⟩
    rw [List.append_assoc, List.singleton_append] at same
    have pieces := congrArg (List.splitOn ';') same
    rw [List.splitOn_append_cons_self_of_not_mem cleanWord,
      List.splitOn_append_cons_self_of_not_mem clean] at pieces
    exact (List.cons.inj pieces).1.symm
  · rintro rfl
    exact ⟨record cells, by rw [List.append_assoc, List.singleton_append]⟩

/-- The address matches the lines that begin with the identifier and a separator. -/
theorem matchesLine_address (ID : Int) (text : Text) :
    Sed.matchesLine (address ID) text = decide ((intText ID ++ [';']) <+: text) := by
  have literal : ∀ c : Char, c ≠ '-' → c ≠ ';' → c.isDigit = false → c ∉ intText ID ++ [';'] := by
    intro c noMinus noSeparator noDigit member
    rcases List.mem_append.mp member with inNumeral | inSeparator
    · exact not_mem_intText noMinus noDigit inNumeral
    · exact noSeparator (List.mem_singleton.mp inSeparator)
  have word : address ID = '^' :: ((intText ID ++ [';']) ++ ['.', '*']) := by
    rw [address, List.append_assoc]
    rfl
  rw [word, Sed.matchesLine_word (literal _ (by decide) (by decide) (by decide))
    (literal _ (by decide) (by decide) (by decide))]

/-- **The address matches the rows of its identifier, and no other line.** -/
theorem matchesLine_line (ID : Int) (item : Option Entry) :
    Sed.matchesLine (address ID) (line item) = isRowOf ID item := by
  rw [matchesLine_address]
  cases item with
  | none =>
      have noNumeral : "ID".toList ≠ intText ID := by
        intro same
        exact not_mem_intText (i := ID) (c := 'I') (by decide) (by decide) (same ▸ by decide)
      exact decide_eq_false (mt (word_prefix_iff (by decide)).mp noNumeral)
  | some entry =>
      have clean : ';' ∉ intText entry.id := not_mem_intText (by decide) (by decide)
      refine decide_eq_decide.mpr ((word_prefix_iff clean).trans ?_)
      exact intText_injective.eq_iff

theorem filter_items (ID : Int) (file : DayFile instant) :
    file.items.filter (isRowOf ID) = (file.rowsOf ID).map some := by
  rw [DayFile.items, List.filter_cons, isRowOf, List.filter_map]
  rfl

/-- The rows of an identifier are what the address matches in the whole stream. -/
theorem filter_flatMap_items (ID : Int) (archive : Archive instant) :
    (archive.byName.flatMap DayFile.items).filter (isRowOf ID) = (archive.rowsOf ID).map some := by
  rw [List.filter_flatMap, Archive.rowsOf, List.map_flatMap]
  exact List.flatMap_congr fun file _ => filter_items ID file

end Archives

/-! ## The files of the archiver -/

section Archiver

variable {ν : Type} [Rendered ν] {instant : Text → Int}

/-- The columns of a row of the archiver. Only rows with an identifier are selected. -/
def entryOf (row : Row ν) : Entry := ⟨row.id.getD 0, Rendered.text row.val, row.date.text⟩

theorem cells_entryOf {row : Row ν} {i : Int} (identified : row.id = some i) :
    (entryOf row).cells = row.cells := by
  simp only [Entry.cells, entryOf, Row.cells, identified, Option.getD_some, idText]

/-- The selected rows of a day, as a day file. -/
def dayFileOf (db : Database ν) (type bdd : Text) (hier : Int)
    (seconds : ∀ row ∈ db.select type bdd hier (hier + 1), instant row.date.text = row.date.time) :
    DayFile instant where
  jour := hier
  rows := (db.select type bdd hier (hier + 1)).map entryOf
  clean := by
    intro entry member
    obtain ⟨row, -, rfl⟩ := List.mem_map.mp member
    exact ⟨Rendered.clean row.val, row.date.clean_text⟩
  sorted := by
    refine List.pairwise_map.mpr ((db.sorted_select type bdd hier (hier + 1)).imp_of_mem
      fun {first second} inFirst inSecond before => ?_)
    obtain ⟨-, -, indice, -, identified⟩ := Database.mem_select.mp inFirst
    obtain ⟨-, -, indice', -, identified'⟩ := Database.mem_select.mp inSecond
    simp only [Row.before, identified, identified', decide_eq_true_eq] at before
    simp only [entryOf, identified, identified', Option.getD_some, seconds first inFirst,
      seconds second inSecond]
    exact before
  ofDay := by
    intro entry member
    obtain ⟨row, selected, rfl⟩ := List.mem_map.mp member
    obtain ⟨-, window, -⟩ := Database.mem_select.mp selected
    have inDay := of_decide_eq_true window
    have second := row.date.seconde.isLt
    simp only [entryOf, seconds row selected, Stamp.time]
    omega

/-- **An archiving call without fault leaves a day file** for the rows it selects. -/
theorem write_leaves_dayFile {hier : Int} {type bdd : Text} {w : World ν}
    (absent : w.cache type (fileName hier) = none)
    (someRow : w.db.select type bdd hier (hier + 1) ≠ [])
    (seconds : ∀ row ∈ w.db.select type bdd hier (hier + 1),
      instant row.date.text = row.date.time) :
    (write hier (hier + 1) type bdd noFault w).1.cache type (fileName hier) =
      some (cacheFile (dayFileOf w.db type bdd hier seconds).rows) := by
  have sameText : csvFile (w.db.select type bdd hier (hier + 1)) =
      cacheFile (dayFileOf w.db type bdd hier seconds).rows := by
    simp only [csvFile, cacheFile, dayFileOf, List.flatMap_map]
    congr 1
    apply List.flatMap_congr
    intro row selected
    obtain ⟨-, -, indice, -, identified⟩ := Database.mem_select.mp selected
    rw [cells_entryOf identified]
  rw [write_noFault absent, World.archive, if_neg someRow, ← sameText]
  simp [World.setFile]

end Archiver

/-! ## Two days -/

/-- The second of a date of the first day, and of one of the day after it. -/
def twoInstants (first : Int) (later text : Text) : Int :=
  if text = later then 86400 * (first + 1) + 7 else 86400 * first + 40529

/-- The later day comes first in this list, and the identifiers 1 and 10 have a common
beginning. -/
def twoDays : Archive (twoInstants 737159 "2019-04-12 00:00:07.0".toList) where
  files :=
    [{ jour := 737160
       rows := [⟨1, "25.5".toList, "2019-04-12 00:00:07.0".toList⟩]
       clean := by decide
       sorted := by decide
       ofDay := by decide },
     { jour := 737159
       rows := [⟨1, "24".toList, "2019-04-11 11:15:29.0".toList⟩,
         ⟨10, "7".toList, "2019-04-11 11:15:29.0".toList⟩]
       clean := by decide
       sorted := by decide
       ofDay := by decide }]
  distinct := by decide

end Trading.Dao
