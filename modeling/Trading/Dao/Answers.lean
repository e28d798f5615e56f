import Trading.Dao.Strides
import Trading.Grouping
import Trading.Recup.ArchivedDays

/-!
# The server reads the store

What the server finds of the store of the recorder: a listing of the cache directory of a type, in
any order, and the rows of the live table with the texts of their dates.

The volumes of the store are an archive (`archiveOf`), and every listing of the directory is read
like it (`stream_listing`). The text of a date stands for its second (`instantOf_text`).
-/

set_option autoImplicit false

namespace Trading.Dao

open Trading.Calendar Trading.Text Trading.Recup

variable {ν : Type}

/-! ## The second of a date -/

/-- The number that some characters of a text write. -/
def nombre (date : Text) (debut longueur : Nat) : Nat :=
  Nat.ofDigitChars 10 ((date.drop debut).take longueur) 0

/-- The second that the text of a date stands for, `yyyy-MM-dd HH:mm:ss.0`. -/
def instantOf (date : Text) : Int :=
  86400 * lenient (nombre date 0 4) (nombre date 5 2) (nombre date 8 2) +
    ((3600 * nombre date 11 2 + 60 * nombre date 14 2 + nombre date 17 2 : Nat) : Int)

theorem nombre_padded {width n : Nat} (positive : 0 < width) (fits : n < 10 ^ width)
    (rest : Text) : nombre (padded width n ++ rest) 0 width = n := by
  rw [nombre, List.drop_zero, List.take_append_of_le_length (length_padded positive fits).ge,
    List.take_of_length_le (length_padded positive fits).le, ofDigitChars_padded]

/-- The characters after a numeral and a separator. -/
theorem nombre_behind {width n : Nat} (positive : 0 < width) (fits : n < 10 ^ width) (c : Char)
    (rest : Text) (debut longueur : Nat) :
    nombre (padded width n ++ c :: rest) (width + 1 + debut) longueur =
      nombre rest debut longueur := by
  have cut : (padded width n ++ c :: rest).drop (width + 1 + debut) = rest.drop debut := by
    have length : (padded width n ++ [c]).length = width + 1 := by
      rw [List.length_append, length_padded positive fits, List.length_singleton]
    rw [← List.drop_drop, ← List.singleton_append, ← List.append_assoc, List.drop_left' length]
  rw [nombre, cut, nombre]

/-- **The text of a date stands for its second**, with a year of four digits. -/
theorem instantOf_text {date : Stamp} (inEra : InEra date.jour) :
    instantOf date.text = date.time := by
  have lower := inEra.1
  have upper := inEra.2
  have month := (civil date.jour).month_le
  have day := ((civil date.jour).day_le).trans (daysInMonth_le _ _)
  have seconde := date.seconde.isLt
  have text : date.text = padded 4 (civil date.jour).year.toNat ++ '-' ::
      (padded 2 (civil date.jour).month ++ '-' :: (padded 2 (civil date.jour).day ++ ' ' ::
        (padded 2 ((date.seconde : Nat) / 3600) ++ ':' ::
          (padded 2 ((date.seconde : Nat) / 60 % 60) ++ ':' ::
            (padded 2 ((date.seconde : Nat) % 60) ++ ['.', '0']))))) := by
    simp only [Stamp.text, formatDay_eq inEra, List.append_assoc, List.cons_append]
  have jour : lenient (civil date.jour).year.toNat (civil date.jour).month
      (civil date.jour).day = date.jour := by
    rw [Int.toNat_of_nonneg (by omega)]
    exact number_civil date.jour
  have years : (civil date.jour).year.toNat < 10 ^ 4 := by omega
  have months : (civil date.jour).month < 10 ^ 2 := by omega
  have days : (civil date.jour).day < 10 ^ 2 := by omega
  have hours : (date.seconde : Nat) / 3600 < 10 ^ 2 := by omega
  have minutes : (date.seconde : Nat) / 60 % 60 < 10 ^ 2 := by omega
  have seconds : (date.seconde : Nat) % 60 < 10 ^ 2 := by omega
  have two : 0 < 2 := by decide
  have four : 0 < 4 := by decide
  rw [instantOf, text, nombre_padded four years, nombre_behind four years _ _ 0,
    nombre_padded two months, nombre_behind four years _ _ 3, nombre_behind two months _ _ 0,
    nombre_padded two days, nombre_behind four years _ _ 6, nombre_behind two months _ _ 3,
    nombre_behind two days _ _ 0, nombre_padded two hours, nombre_behind four years _ _ 9,
    nombre_behind two months _ _ 6, nombre_behind two days _ _ 3, nombre_behind two hours _ _ 0,
    nombre_padded two minutes, nombre_behind four years _ _ 12, nombre_behind two months _ _ 9,
    nombre_behind two days _ _ 6, nombre_behind two hours _ _ 3, nombre_behind two minutes _ _ 0,
    nombre_padded two seconds, jour, Stamp.time]
  omega

/-! ## Volumes as an archive -/

section Volumes

variable [Rendered ν]

/-- A volume as the file of its day. -/
def dayFile (volume : Volume ν) : DayFile instantOf where
  jour := volume.jour
  rows := volume.rows.map entryOf
  clean := by
    intro entry member
    obtain ⟨row, -, rfl⟩ := List.mem_map.mp member
    exact ⟨Rendered.clean row.val, row.date.clean_text⟩
  sorted := by
    refine List.pairwise_map.mpr (volume.sorted.imp_of_mem fun {first second} inFirst inSecond
      before => ?_)
    obtain ⟨isSome, day⟩ := volume.ofDay first inFirst
    obtain ⟨isSome', day'⟩ := volume.ofDay second inSecond
    obtain ⟨i, same⟩ := Option.isSome_iff_exists.mp isSome
    obtain ⟨j, same'⟩ := Option.isSome_iff_exists.mp isSome'
    simp only [Row.before, same, same', decide_eq_true_eq] at before
    simp only [entryOf, same, same', Option.getD_some, instantOf_text (day ▸ volume.inEra),
      instantOf_text (day' ▸ volume.inEra)]
    exact before
  ofDay := by
    intro entry member
    obtain ⟨row, inVolume, rfl⟩ := List.mem_map.mp member
    obtain ⟨-, day⟩ := volume.ofDay row inVolume
    have seconde := row.date.seconde.isLt
    simp only [entryOf, instantOf_text (day ▸ volume.inEra), Stamp.time]
    omega

/-- The text of a volume is the text of its file. -/
theorem cacheFile_dayFile (volume : Volume ν) :
    cacheFile (dayFile volume).rows = csvFile volume.rows := by
  simp only [csvFile, cacheFile, dayFile, List.flatMap_map]
  congr 1
  apply List.flatMap_congr
  intro row inVolume
  obtain ⟨i, same⟩ := Option.isSome_iff_exists.mp (volume.ofDay row inVolume).1
  rw [cells_entryOf same]

/-- Volumes of different days as an archive. -/
def archiveOf (volumes : List (Volume ν)) (distinct : (volumes.map Volume.jour).Nodup) :
    Archive instantOf where
  files := volumes.map dayFile
  distinct := by
    rw [List.map_map]
    exact distinct

/-- A list of the names and contents of the files of a directory, in any order. -/
structure Listing (directory : Directory) (files : Text → Option Text) : Prop where
  distinct : (directory.map Prod.fst).Nodup
  mem : ∀ file : Text × Text, file ∈ directory ↔ files file.1 = some file.2

/-- The directory of the archive lists the files of the volumes. -/
theorem listing_archiveOf {volumes : List (Volume ν)} {files : Text → Option Text}
    (ranges : Ranges volumes files) :
    Listing (archiveOf volumes ranges.distinct).directory files where
  distinct := by
    have names : (archiveOf volumes ranges.distinct).directory.map Prod.fst =
        (volumes.map Volume.jour).map fileName := by
      simp only [archiveOf, Archive.directory, List.map_map]
      rfl
    rw [names]
    refine ranges.distinct.map_on fun jour inDays jour' inDays' same => ?_
    obtain ⟨volume, -, rfl⟩ := List.mem_map.mp inDays
    obtain ⟨volume', -, rfl⟩ := List.mem_map.mp inDays'
    exact fileName_injective volume.inEra volume'.inEra same
  mem := by
    rintro ⟨name, content⟩
    simp only [archiveOf, Archive.directory, List.map_map, List.mem_map, Function.comp_apply,
      cacheFile_dayFile, Prod.mk.injEq]
    constructor
    · rintro ⟨volume, inVolumes, rfl, rfl⟩
      exact ranges.found volume inVolumes
    · intro present
      obtain ⟨volume, inVolumes, rfl⟩ :=
        ranges.only name (by rw [present]; exact Option.some_ne_none _)
      rw [ranges.found volume inVolumes] at present
      exact ⟨volume, inVolumes, rfl, Option.some.inj present⟩

end Volumes

/-- Two listings of one directory have the same files. -/
theorem Listing.perm {directory directory' : Directory} {files : Text → Option Text}
    (listed : Listing directory files) (listed' : Listing directory' files) :
    directory.Perm directory' :=
  (List.perm_ext_iff_of_nodup (List.Nodup.of_map _ listed.distinct)
    (List.Nodup.of_map _ listed'.distinct)).mpr fun file => by rw [listed.mem, listed'.mem]

/-- The files that a pattern finds, in any order. -/
theorem perm_glob (pattern : Text) (directory : Directory) :
    (glob pattern directory).Perm (directory.filter fun file => wildcard pattern file.1) :=
  List.perm_insertionSort _ _

theorem mem_of_mem_glob {pattern : Text} {directory : Directory} {file : Text × Text}
    (member : file ∈ glob pattern directory) : file ∈ directory :=
  (List.mem_filter.mp ((perm_glob pattern directory).mem_iff.mp member)).1

/-- Files are found in the order of their names. -/
theorem sorted_glob (pattern : Text) (directory : Directory) :
    (glob pattern directory).Pairwise fun first second => first.1 ≤ second.1 :=
  have : Std.Total fun first second : Text × Text => first.1 ≤ second.1 :=
    ⟨fun _ _ => le_total _ _⟩
  have : IsTrans (Text × Text) fun first second => first.1 ≤ second.1 := ⟨fun _ _ _ => le_trans⟩
  List.pairwise_insertionSort _ _

/-- The same files are found in two listings, in the same order. -/
theorem glob_listing {directory directory' : Directory} {files : Text → Option Text}
    (listed : Listing directory files) (listed' : Listing directory' files) (pattern : Text) :
    glob pattern directory = glob pattern directory' := by
  have perm : (glob pattern directory).Perm (glob pattern directory') :=
    (perm_glob pattern directory).trans
      (((listed.perm listed').filter _).trans (perm_glob pattern directory').symm)
  refine perm.eq_of_pairwise ?_ (sorted_glob pattern directory) (sorted_glob pattern directory')
  -- files with the same name are the same file
  intro first second inFirst inSecond before after
  have names := le_antisymm before after
  have contents := (listed.mem first).mp (mem_of_mem_glob inFirst)
  rw [names, (listed'.mem second).mp (mem_of_mem_glob inSecond)] at contents
  exact Prod.ext names (Option.some.inj contents).symm

/-- **Every listing of a directory is read alike.** -/
theorem stream_listing {directory directory' : Directory} {files : Text → Option Text}
    (listed : Listing directory files) (listed' : Listing directory' files) (pattern : Text) :
    stream pattern directory = stream pattern directory' := by
  rw [stream, stream, glob_listing listed listed']

/-! ## The live table -/

section LiveTable

variable {V : Type} (value : ν → V)

/-- What the server sends of a row of the recorder. -/
def envoyer (row : Row ν) : IndiceVal V := ⟨value row.val, row.date.text⟩

/-- A numbered row of the recorder as the server reads it. -/
def liveRow (line : Row ν × Nat) : LiveRow V :=
  ⟨line.2, line.1.id, value line.1.val, line.1.date.text⟩

/-- The rows of a live table as the server reads them. -/
def liveOf (rows : List (Row ν)) : List (LiveRow V) := rows.zipIdx.map (liveRow value)

/-- The rows of an identifier. -/
def rowsWithId (ID : Int) (rows : List (Row ν)) : List (Row ν) :=
  rows.filter fun row => decide (row.id = some ID)

theorem rowsOfId_liveOf (ID : Int) (rows : List (Row ν)) :
    rowsOfId ID (liveOf value rows) =
      (rows.zipIdx.filter fun line => decide (line.1.id = some ID)).map (liveRow value) := by
  rw [liveOf, rowsOfId, List.filter_map]
  rfl

theorem map_fst_filter_zipIdx (ID : Int) (rows : List (Row ν)) :
    (rows.zipIdx.filter fun line => decide (line.1.id = some ID)).map Prod.fst =
      rowsWithId ID rows := by
  conv_rhs => rw [rowsWithId, ← List.zipIdx_map_fst 0 rows, List.filter_map]
  rfl

theorem length_rowsOfId_liveOf (ID : Int) (rows : List (Row ν)) :
    (rowsOfId ID (liveOf value rows)).length = (rowsWithId ID rows).length := by
  rw [rowsOfId_liveOf, List.length_map, ← map_fst_filter_zipIdx, List.length_map]

/-- **What the server sends of the live table**: the rows of the identifier, in the order of their
dates. -/
theorem send_byDate_liveOf (ID : Int) {rows : List (Row ν)}
    (years : ∀ row ∈ rows, InEra row.date.jour) :
    ∃ recents : List (Row ν), recents.Perm (rowsWithId ID rows) ∧
      recents.Pairwise (fun first second => first.date.time ≤ second.date.time) ∧
      (byDate instantOf (rowsOfId ID (liveOf value rows))).map LiveRow.send =
        recents.map (envoyer value) := by
  let lines := rows.zipIdx.filter fun line => decide (line.1.id = some ID)
  let earlier : Row ν × Nat → Row ν × Nat → Prop := fun first second =>
    first.1.date.time ≤ second.1.date.time
  have total : Std.Total earlier := ⟨fun _ _ => le_total _ _⟩
  have transitive : IsTrans (Row ν × Nat) earlier := ⟨fun _ _ _ => le_trans⟩
  have dated : ∀ line ∈ lines, instantOf (liveRow value line).date = line.1.date.time := by
    intro line member
    have inRows : line.1 ∈ rows := by
      rw [← List.zipIdx_map_fst 0 rows]
      exact List.mem_map_of_mem (List.mem_filter.mp member).1
    exact instantOf_text (years line.1 inRows)
  have sorted : byDate instantOf (rowsOfId ID (liveOf value rows)) =
      (lines.insertionSort earlier).map (liveRow value) := by
    rw [rowsOfId_liveOf, byDate, eq_comm]
    refine List.map_insertionSort _ _ (liveRow value) lines fun first inFirst second inSecond => ?_
    rw [dated first inFirst, dated second inSecond]
  refine ⟨(lines.insertionSort earlier).map Prod.fst, ?_, ?_, ?_⟩
  · rw [← map_fst_filter_zipIdx]
    exact (List.perm_insertionSort earlier lines).map Prod.fst
  · exact List.pairwise_map.mpr (List.pairwise_insertionSort earlier lines)
  · rw [sorted, List.map_map, List.map_map]
    rfl

end LiveTable

/-! ## Counts -/

section Counts

/-- The rows of some days are those of the volumes of these days. -/
theorem flatMap_rows_filter (days : Int → Bool) (volumes : List (Volume ν)) :
    (volumes.filter fun volume => days volume.jour).flatMap Volume.rows =
      (volumes.flatMap Volume.rows).filter fun row => days row.date.jour := by
  induction volumes with
  | nil => rfl
  | cons volume volumes ih =>
      rw [List.flatMap_cons, List.filter_append, ← ih, List.filter_cons]
      split
      · rename_i inDays
        have all : volume.rows.filter (fun row => days row.date.jour) = volume.rows :=
          List.filter_eq_self.mpr fun row inVolume => by
            rw [(volume.ofDay row inVolume).2, inDays]
        rw [List.flatMap_cons, all]
      · rename_i outside
        have none : volume.rows.filter (fun row => days row.date.jour) = [] :=
          List.filter_eq_nil_iff.mpr fun row inVolume => by
            rw [(volume.ofDay row inVolume).2]
            exact outside
        rw [none, List.nil_append]

variable [Rendered ν]

theorem rowsOf_dayFile (ID : Int) (volume : Volume ν) :
    (dayFile volume).rowsOf ID = (rowsWithId ID volume.rows).map entryOf := by
  rw [DayFile.rowsOf, dayFile, List.filter_map, rowsWithId]
  congr 1
  apply List.filter_congr
  intro row inVolume
  obtain ⟨i, same⟩ := Option.isSome_iff_exists.mp (volume.ofDay row inVolume).1
  simp [entryOf, same]

theorem flatMap_rowsOf_dayFile (ID : Int) (volumes : List (Volume ν)) :
    (volumes.map dayFile).flatMap (DayFile.rowsOf ID) =
      (rowsWithId ID (volumes.flatMap Volume.rows)).map entryOf := by
  rw [List.flatMap_map, rowsWithId, List.filter_flatMap, List.map_flatMap]
  exact List.flatMap_congr fun volume _ => rowsOf_dayFile ID volume

/-- **The rows of an identifier in the files of some days** are those of the volumes. -/
theorem count_archiveOf {volumes : List (Volume ν)} (distinct : (volumes.map Volume.jour).Nodup)
    (ID : Int) (days : Int → Bool) :
    (archiveOf volumes distinct).count ID days =
      (rowsWithId ID
        ((volumes.flatMap Volume.rows).filter fun row => days row.date.jour)).length := by
  have chosen : (volumes.map dayFile).filter (fun file => days file.jour) =
      (volumes.filter fun volume => days volume.jour).map dayFile := by
    rw [List.filter_map]
    rfl
  show (((volumes.map dayFile).filter fun file => days file.jour).flatMap
    (DayFile.rowsOf ID)).length = _
  rw [chosen, flatMap_rowsOf_dayFile, List.length_map, flatMap_rows_filter]

end Counts

/-! ## Reading the files -/

section Files

variable [Rendered ν]

/-- The rows of an identifier in the order in which the files are read. -/
theorem exists_rowsOf_archiveOf {volumes : List (Volume ν)}
    (distinct : (volumes.map Volume.jour).Nodup) (ID : Int) :
    ∃ anciens : List (Row ν), (archiveOf volumes distinct).rowsOf ID = anciens.map entryOf ∧
      anciens.Perm (rowsWithId ID (volumes.flatMap Volume.rows)) ∧
      anciens.Pairwise fun first second => first.date.time ≤ second.date.time := by
  let named : Volume ν → Volume ν → Prop := fun first second =>
    fileName first.jour ≤ fileName second.jour
  have byName : (archiveOf volumes distinct).byName =
      (volumes.insertionSort named).map dayFile :=
    (List.map_insertionSort _ _ dayFile volumes fun _ _ _ _ => Iff.rfl).symm
  have perm : (volumes.insertionSort named).Perm volumes := List.perm_insertionSort named volumes
  have rows : (archiveOf volumes distinct).rowsOf ID =
      (rowsWithId ID ((volumes.insertionSort named).flatMap Volume.rows)).map entryOf := by
    rw [Archive.rowsOf, byName, flatMap_rowsOf_dayFile]
  refine ⟨_, rows, (perm.flatMap_right Volume.rows).filter _, ?_⟩
  have years : ∀ file ∈ (archiveOf volumes distinct).files, InEra file.jour := by
    intro file member
    obtain ⟨volume, -, rfl⟩ := List.mem_map.mp member
    exact volume.inEra
  have ordered := (Archive.chronological years).rows ID
  rw [rows] at ordered
  refine (List.pairwise_map.mp ordered).imp_of_mem fun {first second} inFirst inSecond before => ?_
  have dated : ∀ row ∈ rowsWithId ID ((volumes.insertionSort named).flatMap Volume.rows),
      instantOf row.date.text = row.date.time := by
    intro row member
    obtain ⟨volume, -, inVolume⟩ := List.mem_flatMap.mp (List.mem_filter.mp member).1
    exact instantOf_text ((volume.ofDay row inVolume).2 ▸ volume.inEra)
  rwa [← dated first inFirst, ← dated second inSecond]

variable {V : Type} {value : ν → V} {parseDouble : Text → Option V}

/-- The line of a row is read back. -/
theorem readLine_entryOf (numerals : ∀ val, parseDouble (Rendered.text val) = some (value val))
    (row : Row ν) : readLine parseDouble (entryOf row).body = some (envoyer value row) := by
  have dated : (entryOf row).date ≠ [] := by
    simp [entryOf, Stamp.text]
  have clean : Clean (entryOf row).val ∧ Clean (entryOf row).date :=
    ⟨Rendered.clean row.val, row.date.clean_text⟩
  rw [readLine_body parseDouble clean dated]
  simp only [entryOf, numerals, Option.map_some, envoyer]

theorem mapM_readLine (numerals : ∀ val, parseDouble (Rendered.text val) = some (value val))
    (rows : List (Row ν)) :
    ((rows.map entryOf).map Entry.body).mapM (readLine parseDouble) =
      some (rows.map (envoyer value)) := by
  induction rows with
  | nil => rfl
  | cons row rows ih =>
      simp only [List.map_cons, List.mapM_cons, readLine_entryOf numerals, ih, Option.bind_eq_bind,
        Option.bind_some, Option.pure_def]

/-- **What the file stage sends**: a sample of the rows of the identifier in the files of the
pattern, in the order of their dates. -/
theorem filesVals_listing (numerals : ∀ val, parseDouble (Rendered.text val) = some (value val))
    {volumes : List (Volume ν)} {files : Text → Option Text} (ranges : Ranges volumes files)
    {directory : Directory} (listed : Listing directory files) (ID : Int) (pattern : Text)
    (fits : (rowsWithId ID ((volumes.flatMap Volume.rows).filter fun row =>
      wildcard pattern (fileName row.date.jour))).length ≤ 2147483647) :
    ∃ anciens montres : List (Row ν),
      anciens.Perm (rowsWithId ID ((volumes.flatMap Volume.rows).filter fun row =>
        wildcard pattern (fileName row.date.jour))) ∧
      anciens.Pairwise (fun first second => first.date.time ≤ second.date.time) ∧
      Sed.Sampled (anciens.length / 2001) anciens montres ∧
      filesVals parseDouble ID pattern directory = some (montres.map (envoyer value)) := by
  let chosen := volumes.filter fun volume => wildcard pattern (fileName volume.jour)
  have distinct : (chosen.map Volume.jour).Nodup :=
    ranges.distinct.sublist (List.filter_sublist.map Volume.jour)
  obtain ⟨anciens, rows, perm, sorted⟩ := exists_rowsOf_archiveOf distinct ID
  have matching : (archiveOf volumes ranges.distinct).matching pattern =
      archiveOf chosen distinct := by
    simp only [Archive.matching, archiveOf, List.filter_map]
    rfl
  have read : stream pattern directory =
      stream "*.csv".toList (archiveOf chosen distinct).directory := by
    rw [stream_listing listed (listing_archiveOf ranges), stream_matching, matching]
  rw [flatMap_rows_filter fun jour => wildcard pattern (fileName jour)] at perm
  have counted : getCount ID pattern directory = some (natText anciens.length) := by
    have whole := getCount_archive ID (archiveOf chosen distinct)
    rw [rows, List.length_map] at whole
    rw [← whole, getCount, getCount, run, run, commande, commande]
    simp only [read]
  have few : anciens.length ≤ 2147483647 := by
    rw [perm.length_eq]
    exact fits
  obtain ⟨outputs, sampled, lines⟩ :=
    readLines_script ID (anciens.length / 2001) (archiveOf chosen distinct)
  rw [rows] at sampled
  obtain ⟨montres, rfl, sampledRows⟩ := sampled.of_map
  refine ⟨anciens, montres, perm, sorted, sampledRows, ?_⟩
  rw [filesVals, getParam_eq few counted]
  rw [run, commande, ← read] at lines
  simp only [Option.bind_eq_bind, Option.bind_some, getIndicesComm, run, commande, lines]
  exact mapM_readLine numerals montres

end Files

/-! ## Integer columns -/

theorem unsignedDecimal_natText (n : Nat) : unsignedDecimal (natText n) = some (n : ℚ) := by
  have noDot : '.' ∉ natText n := by
    intro member
    have digit := isDigit_of_mem_natText member
    revert digit
    decide
  rw [unsignedDecimal, List.splitOn_eq_singleton noDot]
  simp only [digitsValue_natText]
  rfl

/-- The text of an integer column is read back. -/
theorem parseDecimal_text (i : Int) : parseDecimal (Rendered.text i) = some (i : ℚ) := by
  have unsigned : ∀ c ∈ (natText i.natAbs).head?, c ≠ '-' ∧ c ≠ '+' := fun c first =>
    not_sign (.inl (isDigit_of_mem_natText (List.mem_of_mem_head? first)))
  have size : ((i.natAbs : Nat) : ℚ) = ((i.natAbs : Int) : ℚ) := (Int.cast_natCast _).symm
  show parseDecimal (intText i) = _
  rcases lt_or_ge i 0 with negative | positive
  · have read : parseDecimal ('-' :: natText i.natAbs) = some (-((i.natAbs : Nat) : ℚ)) := by
      show (unsignedDecimal (natText i.natAbs)).map (fun q => -q) = _
      rw [unsignedDecimal_natText, Option.map_some]
    rw [intText, if_pos negative, read, size, ← Int.cast_neg,
      show -((i.natAbs : Nat) : Int) = i by omega]
  · rw [intText, if_neg (not_lt.mpr positive), parseDecimal_unsigned unsigned,
      unsignedDecimal_natText, size, show ((i.natAbs : Nat) : Int) = i by omega]

end Trading.Dao
