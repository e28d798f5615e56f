import Trading.Dao.SplitReads

/-!
# Values read from an open file

A request for the values of an instrument that overlaps a call of `write` may find a file whose text
ends anywhere. `getIndicesComm` reads the cut line like any other: it takes the second and the third
field, and there may be no third one, so that the request throws; or the third one is a part of the
date, which is then sent.

`read_rows` says what is read of the first characters of some lines (`lus`), by recursion on the
rows, and `getIndicesCommLu_ouvert` what is read of the directory. `open_file_read_iff` says for
every length of the text when the request throws, and what it sends otherwise.
-/

set_option autoImplicit false

namespace Trading.Dao

open Trading.Calendar Trading.Text Trading.Recup

/-! ## Lines that are read -/

/-- The lines of a file that are printed for an identifier. -/
def imprimees (ID : Int) (content : Text) : List (Text × Bool) :=
  (lignesLues content).filter fun ligne => Sed.matchesLine (address ID) ligne.1

theorem lignesLues_line {line : Text} (oneLine : '\n' ∉ line) (rest : Text) :
    lignesLues (line ++ '\n' :: rest) = (line, true) :: lignesLues rest := by
  have pieces : (line ++ '\n' :: rest).splitOn '\n' = line :: rest.splitOn '\n' :=
    List.splitOn_append_cons_self_of_not_mem oneLine rest
  have ended : endedLines (line ++ '\n' :: rest) = line :: endedLines rest := by
    rw [endedLines, pieces, List.dropLast_cons_of_ne_nil (List.splitOn_ne_nil '\n' rest),
      endedLines]
  have behind : openLine (line ++ '\n' :: rest) = openLine rest := by
    obtain ⟨head, tail, more⟩ := List.exists_cons_of_ne_nil (List.splitOn_ne_nil '\n' rest)
    rw [openLine, pieces, openLine, more, List.getLast?_cons_cons]
  rw [lignesLues, ended, behind, List.map_cons, List.cons_append, lignesLues]

theorem lignesLues_open {piece : Text} (oneLine : '\n' ∉ piece) :
    lignesLues piece = if piece = [] then [] else [(piece, false)] := by
  have alone := List.splitOn_eq_singleton oneLine
  rw [lignesLues, endedLines, openLine, alone]
  rfl

/-- A line and those behind it. -/
theorem imprimees_line (ID : Int) {line : Text} (oneLine : '\n' ∉ line) (rest : Text) :
    imprimees ID (line ++ '\n' :: rest) =
      if Sed.matchesLine (address ID) line = true then (line, true) :: imprimees ID rest
      else imprimees ID rest := by
  rw [imprimees, lignesLues_line oneLine, List.filter_cons]
  rfl

/-- A line that is not ended. -/
theorem imprimees_open (ID : Int) {piece : Text} (oneLine : '\n' ∉ piece) :
    imprimees ID piece =
      if Sed.matchesLine (address ID) piece = true then [(piece, false)] else [] := by
  by_cases empty : piece = []
  · have noHit : Sed.matchesLine (address ID) [] = false := by
      rw [matchesLine_address, decide_eq_false_iff_not, List.prefix_nil]
      exact List.append_ne_nil_of_right_ne_nil _ (List.cons_ne_nil _ _)
    rw [empty, noHit]
    rfl
  · rw [imprimees, lignesLues_open oneLine, if_neg empty, List.filter_cons]
    rfl

/-- A printed line that is ended is read without its end. -/
theorem readLines_ended {body : Text} (noReturn : '\r' ∉ body) (noNewline : '\n' ∉ body)
    (later : List (Text × Bool)) :
    readLines [] (sortie ((body ++ ['\r'], true) :: later)) =
      body :: readLines [] (sortie later) := by
  rw [sortie_ended, List.append_assoc, readLines_append [] body _ noReturn noNewline,
    List.singleton_append, List.nil_append, readLines]

/-- A printed line that is cut is read as far as it goes. -/
theorem readLines_cut {body : Text} (noReturn : '\r' ∉ body) (noNewline : '\n' ∉ body)
    {atteint : Nat} (some : (body ++ ['\r']).take atteint ≠ []) :
    readLines [] (sortie [((body ++ ['\r']).take atteint, false)]) = [body.take atteint] := by
  have printed : sortie [((body ++ ['\r']).take atteint, false)] =
      (body ++ ['\r']).take atteint := by
    simp [sortie]
  rw [printed]
  rcases Nat.lt_or_ge body.length atteint with whole | within
  · have all : (body ++ ['\r']).take atteint = body ++ ['\r'] := by
      apply List.take_of_length_le
      rw [List.length_append, List.length_singleton]
      omega
    rw [all, readLines_append [] body _ noReturn noNewline, List.nil_append,
      List.take_of_length_le (by omega)]
    rfl
  · have part : (body ++ ['\r']).take atteint = body.take atteint :=
      List.take_append_of_le_length within
    rw [part] at some ⊢
    have clean : ∀ c : Char, c ∉ body → c ∉ body.take atteint := fun c outside member =>
      outside (List.mem_of_mem_take member)
    have read := readLines_append [] (body.take atteint) [] (clean _ noReturn) (clean _ noNewline)
    rw [List.append_nil, List.nil_append] at read
    rw [read, readLines, if_neg some]

/-! ## A line that is cut -/

variable {V : Type}

/-- A line with fewer than three fields cannot be read. -/
theorem readLine_of_short (parseDouble : Text → Option V) {line : Text}
    (short : (fields ';' line).length ≤ 2) : readLine parseDouble line = none := by
  have noDate : (fields ';' line)[2]? = none := List.getElem?_eq_none short
  simp only [readLine, noDate, Option.bind_eq_bind, Option.bind_none, Option.bind_fun_none]

theorem readLine_of_fields (parseDouble : Text → Option V) {line id val date : Text}
    (cut : fields ';' line = [id, val, date]) :
    readLine parseDouble line = (parseDouble val).map fun v => ⟨v, date⟩ := by
  simp only [readLine, cut, List.getElem?_cons_succ, List.getElem?_cons_zero, Option.bind_eq_bind,
    Option.bind_some]
  cases parseDouble val <;> rfl

section Cut

variable {id val date : Text}

/-- The fields of a line behind its first separator. -/
theorem fields_cons (clean : ';' ∉ id) (rest : Text) :
    fields ';' (id ++ ';' :: rest) =
      (id :: rest.splitOn ';').rdropWhile fun field => decide (field = []) := by
  have separated : ';' ∈ id ++ ';' :: rest := by simp
  rw [fields, if_pos separated, List.splitOn_append_cons_self_of_not_mem clean]

/-- **A line that is cut within its value, or at the end of it, cannot be read.** -/
theorem readLine_cut_val (parseDouble : Text → Option V) (cleanId : ';' ∉ id) (cleanVal : ';' ∉ val)
    {m : Nat} (short : m ≤ val.length + 1) :
    readLine parseDouble (id ++ ';' :: (val ++ ';' :: (date ++ [';'])).take m) = none := by
  apply readLine_of_short
  rw [fields_cons cleanId]
  rcases Nat.lt_or_ge val.length m with whole | within
  · obtain rfl : m = val.length + 1 := by omega
    have part : (val ++ ';' :: (date ++ [';'])).take (val.length + 1) = val ++ [';'] := by
      rw [List.take_length_add_append]
      rfl
    rw [part, List.splitOn_append_cons_self_of_not_mem cleanVal, List.splitOn_nil]
    have dropped := List.rdropWhile_concat_pos (fun field : Text => decide (field = []))
      [id, val] [] (by simp)
    simp only [List.cons_append, List.nil_append] at dropped
    rw [dropped]
    exact (List.rdropWhile_prefix _ _).length_le
  · have part : (val ++ ';' :: (date ++ [';'])).take m = val.take m :=
      List.take_append_of_le_length within
    have noSeparator : ';' ∉ val.take m := fun member => cleanVal (List.mem_of_mem_take member)
    rw [part, List.splitOn_eq_singleton noSeparator]
    exact (List.rdropWhile_prefix _ _).length_le

/-- **A line that is cut within its date is read with the part of the date that is there.** -/
theorem readLine_cut_date (parseDouble : Text → Option V) (cleanId : ';' ∉ id)
    (cleanVal : ';' ∉ val) (cleanDate : ';' ∉ date) (dated : date ≠ []) {m : Nat}
    (long : 0 < m) :
    readLine parseDouble (id ++ ';' :: (val ++ ';' :: (date ++ [';']).take m)) =
      (parseDouble val).map fun v => ⟨v, date.take m⟩ := by
  have nonempty : date.take m ≠ [] := by
    rw [Ne, List.take_eq_nil_iff]
    rintro (none | empty)
    · omega
    · exact dated empty
  have noSeparator : ';' ∉ date.take m := fun member => cleanDate (List.mem_of_mem_take member)
  have kept : [id, val, date.take m].rdropWhile (fun field => decide (field = [])) =
      [id, val, date.take m] :=
    List.rdropWhile_concat_neg _ [id, val] (date.take m) (by simpa using nonempty)
  apply readLine_of_fields
  rw [fields_cons cleanId, List.splitOn_append_cons_self_of_not_mem cleanVal]
  rcases Nat.lt_or_ge date.length m with whole | within
  · have all : date.take m = date := List.take_of_length_le (by omega)
    have part : (date ++ [';']).take m = date ++ [';'] := by
      apply List.take_of_length_le
      rw [List.length_append, List.length_singleton]
      omega
    rw [part, List.splitOn_append_cons_self_of_not_mem cleanDate, List.splitOn_nil]
    have dropped := List.rdropWhile_concat_pos (fun field : Text => decide (field = []))
      [id, val, date] [] (by simp)
    simp only [List.cons_append, List.nil_append] at dropped
    rw [all] at kept ⊢
    rw [dropped, kept]
  · have part : (date ++ [';']).take m = date.take m := List.take_append_of_le_length within
    rw [part, List.splitOn_eq_singleton noSeparator, kept]

end Cut

/-! ## The rows of an open file -/

variable {ν : Type} [Rendered ν]

/-- The line of a row without its end. -/
def corps (row : Row ν) : Text :=
  idText row.id ++ ';' :: (Rendered.text row.val ++ ';' :: (row.date.text ++ [';']))

/-- Where the date begins in the line of a row. -/
def debutDate (row : Row ν) : Nat :=
  (idText row.id).length + 1 + ((Rendered.text row.val).length + 1)

theorem record_cells (row : Row ν) : record row.cells = corps row ++ ['\r'] := by
  simp [record, Row.cells, corps]

theorem not_mem_corps (row : Row ν) {c : Char} (lineEnd : c = '\r' ∨ c = '\n') : c ∉ corps row := by
  have outside : ∀ {text : Text}, Clean text → c ∉ text := by
    intro text clean member
    obtain ⟨-, noReturn, noNewline⟩ := clean c member
    rcases lineEnd with isReturn | isNewline
    · exact noReturn isReturn
    · exact noNewline isNewline
  have noSeparator : c ≠ ';' := by
    rcases lineEnd with rfl | rfl <;> decide
  simp only [corps, List.mem_append, List.mem_cons, List.not_mem_nil, or_false, not_or]
  exact ⟨outside (clean_idText _), noSeparator, outside (Rendered.clean _), noSeparator,
    outside row.date.clean_text, noSeparator⟩

/-- The beginning of a line matches when it is of the identifier and goes beyond it. -/
theorem matchesLine_cut (ID : Int) (row : Row ν) (atteint : Nat) :
    Sed.matchesLine (address ID) ((record row.cells).take atteint) =
      decide (row.id = some ID ∧ (idText row.id).length < atteint) := by
  rw [matchesLine_address, decide_eq_decide, List.prefix_take_iff, prefix_record_iff,
    List.length_append, List.length_singleton]
  constructor
  · rintro ⟨same, long⟩
    rw [same]
    exact ⟨rfl, long⟩
  · rintro ⟨same, long⟩
    rw [same] at long
    exact ⟨same, long⟩

section Read

variable {parseDouble : Text → Option V} {value : ν → V}

/-- What is read of the line of a row that is cut behind its identifier. -/
theorem readLine_cut (numerals : ∀ val, parseDouble (Rendered.text val) = some (value val))
    (row : Row ν) {atteint : Nat} (begun : (idText row.id).length < atteint) :
    readLine parseDouble ((corps row).take atteint) =
      if atteint ≤ debutDate row then none
      else some ⟨value row.val, row.date.text.take (atteint - debutDate row)⟩ := by
  have noSeparator : ∀ {text : Text}, Clean text → ';' ∉ text := fun clean member =>
    (clean ';' member).1 rfl
  have cleanId := noSeparator (clean_idText row.id)
  have cleanVal := noSeparator (Rendered.clean row.val)
  obtain ⟨m, rfl⟩ : ∃ m, atteint = (idText row.id).length + (m + 1) :=
    ⟨atteint - (idText row.id).length - 1, by omega⟩
  rw [corps, List.take_length_add_append, List.take_succ_cons]
  split
  · rename_i short
    exact readLine_cut_val parseDouble cleanId cleanVal (by rw [debutDate] at short; omega)
  · rename_i long
    obtain ⟨m, rfl⟩ : ∃ k, m = (Rendered.text row.val).length + (k + 1) :=
      ⟨m - (Rendered.text row.val).length - 1, by rw [debutDate] at long; omega⟩
    have dated : row.date.text ≠ [] := by simp [Stamp.text]
    have positive : 0 < m := by
      rw [debutDate] at long
      omega
    rw [List.take_length_add_append, List.take_succ_cons,
      readLine_cut_date parseDouble cleanId cleanVal (noSeparator row.date.clean_text) dated
        positive, numerals]
    have behind : (idText row.id).length + ((Rendered.text row.val).length + (m + 1) + 1) -
        debutDate row = m := by
      rw [debutDate]
      omega
    rw [behind]
    rfl

variable (value) in
/-- What is read for an identifier of the first characters of the lines of rows. -/
def lus (ID : Int) : List (Row ν) → Nat → Option (List (IndiceVal V))
  | [], _ => some []
  | row :: rows, atteint =>
      if (csvLine row.cells).length ≤ atteint then
        let suite := lus ID rows (atteint - (csvLine row.cells).length)
        if row.id = some ID then suite.map (envoyer value row :: ·) else suite
      else if row.id = some ID ∧ (idText row.id).length < atteint then
        if atteint ≤ debutDate row then none
        else some [⟨value row.val, row.date.text.take (atteint - debutDate row)⟩]
      else some []

/-- The line of a row that is complete is read back. -/
theorem readLine_corps (numerals : ∀ val, parseDouble (Rendered.text val) = some (value val))
    (row : Row ν) : readLine parseDouble (corps row) = some (envoyer value row) := by
  have long : (corps row).length = debutDate row + (row.date.text.length + 1) := by
    simp only [corps, debutDate, List.length_append, List.length_cons, List.length_nil]
    omega
  have whole := readLine_cut numerals row (show (idText row.id).length < (corps row).length by
    rw [long, debutDate]
    omega)
  rw [List.take_length, if_neg (by omega), List.take_of_length_le (by omega)] at whole
  exact whole

/-- **What is read of the lines of rows of which only the first characters are there.** -/
theorem read_rows (numerals : ∀ val, parseDouble (Rendered.text val) = some (value val)) (ID : Int)
    (rows : List (Row ν)) (atteint : Nat) :
    (readLines [] (sortie (imprimees ID
        ((rows.flatMap fun row => csvLine row.cells).take atteint)))).mapM (readLine parseDouble) =
      lus value ID rows atteint := by
  induction rows generalizing atteint with
  | nil =>
      rw [List.flatMap_nil, List.take_nil]
      rfl
  | cons row rows ih =>
      have oneLine : '\n' ∉ record row.cells := newline_not_mem_record row.clean_cells
      have noReturn : '\r' ∉ corps row := not_mem_corps row (.inl rfl)
      have noNewline : '\n' ∉ corps row := not_mem_corps row (.inr rfl)
      have long : (csvLine row.cells).length = (record row.cells).length + 1 := by
        rw [csvLine_eq, List.length_append, List.length_singleton]
      rw [List.flatMap_cons, lus]
      by_cases complete : (csvLine row.cells).length ≤ atteint
      · -- the line is there, and what is behind it is read as before
        rw [List.take_append, List.take_of_length_le complete, csvLine_eq, List.append_assoc,
          List.singleton_append, imprimees_line ID oneLine, matchesLine_record, ← csvLine_eq,
          if_pos complete]
        by_cases same : row.id = some ID
        · simp only [same, decide_true, ↓reduceIte]
          rw [record_cells, readLines_ended noReturn noNewline, List.mapM_cons,
            readLine_corps numerals, ih]
          cases lus value ID rows (atteint - (csvLine row.cells).length) <;> rfl
        · simp only [same, decide_false, Bool.false_eq_true, ↓reduceIte]
          exact ih _
      · -- the text ends within the line
        have within : atteint ≤ (record row.cells).length := by omega
        rw [csvLine_eq, List.append_assoc, List.take_append_of_le_length within,
          imprimees_open ID fun member => oneLine (List.mem_of_mem_take member), matchesLine_cut,
          ← csvLine_eq, if_neg complete]
        by_cases begun : row.id = some ID ∧ (idText row.id).length < atteint
        · have nonempty : (corps row ++ ['\r']).take atteint ≠ [] := by
            rw [Ne, List.take_eq_nil_iff]
            rintro (none | empty)
            · omega
            · exact List.append_ne_nil_of_right_ne_nil _ (List.cons_ne_nil _ _) empty
          rw [decide_eq_true begun, if_pos rfl, if_pos begun, record_cells,
            readLines_cut noReturn noNewline nonempty, List.mapM_cons,
            readLine_cut numerals row begun.2]
          split <;> rfl
        · rw [decide_eq_false begun, if_neg Bool.false_ne_true, if_neg begun]
          rfl

end Read

/-! ## A directory with an open file -/

/-- `getIndicesComm` with the script that prints every line of an identifier, for a directory whose
files may end within a line. -/
def getIndicesCommLu (parseDouble : Text → Option V) (ID : Int) (pattern : Text)
    (directory : Directory) : Option (List (IndiceVal V)) :=
  (readLines [] (sortie (affichees ID (glob pattern directory)))).mapM (readLine parseDouble)

/-- The output for complete files is that of the command. -/
theorem sortie_complete (ID : Int) (pattern : Text) {directory : Directory}
    (complete : ∀ file ∈ directory, openLine file.2 = []) :
    sortie (affichees ID (glob pattern directory)) =
      run (commande ID ['{', 'p', ';', '}'] pattern) directory := by
  have sameScript : Sed.parse "p".toList = Sed.parse ['{', 'p', ';', '}'] := by decide
  rw [sortie_of_ended (affichees_ended ID pattern complete), affichees_lines, Sed.run, sameScript]
  rfl

/-- **On complete files the values are those of `getIndicesComm`.** -/
theorem getIndicesCommLu_complete (parseDouble : Text → Option V) (ID : Int) (pattern : Text)
    {directory : Directory} (complete : ∀ file ∈ directory, openLine file.2 = []) :
    getIndicesCommLu parseDouble ID pattern directory =
      getIndicesComm parseDouble (commande ID ['{', 'p', ';', '}'] pattern) directory := by
  rw [getIndicesCommLu, sortie_complete ID pattern complete]
  rfl

/-- A file whose name comes behind those of the others is found last. -/
theorem glob_last {pattern name content : Text} {directory : Directory}
    (distinct : (((name, content) :: directory).map Prod.fst).Nodup)
    (last : ∀ file ∈ directory, file.1 ≤ name) (found : wildcard pattern name = true) :
    glob pattern ((name, content) :: directory) = glob pattern directory ++ [(name, content)] := by
  have perm : (glob pattern ((name, content) :: directory)).Perm
      (glob pattern directory ++ [(name, content)]) := by
    have whole := perm_glob pattern ((name, content) :: directory)
    rw [List.filter_cons_of_pos (by exact found)] at whole
    exact whole.trans ((List.perm_append_singleton _ _).symm.trans
      ((perm_glob pattern directory).symm.append_right _))
  have sorted : (glob pattern directory ++ [(name, content)]).Pairwise fun first second =>
      first.1 ≤ second.1 := by
    refine List.pairwise_append.mpr ⟨sorted_glob pattern directory, List.pairwise_singleton _ _, ?_⟩
    intro first inGlob second isNew
    rw [List.mem_singleton.mp isNew]
    exact last first (mem_of_mem_glob inGlob)
  refine perm.eq_of_pairwise ?_ (sorted_glob pattern _) sorted
  intro first second inFirst inSecond before after
  exact List.inj_on_of_nodup_map distinct (mem_of_mem_glob inFirst)
    (mem_of_mem_glob (perm.mem_iff.mpr inSecond)) (le_antisymm before after)

/-- Lines that are complete are read one after the other. -/
theorem readLines_bodies {bodies : List Text}
    (clean : ∀ body ∈ bodies, '\r' ∉ body ∧ '\n' ∉ body) (later : List (Text × Bool)) :
    readLines [] (sortie ((bodies.map fun body => (body ++ ['\r'], true)) ++ later)) =
      bodies ++ readLines [] (sortie later) := by
  induction bodies with
  | nil => rfl
  | cons body bodies ih =>
      obtain ⟨noReturn, noNewline⟩ := clean body List.mem_cons_self
      rw [List.map_cons, List.cons_append, readLines_ended noReturn noNewline,
        ih fun other member => clean other (List.mem_cons_of_mem _ member), List.cons_append]

theorem affichees_append (ID : Int) (files : Directory) (name content : Text) :
    affichees ID (files ++ [(name, content)]) = affichees ID files ++ imprimees ID content := by
  simp only [affichees, imprimees, List.flatMap_append, List.flatMap_singleton, List.filter_append]

section OpenFile

variable {volumes : List (Volume ν)} {files : Text → Option Text}

/-- The lines that are printed for the files of earlier days. -/
theorem affichees_earlier (ranges : Ranges volumes files) {before : Directory}
    (listed : Listing before files) (complete : ∀ file ∈ before, openLine file.2 = [])
    (ID : Int) :
    ∃ anciens : List (Row ν), anciens.Perm (rowsWithId ID (volumes.flatMap Volume.rows)) ∧
      anciens.Pairwise (fun first second => first.date.time ≤ second.date.time) ∧
      affichees ID (glob "*.csv".toList before) =
        ((anciens.map entryOf).map Entry.body).map fun body => (body ++ ['\r'], true) := by
  obtain ⟨anciens, rows, perm, sorted⟩ := exists_rowsOf_archiveOf ranges.distinct ID
  refine ⟨anciens, perm, sorted, ?_⟩
  have texts : (affichees ID (glob "*.csv".toList before)).map Prod.fst =
      ((anciens.map entryOf).map Entry.body).map fun body => body ++ ['\r'] := by
    rw [affichees_lines, stream_listing listed (listing_archiveOf ranges), run_p, rows]
    simp only [List.map_map, Function.comp_def, line_eq_body]
  have marked : affichees ID (glob "*.csv".toList before) =
      ((affichees ID (glob "*.csv".toList before)).map Prod.fst).map fun text => (text, true) := by
    rw [List.map_map]
    refine (List.map_id _).symm.trans (List.map_congr_left fun ligne member => ?_)
    exact Prod.ext rfl (affichees_ended ID "*.csv".toList complete ligne member)
  rw [marked, texts, List.map_map]
  rfl

theorem lus_zero (value : ν → V) (ID : Int) (rows : List (Row ν)) :
    lus value ID rows 0 = some [] := by
  cases rows with
  | nil => rfl
  | cons row rows =>
      have long : ¬ (csvLine row.cells).length ≤ 0 := by
        rw [csvLine_eq, List.length_append, List.length_singleton]
        omega
      rw [lus, if_neg long, if_neg fun begun => Nat.not_lt_zero _ begun.2]

/-- What is read of a file of which only the first characters are there. -/
theorem read_file {parseDouble : Text → Option V} {value : ν → V}
    (numerals : ∀ val, parseDouble (Rendered.text val) = some (value val)) (ID : Int)
    (rows : List (Row ν)) (atteint : Nat) :
    (readLines [] (sortie (imprimees ID ((csvFile rows).take atteint)))).mapM
        (readLine parseDouble) =
      lus value ID rows (atteint - (csvLine labels).length) := by
  have oneLine : '\n' ∉ record labels := newline_not_mem_record clean_labels
  have label : ¬ (intText ID ++ [';']) <+: record labels := by
    have noHit : Sed.matchesLine (address ID) (record labels) = false := matchesLine_line ID none
    rwa [matchesLine_address, decide_eq_false_iff_not] at noHit
  by_cases complete : (csvLine labels).length ≤ atteint
  · rw [csvFile, List.take_append, List.take_of_length_le complete, csvLine_eq, List.append_assoc,
      List.singleton_append, imprimees_line ID oneLine, matchesLine_address,
      decide_eq_false label, if_neg Bool.false_ne_true, ← csvLine_eq]
    exact read_rows numerals ID rows _
  · have within : atteint ≤ (record labels).length := by
      rw [csvLine_eq, List.length_append, List.length_singleton] at complete
      omega
    have noHit : ¬ (intText ID ++ [';']) <+: (record labels).take atteint := fun begins =>
      label (begins.trans (List.take_prefix _ _))
    rw [csvFile, csvLine_eq, List.append_assoc, List.take_append_of_le_length within,
      imprimees_open ID fun member => oneLine (List.mem_of_mem_take member), matchesLine_address,
      decide_eq_false noHit, if_neg Bool.false_ne_true, ← csvLine_eq,
      Nat.sub_eq_zero_of_le (by omega), lus_zero]
    rfl

variable {hier ojd : Int} {type bdd : Text} {w : World ν}

/-- **The values that are read while a file is open**: those of earlier days, and what is there of
the new file. -/
theorem getIndicesCommLu_ouvert {parseDouble : Text → Option V} {value : ν → V}
    (numerals : ∀ val, parseDouble (Rendered.text val) = some (value val))
    (ranges : Ranges volumes (w.cache type)) (era : InEra hier)
    (earlier : ∀ volume ∈ volumes, volume.jour < hier) {atteint : Nat} {directory : Directory}
    (listed : Listing directory (((Stade.ouvert atteint).monde hier ojd type bdd w).cache type))
    (ID : Int) :
    ∃ anciens : List (Row ν), anciens.Perm (rowsWithId ID (volumes.flatMap Volume.rows)) ∧
      anciens.Pairwise (fun first second => first.date.time ≤ second.date.time) ∧
      getIndicesCommLu parseDouble ID "*.csv".toList directory =
        (lus value ID (w.db.select type bdd hier ojd) (atteint - (csvLine labels).length)).map
          fun nouveaux => anciens.map (envoyer value) ++ nouveaux := by
  have absent := absent_of_earlier ranges era earlier
  have before := listing_archiveOf ranges
  have earlierFiles : ∀ file ∈ (archiveOf volumes ranges.distinct).directory,
      file.1 ≤ fileName hier ∧ openLine file.2 = [] := fun file member =>
    complete_of_earlier ranges era earlier ((before.mem file).mp member)
  have now : Listing ((fileName hier, (csvFile (w.db.select type bdd hier ojd)).take atteint) ::
      (archiveOf volumes ranges.distinct).directory)
      (((Stade.ouvert atteint).monde hier ojd type bdd w).cache type) :=
    (Stade.ouvert atteint).listing_repertoire absent before
  obtain ⟨anciens, perm, sorted, printed⟩ := affichees_earlier ranges before
    (fun file member => (earlierFiles file member).2) ID
  refine ⟨anciens, perm, sorted, ?_⟩
  have clean : ∀ body ∈ (anciens.map entryOf).map Entry.body, '\r' ∉ body ∧ '\n' ∉ body := by
    intro body member
    obtain ⟨entry, inEntries, rfl⟩ := List.mem_map.mp member
    obtain ⟨row, -, rfl⟩ := List.mem_map.mp inEntries
    have cleanRow : Clean (entryOf row).val ∧ Clean (entryOf row).date :=
      ⟨Rendered.clean row.val, row.date.clean_text⟩
    exact ⟨not_mem_body cleanRow (.inl rfl), not_mem_body cleanRow (.inr rfl)⟩
  rw [getIndicesCommLu, glob_listing listed now, glob_last now.distinct
    (fun file member => (earlierFiles file member).1) (wildcard_fileName hier), affichees_append,
    printed, readLines_bodies clean, List.mapM_append, mapM_readLine numerals,
    read_file numerals]
  cases lus value ID (w.db.select type bdd hier ojd) (atteint - (csvLine labels).length) <;> rfl

end OpenFile

/-! ## When the request fails -/

section Outcome

variable {value : ν → V}

/-- The date of a row begins within its line. -/
theorem debutDate_lt (row : Row ν) : debutDate row < (csvLine row.cells).length := by
  simp only [csvLine_eq, record_cells, corps, debutDate, List.length_append, List.length_cons,
    List.length_nil]
  omega

variable (value) in
/-- What is read of the row whose line is cut, when `reste` characters of the line are there. -/
def dernier (ID : Int) (reste : Nat) : List (Row ν) → List (IndiceVal V)
  | [] => []
  | row :: _ =>
      if row.id = some ID ∧ debutDate row < reste then
        [⟨value row.val, row.date.text.take (reste - debutDate row)⟩]
      else []

/-- A complete line is read for its identifier, and then what is behind it. -/
theorem lus_of_complete {ID : Int} {row : Row ν} {atteint : Nat}
    (complete : (csvLine row.cells).length ≤ atteint) (rows : List (Row ν)) :
    lus value ID (row :: rows) atteint =
      (lus value ID rows (atteint - (csvLine row.cells).length)).map
        ((rowsWithId ID [row]).map (envoyer value) ++ ·) := by
  rw [lus, if_pos complete]
  by_cases same : row.id = some ID
  · rw [if_pos same, rowsWithId, List.filter_cons_of_pos (by simpa using same)]
    rfl
  · rw [if_neg same, rowsWithId, List.filter_cons_of_neg (by simpa using same)]
    exact Option.map_id'.symm

/-- Nothing is read behind a line that is cut, and the read fails when the value is there and the
date is not. -/
theorem lus_of_cut {ID : Int} {row : Row ν} {atteint : Nat}
    (cut : ¬ (csvLine row.cells).length ≤ atteint) (rows : List (Row ν)) :
    lus value ID (row :: rows) atteint =
      if row.id = some ID ∧ (idText row.id).length < atteint ∧ atteint ≤ debutDate row then none
      else some (dernier value ID atteint (row :: rows)) := by
  have behind : (idText row.id).length < debutDate row := by
    rw [debutDate]
    omega
  rw [lus, if_neg cut, dernier]
  by_cases same : row.id = some ID
  · by_cases short : atteint ≤ debutDate row
    · by_cases begun : (idText row.id).length < atteint
      · rw [if_pos ⟨same, begun⟩, if_pos short, if_pos ⟨same, begun, short⟩]
      · rw [if_neg fun both => begun both.2, if_neg fun all => begun all.2.1,
          if_neg fun both => Nat.not_lt.mpr short both.2]
    · rw [if_pos ⟨same, by omega⟩, if_neg short, if_neg fun all => short all.2.2,
        if_pos ⟨same, by omega⟩]
  · rw [if_neg fun both => same both.1, if_neg fun all => same all.1,
      if_neg fun both => same both.1]

/-- **Reading fails exactly when the text ends within the value of a line of the identifier**, or
right behind one of the separators around it. -/
theorem lus_eq_none_iff (ID : Int) (rows : List (Row ν)) (atteint : Nat) :
    lus value ID rows atteint = none ↔
      ∃ avant row apres, rows = avant ++ row :: apres ∧ row.id = some ID ∧
        (avant.flatMap fun row => csvLine row.cells).length + (intText ID).length < atteint ∧
        atteint ≤ (avant.flatMap fun row => csvLine row.cells).length + debutDate row := by
  induction rows generalizing atteint with
  | nil =>
      constructor
      · intro failed
        exact absurd failed (Option.some_ne_none _)
      · rintro ⟨avant, row, apres, split, -⟩
        exact absurd split.symm (List.append_ne_nil_of_right_ne_nil _ (List.cons_ne_nil _ _))
  | cons head rows ih =>
      by_cases complete : (csvLine head.cells).length ≤ atteint
      · -- the failure is behind the first line
        rw [lus_of_complete complete, Option.map_eq_none_iff, ih]
        constructor
        · rintro ⟨avant, row, apres, rfl, same, begun, short⟩
          refine ⟨head :: avant, row, apres, rfl, same, ?_, ?_⟩
          · rw [List.flatMap_cons, List.length_append]
            omega
          · rw [List.flatMap_cons, List.length_append]
            omega
        · rintro ⟨avant, row, apres, split, same, begun, short⟩
          cases avant with
          | nil =>
              obtain ⟨rfl, -⟩ := List.cons.inj split
              have inside := debutDate_lt head
              rw [List.flatMap_nil, List.length_nil] at short
              omega
          | cons first avant =>
              obtain ⟨rfl, rest⟩ := List.cons.inj split
              rw [List.flatMap_cons, List.length_append] at begun short
              exact ⟨avant, row, apres, rest, same, by omega, by omega⟩
      · -- the failure is in the first line
        rw [lus_of_cut complete, ite_eq_left_iff, imp_iff_not (Option.some_ne_none _), not_not]
        constructor
        · rintro ⟨same, begun, short⟩
          rw [same] at begun
          refine ⟨[], head, rows, rfl, same, ?_, ?_⟩
          · rwa [List.flatMap_nil, List.length_nil, Nat.zero_add]
          · rwa [List.flatMap_nil, List.length_nil, Nat.zero_add]
        · rintro ⟨avant, row, apres, split, same, begun, short⟩
          cases avant with
          | nil =>
              obtain ⟨rfl, -⟩ := List.cons.inj split
              rw [List.flatMap_nil, List.length_nil, Nat.zero_add] at begun short
              refine ⟨same, ?_, short⟩
              rw [same]
              exact begun
          | cons first avant =>
              obtain ⟨rfl, -⟩ := List.cons.inj split
              rw [List.flatMap_cons, List.length_append] at begun
              omega

/-- **What is read otherwise** are the rows of the identifier whose lines are complete, and perhaps
the next one with a part of its date. -/
theorem lus_eq_some {ID : Int} {rows : List (Row ν)} {atteint : Nat} {vals : List (IndiceVal V)}
    (read : lus value ID rows atteint = some vals) :
    ∃ avant apres, rows = avant ++ apres ∧
      (avant.flatMap fun row => csvLine row.cells).length ≤ atteint ∧
      (∀ row rest, apres = row :: rest →
        atteint < (avant.flatMap fun row => csvLine row.cells).length +
          (csvLine row.cells).length) ∧
      vals = (rowsWithId ID avant).map (envoyer value) ++
        dernier value ID (atteint - (avant.flatMap fun row => csvLine row.cells).length) apres := by
  induction rows generalizing atteint vals with
  | nil =>
      rw [lus, Option.some_inj] at read
      exact ⟨[], [], rfl, Nat.zero_le _,
        fun _ _ absent => absurd absent.symm (List.cons_ne_nil _ _), read.symm⟩
  | cons head rows ih =>
      by_cases complete : (csvLine head.cells).length ≤ atteint
      · rw [lus_of_complete complete, Option.map_eq_some_iff] at read
        obtain ⟨suite, readLater, rfl⟩ := read
        obtain ⟨avant, apres, rfl, there, cut, rfl⟩ := ih readLater
        have length : ((head :: avant).flatMap fun row => csvLine row.cells).length =
            (csvLine head.cells).length + (avant.flatMap fun row => csvLine row.cells).length := by
          rw [List.flatMap_cons, List.length_append]
        have joined : rowsWithId ID (head :: avant) = rowsWithId ID [head] ++ rowsWithId ID avant :=
          List.filter_append [head] avant
        refine ⟨head :: avant, apres, rfl, by omega, fun row rest split => ?_, ?_⟩
        · have inside := cut row rest split
          omega
        · rw [joined, List.map_append, List.append_assoc, length, Nat.sub_sub]
      · rw [lus_of_cut complete] at read
        refine ⟨[], head :: rows, rfl, Nat.zero_le _, fun row rest split => ?_, ?_⟩
        · obtain ⟨rfl, -⟩ := List.cons.inj split
          rw [List.flatMap_nil, List.length_nil]
          omega
        · split at read
          · exact absurd read.symm (Option.some_ne_none _)
          · exact (Option.some.inj read).symm

variable {volumes : List (Volume ν)} {hier ojd : Int} {type bdd : Text} {w : World ν}
  {parseDouble : Text → Option V}

/-- **Reading values while the file of the day is being written.** A request for the values of all
time, whose script prints every line of the identifier, finds the complete files of earlier days and
the first `atteint` characters of the new file. It throws exactly when these end within a line of
the identifier, behind its first separator and not beyond its second: within the value, or right
before the date. Otherwise it sends the values of earlier days in the order of their dates, then
those of the rows whose lines are complete, and at most one more: the next row of the file, with its
whole value and the part of its date that is there. -/
theorem open_file_read_iff (numerals : ∀ val, parseDouble (Rendered.text val) = some (value val))
    (ranges : Ranges volumes (w.cache type)) (era : InEra hier)
    (earlier : ∀ volume ∈ volumes, volume.jour < hier) (atteint : Nat) {directory : Directory}
    (listed : Listing directory (((Stade.ouvert atteint).monde hier ojd type bdd w).cache type))
    (ID : Int) :
    let rs := w.db.select type bdd hier ojd
    let lu := getIndicesCommLu parseDouble ID "*.csv".toList directory
    (lu = none ↔ ∃ avant row apres, rs = avant ++ row :: apres ∧ row.id = some ID ∧
      (csvFile avant).length + (intText ID).length < atteint ∧
      atteint ≤ (csvFile avant).length + debutDate row) ∧
    ∀ vals, lu = some vals → ∃ anciens avant apres,
      anciens.Perm (rowsWithId ID (volumes.flatMap Volume.rows)) ∧
      anciens.Pairwise (fun first second => first.date.time ≤ second.date.time) ∧
      rs = avant ++ apres ∧ (avant = [] ∨ (csvFile avant).length ≤ atteint) ∧
      (∀ row rest, apres = row :: rest →
        atteint < (csvFile avant).length + (csvLine row.cells).length) ∧
      vals = (anciens ++ rowsWithId ID avant).map (envoyer value) ++
        dernier value ID (atteint - (csvFile avant).length) apres := by
  intro rs lu
  obtain ⟨anciens, perm, sorted, read⟩ :=
    getIndicesCommLu_ouvert numerals ranges era earlier listed ID
  have length : ∀ rows : List (Row ν), (csvFile rows).length =
      (csvLine labels).length + (rows.flatMap fun row => csvLine row.cells).length := fun rows =>
    List.length_append
  constructor
  · simp only [lu, read, Option.map_eq_none_iff, lus_eq_none_iff]
    constructor
    · rintro ⟨avant, row, apres, split, same, begun, short⟩
      exact ⟨avant, row, apres, split, same, by rw [length]; omega, by rw [length]; omega⟩
    · rintro ⟨avant, row, apres, split, same, begun, short⟩
      rw [length] at begun short
      exact ⟨avant, row, apres, split, same, by omega, by omega⟩
  · intro vals sent
    replace sent := read.symm.trans sent
    rw [Option.map_eq_some_iff] at sent
    obtain ⟨nouveaux, readNew, rfl⟩ := sent
    obtain ⟨avant, apres, split, there, cut, rfl⟩ := lus_eq_some readNew
    refine ⟨anciens, avant, apres, perm, sorted, split, ?_, fun row rest next => ?_, ?_⟩
    · cases avant with
      | nil => exact .inl rfl
      | cons first avant =>
          have inside := debutDate_lt first
          rw [List.flatMap_cons, List.length_append] at there
          refine .inr ?_
          rw [length, List.flatMap_cons, List.length_append]
          omega
    · have inside := cut row rest next
      rw [length]
      omega
    · rw [List.map_append, List.append_assoc, length, Nat.sub_sub]

end Outcome

/-- The directory of a first archive run that has written some characters of its file. -/
def sampleOpen (atteint : Nat) : Directory :=
  (Stade.ouvert atteint).repertoire (fileName (sampleDay - 1))
    ((sampleWorld sampleRows).db.select "cfd".toList "indices".toList (sampleDay - 1) sampleDay) []

/-- A request that finds the identifier and the separator of the first line of yesterday throws,
and one that finds a part of its date does not. -/
theorem open_file_read_sample :
    getIndicesCommLu parseDecimal 0 "*.csv".toList
        (sampleOpen ((csvFile ([] : List (Row Int))).length + 2)) = none ∧
      getIndicesCommLu parseDecimal 0 "*.csv".toList
        (sampleOpen ((csvFile ([] : List (Row Int))).length + 12)) ≠ none := by
  have nothing : Listing [] ((sampleWorld sampleRows).cache "cfd".toList) :=
    ⟨List.nodup_nil, fun _ => ⟨fun absent => absurd absent List.not_mem_nil, fun absent => by
      cases absent⟩⟩
  have ranges : Ranges ([] : List (Volume Int)) ((sampleWorld sampleRows).cache "cfd".toList) :=
    ⟨List.nodup_nil, fun _ absent => absurd absent List.not_mem_nil, fun _ absent =>
      absurd rfl absent⟩
  have absent : (sampleWorld sampleRows).cache "cfd".toList (fileName (sampleDay - 1)) = none := rfl
  have listed : ∀ atteint, Listing (sampleOpen atteint)
      (((Stade.ouvert atteint).monde (sampleDay - 1) sampleDay "cfd".toList "indices".toList
        (sampleWorld sampleRows)).cache "cfd".toList) := fun atteint =>
    (Stade.ouvert atteint).listing_repertoire absent nothing
  have condition := fun atteint : Nat =>
    (open_file_read_iff (fun i : Int => parseDecimal_text i) ranges (by decide)
      (fun _ absent => absurd absent List.not_mem_nil) atteint (listed atteint) 0).1
  have selected : (sampleWorld sampleRows).db.select "cfd".toList "indices".toList (sampleDay - 1)
      sampleDay = [sampleRow (some 0) 26155 (sampleDay - 1) 40529] := by decide +kernel
  constructor
  · exact (condition _).mpr ⟨[], sampleRow (some 0) 26155 (sampleDay - 1) 40529, [],
      selected, rfl, by decide +kernel, by decide +kernel⟩
  · refine mt (condition _).mp ?_
    rintro ⟨avant, row, apres, split, -, -, short⟩
    rw [selected] at split
    cases avant with
    | nil =>
        obtain ⟨rfl, -⟩ := List.cons.inj split
        exact absurd short (by decide +kernel)
    | cons first avant =>
        obtain ⟨-, rest⟩ := List.cons.inj split
        exact absurd rest.symm (List.append_ne_nil_of_right_ne_nil _ (List.cons_ne_nil _ _))

end Trading.Dao
