import Trading.Dao.Periods
import Trading.Dao.RoundTrip

/-!
# The answers of the server

The server answers from the cache directory and from the live table. Its two statements on the
live table are here: the rows of an identifier after a date, and every `modulo`-th row of an
identifier in the order of the dates. `getIndicesVals` puts the sampled rows of the files before
those of the table, and `getIndicesTotal` counts the rows in the files and in the table.

A row of the live table has a number, its place in the order of insertions, by which it can be
told from a row with the same columns; no statement reads it. `instant` is the second that the
text of a date stands for.
-/

set_option autoImplicit false

namespace Trading.Dao

open Trading.Text Trading.Recup

/-! ## The live table -/

/-- A row of a value table, as the server reads it. -/
structure LiveRow (V : Type) where
  num : Nat
  id : Option Int
  val : V
  date : Text
  deriving DecidableEq

variable {V : Type}

/-- What is sent of a row. -/
def LiveRow.send (row : LiveRow V) : IndiceVal V := ⟨row.val, row.date⟩

/-- `FROM type WHERE ID=...`. -/
def rowsOfId (ID : Int) (live : List (LiveRow V)) : List (LiveRow V) :=
  live.filter fun row => decide (row.id = some ID)

variable (instant : Text → Int)

/-- `ORDER BY DATE`. -/
def byDate (rows : List (LiveRow V)) : List (LiveRow V) :=
  rows.insertionSort fun first second => instant first.date ≤ instant second.date

/-- The rows of `WHERE ID=... AND DATE>'...' ORDER BY DATE`. -/
def newRows (ID : Int) (DATE : Text) (live : List (LiveRow V)) : List (LiveRow V) :=
  byDate instant
    ((rowsOfId ID live).filter fun row => decide (instant DATE < instant row.date))

def getIndicesNewVals (ID : Int) (DATE : Text) (live : List (LiveRow V)) : List (IndiceVal V) :=
  (newRows instant ID DATE live).map LiveRow.send

/-- The loop of `getModulo`, in which `tmp` is `nb/modulo` at each test. -/
def moduloLoop (nb modulo : Nat) : Nat :=
  if 2000 < nb / modulo then moduloLoop nb (modulo + 1) else modulo
termination_by nb - modulo
decreasing_by
  rcases Nat.lt_or_ge modulo nb with below | above
  · omega
  · have few : nb / modulo ≤ 1 := Nat.div_le_of_le_mul (by omega)
    omega

/-- `SELECT COUNT(*) AS NB`, as a text. -/
def countText (ID : Int) (live : List (LiveRow V)) : Text := natText (rowsOfId ID live).length

def getModulo (ID : Int) (live : List (LiveRow V)) : Option Nat := do
  let nb ← parseInt (countText ID live)
  return moduloLoop nb.toNat 1

/-- The rows whose number, counted from one, is a multiple of `modulo`. -/
def everyNth (modulo : Nat) (rows : List (LiveRow V)) : List (LiveRow V) :=
  ((rows.zipIdx 1).filter fun line => decide (line.2 % modulo = 0)).map Prod.fst

/-- The rows of `ROW_NUMBER() OVER(ORDER BY DATE)` that are kept. -/
def sampledRows (ID : Int) (modulo : Nat) (live : List (LiveRow V)) : List (LiveRow V) :=
  everyNth modulo (byDate instant (rowsOfId ID live))

/-! ## The two answers with files -/

/-- The files of a period. -/
def periodFiles (TIME : Text) (curYear curMonth : Nat) : Text :=
  if TIME = "Year".toList then yearFiles curYear
  else if TIME = "Month".toList then monthFiles curYear curMonth
  else "*.csv".toList

/-- The file stage of `getIndicesVals`. -/
def filesVals (parseDouble : Text → Option V) (ID : Int) (files : Text) (directory : Directory) :
    Option (List (IndiceVal V)) := do
  let param ← getParam ID files directory
  getIndicesComm parseDouble (commande ID param files) directory

/-- `getIndicesVals`. A file stage that throws one of the caught exceptions adds nothing. -/
def getIndicesVals (parseDouble : Text → Option V) (ID : Int) (TIME : Text)
    (curYear curMonth : Nat) (caught : Bool) (directory : Directory) (live : List (LiveRow V)) :
    Option (List (IndiceVal V)) := do
  let indices ←
    if TIME = "Today".toList ∨ caught then some []
    else filesVals parseDouble ID (periodFiles TIME curYear curMonth) directory
  let modulo ← getModulo ID live
  return indices ++ (sampledRows instant ID modulo live).map LiveRow.send

/-- `getIndicesTotal`. The counts of the files are added when none of them throws; `caught` says
which of the three does. -/
def getIndicesTotal (ID : Int) (curYear curMonth : Nat) (caught : Nat → Bool)
    (directory : Directory) (live : List (LiveRow V)) : List (Option Text) :=
  let count (call : Nat) (files : Text) : Option (Option Text) :=
    if caught call then none else some (getCount ID files directory)
  let files : Option (List (Option Text)) := do
    let allTime ← count 0 "*.csv".toList
    let year ← count 1 (yearFiles curYear)
    let month ← count 2 (monthFiles curYear curMonth)
    return [allTime, year, month]
  files.getD [] ++ [some (countText ID live)]

/-! ## Statements on the live table -/

theorem rowsOfId_append (ID : Int) (first second : List (LiveRow V)) :
    rowsOfId ID (first ++ second) = rowsOfId ID first ++ rowsOfId ID second :=
  List.filter_append first second

/-- Rows in the order of their dates stay as they are. -/
theorem byDate_of_sorted {rows : List (LiveRow V)}
    (sorted : rows.Pairwise fun first second => instant first.date ≤ instant second.date) :
    byDate instant rows = rows :=
  sorted.insertionSort_eq

theorem mem_byDate {rows : List (LiveRow V)} {row : LiveRow V} :
    row ∈ byDate instant rows ↔ row ∈ rows := List.mem_insertionSort _

/-- `ORDER BY` orders. -/
theorem sorted_byDate (rows : List (LiveRow V)) :
    (byDate instant rows).Pairwise fun first second => instant first.date ≤ instant second.date :=
  have : Std.Total fun first second : LiveRow V => instant first.date ≤ instant second.date :=
    ⟨fun _ _ => le_total _ _⟩
  have : IsTrans (LiveRow V) fun first second => instant first.date ≤ instant second.date :=
    ⟨fun _ _ _ => le_trans⟩
  List.pairwise_insertionSort _ rows

theorem nodup_byDate {rows : List (LiveRow V)} (distinct : rows.Nodup) :
    (byDate instant rows).Nodup :=
  (List.perm_insertionSort _ rows).nodup_iff.mpr distinct

/-- The rows that are new for a date. -/
theorem mem_newRows {ID : Int} {DATE : Text} {live : List (LiveRow V)} {row : LiveRow V} :
    row ∈ newRows instant ID DATE live ↔
      row ∈ live ∧ row.id = some ID ∧ instant DATE < instant row.date := by
  simp only [newRows, mem_byDate, rowsOfId, List.mem_filter, decide_eq_true_eq, and_assoc]

/-- **The stride of `getModulo`**, for a number of rows that is an `int`. -/
theorem moduloLoop_eq (nb modulo : Nat) (positive : 1 ≤ modulo) (short : modulo ≤ nb / 2001 + 1) :
    moduloLoop nb modulo = nb / 2001 + 1 := by
  rw [moduloLoop]
  split
  · rename_i more
    have within := (tooMany_iff positive).mp more
    exact moduloLoop_eq nb (modulo + 1) (by omega) (by omega)
  · rename_i enough
    have last := mt (tooMany_iff positive).mpr enough
    omega
termination_by nb / 2001 + 1 - modulo

theorem getModulo_eq_some {ID : Int} {live : List (LiveRow V)} {modulo : Nat}
    (computed : getModulo ID live = some modulo) :
    modulo = (rowsOfId ID live).length / 2001 + 1 := by
  simp only [getModulo, countText, parseInt_natText_eq, Option.bind_eq_bind,
    Option.bind_eq_some_iff, Option.pure_def, Option.some.injEq] at computed
  obtain ⟨nb, parsed, rfl⟩ := computed
  split at parsed
  · obtain rfl := Option.some.inj parsed
    exact moduloLoop_eq _ 1 le_rfl (by omega)
  · cases parsed

/-- The parts of `getIndicesVals`: what the file stage adds, and the sampled rows of the table. -/
theorem getIndicesVals_eq_some {parseDouble : Text → Option V} {ID : Int} {TIME : Text}
    {curYear curMonth : Nat} {caught : Bool} {directory : Directory} {live : List (LiveRow V)}
    {indices : List (IndiceVal V)}
    (computed : getIndicesVals instant parseDouble ID TIME curYear curMonth caught directory live =
      some indices) :
    ∃ files modulo,
      (files = [] ∨
        filesVals parseDouble ID (periodFiles TIME curYear curMonth) directory = some files) ∧
      getModulo ID live = some modulo ∧
      indices = files ++ (sampledRows instant ID modulo live).map LiveRow.send := by
  unfold getIndicesVals at computed
  split at computed
  · simp only [Option.bind_eq_bind, Option.bind_some, Option.bind_eq_some_iff, Option.pure_def,
      Option.some.injEq] at computed
    obtain ⟨modulo, stride, rfl⟩ := computed
    exact ⟨[], modulo, .inl rfl, stride, rfl⟩
  · simp only [Option.bind_eq_bind, Option.bind_eq_some_iff, Option.pure_def,
      Option.some.injEq] at computed
    obtain ⟨files, read, modulo, stride, rfl⟩ := computed
    exact ⟨files, modulo, .inr read, stride, rfl⟩

/-! ## The dates of the files -/

variable {instant}

/-- What was read was read from one of the lines. -/
theorem exists_of_mem_mapM {A B : Type} {read : A → Option B} {items : List A} {results : List B}
    (all : items.mapM read = some results) {result : B} (member : result ∈ results) :
    ∃ item ∈ items, read item = some result := by
  induction items generalizing results with
  | nil =>
      obtain rfl := Option.some.inj all
      cases member
  | cons item items ih =>
      simp only [List.mapM_cons, Option.bind_eq_bind, Option.bind_eq_some_iff, Option.pure_def,
        Option.some.injEq] at all
      obtain ⟨first, isFirst, later, areLater, rfl⟩ := all
      rcases List.mem_cons.mp member with rfl | inLater
      · exact ⟨item, List.mem_cons_self, isFirst⟩
      · obtain ⟨other, inItems, isRead⟩ := ih areLater inLater
        exact ⟨other, List.mem_cons_of_mem _ inItems, isRead⟩

/-- **The dates of the file stage are dates of archived rows.** -/
theorem mem_filesVals {parseDouble : Text → Option V} {ID : Int} {files : Text}
    {archive : Archive instant} {series : List (IndiceVal V)}
    (computed : filesVals parseDouble ID files archive.directory = some series)
    {indice : IndiceVal V} (member : indice ∈ series) :
    ∃ row ∈ archive.rowsOf ID, row.date = indice.date := by
  simp only [filesVals, getParam, Option.bind_eq_bind, Option.bind_eq_some_iff, Option.pure_def,
    Option.some.injEq] at computed
  obtain ⟨_, ⟨-, ⟨-, nbLines, -, rfl⟩⟩, read⟩ := computed
  rw [paramLoop_script] at read
  obtain ⟨outputs, sampled, lines⟩ :=
    readLines_script ID (nbLines.toNat / 2001) (archive.matching files)
  rw [run, commande, ← stream_matching] at lines
  rw [getIndicesComm, run, commande, lines] at read
  obtain ⟨line, inLines, isRead⟩ := exists_of_mem_mapM read member
  obtain ⟨row, inOutputs, rfl⟩ := List.mem_map.mp inLines
  have inMatching := sampled.sublist.subset inOutputs
  refine ⟨row, ?_, (date_of_readLine (clean_of_mem_rowsOf inMatching) isRead).symm⟩
  obtain ⟨file, inFiles, inFile⟩ := Archive.mem_rowsOf.mp inMatching
  exact Archive.mem_rowsOf.mpr ⟨file, (List.mem_filter.mp inFiles).1, inFile⟩

/-! ## Sampled rows -/

theorem everyNth_sublist (modulo : Nat) (rows : List (LiveRow V)) :
    (everyNth modulo rows).Sublist rows := by
  have all : (rows.zipIdx 1).map Prod.fst = rows := List.zipIdx_map_fst 1 rows
  have kept := (List.filter_sublist (p := fun line : LiveRow V × Nat =>
    decide (line.2 % modulo = 0)) (l := rows.zipIdx 1)).map Prod.fst
  rwa [all] at kept

/-- Numbers between two multiples are not kept. -/
theorem everyNth_tail {modulo start : Nat} (multiple : start % modulo = 0)
    (rows : List (LiveRow V)) (few : rows.length < modulo) :
    (rows.zipIdx (start + 1)).filter (fun line => decide (line.2 % modulo = 0)) = [] := by
  apply List.filter_eq_nil_iff.mpr
  intro line member
  obtain ⟨lower, upper, -⟩ := List.mem_zipIdx member
  have between : line.2 % modulo = line.2 - start := by
    rw [show line.2 = start + (line.2 - start) by omega, Nat.add_mod, multiple, Nat.zero_add,
      Nat.mod_mod, Nat.mod_eq_of_lt (by omega)]
    omega
  rw [decide_eq_true_eq, between]
  omega

/-- **The last sampled row** is the one before the remainder: the stride divides the number of
rows up to it, and fewer rows than the stride follow it. -/
theorem everyNth_last {modulo : Nat} (positive : 1 ≤ modulo) {rows : List (LiveRow V)}
    (enough : modulo ≤ rows.length) :
    ∃ before last after, rows = before ++ last :: after ∧
      after.length = rows.length % modulo ∧
      (everyNth modulo rows).getLast? = some last := by
  have whole := Nat.div_add_mod rows.length modulo
  have once : 1 ≤ rows.length / modulo := Nat.div_pos enough positive
  have least : modulo ≤ modulo * (rows.length / modulo) := Nat.le_mul_of_pos_right _ once
  have remainder := Nat.mod_lt rows.length positive
  obtain ⟨place, placeDef⟩ : ∃ place, place + 1 = modulo * (rows.length / modulo) :=
    ⟨modulo * (rows.length / modulo) - 1, by omega⟩
  have inRows : place < rows.length := by omega
  refine ⟨rows.take place, rows[place], rows.drop (place + 1), ?_, ?_, ?_⟩
  · rw [List.getElem_cons_drop, List.take_append_drop]
  · rw [List.length_drop]
    omega
  · have split : rows = rows.take place ++ rows[place] :: rows.drop (place + 1) := by
      rw [List.getElem_cons_drop, List.take_append_drop]
    have numbered : rows.zipIdx 1 = (rows.take place).zipIdx 1 ++
        (rows[place], place + 1) :: (rows.drop (place + 1)).zipIdx (place + 1 + 1) := by
      conv_lhs => rw [split]
      rw [List.zipIdx_append, List.zipIdx_cons, List.length_take_of_le inRows.le, Nat.add_comm 1]
    have divides : (place + 1) % modulo = 0 := by
      rw [placeDef]
      exact Nat.mul_mod_right _ _
    rw [everyNth, numbered, List.filter_append, List.filter_cons_of_pos (by simpa using divides),
      everyNth_tail divides _ (by rw [List.length_drop]; omega), List.map_append,
      List.map_singleton, List.getLast?_concat]

end Trading.Dao
