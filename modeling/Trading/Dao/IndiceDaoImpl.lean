import Trading.Dao.CacheDirectory

/-!
# Reading the cache directory

The file stage of the server's data access: the commands it hands to the shell, and how it
reads their output. `getCount` counts the rows of an identifier, `getParam` computes from the
count a script that samples them, and `getIndicesComm` reads the sampled lines.

`Double.parseDouble` is a parameter. A result `none` stands for an exception.

`run_script` gives the lines that a sampling script prints for an archive, and
`getParam_archive` the script that `getParam` computes for it.
-/

set_option autoImplicit false

namespace Trading.Dao

open Trading.Text Trading.Recup

/-! ## Commands -/

/-- `sed -n "/address/script" files`. -/
structure Commande where
  address : Text
  script : Text
  files : Text

/-- `"sed -n \"/^"+ID+";.*/"+param+"\" "+files`. -/
def commande (ID : Int) (param files : Text) : Commande := ⟨address ID, param, files⟩

/-- The output of a command run in the directory of a type. -/
def run (commande : Commande) (directory : Directory) : Text :=
  (Sed.run commande.address commande.script (stream commande.files directory)).flatMap
    fun printed => printed ++ ['\n']

/-- `| wc -l`. -/
def wc (output : Text) : Text := natText (output.count '\n') ++ ['\n']

/-- `getCount`: the first line of the counted output. -/
def getCount (ID : Int) (files : Text) (directory : Directory) : Option Text :=
  (readLines [] (wc (run (commande ID "p".toList files) directory))).head?

/-- The loop of `getParam`, in which `tmp` is `nbLines/cpt` at each test. -/
def paramLoop (nbLines cpt : Nat) (param : Text) : Text :=
  if 2000 < nbLines / cpt then paramLoop nbLines (cpt + 1) (param ++ "n;".toList) else param
termination_by nbLines - cpt
decreasing_by
  rcases Nat.lt_or_ge cpt nbLines with below | above
  · omega
  · have few : nbLines / cpt ≤ 1 := Nat.div_le_of_le_mul (by omega)
    omega

/-- `getParam`. -/
def getParam (ID : Int) (files : Text) (directory : Directory) : Option Text := do
  let nbLines ←
    parseInt (← (readLines [] (wc (run (commande ID "p".toList files) directory))).head?)
  return paramLoop nbLines.toNat 1 ['{', 'p', ';'] ++ ['}']

/-- What the server sends for a row. -/
structure IndiceVal (V : Type) where
  val : V
  date : Text
  deriving DecidableEq

variable {V : Type}

/-- `new IndiceVal(Double.parseDouble(tmp[1]),tmp[2])` for the fields of a line. -/
def readLine (parseDouble : Text → Option V) (line : Text) : Option (IndiceVal V) := do
  let tmp := fields ';' line
  let val ← parseDouble (← tmp[1]?)
  let date ← tmp[2]?
  return ⟨val, date⟩

/-- `getIndicesComm`. -/
def getIndicesComm (parseDouble : Text → Option V) (commande : Commande) (directory : Directory) :
    Option (List (IndiceVal V)) :=
  (readLines [] (run commande directory)).mapM (readLine parseDouble)

/-! ## The stride -/

/-- A stride is too short exactly when it is at most the quotient by 2001. -/
theorem tooMany_iff {nb stride : Nat} (positive : 1 ≤ stride) :
    2000 < nb / stride ↔ stride ≤ nb / 2001 := by
  rw [Nat.lt_iff_add_one_le, Nat.le_div_iff_mul_le positive, Nat.le_div_iff_mul_le (by decide),
    Nat.mul_comm]

/-- The loop adds a command for each step up to the first stride that is long enough. -/
theorem paramLoop_eq (nbLines cpt : Nat) (param : Text) (positive : 1 ≤ cpt)
    (short : cpt ≤ nbLines / 2001 + 1) :
    paramLoop nbLines cpt param =
      param ++ (List.replicate (nbLines / 2001 + 1 - cpt) "n;".toList).flatten := by
  rw [paramLoop]
  split
  · rename_i more
    have within := (tooMany_iff positive).mp more
    have one : nbLines / 2001 + 1 - cpt = nbLines / 2001 + 1 - (cpt + 1) + 1 := by omega
    rw [paramLoop_eq nbLines (cpt + 1) _ (by omega) (by omega), one, List.replicate_succ,
      List.flatten_cons, List.append_assoc]
  · rename_i enough
    have last := mt (tooMany_iff positive).mpr enough
    have none_left : nbLines / 2001 + 1 - cpt = 0 := by omega
    rw [none_left, List.replicate_zero, List.flatten_nil, List.append_nil]
termination_by nbLines / 2001 + 1 - cpt

/-- The script of `getParam` for a number of rows. -/
theorem paramLoop_script (nbLines : Nat) :
    paramLoop nbLines 1 ['{', 'p', ';'] ++ ['}'] = Sed.scriptText (nbLines / 2001) := by
  rw [paramLoop_eq nbLines 1 _ le_rfl (by omega), Sed.scriptText, Nat.add_sub_cancel]

/-! ## The commands on an archive -/

variable {instant : Text → Int}

/-- **What a sampling script prints for an identifier of an archive.** -/
theorem run_script (ID : Int) (skip : Nat) (archive : Archive instant) :
    ∃ outputs, Sed.run (address ID) (Sed.scriptText skip)
        (stream "*.csv".toList archive.directory) = outputs.map (fun row => line (some row)) ∧
      Sed.Sampled skip (archive.rowsOf ID) outputs ∧
      outputs.map some = Sed.sample (isRowOf ID) skip 0 (archive.byName.flatMap DayFile.items) := by
  have sampled := Sed.sampled_sample (isRowOf ID) skip (archive.byName.flatMap DayFile.items)
  rw [filter_flatMap_items] at sampled
  obtain ⟨outputs, printed, sampledRows⟩ := sampled.of_map
  refine ⟨outputs, ?_, sampledRows, printed.symm⟩
  rw [Sed.run_scriptText, stream_directory, Sed.sample_map]
  simp only [matchesLine_line, printed, List.map_map, Function.comp_def]

/-- The counting command prints the rows of the identifier. -/
theorem run_p (ID : Int) (archive : Archive instant) :
    Sed.run (address ID) "p".toList (stream "*.csv".toList archive.directory) =
      (archive.rowsOf ID).map fun row => line (some row) := by
  have sameScript : Sed.parse "p".toList = Sed.parse (Sed.scriptText 0) := by decide
  have everyRow : Sed.run (address ID) "p".toList (stream "*.csv".toList archive.directory) =
      Sed.run (address ID) (Sed.scriptText 0) (stream "*.csv".toList archive.directory) := by
    rw [Sed.run, sameScript, Sed.run]
  obtain ⟨outputs, printed, sampled, -⟩ := run_script ID 0 archive
  rw [everyRow, printed, sampled.eq_of_zero]

theorem clean_of_mem_rowsOf {ID : Int} {archive : Archive instant} {row : Entry}
    (member : row ∈ archive.rowsOf ID) : Clean row.val ∧ Clean row.date := by
  obtain ⟨file, -, inFile⟩ := List.mem_flatMap.mp member
  exact file.clean row (List.mem_filter.mp inFile).1

theorem newline_not_mem_line {archive : Archive instant} {ID : Int} {row : Entry}
    (member : row ∈ archive.rowsOf ID) : '\n' ∉ line (some row) :=
  newline_not_mem_record (Entry.clean_cells (clean_of_mem_rowsOf member))

theorem count_newlines (printed : List Text) (oneLine : ∀ text ∈ printed, '\n' ∉ text) :
    (printed.flatMap fun text => text ++ ['\n']).count '\n' = printed.length := by
  induction printed with
  | nil => rfl
  | cons text printed ih =>
      rw [List.flatMap_cons, List.count_append, List.count_append,
        List.count_eq_zero.mpr (oneLine text List.mem_cons_self),
        ih fun later member => oneLine later (List.mem_cons_of_mem _ member), List.length_cons]
      rw [show List.count '\n' ['\n'] = 1 from rfl]
      omega

/-- The line that `wc` prints is read back. -/
theorem readLine_wc (output : Text) :
    (readLines [] (wc output)).head? = some (natText (output.count '\n')) := by
  have digits : ∀ c, c.isDigit = false → c ∉ natText (output.count '\n') := by
    intro c noDigit member
    rw [isDigit_of_mem_natText member] at noDigit
    cases noDigit
  rw [wc, readLines_append _ _ _ (digits _ (by decide)) (digits _ (by decide))]
  rfl

/-- **`getCount` is the number of rows of the identifier.** -/
theorem getCount_archive (ID : Int) (archive : Archive instant) :
    getCount ID "*.csv".toList archive.directory = some (natText (archive.rowsOf ID).length) := by
  have counted := count_newlines ((archive.rowsOf ID).map fun row => line (some row)) (by
    intro text member
    obtain ⟨row, inRows, rfl⟩ := List.mem_map.mp member
    exact newline_not_mem_line inRows)
  rw [getCount, readLine_wc, run, commande, run_p, counted, List.length_map]

/-- **`getParam` computes the script of its stride** from a number of rows that is an `int`. -/
theorem getParam_archive (ID : Int) (archive : Archive instant)
    (fits : (archive.rowsOf ID).length ≤ 2147483647) :
    getParam ID "*.csv".toList archive.directory =
      some (Sed.scriptText ((archive.rowsOf ID).length / 2001)) := by
  have counted := getCount_archive ID archive
  rw [getCount] at counted
  simp only [getParam, counted, Option.bind_eq_bind, Option.bind_some, parseInt_natText fits,
    Option.pure_def, Int.toNat_natCast, paramLoop_script]

end Trading.Dao
