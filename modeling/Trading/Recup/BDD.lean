import Trading.Recup.CacheFile

/-!
# The archiver

`BDD.run` moves the rows of yesterday from the value tables into one cache file for each
table. It calls `BDD.write` for each entry of `SITES`; a call selects the rows of the window,
writes them into the file of the day, closes it, removes it again when no row was selected,
and deletes the window from the table. A file that is already there is left alone, with its
table.

Each of the steps of a call can throw, and the `catch` is around the whole body. The steps
of a call are named (`IoStep`) and a `Faults` says which of them throw. What had reached the
disk when a step throws while the file is open is a prefix of what was written.

A call has three kinds of effects (`write_effect`): none, a file that holds a prefix of the
text while the table is as before, or the archive of the window.
-/

set_option autoImplicit false

namespace Trading.Recup

open Trading.Calendar Trading.Text

variable {ν : Type}

/-! ## The cache directory -/

/-- The database and the cache directory: the files of each value table, by name. -/
structure World (ν : Type) where
  db : Database ν
  cache : Text → Text → Option Text

/-- Put a file into the cache directory of a table. -/
def World.setFile (w : World ν) (type name content : Text) : World ν :=
  { w with
    cache := Function.update w.cache type
      (Function.update (w.cache type) name (some content)) }

@[simp] theorem World.setFile_db (w : World ν) (type name content : Text) :
    (w.setFile type name content).db = w.db := rfl

@[simp] theorem World.setFile_self (w : World ν) (type name content : Text) :
    (w.setFile type name content).cache type name = some content := by
  simp only [World.setFile, Function.update_self]

theorem World.setFile_of_ne (w : World ν) {type name content otherType otherName : Text}
    (different : otherType ≠ type ∨ otherName ≠ name) :
    (w.setFile type name content).cache otherType otherName = w.cache otherType otherName := by
  by_cases sameType : otherType = type
  · subst sameType
    have otherFile : otherName ≠ name := different.resolve_left fun distinct => distinct rfl
    simp only [World.setFile, Function.update_self, Function.update_of_ne otherFile]
  · simp only [World.setFile, Function.update_of_ne sameType]

/-- A new file does not change the others. -/
theorem World.setFile_keeps {w : World ν} {type name content : Text}
    (absent : w.cache type name = none) {otherType otherName file : Text}
    (present : w.cache otherType otherName = some file) :
    (w.setFile type name content).cache otherType otherName = some file := by
  rw [World.setFile_of_ne _ ?_, present]
  by_contra same
  simp only [not_or, not_not] at same
  rw [same.1, same.2, absent] at present
  cases present

/-! ## Steps that can throw -/

/-- The input and output steps of one call of `write`. The writes and the advances of the
result set are numbered. -/
inductive IoStep where
  | select
  | openFile
  | fwWrite (n : Nat)
  | rsNext (n : Nat)
  | fwClose
  | delete
  deriving DecidableEq

/-- Which steps of a call throw. A step that throws while the file is open says how many of
the characters written so far have reached the disk. -/
abbrev Faults := IoStep → Option Nat

/-- No step throws. -/
def noFault : Faults := fun _ => none

/-- The last message of a call: the two `catch` clauses, the file that exists already, and
the end of the writing with its number of lines. -/
inductive Outcome where
  | erreurRequete
  | erreurFichier
  | existeDeja
  | writingEnd (cpt : Nat)
  deriving DecidableEq

/-- What is left when a step throws while the file is open: the message and the file. -/
structure Interrupted where
  outcome : Outcome
  file : Text

/-! ## Writing a file -/

/-- `fw.write(s)`, the `n`-th of the call, after `buffer` was written. -/
def fwWrite (faults : Faults) (n : Nat) (buffer s : Text) : Except Interrupted Text :=
  match faults (.fwWrite n) with
  | some reached => .error ⟨.erreurFichier, (buffer ++ s).take reached⟩
  | none => .ok (buffer ++ s)

/-- The writes of one line, from the `n`-th on. -/
def writeLine (faults : Faults) (n : Nat) (buffer : Text) : List Text → Except Interrupted Text
  | [] => fwWrite faults n buffer ['\r', '\n']
  | cell :: cells => do
      let buffer ← fwWrite faults n buffer (cell ++ [';'])
      writeLine faults (n + 1) buffer cells

/-- The loop `while(rs.next())`, after `cpt` rows and `n` writes. -/
def writeRows [Rendered ν] (faults : Faults) :
    Nat → Nat → Text → List (Row ν) → Except Interrupted (Text × Nat)
  | cpt, n, buffer, rs =>
      match faults (.rsNext cpt) with
      | some reached => .error ⟨.erreurRequete, buffer.take reached⟩
      | none =>
          match rs with
          | [] => .ok (buffer, cpt)
          | row :: rs => do
              let buffer ← writeLine faults n buffer row.cells
              writeRows faults (cpt + 1) (n + row.cells.length + 1) buffer rs

/-- The header line, then the rows. -/
def writeFile [Rendered ν] (faults : Faults) (rs : List (Row ν)) :
    Except Interrupted (Text × Nat) := do
  let buffer ← writeLine faults 0 [] labels
  writeRows faults 0 (labels.length + 1) buffer rs

/-! ## `BDD.write` and `BDD.run` -/

/-- `BDD.write`, for a window of days. -/
def write [Rendered ν] (hier ojd : Int) (type bdd : Text) (faults : Faults) (w : World ν) :
    World ν × Outcome :=
  match faults .select with
  | some _ => (w, .erreurRequete)
  | none =>
      let rs := w.db.select type bdd hier ojd
      match w.cache type (fileName hier) with
      | some _ => (w, .existeDeja)
      | none =>
          match faults .openFile with
          | some _ => (w, .erreurFichier)
          | none =>
              match writeFile faults rs with
              | .error left => (w.setFile type (fileName hier) left.file, left.outcome)
              | .ok (text, cpt) =>
                  match faults .fwClose with
                  | some reached =>
                      (w.setFile type (fileName hier) (text.take reached), .erreurFichier)
                  | none =>
                      -- `if(cpt<1)tmpDir.delete()`: the file was not there before the call
                      let closed := if cpt < 1 then w else w.setFile type (fileName hier) text
                      match faults .delete with
                      | some _ => (closed, .erreurRequete)
                      | none =>
                          ({ closed with db := closed.db.delete type hier ojd }, .writingEnd cpt)

/-- The calls of `write`, one for each entry of `SITES`; the `i`-th has the `i`-th faults. -/
def writeSites [Rendered ν] (hier ojd : Int) : List Site → (Nat → Faults) → World ν → World ν
  | [], _, w => w
  | site :: sites, faults, w =>
      writeSites hier ojd sites (fun i => faults (i + 1))
        (write hier ojd site.type site.bdd (faults 0) w).1

/-- The day `hier` of a run: `c.set(YEAR, MONTH, DAY_OF_MONTH-1)` on a lenient calendar. -/
def hierOf (jour : Int) : Int :=
  lenient (civil jour).year (civil jour).month ((civil jour).day - 1)

/-- `BDD.run`, on a calendar day. -/
def run [Rendered ν] (sites : List Site) (jour : Int) (faults : Nat → Faults) (w : World ν) :
    World ν :=
  writeSites (hierOf jour) jour sites faults w

/-- The window of a run is the day before it. -/
theorem hierOf_eq (jour : Int) : hierOf jour = jour - 1 := by
  rw [hierOf, Int.sub_eq_add_neg, lenient_civil, Int.sub_eq_add_neg]

theorem Row.inWindow_iff {jour : Int} {row : Row ν} :
    row.inWindow (hierOf jour) jour = true ↔ row.date.jour = jour - 1 := by
  rw [hierOf_eq]
  simp only [Row.inWindow, decide_eq_true_eq]
  omega

/-! ## Effects of a call -/

theorem fwWrite_cases (faults : Faults) (n : Nat) (buffer s : Text) :
    (fwWrite faults n buffer s = .ok (buffer ++ s) ∧ faults (.fwWrite n) = none) ∨
      ∃ left, fwWrite faults n buffer s = .error left ∧ left.file <+: buffer ++ s ∧
        faults (.fwWrite n) ≠ none := by
  cases fault : faults (.fwWrite n) with
  | none => exact .inl ⟨by simp only [fwWrite, fault], rfl⟩
  | some reached =>
      exact .inr ⟨⟨.erreurFichier, (buffer ++ s).take reached⟩, by simp only [fwWrite, fault],
        List.take_prefix _ _, by simp⟩

/-- A line is written, or one of its writes throws and a prefix is left. -/
theorem writeLine_cases (faults : Faults) (cells : List Text) : ∀ (n : Nat) (buffer : Text),
    (writeLine faults n buffer cells = .ok (buffer ++ csvLine cells) ∧
        ∀ k, n ≤ k → k ≤ n + cells.length → faults (.fwWrite k) = none) ∨
      ∃ left, writeLine faults n buffer cells = .error left ∧
        left.file <+: buffer ++ csvLine cells ∧
        ∃ k, n ≤ k ∧ k ≤ n + cells.length ∧ faults (.fwWrite k) ≠ none := by
  induction cells with
  | nil =>
      intro n buffer
      rcases fwWrite_cases faults n buffer ['\r', '\n'] with
        ⟨written, fine⟩ | ⟨left, thrown, file, fault⟩
      · refine .inl ⟨written, fun k lower upper => ?_⟩
        obtain rfl : k = n := Nat.le_antisymm upper lower
        exact fine
      · exact .inr ⟨left, thrown, file, n, le_rfl, le_rfl, fault⟩
  | cons cell cells ih =>
      intro n buffer
      rcases fwWrite_cases faults n buffer (cell ++ [';']) with
        ⟨written, fine⟩ | ⟨left, thrown, file, fault⟩
      · have unfolded : writeLine faults n buffer (cell :: cells) =
            writeLine faults (n + 1) (buffer ++ (cell ++ [';'])) cells := by
          rw [writeLine, written]
          rfl
        rw [unfolded, csvLine_cons, ← List.append_assoc buffer (cell ++ [';'])]
        rcases ih (n + 1) (buffer ++ (cell ++ [';'])) with
          ⟨rest, later⟩ | ⟨left, thrown, file, k, lower, upper, fault⟩
        · refine .inl ⟨rest, fun k lower upper => ?_⟩
          rcases Nat.eq_or_lt_of_le lower with rfl | above
          · exact fine
          · exact later k above (by rw [List.length_cons] at upper; omega)
        · exact .inr ⟨left, thrown, file, k, by omega, by rw [List.length_cons]; omega, fault⟩
      · refine .inr ⟨left, ?_, ?_, n, le_rfl, Nat.le_add_right _ _, fault⟩
        · rw [writeLine, thrown]
          rfl
        · rw [csvLine_cons, ← List.append_assoc]
          exact file.trans (List.prefix_append _ _)

variable [Rendered ν]

/-- The steps of a call between the opening of the file and the end of the call, for a number
of selected rows. -/
def IoStep.whileOpen (rows : Nat) : IoStep → Prop
  | .select => False
  | .openFile => False
  | .fwWrite k => k < 4 * (rows + 1)
  | .rsNext k => k ≤ rows
  | .fwClose => True
  | .delete => True

/-- One turn of the loop: a row is there, and its line is written. -/
theorem writeRows_cons {faults : Faults} {cpt : Nat} (next : faults (.rsNext cpt) = none)
    (buffer : Text) (row : Row ν) (rs : List (Row ν)) :
    writeRows faults cpt (4 * (cpt + 1)) buffer (row :: rs) =
      (writeLine faults (4 * (cpt + 1)) buffer row.cells).bind fun written =>
        writeRows faults (cpt + 1) (4 * (cpt + 1 + 1)) written rs := by
  rw [writeRows, next]
  rfl

/-- The rows are written, or a step of the loop throws and a prefix is left. -/
theorem writeRows_cases (faults : Faults) (rs : List (Row ν)) : ∀ (cpt : Nat) (buffer : Text),
    (writeRows faults cpt (4 * (cpt + 1)) buffer rs =
          .ok (buffer ++ rs.flatMap (fun row => csvLine row.cells), cpt + rs.length) ∧
        (∀ k, 4 * (cpt + 1) ≤ k → k < 4 * (cpt + rs.length + 1) → faults (.fwWrite k) = none) ∧
        ∀ k, cpt ≤ k → k ≤ cpt + rs.length → faults (.rsNext k) = none) ∨
      ∃ left, writeRows faults cpt (4 * (cpt + 1)) buffer rs = .error left ∧
        left.file <+: buffer ++ rs.flatMap (fun row => csvLine row.cells) ∧
        ∃ step, step.whileOpen (cpt + rs.length) ∧ faults step ≠ none := by
  induction rs with
  | nil =>
      intro cpt buffer
      cases fault : faults (.rsNext cpt) with
      | none =>
          refine .inl ⟨by simp [writeRows, fault], fun k lower upper => ?_, fun k lower upper => ?_⟩
          · rw [List.length_nil] at upper
            omega
          · obtain rfl : k = cpt := Nat.le_antisymm upper lower
            exact fault
      | some reached =>
          refine .inr ⟨⟨.erreurRequete, buffer.take reached⟩, by simp only [writeRows, fault], ?_,
            .rsNext cpt, le_rfl, by simp [fault]⟩
          simpa using List.take_prefix reached buffer
  | cons row rs ih =>
      intro cpt buffer
      have total : cpt + (row :: rs).length = cpt + 1 + rs.length := by
        rw [List.length_cons]
        omega
      rw [total, List.flatMap_cons, ← List.append_assoc]
      cases fault : faults (.rsNext cpt) with
      | some reached =>
          refine .inr ⟨⟨.erreurRequete, buffer.take reached⟩, by simp only [writeRows, fault], ?_,
            .rsNext cpt, ?_, by simp [fault]⟩
          · rw [List.append_assoc]
            exact (List.take_prefix reached buffer).trans (List.prefix_append _ _)
          · show cpt ≤ cpt + 1 + rs.length
            omega
      | none =>
          rcases writeLine_cases faults row.cells (4 * (cpt + 1)) buffer with
            ⟨written, fine⟩ | ⟨left, thrown, file, k, lower, upper, fails⟩
          · rw [writeRows_cons fault, written, Except.bind]
            rcases ih (cpt + 1) (buffer ++ csvLine row.cells) with
              ⟨rest, writes, nexts⟩ | ⟨left, thrown, file, step, within, fails⟩
            · refine .inl ⟨rest, fun k lower upper => ?_, fun k lower upper => ?_⟩
              · rw [Row.cells_length] at fine
                by_cases first : k ≤ 4 * (cpt + 1) + 3
                · exact fine k lower first
                · exact writes k (by omega) upper
              · rcases Nat.eq_or_lt_of_le lower with rfl | above
                · exact fault
                · exact nexts k above upper
            · exact .inr ⟨left, thrown, file, step, within, fails⟩
          · refine .inr ⟨left, ?_, file.trans (List.prefix_append _ _), .fwWrite k, ?_, fails⟩
            · rw [writeRows_cons fault, thrown, Except.bind]
            · rw [Row.cells_length] at upper
              show k < 4 * (cpt + 1 + rs.length + 1)
              omega

/-- The file is written, or a step throws and a prefix of it is left. -/
theorem writeFile_cases (faults : Faults) (rs : List (Row ν)) :
    (writeFile faults rs = .ok (csvFile rs, rs.length) ∧
        ∀ step, step.whileOpen rs.length → step ≠ .fwClose → step ≠ .delete → faults step = none) ∨
      ∃ left, writeFile faults rs = .error left ∧ left.file <+: csvFile rs ∧
        ∃ step, step.whileOpen rs.length ∧ faults step ≠ none := by
  rcases writeLine_cases faults labels 0 [] with
    ⟨header, fine⟩ | ⟨left, thrown, file, k, -, upper, fails⟩
  · have unfolded : writeFile faults rs = writeRows faults 0 (4 * (0 + 1)) (csvLine labels) rs := by
      rw [writeFile, header]
      rfl
    rw [unfolded]
    rcases writeRows_cases faults rs 0 (csvLine labels) with
      ⟨rows, writes, nexts⟩ | ⟨left, thrown, file, step, within, fails⟩
    · refine .inl ⟨by rw [rows, Nat.zero_add]; rfl, fun step within notClose notDelete => ?_⟩
      cases step with
      | select => exact within.elim
      | openFile => exact within.elim
      | fwWrite k =>
          by_cases first : k ≤ 0 + labels.length
          · exact fine k (Nat.zero_le k) first
          · rw [labels_length] at first
            exact writes k (by omega) (by simpa [IoStep.whileOpen] using within)
      | rsNext k => exact nexts k (Nat.zero_le k) (by simpa [IoStep.whileOpen] using within)
      | fwClose => exact absurd rfl notClose
      | delete => exact absurd rfl notDelete
    · rw [Nat.zero_add] at within
      exact .inr ⟨left, thrown, file, step, within, fails⟩
  · refine .inr ⟨left, ?_, file.trans ?_, .fwWrite k, ?_, fails⟩
    · rw [writeFile, thrown]
      rfl
    · exact List.prefix_append _ _
    · rw [labels_length] at upper
      show k < 4 * (rs.length + 1)
      omega

/-- What an archived window leaves: the file of the day, unless no row was selected, and a
table without the window. -/
def World.archive (w : World ν) (hier ojd : Int) (type bdd : Text) : World ν :=
  let rs := w.db.select type bdd hier ojd
  let closed := if rs = [] then w else w.setFile type (fileName hier) (csvFile rs)
  { closed with db := w.db.delete type hier ojd }

/-- The three kinds of effects of a call, each with the faults that lead to it. -/
inductive Effect (hier ojd : Int) (type bdd : Text) (faults : Faults) (w : World ν) :
    World ν → Prop where
  | unchanged
      (reason : faults .select ≠ none ∨ w.cache type (fileName hier) ≠ none ∨
        faults .openFile ≠ none ∨
        w.db.select type bdd hier ojd = [] ∧ ∃ step, step.whileOpen 0 ∧ faults step ≠ none) :
      Effect hier ojd type bdd faults w w
  | interrupted (selected : faults .select = none) (absent : w.cache type (fileName hier) = none)
      (opened : faults .openFile = none) (file : Text)
      (partOfFile : file <+: csvFile (w.db.select type bdd hier ojd))
      (thrown : ∃ step, step.whileOpen (w.db.select type bdd hier ojd).length ∧
        faults step ≠ none) :
      Effect hier ojd type bdd faults w (w.setFile type (fileName hier) file)
  | archived (selected : faults .select = none) (absent : w.cache type (fileName hier) = none)
      (opened : faults .openFile = none)
      (fine : ∀ step, step.whileOpen (w.db.select type bdd hier ojd).length → faults step = none) :
      Effect hier ojd type bdd faults w (w.archive hier ojd type bdd)

/-- **What a call of `write` can do.** -/
theorem write_effect (hier ojd : Int) (type bdd : Text) (faults : Faults) (w : World ν) :
    Effect hier ojd type bdd faults w (write hier ojd type bdd faults w).1 := by
  unfold write
  cases selectFault : faults .select with
  | some reached => exact .unchanged (.inl (by simp [selectFault]))
  | none =>
  cases present : w.cache type (fileName hier) with
  | some file => exact .unchanged (.inr (.inl (by simp [present])))
  | none =>
  cases openFault : faults .openFile with
  | some reached => exact .unchanged (.inr (.inr (.inl (by simp [openFault]))))
  | none =>
  rcases writeFile_cases faults (w.db.select type bdd hier ojd) with
    ⟨written, fine⟩ | ⟨left, thrown, file, fails⟩
  · simp only [written]
    cases closeFault : faults .fwClose with
    | some reached =>
        exact .interrupted selectFault present openFault _ (List.take_prefix _ _)
          ⟨.fwClose, trivial, by simp [closeFault]⟩
    | none =>
        cases deleteFault : faults .delete with
        | some reached =>
            by_cases empty : w.db.select type bdd hier ojd = []
            · simp only [empty, List.length_nil, Nat.zero_lt_one, ↓reduceIte]
              exact .unchanged (.inr (.inr (.inr ⟨empty, .delete, trivial, by simp [deleteFault]⟩)))
            · have some_rows : ¬ (w.db.select type bdd hier ojd).length < 1 := by
                have := List.length_pos_iff.mpr empty
                omega
              simp only [some_rows, ↓reduceIte]
              exact .interrupted selectFault present openFault _ (List.prefix_refl _)
                ⟨.delete, trivial, by simp [deleteFault]⟩
        | none =>
            have archived : Effect hier ojd type bdd faults w (w.archive hier ojd type bdd) :=
              .archived selectFault present openFault (fun step within => by
                by_cases closing : step = .fwClose
                · rw [closing, closeFault]
                · by_cases deleting : step = .delete
                  · rw [deleting, deleteFault]
                  · exact fine step within closing deleting)
            by_cases empty : w.db.select type bdd hier ojd = []
            · simpa only [World.archive, empty, List.length_nil, Nat.zero_lt_one, ↓reduceIte]
                using archived
            · have some_rows : ¬ (w.db.select type bdd hier ojd).length < 1 := by
                have := List.length_pos_iff.mpr empty
                omega
              simpa only [World.archive, World.setFile_db, empty, some_rows, ↓reduceIte] using
                archived
  · simp only [thrown]
    exact .interrupted selectFault present openFault left.file file fails

/-! ## What a call leaves alone -/

/-- A call touches one table and its cache directory only. -/
theorem Effect.frame {hier ojd : Int} {type bdd other : Text} {faults : Faults} {w w' : World ν}
    (effect : Effect hier ojd type bdd faults w w') (different : other ≠ type) :
    w'.db.vals other = w.db.vals other ∧ w'.cache other = w.cache other := by
  cases effect with
  | unchanged _ => exact ⟨rfl, rfl⟩
  | interrupted _ _ _ file _ _ =>
      refine ⟨rfl, funext fun name => ?_⟩
      exact World.setFile_of_ne _ (.inl different)
  | archived _ _ _ _ =>
      refine ⟨w.db.delete_vals_of_ne different hier ojd, funext fun name => ?_⟩
      by_cases empty : w.db.select type bdd hier ojd = []
      · simp only [World.archive, empty, ↓reduceIte]
      · simp only [World.archive, empty, ↓reduceIte]
        exact World.setFile_of_ne _ (.inl different)

/-- A call that finds the file of the day does nothing. -/
theorem Effect.eq_of_present {hier ojd : Int} {type bdd : Text} {faults : Faults} {w w' : World ν}
    (effect : Effect hier ojd type bdd faults w w')
    (present : w.cache type (fileName hier) ≠ none) : w' = w := by
  cases effect with
  | unchanged _ => rfl
  | interrupted _ absent _ _ _ _ => exact absurd absent present
  | archived _ absent _ _ => exact absurd absent present

theorem Effect.registry {hier ojd : Int} {type bdd : Text} {faults : Faults} {w w' : World ν}
    (effect : Effect hier ojd type bdd faults w w') : w'.db.registry = w.db.registry := by
  cases effect with
  | unchanged _ => rfl
  | interrupted _ _ _ _ _ _ => rfl
  | archived _ _ _ _ => rfl

/-- Without errors a call archives the window, when the file of the day is not there. -/
theorem write_noFault {hier ojd : Int} {type bdd : Text} {w : World ν}
    (absent : w.cache type (fileName hier) = none) :
    (write hier ojd type bdd noFault w).1 = w.archive hier ojd type bdd := by
  have effect := write_effect hier ojd type bdd noFault w
  generalize (write hier ojd type bdd noFault w).1 = after at effect
  cases effect with
  | unchanged reason =>
      rcases reason with select | present | opening | ⟨-, step, -, fault⟩
      · exact absurd rfl select
      · exact absurd absent present
      · exact absurd rfl opening
      · exact absurd rfl fault
  | interrupted _ _ _ _ _ thrown =>
      obtain ⟨step, -, fault⟩ := thrown
      exact absurd rfl fault
  | archived _ _ _ _ => rfl

end Trading.Recup
