import Trading.Dao.Answers

/-!
# Reads during an archive run

The archiver and the server are two programs on one store. While a call of `write` is under way,
the server finds a file that is not yet complete, or a complete one next to the rows that are in
it. `Stade` says how far the call has come. What is there at a stage is what the call would have
left if it had thrown at that point (`Stade.monde`).

The text of an open file may end within a line. `sed` gives such a line back without a newline
unless it prints another one behind it, and `wc -l` counts newlines: `getCountLu` is `getCount` for
files of this kind, and the same function when all files are complete (`getCountLu_complete`). When
the open file is the last one by its name, the lines of the identifier are counted that a newline
ends (`getCountLu_eq`). So along the stages more and more lines of the new file are counted
(`vus_mono`), until they are the rows of the identifier in the window (`vus_fini`).
-/

set_option autoImplicit false

namespace Trading.Dao

open Trading.Calendar Trading.Text Trading.Recup

/-! ## Counting lines of open files -/

/-- The lines of a file, each with whether a newline ends it. -/
def lignesLues (content : Text) : List (Text × Bool) :=
  ((endedLines content).map fun line => (line, true)) ++
    if openLine content = [] then [] else [(openLine content, false)]

/-- The output of `sed` for the lines that it prints. A line without newline gets one when another
line is printed behind it. -/
def sortie : List (Text × Bool) → Text
  | [] => []
  | (line, ended) :: later =>
      line ++ (if ended = true ∨ later ≠ [] then ['\n'] else []) ++ sortie later

/-- The lines that `sed -n "/^ID;.*/p" files` prints. -/
def affichees (ID : Int) (files : Directory) : List (Text × Bool) :=
  (files.flatMap fun file => lignesLues file.2).filter fun ligne =>
    Sed.matchesLine (address ID) ligne.1

/-- `getCount` for a directory whose files may end within a line. -/
def getCountLu (ID : Int) (pattern : Text) (directory : Directory) : Option Text :=
  (readLines [] (wc (sortie (affichees ID (glob pattern directory))))).head?

/-- The script `p` prints the lines that match. -/
theorem run_printed (ID : Int) (input : List Text) :
    Sed.run (address ID) "p".toList input = input.filter (Sed.matchesLine (address ID)) := by
  have sameScript : Sed.parse "p".toList = Sed.parse (Sed.scriptText 0) := by decide
  have everyLine := Sed.run_scriptText (address ID) 0 input
  have sampled := Sed.sampled_sample (Sed.matchesLine (address ID)) 0 input
  rw [← everyLine] at sampled
  rw [← sampled.eq_of_zero, Sed.run, sameScript, Sed.run]

theorem lignesLues_lines (content : Text) : (lignesLues content).map Prod.fst = lines content := by
  rw [lignesLues, lines_eq, List.map_append, List.map_map]
  congr 1
  · exact List.map_id _
  · split <;> rfl

/-- The lines printed are those of the stream that match. -/
theorem affichees_lines (ID : Int) (pattern : Text) (directory : Directory) :
    (affichees ID (glob pattern directory)).map Prod.fst =
      Sed.run (address ID) "p".toList (stream pattern directory) := by
  have texts : stream pattern directory =
      ((glob pattern directory).flatMap fun file => lignesLues file.2).map Prod.fst := by
    simp only [stream, List.map_flatMap, lignesLues_lines]
  rw [run_printed, texts, List.filter_map]
  rfl

theorem sortie_ended (line : Text) (later : List (Text × Bool)) :
    sortie ((line, true) :: later) = line ++ '\n' :: sortie later := by
  simp [sortie]

/-- Lines that are all ended are printed as they are. -/
theorem sortie_of_ended {printed : List (Text × Bool)}
    (ended : ∀ ligne ∈ printed, ligne.2 = true) :
    sortie printed = (printed.map Prod.fst).flatMap fun line => line ++ ['\n'] := by
  induction printed with
  | nil => rfl
  | cons ligne printed ih =>
      obtain ⟨line, isEnded⟩ := ligne
      obtain rfl : isEnded = true := ended _ List.mem_cons_self
      rw [sortie_ended, ih fun later member => ended later (List.mem_cons_of_mem _ member)]
      simp only [List.map_cons, List.flatMap_cons, List.append_assoc, List.singleton_append]

/-- The lines that are printed for complete files are ended. -/
theorem affichees_ended (ID : Int) (pattern : Text) {directory : Directory}
    (complete : ∀ file ∈ directory, openLine file.2 = []) :
    ∀ ligne ∈ affichees ID (glob pattern directory), ligne.2 = true := by
  intro ligne member
  obtain ⟨file, inGlob, inFile⟩ := List.mem_flatMap.mp (List.mem_filter.mp member).1
  rw [lignesLues, if_pos (complete file (mem_of_mem_glob inGlob)), List.append_nil] at inFile
  obtain ⟨line, -, rfl⟩ := List.mem_map.mp inFile
  rfl

/-- **On complete files the count is that of `getCount`.** -/
theorem getCountLu_complete (ID : Int) (pattern : Text) {directory : Directory}
    (complete : ∀ file ∈ directory, openLine file.2 = []) :
    getCountLu ID pattern directory = getCount ID pattern directory := by
  rw [getCountLu, sortie_of_ended (affichees_ended ID pattern complete), affichees_lines]
  rfl

/-- The lines of a file that begin with an identifier and that a newline ends. -/
def hits (ID : Int) (content : Text) : Nat :=
  (endedLines content).countP (Sed.matchesLine (address ID))

/-- **A growing file has growing counts.** -/
theorem hits_le_of_prefix (ID : Int) {content content' : Text} (grows : content <+: content') :
    hits ID content ≤ hits ID content' :=
  (endedLines_of_grows grows).sublist.countP_le

/-- Ended lines are counted one by one. -/
theorem count_sortie_append {written : List Text} (oneLine : ∀ line ∈ written, '\n' ∉ line)
    (later : List (Text × Bool)) :
    (sortie ((written.map fun line => (line, true)) ++ later)).count '\n' =
      written.length + (sortie later).count '\n' := by
  induction written with
  | nil => exact (Nat.zero_add _).symm
  | cons line written ih =>
      rw [List.map_cons, List.cons_append, sortie_ended, List.count_append, List.count_cons_self,
        List.count_eq_zero.mpr (oneLine line List.mem_cons_self),
        ih fun later member => oneLine later (List.mem_cons_of_mem _ member), List.length_cons]
      omega

/-- The lines of a file that are printed: those that are ended, and perhaps the last one. -/
theorem affichees_cons (ID : Int) (file : Text × Text) (files : Directory) :
    affichees ID (file :: files) =
      (((endedLines file.2).filter (Sed.matchesLine (address ID))).map fun line => (line, true)) ++
        ((if openLine file.2 = [] then [] else [(openLine file.2, false)]).filter fun ligne =>
          Sed.matchesLine (address ID) ligne.1) ++ affichees ID files := by
  rw [affichees, List.flatMap_cons, List.filter_append, lignesLues, List.filter_append,
    List.filter_map]
  rfl

/-- When no file is behind an open one, the ended lines are counted. -/
theorem count_sortie_affichees (ID : Int) {files : Directory}
    (closed : files.Pairwise fun first _ => openLine first.2 = []) :
    (sortie (affichees ID files)).count '\n' = (files.map fun file => hits ID file.2).sum := by
  induction files with
  | nil => rfl
  | cons file files ih =>
      obtain ⟨first, rest⟩ := List.pairwise_cons.mp closed
      have oneLine : ∀ line ∈ (endedLines file.2).filter (Sed.matchesLine (address ID)),
          '\n' ∉ line := fun line member =>
        newline_not_mem_endedLines file.2 line (List.mem_filter.mp member).1
      rw [affichees_cons, List.append_assoc, count_sortie_append oneLine, List.map_cons,
        List.sum_cons, hits, List.countP_eq_length_filter]
      congr 1
      by_cases complete : openLine file.2 = []
      · rw [if_pos complete]
        exact ih rest
      · -- nothing is printed behind the open line
        obtain rfl : files = [] :=
          List.eq_nil_iff_forall_not_mem.mpr fun later member => complete (first later member)
        rw [if_neg complete]
        by_cases isHit : Sed.matchesLine (address ID) (openLine file.2) = true
        · have noNewline := List.count_eq_zero.mpr (newline_not_mem_openLine file.2)
          simpa [affichees, sortie, isHit] using noNewline
        · simp [affichees, sortie, isHit]

/-- The lines that a pattern finds in a directory. -/
def foundLines (ID : Int) (pattern : Text) (directory : Directory) : Nat :=
  ((directory.filter fun file => wildcard pattern file.1).map fun file => hits ID file.2).sum

/-- No file of a directory comes behind one that ends within a line. -/
def OpenLast (directory : Directory) : Prop :=
  ∀ file ∈ directory, openLine file.2 ≠ [] → ∀ other ∈ directory, other.1 ≤ file.1

/-- **What is counted when only the last file may be open.** -/
theorem getCountLu_eq (ID : Int) (pattern : Text) {directory : Directory}
    (distinct : (directory.map Prod.fst).Nodup) (openLast : OpenLast directory) :
    getCountLu ID pattern directory = some (natText (foundLines ID pattern directory)) := by
  have names : (glob pattern directory).Pairwise fun first second => first.1 ≠ second.1 := by
    have unique : ((glob pattern directory).map Prod.fst).Nodup :=
      ((perm_glob pattern directory).map Prod.fst).nodup_iff.mpr
        (distinct.sublist (List.filter_sublist.map Prod.fst))
    exact List.pairwise_map.mp unique
  have closed : (glob pattern directory).Pairwise fun first _ => openLine first.2 = [] := by
    refine ((sorted_glob pattern directory).and names).imp_of_mem
      fun {first second} inFirst inSecond ordered => ?_
    by_contra isOpen
    have after := openLast first (mem_of_mem_glob inFirst) isOpen second (mem_of_mem_glob inSecond)
    exact ordered.2 (le_antisymm ordered.1 after)
  rw [getCountLu, readLine_wc, count_sortie_affichees ID closed, foundLines,
    ((perm_glob pattern directory).map fun file => hits ID file.2).sum_eq]

/-- Listings of one directory have the same lines. -/
theorem foundLines_listing {directory directory' : Directory} {files : Text → Option Text}
    (listed : Listing directory files) (listed' : Listing directory' files) (ID : Int)
    (pattern : Text) : foundLines ID pattern directory = foundLines ID pattern directory' := by
  exact (((listed.perm listed').filter _).map _).sum_eq

/-- A new file in a directory. -/
theorem Listing.cons {directory : Directory} {files : Text → Option Text}
    (listed : Listing directory files) {name : Text} (absent : files name = none)
    (content : Text) :
    Listing ((name, content) :: directory) (Function.update files name (some content)) where
  distinct := by
    rw [List.map_cons, List.nodup_cons]
    refine ⟨fun member => ?_, listed.distinct⟩
    obtain ⟨file, inDirectory, rfl⟩ := List.mem_map.mp member
    rw [(listed.mem file).mp inDirectory] at absent
    cases absent
  mem := by
    intro file
    by_cases same : file.1 = name
    · rw [List.mem_cons, same, Function.update_self, Option.some_inj]
      constructor
      · rintro (rfl | inDirectory)
        · rfl
        · rw [← same, (listed.mem file).mp inDirectory] at absent
          cases absent
      · intro content
        exact .inl (Prod.ext same content.symm)
    · rw [List.mem_cons, Function.update_of_ne same, ← listed.mem]
      constructor
      · rintro (rfl | inDirectory)
        · exact absurd rfl same
        · exact inDirectory
      · exact .inr

/-- The lines of a new file are counted by the patterns that find it. -/
theorem foundLines_cons (ID : Int) (pattern name content : Text) (directory : Directory) :
    foundLines ID pattern ((name, content) :: directory) =
      foundLines ID pattern directory +
        if wildcard pattern name = true then hits ID content else 0 := by
  by_cases found : wildcard pattern name = true
  · simp only [foundLines, List.filter_cons, found, ↓reduceIte, List.map_cons, List.sum_cons,
      Nat.add_comm]
  · simp only [foundLines, List.filter_cons, found, ↓reduceIte, Nat.add_zero, Bool.false_eq_true]

/-! ## The lines of a complete file -/

variable {ν : Type} [Rendered ν]

/-- A complete file ends with a newline. -/
theorem openLine_csvFile (rows : List (Row ν)) : openLine (csvFile rows) = [] := by
  have oneLine := newline_not_mem_lines (csvFile rows)
  rw [lines_csvFile] at oneLine
  have noText := openLine_append oneLine List.not_mem_nil
  rwa [List.append_nil, ← csvFile_eq] at noText

theorem endedLines_csvFile (rows : List (Row ν)) :
    endedLines (csvFile rows) = record labels :: rows.map fun row => record row.cells := by
  rw [← lines_csvFile, lines_eq, openLine_csvFile, if_pos rfl, List.append_nil]

/-- The line of a row begins with an identifier exactly when it is the row's. -/
theorem prefix_record_iff (ID : Int) (row : Row ν) :
    (intText ID ++ [';']) <+: record row.cells ↔ row.id = some ID := by
  rw [Row.cells, word_prefix_iff fun member => (clean_idText row.id _ member).1 rfl]
  exact idText_injective.eq_iff (b := some ID)

theorem matchesLine_record (ID : Int) (row : Row ν) :
    Sed.matchesLine (address ID) (record row.cells) = decide (row.id = some ID) := by
  rw [matchesLine_address, decide_eq_decide, prefix_record_iff]

/-- The lines of a complete file are hit for the rows of the identifier. -/
theorem hits_csvFile (ID : Int) (rows : List (Row ν)) :
    hits ID (csvFile rows) = (rowsWithId ID rows).length := by
  have label : Sed.matchesLine (address ID) (record labels) = false :=
    matchesLine_line ID none
  rw [hits, endedLines_csvFile, List.countP_cons, label, List.countP_map,
    List.countP_eq_length_filter]
  simp only [Function.comp_def, matchesLine_record]
  rfl

/-! ## A call under way -/

/-- How far a call of `write` has come: it has not made its file, the file is open and a part of
its text has reached the disk, the file is closed, or the window is deleted. -/
inductive Stade where
  | avant
  | ouvert (atteint : Nat)
  | ferme
  | fini
  deriving DecidableEq

namespace Stade

/-- The throw that would leave what is there at a stage. -/
def faults : Stade → Faults
  | .avant, step => if step = .select then some 0 else none
  | .ouvert atteint, step => if step = .fwClose then some atteint else none
  | .ferme, step => if step = .delete then some 0 else none
  | .fini, _ => none

/-- The store at a stage of a call. -/
def monde (stade : Stade) (hier ojd : Int) (type bdd : Text) (w : World ν) : World ν :=
  (write hier ojd type bdd stade.faults w).1

/-- The stages in the order of the call. -/
def Precede : Stade → Stade → Prop
  | .avant, _ => True
  | .ouvert atteint, .ouvert atteint' => atteint ≤ atteint'
  | .ouvert _, .ferme => True
  | .ouvert _, .fini => True
  | .ferme, .ferme => True
  | .ferme, .fini => True
  | .fini, .fini => True
  | _, _ => False

/-- The file of the day at a stage, for the selected rows. -/
def contenu (rs : List (Row ν)) : Stade → Option Text
  | .avant => none
  | .ouvert atteint => some ((csvFile rs).take atteint)
  | _ => if rs = [] then none else some (csvFile rs)

/-- The lines of the identifier in the file of the day at a stage. -/
def vus (ID : Int) (rs : List (Row ν)) (stade : Stade) : Nat :=
  match stade.contenu rs with
  | none => 0
  | some content => hits ID content

end Stade

/-- The writing of a file depends on its own steps only. -/
theorem writeFile_of_steps {faults : Faults} (writes : ∀ n, faults (.fwWrite n) = none)
    (nexts : ∀ n, faults (.rsNext n) = none) (rs : List (Row ν)) :
    writeFile faults rs = .ok (csvFile rs, rs.length) := by
  have line : ∀ (cells : List Text) (n : Nat) (buffer : Text),
      writeLine faults n buffer cells = writeLine noFault n buffer cells := by
    intro cells
    induction cells with
    | nil =>
        intro n buffer
        simp only [writeLine, fwWrite, writes, noFault]
    | cons cell cells ih =>
        intro n buffer
        simp only [writeLine, fwWrite, writes, noFault, ih]
  have rows : ∀ (rs : List (Row ν)) (cpt n : Nat) (buffer : Text),
      writeRows faults cpt n buffer rs = writeRows noFault cpt n buffer rs := by
    intro rs
    induction rs with
    | nil =>
        intro cpt n buffer
        simp only [writeRows, nexts, noFault]
    | cons row rs ih =>
        intro cpt n buffer
        simp only [writeRows, nexts, noFault, line, ih]
  have same : writeFile faults rs = writeFile noFault rs := by
    simp only [writeFile, line, rows]
  rw [same]
  rcases writeFile_cases noFault rs with ⟨written, -⟩ | ⟨-, -, -, step, -, fault⟩
  · exact written
  · exact absurd rfl fault

section Stages

variable {hier ojd : Int} {type bdd : Text} {w : World ν}

/-- What is there at a stage: the file with the text that it has by then, and the rows of the
window until they are deleted. -/
theorem Stade.monde_eq (absent : w.cache type (fileName hier) = none) (stade : Stade) :
    (stade.monde hier ojd type bdd w).cache type =
        (match stade.contenu (w.db.select type bdd hier ojd) with
          | none => w.cache type
          | some content => Function.update (w.cache type) (fileName hier) (some content)) ∧
      (stade.monde hier ojd type bdd w).db.vals type =
        if stade = .fini then (w.db.vals type).filter fun row => !row.inWindow hier ojd
        else w.db.vals type := by
  cases stade with
  | avant => exact ⟨rfl, rfl⟩
  | ouvert atteint =>
      have written : writeFile (Stade.ouvert atteint).faults (w.db.select type bdd hier ojd) =
          .ok (csvFile _, List.length _) := writeFile_of_steps (fun _ => rfl) (fun _ => rfl) _
      have left : (Stade.ouvert atteint).monde hier ojd type bdd w =
          w.setFile type (fileName hier)
            ((csvFile (w.db.select type bdd hier ojd)).take atteint) := by
        simp [Stade.monde, write, absent, written, Stade.faults]
      rw [left]
      exact ⟨Function.update_self _ _ _, rfl⟩
  | ferme =>
      have written : writeFile Stade.ferme.faults (w.db.select type bdd hier ojd) =
          .ok (csvFile _, List.length _) := writeFile_of_steps (fun _ => rfl) (fun _ => rfl) _
      have left : Stade.ferme.monde hier ojd type bdd w =
          if w.db.select type bdd hier ojd = [] then w
          else w.setFile type (fileName hier) (csvFile (w.db.select type bdd hier ojd)) := by
        simp [Stade.monde, write, absent, written, Stade.faults]
      rw [left]
      by_cases empty : w.db.select type bdd hier ojd = []
      · simp only [empty, ↓reduceIte, Stade.contenu]
        exact ⟨trivial, rfl⟩
      · simp only [empty, ↓reduceIte, Stade.contenu]
        exact ⟨Function.update_self _ _ _, rfl⟩
  | fini =>
      have left : Stade.fini.monde hier ojd type bdd w = w.archive hier ojd type bdd :=
        write_noFault absent
      rw [left, if_pos rfl]
      by_cases empty : w.db.select type bdd hier ojd = []
      · simp only [World.archive, empty, ↓reduceIte, Stade.contenu]
        exact ⟨trivial, w.db.delete_vals_self type hier ojd⟩
      · simp only [World.archive, empty, ↓reduceIte, Stade.contenu]
        exact ⟨Function.update_self _ _ _, w.db.delete_vals_self type hier ojd⟩

/-- A listing of the directory at a stage, from one of the directory before the call. -/
def Stade.repertoire (name : Text) (rs : List (Row ν)) (directory : Directory) (stade : Stade) :
    Directory :=
  match stade.contenu rs with
  | none => directory
  | some content => (name, content) :: directory

theorem Stade.listing_repertoire (absent : w.cache type (fileName hier) = none)
    {directory : Directory} (listed : Listing directory (w.cache type)) (stade : Stade) :
    Listing (stade.repertoire (fileName hier) (w.db.select type bdd hier ojd) directory)
      ((stade.monde hier ojd type bdd w).cache type) := by
  rw [(stade.monde_eq absent).1, Stade.repertoire]
  cases stade.contenu (w.db.select type bdd hier ojd) with
  | none => exact listed
  | some content => exact listed.cons absent content

/-- What a pattern finds in the directory at a stage. -/
theorem Stade.foundLines_repertoire (ID : Int) (pattern name : Text) (rs : List (Row ν))
    (directory : Directory) (stade : Stade) :
    foundLines ID pattern (stade.repertoire name rs directory) =
      foundLines ID pattern directory +
        if wildcard pattern name = true then stade.vus ID rs else 0 := by
  rw [Stade.repertoire, Stade.vus]
  cases stade.contenu rs with
  | none => simp only [ite_self, Nat.add_zero]
  | some content => exact foundLines_cons ID pattern name content directory

/-! ### Files of earlier days -/

variable {volumes : List (Volume ν)} {files : Text → Option Text}

/-- A day after those of the files has no file. -/
theorem absent_of_earlier (ranges : Ranges volumes files) (era : InEra hier)
    (earlier : ∀ volume ∈ volumes, volume.jour < hier) : files (fileName hier) = none := by
  by_contra present
  obtain ⟨volume, inVolumes, sameName⟩ := ranges.only _ present
  exact (earlier volume inVolumes).ne' (fileName_injective era volume.inEra sameName)

/-- The files of earlier days are complete and come first. -/
theorem complete_of_earlier (ranges : Ranges volumes files) (era : InEra hier)
    (earlier : ∀ volume ∈ volumes, volume.jour < hier) {name content : Text}
    (present : files name = some content) : name ≤ fileName hier ∧ openLine content = [] := by
  obtain ⟨volume, inVolumes, rfl⟩ := ranges.only name (present ▸ Option.some_ne_none _)
  rw [ranges.found volume inVolumes, Option.some_inj] at present
  refine ⟨(fileName_lt volume.inEra era (earlier volume inVolumes)).le, ?_⟩
  rw [← present, openLine_csvFile]

/-- A file that is found at a stage is the new one, or complete and before it. -/
theorem Stade.file_cases (ranges : Ranges volumes (w.cache type)) (era : InEra hier)
    (earlier : ∀ volume ∈ volumes, volume.jour < hier) {stade : Stade} {directory : Directory}
    (listed : Listing directory ((stade.monde hier ojd type bdd w).cache type))
    {file : Text × Text} (member : file ∈ directory) :
    file.1 = fileName hier ∧ stade.contenu (w.db.select type bdd hier ojd) = some file.2 ∨
      file.1 ≤ fileName hier ∧ openLine file.2 = [] := by
  have present := (listed.mem file).mp member
  rw [(stade.monde_eq (absent_of_earlier ranges era earlier)).1] at present
  cases made : stade.contenu (w.db.select type bdd hier ojd) with
  | none =>
      rw [made] at present
      exact .inr (complete_of_earlier ranges era earlier present)
  | some content =>
      simp only [made] at present
      by_cases same : file.1 = fileName hier
      · rw [same, Function.update_self] at present
        exact .inl ⟨same, present⟩
      · rw [Function.update_of_ne same] at present
        exact .inr (complete_of_earlier ranges era earlier present)

/-- **The counts at a stage** are those of the other files and of the lines of the new one. -/
theorem Stade.getCountLu_eq (ranges : Ranges volumes (w.cache type)) (era : InEra hier)
    (earlier : ∀ volume ∈ volumes, volume.jour < hier) {stade : Stade}
    {before directory : Directory} (listedBefore : Listing before (w.cache type))
    (listed : Listing directory ((stade.monde hier ojd type bdd w).cache type)) (ID : Int)
    (pattern : Text) :
    getCountLu ID pattern directory =
      some (natText (foundLines ID pattern before +
        if wildcard pattern (fileName hier) = true
        then stade.vus ID (w.db.select type bdd hier ojd) else 0)) := by
  have upTo : ∀ file ∈ directory, file.1 ≤ fileName hier := fun file member =>
    (Stade.file_cases ranges era earlier listed member).elim (fun new => new.1.le) And.left
  have openLast : OpenLast directory := by
    intro file member isOpen other inDirectory
    rcases Stade.file_cases ranges era earlier listed member with ⟨name, -⟩ | ⟨-, complete⟩
    · exact (upTo other inDirectory).trans name.ge
    · exact absurd complete isOpen
  have made : Listing (stade.repertoire (fileName hier) (w.db.select type bdd hier ojd) before)
      ((stade.monde hier ojd type bdd w).cache type) :=
    stade.listing_repertoire (absent_of_earlier ranges era earlier) listedBefore
  rw [Dao.getCountLu_eq ID pattern listed.distinct openLast, foundLines_listing listed made,
    Stade.foundLines_repertoire]

/-- After the call all files are complete. -/
theorem Stade.complete_fini (ranges : Ranges volumes (w.cache type)) (era : InEra hier)
    (earlier : ∀ volume ∈ volumes, volume.jour < hier) {directory : Directory}
    (listed : Listing directory ((Stade.fini.monde hier ojd type bdd w).cache type)) :
    ∀ file ∈ directory, openLine file.2 = [] := by
  intro file member
  rcases Stade.file_cases ranges era earlier listed member with ⟨-, content⟩ | ⟨-, complete⟩
  · by_cases empty : w.db.select type bdd hier ojd = []
    · simp only [Stade.contenu, empty, ↓reduceIte] at content
      exact absurd content.symm (Option.some_ne_none _)
    · simp only [Stade.contenu, empty, ↓reduceIte] at content
      rw [← Option.some.inj content, openLine_csvFile]
  · exact complete

end Stages

/-! ## What is counted at a stage -/

namespace Stade

/-- A complete file has the selected rows of the identifier. -/
theorem vus_fini (ID : Int) (rs : List (Row ν)) : vus ID rs .fini = (rowsWithId ID rs).length := by
  by_cases empty : rs = []
  · simp [vus, contenu, empty, rowsWithId]
  · simp only [vus, contenu, empty, ↓reduceIte, hits_csvFile]

theorem vus_ouvert_le (ID : Int) (rs : List (Row ν)) (atteint : Nat) :
    vus ID rs (.ouvert atteint) ≤ vus ID rs .fini := by
  rw [vus_fini, ← hits_csvFile]
  exact hits_le_of_prefix ID (List.take_prefix _ _)

/-- **Along the stages more and more lines are counted.** -/
theorem vus_mono (ID : Int) (rs : List (Row ν)) {first second : Stade}
    (ordered : first.Precede second) : vus ID rs first ≤ vus ID rs second := by
  cases first with
  | avant => exact Nat.zero_le _
  | ouvert atteint =>
      cases second with
      | avant => exact ordered.elim
      | ouvert atteint' =>
          exact hits_le_of_prefix ID (List.take_prefix_take_left ordered)
      | ferme => exact vus_ouvert_le ID rs atteint
      | fini => exact vus_ouvert_le ID rs atteint
  | ferme =>
      cases second with
      | avant => exact ordered.elim
      | ouvert atteint' => exact ordered.elim
      | ferme => exact le_rfl
      | fini => exact le_rfl
  | fini =>
      cases second with
      | avant => exact ordered.elim
      | ouvert atteint' => exact ordered.elim
      | ferme => exact ordered.elim
      | fini => exact le_rfl

theorem vus_le (ID : Int) (rs : List (Row ν)) (stade : Stade) :
    vus ID rs stade ≤ vus ID rs .fini := by
  refine vus_mono ID rs ?_
  cases stade <;> trivial

end Stade

end Trading.Dao
