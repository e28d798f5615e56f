import Trading.Recup.BDD

/-!
# What an archive run keeps

`Kept` relates the world before a run to the world after it: the registries and the files
that were there are unchanged, and each table is either unchanged or has lost exactly the
window, whose rows are then in the file of the day. The relation is reflexive and transitive
and every call of `write` is an instance of it, whatever steps throw, so every run is
(`run_kept`). No row is lost (`run_loses_nothing`).

This needs the identifiers of the live rows to be registered. A call without errors deletes
the whole window but writes only what the join returns, so it removes what it wrote exactly
when each row of the window is registered once (`write_removes_what_it_wrote_iff`).
-/

set_option autoImplicit false

namespace Trading.Recup

open Trading.Calendar Trading.Text

variable {ν : Type} [Rendered ν]

/-! ## Rows in files -/

/-- How many lines of a cache file are the line of a row. -/
def World.lineCount (w : World ν) (type name : Text) (row : Row ν) : Nat :=
  match w.cache type name with
  | none => 0
  | some file => (lines file).count (record row.cells)

theorem World.lineCount_of_some {w : World ν} {type name file : Text}
    (present : w.cache type name = some file) (row : Row ν) :
    w.lineCount type name row = (lines file).count (record row.cells) := by
  simp only [World.lineCount, present]

/-- Files that stay keep their lines. -/
theorem World.lineCount_le {w w' : World ν} {type name : Text}
    (keeps : ∀ file, w.cache type name = some file → w'.cache type name = some file)
    (row : Row ν) : w.lineCount type name row ≤ w'.lineCount type name row := by
  cases present : w.cache type name with
  | none => simp only [World.lineCount, present, Nat.zero_le]
  | some file => rw [World.lineCount_of_some present, World.lineCount_of_some (keeps file present)]

/-- Every live row of the tables of `SITES` has an identifier of the registry of its entry. -/
def AllRegistered (sites : List Site) (w : World ν) : Prop :=
  ∀ site ∈ sites, ∀ row ∈ w.db.vals site.type,
    ∃ indice ∈ w.db.registry site.bdd, row.id = some indice.id

variable [DecidableEq ν]

/-- A file holds the line of a row at least as often as the row was written. -/
theorem count_le_count_csvFile (rows : List (Row ν)) (row : Row ν) :
    rows.count row ≤ (lines (csvFile rows)).count (record row.cells) := by
  rw [lines_csvFile]
  calc rows.count row
      ≤ (rows.map fun row => record row.cells).count (record row.cells) :=
        List.count_le_count_map (f := fun row : Row ν => record row.cells)
    _ ≤ _ := List.count_le_count_cons

/-! ## Kept -/

/-- Between two worlds nothing is lost for the window of a run. -/
structure Kept (hier ojd : Int) (w w' : World ν) : Prop where
  registry : w'.db.registry = w.db.registry
  files : ∀ type name file, w.cache type name = some file → w'.cache type name = some file
  tables : ∀ type, w'.db.vals type = w.db.vals type ∨
    w'.db.vals type = ((w.db.vals type).filter fun row => !row.inWindow hier ojd) ∧
      ∀ row, row.inWindow hier ojd = true →
        (w.db.vals type).count row ≤ w'.lineCount type (fileName hier) row

namespace Kept

variable {hier ojd : Int} {w w' w'' : World ν}

theorem refl (hier ojd : Int) (w : World ν) : Kept hier ojd w w where
  registry := rfl
  files := fun _ _ _ present => present
  tables := fun _ => .inl rfl

theorem trans (first : Kept hier ojd w w') (second : Kept hier ojd w' w'') :
    Kept hier ojd w w'' where
  registry := second.registry.trans first.registry
  files := fun type name file present =>
    second.files type name file (first.files type name file present)
  tables := fun type => by
    have later := fun row => World.lineCount_le (second.files type (fileName hier)) row
    rcases first.tables type with same | ⟨cleared, written⟩
    · rcases second.tables type with same' | ⟨cleared', written'⟩
      · exact .inl (same'.trans same)
      · rw [same] at cleared' written'
        exact .inr ⟨cleared', written'⟩
    · refine .inr ⟨?_, fun row window => (written row window).trans (later row)⟩
      rcases second.tables type with same' | ⟨cleared', -⟩
      · exact same'.trans cleared
      · rw [cleared', cleared, List.filter_filter]
        simp only [Bool.and_self]

/-- Rows are only removed from a table. -/
theorem subset (kept : Kept hier ojd w w') (type : Text) : w'.db.vals type ⊆ w.db.vals type := by
  rcases kept.tables type with same | ⟨cleared, -⟩
  · rw [same]
    exact List.Subset.refl _
  · rw [cleared]
    exact List.filter_subset_self _

theorem allRegistered (kept : Kept hier ojd w w') {sites : List Site}
    (registered : AllRegistered sites w) : AllRegistered sites w' := by
  intro site member row live
  rw [kept.registry]
  exact registered site member row (kept.subset site.type live)

/-- A row is still live or in the file of the day. -/
theorem count_le (kept : Kept hier ojd w w') (type : Text) (row : Row ν) :
    (w.db.vals type).count row ≤
      (w'.db.vals type).count row + w'.lineCount type (fileName hier) row := by
  rcases kept.tables type with same | ⟨cleared, written⟩
  · rw [same]
    exact Nat.le_add_right _ _
  · by_cases window : row.inWindow hier ojd = true
    · exact (written row window).trans (Nat.le_add_left _ _)
    · rw [cleared, List.count_filter (by simp [window])]
      exact Nat.le_add_right _ _

/-- The rows outside the window are untouched. -/
theorem filter_outside (kept : Kept hier ojd w w') (type : Text) :
    ((w'.db.vals type).filter fun row => !row.inWindow hier ojd) =
      (w.db.vals type).filter fun row => !row.inWindow hier ojd := by
  rcases kept.tables type with same | ⟨cleared, -⟩
  · rw [same]
  · rw [cleared, List.filter_filter]
    simp only [Bool.and_self]

end Kept

/-! ## Calls and runs -/

/-- The archive of a window keeps every row, when the window is registered. -/
theorem World.archive_kept {w : World ν} {hier ojd : Int} {type bdd : Text}
    (absent : w.cache type (fileName hier) = none)
    (registered : ∀ row ∈ w.db.vals type, ∃ indice ∈ w.db.registry bdd, row.id = some indice.id) :
    Kept hier ojd w (w.archive hier ojd type bdd) where
  registry := rfl
  files := fun otherType otherName file present => by
    by_cases empty : w.db.select type bdd hier ojd = []
    · simpa only [World.archive, empty, ↓reduceIte] using present
    · simpa only [World.archive, empty, ↓reduceIte] using World.setFile_keeps absent present
  tables := fun other => by
    by_cases same : other = type
    · subst same
      refine .inr ⟨w.db.delete_vals_self other hier ojd, fun row window => ?_⟩
      -- each row of the window is selected at least as often as it is live
      have selected : (w.db.vals other).count row ≤ (w.db.select other bdd hier ojd).count row := by
        rw [w.db.count_select, List.count_filter window]
        by_cases live : row ∈ w.db.vals other
        · exact Nat.le_mul_of_pos_left _ (Database.registered_pos.mpr (registered row live))
        · rw [List.count_eq_zero.mpr live]
          exact Nat.zero_le _
      by_cases empty : w.db.select other bdd hier ojd = []
      · rw [empty] at selected
        exact selected.trans (Nat.zero_le _)
      · have present : (w.archive hier ojd other bdd).cache other (fileName hier) =
            some (csvFile (w.db.select other bdd hier ojd)) := by
          simp only [World.archive, empty, ↓reduceIte, World.setFile_self]
        rw [World.lineCount_of_some present]
        exact selected.trans (count_le_count_csvFile _ row)
    · exact .inl (w.db.delete_vals_of_ne same hier ojd)

theorem Effect.kept {hier ojd : Int} {type bdd : Text} {faults : Faults} {w w' : World ν}
    (effect : Effect hier ojd type bdd faults w w')
    (registered : ∀ row ∈ w.db.vals type, ∃ indice ∈ w.db.registry bdd, row.id = some indice.id) :
    Kept hier ojd w w' := by
  cases effect with
  | unchanged _ => exact Kept.refl hier ojd w
  | interrupted _ absent _ file _ _ =>
      exact
        { registry := rfl
          files := fun _ _ _ present => World.setFile_keeps absent present
          tables := fun _ => .inl rfl }
  | archived _ absent _ _ => exact World.archive_kept absent registered

theorem writeSites_kept (hier ojd : Int) (sites : List Site) :
    ∀ (faults : Nat → Faults) (w : World ν),
    AllRegistered sites w → Kept hier ojd w (writeSites hier ojd sites faults w) := by
  induction sites with
  | nil => exact fun _ w _ => Kept.refl hier ojd w
  | cons site sites ih =>
      intro faults w registered
      have call := (write_effect hier ojd site.type site.bdd (faults 0) w).kept
        (registered site List.mem_cons_self)
      have rest : AllRegistered sites w := fun later member =>
        registered later (List.mem_cons_of_mem _ member)
      exact call.trans (ih (fun i => faults (i + 1)) _ (call.allRegistered rest))

theorem run_kept (sites : List Site) (jour : Int) (faults : Nat → Faults) (w : World ν)
    (registered : AllRegistered sites w) : Kept (hierOf jour) jour w (run sites jour faults w) :=
  writeSites_kept (hierOf jour) jour sites faults w registered

/-- **Archiving never loses a value, wherever it fails.** Whatever steps throw, each live row
is still live or its line is in the file of the day of its table (as often as it was live),
the rows outside the window are still live, and files that were there are unchanged. -/
theorem run_loses_nothing (sites : List Site) (jour : Int) (faults : Nat → Faults) (w : World ν)
    (registered : AllRegistered sites w) :
    (∀ type row, (w.db.vals type).count row ≤
        ((run sites jour faults w).db.vals type).count row +
          (run sites jour faults w).lineCount type (fileName (hierOf jour)) row) ∧
      (∀ type, (((run sites jour faults w).db.vals type).filter
          fun row => !row.inWindow (hierOf jour) jour) =
        (w.db.vals type).filter fun row => !row.inWindow (hierOf jour) jour) ∧
      ∀ type name file, w.cache type name = some file →
        (run sites jour faults w).cache type name = some file := by
  have kept := run_kept sites jour faults w registered
  exact ⟨kept.count_le, kept.filter_outside, kept.files⟩

/-- A day of the cached files. -/
def sampleDay : Int := 737160

/-- An entry of `SITES` with the tables of the contracts. -/
def sampleSite : Site where
  url := "https://www.investing.com/indices/indices-cfds".toList
  type := "cfd".toList
  table := "1".toList
  pays := "0".toList
  nom := "1".toList
  val := "2".toList
  bdd := "indices".toList

/-- A row of the contracts, with the second of its day. -/
def sampleRow (id : Option Int) (val jour : Int) (seconde : Fin 86400) : Row Int :=
  ⟨id, val, ⟨jour, seconde⟩⟩

/-- A world with given contracts, where the instruments `0` and `1` are registered. -/
def sampleWorld (rows : List (Row Int)) : World Int where
  db :=
    { vals := fun type => if type = "cfd".toList then rows else []
      registry := fun bdd =>
        if bdd = "indices".toList then [⟨0, some 0, "US 30".toList⟩, ⟨1, some 0, "DAX".toList⟩]
        else [] }
  cache := fun _ _ => none

/-- A row of yesterday and a row of today. -/
def sampleRows : List (Row Int) :=
  [sampleRow (some 0) 26155 (sampleDay - 1) 40529, sampleRow (some 1) 12 sampleDay 3]

/-- The third write of the first row throws, after twenty characters. -/
def sampleFaults : Nat → Faults := fun _ step => if step = .fwWrite 6 then some 20 else none

/-- A run over two entries of one table, with a row of yesterday and one of today. -/
theorem run_loses_nothing_sample :
    AllRegistered [sampleSite, sampleSite] (sampleWorld sampleRows) ∧
      1 ≤ ((run [sampleSite, sampleSite] sampleDay sampleFaults
            (sampleWorld sampleRows)).db.vals "cfd".toList).count
          (sampleRow (some 0) 26155 (sampleDay - 1) 40529) +
        (run [sampleSite, sampleSite] sampleDay sampleFaults (sampleWorld sampleRows)).lineCount
          "cfd".toList (fileName (hierOf sampleDay))
          (sampleRow (some 0) 26155 (sampleDay - 1) 40529) := by
  have registered : AllRegistered [sampleSite, sampleSite] (sampleWorld sampleRows) := by
    unfold AllRegistered
    decide
  have live : ((sampleWorld sampleRows).db.vals "cfd".toList).count
      (sampleRow (some 0) 26155 (sampleDay - 1) 40529) = 1 := by decide
  have kept := (run_loses_nothing _ sampleDay sampleFaults _ registered).1 "cfd".toList
    (sampleRow (some 0) 26155 (sampleDay - 1) 40529)
  rw [live] at kept
  exact ⟨registered, kept⟩

/-! ## Calls without errors -/

/-- **What is deleted is what was written exactly when each row of the window is registered
once.** The file has the selected rows, the table loses the window, and the rows before the
call are the rows after it and the selected ones, with their multiplicities, if and only if
the identifier of each row of the window occurs once in the registry. -/
theorem write_removes_what_it_wrote_iff {hier ojd : Int} {type bdd : Text} {w : World ν}
    (absent : w.cache type (fileName hier) = none) :
    (write hier ojd type bdd noFault w).1.cache type (fileName hier) =
        (if w.db.select type bdd hier ojd = [] then none
          else some (csvFile (w.db.select type bdd hier ojd))) ∧
      (write hier ojd type bdd noFault w).1.db.vals type =
        ((w.db.vals type).filter fun row => !row.inWindow hier ojd) ∧
      ((w.db.vals type).Perm ((write hier ojd type bdd noFault w).1.db.vals type ++
          w.db.select type bdd hier ojd) ↔
        ∀ row ∈ w.db.vals type, row.inWindow hier ojd = true → w.db.registered bdd row.id = 1) := by
  rw [write_noFault absent]
  have cleared : (w.archive hier ojd type bdd).db.vals type =
      (w.db.vals type).filter fun row => !row.inWindow hier ojd :=
    w.db.delete_vals_self type hier ojd
  refine ⟨?_, cleared, ?_⟩
  · by_cases empty : w.db.select type bdd hier ojd = []
    · simp only [World.archive, empty, ↓reduceIte, absent]
    · simp only [World.archive, empty, ↓reduceIte, World.setFile_self]
  · rw [cleared, List.perm_iff_count]
    -- the window is counted once on the left and once for each registration on the right
    have split : ∀ row, (w.db.vals type).count row =
        ((w.db.vals type).filter fun row => !row.inWindow hier ojd).count row +
          ((w.db.vals type).filter fun row => row.inWindow hier ojd).count row := by
      intro row
      rw [← (List.filter_append_perm (fun row => row.inWindow hier ojd) (w.db.vals type)).count_eq,
        List.count_append, Nat.add_comm]
    constructor
    · intro same row live window
      have counted := same row
      rw [split row, List.count_append, w.db.count_select, Nat.add_left_cancel_iff] at counted
      have positive : 0 < ((w.db.vals type).filter fun row => row.inWindow hier ojd).count row :=
        List.count_pos_iff.mpr (List.mem_filter.mpr ⟨live, window⟩)
      exact (Nat.eq_of_mul_eq_mul_right positive (by rw [← counted, Nat.one_mul]))
    · intro once row
      rw [split row, List.count_append, w.db.count_select, Nat.add_left_cancel_iff]
      by_cases member : row ∈ (w.db.vals type).filter fun row => row.inWindow hier ojd
      · obtain ⟨live, window⟩ := List.mem_filter.mp member
        rw [once row live window, Nat.one_mul]
      · rw [List.count_eq_zero.mpr member, Nat.mul_zero]

/-- A window whose rows are registered once. -/
theorem write_removes_what_it_wrote_sample :
    (sampleWorld sampleRows).cache "cfd".toList (fileName (sampleDay - 1)) = none ∧
      ((sampleWorld sampleRows).db.vals "cfd".toList).Perm
        ((write (sampleDay - 1) sampleDay "cfd".toList "indices".toList noFault
            (sampleWorld sampleRows)).1.db.vals "cfd".toList ++
          (sampleWorld sampleRows).db.select "cfd".toList "indices".toList (sampleDay - 1)
            sampleDay) :=
  have absent : (sampleWorld sampleRows).cache "cfd".toList (fileName (sampleDay - 1)) = none := rfl
  ⟨absent, (write_removes_what_it_wrote_iff absent).2.2.mpr (by decide)⟩

/-- The recorder inserts a null identifier for a name without registration. The row is
deleted, and no line of it is written. -/
theorem orphan_row_is_deleted_unwritten :
    (sampleWorld [sampleRow none 7 (sampleDay - 1) 5]).cache "cfd".toList
        (fileName (sampleDay - 1)) = none ∧
      (write (sampleDay - 1) sampleDay "cfd".toList "indices".toList noFault
        (sampleWorld [sampleRow none 7 (sampleDay - 1) 5])).1.db.vals "cfd".toList = [] ∧
      (sampleWorld [sampleRow none 7 (sampleDay - 1) 5]).db.select "cfd".toList "indices".toList
        (sampleDay - 1) sampleDay = [] ∧
      ¬ ((sampleWorld [sampleRow none 7 (sampleDay - 1) 5]).db.vals "cfd".toList).Perm
        ((write (sampleDay - 1) sampleDay "cfd".toList "indices".toList noFault
            (sampleWorld [sampleRow none 7 (sampleDay - 1) 5])).1.db.vals "cfd".toList ++
          (sampleWorld [sampleRow none 7 (sampleDay - 1) 5]).db.select "cfd".toList
            "indices".toList (sampleDay - 1) sampleDay) := by
  decide +kernel

end Trading.Recup
