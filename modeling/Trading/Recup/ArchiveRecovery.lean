import Trading.Recup.ArchiveSafety

/-!
# Runs that failed and were started again

On one calendar day the archiver may be started several times. A later run decides only on
the existence of the file of the day, so it matters what the earlier ones left behind.

A call is interrupted when it opens the file for a window with rows and throws before it
returns. The file then stays, complete or not, the rows stay live, and no later run of the
day touches either of them. Without such a call, and with registry identifiers that are
unique, a last run without errors leaves each row of the window in the file once and not in
the table. Both directions together are `recovers_iff`.
-/

set_option autoImplicit false

namespace Trading.Recup

open Trading.Calendar Trading.Text

variable {ν : Type} [Rendered ν]

/-! ## Interrupted calls -/

/-- The call opens the file of the day for at least one row and then throws. -/
def Interrupts (hier ojd : Int) (type bdd : Text) (faults : Faults) (w : World ν) : Prop :=
  faults .select = none ∧ w.cache type (fileName hier) = none ∧ faults .openFile = none ∧
    w.db.select type bdd hier ojd ≠ [] ∧
      ∃ step, step.whileOpen (w.db.select type bdd hier ojd).length ∧ faults step ≠ none

/-- No call of a run is interrupted, each one in the world it starts from. -/
def CallsComplete (hier ojd : Int) : List Site → (Nat → Faults) → World ν → Prop
  | [], _, _ => True
  | site :: sites, faults, w =>
      ¬ Interrupts hier ojd site.type site.bdd (faults 0) w ∧
        CallsComplete hier ojd sites (fun i => faults (i + 1))
          (write hier ojd site.type site.bdd (faults 0) w).1

/-- Several runs of one day, one after the other. -/
def runs (sites : List Site) (jour : Int) : List (Nat → Faults) → World ν → World ν
  | [], w => w
  | faults :: later, w => runs sites jour later (run sites jour faults w)

/-- No call of these runs is interrupted. -/
def RunsComplete (sites : List Site) (jour : Int) : List (Nat → Faults) → World ν → Prop
  | [], _ => True
  | faults :: later, w =>
      CallsComplete (hierOf jour) jour sites faults w ∧
        RunsComplete sites jour later (run sites jour faults w)

/-- The rows of the window are in the file of the day once, and not in the table. -/
def Recovered (sites : List Site) (jour : Int) (before after : World ν) : Prop :=
  ∀ site ∈ sites, ∀ row ∈ before.db.vals site.type, row.inWindow (hierOf jour) jour = true →
    row ∉ after.db.vals site.type ∧ after.lineCount site.type (fileName (hierOf jour)) row = 1

/-! ## A file that stays -/

/-- The file of the day is there and a row of the window is still live. -/
def Blocked (hier ojd : Int) (type : Text) (row : Row ν) (w : World ν) : Prop :=
  w.cache type (fileName hier) ≠ none ∧ row ∈ w.db.vals type ∧ row.inWindow hier ojd = true

theorem Blocked.after_write {hier ojd : Int} {type : Text} {row : Row ν} {w : World ν}
    (blocked : Blocked hier ojd type row w) (other bdd : Text) (faults : Faults) :
    Blocked hier ojd type row (write hier ojd other bdd faults w).1 := by
  have effect := write_effect hier ojd other bdd faults w
  by_cases same : type = other
  · subst same
    rw [effect.eq_of_present blocked.1]
    exact blocked
  · obtain ⟨sameRows, sameFiles⟩ := effect.frame same
    unfold Blocked
    rw [sameRows, sameFiles]
    exact blocked

theorem Blocked.after_writeSites {hier ojd : Int} {type : Text} {row : Row ν} (sites : List Site) :
    ∀ (faults : Nat → Faults) (w : World ν), Blocked hier ojd type row w →
      Blocked hier ojd type row (writeSites hier ojd sites faults w) := by
  induction sites with
  | nil => exact fun _ _ blocked => blocked
  | cons site sites ih =>
      intro faults w blocked
      exact ih _ _ (blocked.after_write site.type site.bdd (faults 0))

theorem Blocked.after_runs {sites : List Site} {jour : Int} {type : Text} {row : Row ν}
    (executions : List (Nat → Faults)) : ∀ w : World ν, Blocked (hierOf jour) jour type row w →
      Blocked (hierOf jour) jour type row (runs sites jour executions w) := by
  induction executions with
  | nil => exact fun _ blocked => blocked
  | cons faults later ih => exact fun w blocked => ih _ (blocked.after_writeSites sites faults w)

/-- An interrupted call leaves a row behind that is blocked. -/
theorem Interrupts.blocked {hier ojd : Int} {type bdd : Text} {faults : Faults} {w : World ν}
    (interrupts : Interrupts hier ojd type bdd faults w) :
    ∃ row ∈ w.db.vals type, Blocked hier ojd type row (write hier ojd type bdd faults w).1 := by
  obtain ⟨selected, absent, opened, someRow, step, within, fault⟩ := interrupts
  obtain ⟨row, rows, isSelected⟩ := List.exists_cons_of_ne_nil someRow
  have member : row ∈ w.db.select type bdd hier ojd := isSelected ▸ List.mem_cons_self
  obtain ⟨live, window, -⟩ := Database.mem_select.mp member
  refine ⟨row, live, ?_⟩
  have effect := write_effect hier ojd type bdd faults w
  generalize (write hier ojd type bdd faults w).1 = after at effect
  cases effect with
  | unchanged reason =>
      rcases reason with select | present | opening | ⟨empty, -⟩
      · exact absurd selected select
      · exact absurd absent present
      · exact absurd opened opening
      · exact absurd empty someRow
  | interrupted _ _ _ file _ _ => exact ⟨by simp, live, window⟩
  | archived _ _ _ fine => exact absurd (fine step within) fault

theorem blocked_of_not_callsComplete {hier ojd : Int} (sites : List Site) :
    ∀ (faults : Nat → Faults) (w : World ν), ¬ CallsComplete hier ojd sites faults w →
      ∃ site ∈ sites, ∃ row,
        Blocked hier ojd site.type row (writeSites hier ojd sites faults w) := by
  induction sites with
  | nil => exact fun _ _ incomplete => absurd trivial incomplete
  | cons site sites ih =>
      intro faults w incomplete
      by_cases interrupts : Interrupts hier ojd site.type site.bdd (faults 0) w
      · obtain ⟨row, -, blocked⟩ := interrupts.blocked
        exact ⟨site, List.mem_cons_self, row, blocked.after_writeSites sites _ _⟩
      · obtain ⟨later, member, row, blocked⟩ := ih (fun i => faults (i + 1))
          (write hier ojd site.type site.bdd (faults 0) w).1
          fun complete => incomplete ⟨interrupts, complete⟩
        exact ⟨later, List.mem_cons_of_mem _ member, row, blocked⟩

theorem blocked_of_not_runsComplete {sites : List Site} {jour : Int}
    (executions : List (Nat → Faults)) : ∀ w : World ν, ¬ RunsComplete sites jour executions w →
      ∃ site ∈ sites, ∃ row,
        Blocked (hierOf jour) jour site.type row (runs sites jour executions w) := by
  induction executions with
  | nil => exact fun _ incomplete => absurd trivial incomplete
  | cons faults later ih =>
      intro w incomplete
      by_cases calls : CallsComplete (hierOf jour) jour sites faults w
      · exact ih _ fun complete => incomplete ⟨calls, complete⟩
      · obtain ⟨site, member, row, blocked⟩ := blocked_of_not_callsComplete sites faults w calls
        exact ⟨site, member, row, blocked.after_runs later _⟩

/-! ## Recovery -/

/-- The start of the day: no file of the day yet, and live rows that are pairwise distinct and
registered. -/
structure DayStart (sites : List Site) (jour : Int) (w : World ν) : Prop where
  absent : ∀ site ∈ sites, w.cache site.type (fileName (hierOf jour)) = none
  distinct : ∀ site ∈ sites, (w.db.vals site.type).Nodup
  registered : AllRegistered sites w

/-- The registries of `SITES` have no identifier twice. -/
def UniqueIds (sites : List Site) (w : World ν) : Prop :=
  ∀ site ∈ sites, ((w.db.registry site.bdd).map RegistryRow.id).Nodup

variable [DecidableEq ν]

/-- A file with rows of one day holds the line of a row as often as the row. -/
theorem count_csvFile {rows : List (Row ν)} {row : Row ν}
    (sameDay : ∀ other ∈ rows, other.date.jour = row.date.jour) :
    (lines (csvFile rows)).count (record row.cells) = rows.count row := by
  rw [lines_csvFile, List.count_cons_of_ne (record_labels_ne row), List.count, List.countP_map,
    List.count]
  apply List.countP_congr
  intro other member
  simp only [Function.comp_apply, beq_iff_eq]
  exact ⟨record_injective (sameDay other member), fun same => by rw [same]⟩

/-- An archived window is in its file once, when its rows are distinct and registered once. -/
theorem World.lineCount_archive {w : World ν} {jour : Int} {type bdd : Text} {row : Row ν}
    (distinct : (w.db.vals type).Nodup)
    (registered : ∀ row ∈ w.db.vals type, ∃ indice ∈ w.db.registry bdd, row.id = some indice.id)
    (unique : ((w.db.registry bdd).map RegistryRow.id).Nodup)
    (live : row ∈ w.db.vals type) (window : row.inWindow (hierOf jour) jour = true) :
    (w.archive (hierOf jour) jour type bdd).lineCount type (fileName (hierOf jour)) row = 1 := by
  have selected : (w.db.select type bdd (hierOf jour) jour).count row = 1 := by
    have once : w.db.registered bdd row.id = 1 := Nat.le_antisymm
      (Database.registered_le_one unique row.id) (Database.registered_pos.mpr (registered row live))
    rw [w.db.count_select, once, Nat.one_mul, List.count_filter window,
      List.count_eq_one_of_mem distinct live]
  have someRow : w.db.select type bdd (hierOf jour) jour ≠ [] := by
    intro empty
    rw [empty] at selected
    cases selected
  have present : (w.archive (hierOf jour) jour type bdd).cache type (fileName (hierOf jour)) =
      some (csvFile (w.db.select type bdd (hierOf jour) jour)) := by
    simp only [World.archive, someRow, ↓reduceIte, World.setFile_self]
  rw [World.lineCount_of_some present, count_csvFile, selected]
  intro other member
  obtain ⟨-, otherWindow, -⟩ := Database.mem_select.mp member
  rw [Row.inWindow_iff.mp otherWindow, Row.inWindow_iff.mp window]

/-- A table as at the start of the day, without a file. -/
structure Waiting (jour : Int) (type : Text) (start w : World ν) : Prop where
  registry : w.db.registry = start.db.registry
  rows : w.db.vals type = start.db.vals type
  absent : w.cache type (fileName (hierOf jour)) = none

/-- A table whose window is archived. -/
structure Archived (jour : Int) (type : Text) (start w : World ν) : Prop where
  registry : w.db.registry = start.db.registry
  rows : w.db.vals type = (start.db.vals type).filter fun row => !row.inWindow (hierOf jour) jour
  written : ∀ row ∈ start.db.vals type, row.inWindow (hierOf jour) jour = true →
    w.lineCount type (fileName (hierOf jour)) row = 1

section Phases

variable {sites : List Site} {jour : Int} {type : Text} {start w : World ν} {row : Row ν}

omit [DecidableEq ν] in
/-- A call for another table changes nothing here. -/
theorem Waiting.after_write_of_ne (waiting : Waiting jour type start w) {other bdd : Text}
    (different : type ≠ other) (faults : Faults) :
    Waiting jour type start (write (hierOf jour) jour other bdd faults w).1 := by
  have effect := write_effect (hierOf jour) jour other bdd faults w
  obtain ⟨sameRows, sameFiles⟩ := effect.frame different
  exact
    { registry := effect.registry.trans waiting.registry
      rows := sameRows.trans waiting.rows
      absent := by rw [sameFiles, waiting.absent] }

omit [DecidableEq ν] in
/-- A table whose window had a row stays archived. -/
theorem Archived.after_write (archived : Archived jour type start w)
    (live : row ∈ start.db.vals type)
    (window : row.inWindow (hierOf jour) jour = true) (other bdd : Text) (faults : Faults) :
    Archived jour type start (write (hierOf jour) jour other bdd faults w).1 := by
  have effect := write_effect (hierOf jour) jour other bdd faults w
  by_cases same : type = other
  · subst same
    have present : w.cache type (fileName (hierOf jour)) ≠ none := by
      intro absent
      have once := archived.written row live window
      simp only [World.lineCount, absent] at once
      cases once
    rw [effect.eq_of_present present]
    exact archived
  · obtain ⟨sameRows, sameFiles⟩ := effect.frame same
    exact
      { registry := effect.registry.trans archived.registry
        rows := sameRows.trans archived.rows
        written := fun other live window => by
          have once := archived.written other live window
          simp only [World.lineCount, sameFiles] at once ⊢
          exact once }

variable (ready : DayStart sites jour start) (unique : UniqueIds sites start)
include ready unique

theorem Waiting.archive (waiting : Waiting jour type start w) {site : Site} (member : site ∈ sites)
    (same : site.type = type) :
    Archived jour type start (w.archive (hierOf jour) jour type site.bdd) := by
  subst same
  have distinct := ready.distinct site member
  have registered := ready.registered site member
  have uniqueHere := unique site member
  rw [← waiting.rows, ← waiting.registry] at registered
  rw [← waiting.rows] at distinct
  rw [← waiting.registry] at uniqueHere
  exact
    { registry := waiting.registry
      rows := by
        rw [← waiting.rows]
        exact w.db.delete_vals_self site.type _ _
      written := fun row live window =>
        World.lineCount_archive distinct registered uniqueHere (waiting.rows ▸ live) window }

/-- A call that is not interrupted leaves its table waiting or archives it. -/
theorem Waiting.after_write (waiting : Waiting jour type start w) (live : row ∈ start.db.vals type)
    (window : row.inWindow (hierOf jour) jour = true) {site : Site} (member : site ∈ sites)
    (same : site.type = type) {faults : Faults}
    (complete : ¬ Interrupts (hierOf jour) jour type site.bdd faults w) :
    Waiting jour type start (write (hierOf jour) jour type site.bdd faults w).1 ∨
      Archived jour type start (write (hierOf jour) jour type site.bdd faults w).1 := by
  have effect := write_effect (hierOf jour) jour type site.bdd faults w
  generalize (write (hierOf jour) jour type site.bdd faults w).1 = after at effect
  cases effect with
  | unchanged _ => exact .inl waiting
  | interrupted selected absent opened file _ thrown =>
      -- the row of the window is registered, so the call was for at least one row
      refine absurd ⟨selected, absent, opened, ?_, thrown⟩ complete
      subst same
      refine List.ne_nil_of_mem (Database.mem_select.mpr ⟨waiting.rows ▸ live, window, ?_⟩)
      rw [waiting.registry]
      exact ready.registered site member row live
  | archived _ _ _ _ => exact .inr (waiting.archive ready unique member same)

theorem phase_writeSites (live : row ∈ start.db.vals type)
    (window : row.inWindow (hierOf jour) jour = true) (calls : List Site) :
    (∀ site ∈ calls, site ∈ sites) → ∀ (faults : Nat → Faults) (w : World ν),
      CallsComplete (hierOf jour) jour calls faults w →
      (Waiting jour type start w ∨ Archived jour type start w) →
        Waiting jour type start (writeSites (hierOf jour) jour calls faults w) ∨
          Archived jour type start (writeSites (hierOf jour) jour calls faults w) := by
  induction calls with
  | nil => exact fun _ _ _ _ phase => phase
  | cons site calls ih =>
      intro among faults w complete phase
      refine ih (fun later member => among later (List.mem_cons_of_mem _ member)) _ _ complete.2 ?_
      rcases phase with waiting | archived
      · by_cases same : site.type = type
        · subst same
          exact waiting.after_write ready unique live window (among site List.mem_cons_self) rfl
            complete.1
        · exact .inl (waiting.after_write_of_ne (fun equal => same equal.symm) (faults 0))
      · exact .inr (archived.after_write live window site.type site.bdd (faults 0))

theorem phase_runs (live : row ∈ start.db.vals type)
    (window : row.inWindow (hierOf jour) jour = true) (executions : List (Nat → Faults)) :
    ∀ w : World ν, RunsComplete sites jour executions w →
      (Waiting jour type start w ∨ Archived jour type start w) →
        Waiting jour type start (runs sites jour executions w) ∨
          Archived jour type start (runs sites jour executions w) := by
  induction executions with
  | nil => exact fun _ _ phase => phase
  | cons faults later ih =>
      intro w complete phase
      exact ih _ complete.2
        (phase_writeSites ready unique live window sites (fun _ member => member) faults w
          complete.1 phase)

/-- A run without errors archives every table that is still waiting. -/
theorem archived_writeSites_noFault (live : row ∈ start.db.vals type)
    (window : row.inWindow (hierOf jour) jour = true) (calls : List Site) :
    (∀ site ∈ calls, site ∈ sites) → ∀ w : World ν,
      (Archived jour type start w ∨ Waiting jour type start w ∧ ∃ site ∈ calls, site.type = type) →
        Archived jour type start (writeSites (hierOf jour) jour calls (fun _ => noFault) w) := by
  induction calls with
  | nil =>
      rintro - w (archived | ⟨-, site, member, -⟩)
      · exact archived
      · cases member
  | cons site calls ih =>
      intro among w phase
      refine ih (fun later member => among later (List.mem_cons_of_mem _ member)) _ ?_
      rcases phase with archived | ⟨waiting, later, member, same⟩
      · exact .inl (archived.after_write live window site.type site.bdd noFault)
      · by_cases here : site.type = type
        · subst here
          rw [write_noFault waiting.absent]
          exact .inl (waiting.archive ready unique (among site List.mem_cons_self) rfl)
        · refine .inr ⟨waiting.after_write_of_ne (fun equal => here equal.symm) noFault, later,
            ?_, same⟩
          rcases List.mem_cons.mp member with rfl | inCalls
          · exact absurd same here
          · exact inCalls

end Phases

theorem runs_kept {sites : List Site} {jour : Int} (executions : List (Nat → Faults)) :
    ∀ w : World ν, AllRegistered sites w →
      Kept (hierOf jour) jour w (runs sites jour executions w) := by
  induction executions with
  | nil => exact fun w _ => Kept.refl _ _ w
  | cons faults later ih =>
      intro w registered
      have first := run_kept sites jour faults w registered
      exact first.trans (ih _ (first.allRegistered registered))

/-- **Archive and table are disjoint after recovery exactly when no call was interrupted.** With
unique registry identifiers, after any runs of a day and a last run without errors, each row
of the window is in the file of the day once and no longer live, if and only if none of the
earlier runs threw between the opening of a file for a window with rows and the end of that
call. -/
theorem recovers_iff (sites : List Site) (jour : Int) (executions : List (Nat → Faults))
    (start : World ν) (ready : DayStart sites jour start) (unique : UniqueIds sites start) :
    Recovered sites jour start
        (run sites jour (fun _ => noFault) (runs sites jour executions start)) ↔
      RunsComplete sites jour executions start := by
  constructor
  · intro recovered
    by_contra incomplete
    obtain ⟨site, member, row, blocked⟩ := blocked_of_not_runsComplete executions start incomplete
    have last := blocked.after_writeSites sites (fun _ => noFault) _
    have live : row ∈ start.db.vals site.type :=
      (runs_kept executions start ready.registered).subset site.type blocked.2.1
    exact (recovered site member row live blocked.2.2).1 last.2.1
  · intro complete site member row live window
    have waiting : Waiting jour site.type start start :=
      ⟨rfl, rfl, ready.absent site member⟩
    have archived : Archived jour site.type start
        (run sites jour (fun _ => noFault) (runs sites jour executions start)) := by
      refine archived_writeSites_noFault ready unique live window sites
        (fun _ inSites => inSites) _ ?_
      rcases phase_runs ready unique live window executions start complete (.inl waiting) with
        still | already
      · exact .inr ⟨still, site, member, rfl⟩
      · exact .inl already
    refine ⟨?_, archived.written row live window⟩
    rw [archived.rows]
    simp [List.mem_filter, window]

/-- The opening of every file throws. -/
def openFaults : Nat → Faults := fun _ step => if step = .openFile then some 0 else none

theorem sample_dayStart : DayStart [sampleSite, sampleSite] sampleDay (sampleWorld sampleRows) where
  absent := fun _ _ => rfl
  distinct := by decide
  registered := by
    unfold AllRegistered
    decide

/-- A first run that cannot open its file does no harm. -/
theorem recovers_sample :
    DayStart [sampleSite, sampleSite] sampleDay (sampleWorld sampleRows) ∧
      Recovered [sampleSite, sampleSite] sampleDay (sampleWorld sampleRows)
        (run [sampleSite, sampleSite] sampleDay (fun _ => noFault)
          (runs [sampleSite, sampleSite] sampleDay [openFaults] (sampleWorld sampleRows))) := by
  have unique : UniqueIds [sampleSite, sampleSite] (sampleWorld sampleRows) := by
    unfold UniqueIds
    decide
  refine ⟨sample_dayStart, (recovers_iff _ sampleDay _ _ sample_dayStart unique).mpr ?_⟩
  have cannotOpen : ∀ (bdd type : Text) (i : Nat) (w : World Int),
      ¬ Interrupts (hierOf sampleDay) sampleDay type bdd (openFaults i) w := by
    rintro bdd type i w ⟨-, -, opened, -⟩
    cases opened
  exact ⟨⟨cannotOpen _ _ _ _, cannotOpen _ _ _ _, trivial⟩, trivial⟩

/-- A write that throws leaves a part of a file, and the run after it finds that file: the
row stays live for good and has no line. -/
theorem interrupted_run_is_not_recovered :
    DayStart [sampleSite, sampleSite] sampleDay (sampleWorld sampleRows) ∧
      UniqueIds [sampleSite, sampleSite] (sampleWorld sampleRows) ∧
      ¬ Recovered [sampleSite, sampleSite] sampleDay (sampleWorld sampleRows)
        (run [sampleSite, sampleSite] sampleDay (fun _ => noFault)
          (runs [sampleSite, sampleSite] sampleDay [sampleFaults] (sampleWorld sampleRows))) := by
  refine ⟨sample_dayStart, ?_, fun recovered => ?_⟩
  · unfold UniqueIds
    decide
  · have gone := (recovered sampleSite List.mem_cons_self
      (sampleRow (some 0) 26155 (sampleDay - 1) 40529) (by decide) (by decide)).1
    exact gone (by decide +kernel)

end Trading.Recup
