import Trading.Recup.Store

/-!
# The table and the files divide the journal

A file of the archiver is complete when no step of its call throws while it is open. Where all
files are complete, the cache directory of a type is a list of volumes, one for each of some
days, and the rows with an identifier in the live table and in the volumes are together those of
the journal, with their multiplicities (`Tenu`).

Each operation keeps this (`store_simulates_journal`). No order of the days and no clock is
assumed: a day whose file is there is never archived again, and a day that was passed over stays in
the table.
-/

set_option autoImplicit false

namespace Trading.Recup

open Trading.Calendar Trading.Text

variable {ν : Type}

/-! ## Volumes -/

/-- The rows of a day in the order of the archiver's query. -/
structure Volume (ν : Type) where
  jour : Int
  rows : List (Row ν)
  inEra : InEra jour
  sorted : rows.Pairwise fun first second => first.before second = true
  ofDay : ∀ row ∈ rows, row.id.isSome = true ∧ row.date.jour = jour

/-- The files of a cache directory are those of some volumes. -/
structure Ranges [Rendered ν] (volumes : List (Volume ν)) (files : Text → Option Text) : Prop where
  distinct : (volumes.map Volume.jour).Nodup
  found : ∀ volume ∈ volumes, files (fileName volume.jour) = some (csvFile volume.rows)
  only : ∀ name, files name ≠ none → ∃ volume ∈ volumes, name = fileName volume.jour

/-- The rows with an identifier. -/
def identified (rows : List (Row ν)) : List (Row ν) := rows.filter fun row => row.id.isSome

/-- The store holds a journal: identifiers are registered, and the journal of each type is divided
among the live table and the volumes of its directory. -/
structure Tenu [Rendered ν] (sites : List Site) (w : World ν) (livre : Livre ν) : Prop where
  lies : Lies sites w
  divides : ∀ type, ∃ volumes : List (Volume ν), Ranges volumes (w.cache type) ∧
    (identified (w.db.vals type) ++ volumes.flatMap Volume.rows).Perm (livre type)

/-- An archive run with a year of four digits, in which no step throws while a file is open. -/
def Operation.Complete : Operation ν → Prop
  | .archive jour faults =>
      InEra (hierOf jour) ∧ ∀ i step, faults i step ≠ none → step = .select ∨ step = .openFile
  | _ => True

section Volumes

variable [Rendered ν]

theorem Ranges.nil : Ranges ([] : List (Volume ν)) fun _ => none where
  distinct := List.nodup_nil
  found := fun _ absent => absurd absent List.not_mem_nil
  only := fun _ present => absurd rfl present

/-- A new file is a new volume. -/
theorem Ranges.cons {volumes : List (Volume ν)} {files : Text → Option Text}
    (ranges : Ranges volumes files) (volume : Volume ν)
    (absent : files (fileName volume.jour) = none) :
    Ranges (volume :: volumes)
      (Function.update files (fileName volume.jour) (some (csvFile volume.rows))) where
  distinct := by
    rw [List.map_cons, List.nodup_cons]
    refine ⟨fun member => ?_, ranges.distinct⟩
    obtain ⟨other, inVolumes, same⟩ := List.mem_map.mp member
    rw [← same, ranges.found other inVolumes] at absent
    cases absent
  found := by
    intro other member
    rcases List.mem_cons.mp member with rfl | later
    · exact Function.update_self _ _ _
    · rw [Function.update_of_ne, ranges.found other later]
      intro same
      rw [← same, ranges.found other later] at absent
      cases absent
  only := by
    intro name present
    by_cases same : name = fileName volume.jour
    · exact ⟨volume, List.mem_cons_self, same⟩
    · rw [Function.update_of_ne same] at present
      obtain ⟨other, member, named⟩ := ranges.only name present
      exact ⟨other, List.mem_cons_of_mem _ member, named⟩

/-- The selected rows of a day. -/
def Database.volume (db : Database ν) (type bdd : Text) (jour : Int) (inEra : InEra (hierOf jour)) :
    Volume ν where
  jour := hierOf jour
  rows := db.select type bdd (hierOf jour) jour
  inEra := inEra
  sorted := db.sorted_select type bdd (hierOf jour) jour
  ofDay := by
    intro row selected
    obtain ⟨-, window, indice, -, same⟩ := Database.mem_select.mp selected
    refine ⟨by rw [same, Option.isSome_some], ?_⟩
    rw [Row.inWindow_iff.mp window, hierOf_eq]

/-- A call that does not throw while its file is open archives the window, or does nothing. -/
theorem Effect.of_complete {hier ojd : Int} {type bdd : Text} {faults : Faults} {w w' : World ν}
    (effect : Effect hier ojd type bdd faults w w')
    (complete : ∀ step, faults step ≠ none → step = .select ∨ step = .openFile) :
    w' = w ∨ w.cache type (fileName hier) = none ∧ w' = w.archive hier ojd type bdd := by
  cases effect with
  | unchanged _ => exact .inl rfl
  | interrupted _ _ _ _ _ thrown =>
      obtain ⟨step, within, fault⟩ := thrown
      rcases complete step fault with rfl | rfl <;> exact within.elim
  | archived _ absent _ _ => exact .inr ⟨absent, rfl⟩

variable [DecidableEq ν]

omit [Rendered ν] in
/-- The selected rows are those of the window with an identifier, when identifiers are
registered once. -/
theorem Database.select_perm_identified {db : Database ν} {type bdd : Text} {hier ojd : Int}
    (once : ∀ row ∈ db.vals type, row.id.isSome = true → db.registered bdd row.id = 1) :
    (db.select type bdd hier ojd).Perm
      ((identified (db.vals type)).filter fun row => row.inWindow hier ojd) := by
  rw [List.perm_iff_count]
  intro row
  rw [db.count_select, identified, List.filter_filter]
  by_cases window : row.inWindow hier ojd = true
  · by_cases isSome : row.id.isSome = true
    · rw [List.count_filter window, List.count_filter (by simp [window, isSome])]
      by_cases live : row ∈ db.vals type
      · rw [once row live isSome, Nat.one_mul]
      · rw [List.count_eq_zero.mpr live, Nat.mul_zero]
    · have unregistered : db.registered bdd row.id = 0 := by
        rw [Option.not_isSome_iff_eq_none.mp isSome]
        simp [Database.registered]
      rw [unregistered, Nat.zero_mul, eq_comm, List.count_eq_zero]
      simp [List.mem_filter, isSome]
  · rw [List.count_eq_zero.mpr, Nat.mul_zero, eq_comm, List.count_eq_zero]
    · simp [List.mem_filter, window]
    · simp [List.mem_filter, window]

omit [Rendered ν] in
/-- What stays live and what is selected are together the rows that were live. -/
theorem Database.identified_perm {db : Database ν} {type bdd : Text} {hier ojd : Int}
    (once : ∀ row ∈ db.vals type, row.id.isSome = true → db.registered bdd row.id = 1) :
    (identified ((db.delete type hier ojd).vals type) ++ db.select type bdd hier ojd).Perm
      (identified (db.vals type)) := by
  have outside : identified ((db.delete type hier ojd).vals type) =
      (identified (db.vals type)).filter fun row => !row.inWindow hier ojd := by
    rw [Database.delete_vals_self, identified, identified, List.filter_comm]
  rw [outside]
  exact ((List.Perm.refl _).append (Database.select_perm_identified once)).trans
    (List.perm_append_comm.trans
      (List.filter_append_perm (fun row : Row ν => row.inWindow hier ojd) _))

/-! ## Each operation -/

/-- One call of `write` keeps what the store holds. -/
theorem Tenu.after_write {sites : List Site} {w : World ν} {livre : Livre ν}
    (held : Tenu sites w livre) {site : Site} (member : site ∈ sites) {jour : Int}
    (inEra : InEra (hierOf jour)) {faults : Faults}
    (complete : ∀ step, faults step ≠ none → step = .select ∨ step = .openFile) :
    Tenu sites (write (hierOf jour) jour site.type site.bdd faults w).1 livre := by
  have effect := write_effect (hierOf jour) jour site.type site.bdd faults w
  refine ⟨held.lies.after_write _ _ _ _ _, fun type => ?_⟩
  by_cases same : type = site.type
  · subst same
    rcases effect.of_complete complete with unchanged | ⟨absent, archived⟩
    · rw [unchanged]
      exact held.divides site.type
    · rw [archived]
      obtain ⟨volumes, ranges, divided⟩ := held.divides site.type
      have moved : (identified ((w.db.delete site.type (hierOf jour) jour).vals site.type) ++
          w.db.select site.type site.bdd (hierOf jour) jour).Perm
            (identified (w.db.vals site.type)) :=
        Database.identified_perm fun row live isSome => held.lies.registered member live isSome
      by_cases empty : w.db.select site.type site.bdd (hierOf jour) jour = []
      · refine ⟨volumes, by simpa only [World.archive, empty, ↓reduceIte] using ranges, ?_⟩
        rw [empty, List.append_nil] at moved
        exact (moved.append_right _).trans divided
      · refine ⟨w.db.volume site.type site.bdd jour inEra :: volumes, ?_, ?_⟩
        · simp only [World.archive, empty, ↓reduceIte, World.setFile, Function.update_self]
          exact ranges.cons (w.db.volume site.type site.bdd jour inEra) absent
        · rw [List.flatMap_cons, ← List.append_assoc]
          exact (moved.append_right _).trans divided
  · obtain ⟨sameRows, sameFiles⟩ := effect.frame same
    rw [sameRows, sameFiles]
    exact held.divides type

theorem Tenu.after_writeSites {sites : List Site} {livre : Livre ν} {jour : Int}
    (inEra : InEra (hierOf jour)) (calls : List Site) (within : ∀ site ∈ calls, site ∈ sites) :
    ∀ (faults : Nat → Faults) (w : World ν), Tenu sites w livre →
      (∀ i step, faults i step ≠ none → step = .select ∨ step = .openFile) →
        Tenu sites (writeSites (hierOf jour) jour calls faults w) livre := by
  induction calls with
  | nil => exact fun _ _ held _ => held
  | cons site calls ih =>
      intro faults w held complete
      exact ih (fun other member => within other (List.mem_cons_of_mem _ member)) _ _
        (held.after_write (within site List.mem_cons_self) inEra (complete 0))
        fun i => complete (i + 1)

/-- **The store simulates the journal.** -/
theorem store_simulates_journal {sites : List Site} (agree : Accordes sites) :
    (store sites).Simulates Journal.journal (fun _ (operation : Operation ν) => operation.entries)
      (fun w operation => operation.Possible sites w ∧ operation.Complete) (Tenu sites) := by
  rintro w operation livre held ⟨possible, complete⟩
  cases operation with
  | archive jour faults =>
      exact held.after_writeSites complete.1 sites (fun _ member => member) faults w complete.2
  | register bdd indice =>
      exact ⟨held.lies.register possible, held.divides⟩
  | insert type row =>
      refine ⟨held.lies.insert agree possible, fun other => ?_⟩
      obtain ⟨volumes, ranges, divided⟩ := held.divides other
      refine ⟨volumes, ranges, ?_⟩
      rw [Journal.run_apply]
      by_cases same : other = type
      · subst same
        have added : identified ((w.insert other row).db.vals other) =
            identified (w.db.vals other) ++
              Journal.entriesOf other (Operation.insert other row).entries := by
          rw [World.insert_self, identified, identified, List.filter_append]
          congr 1
          by_cases isSome : row.id.isSome = true
          · simp [Operation.entries, isSome, Journal.entriesOf]
          · simp [Operation.entries, isSome, Journal.entriesOf]
        show (identified ((w.insert other row).db.vals other) ++ _).Perm _
        rw [added, List.append_assoc]
        refine (List.Perm.append_left _ List.perm_append_comm).trans ?_
        rw [← List.append_assoc]
        exact divided.append_right _
      · have different : type ≠ other := fun equal => same equal.symm
        have noEntry : Journal.entriesOf other (Operation.insert type row).entries = [] := by
          by_cases isSome : row.id.isSome = true
          · simp [Operation.entries, isSome, Journal.entriesOf, different]
          · simp [Operation.entries, isSome, Journal.entriesOf]
        show (identified ((w.insert type row).db.vals other) ++ _).Perm _
        rw [World.insert_of_ne w same, noEntry, List.append_nil]
        exact divided

end Volumes

end Trading.Recup
