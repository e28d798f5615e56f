import Trading.Journal
import Trading.Recup.ArchiveRecovery
import Trading.Recup.LiveTable

/-!
# The store as a journal

The values of a type are in two places: the live table, and the cache files into which the
archiver moves the days that are over. Recorder and archiver change the store by three kinds of
operations: the `INSERT` of a value, the `INSERT` of an instrument into its registry, and a run of
the archiver, each of whose steps can throw.

What the store is for is a journal (`Journal.journal`): the rows with an identifier in the order in
which they were inserted, for each type.

Whatever throws, a row that was inserted is still there, in the table or as a line of the file of
its day (`nothing_is_lost`).
-/

set_option autoImplicit false

namespace Trading.Recup

open Trading.Calendar Trading.Text

variable {ν : Type}

/-! ## Operations -/

/-- `SITES` of the launcher. -/
def SITES : List Site :=
  [⟨"https://www.investing.com/indices/indices-cfds".toList, "cfd".toList, "1".toList, "0".toList,
      "1".toList, "2".toList, "indices".toList⟩,
    ⟨"https://www.investing.com/indices/indices-futures".toList, "futures".toList, "0".toList,
      "0".toList, "1".toList, "3".toList, "indices".toList⟩,
    ⟨"https://www.investing.com/indices/germany-30-components".toList, "actionsvals".toList,
      "1".toList, "0".toList, "1".toList, "2".toList, "actions".toList⟩,
    ⟨"https://www.investing.com/indices/investing.com-united-states-30-components".toList,
      "actionsvals".toList, "0".toList, "0".toList, "1".toList, "2".toList, "actions".toList⟩,
    ⟨"https://www.investing.com/indices/nq-100-components".toList, "actionsvals".toList,
      "1".toList, "0".toList, "1".toList, "2".toList, "actions".toList⟩,
    ⟨"https://www.investing.com/commodities/real-time-futures".toList, "matieresvals".toList,
      "0".toList, "0".toList, "1".toList, "3".toList, "matieres".toList⟩]

/-- The entries of one value table name one registry. -/
def Accordes (sites : List Site) : Prop :=
  ∀ site ∈ sites, ∀ other ∈ sites, site.type = other.type → site.bdd = other.bdd

instance : DecidablePred Accordes := fun sites =>
  inferInstanceAs (Decidable (∀ site ∈ sites, ∀ other ∈ sites, site.type = other.type →
    site.bdd = other.bdd))

theorem accordes_SITES : Accordes SITES := by decide +kernel

/-- What changes the store: a run of the archiver on a day, with the steps that throw, and the
`INSERT` of a value and of an instrument. -/
inductive Operation (ν : Type) where
  | archive (jour : Int) (faults : Nat → Faults)
  | insert (type : Text) (row : Row ν)
  | register (bdd : Text) (indice : RegistryRow)

/-- A new row of a registry. -/
def World.register (w : World ν) (bdd : Text) (indice : RegistryRow) : World ν :=
  { w with
    db := { w.db with
      registry := Function.update w.db.registry bdd (w.db.registry bdd ++ [indice]) } }

/-- The identifiers of a registry. -/
def World.ids (w : World ν) (bdd : Text) : List Int := (w.db.registry bdd).map RegistryRow.id

/-- The identifier of a new instrument is a new one. That of a new row, unless it is null, is of
the registry of an entry of its table. -/
def Operation.Possible (sites : List Site) (w : World ν) : Operation ν → Prop
  | .archive _ _ => True
  | .insert type row =>
      ∀ i, row.id = some i → ∃ site ∈ sites, site.type = type ∧ i ∈ w.ids site.bdd
  | .register bdd indice => indice.id ∉ w.ids bdd

/-- The store. -/
def store [Rendered ν] (sites : List Site) : Runs.Machine (World ν) (Operation ν) where
  Enabled := Operation.Possible sites
  step w
    | .archive jour faults => run sites jour faults w
    | .insert type row => w.insert type row
    | .register bdd indice => w.register bdd indice

/-- The entry of the journal that an operation adds: a value with an identifier. -/
def Operation.entries : Operation ν → List (Text × Row ν)
  | .insert type row => if row.id.isSome then [(type, row)] else []
  | _ => []

/-- The journal of the store. -/
abbrev Livre (ν : Type) := Text → List (Row ν)

/-! ## Identifiers -/

section Identifiers

theorem World.insert_self (w : World ν) (type : Text) (row : Row ν) :
    (w.insert type row).db.vals type = w.db.vals type ++ [row] := Function.update_self _ _ _

theorem World.insert_of_ne (w : World ν) {type other : Text} (different : other ≠ type)
    (row : Row ν) : (w.insert type row).db.vals other = w.db.vals other :=
  Function.update_of_ne different _ _

theorem World.ids_register_self (w : World ν) (bdd : Text) (indice : RegistryRow) :
    (w.register bdd indice).ids bdd = w.ids bdd ++ [indice.id] := by
  simp [World.ids, World.register]

theorem World.ids_register_of_ne (w : World ν) {bdd other : Text} (different : other ≠ bdd)
    (indice : RegistryRow) : (w.register bdd indice).ids other = w.ids other := by
  simp [World.ids, World.register, Function.update_of_ne different]

theorem World.mem_ids_register {w : World ν} {bdd other : Text} {indice : RegistryRow} {i : Int}
    (member : i ∈ w.ids other) : i ∈ (w.register bdd indice).ids other := by
  by_cases same : other = bdd
  · subst same
    rw [World.ids_register_self]
    exact List.mem_append_left _ member
  · rwa [World.ids_register_of_ne w same]

/-- The identifiers of the registries are unique, and those of the rows of a table are in the
registry of each of its entries. -/
structure Lies (sites : List Site) (w : World ν) : Prop where
  ids : ∀ bdd, (w.ids bdd).Nodup
  rows : ∀ site ∈ sites, ∀ row ∈ w.db.vals site.type, ∀ i, row.id = some i → i ∈ w.ids site.bdd

theorem Lies.registered {sites : List Site} {w : World ν} (linked : Lies sites w) {site : Site}
    (member : site ∈ sites) {row : Row ν} (live : row ∈ w.db.vals site.type)
    (identified : row.id.isSome = true) : w.db.registered site.bdd row.id = 1 := by
  obtain ⟨i, isSome⟩ := Option.isSome_iff_exists.mp identified
  refine Nat.le_antisymm (Database.registered_le_one (linked.ids site.bdd) _) ?_
  refine Database.registered_pos.mpr ?_
  obtain ⟨indice, registered, same⟩ := List.mem_map.mp (linked.rows site member row live i isSome)
  exact ⟨indice, registered, by rw [isSome, same]⟩

theorem Lies.insert {sites : List Site} (agree : Accordes sites) {w : World ν}
    (linked : Lies sites w) {type : Text} {row : Row ν}
    (possible : (Operation.insert type row).Possible sites w) : Lies sites (w.insert type row) where
  ids := linked.ids
  rows := by
    intro site member found live i isSome
    by_cases same : site.type = type
    · rw [same, World.insert_self, List.mem_append, List.mem_singleton] at live
      rcases live with old | rfl
      · exact linked.rows site member found (same ▸ old) i isSome
      · obtain ⟨other, otherMember, otherType, registered⟩ := possible i isSome
        rw [agree site member other otherMember (same.trans otherType.symm)]
        exact registered
    · rw [World.insert_of_ne w same] at live
      exact linked.rows site member found live i isSome

theorem Lies.register {sites : List Site} {w : World ν} (linked : Lies sites w) {bdd : Text}
    {indice : RegistryRow} (new : indice.id ∉ w.ids bdd) : Lies sites (w.register bdd indice) where
  ids := by
    intro other
    by_cases same : other = bdd
    · subst same
      rw [World.ids_register_self, ← List.concat_eq_append]
      exact (linked.ids other).concat new
    · rw [World.ids_register_of_ne w same]
      exact linked.ids other
  rows := fun site member row live i isSome =>
    World.mem_ids_register (linked.rows site member row live i isSome)

/-- Rows that go away do not matter. -/
theorem Lies.of_subset {sites : List Site} {w w' : World ν} (linked : Lies sites w)
    (registry : w'.db.registry = w.db.registry)
    (fewer : ∀ type, ∀ row ∈ w'.db.vals type, row ∈ w.db.vals type) : Lies sites w' := by
  have sameIds : w'.ids = w.ids := by
    funext bdd
    rw [World.ids, World.ids, registry]
  refine ⟨fun bdd => ?_, fun site member row live i isSome => ?_⟩
  · rw [sameIds]
    exact linked.ids bdd
  · rw [sameIds]
    exact linked.rows site member row (fewer site.type row live) i isSome

end Identifiers

/-! ## Nothing is lost -/

section Losses

variable [Rendered ν] [DecidableEq ν]

/-- How often a row is in the store: in the live table, and as a line of the file of its day. -/
def World.occurrences (w : World ν) (type : Text) (row : Row ν) : Nat :=
  (w.db.vals type).count row + w.lineCount type (fileName row.date.jour) row

omit [DecidableEq ν] in
/-- An archived window adds a file and changes no other. -/
theorem World.archive_keeps {w : World ν} {hier ojd : Int} {type bdd : Text}
    (absent : w.cache type (fileName hier) = none) {otherType otherName file : Text}
    (present : w.cache otherType otherName = some file) :
    (w.archive hier ojd type bdd).cache otherType otherName = some file := by
  by_cases empty : w.db.select type bdd hier ojd = []
  · simpa only [World.archive, empty, ↓reduceIte] using present
  · simpa only [World.archive, empty, ↓reduceIte] using World.setFile_keeps absent present

/-- The rows of a window that are registered are lines of its file. -/
theorem World.count_le_lineCount_archive (w : World ν) {hier ojd : Int} {type bdd : Text}
    {row : Row ν} (window : row.inWindow hier ojd = true)
    (registered : row ∈ w.db.vals type → ∃ indice ∈ w.db.registry bdd, row.id = some indice.id) :
    (w.db.vals type).count row ≤
      (w.archive hier ojd type bdd).lineCount type (fileName hier) row := by
  by_cases live : row ∈ w.db.vals type
  · have selected : (w.db.vals type).count row ≤ (w.db.select type bdd hier ojd).count row := by
      rw [w.db.count_select, List.count_filter window]
      exact Nat.le_mul_of_pos_left _ (Database.registered_pos.mpr (registered live))
    have someRow : w.db.select type bdd hier ojd ≠ [] := by
      intro empty
      rw [empty, List.count_nil] at selected
      have positive := List.count_pos_iff.mpr live
      omega
    have present : (w.archive hier ojd type bdd).cache type (fileName hier) =
        some (csvFile (w.db.select type bdd hier ojd)) := by
      simp only [World.archive, someRow, ↓reduceIte, World.setFile_self]
    rw [World.lineCount_of_some present]
    exact selected.trans (count_le_count_csvFile _ row)
  · rw [List.count_eq_zero.mpr live]
    exact Nat.zero_le _

/-- A call of `write` takes no row with a registered identifier out of the store, whatever
throws. -/
theorem Effect.occurrences_le {jour : Int} {type bdd other : Text} {faults : Faults}
    {w w' : World ν} (effect : Effect (hierOf jour) jour type bdd faults w w') {row : Row ν}
    (registered : other = type → row ∈ w.db.vals type →
      ∃ indice ∈ w.db.registry bdd, row.id = some indice.id) :
    w.occurrences other row ≤ w'.occurrences other row := by
  by_cases same : other = type
  · subst same
    cases effect with
    | unchanged _ => exact le_rfl
    | interrupted _ absent _ file _ _ =>
        exact Nat.add_le_add_left
          (World.lineCount_le (fun _ present => World.setFile_keeps absent present) row) _
    | archived _ absent _ _ =>
        by_cases window : row.inWindow (hierOf jour) jour = true
        · -- the row is of the archived day, whose file was not there
          have day : row.date.jour = hierOf jour := by
            rw [Row.inWindow_iff.mp window, hierOf_eq]
          have noLine : w.lineCount other (fileName row.date.jour) row = 0 := by
            simp only [World.lineCount, day, absent]
          rw [World.occurrences, noLine, Nat.add_zero, World.occurrences, day]
          exact (w.count_le_lineCount_archive window (registered rfl)).trans (Nat.le_add_left _ _)
        · have stays : (w.db.vals other).count row =
              ((w.archive (hierOf jour) jour other bdd).db.vals other).count row := by
            rw [World.archive, Database.delete_vals_self, List.count_filter (by simp [window])]
          rw [World.occurrences, stays]
          exact Nat.add_le_add_left
            (World.lineCount_le (fun _ present => World.archive_keeps absent present) row) _
  · obtain ⟨sameRows, sameFiles⟩ := effect.frame same
    rw [World.occurrences, World.occurrences, World.lineCount, World.lineCount, sameRows, sameFiles]

omit [DecidableEq ν] in
/-- A call of `write` adds no row to a table. -/
theorem Effect.subset {hier ojd : Int} {type bdd other : Text} {faults : Faults} {w w' : World ν}
    (effect : Effect hier ojd type bdd faults w w') {row : Row ν}
    (live : row ∈ w'.db.vals other) : row ∈ w.db.vals other := by
  cases effect with
  | unchanged _ => exact live
  | interrupted _ _ _ _ _ _ => exact live
  | archived _ _ _ _ =>
      by_cases same : other = type
      · subst same
        rw [World.archive, Database.delete_vals_self] at live
        exact (List.mem_filter.mp live).1
      · rwa [World.archive, Database.delete_vals_of_ne _ same] at live

omit [DecidableEq ν] in
theorem Lies.after_write {sites : List Site} {w : World ν} (linked : Lies sites w)
    (hier ojd : Int) (type bdd : Text) (faults : Faults) :
    Lies sites (write hier ojd type bdd faults w).1 :=
  have effect := write_effect hier ojd type bdd faults w
  linked.of_subset effect.registry fun _ _ live => effect.subset live

/-- **A run of the archiver takes no row with an identifier out of the store**, whatever
throws. -/
theorem writeSites_occurrences_le {jour : Int} {sites : List Site} {row : Row ν}
    (identified : row.id.isSome = true) (type : Text) (calls : List Site)
    (within : ∀ site ∈ calls, site ∈ sites) :
    ∀ (faults : Nat → Faults) (w : World ν), Lies sites w →
      Lies sites (writeSites (hierOf jour) jour calls faults w) ∧
        w.occurrences type row ≤
          (writeSites (hierOf jour) jour calls faults w).occurrences type row := by
  induction calls with
  | nil => exact fun _ w linked => ⟨linked, le_rfl⟩
  | cons site calls ih =>
      intro faults w linked
      have first : w.occurrences type row ≤ (write (hierOf jour) jour site.type site.bdd
          (faults 0) w).1.occurrences type row := by
        refine (write_effect _ _ _ _ _ w).occurrences_le fun _ live => ?_
        have once := linked.registered (within site List.mem_cons_self) live identified
        exact Database.registered_pos.mp (by omega)
      obtain ⟨linked', later⟩ :=
        ih (fun other member => within other (List.mem_cons_of_mem _ member))
        (fun i => faults (i + 1)) _ (linked.after_write _ _ site.type site.bdd (faults 0))
      exact ⟨linked', first.trans later⟩

/-- An operation adds to a row what it adds to the journal, and takes nothing away. -/
theorem store_step_occurrences {sites : List Site} (agree : Accordes sites) {w : World ν}
    (linked : Lies sites w) {operation : Operation ν} (possible : operation.Possible sites w)
    {row : Row ν} (identified : row.id.isSome = true) (type : Text) :
    Lies sites ((store sites).step w operation) ∧
      w.occurrences type row + (Journal.entriesOf type operation.entries).count row ≤
        ((store sites).step w operation).occurrences type row := by
  cases operation with
  | archive jour faults =>
      exact writeSites_occurrences_le identified type sites (fun _ member => member) faults w linked
  | insert other added =>
      refine ⟨linked.insert agree possible, ?_⟩
      show _ ≤ ((w.insert other added).db.vals type).count row + _
      rw [World.occurrences, Nat.add_right_comm]
      refine Nat.add_le_add_right ?_ _
      by_cases same : type = other
      · subst same
        rw [World.insert_self, List.count_append]
        refine Nat.add_le_add_left ?_ _
        by_cases isSome : added.id.isSome = true
        · simp [Operation.entries, isSome, Journal.entriesOf]
        · simp [Operation.entries, isSome, Journal.entriesOf]
      · have different : other ≠ type := fun equal => same equal.symm
        rw [World.insert_of_ne w same]
        by_cases isSome : added.id.isSome = true
        · simp [Operation.entries, isSome, Journal.entriesOf, different]
        · simp [Operation.entries, isSome, Journal.entriesOf]
  | register bdd indice => exact ⟨linked.register possible, le_rfl⟩

/-- **No value is ever lost.** Over every run of inserts, registrations and archive runs, whatever
steps of the archive runs throw, a row with an identifier is in the live table and in the file
of its day together at least as often as it was there at the start and was inserted since. -/
theorem nothing_is_lost (sites : List Site) (agree : Accordes sites) (w : World ν)
    (linked : Lies sites w) (operations : List (Operation ν))
    (valid : (store sites).Valid w operations) (type : Text) (row : Row ν)
    (identified : row.id.isSome = true) :
    w.occurrences type row +
        (Journal.entriesOf type (operations.flatMap Operation.entries)).count row ≤
      ((store sites).run w operations).occurrences type row := by
  induction operations generalizing w with
  | nil => exact le_rfl
  | cons operation operations ih =>
      obtain ⟨possible, later⟩ := valid
      obtain ⟨linked', step⟩ := store_step_occurrences agree linked possible identified type
      rw [List.flatMap_cons, Journal.entriesOf_append, List.count_append, ← Nat.add_assoc]
      exact (Nat.add_le_add_right step _).trans (ih _ linked' later)

end Losses

theorem sampleWorld_ids (bdd : Text) : ((sampleWorld []).ids bdd).Nodup := by
  by_cases same : bdd = "indices".toList
  · rw [same]
    decide
  · simp only [World.ids, sampleWorld, same, if_false, List.map_nil, List.nodup_nil]

theorem sampleWorld_lies (sites : List Site) : Lies sites (sampleWorld []) where
  ids := sampleWorld_ids
  rows := fun site _ row live => by
    simp only [sampleWorld, ite_self, List.not_mem_nil] at live

/-- A second of a day. -/
def sampleSecond (n : Nat) : Fin 86400 := ⟨n % 86400, Nat.mod_lt n (by decide)⟩

/-- A value of the day before the archive run. -/
def rowOfYesterday : Row Int := sampleRow (some 0) 26155 (sampleDay - 1) (sampleSecond 40529)

/-- An insert, and an archive run of the next day that throws in the middle of its line. -/
def interruptedRun : List (Operation Int) :=
  [.insert "cfd".toList rowOfYesterday,
    .archive sampleDay sampleFaults]

theorem nothing_is_lost_sample :
    (store [sampleSite]).Valid (sampleWorld []) interruptedRun ∧
      1 ≤ ((store [sampleSite]).run (sampleWorld []) interruptedRun).occurrences "cfd".toList
        rowOfYesterday := by
  have valid : (store [sampleSite]).Valid (sampleWorld []) interruptedRun := by
    refine ⟨fun i same => ⟨sampleSite, List.mem_cons_self, rfl, ?_⟩, trivial, trivial⟩
    obtain rfl : 0 = i := Option.some.inj same
    decide
  have kept := nothing_is_lost [sampleSite] (by decide) (sampleWorld []) (sampleWorld_lies _)
    interruptedRun valid "cfd".toList rowOfYesterday rfl
  have inserted : (Journal.entriesOf "cfd".toList
      (interruptedRun.flatMap Operation.entries)).count
        rowOfYesterday = 1 := by decide +kernel
  rw [inserted] at kept
  exact ⟨valid, (Nat.le_add_left _ _).trans kept⟩

end Trading.Recup
