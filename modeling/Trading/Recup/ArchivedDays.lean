import Trading.Recup.Volumes

/-!
# Where each value is

On a clock that does not go back and without errors, the state of the store is a function of what
was inserted and of the days on which the archiver ran. A row of a day is in the file of that day
when the archiver ran on the next one, and in the live table otherwise (`store_by_days`): neither
the order of the operations within a day nor the number of archive runs on it matters.

`Classes` is the invariant. It implies that files only stand for days that are over and whose
rows are gone (`Classes.coherent`), which is what an archive run needs.
-/

set_option autoImplicit false

namespace Trading.Recup

open Trading.Calendar Trading.Text

variable {ν : Type}

/-! ## Operations on a clock -/

/-- The operations follow each other on a clock that does not go back. -/
def Chronological : Int → List (Operation ν) → Prop
  | _, [] => True
  | now, .archive jour _ :: later => now ≤ jour ∧ Chronological jour later
  | now, .insert _ row :: later => now ≤ row.date.jour ∧ Chronological row.date.jour later
  | now, .register _ _ :: later => Chronological now later

/-- An archive run without errors, with a year of four digits. -/
def Operation.Faultless : Operation ν → Prop
  | .archive jour faults => InEra (hierOf jour) ∧ faults = fun _ => noFault
  | _ => True

/-- The day on which the archiver ran. -/
def Operation.jours : Operation ν → List Int
  | .archive jour _ => [jour]
  | _ => []

/-- The row that was inserted, with its table. -/
def Operation.rows : Operation ν → List (Text × Row ν)
  | .insert type row => [(type, row)]
  | _ => []

theorem Operation.Faultless.complete {operation : Operation ν} (faultless : operation.Faultless) :
    operation.Complete := by
  cases operation with
  | archive jour faults =>
      refine ⟨faultless.1, fun i step fault => ?_⟩
      rw [faultless.2] at fault
      exact absurd rfl fault
  | insert type row => trivial
  | register bdd indice => trivial

/-- The journal has the rows with an identifier among the inserted ones. -/
theorem entriesOf_entries (type : Text) (operations : List (Operation ν)) :
    Journal.entriesOf type (operations.flatMap Operation.entries) =
      identified (Journal.entriesOf type (operations.flatMap Operation.rows)) := by
  induction operations with
  | nil => rfl
  | cons operation operations ih =>
      rw [List.flatMap_cons, List.flatMap_cons, Journal.entriesOf_append, Journal.entriesOf_append,
        ih, identified, identified, List.filter_append]
      congr 1
      cases operation with
      | archive jour faults => rfl
      | register bdd indice => rfl
      | insert other row =>
          by_cases isSome : row.id.isSome = true <;> by_cases same : other = type <;>
            simp [Operation.entries, Operation.rows, Journal.entriesOf, isSome, same]

/-! ## Files of a run -/

section Files

variable [Rendered ν]

/-- The only file that a call can add is the file of the day of its own type. -/
theorem Effect.cache_cases {hier ojd : Int} {type bdd other name : Text} {faults : Faults}
    {w w' : World ν} (effect : Effect hier ojd type bdd faults w w')
    (present : w'.cache other name ≠ none) :
    w.cache other name ≠ none ∨ other = type ∧ name = fileName hier := by
  by_cases named : other = type ∧ name = fileName hier
  · exact .inr named
  refine .inl ?_
  have different : other ≠ type ∨ name ≠ fileName hier := by
    by_contra same
    simp only [not_or, not_not] at same
    exact named same
  cases effect with
  | unchanged _ => exact present
  | interrupted _ _ _ _ _ _ => rwa [World.setFile_of_ne _ different] at present
  | archived _ _ _ _ =>
      by_cases empty : w.db.select type bdd hier ojd = []
      · simpa only [World.archive, empty, ↓reduceIte] using present
      · simpa only [World.archive, empty, ↓reduceIte, World.setFile_of_ne _ different] using present

theorem writeSites_cache_cases {hier ojd : Int} {other name : Text} (sites : List Site) :
    ∀ (faults : Nat → Faults) (w : World ν),
      (writeSites hier ojd sites faults w).cache other name ≠ none →
        w.cache other name ≠ none ∨ (∃ site ∈ sites, other = site.type) ∧ name = fileName hier := by
  induction sites with
  | nil => exact fun _ _ present => .inl present
  | cons site sites ih =>
      intro faults w present
      rcases ih _ _ present with before | ⟨⟨found, member, same⟩, named⟩
      · rcases (write_effect _ _ _ _ _ w).cache_cases before with old | ⟨same, named⟩
        · exact .inl old
        · exact .inr ⟨⟨site, List.mem_cons_self, same⟩, named⟩
      · exact .inr ⟨⟨found, List.mem_cons_of_mem _ member, same⟩, named⟩

/-! ## The invariant -/

/-- What is where, after an archive run on each of some days. -/
structure Classes (sites : List Site) (now : Int) (ran : List Int) (inserted : Livre ν)
    (w : World ν) : Prop where
  vals : ∀ site ∈ sites, w.db.vals site.type =
    (inserted site.type).filter fun row => decide (row.date.jour + 1 ∉ ran)
  past : ∀ type, ∀ row ∈ inserted type, row.date.jour ≤ now
  ranUntil : ∀ jour ∈ ran, jour ≤ now
  files : ∀ type name, w.cache type name ≠ none →
    (∃ site ∈ sites, type = site.type) ∧ ∃ jour ∈ ran, name = fileName (jour - 1) ∧ InEra (jour - 1)

namespace Classes

variable {sites : List Site} {now : Int} {ran : List Int} {inserted : Livre ν} {w : World ν}

omit [Rendered ν] in
/-- The file of a day is there only if the archiver ran on the next one. -/
theorem ran_of_file (classes : Classes sites now ran inserted w) {type : Text} {jour : Int}
    (inEra : InEra jour) (present : w.cache type (fileName jour) ≠ none) : jour + 1 ∈ ran := by
  obtain ⟨-, later, member, named, laterInEra⟩ := classes.files type _ present
  have same := fileName_injective inEra laterInEra named
  rwa [same, Int.sub_add_cancel]

omit [Rendered ν] in
theorem coherent (classes : Classes sites now ran inserted w) : Coherent now w := by
  intro type jour inEra present
  have member := classes.ran_of_file inEra present
  obtain ⟨⟨site, siteMember, rfl⟩, -⟩ := classes.files type _ present
  have late := classes.ranUntil _ member
  refine ⟨by omega, fun row live dated => ?_⟩
  rw [classes.vals site siteMember] at live
  have notRan := of_decide_eq_true (List.mem_filter.mp live).2
  rw [dated] at notRan
  exact notRan member

theorem archive (classes : Classes sites now ran inserted w) {jour : Int} (later : now ≤ jour)
    (inEra : InEra (hierOf jour)) :
    Classes sites jour (ran ++ [jour]) inserted (run sites jour (fun _ => noFault) w) where
  vals := by
    intro site member
    have coherent := classes.coherent.later later
    rw [hierOf_eq] at inEra
    rw [run_vals inEra sites w coherent ⟨site, member, rfl⟩, classes.vals site member,
      List.filter_filter]
    apply List.filter_congr
    intro row _
    have window : row.inWindow (hierOf jour) jour = decide (row.date.jour + 1 = jour) := by
      rw [Bool.eq_iff_iff, Row.inWindow_iff, decide_eq_true_iff]
      omega
    rw [window]
    simp only [List.mem_append, List.mem_singleton, not_or, Bool.decide_and, decide_not]
    exact Bool.and_comm _ _
  past := fun type row member => (classes.past type row member).trans later
  ranUntil := by
    intro day member
    rcases List.mem_append.mp member with old | new
    · exact (classes.ranUntil day old).trans later
    · exact (List.mem_singleton.mp new).le
  files := by
    intro type name present
    rcases writeSites_cache_cases sites _ w present with old | ⟨site, named⟩
    · obtain ⟨site, day, member, sameName, dayInEra⟩ := classes.files type name old
      exact ⟨site, day, List.mem_append_left _ member, sameName, dayInEra⟩
    · rw [hierOf_eq] at named inEra
      exact ⟨site, jour, List.mem_append_right _ List.mem_cons_self, named, inEra⟩

omit [Rendered ν] in
theorem insert (classes : Classes sites now ran inserted w) {type : Text} {row : Row ν}
    (later : now ≤ row.date.jour) :
    Classes sites row.date.jour ran
      (Function.update inserted type (inserted type ++ [row])) (w.insert type row) where
  vals := by
    intro site member
    by_cases same : site.type = type
    · have new : row.date.jour + 1 ∉ ran := by
        intro past
        have bound := classes.ranUntil _ past
        omega
      have stays : [row].filter (fun row => decide (row.date.jour + 1 ∉ ran)) = [row] :=
        List.filter_cons_of_pos (by simpa using new)
      rw [same, World.insert_self, Function.update_self, List.filter_append, stays, ← same,
        classes.vals site member]
    · rw [World.insert_of_ne w same, Function.update_of_ne same, classes.vals site member]
  past := by
    intro other found member
    by_cases same : other = type
    · subst same
      rw [Function.update_self] at member
      rcases List.mem_append.mp member with old | new
      · exact (classes.past other found old).trans later
      · rw [List.mem_singleton.mp new]
    · rw [Function.update_of_ne same] at member
      exact (classes.past other found member).trans later
  ranUntil := fun jour member => (classes.ranUntil jour member).trans later
  files := classes.files

end Classes

/-- **The invariant along a run.** -/
theorem Classes.run {sites : List Site} (operations : List (Operation ν)) :
    ∀ {now : Int} {ran : List Int} {inserted : Livre ν} {w : World ν},
      Classes sites now ran inserted w → Chronological now operations →
        (∀ operation ∈ operations, operation.Faultless) →
          ∃ last, Classes sites last (ran ++ operations.flatMap Operation.jours)
            (Journal.journal.run inserted (operations.flatMap Operation.rows))
            ((store sites).run w operations) := by
  induction operations with
  | nil =>
      intro now ran inserted w classes _ _
      exact ⟨now, by simpa [Runs.Machine.run] using classes⟩
  | cons operation operations ih =>
      intro now ran inserted w classes chronological faultless
      have later : ∀ other ∈ operations, other.Faultless := fun other member =>
        faultless other (List.mem_cons_of_mem _ member)
      have first := faultless operation List.mem_cons_self
      cases operation with
      | archive jour faults =>
          obtain ⟨inEra, rfl⟩ := first
          obtain ⟨last, final⟩ := ih (classes.archive chronological.1 inEra) chronological.2 later
          rw [List.append_assoc] at final
          exact ⟨last, final⟩
      | insert type row =>
          obtain ⟨last, final⟩ := ih (classes.insert chronological.1) chronological.2 later
          exact ⟨last, final⟩
      | register bdd indice =>
          have same : Classes sites now ran inserted (w.register bdd indice) :=
            ⟨classes.vals, classes.past, classes.ranUntil, classes.files⟩
          obtain ⟨last, final⟩ := ih same chronological later
          exact ⟨last, final⟩

/-! ## The store by days -/

/-- A store with nothing in it but registered instruments. -/
structure Vide (w : World ν) : Prop where
  vals : ∀ type, w.db.vals type = []
  cache : ∀ type name, w.cache type name = none
  ids : ∀ bdd, (w.ids bdd).Nodup

omit [Rendered ν] in
theorem Vide.classes {w : World ν} (empty : Vide w) (sites : List Site) (now : Int) :
    Classes sites now [] (fun _ => []) w where
  vals := fun site _ => empty.vals site.type
  past := fun _ _ absent => absurd absent List.not_mem_nil
  ranUntil := fun _ absent => absurd absent List.not_mem_nil
  files := fun type name present => absurd (empty.cache type name) present

theorem Vide.tenu {w : World ν} (empty : Vide w) (sites : List Site) :
    Tenu sites w fun _ => [] where
  lies :=
    { ids := empty.ids
      rows := fun site _ row live => by
        rw [empty.vals] at live
        cases live }
  divides := fun type => by
    refine ⟨[], ?_, ?_⟩
    · rw [show w.cache type = fun _ => none from funext (empty.cache type)]
      exact Ranges.nil
    · rw [empty.vals]
      exact List.Perm.refl _

variable [DecidableEq ν]

omit [DecidableEq ν] in
/-- The volumes have the rows of the days after which the archiver ran. -/
theorem Tenu.volumes_perm {sites : List Site} {now : Int} {ran : List Int} {inserted : Livre ν}
    {w : World ν} (held : Tenu sites w fun type => identified (inserted type))
    (classes : Classes sites now ran inserted w) {site : Site} (member : site ∈ sites) :
    ∃ volumes : List (Volume ν), Ranges volumes (w.cache site.type) ∧
      (∀ volume ∈ volumes, volume.jour + 1 ∈ ran) ∧
      (volumes.flatMap Volume.rows).Perm
        ((identified (inserted site.type)).filter fun row => decide (row.date.jour + 1 ∈ ran)) := by
  obtain ⟨volumes, ranges, divided⟩ := held.divides site.type
  have ranAfter : ∀ volume ∈ volumes, volume.jour + 1 ∈ ran := by
    intro volume inVolumes
    have present : w.cache site.type (fileName volume.jour) ≠ none := by
      rw [ranges.found volume inVolumes]
      exact Option.some_ne_none _
    exact classes.ran_of_file volume.inEra present
  refine ⟨volumes, ranges, ranAfter, ?_⟩
  -- keep the rows of the archived days on both sides of the division
  have archived := divided.filter fun row => decide (row.date.jour + 1 ∈ ran)
  have noneLive : (identified (w.db.vals site.type)).filter
      (fun row => decide (row.date.jour + 1 ∈ ran)) = [] := by
    rw [List.filter_eq_nil_iff]
    intro row live past
    rw [classes.vals site member] at live
    have notRan := (List.mem_filter.mp (List.mem_filter.mp live).1).2
    exact of_decide_eq_true notRan (of_decide_eq_true past)
  have allRows : (volumes.flatMap Volume.rows).filter
      (fun row => decide (row.date.jour + 1 ∈ ran)) = volumes.flatMap Volume.rows := by
    rw [List.filter_eq_self]
    intro row inRows
    obtain ⟨volume, inVolumes, inVolume⟩ := List.mem_flatMap.mp inRows
    rw [(volume.ofDay row inVolume).2]
    exact decide_eq_true (ranAfter volume inVolumes)
  rw [List.filter_append, noneLive, allRows, List.nil_append] at archived
  exact archived

/-- A run of inserts, registrations and archive runs that starts from an empty store, on a clock
that does not go back and without errors. -/
structure Regular (sites : List Site) (w : World ν) (now : Int) (operations : List (Operation ν)) :
    Prop where
  agree : Accordes sites
  empty : Vide w
  chronological : Chronological now operations
  valid : (store sites).Valid w operations
  faultless : ∀ operation ∈ operations, operation.Faultless

namespace Regular

variable {sites : List Site} {w : World ν} {now : Int} {operations : List (Operation ν)}

omit [Rendered ν] [DecidableEq ν] in
/-- The rows inserted into a table. -/
theorem run_rows (operations : List (Operation ν)) (type : Text) :
    Journal.journal.run (fun _ => []) (operations.flatMap Operation.rows) type =
      Journal.entriesOf type (operations.flatMap Operation.rows) := by
  rw [Journal.run_apply, List.nil_append]

omit [DecidableEq ν] in
/-- The invariant at the end of a regular run. -/
theorem classes (regular : Regular sites w now operations) :
    ∃ last, Classes sites last (operations.flatMap Operation.jours)
      (fun type => Journal.entriesOf type (operations.flatMap Operation.rows))
      ((store sites).run w operations) := by
  obtain ⟨last, final⟩ :=
    (regular.empty.classes sites now).run operations regular.chronological regular.faultless
  rw [List.nil_append, show Journal.journal.run (fun _ => []) (operations.flatMap Operation.rows) =
    fun type => Journal.entriesOf type (operations.flatMap Operation.rows) from
      funext (run_rows operations)] at final
  exact ⟨last, final⟩

/-- The store holds the journal of a regular run. -/
theorem tenu (regular : Regular sites w now operations) :
    Tenu sites ((store sites).run w operations) fun type =>
      identified (Journal.entriesOf type (operations.flatMap Operation.rows)) := by
  have complete : (store sites).EachStep (fun w operation =>
      operation.Possible sites w ∧ operation.Complete) w operations :=
    regular.valid.and ((Runs.Machine.eachStep_events w operations).mpr fun operation inRun =>
      (regular.faultless operation inRun).complete)
  have held := (store_simulates_journal regular.agree).run complete (regular.empty.tenu sites)
  have sameJournal : Journal.journal.run (fun _ => []) ((store sites).trace
      (fun _ operation => operation.entries) w operations) = fun type =>
        identified (Journal.entriesOf type (operations.flatMap Operation.rows)) := by
    funext type
    rw [Runs.Machine.trace_events, Journal.run_apply, List.nil_append, entriesOf_entries]
  rwa [sameJournal] at held

omit [DecidableEq ν] in
/-- The live table has the rows of the days after which the archiver did not run. -/
theorem vals (regular : Regular sites w now operations) {site : Site} (member : site ∈ sites) :
    ((store sites).run w operations).db.vals site.type =
      (Journal.entriesOf site.type (operations.flatMap Operation.rows)).filter fun row =>
        decide (row.date.jour + 1 ∉ operations.flatMap Operation.jours) := by
  obtain ⟨_, final⟩ := regular.classes
  exact final.vals site member

/-- The files have the rows of the days after which it ran. -/
theorem volumes (regular : Regular sites w now operations) {site : Site} (member : site ∈ sites) :
    ∃ volumes : List (Volume ν),
      Ranges volumes (((store sites).run w operations).cache site.type) ∧
      (∀ volume ∈ volumes, volume.jour + 1 ∈ operations.flatMap Operation.jours) ∧
      (volumes.flatMap Volume.rows).Perm
        ((identified (Journal.entriesOf site.type (operations.flatMap Operation.rows))).filter
          fun row => decide (row.date.jour + 1 ∈ operations.flatMap Operation.jours)) := by
  obtain ⟨_, final⟩ := regular.classes
  exact regular.tenu.volumes_perm final member

end Regular

/-- **Where each value is.** After every regular run, the live table of a type of `SITES` has
exactly the inserted rows of the days after which the archiver did not run, in the order of their
insertion. The files of its directory are volumes of days after which it ran, and their rows are
the inserted ones of these days that have an identifier, each as often as it was inserted. -/
theorem store_by_days {sites : List Site} {w : World ν} {now : Int}
    {operations : List (Operation ν)} (regular : Regular sites w now operations) {site : Site}
    (member : site ∈ sites) :
    let inserted := Journal.entriesOf site.type (operations.flatMap Operation.rows)
    let ran := operations.flatMap Operation.jours
    ((store sites).run w operations).db.vals site.type =
        (inserted.filter fun row => decide (row.date.jour + 1 ∉ ran)) ∧
      ∃ volumes : List (Volume ν),
        Ranges volumes (((store sites).run w operations).cache site.type) ∧
        (∀ volume ∈ volumes, volume.jour + 1 ∈ ran) ∧
        (volumes.flatMap Volume.rows).Perm
          ((identified inserted).filter fun row => decide (row.date.jour + 1 ∈ ran)) :=
  ⟨regular.vals member, regular.volumes member⟩

end Files

/-- A value of the day of the archive run. -/
def rowOfToday : Row Int := sampleRow (some 0) 12 sampleDay (sampleSecond 3)

/-- A value of one day, an archive run on the next day, and a value of that day. -/
def twoDayRun : List (Operation Int) :=
  [.insert "cfd".toList rowOfYesterday,
    .archive sampleDay fun _ => noFault,
    .insert "cfd".toList rowOfToday]

theorem twoDayRun_regular :
    Regular [sampleSite] (sampleWorld []) (sampleDay - 1) twoDayRun where
  agree := by decide
  empty :=
    { vals := fun type => by simp only [sampleWorld, ite_self]
      cache := fun _ _ => rfl
      ids := sampleWorld_ids }
  chronological := ⟨le_rfl, by decide, le_rfl, trivial⟩
  valid := by
    refine ⟨fun i same => ⟨sampleSite, List.mem_cons_self, rfl, ?_⟩, trivial,
      fun i same => ⟨sampleSite, List.mem_cons_self, rfl, ?_⟩, trivial⟩
    · obtain rfl : 0 = i := Option.some.inj same
      decide
    · obtain rfl : 0 = i := Option.some.inj same
      decide +kernel
  faultless := by
    intro operation member
    simp only [twoDayRun, List.mem_cons, List.not_mem_nil, or_false] at member
    rcases member with rfl | rfl | rfl
    · trivial
    · exact ⟨by decide +kernel, rfl⟩
    · trivial

theorem store_by_days_sample :
    ((store [sampleSite]).run (sampleWorld []) twoDayRun).db.vals "cfd".toList =
        [rowOfToday] ∧
      ∃ volumes : List (Volume Int),
        Ranges volumes (((store [sampleSite]).run (sampleWorld []) twoDayRun).cache
          "cfd".toList) ∧
        (volumes.flatMap Volume.rows).Perm
          [rowOfYesterday] := by
  obtain ⟨live, volumes, ranges, -, archived⟩ :=
    store_by_days twoDayRun_regular (List.mem_singleton.mpr rfl)
  exact ⟨live, volumes, ranges, archived⟩

end Trading.Recup
