import Trading.Recup.Rollover

/-!
# What the live tables hold after a check

The reader takes the live tables for the rows of today. An archive run removes one day only,
the day before it, and a check runs the archiver only on the day of the month `jmore`, so
this depends on how launches, stops, checks and inserts follow each other.

Each launch and each check leaves tables without earlier rows exactly when each of them finds
only earlier rows that its own archive run removes (`current_iff_fresh`). The files of past
days never stand in the way: a file is only written for a day that is over, and its rows are
gone with it (`Coherent`). Checks that are at most one day apart are enough
(`Steady.alwaysFresh`).
-/

set_option autoImplicit false

namespace Trading.Recup

open Trading.Calendar Trading.Text

variable {ν : Type}

/-! ## Launches, stops, checks and inserts -/

/-- The steps of the system without input and output errors, with the days on which a call
reads the clock and on which it returns. -/
inductive Event (ν : Type) where
  | launch (runDay calDay retDay : Int)
  | check (calDay runDay retDay : Int)
  | stop (jour : Int)
  | insert (type : Text) (row : Row ν)

namespace Event

/-- The clock does not go back, from `now` on and within the step. -/
def Timed (now : Int) : Event ν → Prop
  | .launch runDay calDay retDay => now ≤ runDay ∧ runDay ≤ calDay ∧ calDay ≤ retDay
  | .check calDay runDay retDay => now ≤ calDay ∧ calDay ≤ runDay ∧ runDay ≤ retDay
  | .stop jour => now ≤ jour
  | .insert _ row => now ≤ row.date.jour

/-- The day on which the step ends. -/
def finish : Event ν → Int
  | .launch _ _ retDay => retDay
  | .check _ _ retDay => retDay
  | .stop jour => jour
  | .insert _ row => row.date.jour

/-- Only a running program checks the date. -/
def Enabled (m : Machine ν) : Event ν → Prop
  | .check _ _ _ => m.jmore ≠ none
  | _ => True

/-- The archived day, if the step archives one, has a year of at most four digits. -/
def FourDigitYear : Event ν → Prop
  | .launch runDay _ _ => InEra (runDay - 1)
  | .check _ runDay _ => InEra (runDay - 1)
  | _ => True

end Event

/-- An insert of the recorder. -/
def World.insert (w : World ν) (type : Text) (row : Row ν) : World ν :=
  { w with
    db := { w.db with vals := Function.update w.db.vals type (w.db.vals type ++ [row]) } }

/-- One step of the system. -/
def Machine.step [Rendered ν] (sites : List Site) (m : Machine ν) : Event ν → Machine ν
  | .launch runDay calDay _ => m.init sites true runDay calDay fun _ => noFault
  | .check calDay runDay _ => m.verifDate sites calDay runDay fun _ => noFault
  | .stop _ => { m with jmore := none }
  | .insert type row => { m with world := m.world.insert type row }

/-- The steps follow each other on a clock that does not go back, and each is possible. -/
def ValidRun [Rendered ν] (sites : List Site) : Int → Machine ν → List (Event ν) → Prop
  | _, _, [] => True
  | now, m, event :: later =>
      event.Timed now ∧ event.Enabled m ∧ ValidRun sites event.finish (m.step sites event) later

/-- The archived tables have no row of an earlier day. -/
def Current (sites : List Site) (jour : Int) (w : World ν) : Prop :=
  ∀ site ∈ sites, ∀ row ∈ w.db.vals site.type, jour ≤ row.date.jour

/-- What a launch or a check must establish: the tables are current on the day it returns. -/
def Event.Establishes (sites : List Site) (after : Machine ν) : Event ν → Prop
  | .launch _ _ retDay => Current sites retDay after.world
  | .check _ _ retDay => Current sites retDay after.world
  | _ => True

/-- Before a launch, each row of an earlier day is of the day before the archive run. Before a
check, each such row is of that day and the day of the month is `jmore`. -/
def Event.Fresh (sites : List Site) (before : Machine ν) : Event ν → Prop
  | .launch runDay _ retDay =>
      ∀ site ∈ sites, ∀ row ∈ before.world.db.vals site.type,
        row.date.jour < retDay → row.date.jour = runDay - 1
  | .check calDay runDay retDay =>
      ∀ site ∈ sites, ∀ row ∈ before.world.db.vals site.type,
        row.date.jour < retDay →
          before.jmore = some (civil calDay).day ∧ row.date.jour = runDay - 1
  | _ => True

/-- Each launch and each check of a run leaves current tables. -/
def AlwaysCurrent [Rendered ν] (sites : List Site) : Machine ν → List (Event ν) → Prop
  | _, [] => True
  | m, event :: later =>
      event.Establishes sites (m.step sites event) ∧ AlwaysCurrent sites (m.step sites event) later

/-- Each launch and each check of a run finds fresh tables. -/
def AlwaysFresh [Rendered ν] (sites : List Site) : Machine ν → List (Event ν) → Prop
  | _, [] => True
  | m, event :: later =>
      event.Fresh sites m ∧ AlwaysFresh sites (m.step sites event) later

/-! ## Archive runs without errors -/

section WithoutErrors

variable [Rendered ν]

/-- Files only stand for days that are over and whose rows are gone. -/
def Coherent (now : Int) (w : World ν) : Prop :=
  ∀ type jour, InEra jour → w.cache type (fileName jour) ≠ none →
    jour < now ∧ ∀ row ∈ w.db.vals type, row.date.jour ≠ jour

omit [Rendered ν] in
theorem Coherent.later {now later : Int} {w : World ν} (coherent : Coherent now w)
    (ordered : now ≤ later) : Coherent later w := fun type jour inEra present =>
  ⟨(coherent type jour inEra present).1.trans_le ordered, (coherent type jour inEra present).2⟩

omit [Rendered ν] in
theorem Coherent.insert {now : Int} {w : World ν} (coherent : Coherent now w) {type : Text}
    {row : Row ν} (dated : now ≤ row.date.jour) : Coherent now (w.insert type row) := by
  intro other jour inEra present
  obtain ⟨ended, gone⟩ := coherent other jour inEra present
  refine ⟨ended, fun found live => ?_⟩
  by_cases same : other = type
  · subst same
    simp only [World.insert, Function.update_self, List.mem_append, List.mem_singleton] at live
    rcases live with old | rfl
    · exact gone found old
    · omega
  · simp only [World.insert, Function.update_of_ne same] at live
    exact gone found live

/-- A call without errors keeps the files coherent. -/
theorem Coherent.after_write {jour : Int} {w : World ν} (coherent : Coherent jour w)
    (inEra : InEra (jour - 1)) (type bdd : Text) :
    Coherent jour (write (hierOf jour) jour type bdd noFault w).1 := by
  by_cases present : w.cache type (fileName (hierOf jour)) = none
  · rw [write_noFault present]
    intro other day dayInEra found
    by_cases same : other = type
    · subst same
      by_cases thatDay : day = jour - 1
      · subst thatDay
        refine ⟨by omega, fun row live dated => ?_⟩
        rw [World.archive, Database.delete_vals_self] at live
        have outside := (List.mem_filter.mp live).2
        rw [Row.inWindow_iff.mpr dated] at outside
        cases outside
      · have otherName : fileName day ≠ fileName (hierOf jour) := by
          rw [hierOf_eq]
          exact fun equal => thatDay (fileName_injective dayInEra inEra equal)
        have before : w.cache other (fileName day) ≠ none := by
          by_cases empty : w.db.select other bdd (hierOf jour) jour = []
          · simpa only [World.archive, empty, ↓reduceIte] using found
          · simpa only [World.archive, empty, ↓reduceIte,
              World.setFile_of_ne _ (.inr otherName)] using found
        obtain ⟨ended, gone⟩ := coherent other day dayInEra before
        refine ⟨ended, fun row live => ?_⟩
        rw [World.archive, Database.delete_vals_self] at live
        exact gone row (List.mem_filter.mp live).1
    · have effect := write_effect (hierOf jour) jour type bdd noFault w
      rw [write_noFault present] at effect
      obtain ⟨sameRows, sameFiles⟩ := effect.frame same
      rw [sameRows]
      rw [sameFiles] at found
      exact coherent other day dayInEra found
  · rw [(write_effect (hierOf jour) jour type bdd noFault w).eq_of_present present]
    exact coherent

theorem Coherent.after_run {jour : Int} (inEra : InEra (jour - 1)) (sites : List Site) :
    ∀ {w : World ν}, Coherent jour w →
      Coherent jour (run sites jour (fun _ => noFault) w) := by
  unfold run
  induction sites with
  | nil => exact fun coherent => coherent
  | cons site sites ih => exact fun coherent => ih (coherent.after_write inEra site.type site.bdd)

/-- A table that is already free of the window keeps its rows. -/
theorem writeSites_vals_of_clear {hier ojd : Int} {type : Text} (sites : List Site) :
    ∀ w : World ν, (∀ row ∈ w.db.vals type, row.inWindow hier ojd = false) →
      (writeSites hier ojd sites (fun _ => noFault) w).db.vals type = w.db.vals type := by
  induction sites with
  | nil => exact fun _ _ => rfl
  | cons site sites ih =>
      intro w clear
      have first : (write hier ojd site.type site.bdd noFault w).1.db.vals type =
          w.db.vals type := by
        have effect := write_effect hier ojd site.type site.bdd noFault w
        by_cases same : type = site.type
        · subst same
          generalize (write hier ojd site.type site.bdd noFault w).1 = after at effect
          cases effect with
          | unchanged _ => rfl
          | interrupted _ _ _ _ _ _ => rfl
          | archived _ _ _ _ =>
              rw [World.archive, Database.delete_vals_self, List.filter_eq_self]
              intro row live
              rw [clear row live]
              rfl
        · exact (effect.frame same).1
      rw [writeSites, ih _ (first ▸ clear), first]

/-- **A run without errors removes the day before it from every table of `SITES`.** -/
theorem run_vals {jour : Int} (inEra : InEra (jour - 1)) {type : Text} (sites : List Site) :
    ∀ w : World ν, Coherent jour w → (∃ site ∈ sites, site.type = type) →
      (run sites jour (fun _ => noFault) w).db.vals type =
        (w.db.vals type).filter fun row => !row.inWindow (hierOf jour) jour := by
  unfold run
  induction sites with
  | nil =>
      rintro w - ⟨site, member, -⟩
      cases member
  | cons site sites ih =>
      rintro w coherent ⟨found, member, same⟩
      by_cases here : site.type = type
      · subst here
        have first : (write (hierOf jour) jour site.type site.bdd noFault w).1.db.vals site.type =
            (w.db.vals site.type).filter fun row => !row.inWindow (hierOf jour) jour := by
          by_cases absent : w.cache site.type (fileName (hierOf jour)) = none
          · rw [write_noFault absent, World.archive, Database.delete_vals_self]
          · -- the file is there, so the rows of its day are gone
            rw [(write_effect _ _ _ _ _ w).eq_of_present absent, eq_comm, List.filter_eq_self]
            intro row live
            rw [hierOf_eq] at absent
            have other := (coherent site.type (jour - 1) inEra absent).2 row live
            rw [Bool.not_eq_true', Bool.eq_false_iff]
            exact fun window => other (Row.inWindow_iff.mp window)
        rw [writeSites, writeSites_vals_of_clear sites, first]
        intro row live
        rw [first] at live
        simpa using (List.mem_filter.mp live).2
      · have frame := ((write_effect (hierOf jour) jour site.type site.bdd noFault w).frame
          (fun equal => here equal.symm)).1
        rw [writeSites, ih _ (coherent.after_write inEra site.type site.bdd) ?_, frame]
        rcases List.mem_cons.mp member with rfl | later
        · exact absurd same here
        · exact ⟨found, later, same⟩

/-- After a run without errors the tables are current on a day exactly when the earlier rows
were of the day before the run. -/
theorem current_run_iff {sites : List Site} {runDay jour : Int} {w : World ν}
    (inEra : InEra (runDay - 1)) (coherent : Coherent runDay w) :
    Current sites jour (run sites runDay (fun _ => noFault) w) ↔
      ∀ site ∈ sites, ∀ row ∈ w.db.vals site.type,
        row.date.jour < jour → row.date.jour = runDay - 1 := by
  apply forall₂_congr
  intro site member
  rw [run_vals inEra sites w coherent ⟨site, member, rfl⟩]
  constructor
  · intro current row live earlier
    by_contra other
    have stays : row ∈ (w.db.vals site.type).filter fun row =>
        !row.inWindow (hierOf runDay) runDay :=
      List.mem_filter.mpr ⟨live, by
        rw [Bool.not_eq_true', Bool.eq_false_iff]
        exact fun window => other (Row.inWindow_iff.mp window)⟩
    exact absurd earlier (not_lt.mpr (current row stays))
  · intro removed row stays
    obtain ⟨live, outside⟩ := List.mem_filter.mp stays
    by_contra earlier
    rw [Row.inWindow_iff.mpr (removed row live (not_le.mp earlier))] at outside
    cases outside

/-! ## Runs of the system -/

/-- The step of a launch or a check leaves current tables exactly when it finds fresh ones. -/
theorem establishes_iff_fresh {sites : List Site} {now : Int} {m : Machine ν} {event : Event ν}
    (coherent : Coherent now m.world) (timed : event.Timed now) (years : event.FourDigitYear) :
    event.Establishes sites (m.step sites event) ↔ event.Fresh sites m := by
  cases event with
  | launch runDay calDay retDay => exact current_run_iff years (coherent.later timed.1)
  | check calDay runDay retDay =>
      have started : now ≤ runDay := timed.1.trans timed.2.1
      by_cases fires : m.jmore = some (civil calDay).day
      · simp only [Event.Establishes, Event.Fresh, Machine.step, Machine.verifDate, fires, if_true,
          true_and]
        exact current_run_iff years (coherent.later started)
      · simp only [Event.Establishes, Event.Fresh, Machine.step, Machine.verifDate, fires, if_false,
          false_and, imp_false, not_lt]
        rfl
  | stop jour => exact Iff.rfl
  | insert type row => exact Iff.rfl

theorem Coherent.after_step {sites : List Site} {now : Int} {m : Machine ν} {event : Event ν}
    (coherent : Coherent now m.world) (timed : event.Timed now) (years : event.FourDigitYear) :
    Coherent event.finish (m.step sites event).world := by
  cases event with
  | launch runDay calDay retDay =>
      exact (Coherent.after_run years sites (coherent.later timed.1)).later
        (timed.2.1.trans timed.2.2)
  | check calDay runDay retDay =>
      have started : now ≤ runDay := timed.1.trans timed.2.1
      by_cases fires : m.jmore = some (civil calDay).day
      · simp only [Machine.step, Machine.verifDate, fires, if_true]
        exact (Coherent.after_run years sites (coherent.later started)).later timed.2.2
      · simp only [Machine.step, Machine.verifDate, fires, if_false]
        exact coherent.later (started.trans timed.2.2)
  | stop jour => exact coherent.later timed
  | insert type row => exact (coherent.later timed).insert le_rfl

theorem alwaysCurrent_iff_alwaysFresh {sites : List Site} (events : List (Event ν)) :
    ∀ {now : Int} {m : Machine ν}, Coherent now m.world → ValidRun sites now m events →
      (∀ event ∈ events, event.FourDigitYear) →
        (AlwaysCurrent sites m events ↔ AlwaysFresh sites m events) := by
  induction events with
  | nil => exact fun _ _ _ => Iff.rfl
  | cons event later ih =>
      intro now m coherent valid years
      obtain ⟨timed, -, rest⟩ := valid
      have year := years event List.mem_cons_self
      exact and_congr (establishes_iff_fresh coherent timed year)
        (ih (coherent.after_step timed year) rest fun other member =>
          years other (List.mem_cons_of_mem _ member))

/-! ## Checks that are at most one day apart -/

/-- Each launch and each check stays within one day, at most one day after the one before. -/
def Steady : Int → List (Event ν) → Prop
  | _, [] => True
  | last, .launch runDay calDay retDay :: later =>
      runDay = retDay ∧ calDay = retDay ∧ retDay ≤ last + 1 ∧ Steady retDay later
  | last, .check calDay runDay retDay :: later =>
      calDay = retDay ∧ runDay = retDay ∧ retDay ≤ last + 1 ∧ Steady retDay later
  | last, .stop _ :: later => Steady last later
  | last, .insert _ _ :: later => Steady last later

/-- What holds between the checks of such a run, after a check on the day `last`. -/
structure SinceLast (sites : List Site) (last now : Int) (m : Machine ν) : Prop where
  ordered : last ≤ now
  current : Current sites last m.world
  jmore : m.jmore = none ∨ m.jmore = some (civil (last + 1)).day

omit [Rendered ν] in
theorem SinceLast.insert {sites : List Site} {last now : Int} {m : Machine ν}
    (since : SinceLast sites last now m) {type : Text} {row : Row ν} (dated : now ≤ row.date.jour) :
    SinceLast sites last row.date.jour { m with world := m.world.insert type row } where
  ordered := since.ordered.trans dated
  current := by
    intro site member found live
    by_cases same : site.type = type
    · rw [same] at live
      simp only [World.insert, Function.update_self, List.mem_append, List.mem_singleton] at live
      rcases live with old | rfl
      · exact since.current site member found (same ▸ old)
      · exact since.ordered.trans dated
    · simp only [World.insert, Function.update_of_ne same] at live
      exact since.current site member found live
  jmore := since.jmore

theorem Steady.alwaysFresh {sites : List Site} (events : List (Event ν)) :
    ∀ {last now : Int} {m : Machine ν}, Coherent now m.world → ValidRun sites now m events →
      (∀ event ∈ events, event.FourDigitYear) → SinceLast sites last now m → Steady last events →
        AlwaysFresh sites m events := by
  induction events with
  | nil => exact fun _ _ _ _ _ => trivial
  | cons event later ih =>
      intro last now m coherent valid years since steady
      obtain ⟨timed, enabled, rest⟩ := valid
      have year := years event List.mem_cons_self
      have laterYears : ∀ event ∈ later, event.FourDigitYear := fun other member =>
        years other (List.mem_cons_of_mem _ member)
      have coherent' : Coherent event.finish (m.step sites event).world :=
        coherent.after_step timed year
      have established : event.Fresh sites m → event.Establishes sites (m.step sites event) :=
        (establishes_iff_fresh coherent timed year).mpr
      have ordered := since.ordered
      cases event with
      | launch runDay calDay retDay =>
          obtain ⟨rfl, rfl, near, steady⟩ := steady
          have fresh : Event.Fresh sites m (.launch calDay calDay calDay) := by
            intro site member row live earlier
            have recent := since.current site member row live
            omega
          refine ⟨fresh, ih coherent' rest laterYears ?_ steady⟩
          exact ⟨le_rfl, established fresh, .inr (congrArg some (jmoreOf_eq calDay))⟩
      | check calDay runDay retDay =>
          obtain ⟨rfl, rfl, near, steady⟩ := steady
          have running : m.jmore = some (civil (last + 1)).day := since.jmore.resolve_left enabled
          have started : now ≤ runDay := timed.1
          have fresh : Event.Fresh sites m (.check runDay runDay runDay) := by
            intro site member row live earlier
            have recent := since.current site member row live
            obtain rfl : runDay = last + 1 := by omega
            exact ⟨running, by omega⟩
          refine ⟨fresh, ih coherent' rest laterYears ⟨le_rfl, established fresh, .inr ?_⟩ steady⟩
          rcases eq_or_lt_of_le (ordered.trans started) with same | next
          · -- the day of the last check: the check is idle
            subst same
            have idle : m.jmore ≠ some (civil last).day := by
              rw [running]
              exact fun equal => day_civil_succ_ne last (Option.some.inj equal)
            simpa only [Machine.step, Machine.verifDate, Event.finish, idle, if_false] using running
          · obtain rfl : runDay = last + 1 := by omega
            simp only [Machine.step, Machine.verifDate, Event.finish, running, if_true, jmoreOf_eq]
      | stop jour =>
          refine ⟨trivial, ih coherent' rest laterYears ⟨ordered.trans timed, since.current,
            .inl rfl⟩
            steady⟩
      | insert type row => exact ⟨trivial, ih coherent' rest laterYears (since.insert timed) steady⟩

/-- **The live tables hold the current day after every check exactly when every check finds
only earlier rows that its archive run removes**, over every run of launches, stops, checks
and inserts without errors and with years of four digits. This is so in every run whose
launches and checks stay within one day and are at most one day apart. -/
theorem current_iff_fresh (sites : List Site) (events : List (Event ν)) (now : Int) (m : Machine ν)
    (coherent : Coherent now m.world) (valid : ValidRun sites now m events)
    (years : ∀ event ∈ events, event.FourDigitYear) :
    (AlwaysCurrent sites m events ↔ AlwaysFresh sites m events) ∧
      ∀ last ≤ now, m.jmore = none → Current sites last m.world → Steady last events →
        AlwaysFresh sites m events :=
  ⟨alwaysCurrent_iff_alwaysFresh events coherent valid years,
    fun _ ordered stopped current steady =>
      steady.alwaysFresh events coherent valid years ⟨ordered, current, .inl stopped⟩⟩

/-- An empty database without a program. -/
def sampleMachine : Machine Int := ⟨sampleWorld [], none, []⟩

theorem sampleMachine_coherent (now : Int) : Coherent now sampleMachine.world :=
  fun _ _ _ present => absurd rfl present

/-- A launch, an insert, and a check on the next day. -/
def steadyEvents : List (Event Int) :=
  [.launch 737160 737160 737160, .insert "cfd".toList (sampleRow (some 0) 5 737160 ⟨7, by decide⟩),
    .check 737161 737161 737161]

theorem current_iff_fresh_sample :
    ValidRun [sampleSite] 737160 sampleMachine steadyEvents ∧
      AlwaysCurrent [sampleSite] sampleMachine steadyEvents := by
  have valid : ValidRun [sampleSite] 737160 sampleMachine steadyEvents := by
    refine ⟨⟨le_rfl, le_rfl, le_rfl⟩, trivial, le_rfl, trivial, ⟨by decide, le_rfl, le_rfl⟩, ?_,
      trivial⟩
    exact Option.some_ne_none _
  have years : ∀ event ∈ steadyEvents, event.FourDigitYear := by
    simp only [steadyEvents, List.mem_cons, List.not_mem_nil, or_false, forall_eq_or_imp, forall_eq,
      Event.FourDigitYear]
    decide
  have both := current_iff_fresh [sampleSite] steadyEvents 737160 sampleMachine
    (sampleMachine_coherent 737160) valid years
  have current : Current [sampleSite] 737160 sampleMachine.world := by
    unfold Current
    decide
  refine ⟨valid, both.1.mpr (both.2 737160 le_rfl rfl current ?_)⟩
  exact ⟨rfl, rfl, by decide, rfl, rfl, by decide, trivial⟩

/-- A launch, an insert, a stop, and a launch two days later. -/
def pausedEvents : List (Event Int) :=
  [.launch 737160 737160 737160, .insert "cfd".toList (sampleRow (some 0) 5 737160 ⟨7, by decide⟩),
    .stop 737160, .launch 737162 737162 737162]

/-- After a day without the program the launch archives the empty day before it, and the row
of the day before that one stays among the rows of today. -/
theorem pause_leaves_an_old_row :
    ValidRun [sampleSite] 737160 sampleMachine pausedEvents ∧
      Coherent 737160 sampleMachine.world ∧
      ¬ AlwaysCurrent [sampleSite] sampleMachine pausedEvents := by
  refine ⟨?_, sampleMachine_coherent 737160, ?_⟩
  · exact ⟨⟨le_rfl, le_rfl, le_rfl⟩, trivial, le_rfl, trivial, le_rfl, trivial,
      ⟨by decide, le_rfl, le_rfl⟩, trivial, trivial⟩
  · rintro ⟨-, -, -, current, -⟩
    have dated := current sampleSite List.mem_cons_self (sampleRow (some 0) 5 737160 ⟨7, by decide⟩)
      (by decide +kernel)
    revert dated
    decide

end WithoutErrors

end Trading.Recup
