import Trading.Recup.ArchivedDays
import Trading.Recup.SharedTables

/-!
# The program

`new Launcher()` runs the archiver, reads the pages of the sites once, and polls them for ever;
after every thousandth round it checks the date. Here the parts are put together on one state: the
store with the field `jmore`, the countries, and a clock that is read by the database for the date
of a row and by the program for the day.

Every execution is a run of the store (`executer_mene`): its operations are the archive runs, the
registrations and the inserts of the execution, in the order of the clock. An insert stands for a
line of a page whose statement was accepted. `chaine_loopVals` is the rule for what the rounds do
step by step.
-/

set_option autoImplicit false

namespace Trading.Recup

open Trading.Calendar Trading.Text

/-! ## The rounds step by step -/

section Rounds

variable {σ δ : Type} [DecidableEq δ] {sql : Sql σ δ} {parseDouble : Text → Option δ}
variable {sites : List Site} {T : σ → List (Nat × Releve δ) → σ → Prop}

/-- What each handled line of a page does to the database, the page does in the order of its
lines. -/
theorem chaine_boucle {x : Nat} {site : Site} (nothing : ∀ base, T base [] base)
    (chain : ∀ {first second third before after}, T first before second → T second after third →
      T first (before ++ after) third)
    (line : ∀ lecture indice base, T base [(x, ⟨lecture, indice,
        (Indice.addVal sql lecture.val site.type site.bdd indice base).2.2⟩)]
      (Indice.addVal sql lecture.val site.type site.bdd indice base).2.1)
    (lignes : List Ligne) : ∀ (carte : Carte δ) (base : σ),
      T base ((boucle sql parseDouble site lignes carte base).2.2.map fun releve => (x, releve))
        (boucle sql parseDouble site lignes carte base).2.1 := by
  induction lignes with
  | nil => exact fun _ base => nothing base
  | cons ligne lignes ih =>
      intro carte base
      rw [boucle]
      split
      · exact ih carte base
      cases read : site.lire parseDouble ligne with
      | none => exact nothing base
      | some lecture =>
          cases found : carte lecture.cle with
          | none =>
              simp only [(relever_eq_none sql).mpr found]
              exact nothing base
          | some indice =>
              simp only [(relever_eq_some sql).mpr ⟨indice, found, rfl, rfl, rfl⟩]
              exact chain (line lecture indice base) (ih (noter lecture indice carte) _)

theorem chaine_poll {x : Nat} {site : Site} (nothing : ∀ base, T base [] base)
    (chain : ∀ {first second third before after}, T first before second → T second after third →
      T first (before ++ after) third)
    (line : ∀ lecture indice base, T base [(x, ⟨lecture, indice,
        (Indice.addVal sql lecture.val site.type site.bdd indice base).2.2⟩)]
      (Indice.addVal sql lecture.val site.type site.bdd indice base).2.1)
    (visite : Text → Option Page) (l : Launcher σ δ) :
    T l.base ((l.poll sql parseDouble x site visite).2.map fun releve => (x, releve))
      (l.poll sql parseDouble x site visite).1.base := by
  rcases Launcher.poll_cases sql parseDouble x site visite l with
    idle | ⟨url, origine, carte, lignes, -, -, polled⟩
  · rw [idle]
    exact nothing l.base
  · rw [polled]
    exact chaine_boucle nothing chain line lignes carte l.base

/-- **What each handled line and each check do to the database, the rounds do one after the
other.** -/
theorem chaine_loopVals {verifDate : Nat → σ → σ} (nothing : ∀ base, T base [] base)
    (chain : ∀ {first second third before after}, T first before second → T second after third →
      T first (before ++ after) third)
    (line : ∀ x site, sites[x]? = some site → ∀ lecture indice base,
      T base [(x, ⟨lecture, indice,
          (Indice.addVal sql lecture.val site.type site.bdd indice base).2.2⟩)]
        (Indice.addVal sql lecture.val site.type site.bdd indice base).2.1)
    (verif : ∀ nb base, T base [] (verifDate nb base)) (visites : List (Nat → Text → Option Page)) :
    ∀ (nb : Nat) (l : Launcher σ δ),
      T l.base (l.loopVals sql parseDouble verifDate sites nb visites).2.flatten
        (l.loopVals sql parseDouble verifDate sites nb visites).1.base := by
  have tour : ∀ (visite : Nat → Text → Option Page) (rest : List Site) (x : Nat)
      (l : Launcher σ δ), rest = sites.drop x →
        T l.base (l.tour sql parseDouble visite x rest).2
          (l.tour sql parseDouble visite x rest).1.base := by
    intro visite rest
    induction rest with
    | nil => exact fun _ l _ => nothing l.base
    | cons site rest ih =>
        intro x l remaining
        obtain ⟨found, tail⟩ := Launcher.of_cons_eq_drop remaining
        exact chain (chaine_poll nothing chain (line x site found) (visite x) l)
          (ih (x + 1) _ tail)
  induction visites with
  | nil => exact fun _ l => nothing l.base
  | cons visite visites ih =>
      intro nb l
      refine chain (tour visite sites 0 l rfl) ?_
      have later := ih (nb + 1) (if (nb + 1) % 1000 = 0 then
        { (l.tour sql parseDouble visite 0 sites).1 with
          base := verifDate (nb + 1) (l.tour sql parseDouble visite 0 sites).1.base }
        else (l.tour sql parseDouble visite 0 sites).1)
      by_cases due : (nb + 1) % 1000 = 0
      · rw [if_pos due] at later
        have both := chain (verif (nb + 1) (l.tour sql parseDouble visite 0 sites).1.base) later
        simpa only [Launcher.loopVals, due, if_true, List.nil_append] using both
      · rw [if_neg due] at later
        simpa only [Launcher.loopVals, due, if_false] using later

end Rounds

/-! ## The state of the program -/

variable {ν : Type}

/-- The store with the field `jmore`, the countries, and the number of readings of the clock. -/
structure Etat (ν : Type) where
  machine : Machine ν
  pays : List PaysRow
  heure : Nat

namespace Etat

/-- The tables of the recorder. -/
def base (e : Etat ν) : Base ν where
  pays := e.pays
  registry := e.machine.world.db.registry
  vals type := (e.machine.world.db.vals type).map fun row => (row.id, row.val)

/-- The state with another store. -/
def withWorld (e : Etat ν) (w : World ν) : Etat ν :=
  { e with machine := { e.machine with world := w } }

/-- The state with another registry. -/
def withRegistry (e : Etat ν) (registry : Text → List RegistryRow) : Etat ν :=
  e.withWorld { e.machine.world with db := { e.machine.world.db with registry := registry } }

/-- The database dates a new row. -/
def inserer (e : Etat ν) (type : Text) (id : Option Int) (d : ν) (date : Stamp) : Etat ν :=
  { e.withWorld (e.machine.world.insert type ⟨id, d, date⟩) with heure := e.heure + 1 }

end Etat

section Program

variable (horloge : Nat → Stamp)

/-- The statements of the recorder on the state of the program. -/
def sqlEtat : Sql (Etat ν) ν where
  insertPays pays e := (sqlBase.insertPays pays e.base).map fun base => { e with pays := base.pays }
  insertIndice bdd pays nom e :=
    (sqlBase.insertIndice bdd pays nom e.base).map fun base => e.withRegistry base.registry
  insertVal type bdd nom d e :=
    (sqlBase.insertVal type bdd nom d e.base).map fun result =>
      (e.inserer type result.2 d (horloge e.heure), result.2)

variable [Rendered ν] (sites : List Site)

/-- `Launcher.init`, when the database is reached. The archiver reads the clock before the
program does. -/
def Etat.init (faults : Nat → Faults) (e : Etat ν) : Etat ν :=
  { e with
    machine := e.machine.init sites true (horloge e.heure).jour (horloge (e.heure + 1)).jour faults
    heure := e.heure + 2 }

/-- `Launcher.verifDate`. The archiver reads the clock again. -/
def Etat.verifDate (faults : Nat → Faults) (e : Etat ν) : Etat ν :=
  { e with
    machine := e.machine.verifDate sites (horloge e.heure).jour (horloge (e.heure + 1)).jour faults
    heure := if e.machine.jmore = some (civil (horloge e.heure).jour).day then e.heure + 2
      else e.heure + 1 }

/-- `new Launcher()`, for a number of rounds: `init`, `recupIndices` and `loopVals`. The faults of
the archive runs are numbered by the rounds, those of `init` by zero. -/
def executer [DecidableEq ν] (parseDouble : Text → Option ν) (faults : Nat → Nat → Faults)
    (acces : Nat → Acces) (visites : List (Nat → Text → Option Page)) (e : Etat ν) :
    Launcher (Etat ν) ν × List (List (Nat × Releve ν)) :=
  (Launcher.demarrage (sqlEtat horloge) parseDouble acces sites
      (e.init horloge sites (faults 0))).loopVals (sqlEtat horloge) parseDouble
    (fun nb => Etat.verifDate horloge sites (faults nb)) sites 0 visites

end Program

/-! ## Executions as runs of the store -/

/-- The days of a clock do not go back. -/
def Avance (horloge : Nat → Stamp) : Prop :=
  ∀ {first second : Nat}, first ≤ second → (horloge first).jour ≤ (horloge second).jour

/-- The days on which an operation reads the clock. -/
def Operation.times : Operation ν → List Int
  | .archive jour _ => [jour]
  | .insert _ row => [row.date.jour]
  | .register _ _ => []

/-- Operations in the order of their days follow each other on a clock. -/
theorem chronological_of_pairwise {now : Int} {operations : List (Operation ν)}
    (ordered : (now :: operations.flatMap Operation.times).Pairwise fun first second =>
      first ≤ second) : Chronological now operations := by
  induction operations generalizing now with
  | nil => trivial
  | cons operation operations ih =>
      obtain ⟨first, later⟩ := List.pairwise_cons.mp ordered
      cases operation with
      | archive jour faults => exact ⟨first jour List.mem_cons_self, ih later⟩
      | insert type row => exact ⟨first row.date.jour List.mem_cons_self, ih later⟩
      | register bdd indice => exact ih ordered

/-- What a line stored: the table, the identifier and the value. -/
def stocke (sites : List Site) (place : Nat × Releve ν) : List (Text × Option Int × ν) :=
  match sites[place.1]?, place.2.insertion with
  | some site, .faite id => [(site.type, id, place.2.lecture.val)]
  | _, _ => []

/-- An inserted row without its date. -/
def sansDate (entry : Text × Row ν) : Text × Option Int × ν := (entry.1, entry.2.id, entry.2.val)

/-- What the clock shows from one reading up to another. -/
def relevesHorloge (horloge : Nat → Stamp) (debut fin : Nat) : List Stamp :=
  (List.range' debut (fin - debut)).map horloge

theorem relevesHorloge_append (horloge : Nat → Stamp) {debut milieu fin : Nat}
    (first : debut ≤ milieu) (second : milieu ≤ fin) :
    relevesHorloge horloge debut fin =
      relevesHorloge horloge debut milieu ++ relevesHorloge horloge milieu fin := by
  have length : fin - debut = (milieu - debut) + (fin - milieu) := by omega
  have start : debut + (milieu - debut) = milieu := by omega
  rw [relevesHorloge, length, ← List.range'_append_1, List.map_append, start]
  rfl

/-- A part of an execution is a run of the store: its operations lead from the store before to the
store after it, its archive runs are those of the log, its inserts are what the handled lines
stored, and the days of the operations and the dates of the inserted rows are read from the clock,
one after the other. -/
structure Mene [Rendered ν] (horloge : Nat → Stamp) (sites : List Site)
    (faults : Nat → Nat → Faults) (operations : List (Operation ν)) (e : Etat ν)
    (places : List (Nat × Releve ν)) (e' : Etat ν) : Prop where
  world : e'.machine.world = (store sites).run e.machine.world operations
  valid : (store sites).Valid e.machine.world operations
  executions : e'.machine.executions =
    e.machine.executions ++ operations.flatMap Operation.jours
  heure : e.heure ≤ e'.heure
  times : (operations.flatMap Operation.times).Sublist
    ((relevesHorloge horloge e.heure e'.heure).map Stamp.jour)
  dates : ((operations.flatMap Operation.rows).map fun entry => entry.2.date).Sublist
    (relevesHorloge horloge e.heure e'.heure)
  rows : (operations.flatMap Operation.rows).map sansDate = places.flatMap (stocke sites)
  fautes : ∀ jour f, Operation.archive jour f ∈ operations → ∃ nb, f = faults nb

namespace Mene

variable [Rendered ν] {horloge : Nat → Stamp} {sites : List Site} {faults : Nat → Nat → Faults}
variable {e e' e'' : Etat ν}

/-- A step that leaves the store alone. -/
theorem idle {places : List (Nat × Releve ν)} (world : e'.machine.world = e.machine.world)
    (executions : e'.machine.executions = e.machine.executions) (heure : e.heure ≤ e'.heure)
    (nothing : places.flatMap (stocke sites) = []) :
    Mene horloge sites faults [] e places e' where
  world := world
  valid := trivial
  executions := by rw [executions, List.flatMap_nil, List.append_nil]
  heure := heure
  times := List.nil_sublist _
  dates := List.nil_sublist _
  rows := by rw [nothing, List.flatMap_nil, List.map_nil]
  fautes := fun _ _ absent => absurd absent List.not_mem_nil

theorem append {first second : List (Operation ν)} {places places' : List (Nat × Releve ν)}
    (before : Mene horloge sites faults first e places e')
    (after : Mene horloge sites faults second e' places' e'') :
    Mene horloge sites faults (first ++ second) e (places ++ places') e'' where
  world := by rw [Runs.Machine.run_append, ← before.world, after.world]
  valid := (Runs.Machine.eachStep_append _ _ _).mpr ⟨before.valid, before.world ▸ after.valid⟩
  executions := by
    rw [after.executions, before.executions, List.flatMap_append, List.append_assoc]
  heure := before.heure.trans after.heure
  times := by
    rw [List.flatMap_append, relevesHorloge_append horloge before.heure after.heure,
      List.map_append]
    exact before.times.append after.times
  dates := by
    rw [List.flatMap_append, List.map_append,
      relevesHorloge_append horloge before.heure after.heure]
    exact before.dates.append after.dates
  rows := by
    rw [List.flatMap_append, List.map_append, before.rows, after.rows, List.flatMap_append]
  fautes := fun jour f member => by
    rcases List.mem_append.mp member with inFirst | inSecond
    · exact before.fautes jour f inFirst
    · exact after.fautes jour f inSecond

/-- The reading of the clock at a position. -/
theorem mem_relevesHorloge {k debut fin : Nat} (lower : debut ≤ k) (upper : k < fin) :
    [horloge k].Sublist (relevesHorloge horloge debut fin) := by
  rw [List.singleton_sublist]
  exact List.mem_map.mpr ⟨k, List.mem_range'_1.mpr (by omega), rfl⟩

/-- A run of the archiver. -/
theorem archive {k : Nat} (nb : Nat)
    (world : e'.machine.world = run sites (horloge k).jour (faults nb) e.machine.world)
    (executions : e'.machine.executions = e.machine.executions ++ [(horloge k).jour])
    (lower : e.heure ≤ k) (upper : k < e'.heure) :
    Mene horloge sites faults [.archive (horloge k).jour (faults nb)] e [] e' where
  world := world
  valid := ⟨trivial, trivial⟩
  executions := executions
  heure := by omega
  times := (mem_relevesHorloge lower upper).map Stamp.jour
  dates := List.nil_sublist _
  rows := rfl
  fautes := fun jour f member => by
    rw [List.mem_singleton] at member
    injection member with _ same
    exact ⟨nb, same⟩

/-- The registration of an instrument with a new identifier. -/
theorem register {bdd : Text} {indice : RegistryRow} (new : indice.id ∉ e.machine.world.ids bdd) :
    Mene horloge sites faults [.register bdd indice] e []
      (e.withRegistry (Function.update e.machine.world.db.registry bdd
        (e.machine.world.db.registry bdd ++ [indice]))) where
  world := rfl
  valid := ⟨new, trivial⟩
  executions := (List.append_nil _).symm
  heure := le_rfl
  times := List.nil_sublist _
  dates := List.nil_sublist _
  rows := rfl
  fautes := fun jour f member => by
    rw [List.mem_singleton] at member
    cases member

end Mene

/-! ## The steps of an execution -/

/-- The instrument that a name is looked up for. -/
theorem exists_row_of_identifiant {registry : Text → List RegistryRow} {bdd nom : Text} {i : Int}
    (found : identifiant registry bdd nom = some (some i)) :
    ∃ row ∈ registry bdd, row.id = i ∧ unquote nom = some row.nom := by
  simp only [identifiant, Option.bind_eq_bind, Option.bind_eq_some_iff] at found
  obtain ⟨name, unquoted, value⟩ := found
  have inFilter : i ∈ ((registry bdd).filter fun row => decide (row.nom = name)).map
      RegistryRow.id := by
    unfold scalaire at value
    split at value
    · cases value
    · rename_i id only
      rw [only]
      exact List.mem_singleton.mpr (Option.some.inj (Option.some.inj value)).symm
    · cases value
  obtain ⟨row, inRows, same⟩ := List.mem_map.mp inFilter
  obtain ⟨member, named⟩ := List.mem_filter.mp inRows
  exact ⟨row, member, same, by rw [unquoted, of_decide_eq_true named]⟩

/-- An identifier that is looked up is one of the registry. -/
theorem mem_of_identifiant {registry : Text → List RegistryRow} {bdd nom : Text} {i : Int}
    (found : identifiant registry bdd nom = some (some i)) :
    i ∈ (registry bdd).map RegistryRow.id := by
  obtain ⟨row, member, rfl, -⟩ := exists_row_of_identifiant found
  exact List.mem_map_of_mem member

/-- A registration adds a row with a new identifier. -/
theorem insertIndice_ajoute {δ : Type} {bdd pays nom : Text} {base base' : Base δ}
    (added : sqlBase.insertIndice bdd pays nom base = some base') :
    ∃ indice, indice.id ∉ (base.registry bdd).map RegistryRow.id ∧
      base' = base.ajouter bdd indice := by
  simp only [sqlBase, Option.bind_eq_bind, Option.bind_eq_some_iff] at added
  obtain ⟨_, -, _, -, id, -, accepted⟩ := added
  split at accepted
  · cases accepted
  · exact ⟨_, suivant_not_mem _, (Option.some.inj accepted).symm⟩

namespace Mene

variable [Rendered ν] {horloge : Nat → Stamp} {sites : List Site} {faults : Nat → Nat → Faults}

/-- A handled line is an insert, or nothing. -/
theorem line [DecidableEq ν] {x : Nat} {site : Site} (found : sites[x]? = some site)
    (lecture : Lecture ν) (indice : Indice ν) (e : Etat ν) :
    ∃ operations, Mene horloge sites faults operations e
      [(x, ⟨lecture, indice,
        (indice.addVal (sqlEtat horloge) lecture.val site.type site.bdd e).2.2⟩)]
      (indice.addVal (sqlEtat horloge) lecture.val site.type site.bdd e).2.1 := by
  have nothing : ∀ insertion : Insertion, (∀ id, insertion ≠ .faite id) →
      [((x, ⟨lecture, indice, insertion⟩) : Nat × Releve ν)].flatMap (stocke sites) = [] := by
    intro insertion notDone
    cases insertion with
    | aucune => simp [stocke, found]
    | refusee => simp [stocke, found]
    | faite id => exact absurd rfl (notDone id)
  unfold Indice.addVal
  split
  · cases stored : sqlBase.insertVal site.type site.bdd indice.nom lecture.val e.base with
    | none =>
        have refused : (sqlEtat horloge).insertVal site.type site.bdd indice.nom lecture.val e =
            none := by
          simp only [sqlEtat, stored, Option.map_none]
        rw [refused]
        exact ⟨[], .idle rfl rfl le_rfl (nothing _ fun _ => Insertion.noConfusion)⟩
    | some result =>
        obtain ⟨base', id⟩ := result
        have accepted : (sqlEtat horloge).insertVal site.type site.bdd indice.nom lecture.val e =
            some (e.inserer site.type id lecture.val (horloge e.heure), id) := by
          simp only [sqlEtat, stored, Option.map_some]
        rw [accepted]
        obtain ⟨identified, -⟩ := insertVal_eq_some.mp stored
        refine ⟨[.insert site.type ⟨id, lecture.val, horloge e.heure⟩], ?_⟩
        exact
          { world := rfl
            valid := by
              refine ⟨fun i same => ⟨site, List.mem_of_getElem? found, rfl, ?_⟩, trivial⟩
              obtain rfl : id = some i := same
              exact mem_of_identifiant identified
            executions := (List.append_nil _).symm
            heure := Nat.le_succ _
            times := (mem_relevesHorloge le_rfl (Nat.lt_succ_self _)).map Stamp.jour
            dates := mem_relevesHorloge le_rfl (Nat.lt_succ_self _)
            rows := by simp [Operation.rows, sansDate, stocke, found]
            fautes := fun jour f member => by
              rw [List.mem_singleton] at member
              cases member }
  · exact ⟨[], .idle rfl rfl le_rfl (nothing _ fun _ => Insertion.noConfusion)⟩

/-- A check is a run of the archiver, or nothing. -/
theorem verif (nb : Nat) (e : Etat ν) :
    ∃ operations, Mene horloge sites faults operations e []
      (e.verifDate horloge sites (faults nb)) := by
  by_cases fires : e.machine.jmore = some (civil (horloge e.heure).jour).day
  · have archived : e.verifDate horloge sites (faults nb) =
        { e with
          machine := { e.machine.archive sites (horloge (e.heure + 1)).jour (faults nb) with
            jmore := some (jmoreOf (horloge e.heure).jour) }
          heure := e.heure + 2 } := by
      simp only [Etat.verifDate, Machine.verifDate, fires, if_true]
    rw [archived]
    exact ⟨_, .archive nb rfl rfl (Nat.le_succ _) (Nat.lt_succ_self _)⟩
  · have waits : e.verifDate horloge sites (faults nb) = { e with heure := e.heure + 1 } := by
      simp only [Etat.verifDate, Machine.verifDate, fires, if_false]
    rw [waits]
    exact ⟨[], .idle rfl rfl (Nat.le_succ _) rfl⟩

/-- `init` is a run of the archiver. -/
theorem init (e : Etat ν) :
    Mene horloge sites faults [.archive (horloge e.heure).jour (faults 0)] e []
      (e.init horloge sites (faults 0)) :=
  .archive 0 rfl rfl le_rfl (Nat.lt_add_of_pos_right (by decide))

/-- `INSERT INTO PAYS` leaves the store alone. -/
theorem pays (pays : Text) (e : Etat ν) :
    Mene horloge sites faults [] e [] (((sqlEtat horloge).insertPays pays e).getD e) := by
  cases added : sqlBase.insertPays pays e.base with
  | none =>
      have refused : ((sqlEtat horloge).insertPays pays e).getD e = e := by
        simp only [sqlEtat, added, Option.map_none, Option.getD_none]
      rw [refused]
      exact .idle rfl rfl le_rfl rfl
  | some base =>
      have accepted :
          ((sqlEtat horloge).insertPays pays e).getD e = { e with pays := base.pays } := by
        simp only [sqlEtat, added, Option.map_some, Option.getD_some]
      rw [accepted]
      exact .idle rfl rfl le_rfl rfl

/-- The `INSERT` into a registry is a registration, or nothing. -/
theorem indice (bdd pays nom : Text) (e : Etat ν) :
    ∃ operations, Mene horloge sites faults operations e []
      (((sqlEtat horloge).insertIndice bdd pays nom e).getD e) := by
  cases added : sqlBase.insertIndice bdd pays nom e.base with
  | none =>
      have refused : ((sqlEtat horloge).insertIndice bdd pays nom e).getD e = e := by
        simp only [sqlEtat, added, Option.map_none, Option.getD_none]
      rw [refused]
      exact ⟨[], .idle rfl rfl le_rfl rfl⟩
  | some base =>
      obtain ⟨indice, new, rfl⟩ := insertIndice_ajoute added
      have accepted : ((sqlEtat horloge).insertIndice bdd pays nom e).getD e =
          e.withRegistry (Function.update e.machine.world.db.registry bdd
            (e.machine.world.db.registry bdd ++ [indice])) := by
        simp only [sqlEtat, added, Option.map_some, Option.getD_some]
        rfl
      rw [accepted]
      exact ⟨_, .register new⟩

/-- The lines of a start-up page. -/
theorem recupLignes {parseDouble : Text → Option ν} {site : Site} (lignes : List Ligne) :
    ∀ (panne : Option Nat) (carte : Carte ν) (e : Etat ν),
      ∃ operations, Mene horloge sites faults operations e []
        (recupLignes (sqlEtat horloge) parseDouble site lignes panne carte e).1 := by
  induction lignes with
  | nil => exact fun _ _ e => ⟨[], .idle rfl rfl le_rfl rfl⟩
  | cons ligne lignes ih =>
      intro panne carte e
      by_cases empty : eachText ligne = []
      · rw [Recup.recupLignes, if_pos empty]
        exact ih panne carte e
      rcases recupLignes_cases (sqlEtat horloge) parseDouble site empty lignes panne carte e with
        ⟨lecture, -, -, continued⟩ | ⟨-, e', reached, ended⟩
      · rw [continued]
        obtain ⟨registered, second⟩ : ∃ operations, Mene horloge sites faults operations
            (((sqlEtat horloge).insertPays lecture.pays e).getD e) []
            (inscrire (sqlEtat horloge) site lecture e) :=
          indice site.bdd lecture.pays lecture.nom _
        obtain ⟨rest, later⟩ := ih (panne.map Nat.pred) (enregistrer carte lecture)
          (inscrire (sqlEtat horloge) site lecture e)
        exact ⟨_, ((pays lecture.pays e).append second).append later⟩
      · rw [ended]
        rcases reached with rfl | ⟨name, -, rfl⟩
        · exact ⟨[], .idle rfl rfl le_rfl rfl⟩
        · exact ⟨[], pays name e⟩

/-- The database of the launcher was reached from a state without an insert. -/
def Depuis (horloge : Nat → Stamp) (sites : List Site) (faults : Nat → Nat → Faults) (e : Etat ν)
    (l : Launcher (Etat ν) ν) : Prop :=
  ∃ operations, Mene horloge sites faults operations e [] l.base

/-- The work on a site of the start. -/
theorem Depuis.recupSite {e : Etat ν} {l : Launcher (Etat ν) ν}
    (reached : Depuis horloge sites faults e l) (parseDouble : Text → Option ν) (x : Nat)
    (site : Site) (acces : Acces) :
    Depuis horloge sites faults e (l.recupSite (sqlEtat horloge) parseDouble x site acces) := by
  obtain ⟨operations, before⟩ := reached
  cases acces with
  | refus => exact ⟨operations, before⟩
  | silence => exact ⟨operations, before⟩
  | page page panne =>
      cases table : getAt site.table page with
      | none =>
          have unchanged : (l.recupSite (sqlEtat horloge) parseDouble x site
              (.page page panne)).base = l.base := by simp only [Launcher.recupSite, table]
          rw [Depuis, unchanged]
          exact ⟨operations, before⟩
      | some lignes =>
          have read : (l.recupSite (sqlEtat horloge) parseDouble x site (.page page panne)).base =
              (Recup.recupLignes (sqlEtat horloge) parseDouble site lignes panne (fun _ => none)
                l.base).1 := by
            simp only [Launcher.recupSite, table]
            split <;> simp only [*]
          obtain ⟨registered, after⟩ : ∃ operations, Mene horloge sites faults operations l.base []
              (Recup.recupLignes (sqlEtat horloge) parseDouble site lignes panne (fun _ => none)
                l.base).1 := recupLignes lignes panne (fun _ => none) l.base
          rw [Depuis, read]
          exact ⟨operations ++ registered, before.append after⟩

/-- The start. -/
theorem demarrage (parseDouble : Text → Option ν) (acces : Nat → Acces) (e : Etat ν) :
    Depuis horloge sites faults e
      (Launcher.demarrage (sqlEtat horloge) parseDouble acces sites e) :=
  Launcher.recupIndices_rule
    (fun x site _ _ reached => reached.recupSite parseDouble x site (acces x)) sites 0 _ rfl
    ⟨[], .idle rfl rfl le_rfl rfl⟩

end Mene

variable [Rendered ν] [DecidableEq ν]

/-- **Every execution of the program is a run of the store.** -/
theorem executer_mene (horloge : Nat → Stamp) (sites : List Site)
    (parseDouble : Text → Option ν) (faults : Nat → Nat → Faults) (acces : Nat → Acces)
    (visites : List (Nat → Text → Option Page)) (e : Etat ν) :
    ∃ operations, Mene horloge sites faults operations e
      (executer horloge sites parseDouble faults acces visites e).2.flatten
      (executer horloge sites parseDouble faults acces visites e).1.base := by
  obtain ⟨started, start⟩ : Mene.Depuis horloge sites faults (e.init horloge sites (faults 0))
      (Launcher.demarrage (sqlEtat horloge) parseDouble acces sites
        (e.init horloge sites (faults 0))) := Mene.demarrage parseDouble acces _
  obtain ⟨polled, rounds⟩ := chaine_loopVals
    (T := fun first places second => ∃ operations, Mene horloge sites faults operations first places
      second)
    (fun _ => ⟨[], .idle rfl rfl le_rfl rfl⟩)
    (fun ⟨_, before⟩ ⟨_, after⟩ => ⟨_, before.append after⟩)
    (fun _ _ found lecture indice base => Mene.line found lecture indice base)
    (fun nb base => Mene.verif nb base) visites 0
    (Launcher.demarrage (sqlEtat horloge) parseDouble acces sites (e.init horloge sites (faults 0)))
  exact ⟨_, ((Mene.init e).append start).append rounds⟩

omit [DecidableEq ν] in
/-- An execution without errors, on a clock that does not go back and with years of four digits,
is a regular run. -/
theorem Mene.regular {horloge : Nat → Stamp} {sites : List Site} {faults : Nat → Nat → Faults}
    {operations : List (Operation ν)} {e e' : Etat ν} {places : List (Nat × Releve ν)}
    (execution : Mene horloge sites faults operations e places e') (agree : Accordes sites)
    (empty : Vide e.machine.world) (clock : Avance horloge)
    (years : ∀ k, InEra ((horloge k).jour - 1)) (noFaults : ∀ nb, faults nb = fun _ => noFault) :
    Regular sites e.machine.world (horloge e.heure).jour operations where
  agree := agree
  empty := empty
  chronological := by
    apply chronological_of_pairwise
    have ordered : ((relevesHorloge horloge e.heure e'.heure).map Stamp.jour).Pairwise
        fun first second => first ≤ second :=
      List.pairwise_map.mpr (List.pairwise_map.mpr
        (List.pairwise_le_range'.imp fun {first second} before => clock before))
    refine List.pairwise_cons.mpr ⟨fun day member => ?_, ordered.sublist execution.times⟩
    obtain ⟨_, inReadings, rfl⟩ := List.mem_map.mp (execution.times.subset member)
    obtain ⟨k, inRange, rfl⟩ := List.mem_map.mp inReadings
    exact clock (List.mem_range'_1.mp inRange).1
  valid := execution.valid
  faultless := by
    intro operation member
    cases operation with
    | archive jour f =>
        have inTimes : jour ∈ operations.flatMap Operation.times :=
          List.mem_flatMap.mpr ⟨_, member, List.mem_cons_self⟩
        obtain ⟨_, inReadings, rfl⟩ := List.mem_map.mp (execution.times.subset inTimes)
        obtain ⟨k, -, rfl⟩ := List.mem_map.mp inReadings
        obtain ⟨nb, same⟩ := execution.fautes _ f member
        exact ⟨by rw [hierOf_eq]; exact years k, by rw [same, noFaults]⟩
    | insert type row => trivial
    | register bdd indice => trivial

/-- A clock on one day. -/
def oneDay : Nat → Stamp := fun _ => ⟨sampleDay, sampleSecond 0⟩

end Trading.Recup
