import Trading.Cursor
import Trading.Dao.StoredValues
import Trading.Front.Pollers
import Trading.Front.Session

/-!
# Polls and archives

An open page polls for the rows after the date that its chart ends with, while the recorder
inserts rows and the archiver moves those of yesterday out of the table. For a page whose polls
are answered before the next one is sent, the page is a reader with a cursor (`Cursor.Reader`):
the cursor is the date of the chart, and a run of the archiver is a purge.

The chart misses no row exactly when no row is inserted in the second that the chart ends with,
and when each row that a run of the archiver takes away is on the chart by then
(`polls_and_archives_iff`). Rows of the last seconds of a day that come after the last poll before
the archiver are never shown.
-/

set_option autoImplicit false

namespace Trading.Front

open Trading.Calendar Trading.Recup Trading.Dao Trading.Runs

variable {ν V : Type}

/-! ## Answers -/

/-- **What a poll brings from a table in the order of its dates.** -/
theorem getIndicesNewVals_liveOf (value : ν → V) (ID : Int) {rows : List (Row ν)}
    (years : ∀ row ∈ rows, InEra row.date.jour)
    (sorted : (rowsWithId ID rows).Pairwise fun first second =>
      first.date.time ≤ second.date.time) (date : Text) :
    getIndicesNewVals instantOf ID date (liveOf value rows) =
      ((rowsWithId ID rows).filter fun row => decide (instantOf date < row.date.time)).map
        (envoyer value) := by
  let lines := rows.zipIdx.filter fun line => decide (line.1.id = some ID)
  have dated : ∀ line ∈ lines, instantOf (liveRow value line).date = line.1.date.time := by
    intro line member
    have inRows : line.1 ∈ rows := by
      rw [← List.zipIdx_map_fst 0 rows]
      exact List.mem_map_of_mem (List.mem_filter.mp member).1
    exact instantOf_text (years line.1 inRows)
  have chosen : ((rowsOfId ID (liveOf value rows)).filter fun row =>
      decide (instantOf date < instantOf row.date)) =
        (lines.filter fun line => decide (instantOf date < line.1.date.time)).map
          (liveRow value) := by
    rw [rowsOfId_liveOf, List.filter_map]
    congr 1
    apply List.filter_congr
    intro line member
    rw [Function.comp_apply, dated line member]
  have inOrder : (lines.filter fun line => decide (instantOf date < line.1.date.time)).Pairwise
      fun first second => first.1.date.time ≤ second.1.date.time := by
    rw [← map_fst_filter_zipIdx, List.pairwise_map] at sorted
    exact sorted.filter _
  rw [getIndicesNewVals, newRows, chosen, byDate_of_sorted]
  · rw [← map_fst_filter_zipIdx, List.filter_map, List.map_map, List.map_map]
    rfl
  · refine List.pairwise_map.mpr (inOrder.imp_of_mem ?_)
    intro first second inFirst inSecond earlier
    rw [dated first (List.mem_filter.mp inFirst).1, dated second (List.mem_filter.mp inSecond).1]
    exact earlier

/-! ## The page and the store -/

/-- The store and an open page. Kept besides are the time of the last insert, the rows of the
instrument that were inserted since the page was opened, and those that its polls have brought. -/
structure Veille (ν V : Type) where
  world : Recup.World ν
  tab : Tab V
  now : Int
  stored : List (Row ν) := []
  appended : List (Row ν) := []

/-- What happens: an operation on the store, or a poll of the page and its answer. -/
inductive Fait (ν : Type) where
  | operation (operation : Operation ν)
  | poll (handle : Nat)

/-- What the server answers to a poll. -/
def reponse (value : ν → V) (world : Recup.World ν) : Request → Response V
  | .getIndiceNewVals ID DATE type =>
      .vals (getIndicesNewVals instantOf ID (DATE.getD "undefined".toList)
        (liveOf value (world.db.vals type)))
  | _ => .erreur

/-- The time after an operation. -/
def heureApres (now : Int) : Operation ν → Int
  | .insert _ row => row.date.time
  | _ => now

namespace Veille

/-- The time of the date that the chart ends with. -/
def cursor (veille : Veille ν V) : Int :=
  (veille.tab.component.maxDate.map instantOf).getD 0

/-- The rows of the instrument in the table. -/
def live (type : Text) (ID : Int) (veille : Veille ν V) : List (Row ν) :=
  rowsWithId ID (veille.world.db.vals type)

/-- The rows that a poll would bring. -/
def nouvelles (type : Text) (ID : Int) (veille : Veille ν V) : List (Row ν) :=
  (veille.live type ID).filter fun row => decide (veille.cursor < row.date.time)

/-- Inserts are not dated before the last one, and not outside the years of four digits. -/
def Possible (veille : Veille ν V) : Fait ν → Prop
  | .operation operation => ∀ entry ∈ operation.rows,
      veille.now ≤ entry.2.date.time ∧ InEra entry.2.date.jour
  | .poll handle => handle ∈ veille.tab.intervals

instance (veille : Veille ν V) : ∀ fait : Fait ν, Decidable (veille.Possible fait)
  | .operation operation => inferInstanceAs (Decidable (∀ entry ∈ operation.rows,
      veille.now ≤ entry.2.date.time ∧ InEra entry.2.date.jour))
  | .poll handle => inferInstanceAs (Decidable (handle ∈ veille.tab.intervals))

/-- The tab after the interval has fired and its request was answered. -/
def interroger [Max V] [Min V] (value : ν → V) (world : Recup.World ν) (tab : Tab V)
    (handle : Nat) : Tab V :=
  let asked := after tab (.tick handle)
  match asked.sent with
  | [] => asked
  | sent :: _ => after asked (.deliver sent (reponse value world sent.request))

variable [Rendered ν]

def apres [Max V] [Min V] (sites : List Site) (value : ν → V) (type : Text) (ID : Int)
    (veille : Veille ν V) : Fait ν → Veille ν V
  | .operation operation =>
      { veille with
        world := (store sites).step veille.world operation
        now := heureApres veille.now operation
        stored := veille.stored ++ insertedOf [operation] type ID }
  | .poll handle =>
      { veille with
        tab := interroger value veille.world veille.tab handle
        appended := veille.appended ++ veille.nouvelles type ID }

end Veille

/-- The store and the page, one after the other. -/
def veille [Rendered ν] [Max V] [Min V] (sites : List Site) (value : ν → V) (type : Text)
    (ID : Int) : Machine (Veille ν V) (Fait ν) where
  Enabled := Veille.Possible
  step := Veille.apres sites value type ID

instance [Rendered ν] [Max V] [Min V] (sites : List Site) (value : ν → V) (type : Text) (ID : Int)
    (before : Veille ν V) (fait : Fait ν) :
    Decidable ((veille sites value type ID).Enabled before fait) :=
  inferInstanceAs (Decidable (before.Possible fait))

/-! ## The page is a reader -/

/-- The reader that the page is. -/
def lecteur (type : Text) (ID : Int) (veille : Veille ν V) : Cursor.Reader (Row ν) where
  live := veille.live type ID
  cursor := veille.cursor
  now := veille.now
  read := veille.appended
  stored := veille.stored

/-- A page that polls for an instrument, with a chart that had `data` when it was opened. -/
structure Suit (type : Text) (indice : IndiceModule) (value : ν → V) (data : List V)
    (veille : Veille ν V) : Prop where
  loaded : Loaded veille.tab
  selected : veille.tab.component.indiceSelected = some indice
  typed : veille.tab.component.type = type
  years : ∀ row ∈ veille.world.db.vals type, InEra row.date.jour
  date : ∃ date : Stamp, InEra date.jour ∧ veille.tab.component.maxDate = some date.text
  chart : veille.tab.component.chartDatasets =
    some (data ++ veille.appended.map fun row => value row.val)
  ordered : Cursor.Reader.Ordered (fun row : Row ν => row.date.time)
    (lecteur type indice.id veille)

/-! ### Operations -/

section Operations

variable [Rendered ν]

/-- A run of the archiver takes rows away. -/
theorem writeSites_vals_filter (hier ojd : Int) (type : Text) (sites : List Site) :
    ∀ (faults : Nat → Faults) (w : Recup.World ν), ∃ keep : Row ν → Bool,
      (writeSites hier ojd sites faults w).db.vals type = (w.db.vals type).filter keep := by
  induction sites with
  | nil => exact fun _ w => ⟨fun _ => true, by rw [List.filter_true]; rfl⟩
  | cons site sites ih =>
      intro faults w
      obtain ⟨first, call⟩ : ∃ keep : Row ν → Bool,
          (write hier ojd site.type site.bdd (faults 0) w).1.db.vals type =
            (w.db.vals type).filter keep := by
        have effect := write_effect hier ojd site.type site.bdd (faults 0) w
        generalize (write hier ojd site.type site.bdd (faults 0) w).1 = w' at effect
        cases effect with
        | unchanged reason => exact ⟨fun _ => true, by rw [List.filter_true]⟩
        | interrupted selected absent opened file partOfFile thrown =>
            exact ⟨fun _ => true, by rw [List.filter_true]; rfl⟩
        | archived selected absent opened fine =>
            by_cases same : type = site.type
            · subst same
              exact ⟨_, Database.delete_vals_self w.db _ hier ojd⟩
            · exact ⟨fun _ => true, by
                rw [List.filter_true]
                exact Database.delete_vals_of_ne w.db same hier ojd⟩
      obtain ⟨later, rest⟩ := ih (fun i => faults (i + 1))
        (write hier ojd site.type site.bdd (faults 0) w).1
      exact ⟨fun row => later row && first row, by rw [writeSites, rest, call, List.filter_filter]⟩

variable [DecidableEq ν]

/-- What a step is for the reader. -/
def acces (sites : List Site) (type : Text) (ID : Int) (veille : Veille ν V) :
    Fait ν → Cursor.Access (Row ν)
  | .operation (.insert other row) =>
      if other = type ∧ row.id = some ID then .store row else .wait row.date.time
  | .operation (.archive jour faults) =>
      .purge fun row => decide (row ∈ (Recup.run sites jour faults veille.world).db.vals type)
  | .operation (.register _ _) => .wait veille.now
  | .poll _ => .poll

omit [Rendered ν] [DecidableEq ν] in
theorem insertedOf_insert (other type : Text) (ID : Int) (row : Row ν) :
    insertedOf [.insert other row] type ID =
      if other = type ∧ row.id = some ID then [row] else [] := by
  by_cases sameType : other = type <;> by_cases sameId : row.id = some ID <;>
    simp [insertedOf, rowsWithId, Journal.entriesOf, Operation.rows, sameType, sameId]

omit [Rendered ν] [DecidableEq ν] in
/-- The rows of the instrument after an insert. -/
theorem live_insert (w : Recup.World ν) (other type : Text) (ID : Int) (row : Row ν) :
    rowsWithId ID ((w.insert other row).db.vals type) =
      rowsWithId ID (w.db.vals type) ++ insertedOf [.insert other row] type ID := by
  rw [insertedOf_insert]
  by_cases sameType : other = type
  · subst sameType
    rw [World.insert_self, rowsWithId, List.filter_append]
    by_cases sameId : row.id = some ID <;> simp [rowsWithId, sameId]
  · rw [World.insert_of_ne w (Ne.symm sameType), if_neg (fun same => sameType same.1),
      List.append_nil]

variable [Max V] [Min V]

/-- **An operation on the store is an access of the reader.** -/
theorem lecteur_operation (sites : List Site) (value : ν → V) (type : Text) (ID : Int)
    (v : Veille ν V) (operation : Operation ν) :
    lecteur type ID ((veille sites value type ID).step v (.operation operation)) =
      (lecteur type ID v).step (fun row => row.date.time)
        (acces sites type ID v (.operation operation)) := by
  cases operation with
  | insert other row =>
      change (⟨rowsWithId ID ((v.world.insert other row).db.vals type), v.cursor, row.date.time,
        v.appended, v.stored ++ insertedOf [.insert other row] type ID⟩ :
          Cursor.Reader (Row ν)) = _
      rw [live_insert, insertedOf_insert, acces]
      split
      · rfl
      · rw [List.append_nil, List.append_nil]
        rfl
  | archive jour faults =>
      obtain ⟨keep, vals⟩ := writeSites_vals_filter (hierOf jour) jour type sites faults v.world
      have live : rowsWithId ID ((Recup.run sites jour faults v.world).db.vals type) =
          (rowsWithId ID (v.world.db.vals type)).filter fun row =>
            decide (row ∈ (Recup.run sites jour faults v.world).db.vals type) := by
        rw [Recup.run, vals, rowsWithId, List.filter_comm]
        apply List.filter_congr
        intro row member
        have inTable := (List.mem_filter.mp member).1
        rw [Bool.eq_iff_iff, decide_eq_true_iff, List.mem_filter]
        exact ⟨fun kept => ⟨inTable, kept⟩, fun both => both.2⟩
      change (⟨rowsWithId ID ((Recup.run sites jour faults v.world).db.vals type), v.cursor, v.now,
        v.appended, v.stored ++ []⟩ : Cursor.Reader (Row ν)) = _
      rw [live, List.append_nil]
      rfl
  | register bdd indice =>
      change (⟨v.live type ID, v.cursor, v.now, v.appended, v.stored ++ []⟩ :
        Cursor.Reader (Row ν)) = _
      rw [List.append_nil]
      rfl

end Operations

/-! ### Polls -/

section Polls

variable [Max V] [Min V] {type : Text} {indice : IndiceModule} {value : ν → V} {data : List V}
variable {v : Veille ν V} {handle : Nat}

omit [Max V] [Min V] in
theorem Veille.cursor_eq {date : Text} (maxDate : v.tab.component.maxDate = some date) :
    v.cursor = instantOf date := by
  rw [Veille.cursor, maxDate]
  rfl

/-- A tab after the answer to a poll: the chart ends with the rows of the answer. -/
structure Prolonge (indice : IndiceModule) (value : ν → V) (tab : Tab V) (rows : List (Row ν))
    (tab' : Tab V) : Prop where
  loaded : Loaded tab'
  selected : tab'.component.indiceSelected = some indice
  typed : tab'.component.type = tab.component.type
  maxDate : tab'.component.maxDate =
    (rows.getLast?.map fun row => some row.date.text).getD tab.component.maxDate
  chart : ∀ data, tab.component.chartDatasets = some data →
    tab'.component.chartDatasets = some (data ++ rows.map fun row => value row.val)

/-- The answer to a poll arrives. -/
theorem prolonge_deliver {tab : Tab V} (loaded : Loaded tab)
    (selected : tab.component.indiceSelected = some indice) {sent : Sent}
    (waiting : sent ∈ tab.pending) (request : sent.request.kind = .poll) (rows : List (Row ν)) :
    Prolonge indice value tab rows
      (after tab (.deliver sent (.vals (rows.map (envoyer value))))) := by
  cases lastOf : rows.getLast? with
  | none =>
      obtain rfl := List.getLast?_eq_none_iff.mp lastOf
      rw [List.map_nil, after_poll_nil tab request]
      refine ⟨loaded.receive sent _, selected, rfl, rfl, fun data datasets => ?_⟩
      rw [List.map_nil, List.append_nil]
      exact datasets
  | some last =>
      obtain ⟨data, labels, datasets, labelled⟩ := loaded.chart_of_poll waiting request
      have lastSent : (rows.map (envoyer value)).getLast? = some (envoyer value last) := by
        rw [List.getLast?_map, lastOf, Option.map_some]
      have effect := Effect.append sent (rows.map (envoyer value)) (envoyer value last) data labels
        waiting request lastSent datasets labelled
      rw [after_poll request lastSent datasets labelled]
      refine ⟨effect.loaded loaded, selected, rfl, ?_, fun shown isShown => ?_⟩
      · rw [lastOf]
        rfl
      · obtain rfl := Option.some.inj (datasets.symm.trans isShown)
        change some (data ++ (rows.map (envoyer value)).map IndiceVal.val) = _
        rw [List.map_map]
        rfl

/-- **A poll appends the rows after the cursor.** -/
theorem Suit.interroger (suit : Suit type indice value data v)
    (active : handle ∈ v.tab.intervals) :
    Prolonge indice value v.tab (v.nouvelles type indice.id)
      (Veille.interroger value v.world v.tab handle) := by
  obtain ⟨date, -, maxDate⟩ := suit.date
  let request : Request := .getIndiceNewVals indice.id (some date.text) type
  let asked : Tab V :=
    { v.tab with component := { v.tab.component with count := v.tab.component.count + 1 } }.send
      request
  let sent : Sent := ⟨v.tab.sent.length, request, v.tab.component.timeSelected⟩
  have ticked : after v.tab (.tick handle) = asked := by
    rw [after_tick suit.selected, maxDate, suit.typed]
  have loaded : Loaded asked := by
    have effect := (Effect.tick handle active indice suit.selected).loaded suit.loaded
    rwa [← after_tick suit.selected, ticked] at effect
  have sorted : (rowsWithId indice.id (v.world.db.vals type)).Pairwise
      fun first second => first.date.time ≤ second.date.time := suit.ordered.sorted
  have answer : reponse value v.world request =
      .vals ((v.nouvelles type indice.id).map (envoyer value)) := by
    rw [reponse, Option.getD_some, getIndicesNewVals_liveOf value indice.id suit.years sorted,
      Veille.nouvelles, Veille.cursor_eq maxDate]
    rfl
  have answered : Veille.interroger value v.world v.tab handle =
      after asked (.deliver sent (reponse value v.world request)) := by
    rw [Veille.interroger, ticked]
    rfl
  have longer : Prolonge indice value asked (v.nouvelles type indice.id)
      (after asked (.deliver sent (.vals ((v.nouvelles type indice.id).map (envoyer value))))) :=
    prolonge_deliver loaded suit.selected (mem_pending_send.mpr (.inr rfl)) rfl _
  rw [answered, answer]
  exact ⟨longer.loaded, longer.selected, longer.typed, longer.maxDate, longer.chart⟩

end Polls

/-! ## What the chart misses -/

/-- The rows on the chart and those that the next poll would bring are all that were inserted. -/
def RienManque (type : Text) (ID : Int) (v : Veille ν V) : Prop :=
  v.appended ++ v.nouvelles type ID = v.stored

/-- A step inserts no row of the instrument in the second of the cursor, and takes away no row of
it that is after the cursor. -/
def Epargne [Rendered ν] (sites : List Site) (type : Text) (ID : Int) (v : Veille ν V) :
    Fait ν → Prop
  | .operation operation =>
      (∀ row ∈ insertedOf [operation] type ID, v.cursor < row.date.time) ∧
        ∀ row ∈ v.live type ID, row ∉ ((store sites).step v.world operation).db.vals type →
          row.date.time ≤ v.cursor
  | .poll _ => True

instance [Rendered ν] [DecidableEq ν] (sites : List Site) (type : Text) (ID : Int)
    (v : Veille ν V) : ∀ fait : Fait ν, Decidable (Epargne sites type ID v fait)
  | .operation _ => inferInstanceAs (Decidable (_ ∧ _))
  | .poll _ => isTrue trivial

section Runs

variable [Rendered ν] [DecidableEq ν] [Max V] [Min V] {sites : List Site} {type : Text}
variable {indice : IndiceModule} {value : ν → V} {data : List V} {v : Veille ν V} {fait : Fait ν}

/-- **Each step is an access of the reader.** -/
theorem Suit.lecteur_step (suit : Suit type indice value data v) (possible : v.Possible fait) :
    lecteur type indice.id ((veille sites value type indice.id).step v fait) =
      (lecteur type indice.id v).step (fun row => row.date.time)
        (acces sites type indice.id v fait) := by
  cases fait with
  | operation operation => exact lecteur_operation sites value type indice.id v operation
  | poll handle =>
      have longer := suit.interroger possible
      have cursor : ((veille sites value type indice.id).step v (.poll handle)).cursor =
          ((v.nouvelles type indice.id).getLast?.map fun row => row.date.time).getD v.cursor := by
        change ((Veille.interroger value v.world v.tab handle).component.maxDate.map
          instantOf).getD 0 = _
        rw [longer.maxDate]
        cases lastOf : (v.nouvelles type indice.id).getLast? with
        | none => rfl
        | some last =>
            have inTable := (List.mem_filter.mp
              (List.mem_filter.mp (List.mem_of_getLast? lastOf)).1).1
            exact instantOf_text (suit.years last inTable)
      change (⟨v.live type indice.id, _, v.now, v.appended ++ v.nouvelles type indice.id,
        v.stored⟩ : Cursor.Reader (Row ν)) = _
      rw [cursor]
      rfl

omit [Max V] [Min V] in
theorem possible_acces (possible : v.Possible fait) :
    (lecteur type indice.id v).Possible (fun row => row.date.time)
      (acces sites type indice.id v fait) := by
  cases fait with
  | poll handle => trivial
  | operation operation =>
      cases operation with
      | archive jour faults => trivial
      | register bdd indice => exact Int.le_refl _
      | insert other row =>
          have later := (possible (other, row) (List.mem_singleton_self _)).1
          rw [acces]
          split
          · exact later
          · exact later

omit [Max V] [Min V] in
/-- What a step spares, in terms of the reader. -/
theorem spares_iff (sites : List Site) (type : Text) (ID : Int) (v : Veille ν V) (fait : Fait ν) :
    (lecteur type ID v).Spares (fun row => row.date.time) (acces sites type ID v fait) ↔
      Epargne sites type ID v fait := by
  cases fait with
  | poll handle => exact Iff.rfl
  | operation operation =>
      have inTable : ∀ row ∈ v.live type ID, row ∈ v.world.db.vals type := fun _ member =>
        (List.mem_filter.mp member).1
      cases operation with
      | insert other row =>
          have kept : ∀ found ∈ v.live type ID,
              found ∈ ((store sites).step v.world (.insert other row)).db.vals type := by
            intro found member
            by_cases same : type = other
            · subst same
              change found ∈ (v.world.insert type row).db.vals type
              rw [World.insert_self]
              exact List.mem_append_left _ (inTable found member)
            · change found ∈ (v.world.insert other row).db.vals type
              rw [World.insert_of_ne v.world same]
              exact inTable found member
          rw [Epargne, insertedOf_insert, acces,
            and_iff_left fun found member gone => absurd (kept found member) gone]
          split
          · rw [List.forall_mem_singleton]
            exact Iff.rfl
          · exact iff_of_true trivial fun _ member => absurd member List.not_mem_nil
      | archive jour faults =>
          have noInsert : ∀ row ∈ insertedOf ([.archive jour faults] : List (Operation ν)) type ID,
              v.cursor < row.date.time := fun _ member => absurd member List.not_mem_nil
          rw [Epargne, and_iff_right noInsert]
          change (∀ row ∈ v.live type ID, decide _ = false → _) ↔ _
          simp only [decide_eq_false_iff_not]
          rfl
      | register bdd indice =>
          refine iff_of_true trivial ⟨fun _ member => absurd member List.not_mem_nil, ?_⟩
          exact fun row member gone => absurd (inTable row member) gone

omit [DecidableEq ν] [Max V] [Min V] in
/-- The rows of a table after an operation. -/
theorem mem_vals_step {w : Recup.World ν} {operation : Operation ν} {row : Row ν}
    (member : row ∈ ((store sites).step w operation).db.vals type) :
    row ∈ w.db.vals type ∨ (type, row) ∈ operation.rows := by
  cases operation with
  | insert other new =>
      change row ∈ (w.insert other new).db.vals type at member
      by_cases same : type = other
      · subst same
        rw [World.insert_self] at member
        refine (List.mem_append.mp member).imp id fun isNew => ?_
        rw [List.mem_singleton.mp isNew]
        exact List.mem_singleton_self _
      · rw [World.insert_of_ne w same] at member
        exact .inl member
  | archive jour faults =>
      obtain ⟨keep, vals⟩ := writeSites_vals_filter (hierOf jour) jour type sites faults w
      change row ∈ (Recup.run sites jour faults w).db.vals type at member
      rw [Recup.run, vals] at member
      exact .inl (List.mem_filter.mp member).1
  | register bdd indice => exact .inl member

theorem Suit.step (suit : Suit type indice value data v) (possible : v.Possible fait) :
    Suit type indice value data ((veille sites value type indice.id).step v fait) := by
  have ordered : Cursor.Reader.Ordered (fun row : Row ν => row.date.time)
      (lecteur type indice.id ((veille sites value type indice.id).step v fait)) := by
    rw [suit.lecteur_step possible]
    exact suit.ordered.step (possible_acces possible)
  cases fait with
  | operation operation =>
      refine ⟨suit.loaded, suit.selected, suit.typed, ?_, suit.date, suit.chart, ordered⟩
      intro row member
      rcases mem_vals_step member with old | isNew
      · exact suit.years row old
      · exact (possible _ isNew).2
  | poll handle =>
      have longer := suit.interroger possible
      refine ⟨longer.loaded, longer.selected, longer.typed.trans suit.typed, suit.years, ?_, ?_,
        ordered⟩
      · change ∃ date : Stamp, InEra date.jour ∧
          (Veille.interroger value v.world v.tab handle).component.maxDate = some date.text
        rw [longer.maxDate]
        cases lastOf : (v.nouvelles type indice.id).getLast? with
        | none => exact suit.date
        | some last =>
            have inTable := (List.mem_filter.mp
              (List.mem_filter.mp (List.mem_of_getLast? lastOf)).1).1
            exact ⟨last.date, suit.years last inTable, rfl⟩
      · have chart := longer.chart _ suit.chart
        rw [List.append_assoc, ← List.map_append] at chart
        exact chart

/-- An open page: the chart ends with a date, and the rows of the instrument in the table are not
after it. -/
structure Ouverte (type : Text) (indice : IndiceModule) (data : List V) (v : Veille ν V) :
    Prop where
  loaded : Loaded v.tab
  selected : v.tab.component.indiceSelected = some indice
  typed : v.tab.component.type = type
  years : ∀ row ∈ v.world.db.vals type, InEra row.date.jour
  date : ∃ date : Stamp, InEra date.jour ∧ v.tab.component.maxDate = some date.text
  chart : v.tab.component.chartDatasets = some data
  sorted : (v.live type indice.id).Pairwise fun first second =>
    first.date.time ≤ second.date.time
  shown : ∀ row ∈ v.live type indice.id, row.date.time ≤ v.cursor
  past : v.cursor ≤ v.now
  fresh : v.stored = [] ∧ v.appended = []

omit [Rendered ν] [DecidableEq ν] in
/-- The page after the answer that opens its chart, when the answer has all rows of the instrument
that are in the table, in the order of their dates. -/
theorem ouverte_of_answer {tab : Tab V} (loaded : Loaded tab)
    (selected : tab.component.indiceSelected = some indice) (typed : tab.component.type = type)
    {sent : Sent} (waiting : sent ∈ tab.pending) (request : sent.request.kind = .vals)
    (value : ν → V) {rows : List (Row ν)} {last : Row ν} (lastOf : rows.getLast? = some last)
    (sorted : rows.Pairwise fun first second => first.date.time ≤ second.date.time)
    {world : Recup.World ν} (years : ∀ row ∈ world.db.vals type, InEra row.date.jour)
    (lastYear : InEra last.date.jour)
    (inOrder : (rowsWithId indice.id (world.db.vals type)).Pairwise fun first second =>
      first.date.time ≤ second.date.time)
    (whole : ∀ row ∈ rowsWithId indice.id (world.db.vals type), row ∈ rows) :
    Ouverte type indice (rows.map fun row => value row.val)
      { world := world
        tab := after tab (.deliver sent (.vals (rows.map (envoyer value))))
        now := last.date.time } := by
  have lastSent : (rows.map (envoyer value)).getLast? = some (envoyer value last) := by
    rw [List.getLast?_map, lastOf, Option.map_some]
  have effect := Effect.chart sent (rows.map (envoyer value)) (envoyer value last) waiting request
    lastSent
  rw [after_vals tab request lastSent]
  have cursor : ∀ {tab' : Tab V}, tab'.component.maxDate = some last.date.text →
      (⟨world, tab', last.date.time, [], []⟩ : Veille ν V).cursor = last.date.time := by
    intro tab' maxDate
    rw [Veille.cursor_eq maxDate, instantOf_text lastYear]
  obtain ⟨before, rfl⟩ := List.getLast?_eq_some_iff.mp lastOf
  refine ⟨effect.loaded loaded, selected, typed, years, ⟨last.date, lastYear, rfl⟩, ?_, inOrder, ?_,
    ?_, ⟨rfl, rfl⟩⟩
  · change some (((before ++ [last]).map (envoyer value)).map IndiceVal.val) = _
    rw [List.map_map]
    rfl
  · intro row member
    rw [cursor rfl]
    rcases List.mem_append.mp (whole row member) with isBefore | isLast
    · exact (List.pairwise_append.mp sorted).2.2 row isBefore last (List.mem_singleton_self _)
    · rw [List.mem_singleton.mp isLast]
  · rw [cursor rfl]

omit [Rendered ν] [DecidableEq ν] [Max V] [Min V] in
theorem Ouverte.suit (opened : Ouverte type indice data v) (value : ν → V) :
    Suit type indice value data v ∧ RienManque type indice.id v := by
  obtain ⟨stored, appended⟩ := opened.fresh
  have nothingNew : v.nouvelles type indice.id = [] := by
    refine List.filter_eq_nil_iff.mpr fun row member => ?_
    rw [decide_eq_true_eq, not_lt]
    exact opened.shown row member
  refine ⟨⟨opened.loaded, opened.selected, opened.typed, opened.years, opened.date, ?_, ?_⟩, ?_⟩
  · rw [appended, List.map_nil, List.append_nil]
    exact opened.chart
  · exact ⟨opened.sorted, fun row member => (opened.shown row member).trans opened.past,
      opened.past⟩
  · rw [RienManque, appended, nothingNew, stored]
    rfl

/-- **What an open chart misses.** In every run of the store and of an open page whose polls are
answered at once, the chart has the values that it was opened with and those of the rows that the
polls have brought. After each step these rows and those that the next poll would bring are all
the rows of the instrument that were inserted since, exactly when no step inserts a row of it in
the second that the chart ends with, and no run of the archiver takes away a row of it that is not
yet on the chart. -/
theorem polls_and_archives_iff (opened : Ouverte type indice data v) {faits : List (Fait ν)}
    (valid : (veille sites value type indice.id).Valid v faits) :
    let fin := (veille sites value type indice.id).run v faits
    fin.tab.component.chartDatasets =
        some (data ++ fin.appended.map fun row => value row.val) ∧
      ((veille sites value type indice.id).EachStep (fun v fait =>
          RienManque type indice.id ((veille sites value type indice.id).step v fait)) v faits ↔
        (veille sites value type indice.id).EachStep (Epargne sites type indice.id) v faits) := by
  obtain ⟨suit, whole⟩ := opened.suit value
  constructor
  · have follows : Suit type indice value data
        ((veille sites value type indice.id).run v faits) :=
      valid.run (fun _ _ suit possible => suit.step possible) suit
    exact follows.chart
  · have agree : ∀ v fait, Suit type indice value data v ∧ RienManque type indice.id v →
        v.Possible fait →
          (RienManque type indice.id ((veille sites value type indice.id).step v fait) ↔
            Epargne sites type indice.id v fait) := by
      rintro v fait ⟨suit, whole⟩ possible
      have step := Cursor.Reader.complete_step_iff suit.ordered whole
        (acces sites type indice.id v fait)
      rw [← suit.lecteur_step possible] at step
      exact step.trans (spares_iff sites type indice.id v fait)
    refine Machine.eachStep_iff agree ?_ valid ⟨suit, whole⟩
    rintro v fait ⟨suit, -⟩ possible holds
    exact ⟨suit.step possible, holds⟩

end Runs

/-- The row that the page of `pollingPage` was opened with, and one of the last second of that
day. -/
def openedRow : Row Int := sampleRow (some 1) 12000 (sampleDay - 1) (sampleSecond 40529)

def lastRow : Row Int := sampleRow (some 1) 12005 (sampleDay - 1) (sampleSecond 86399)

/-- A page that polls for its only instrument. -/
def openedPage : Veille Int Int where
  world := sampleWorld [openedRow]
  tab := (page Int).run {} pollingPage
  now := openedRow.date.time

theorem ouverte_openedPage :
    Ouverte "cfd".toList ⟨1, "DAX 30".toList⟩ [12000] openedPage := by
  have loaded : Loaded ((page Int).run {} (pollingPage.take 2)) :=
    ⟨⟨_, rfl⟩, by decide, by decide, by decide, rfl⟩
  have answered := ouverte_of_answer loaded rfl rfl
    (by decide : (⟨2, .getIndiceVals 1 .allTime "cfd".toList, .allTime⟩ : Sent) ∈ _) rfl
    (fun val : Int => val) (rfl : [openedRow].getLast? = some openedRow)
    (List.pairwise_singleton _ _) (by decide +kernel : ∀ row ∈
      (sampleWorld [openedRow]).db.vals "cfd".toList, InEra row.date.jour) (by decide +kernel)
    (by decide +kernel) (by decide +kernel)
  have sends : [openedRow].map (envoyer fun val : Int => val) =
      [⟨12000, "2019-04-11 11:15:29.0".toList⟩] := by decide +kernel
  rw [sends] at answered
  exact answered

/-- The last row of the day is on the chart when a poll comes before the archiver, and it is
missed when the archiver comes first. -/
theorem polls_and_archives_midnight :
    let machine := veille [sampleSite] (fun val : Int => val) "cfd".toList 1
    let missesNothing := fun v fait => RienManque "cfd".toList 1 (machine.step v fait)
    let insert : Fait Int := .operation (.insert "cfd".toList lastRow)
    let archive : Fait Int := .operation (.archive sampleDay fun _ => noFault)
    machine.EachStep missesNothing openedPage [insert, .poll 0, archive] ∧
      ¬ machine.EachStep missesNothing openedPage [insert, archive, .poll 0] := by
  intro machine missesNothing insert archive
  have valid : machine.Valid openedPage [insert, .poll 0, archive] := by decide +kernel
  have valid' : machine.Valid openedPage [insert, archive, .poll 0] := by decide +kernel
  have pollFirst := (polls_and_archives_iff ouverte_openedPage valid).2
  have archiveFirst := (polls_and_archives_iff ouverte_openedPage valid').2
  exact ⟨pollFirst.mpr (by decide +kernel), fun misses =>
    absurd (archiveFirst.mp misses) (by decide +kernel)⟩

end Trading.Front
