import Trading.Dao.Sampling
import Trading.Front.Session

/-!
# Polls one at a time

When each poll is answered before the next is sent, it carries the date of the last row of the
chart, and the server looks for later dates. A row that was inserted after the last row of the
chart in the same second is not found, by this poll or by any later one. `polls_complete_iff`
says that this is the only way in which a row is missed: the rows that polls have appended are
those of the poll's table that come after the last row of the chart's first answer, exactly when
no poll meets such a row.
-/

set_option autoImplicit false

namespace Trading.Front

open Trading.Dao Trading.Runs

variable {V : Type}

/-! ## Rows after a row -/

/-- Rows of the table in the order of their insertion, with dates that do not decrease. -/
def Chron (instant : Text → Int) (rows : List (LiveRow V)) : Prop :=
  rows.Pairwise fun first second =>
    instant first.date ≤ instant second.date ∧ first.num < second.num

/-- The place of a row in the order of dates and insertions. A row of a file has no number: it was
inserted before all rows of the table. -/
structure Place where
  date : Text
  num : Option Nat
  deriving DecidableEq

def Place.ofRow (row : LiveRow V) : Place := ⟨row.date, some row.num⟩

/-- A live row that comes after a place. -/
def comesAfter (instant : Text → Int) (place : Place) (row : LiveRow V) : Bool :=
  instant place.date < instant row.date ||
    (instant place.date = instant row.date && place.num.all fun num => num < row.num)

section Rows

variable {instant : Text → Int} {place : Place} {rows hidden appended rest : List (LiveRow V)}

theorem date_le_of_not_comesAfter {row : LiveRow V} (before : comesAfter instant place row = false)
    : instant row.date ≤ instant place.date := by
  simp only [comesAfter, Bool.or_eq_false_iff, decide_eq_false_iff_not] at before
  omega

theorem date_le_of_comesAfter {row : LiveRow V} (after : comesAfter instant place row = true) :
    instant place.date ≤ instant row.date := by
  simp only [comesAfter, Bool.or_eq_true, Bool.and_eq_true, decide_eq_true_eq] at after
  omega

/-- What comes after a row comes after what the row comes after. -/
theorem comesAfter_trans {first second : LiveRow V}
    (ordered : instant first.date ≤ instant second.date)
    (later : first.num < second.num) (after : comesAfter instant place first = true) :
    comesAfter instant place second = true := by
  obtain ⟨date, num⟩ := place
  simp only [comesAfter, Bool.or_eq_true, Bool.and_eq_true, decide_eq_true_eq] at after ⊢
  cases num with
  | none =>
      simp only [Option.all_none, and_true] at after ⊢
      omega
  | some num =>
      simp only [Option.all_some, decide_eq_true_eq] at after ⊢
      omega

theorem comesAfter_place {first second : LiveRow V}
    (ordered : instant first.date ≤ instant second.date)
    (later : first.num < second.num) :
    comesAfter instant (.ofRow first) second = true ∧
      comesAfter instant (.ofRow second) first = false := by
  unfold Place.ofRow
  simp only [comesAfter, Option.all_some, Bool.or_eq_true, Bool.and_eq_true,
    Bool.or_eq_false_iff, Bool.and_eq_false_imp, decide_eq_true_eq, decide_eq_false_iff_not]
  refine ⟨by omega, by omega, ?_⟩
  intro _
  omega

theorem comesAfter_self (row : LiveRow V) : comesAfter instant (.ofRow row) row = false := by
  simp [comesAfter, Place.ofRow]

/-- The rows that come after a place are the last ones. -/
theorem Chron.split (chron : Chron instant rows) (place : Place) :
    rows.filter (fun row => !comesAfter instant place row) ++
        rows.filter (comesAfter instant place) =
      rows := by
  have ordered : rows.Pairwise fun first second =>
      (!comesAfter instant place second) = true → (!comesAfter instant place first) = true := by
    apply chron.imp
    rintro first second ⟨dates, nums⟩ before
    by_contra after
    rw [Bool.not_eq_true, Bool.not_eq_false'] at after
    rw [comesAfter_trans dates nums after] at before
    cases before
  have parts := Recup.filter_append_filter_not ordered
  simpa only [Bool.not_not] using parts

/-- The rows of an identifier after a place. -/
def rowsAfter (instant : Text → Int) (ID : Int) (place : Place) (table : List (LiveRow V)) :
    List (LiveRow V) :=
  (rowsOfId ID table).filter (comesAfter instant place)

theorem rowsAfter_mono {ID : Int} {table live : List (LiveRow V)} (earlier : table <+: live) :
    rowsAfter instant ID place table <+: rowsAfter instant ID place live :=
  (earlier.filter _).filter _

/-- Some of the rows after a place were appended; what comes after the last of them, or after the
place if there is none, is the rest. -/
theorem comesAfter_last (chron : Chron instant rows)
    (parts : rows.filter (comesAfter instant place) = appended ++ rest) {last : Place}
    (isLast : last = (appended.getLast?.map Place.ofRow).getD place) :
    ∃ before, rows = before ++ rest ∧ (∀ row ∈ before, comesAfter instant last row = false) ∧
      ∀ row ∈ rest, comesAfter instant last row = true := by
  have split := chron.split place
  rw [parts, ← List.append_assoc] at split
  refine ⟨_, split.symm, ?_⟩
  rcases List.eq_nil_or_concat appended with rfl | ⟨earlier, final, rfl⟩
  · obtain rfl : last = place := isLast
    rw [List.nil_append] at parts
    refine ⟨?_, ?_⟩
    · intro row member
      rw [List.append_nil] at member
      simpa using (List.mem_filter.mp member).2
    · intro row member
      rw [← parts] at member
      exact (List.mem_filter.mp member).2
  · have isFinal : last = .ofRow final := by simpa using isLast
    rw [isFinal]
    rw [← split, List.concat_eq_append, ← List.append_assoc, List.append_assoc] at chron
    obtain ⟨-, fromFinal, toFinal⟩ := List.pairwise_append.mp chron
    rw [List.singleton_append] at fromFinal toFinal
    refine ⟨?_, ?_⟩
    · intro row member
      rw [List.concat_eq_append, ← List.append_assoc] at member
      rcases List.mem_append.mp member with isBefore | isRow
      · obtain ⟨dates, nums⟩ := toFinal row isBefore final List.mem_cons_self
        exact (comesAfter_place dates nums).2
      · rw [List.mem_singleton.mp isRow]
        exact comesAfter_self final
    · intro row member
      obtain ⟨dates, nums⟩ := (List.pairwise_cons.mp fromFinal).1 row member
      exact (comesAfter_place dates nums).1

/-- **A poll finds the rest, but for the rows of the last second.** -/
theorem newRows_after {ID : Int} {table : List (LiveRow V)}
    (chron : Chron instant (rowsOfId ID table))
    (parts : rowsAfter instant ID place table = appended ++ rest) {last : Place}
    (isLast : last = (appended.getLast?.map Place.ofRow).getD place) :
    newRows instant ID last.date table =
      rest.filter fun row => decide (instant last.date < instant row.date) := by
  obtain ⟨before, rows, notAfter, -⟩ := comesAfter_last chron parts isLast
  have noneBefore :
      before.filter (fun row => decide (instant last.date < instant row.date)) = [] := by
    apply List.filter_eq_nil_iff.mpr
    intro row member
    have notLater := date_le_of_not_comesAfter (notAfter row member)
    rw [decide_eq_true_eq]
    omega
  have sorted : (rest.filter fun row => decide (instant last.date < instant row.date)).Pairwise
      fun first second => instant first.date ≤ instant second.date := by
    rw [rows] at chron
    have ofRest := (List.pairwise_append.mp chron).2.1
    exact (ofRest.sublist List.filter_sublist).imp fun {_ _} order => order.1
  rw [newRows, rows, List.filter_append, noneBefore, List.nil_append, byDate_of_sorted _ sorted]

/-- What a poll finds is the whole rest exactly when no row after the last one has its date. -/
theorem newRows_eq_rest_iff {ID : Int} {table : List (LiveRow V)}
    (chron : Chron instant (rowsOfId ID table))
    (parts : rowsAfter instant ID place table = appended ++ rest) {last : Place}
    (isLast : last = (appended.getLast?.map Place.ofRow).getD place) :
    newRows instant ID last.date table = rest ↔
      ∀ row ∈ rowsOfId ID table, comesAfter instant last row = true →
        instant last.date < instant row.date := by
  rw [newRows_after chron parts isLast, List.filter_eq_self]
  obtain ⟨before, rows, notAfter, isAfter⟩ := comesAfter_last chron parts isLast
  constructor
  · intro later row member after
    rw [rows] at member
    rcases List.mem_append.mp member with isBefore | isRest
    · rw [notAfter row isBefore] at after
      cases after
    · exact of_decide_eq_true (later row isRest)
  · intro later row member
    rw [decide_eq_true_eq]
    apply later row ?_ (isAfter row member)
    rw [rows]
    exact List.mem_append_right _ member

end Rows

/-! ## The rows of the polls -/

/-- The place of the last row of an answer: a row of the table, or of a file. -/
def Answer.last (answer : Answer V) : Option Place :=
  match answer.rows.getLast?, answer.response with
  | some row, _ => some (.ofRow row)
  | none, .vals tmp => tmp.getLast?.map fun o => ⟨o.date, none⟩
  | none, _ => none

/-- The place of the last row of the chart. -/
def World.last (world : World V) (place : Place) : Place :=
  (world.appended.getLast?.map Place.ofRow).getD place

section Polls

variable (server : Server V) (indice : IndiceModule)

/-- A row of the instrument has no earlier date than the rows before it, and there is no tick
while a request is unanswered. -/
def OneAtATime (world : World V) : Happening V → Prop
  | .insert id _ date => id = some indice.id →
      ∀ row ∈ rowsOfId indice.id world.live, server.instant row.date ≤ server.instant date
  | .tick _ => world.tab.pending = []
  | _ => True

instance (world : World V) : ∀ event : Happening V, Decidable (OneAtATime server indice world event)
  | .insert _ _ _ => inferInstanceAs (Decidable (_ → ∀ _ ∈ _, _))
  | .tick _ => inferInstanceAs (Decidable (world.tab.pending = []))
  | .evaluate _ | .deliver _ | .fail _ => isTrue trivial

/-- After a poll, the rows that were appended to the chart are those of the poll's table that
come after the last row of the answer that opened it. -/
def Complete (world world' : World V) : Happening V → Prop
  | .deliver sent => sent.request.kind = .poll → ∀ answer opening place,
      world.answerTo sent = some answer → world.opening = some opening → opening.last = some place →
        world'.appended = rowsAfter server.instant indice.id place answer.table ∧
          ∃ tmp, opening.response = .vals tmp ∧ world'.tab.component.chartDatasets =
            some (tmp.map IndiceVal.val ++ world'.appended.map LiveRow.val)
  | _ => True

/-- No row of the poll's table that comes after the last row of the chart has its date. -/
def NoTie (world : World V) : Happening V → Prop
  | .deliver sent => sent.request.kind = .poll → ∀ answer opening place,
      world.answerTo sent = some answer → world.opening = some opening → opening.last = some place →
        ∀ row ∈ rowsOfId indice.id answer.table,
          comesAfter server.instant (world.last place) row = true →
            server.instant (world.last place).date < server.instant row.date
  | _ => True

/-- What was appended is a beginning of what comes after the place at which the chart was opened;
a poll on its way is the only request, carries the date of the last row, and its table has these
rows too. -/
structure Continues (world : World V) : Prop where
  chron : Chron server.instant (rowsOfId indice.id world.live)
  alone : ∀ sent ∈ world.tab.pending, sent.request.kind = .poll → world.tab.pending = [sent]
  placed : (world.tab.intervals ≠ [] ∨ ∃ sent ∈ world.tab.pending, sent.request.kind = .poll) →
    ∀ opening, world.opening = some opening → opening.last ≠ none
  ends : ∀ opening place, world.opening = some opening → opening.last = some place →
    world.tab.component.maxDate = some (world.last place).date
  starts : ∀ opening place, world.opening = some opening → opening.last = some place →
    world.appended <+: rowsAfter server.instant indice.id place world.live
  carries : ∀ sent ∈ world.tab.pending, ∀ date type,
    sent.request = .getIndiceNewVals indice.id (some date) type →
      world.tab.component.maxDate = some date
  found : ∀ sent ∈ world.tab.pending, sent.request.kind = .poll → ∀ answer opening place,
    world.answerTo sent = some answer → world.opening = some opening → opening.last = some place →
      world.appended <+: rowsAfter server.instant indice.id place answer.table

variable {server indice} {world world' : World V}

/-- An answer that does not concern the chart. -/
theorem Continues.frame (continues : Continues server indice world) {sent : Sent}
    (live : world'.live = world.live) (answers : world'.answers = world.answers)
    (opening : world'.opening = world.opening) (appended : world'.appended = world.appended)
    (maxDate : world'.tab.component.maxDate = world.tab.component.maxDate)
    (intervals : world'.tab.intervals = world.tab.intervals)
    (pending : world'.tab.pending = world.tab.pending.erase sent) :
    Continues server indice world' := by
  have fewer : ∀ other ∈ world'.tab.pending, other ∈ world.tab.pending := by
    intro other waiting
    rw [pending] at waiting
    exact List.mem_of_mem_erase waiting
  have answerTo : ∀ other, world'.answerTo other = world.answerTo other := by
    intro other
    rw [World.answerTo, World.answerTo, answers]
  have last : ∀ place, world'.last place = world.last place := by
    intro place
    rw [World.last, World.last, appended]
  refine ⟨?_, ?_, ?_, ?_, ?_, ?_, ?_⟩
  · rw [live]
    exact continues.chron
  · intro other waiting poll
    have single := continues.alone other (fewer other waiting) poll
    rw [pending, single] at waiting ⊢
    by_cases same : other = sent
    · rw [same, List.erase_cons_head] at waiting
      cases waiting
    · rw [List.erase_of_not_mem (by simpa using Ne.symm same)]
  · rw [intervals, opening]
    rintro (polling | ⟨other, waiting, poll⟩)
    · exact continues.placed (.inl polling)
    · exact continues.placed (.inr ⟨other, fewer other waiting, poll⟩)
  · intro opened place
    rw [opening, maxDate, last]
    exact continues.ends opened place
  · intro opened place
    rw [opening, appended, live]
    exact continues.starts opened place
  · intro other waiting
    rw [maxDate]
    exact continues.carries other (fewer other waiting)
  · intro other waiting
    rw [opening, appended, answerTo]
    exact continues.found other (fewer other waiting)

/-- A row that is inserted. -/
theorem Continues.insert (inSession : InSession server indice world)
    (continues : Continues server indice world) {id : Option Int} {val : V} {date : Text}
    (later : OneAtATime server indice world (.insert id val date)) :
    Continues server indice (world.insert id val date) := by
  have more : world.live <+: (world.insert id val date).live := List.prefix_append _ _
  refine ⟨?_, continues.alone, continues.placed, continues.ends, ?_, continues.carries,
    continues.found⟩
  · unfold Chron
    rw [World.insert, rowsOfId_append]
    apply List.pairwise_append.mpr
    refine ⟨continues.chron, ?_, ?_⟩
    · exact (List.pairwise_singleton _ _).sublist List.filter_sublist
    · intro row member other isNew
      obtain ⟨inNew, ofId⟩ := List.mem_filter.mp isNew
      obtain rfl := List.mem_singleton.mp inNew
      exact ⟨later (of_decide_eq_true ofId) row member,
        inSession.below row (List.mem_filter.mp member).1⟩
  · intro opening place opened isLast
    exact (continues.starts opening place opened isLast).trans (rowsAfter_mono more)

/-- A request that is evaluated. -/
theorem Continues.evaluate (continues : Continues server indice world) (sent : Sent) :
    Continues server indice
      { world with answers := server.answer world.live sent :: world.answers } := by
  refine ⟨continues.chron, continues.alone, continues.placed, continues.ends, continues.starts,
    continues.carries, ?_⟩
  intro other waiting poll answer opening place isAnswer opened isLast
  rw [World.answerTo, List.find?_cons] at isAnswer
  split at isAnswer
  · obtain rfl := Option.some.inj isAnswer
    rw [Server.answer_table]
    exact continues.starts opening place opened isLast
  · exact continues.found other waiting poll answer opening place isAnswer opened isLast

/-- A poll that is sent when nothing is unanswered. -/
theorem Continues.send (inSession : InSession server indice world)
    (continues : Continues server indice world) {tab : Tab V} {date : Text} {type : Text}
    (active : world.tab.intervals ≠ []) (maxDate : world.tab.component.maxDate = some date)
    (nothing : world.tab.pending = [])
    (allSent : tab.sent = world.tab.sent)
    (pending : tab.pending = world.tab.pending)
    (maxDate' : tab.component.maxDate = world.tab.component.maxDate) :
    Continues server indice
      { world with tab := tab.send (.getIndiceNewVals indice.id (some date) type) } := by
  have only : ∀ sent ∈ (tab.send (.getIndiceNewVals indice.id (some date) type)).pending,
      sent = ⟨tab.sent.length, .getIndiceNewVals indice.id (some date) type,
        tab.component.timeSelected⟩ := by
    intro sent waiting
    rcases mem_pending_send.mp waiting with before | isNew
    · rw [pending, nothing] at before
      cases before
    · exact isNew
  refine ⟨continues.chron, ?_, ?_, ?_, continues.starts, ?_, ?_⟩
  · intro sent waiting _
    rw [only sent waiting]
    simp only [Tab.send, pending, nothing, List.nil_append]
  · intro _
    exact continues.placed (.inl active)
  · intro opening place opened isLast
    exact maxDate'.trans (continues.ends opening place opened isLast)
  · intro sent waiting date' type' request
    rw [only sent waiting] at request
    cases request
    exact maxDate'.trans maxDate
  · intro sent waiting _ answer opening place isAnswer
    have old := inSession.num_lt isAnswer
    rw [only sent waiting, allSent] at old
    exact absurd old (Nat.lt_irrefl _)

/-- The answer that opens the chart. -/
theorem Continues.opened (continues : Continues server indice world) {answer : Answer V}
    (live : world'.live = world.live) (opening : world'.opening = some answer)
    (appended : world'.appended = []) (placed : world'.tab.intervals ≠ [] → answer.last ≠ none)
    (ends : ∀ place, answer.last = some place →
      world'.tab.component.maxDate = some place.date)
    (noPoll : ∀ sent ∈ world'.tab.pending, sent.request.kind ≠ .poll) :
    Continues server indice world' := by
  refine ⟨?_, ?_, ?_, ?_, ?_, ?_, ?_⟩
  · rw [live]
    exact continues.chron
  · intro sent waiting poll
    exact absurd poll (noPoll sent waiting)
  · rintro (polling | ⟨sent, waiting, poll⟩) other opened
    · obtain rfl := Option.some.inj (opening.symm.trans opened)
      exact placed polling
    · exact absurd poll (noPoll sent waiting)
  · intro other place opened isLast
    obtain rfl := Option.some.inj (opening.symm.trans opened)
    rw [World.last, appended]
    exact ends place isLast
  · intro other place _ _
    rw [appended]
    exact List.nil_prefix
  · intro sent waiting date type poll
    exact absurd (by rw [poll]; rfl) (noPoll sent waiting)
  · intro sent waiting poll
    exact absurd poll (noPoll sent waiting)

/-- The rows of a poll. -/
theorem Continues.polled (continues : Continues server indice world)
    {table : List (LiveRow V)} (earlier : table <+: world.live) (live : world'.live = world.live)
    (opening : world'.opening = world.opening)
    (placed : ∀ opening, world.opening = some opening → opening.last ≠ none)
    (complete : ∀ opening place, world.opening = some opening → opening.last = some place →
      world'.appended = rowsAfter server.instant indice.id place table ∧
        world'.tab.component.maxDate = some (world'.last place).date)
    (pending : world'.tab.pending = []) : Continues server indice world' := by
  refine ⟨?_, ?_, ?_, ?_, ?_, ?_, ?_⟩
  · rw [live]
    exact continues.chron
  · simp [pending]
  · rw [opening]
    exact fun _ => placed
  · intro opened place
    rw [opening]
    exact fun isOpened isLast => (complete opened place isOpened isLast).2
  · intro opened place
    rw [opening, live]
    intro isOpened isLast
    rw [(complete opened place isOpened isLast).1]
    exact rowsAfter_mono earlier
  · simp [pending]
  · simp [pending]

/-- The rows that a complete poll leaves appended. -/
theorem Delivery.complete {sent : Sent} {table : List (LiveRow V)}
    (delivery : Delivery server world sent table) (poll : sent.request.kind = .poll)
    (complete : Complete server indice world world' (.deliver sent)) {opening : Answer V}
    {place : Place} (opened : world.opening = some opening) (isLast : opening.last = some place) :
    world'.appended = rowsAfter server.instant indice.id place table := by
  have all := (complete poll _ opening place delivery.evaluated opened isLast).1
  rwa [Server.answer_table] at all

/-- **A poll is complete** exactly when it meets no row with the date of the last one. -/
theorem complete_iff (inSession : InSession server indice world)
    (inSession' : InSession server indice world') (continues : Continues server indice world)
    {sent : Sent} {table : List (LiveRow V)} {date type : Text}
    (delivery : Delivery server world sent table)
    (request : sent.request = .getIndiceNewVals indice.id (some date) type)
    (opening : world'.opening = world.opening)
    (appended : world'.appended = world.appended ++ newRows server.instant indice.id date table) :
    Complete server indice world world' (.deliver sent) ↔
      NoTie server indice world (.deliver sent) := by
  have kind : sent.request.kind = .poll := by rw [request]; rfl
  obtain ⟨opened, isOpened⟩ := inSession.opened delivery.waiting kind
  have someLast := continues.placed (.inr ⟨sent, delivery.waiting, kind⟩) opened isOpened
  obtain ⟨place, isLast⟩ := Option.ne_none_iff_exists'.mp someLast
  have chron : Chron server.instant (rowsOfId indice.id table) :=
    continues.chron.sublist (delivery.earlier.filter _).sublist
  obtain ⟨rest, parts⟩ := continues.found sent delivery.waiting kind _ opened place
    delivery.evaluated isOpened isLast
  rw [Server.answer_table] at parts
  have sameDate : date = (world.last place).date := Option.some.inj
    ((continues.carries sent delivery.waiting date type request).symm.trans
      (continues.ends opened place isOpened isLast))
  have whole := newRows_eq_rest_iff chron parts.symm (rfl : world.last place = _)
  rw [← sameDate] at whole
  have chart : ∃ tmp, opened.response = .vals tmp ∧ world'.tab.component.chartDatasets =
      some (tmp.map IndiceVal.val ++ world'.appended.map LiveRow.val) := by
    obtain ⟨files, response, datasets⟩ := inSession'.chart opened (opening.trans isOpened)
    refine ⟨_, response, ?_⟩
    rw [datasets, World.shown_of_opening (opening.trans isOpened)]
    simp [LiveRow.send, Function.comp_def]
  constructor
  · intro complete _ answer other place' isAnswer isOther isPlace
    obtain rfl := Option.some.inj (delivery.evaluated.symm.trans isAnswer)
    obtain rfl := Option.some.inj (isOpened.symm.trans isOther)
    obtain rfl := Option.some.inj (isLast.symm.trans isPlace)
    have all := delivery.complete kind complete isOpened isLast
    rw [← parts, appended] at all
    rw [Server.answer_table, ← sameDate]
    exact whole.mp (List.append_cancel_left all)
  · intro noTie _ answer other place' isAnswer isOther isPlace
    obtain rfl := Option.some.inj (delivery.evaluated.symm.trans isAnswer)
    obtain rfl := Option.some.inj (isOpened.symm.trans isOther)
    obtain rfl := Option.some.inj (isLast.symm.trans isPlace)
    have later := noTie kind _ opened place delivery.evaluated isOpened isLast
    rw [Server.answer_table, ← sameDate] at later
    refine ⟨?_, chart⟩
    rw [Server.answer_table, ← parts, appended, whole.mpr later]

/-- The last row of an answer with values. -/
theorem exists_last {answer : Answer V} {files : List (IndiceVal V)} {last : IndiceVal V}
    (response : answer.response = .vals (files ++ answer.rows.map LiveRow.send))
    (lastOf : (files ++ answer.rows.map LiveRow.send).getLast? = some last) :
    ∃ place, answer.last = some place ∧ place.date = last.date := by
  cases lastRow : answer.rows.getLast? with
  | some row =>
      refine ⟨.ofRow row, by simp only [Answer.last, lastRow], ?_⟩
      rw [List.getLast?_append, List.getLast?_map, lastRow] at lastOf
      rw [← Option.some.inj lastOf]
      rfl
  | none =>
      refine ⟨⟨last.date, none⟩, ?_, rfl⟩
      simp only [Answer.last, lastRow, response, lastOf, Option.map_some]

theorem Start.continues (server : Server V) (start : Start indice world)
    (chron : Chron server.instant (rowsOfId indice.id world.live)) :
    Continues server indice world := by
  obtain ⟨-, unopened, -⟩ := start.unanswered
  obtain ⟨-, -, noPoll⟩ := (start.inSession server).closed unopened
  have notOpened : ∀ opening, world.opening ≠ some opening := by
    intro opening opened
    rw [unopened] at opened
    cases opened
  refine ⟨chron, ?_, ?_, ?_, ?_, ?_, ?_⟩
  · exact fun sent waiting poll => absurd poll (noPoll sent waiting)
  · exact fun _ opening opened => absurd opened (notOpened opening)
  · exact fun opening _ opened => absurd opened (notOpened opening)
  · exact fun opening _ opened => absurd opened (notOpened opening)
  · exact fun sent waiting date type poll => absurd (by rw [poll]; rfl) (noPoll sent waiting)
  · exact fun sent waiting poll => absurd poll (noPoll sent waiting)

section Turns

variable [Max V] [Min V] {event : Happening V}

theorem Turn.complete_iff (inSession : InSession server indice world)
    (continues : Continues server indice world) (turn : Turn server indice world event world') :
    Complete server indice world world' event ↔ NoTie server indice world event := by
  have inSession' := turn.inSession inSession
  have other : ∀ {sent : Sent}, sent.request.kind ≠ .poll →
      (Complete server indice world world' (.deliver sent) ↔
        NoTie server indice world (.deliver sent)) := fun noPoll =>
    ⟨fun _ poll => absurd poll noPoll, fun _ poll => absurd poll noPoll⟩
  cases turn with
  | insert id val date => exact Iff.rfl
  | evaluate sent waiting => exact Iff.rfl
  | tick handle active date cursor => exact Iff.rfl
  | fail sent waiting => exact Iff.rfl
  | erreur sent table delivery TIME type request response => exact other (by rw [request]; nofun)
  | total sent table delivery type request tmp totaux => exact other (by rw [request]; nofun)
  | openEmpty sent table delivery TIME type request response noRows =>
      exact other (by rw [request]; nofun)
  | opens sent table delivery TIME type request files modulo last read stride rows sampled sameRows
      response lastOf =>
      exact other (by rw [request]; nofun)
  | pollEmpty sent table delivery date type request noRows =>
      apply Front.complete_iff inSession inSession' continues delivery request rfl
      rw [noRows, List.append_nil]
  | poll sent table delivery date type request rows last data labels news lastOf datasets
      labelled =>
      apply Front.complete_iff inSession inSession' continues delivery request rfl
      rw [news]

theorem Turn.continues (inSession : InSession server indice world)
    (continues : Continues server indice world) (inTurn : OneAtATime server indice world event)
    (complete : Complete server indice world world' event)
    (turn : Turn server indice world event world') : Continues server indice world' := by
  -- a poll was the only request, and its answer leaves none
  have answered : ∀ {sent : Sent}, sent ∈ world.tab.pending → sent.request.kind = .poll →
      world.tab.pending.erase sent = [] := by
    intro sent waiting poll
    rw [continues.alone sent waiting poll, List.erase_cons_head]
  cases turn with
  | insert id val date => exact continues.insert inSession inTurn
  | evaluate sent waiting => exact continues.evaluate sent
  | tick handle active date cursor =>
      exact continues.send inSession (List.ne_nil_of_mem active) cursor inTurn rfl rfl rfl
  | fail sent waiting => exact continues.frame rfl rfl rfl rfl rfl rfl rfl
  | erreur sent table delivery TIME type request response =>
      exact continues.frame rfl rfl rfl rfl rfl rfl rfl
  | total sent table delivery type request tmp totaux =>
      exact continues.frame rfl rfl rfl rfl rfl rfl rfl
  | openEmpty sent table delivery TIME type request response noRows =>
      have kind : sent.request.kind = .vals := by rw [request]; rfl
      obtain ⟨-, noneAppended, idle, -, noPoll⟩ := inSession.unopened delivery.waiting kind
      have noLast : (server.answer table sent).last = none := by
        simp only [Answer.last, noRows, response, List.getLast?_nil, Option.map_none]
      refine continues.opened rfl rfl ?_ ?_ ?_ ?_
      · exact noneAppended
      · intro polling
        simp [Tab.cleared, idle] at polling
      · intro place isLast
        rw [noLast] at isLast
        cases isLast
      · exact fun other waiting => noPoll other (List.mem_of_mem_erase waiting)
  | opens sent table delivery TIME type request files modulo last read stride rows sampled sameRows
      response lastOf =>
      have kind : sent.request.kind = .vals := by rw [request]; rfl
      obtain ⟨-, noneAppended, -, -, noPoll⟩ := inSession.unopened delivery.waiting kind
      subst sameRows
      obtain ⟨place, isLast, date⟩ := exists_last response lastOf
      refine continues.opened rfl rfl ?_ ?_ ?_ ?_
      · exact noneAppended
      · intro _
        rw [isLast]
        exact Option.some_ne_none _
      · intro other isOther
        obtain rfl := Option.some.inj (isLast.symm.trans isOther)
        exact congrArg some date.symm
      · exact fun other waiting => noPoll other (List.mem_of_mem_erase waiting)
  | pollEmpty sent table delivery date type request noRows =>
      have kind : sent.request.kind = .poll := by rw [request]; rfl
      have placed := continues.placed (.inr ⟨sent, delivery.waiting, kind⟩)
      refine continues.polled delivery.earlier rfl rfl placed ?_ ?_
      · intro opening place opened isLast
        exact ⟨delivery.complete kind complete opened isLast,
          continues.ends opening place opened isLast⟩
      · exact answered delivery.waiting kind
  | poll sent table delivery date type request rows last data labels news lastOf datasets
      labelled =>
      have kind : sent.request.kind = .poll := by rw [request]; rfl
      have placed := continues.placed (.inr ⟨sent, delivery.waiting, kind⟩)
      refine continues.polled delivery.earlier rfl rfl placed ?_ ?_
      · intro opening place opened isLast
        refine ⟨delivery.complete kind complete opened isLast, ?_⟩
        simp [World.last, List.getLast?_append, lastOf, Place.ofRow, Tab.extended, LiveRow.send]
      · exact answered delivery.waiting kind

/-- **Polls one at a time are complete** exactly when no poll meets a row that comes after the
last row of the chart and has its date, in every run of a session in which the dates of the
instrument do not decrease. -/
theorem polls_complete_iff (start : Start indice world)
    (chron : Chron server.instant (rowsOfId indice.id world.live)) {events : List (Happening V)}
    (valid : (session server).Valid world events)
    (inTurn : (session server).EachStep (OneAtATime server indice) world events) :
    (session server).EachStep
        (fun world event => Complete server indice world (world.next server event) event) world
        events ↔
      (session server).EachStep (NoTie server indice) world events := by
  have agree : ∀ world event, (InSession server indice world ∧ Continues server indice world) →
      ((session server).Enabled world event ∧ OneAtATime server indice world event) →
      (Complete server indice world (world.next server event) event ↔
        NoTie server indice world event) := by
    rintro world event ⟨inSession, continues⟩ ⟨possible, -⟩
    exact (inSession.turn possible).complete_iff inSession continues
  apply Machine.eachStep_iff agree ?_ (valid.and inTurn)
    ⟨start.inSession server, start.continues server chron⟩
  rintro world event ⟨inSession, continues⟩ ⟨possible, inTurn⟩ complete
  have turn := inSession.turn possible
  exact ⟨turn.inSession inSession, turn.continues inSession continues inTurn complete⟩

end Turns

end Polls

/-- The numbers and the values have arrived, and a row is inserted and found by a poll. -/
def rowFound : List (Happening Int) :=
  [.evaluate totalSent, .deliver totalSent, .evaluate valsSent, .deliver valsSent,
    .insert (some 1) 5405 "2019-04-11 11:15:34.0".toList, .tick 0,
    .evaluate (pollSent 3 "2019-04-11 11:15:29.0"), .deliver (pollSent 3 "2019-04-11 11:15:29.0")]

theorem polls_complete_row_found :
    Start ⟨1, "CAC 40".toList⟩ { tab := firstTab, live := openingRow } ∧
      ((session emptyServer).EachStep (fun world event =>
          Complete emptyServer ⟨1, "CAC 40".toList⟩ world (world.next emptyServer event) event)
          { tab := firstTab, live := openingRow } rowFound ↔
        (session emptyServer).EachStep (NoTie emptyServer ⟨1, "CAC 40".toList⟩)
          { tab := firstTab, live := openingRow } rowFound) ∧
      ((session emptyServer).run { tab := firstTab, live := openingRow }
        rowFound).appended.map LiveRow.val = [5405] :=
  have start : Start ⟨1, "CAC 40".toList⟩ { tab := firstTab, live := openingRow } :=
    start_firstTab (by decide) (by decide)
  ⟨start,
    polls_complete_iff start (by unfold Chron; decide) (by decide +kernel) (by decide +kernel),
    by decide +kernel⟩

/-- Another row is inserted in the second of the row that was found, and the next poll is
evaluated. -/
def sameSecond : List (Happening Int) :=
  rowFound ++ [.insert (some 1) 5410 "2019-04-11 11:15:34.0".toList, .tick 0,
    .evaluate (pollSent 4 "2019-04-11 11:15:34.0")]

/-- **A row of the same second is missed.** -/
theorem same_second_missed :
    Start ⟨1, "CAC 40".toList⟩ { tab := firstTab, live := openingRow } ∧
      (session emptyServer).Valid { tab := firstTab, live := openingRow }
        (sameSecond ++ [.deliver (pollSent 4 "2019-04-11 11:15:34.0")]) ∧
      (session emptyServer).EachStep (OneAtATime emptyServer ⟨1, "CAC 40".toList⟩)
        { tab := firstTab, live := openingRow }
        (sameSecond ++ [.deliver (pollSent 4 "2019-04-11 11:15:34.0")]) ∧
      ((session emptyServer).run { tab := firstTab, live := openingRow }
        (sameSecond ++ [.deliver (pollSent 4 "2019-04-11 11:15:34.0")])).live.map LiveRow.val =
          [5400, 5405, 5410] ∧
      ((session emptyServer).run { tab := firstTab, live := openingRow }
        (sameSecond ++ [.deliver (pollSent 4 "2019-04-11 11:15:34.0")])).appended.map LiveRow.val =
          [5405] ∧
      ¬ (session emptyServer).EachStep (fun world event =>
          Complete emptyServer ⟨1, "CAC 40".toList⟩ world (world.next emptyServer event) event)
        { tab := firstTab, live := openingRow }
        (sameSecond ++ [.deliver (pollSent 4 "2019-04-11 11:15:34.0")]) := by
  refine ⟨start_firstTab (by decide) (by decide), by decide +kernel, by decide +kernel,
    by decide +kernel, by decide +kernel, ?_⟩
  intro complete
  have last := ((Machine.eachStep_append _ _ _).mp complete).2.1
  have whole := (last rfl _ (emptyServer.answer openingRow valsSent)
    ⟨"2019-04-11 11:15:29.0".toList, some 0⟩ rfl (by decide +kernel) (by decide +kernel)).1
  have vals := congrArg (List.map LiveRow.val) whole
  revert vals
  decide +kernel

end Trading.Front
