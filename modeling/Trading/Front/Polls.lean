import Trading.Front.Session

/-!
# Polls that overlap

A poll asks for the rows after the date that the chart ends with, and the next one is sent five
seconds later, answered or not. Two polls for one date have rows in common if both have rows:
each has all rows after the date in its table, and one of the tables is a part of the other. So
the second of them shows a row again (`Turn.twice`). Answers to polls for the date that the chart
ends with at that moment show no row twice, and never move the date back
(`polls_show_once_iff`).
-/

set_option autoImplicit false

namespace Trading.Front

open Trading.Dao Trading.Runs

variable {V : Type}

/-! ## Rows of the table -/

section Rows

variable {instant : Text → Int} {ID : Int} {date : Text} {table live : List (LiveRow V)}

theorem nodup_live (ordered : live.Pairwise fun first second => first.num < second.num) :
    live.Nodup :=
  ordered.imp fun {_ _} less same => by
    rw [same] at less
    exact Nat.lt_irrefl _ less

theorem nodup_rowsOfId (ordered : live.Pairwise fun first second => first.num < second.num)
    (earlier : table <+: live) : (rowsOfId ID table).Nodup :=
  ((nodup_live ordered).sublist earlier.sublist).filter _

theorem nodup_newRows (ordered : live.Pairwise fun first second => first.num < second.num)
    (earlier : table <+: live) : (newRows instant ID date table).Nodup :=
  nodup_byDate instant ((nodup_rowsOfId ordered earlier).filter _)

theorem nodup_sampledRows (ordered : live.Pairwise fun first second => first.num < second.num)
    (earlier : table <+: live) (modulo : Nat) : (sampledRows instant ID modulo table).Nodup :=
  (nodup_byDate instant (nodup_rowsOfId ordered earlier)).sublist (everyNth_sublist modulo _)

/-- In rows that are ordered by their dates the last one has the last date. -/
theorem date_le_last {rows : List (LiveRow V)} {last : LiveRow V}
    (sorted : rows.Pairwise fun first second => instant first.date ≤ instant second.date)
    (lastOf : rows.getLast? = some last) {row : LiveRow V} (member : row ∈ rows) :
    instant row.date ≤ instant last.date := by
  obtain ⟨before, rfl⟩ := List.getLast?_eq_some_iff.mp lastOf
  rcases List.mem_append.mp member with isBefore | isLast
  · exact (List.pairwise_append.mp sorted).2.2 row isBefore last (List.mem_singleton_self _)
  · rw [List.mem_singleton.mp isLast]

/-- Two polls for one date that both have rows have a row in common. -/
theorem common_row {table' : List (LiveRow V)} (earlier : table <+: live)
    (earlier' : table' <+: live)
    (some : newRows instant ID date table ≠ []) (some' : newRows instant ID date table' ≠ []) :
    ∃ row, row ∈ newRows instant ID date table ∧ row ∈ newRows instant ID date table' := by
  rcases List.prefix_or_prefix_of_prefix earlier earlier' with within | within
  · obtain ⟨row, member⟩ := List.exists_mem_of_ne_nil _ some
    obtain ⟨inTable, isRow⟩ := (mem_newRows instant).mp member
    exact ⟨row, member, (mem_newRows instant).mpr ⟨within.subset inTable, isRow⟩⟩
  · obtain ⟨row, member⟩ := List.exists_mem_of_ne_nil _ some'
    obtain ⟨inTable, isRow⟩ := (mem_newRows instant).mp member
    exact ⟨row, (mem_newRows instant).mpr ⟨within.subset inTable, isRow⟩, member⟩

end Rows

/-! ## Rows that are shown once -/

/-- The date that a poll carries. -/
def Request.date : Request → Option Text
  | getIndiceNewVals _ DATE _ => DATE
  | _ => none

/-- A step shows no live row twice, and does not move the date of an open chart back. -/
def ShowsOnce (server : Server V) (world world' : World V) : Prop :=
  (∀ answer, world'.opening = some answer → world'.shown.Nodup ∧
    ∃ files : List (IndiceVal V), world'.tab.component.chartDatasets =
      some (files.map IndiceVal.val ++ world'.shown.map LiveRow.val)) ∧
  ∀ date date', world.opening ≠ none → world.tab.component.maxDate = some date →
    world'.tab.component.maxDate = some date' → server.instant date ≤ server.instant date'

/-- A poll that has rows carries the date that the chart ends with. -/
def CarriesMaxDate (world : World V) : Happening V → Prop
  | .deliver sent =>
      match world.answerTo sent with
      | some answer => sent.request.kind = .poll → answer.rows.isEmpty = false →
          sent.request.date = world.tab.component.maxDate
      | none => True
  | _ => True

instance (world : World V) : ∀ event : Happening V, Decidable (CarriesMaxDate world event)
  | .deliver sent =>
      match found : world.answerTo sent with
      | some answer => decidable_of_iff (sent.request.kind = .poll → answer.rows.isEmpty = false →
          sent.request.date = world.tab.component.maxDate) (by simp only [CarriesMaxDate, found])
      | none => isTrue (by simp only [CarriesMaxDate, found])
  | .insert _ _ _ | .evaluate _ | .fail _ | .tick _ => isTrue trivial

/-- The rows that are shown are distinct and not after the date of the chart. A poll on its way
carries this date, or rows that it will have are shown. -/
structure Distinct (server : Server V) (indice : IndiceModule) (world : World V) : Prop where
  nodup : world.shown.Nodup
  bounded : world.opening ≠ none → ∀ date, world.tab.component.maxDate = some date →
    ∀ row ∈ world.shown, server.instant row.date ≤ server.instant date
  covered : ∀ sent ∈ world.tab.pending, ∀ date type,
    sent.request = .getIndiceNewVals indice.id (some date) type →
      world.tab.component.maxDate = some date ∨
        ∃ table, table <+: world.live ∧ newRows server.instant indice.id date table ≠ [] ∧
          ∀ row ∈ newRows server.instant indice.id date table, row ∈ world.shown

section Turns

variable {server : Server V} {indice : IndiceModule} {world world' : World V}

/-- What does not change the chart keeps its rows distinct. -/
theorem Distinct.frame (distinct : Distinct server indice world)
    (opening : world'.opening = world.opening) (appended : world'.appended = world.appended)
    (maxDate : world'.tab.component.maxDate = world.tab.component.maxDate)
    (pending : ∀ sent ∈ world'.tab.pending, sent ∈ world.tab.pending)
    (live : world.live <+: world'.live) : Distinct server indice world' := by
  have shown : world'.shown = world.shown := by rw [World.shown, World.shown, opening, appended]
  refine ⟨?_, ?_, ?_⟩
  · rw [shown]
    exact distinct.nodup
  · rw [opening, maxDate, shown]
    exact distinct.bounded
  · intro sent waiting date type request
    rw [maxDate, shown]
    refine (distinct.covered sent (pending sent waiting) date type request).imp id ?_
    rintro ⟨table, earlier, rows⟩
    exact ⟨table, earlier.trans live, rows⟩

/-- The answer that opens the chart. -/
theorem Distinct.opened {answer : Answer V} (opening : world'.opening = some answer)
    (appended : world'.appended = []) (nodup : answer.rows.Nodup)
    (bounded : ∀ date, world'.tab.component.maxDate = some date →
      ∀ row ∈ answer.rows, server.instant row.date ≤ server.instant date)
    (noPoll : ∀ sent ∈ world'.tab.pending, sent.request.kind ≠ .poll) :
    Distinct server indice world' := by
  have shown : world'.shown = answer.rows := by
    rw [World.shown_of_opening opening, appended, List.append_nil]
  refine ⟨?_, ?_, ?_⟩
  · rw [shown]
    exact nodup
  · rw [shown]
    exact fun _ => bounded
  · intro sent waiting date type poll
    exact absurd (by rw [poll]; rfl) (noPoll sent waiting)

/-- The rows of a poll that carries the date of the chart. -/
theorem Distinct.polled (inSession : InSession server indice world)
    (distinct : Distinct server indice world) {answer : Answer V}
    (opening : world.opening = some answer) (opening' : world'.opening = some answer)
    {table rows : List (LiveRow V)} {last : LiveRow V} {date : Text}
    (earlier : table <+: world.live) (news : newRows server.instant indice.id date table = rows)
    (lastOf : rows.getLast? = some last) (maxDate : world.tab.component.maxDate = some date)
    (appended : world'.appended = world.appended ++ rows)
    (maxDate' : world'.tab.component.maxDate = some last.date)
    (pending : ∀ sent ∈ world'.tab.pending, sent ∈ world.tab.pending)
    (live : world'.live = world.live) : Distinct server indice world' := by
  have shown : world'.shown = world.shown ++ rows := by
    rw [World.shown_of_opening opening, World.shown_of_opening opening', appended,
      List.append_assoc]
  have later : ∀ row ∈ rows, server.instant date < server.instant row.date := by
    intro row member
    rw [← news] at member
    exact ((mem_newRows server.instant).mp member).2.2
  have bounded := distinct.bounded (by rw [opening]; exact Option.some_ne_none _) date maxDate
  have lastMember : last ∈ rows := List.mem_of_getLast? lastOf
  refine ⟨?_, ?_, ?_⟩
  · rw [shown]
    have newNodup : rows.Nodup := news ▸ nodup_newRows inSession.ordered earlier
    refine List.nodup_append.mpr ⟨distinct.nodup, newNodup, ?_⟩
    rintro row inShown _ inRows rfl
    have before := bounded row inShown
    have after := later row inRows
    omega
  · rintro - date' isDate row member
    obtain rfl := Option.some.inj (maxDate'.symm.trans isDate)
    rw [shown] at member
    rcases List.mem_append.mp member with inShown | inRows
    · exact le_trans (bounded row inShown) (later last lastMember).le
    · exact date_le_last (news ▸ sorted_byDate server.instant _) lastOf inRows
  · intro sent waiting date' type request
    right
    rcases distinct.covered sent (pending sent waiting) date' type request with
      isDate | ⟨other, earlierOther, some, covered⟩
    · obtain rfl := Option.some.inj (maxDate.symm.trans isDate)
      refine ⟨table, live ▸ earlier, ?_, ?_⟩
      · rw [news]
        exact List.ne_nil_of_mem lastMember
      · rw [news, shown]
        exact fun row => List.mem_append_right _
    · refine ⟨other, live ▸ earlierOther, some, ?_⟩
      rw [shown]
      exact fun row member => List.mem_append_left _ (covered row member)

/-- A poll with rows carries the date of the chart, if that is its date. -/
theorem carriesMaxDate_iff {sent : Sent} {table rows : List (LiveRow V)} {last : LiveRow V}
    {date type : Text} (delivery : Delivery server world sent table)
    (request : sent.request = .getIndiceNewVals indice.id (some date) type)
    (news : newRows server.instant indice.id date table = rows)
    (lastOf : rows.getLast? = some last) :
    CarriesMaxDate world (.deliver sent) ↔ world.tab.component.maxDate = some date := by
  have ofSent : (server.answer table sent).rows = rows :=
    (server.answer_poll_rows table request).trans news
  have notEmpty : rows ≠ [] := List.ne_nil_of_mem (List.mem_of_getLast? lastOf)
  have isDate : sent.request.date = some date := by rw [request]; rfl
  have kind : sent.request.kind = .poll := by rw [request]; rfl
  simp only [CarriesMaxDate, delivery.evaluated, ofSent]
  constructor
  · intro carries
    exact (carries kind (List.isEmpty_eq_false_iff.mpr notEmpty)).symm.trans isDate
  · intro maxDate _ _
    exact isDate.trans maxDate.symm

theorem carriesMaxDate_of_kind {sent : Sent} (other : sent.request.kind ≠ .poll) :
    CarriesMaxDate world (.deliver sent) := by
  simp only [CarriesMaxDate]
  split
  · exact fun poll => absurd poll other
  · trivial

variable [Max V] [Min V] {event : Happening V}

theorem Turn.distinct (inSession : InSession server indice world)
    (distinct : Distinct server indice world) (carries : CarriesMaxDate world event)
    (turn : Turn server indice world event world') : Distinct server indice world' := by
  cases turn with
  | insert id val date =>
      exact distinct.frame rfl rfl rfl (fun _ waiting => waiting) (List.prefix_append _ _)
  | evaluate sent waiting =>
      exact distinct.frame rfl rfl rfl (fun _ waiting => waiting) List.prefix_rfl
  | tick handle active date cursor =>
      refine ⟨distinct.nodup, distinct.bounded, ?_⟩
      intro sent waiting date' type request
      rcases mem_pending_send.mp waiting with before | rfl
      · exact distinct.covered sent before date' type request
      · cases request
        exact .inl cursor
  | fail sent waiting =>
      exact distinct.frame rfl rfl rfl (fun _ => List.mem_of_mem_erase) List.prefix_rfl
  | erreur sent table delivery TIME type request response =>
      exact distinct.frame rfl rfl rfl (fun _ => List.mem_of_mem_erase) List.prefix_rfl
  | total sent table delivery type request tmp totaux =>
      exact distinct.frame rfl rfl rfl (fun _ => List.mem_of_mem_erase) List.prefix_rfl
  | openEmpty sent table delivery TIME type request response noRows =>
      have kind : sent.request.kind = .vals := by rw [request]; rfl
      obtain ⟨-, noneAppended, -, -, noPoll⟩ := inSession.unopened delivery.waiting kind
      refine Distinct.opened rfl ?_ ?_ ?_ ?_
      · exact noneAppended
      · rw [noRows]
        exact List.nodup_nil
      · rw [noRows]
        exact fun _ _ _ => nofun
      · exact fun other waiting => noPoll other (List.mem_of_mem_erase waiting)
  | opens sent table delivery TIME type request files modulo last read stride rows sampled sameRows
      response lastOf =>
      have kind : sent.request.kind = .vals := by rw [request]; rfl
      obtain ⟨-, noneAppended, -, -, noPoll⟩ := inSession.unopened delivery.waiting kind
      refine Distinct.opened rfl ?_ ?_ ?_ ?_
      · exact noneAppended
      · rw [sameRows, ← sampled]
        exact nodup_sampledRows inSession.ordered delivery.earlier modulo
      · rintro date ⟨⟩ row member
        rw [sameRows] at member
        obtain ⟨lastRow, isLast⟩ : ∃ lastRow, rows.getLast? = some lastRow :=
          ⟨_, List.getLast?_eq_some_getLast (List.ne_nil_of_mem member)⟩
        have sameLast : last = lastRow.send := by
          rw [List.getLast?_append, List.getLast?_map, isLast] at lastOf
          exact (Option.some.inj lastOf).symm
        rw [sameLast]
        apply date_le_last ?_ isLast member
        rw [← sampled]
        exact (sorted_byDate server.instant _).sublist (everyNth_sublist modulo _)
      · exact fun other waiting => noPoll other (List.mem_of_mem_erase waiting)
  | pollEmpty sent table delivery date type request noRows =>
      exact distinct.frame rfl rfl rfl (fun _ => List.mem_of_mem_erase) List.prefix_rfl
  | poll sent table delivery date type request rows last data labels news lastOf datasets
      labelled =>
      have kind : sent.request.kind = .poll := by rw [request]; rfl
      obtain ⟨answer, opening⟩ := inSession.opened delivery.waiting kind
      have maxDate := (carriesMaxDate_iff delivery request news lastOf).mp carries
      exact distinct.polled inSession opening opening delivery.earlier news lastOf maxDate rfl rfl
        (fun _ => List.mem_of_mem_erase) rfl

/-- The only turn that may carry another date is a poll with rows. -/
theorem Turn.carries_or_poll (turn : Turn server indice world event world') :
    CarriesMaxDate world event ∨
      ∃ sent table date type rows last, event = .deliver sent ∧ Delivery server world sent table ∧
        sent.request = .getIndiceNewVals indice.id (some date) type ∧
        newRows server.instant indice.id date table = rows ∧ rows.getLast? = some last ∧
        world'.opening = world.opening ∧ world'.appended = world.appended ++ rows ∧
        world'.tab.component.maxDate = some last.date := by
  cases turn with
  | insert id val date => exact .inl trivial
  | evaluate sent waiting => exact .inl trivial
  | tick handle active date cursor => exact .inl trivial
  | fail sent waiting => exact .inl trivial
  | erreur sent table delivery TIME type request response =>
      exact .inl (carriesMaxDate_of_kind (by rw [request]; nofun))
  | total sent table delivery type request tmp totaux =>
      exact .inl (carriesMaxDate_of_kind (by rw [request]; nofun))
  | openEmpty sent table delivery TIME type request response noRows =>
      exact .inl (carriesMaxDate_of_kind (by rw [request]; nofun))
  | opens sent table delivery TIME type request files modulo last read stride rows sampled sameRows
      response lastOf =>
      exact .inl (carriesMaxDate_of_kind (by rw [request]; nofun))
  | pollEmpty sent table delivery date type request noRows =>
      left
      have empty := (server.answer_poll_rows table request).trans noRows
      simp [CarriesMaxDate, delivery.evaluated, empty]
  | poll sent table delivery date type request rows last data labels news lastOf datasets
      labelled =>
      exact .inr ⟨sent, table, date, type, rows, last, rfl, delivery, request, news, lastOf, rfl,
        rfl, rfl⟩

/-- A poll for an earlier date shows a row again. -/
theorem Turn.twice (inSession : InSession server indice world)
    (distinct : Distinct server indice world) (turn : Turn server indice world event world')
    (stale : ¬ CarriesMaxDate world event) :
    world'.opening ≠ none ∧ ¬ world'.shown.Nodup := by
  obtain carries | ⟨sent, table, date, type, rows, last, rfl, delivery, request, news, lastOf,
    opening, appended, -⟩ := turn.carries_or_poll
  · exact absurd carries stale
  obtain ⟨answer, opened⟩ := inSession.opened delivery.waiting (by rw [request]; rfl)
  have shown : world'.shown = world.shown ++ rows := by
    rw [World.shown_of_opening opened, World.shown_of_opening (opening.trans opened), appended,
      List.append_assoc]
  rw [carriesMaxDate_iff delivery request news lastOf] at stale
  obtain current | ⟨other, earlier, some, covered⟩ :=
    distinct.covered sent delivery.waiting date type request
  · exact absurd current stale
  have notEmpty : newRows server.instant indice.id date table ≠ [] := by
    rw [news]
    exact List.ne_nil_of_mem (List.mem_of_getLast? lastOf)
  obtain ⟨row, inOther, inRows⟩ := common_row earlier delivery.earlier some notEmpty
  refine ⟨by rw [opening, opened]; exact Option.some_ne_none _, ?_⟩
  intro nodup
  rw [shown] at nodup
  rw [news] at inRows
  exact (List.nodup_append.mp nodup).2.2 row (covered row inOther) row inRows rfl

/-- A poll for the date of the chart does not move it back. -/
theorem Turn.maxDate_le (inSession : InSession server indice world)
    (carries : CarriesMaxDate world event) (turn : Turn server indice world event world')
    {date date' : Text} (opened : world.opening ≠ none)
    (maxDate : world.tab.component.maxDate = some date)
    (maxDate' : world'.tab.component.maxDate = some date') :
    server.instant date ≤ server.instant date' := by
  have unchanged : world'.tab.component.maxDate = world.tab.component.maxDate →
      server.instant date ≤ server.instant date' := by
    intro same
    rw [Option.some.inj (maxDate.symm.trans (same.symm.trans maxDate'))]
  cases turn with
  | opens sent table delivery TIME type request files modulo last read stride rows sampled sameRows
      response lastOf =>
      exact absurd (inSession.unopened delivery.waiting (by rw [request]; rfl)).1 opened
  | poll sent table delivery cursor type request rows last data labels news lastOf datasets
      labelled =>
      have isCursor := (carriesMaxDate_iff delivery request news lastOf).mp carries
      obtain rfl := Option.some.inj (maxDate.symm.trans isCursor)
      obtain rfl : last.date = date' := Option.some.inj maxDate'
      have member : last ∈ newRows server.instant indice.id date table := by
        rw [news]
        exact List.mem_of_getLast? lastOf
      exact ((mem_newRows server.instant).mp member).2.2.le
  | _ => exact unchanged rfl

/-- **A turn shows every live row once** exactly when a poll with rows carries the date of the
chart. -/
theorem Turn.showsOnce_iff (inSession : InSession server indice world)
    (distinct : Distinct server indice world) (turn : Turn server indice world event world') :
    ShowsOnce server world world' ↔ CarriesMaxDate world event := by
  constructor
  · intro once
    by_contra stale
    obtain ⟨opened, twice⟩ := turn.twice inSession distinct stale
    obtain ⟨answer, opening⟩ := Option.ne_none_iff_exists'.mp opened
    exact twice (once.1 answer opening).1
  · intro carries
    refine ⟨?_, ?_⟩
    · intro answer opening
      obtain ⟨files, -, datasets⟩ := (turn.inSession inSession).chart answer opening
      exact ⟨(turn.distinct inSession distinct carries).nodup, files, datasets⟩
    · intro date date' opened maxDate maxDate'
      exact turn.maxDate_le inSession carries opened maxDate maxDate'

omit [Max V] [Min V] in
theorem Start.distinct (server : Server V) (start : Start indice world) :
    Distinct server indice world := by
  obtain ⟨-, unopened, noneAppended⟩ := start.unanswered
  refine ⟨?_, ?_, ?_⟩
  · simp [World.shown, unopened, noneAppended]
  · exact fun opened => absurd unopened opened
  · intro sent waiting date type poll
    exact absurd (by rw [poll]; rfl) (((start.inSession server).closed unopened).2.2 sent waiting)

/-- **Polls show every live row once** and never move the date of the chart back, in every run
of a session, exactly when each poll with rows that is answered carries the date that the chart
ends with at that moment. -/
theorem polls_show_once_iff (start : Start indice world) {events : List (Happening V)}
    (valid : (session server).Valid world events) :
    (session server).EachStep
        (fun world event => ShowsOnce server world (world.next server event)) world events ↔
      (session server).EachStep CarriesMaxDate world events := by
  have agree : ∀ world event, (InSession server indice world ∧ Distinct server indice world) →
      (session server).Enabled world event →
      (ShowsOnce server world (world.next server event) ↔ CarriesMaxDate world event) := by
    rintro world event ⟨inSession, distinct⟩ possible
    exact (inSession.turn possible).showsOnce_iff inSession distinct
  apply Machine.eachStep_iff agree ?_ valid ⟨start.inSession server, start.distinct server⟩
  rintro world event ⟨inSession, distinct⟩ possible once
  have turn := inSession.turn possible
  have carries := (agree world event ⟨inSession, distinct⟩ possible).mp once
  exact ⟨turn.inSession inSession, turn.distinct inSession distinct carries⟩

end Turns

/-- The chart is opened, and a row is inserted. -/
def rowAfterOpening : List (Happening Int) :=
  [.evaluate valsSent, .deliver valsSent, .insert (some 1) 5405 "2019-04-11 11:15:34.0".toList]

/-- One poll after the other. -/
def onePoll : List (Happening Int) :=
  rowAfterOpening ++ [.tick 0, .evaluate (pollSent 3 "2019-04-11 11:15:29.0"),
    .deliver (pollSent 3 "2019-04-11 11:15:29.0")]

/-- The second poll is sent before the first is answered. -/
def overlappingPolls : List (Happening Int) :=
  rowAfterOpening ++ [.tick 0, .tick 0, .evaluate (pollSent 3 "2019-04-11 11:15:29.0"),
    .evaluate (pollSent 4 "2019-04-11 11:15:29.0"), .deliver (pollSent 3 "2019-04-11 11:15:29.0"),
    .deliver (pollSent 4 "2019-04-11 11:15:29.0")]

theorem polls_show_once_one_poll :
    Start ⟨1, "CAC 40".toList⟩ { tab := firstTab, live := openingRow } ∧
      (session emptyServer).EachStep
        (fun world event => ShowsOnce emptyServer world (world.next emptyServer event))
        { tab := firstTab, live := openingRow } onePoll :=
  have start : Start ⟨1, "CAC 40".toList⟩ { tab := firstTab, live := openingRow } :=
    start_firstTab (by decide) (by decide)
  ⟨start, (polls_show_once_iff start (by decide +kernel)).mpr (by decide +kernel)⟩

/-- **Two polls that overlap show a row twice.** -/
theorem overlapping_polls_show_twice :
    Start ⟨1, "CAC 40".toList⟩ { tab := firstTab, live := openingRow } ∧
      (session emptyServer).Valid { tab := firstTab, live := openingRow } overlappingPolls ∧
      ((session emptyServer).run { tab := firstTab, live := openingRow }
        overlappingPolls).shown.map LiveRow.num = [0, 1, 1] ∧
      ¬ ((session emptyServer).run { tab := firstTab, live := openingRow }
        overlappingPolls).shown.Nodup ∧
      ((session emptyServer).run { tab := firstTab, live := openingRow }
        overlappingPolls).tab.component.chartDatasets = some [5400, 5405, 5405] :=
  ⟨start_firstTab (by decide) (by decide), by decide +kernel, by decide +kernel, by decide +kernel,
    by decide +kernel⟩

end Trading.Front
