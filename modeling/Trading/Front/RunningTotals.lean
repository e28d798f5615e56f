import Trading.Front.Increments
import Trading.Front.Totals

/-!
# The numbers while polls come in

The page gets its four numbers with the totals and adds to them the number of rows of each poll.
The totals count all rows of the table, but of many rows the chart is opened with every
`modulo`-th one, and the polls begin after the last of these. The rows after it were counted with
the totals, and the first poll counts them again. `running_totals_iff` says that this is the only
way in which the numbers of an orderly session with years of four digits go wrong: when the stride
of the sample does not divide the number of rows that the chart was opened on.
-/

set_option autoImplicit false

namespace Trading.Front

open Trading.Recup Trading.Dao Trading.Runs
open Trading.Text (natText padded length_padded ofDigitChars_padded)

variable {V : Type}

/-! ## Rows after the sample -/

/-- The number of rows after the last sampled one. -/
def unsampled (nb : Nat) : Nat := nb % (nb / 2001 + 1)

/-- A table with more rows than an earlier one, which come after a place. -/
def Grown (instant : Text → Int) (ID : Int) (place : Place) (before table : List (LiveRow V)) :
    Prop :=
  ∃ news, table = before ++ news ∧ ∀ row ∈ rowsOfId ID news, comesAfter instant place row = true

section Rows

variable {instant : Text → Int} {ID : Int} {place : Place} {before table : List (LiveRow V)}

/-- The rows of the later table, and those of them that come after the place. -/
theorem Grown.length (grown : Grown instant ID place before table) :
    (rowsAfter instant ID place table).length + (rowsOfId ID before).length =
      (rowsAfter instant ID place before).length + (rowsOfId ID table).length := by
  obtain ⟨news, rfl, later⟩ := grown
  rw [rowsAfter, rowsOfId_append, List.filter_append, List.filter_eq_self.mpr later, rowsAfter,
    List.length_append, List.length_append]
  omega

theorem Grown.insert (grown : Grown instant ID place before table) {row : LiveRow V}
    (later : row.id = some ID → comesAfter instant place row = true) :
    Grown instant ID place before (table ++ [row]) := by
  obtain ⟨news, rfl, allLater⟩ := grown
  refine ⟨news ++ [row], List.append_assoc _ _ _, ?_⟩
  intro other member
  rw [rowsOfId_append] at member
  rcases List.mem_append.mp member with old | isNew
  · exact allLater other old
  · obtain ⟨isRow, ofId⟩ := List.mem_filter.mp isNew
    obtain rfl := List.mem_singleton.mp isRow
    exact later (of_decide_eq_true ofId)

/-- The rows of the instrument in the order of strictly increasing dates. -/
def Dated (instant : Text → Int) (rows : List (LiveRow V)) : Prop :=
  rows.Pairwise fun first second => instant first.date < instant second.date

/-- **After the last sampled row** come the rows of the remainder. -/
theorem sampledRows_last (chron : Chron instant (rowsOfId ID table)) {modulo : Nat}
    (stride : getModulo ID table = some modulo) {row : LiveRow V}
    (lastOf : (sampledRows instant ID modulo table).getLast? = some row) :
    row ∈ rowsOfId ID table ∧
      (rowsAfter instant ID (.ofRow row) table).length = unsampled (rowsOfId ID table).length := by
  have sorted : byDate instant (rowsOfId ID table) = rowsOfId ID table :=
    byDate_of_sorted instant (chron.imp fun {_ _} order => order.1)
  have isStride := getModulo_eq_some stride
  rw [sampledRows, sorted] at lastOf
  have enough : modulo ≤ (rowsOfId ID table).length := by
    by_contra few
    have none : rowsOfId ID table = [] := List.eq_nil_of_length_eq_zero (by omega)
    rw [none] at lastOf
    cases lastOf
  obtain ⟨earlier, last, later, rows, remainder, isLast⟩ := everyNth_last (by omega) enough
  obtain rfl := Option.some.inj (isLast.symm.trans lastOf)
  refine ⟨by rw [rows]; simp, ?_⟩
  rw [unsampled, ← isStride, ← remainder, rowsAfter, rows]
  rw [rows] at chron
  obtain ⟨-, fromLast, toLast⟩ := List.pairwise_append.mp chron
  have noneEarlier : earlier.filter (comesAfter instant (.ofRow last)) = [] := by
    apply List.filter_eq_nil_iff.mpr
    intro other member
    obtain ⟨dates, nums⟩ := toLast other member last List.mem_cons_self
    rw [(comesAfter_place dates nums).2]
    exact Bool.false_ne_true
  have allLater : later.filter (comesAfter instant (.ofRow last)) = later := by
    apply List.filter_eq_self.mpr
    intro other member
    obtain ⟨dates, nums⟩ := (List.pairwise_cons.mp fromLast).1 other member
    exact (comesAfter_place dates nums).1
  rw [List.filter_append, noneEarlier, List.nil_append,
    List.filter_cons_of_neg (by rw [comesAfter_self]; exact Bool.false_ne_true), allLater]

/-- Without a sampled row there is no row. -/
theorem sampledRows_nil (chron : Chron instant (rowsOfId ID table)) {modulo : Nat}
    (stride : getModulo ID table = some modulo) (none : sampledRows instant ID modulo table = []) :
    rowsOfId ID table = [] := by
  have sorted : byDate instant (rowsOfId ID table) = rowsOfId ID table :=
    byDate_of_sorted instant (chron.imp fun {_ _} order => order.1)
  have isStride := getModulo_eq_some stride
  rw [sampledRows, sorted] at none
  apply List.eq_nil_of_length_eq_zero
  by_contra some
  have enough : modulo ≤ (rowsOfId ID table).length := by omega
  obtain ⟨_, last, _, _, _, isLast⟩ := everyNth_last (by omega) enough
  rw [none] at isLast
  cases isLast

/-- The place of a live row, or of an archived one. -/
def Origin (archive : Archive instant) (ID : Int) (rows : List (LiveRow V)) (place : Place) :
    Prop :=
  (∃ row ∈ rows, place = .ofRow row) ∨ ∃ old ∈ archive.rowsOf ID, old.date = place.date

variable {archive : Archive instant} {rows : List (LiveRow V)}

/-- With strictly increasing dates, what comes after a row has a later date. -/
theorem Origin.later (origin : Origin archive ID rows place) (dated : Dated instant rows)
    (archived : ∀ row ∈ rows, ∀ old ∈ archive.rowsOf ID, instant old.date < instant row.date)
    {row : LiveRow V} (member : row ∈ rows) (after : comesAfter instant place row = true) :
    instant place.date < instant row.date := by
  rcases origin with ⟨first, isFirst, rfl⟩ | ⟨old, inFiles, sameDate⟩
  · have distinct : (rows.map fun row => instant row.date).Nodup :=
      List.pairwise_map.mpr (dated.imp fun {_ _} order => order.ne)
    have notLess : instant first.date ≤ instant row.date := date_le_of_comesAfter after
    apply lt_of_le_of_ne notLess
    intro same
    obtain rfl := List.inj_on_of_nodup_map distinct isFirst member same
    rw [comesAfter_self] at after
    cases after
  · rw [← sameDate]
    exact archived row member old inFiles

/-- A date after all live and archived ones. -/
theorem Origin.lt (origin : Origin archive ID rows place) {date : Text}
    (later : ∀ row ∈ rows, instant row.date < instant date)
    (archived : ∀ old ∈ archive.rowsOf ID, instant old.date < instant date) :
    instant place.date < instant date := by
  rcases origin with ⟨first, isFirst, rfl⟩ | ⟨old, inFiles, sameDate⟩
  · exact later first isFirst
  · rw [← sameDate]
    exact archived old inFiles

/-- What was inserted after a place comes after it. -/
theorem Origin.grown (origin : Origin archive ID (rowsOfId ID before) place)
    (earlier : before <+: table)
    (dated : Dated instant (rowsOfId ID table))
    (archived : ∀ row ∈ rowsOfId ID table, ∀ old ∈ archive.rowsOf ID,
      instant old.date < instant row.date) : Grown instant ID place before table := by
  obtain ⟨news, rfl⟩ := earlier
  rw [rowsOfId_append] at dated archived
  refine ⟨news, rfl, ?_⟩
  intro row member
  have later : instant place.date < instant row.date := by
    apply origin.lt
    · exact fun other isOther => (List.pairwise_append.mp dated).2.2 other isOther row member
    · exact archived row (List.mem_append_right _ member)
  simp [comesAfter, later]

theorem Origin.mono (origin : Origin archive ID rows place) {more : List (LiveRow V)}
    (fewer : ∀ row ∈ rows, row ∈ more) : Origin archive ID more place := by
  rcases origin with ⟨first, isFirst, isPlace⟩ | old
  · exact .inl ⟨first, fewer first isFirst, isPlace⟩
  · exact .inr old

end Rows

/-! ## Orderly sessions -/

section Orderly

variable (server : Server V) (archive : Archive server.instant) (indice : IndiceModule)

/-- The four numbers of the page for a number of live rows. -/
def CountIs (n : Nat) (numbers : List (Text × Option Text)) : Prop :=
  NumbersAre numbers n
    (n + archive.count indice.id (inMonth server.curYear server.curMonth))
    (n + archive.count indice.id (inYear server.curYear))
    (n + archive.count indice.id fun _ => true)

/-- The dates of the instrument increase, the numbers and the values are evaluated on the same
table, nothing fails, and there is no tick while a request is unanswered. -/
def Orderly (world : World V) : Happening V → Prop
  | .insert id _ date => id = some indice.id →
      (∀ row ∈ rowsOfId indice.id world.live, server.instant row.date < server.instant date) ∧
        ∀ old ∈ archive.rowsOf indice.id, server.instant old.date < server.instant date
  | .evaluate sent => sent.request.kind ≠ .poll → ∀ answer ∈ world.answers,
      answer.sent.request.kind ≠ .poll → answer.table = world.live
  | .deliver sent => (world.answerTo sent).map Answer.response ≠ some .erreur
  | .fail _ => False
  | .tick _ => world.tab.pending = []

instance [DecidableEq V] (world : World V) :
    ∀ event : Happening V, Decidable (Orderly server archive indice world event)
  | .insert _ _ _ => inferInstanceAs (Decidable (_ → _ ∧ _))
  | .evaluate _ => inferInstanceAs (Decidable (_ → ∀ _ ∈ _, _))
  | .deliver _ => inferInstanceAs (Decidable (_ ≠ _))
  | .fail _ => isFalse id
  | .tick _ => inferInstanceAs (Decidable (world.tab.pending = []))

/-- The numbers arrive before the values. -/
def NumbersFirst (world : World V) : Happening V → Prop
  | .deliver sent => sent.request.kind = .vals →
      ∀ other ∈ world.tab.pending, other.request.kind ≠ .total
  | _ => True

instance (world : World V) : ∀ event : Happening V, Decidable (NumbersFirst world event)
  | .deliver _ => inferInstanceAs (Decidable (_ → ∀ _ ∈ _, _))
  | .insert _ _ _ | .evaluate _ | .fail _ | .tick _ => isTrue trivial

/-- After an answer, the page shows the numbers of the rows of the table that it was evaluated on,
with those of the month, of the year and of all files. -/
def TotalsTrue (world world' : World V) : Happening V → Prop
  | .deliver sent => ∀ answer, world.answerTo sent = some answer →
      CountIs server archive indice (rowsOfId indice.id answer.table).length
        world'.tab.component.numbers
  | _ => True

/-- When the totals arrive, the year has four digits or no rows in the files; when a poll
arrives, the stride divides the number of rows that the chart was opened on. -/
def EvenlySampled (world : World V) : Happening V → Prop
  | .deliver sent =>
      (sent.request.kind = .total →
        1000 ≤ server.curYear ∨ archive.count indice.id (inYear server.curYear) = 0) ∧
      (sent.request.kind = .poll → ∀ opening ∈ world.opening,
        unsampled (rowsOfId indice.id opening.table).length = 0)
  | _ => True

instance (world : World V) :
    ∀ event : Happening V, Decidable (EvenlySampled server archive indice world event)
  | .deliver _ => inferInstanceAs (Decidable ((_ → _ ∨ _) ∧ (_ → ∀ _ ∈ _, _)))
  | .insert _ _ _ | .evaluate _ | .fail _ | .tick _ => isTrue trivial

/-- The chart was opened at the place of a live or of an archived row, with the remainder of the
sample after it; all that was inserted since comes after it too. -/
structure Anchored (world : World V) : Prop where
  dated : Dated server.instant (rowsOfId indice.id world.live)
  archived : ∀ row ∈ rowsOfId indice.id world.live, ∀ old ∈ archive.rowsOf indice.id,
    server.instant old.date < server.instant row.date
  origin : ∀ opening place, world.opening = some opening → opening.last = some place →
    Origin archive indice.id (rowsOfId indice.id world.live) place
  remains : ∀ opening place, world.opening = some opening → opening.last = some place →
    (rowsAfter server.instant indice.id place opening.table).length =
      unsampled (rowsOfId indice.id opening.table).length
  grown : ∀ opening place, world.opening = some opening → opening.last = some place →
    Grown server.instant indice.id place opening.table world.live
  found : ∀ sent ∈ world.tab.pending, sent.request.kind = .poll → ∀ answer opening place,
    world.answerTo sent = some answer → world.opening = some opening → opening.last = some place →
      Grown server.instant indice.id place opening.table answer.table

/-- Once the totals have arrived, the page shows the number of rows of the table that they were
evaluated on, and the rows of the polls since. -/
structure Counted (world : World V) : Prop where
  same : ∀ answer ∈ world.answers, answer.sent.request.kind ≠ .poll → ∀ other ∈ world.answers,
    other.sent.request.kind ≠ .poll → answer.table = other.table
  opened : ∀ opening, world.opening = some opening → opening ∈ world.answers ∧
    opening.sent.request.kind ≠ .poll ∧ ∀ sent ∈ world.tab.pending, sent.request.kind ≠ .total
  counts : (∀ sent ∈ world.tab.pending, sent.request.kind ≠ .total) →
    ∃ answer ∈ world.answers, answer.sent.request.kind ≠ .poll ∧
      CountIs server archive indice
        ((rowsOfId indice.id answer.table).length + world.appended.length)
        world.tab.component.numbers

end Orderly

section Counting

variable {server : Server V} {archive : Archive server.instant} {indice : IndiceModule}
  {world world' : World V}

theorem evenlySampled_total {sent : Sent} (kind : sent.request.kind = .total) :
    EvenlySampled server archive indice world (.deliver sent) ↔
      1000 ≤ server.curYear ∨ archive.count indice.id (inYear server.curYear) = 0 := by
  simp [EvenlySampled, kind]

theorem evenlySampled_vals {sent : Sent} (kind : sent.request.kind = .vals) :
    EvenlySampled server archive indice world (.deliver sent) := by
  simp [EvenlySampled, kind]

theorem evenlySampled_poll {sent : Sent} (kind : sent.request.kind = .poll) {opening : Answer V}
    (opened : world.opening = some opening) :
    EvenlySampled server archive indice world (.deliver sent) ↔
      unsampled (rowsOfId indice.id opening.table).length = 0 := by
  simp [EvenlySampled, kind, opened]

theorem CountIs.add {n : Nat} {numbers : List (Text × Option Text)}
    (shown : CountIs server archive indice n numbers) (length : Nat) :
    CountIs server archive indice (n + length) (addNumbers length numbers) := by
  have more := NumbersAre.add shown length
  simpa only [CountIs, Nat.add_right_comm n length] using more

theorem CountIs.polled {n : Nat} {numbers : List (Text × Option Text)}
    {appended : List (LiveRow V)}
    (shown : CountIs server archive indice (n + appended.length) numbers)
    (rows : List (LiveRow V)) :
    CountIs server archive indice (n + (appended ++ rows).length)
      (addNumbers (rows.map LiveRow.send).length numbers) := by
  rw [List.length_append, ← Nat.add_assoc, List.length_map]
  exact shown.add rows.length

theorem countIs_iff {n m : Nat} {numbers : List (Text × Option Text)}
    (shown : CountIs server archive indice n numbers) :
    CountIs server archive indice m numbers ↔ m = n := by
  constructor
  · intro other
    exact (NumbersAre.unique other shown).1
  · rintro rfl
    exact shown

/-- Every answer that is not to a poll has the table of the totals. -/
theorem Counted.countIs (counted : Counted server archive indice world)
    (arrived : ∀ sent ∈ world.tab.pending, sent.request.kind ≠ .total) {answer : Answer V}
    (member : answer ∈ world.answers) (noPoll : answer.sent.request.kind ≠ .poll) :
    CountIs server archive indice
      ((rowsOfId indice.id answer.table).length + world.appended.length)
      world.tab.component.numbers := by
  obtain ⟨other, isOther, alsoNoPoll, shown⟩ := counted.counts arrived
  rwa [counted.same answer member noPoll other isOther alsoNoPoll]

/-- The numbers and the values are evaluated on the same table. -/
theorem Counted.evaluate (counted : Counted server archive indice world) {sent : Sent}
    (orderly : Orderly server archive indice world (.evaluate sent)) :
    Counted server archive indice
      { world with answers := server.answer world.live sent :: world.answers } := by
  refine ⟨?_, ?_, ?_⟩
  · intro answer member noPoll other isOther alsoNoPoll
    rcases List.mem_cons.mp member with rfl | old
    · rcases List.mem_cons.mp isOther with rfl | oldOther
      · rfl
      · rw [Server.answer_sent] at noPoll
        rw [Server.answer_table]
        exact (orderly noPoll other oldOther alsoNoPoll).symm
    · rcases List.mem_cons.mp isOther with rfl | oldOther
      · rw [Server.answer_sent] at alsoNoPoll
        rw [Server.answer_table]
        exact orderly alsoNoPoll answer old noPoll
      · exact counted.same answer old noPoll other oldOther alsoNoPoll
  · intro opening opened
    obtain ⟨member, noPoll, arrived⟩ := counted.opened opening opened
    exact ⟨List.mem_cons_of_mem _ member, noPoll, arrived⟩
  · intro arrived
    obtain ⟨answer, member, shown⟩ := counted.counts arrived
    exact ⟨answer, List.mem_cons_of_mem _ member, shown⟩

/-- An answer that arrives after the numbers. -/
theorem Counted.arrives (counted : Counted server archive indice world) {sent : Sent}
    (arrived : ∀ other ∈ world.tab.pending, other.request.kind ≠ .total)
    (answers : world'.answers = world.answers)
    (opened : ∀ opening, world'.opening = some opening →
      opening ∈ world.answers ∧ opening.sent.request.kind ≠ .poll)
    (pending : world'.tab.pending = world.tab.pending.erase sent)
    (numbers : ∀ n, CountIs server archive indice (n + world.appended.length)
        world.tab.component.numbers →
      CountIs server archive indice (n + world'.appended.length) world'.tab.component.numbers) :
    Counted server archive indice world' := by
  refine ⟨?_, ?_, ?_⟩
  · rw [answers]
    exact counted.same
  · intro opening isOpening
    obtain ⟨member, noPoll⟩ := opened opening isOpening
    rw [answers, pending]
    exact ⟨member, noPoll, fun other waiting => arrived other (List.mem_of_mem_erase waiting)⟩
  · intro _
    obtain ⟨answer, member, noPoll, shown⟩ := counted.counts arrived
    rw [answers]
    exact ⟨answer, member, noPoll, numbers _ shown⟩

/-! ### The place of the chart -/

/-- A row that is inserted. -/
theorem Anchored.insert (anchored : Anchored server archive indice world) {id : Option Int}
    {val : V}
    {date : Text} (orderly : Orderly server archive indice world (.insert id val date)) :
    Anchored server archive indice (world.insert id val date) := by
  have isNew : ∀ {row : LiveRow V}, row ∈ rowsOfId indice.id
      [(⟨world.live.length, id, val, date⟩ : LiveRow V)] → id = some indice.id ∧
        row.date = date := by
    intro row member
    obtain ⟨isRow, ofId⟩ := List.mem_filter.mp member
    obtain rfl := List.mem_singleton.mp isRow
    exact ⟨of_decide_eq_true ofId, rfl⟩
  refine ⟨?_, ?_, ?_, anchored.remains, ?_, anchored.found⟩
  · unfold Dated
    rw [World.insert, rowsOfId_append]
    apply List.pairwise_append.mpr
    refine ⟨anchored.dated, (List.pairwise_singleton _ _).sublist List.filter_sublist, ?_⟩
    intro row member other inNew
    obtain ⟨ofId, isDate⟩ := isNew inNew
    rw [isDate]
    exact (orderly ofId).1 row member
  · intro row member old inFiles
    rw [World.insert, rowsOfId_append] at member
    rcases List.mem_append.mp member with before | inNew
    · exact anchored.archived row before old inFiles
    · obtain ⟨ofId, isDate⟩ := isNew inNew
      rw [isDate]
      exact (orderly ofId).2 old inFiles
  · intro opening place opened isLast
    apply (anchored.origin opening place opened isLast).mono
    intro row member
    rw [World.insert, rowsOfId_append]
    exact List.mem_append_left _ member
  · intro opening place opened isLast
    apply (anchored.grown opening place opened isLast).insert
    intro ofId
    have later := (anchored.origin opening place opened isLast).lt (orderly ofId).1 (orderly ofId).2
    simp [comesAfter, later]

/-- An answer that does not open the chart, or none. -/
theorem Anchored.frame (anchored : Anchored server archive indice world)
    (live : world'.live = world.live) (opening : world'.opening = world.opening)
    (found : ∀ sent ∈ world'.tab.pending, sent.request.kind = .poll → ∀ answer,
      world'.answerTo sent = some answer →
        sent ∈ world.tab.pending ∧ world.answerTo sent = some answer ∨ answer.table = world.live) :
    Anchored server archive indice world' := by
  refine ⟨?_, ?_, ?_, ?_, ?_, ?_⟩
  · rw [live]
    exact anchored.dated
  · rw [live]
    exact anchored.archived
  · rw [live, opening]
    exact anchored.origin
  · rw [opening]
    exact anchored.remains
  · rw [live, opening]
    exact anchored.grown
  · intro sent waiting poll answer opened place isAnswer
    rw [opening]
    intro isOpened isLast
    rcases found sent waiting poll answer isAnswer with ⟨before, wasAnswer⟩ | isLive
    · exact anchored.found sent before poll answer opened place wasAnswer isOpened isLast
    · rw [isLive]
      exact anchored.grown opened place isOpened isLast

/-- The answer that opens the chart. -/
theorem Anchored.opens (anchored : Anchored server archive indice world) {answer : Answer V}
    (live : world'.live = world.live) (opening : world'.opening = some answer)
    (origin : ∀ place, answer.last = some place →
      Origin archive indice.id (rowsOfId indice.id world.live) place ∧
        (rowsAfter server.instant indice.id place answer.table).length =
          unsampled (rowsOfId indice.id answer.table).length ∧
        Grown server.instant indice.id place answer.table world.live)
    (noPoll : ∀ sent ∈ world'.tab.pending, sent.request.kind ≠ .poll) :
    Anchored server archive indice world' := by
  have opened : ∀ {other}, world'.opening = some other → other = answer := by
    intro other isOther
    rw [opening] at isOther
    exact (Option.some.inj isOther).symm
  refine ⟨?_, ?_, ?_, ?_, ?_, ?_⟩
  · rw [live]
    exact anchored.dated
  · rw [live]
    exact anchored.archived
  · intro other place isOther isLast
    obtain rfl := opened isOther
    rw [live]
    exact (origin place isLast).1
  · intro other place isOther isLast
    obtain rfl := opened isOther
    exact (origin place isLast).2.1
  · intro other place isOther isLast
    obtain rfl := opened isOther
    rw [live]
    exact (origin place isLast).2.2
  · exact fun sent waiting poll => absurd poll (noPoll sent waiting)

/-- The place of the last row of an answer with the rows of the files and a sample. -/
theorem origin_of_sample {answer : Answer V} {table : List (LiveRow V)}
    (chron : Chron server.instant (rowsOfId indice.id table)) {pattern : Text}
    {files : List (IndiceVal V)} {modulo : Nat}
    (read : files = [] ∨
      filesVals server.parseDouble indice.id pattern archive.directory = some files)
    (stride : getModulo indice.id table = some modulo)
    (rows : answer.rows = sampledRows server.instant indice.id modulo table)
    (response : answer.response = .vals (files ++ answer.rows.map LiveRow.send)) {place : Place}
    (isLast : answer.last = some place) :
    Origin archive indice.id (rowsOfId indice.id table) place ∧
      (rowsAfter server.instant indice.id place table).length =
        unsampled (rowsOfId indice.id table).length := by
  cases lastRow : answer.rows.getLast? with
  | some row =>
      simp only [Answer.last, lastRow, Option.some.injEq] at isLast
      subst isLast
      rw [rows] at lastRow
      obtain ⟨member, remainder⟩ := sampledRows_last chron stride lastRow
      exact ⟨.inl ⟨row, member, rfl⟩, remainder⟩
  | none =>
      have noRows := List.getLast?_eq_none_iff.mp lastRow
      rw [noRows, List.map_nil, List.append_nil] at response
      simp only [Answer.last, lastRow, response, Option.map_eq_some_iff] at isLast
      obtain ⟨last, lastOf, rfl⟩ := isLast
      have inFiles := List.mem_of_getLast? lastOf
      have none : rowsOfId indice.id table = [] :=
        sampledRows_nil chron stride (rows.symm.trans noRows)
      rcases read with rfl | computed
      · cases inFiles
      · refine ⟨.inr (mem_filesVals computed inFiles), ?_⟩
        rw [rowsAfter, none]
        rfl

/-- **A poll meets no row with the date of the last one.** -/
theorem Anchored.noTie (anchored : Anchored server archive indice world)
    (inSession : InSession server indice world) (continues : Continues server indice world)
    (event : Happening V) : NoTie server indice world event := by
  cases event with
  | deliver sent =>
      intro _ answer opening place isAnswer opened isLast row member after
      have answered := List.mem_of_find?_eq_some isAnswer
      obtain ⟨table, earlier, evaluated⟩ := inSession.evaluated answer answered
      rw [evaluated, Server.answer_table] at member
      have inLive : row ∈ rowsOfId indice.id world.live := (earlier.filter _).subset member
      have origin : Origin archive indice.id (rowsOfId indice.id world.live)
          (world.last place) := by
        cases lastRow : world.appended.getLast? with
        | none =>
            rw [World.last, lastRow]
            exact anchored.origin opening place opened isLast
        | some last =>
            rw [World.last, lastRow]
            have starts := continues.starts opening place opened isLast
            have inRows := starts.subset (List.mem_of_getLast? lastRow)
            exact .inl ⟨last, (List.mem_filter.mp inRows).1, rfl⟩
      exact origin.later anchored.dated anchored.archived inLive after
  | insert id val date => trivial
  | evaluate sent => trivial
  | fail sent => trivial
  | tick handle => trivial

/-- What the page shows after a poll whose rows were appended. -/
theorem totals_iff_of_poll (inSession : InSession server indice world)
    (continues : Continues server indice world) (anchored : Anchored server archive indice world)
    (counted : Counted server archive indice world) {sent : Sent} {table : List (LiveRow V)}
    (delivery : Delivery server world sent table) (kind : sent.request.kind = .poll)
    (complete : Complete server indice world world' (.deliver sent))
    (numbers : ∀ n, CountIs server archive indice (n + world.appended.length)
        world.tab.component.numbers →
      CountIs server archive indice (n + world'.appended.length) world'.tab.component.numbers) :
    TotalsTrue server archive indice world world' (.deliver sent) ↔
      EvenlySampled server archive indice world (.deliver sent) := by
  obtain ⟨opening, opened⟩ := inSession.opened delivery.waiting kind
  have someLast := continues.placed (.inr ⟨sent, delivery.waiting, kind⟩) opening opened
  obtain ⟨place, isLast⟩ := Option.ne_none_iff_exists'.mp someLast
  obtain ⟨member, noPoll, arrived⟩ := counted.opened opening opened
  have shown := numbers _ (counted.countIs arrived member noPoll)
  have all := (complete kind _ opening place delivery.evaluated opened isLast).1
  have grown := (anchored.found sent delivery.waiting kind _ opening place delivery.evaluated opened
    isLast).length
  rw [← all, anchored.remains opening place opened isLast] at grown
  rw [evenlySampled_poll kind opened]
  simp only [TotalsTrue, delivery.evaluated, Option.some.injEq, forall_eq', countIs_iff shown]
  omega

theorem Start.anchored (start : Start indice world)
    (dated : Dated server.instant (rowsOfId indice.id world.live))
    (archived : ∀ row ∈ rowsOfId indice.id world.live, ∀ old ∈ archive.rowsOf indice.id,
      server.instant old.date < server.instant row.date) :
    Anchored server archive indice world := by
  obtain ⟨noAnswer, unopened, -⟩ := start.unanswered
  have notOpened : ∀ opening, world.opening ≠ some opening := by
    intro opening opened
    rw [unopened] at opened
    cases opened
  refine ⟨dated, archived, ?_, ?_, ?_, ?_⟩
  · exact fun opening _ opened => absurd opened (notOpened opening)
  · exact fun opening _ opened => absurd opened (notOpened opening)
  · exact fun opening _ opened => absurd opened (notOpened opening)
  · exact fun _ _ _ _ opening _ _ opened => absurd opened (notOpened opening)

theorem Start.counted (start : Start indice world) : Counted server archive indice world := by
  obtain ⟨noAnswer, unopened, -⟩ := start.unanswered
  obtain ⟨total, vals, type, TIME, pending, isTotal, -⟩ := start.pending
  refine ⟨?_, ?_, ?_⟩
  · simp [noAnswer]
  · simp [unopened]
  · intro arrived
    have waiting : total ∈ world.tab.pending := by simp [pending]
    exact absurd (by rw [isTotal]; rfl) (arrived total waiting)

section Turns

variable [Max V] [Min V] {event : Happening V}

theorem Turn.anchored (files : server.directory = archive.directory)
    (inSession : InSession server indice world) (continues : Continues server indice world)
    (orderly : Orderly server archive indice world event)
    (anchored : Anchored server archive indice world)
    (turn : Turn server indice world event world') : Anchored server archive indice world' := by
  -- an answer that does not open the chart leaves fewer requests
  have fewer : ∀ {sent : Sent}, ∀ other ∈ world.tab.pending.erase sent, other.request.kind = .poll →
      ∀ answer, world.answerTo other = some answer →
        other ∈ world.tab.pending ∧ world.answerTo other = some answer ∨
          answer.table = world.live :=
    fun _ waiting _ _ isAnswer => .inl ⟨List.mem_of_mem_erase waiting, isAnswer⟩
  cases turn with
  | insert id val date => exact anchored.insert orderly
  | evaluate sent waiting =>
      refine anchored.frame rfl rfl ?_
      intro other pending _ answer isAnswer
      rw [World.answerTo, List.find?_cons] at isAnswer
      split at isAnswer
      · obtain rfl := Option.some.inj isAnswer
        exact .inr (server.answer_table world.live sent)
      · exact .inl ⟨pending, isAnswer⟩
  | tick handle active date cursor =>
      refine anchored.frame rfl rfl ?_
      intro other waiting _ answer isAnswer
      rcases mem_pending_send.mp waiting with before | rfl
      · exact .inl ⟨before, isAnswer⟩
      · exact absurd (inSession.num_lt isAnswer) (Nat.lt_irrefl _)
  | fail sent waiting => exact absurd orderly id
  | erreur sent table delivery TIME type request response =>
      exact anchored.frame rfl rfl fewer
  | total sent table delivery type request tmp totaux => exact anchored.frame rfl rfl fewer
  | openEmpty sent table delivery TIME type request response noRows =>
      have kind : sent.request.kind = .vals := by rw [request]; rfl
      obtain ⟨-, -, -, -, noPoll⟩ := inSession.unopened delivery.waiting kind
      refine anchored.opens rfl rfl ?_ ?_
      · intro place isLast
        simp only [Answer.last, noRows, response, List.getLast?_nil, Option.map_none] at isLast
        cases isLast
      · exact fun other waiting => noPoll other (List.mem_of_mem_erase waiting)
  | opens sent table delivery TIME type request series modulo last read stride rows sampled sameRows
      response lastOf =>
      have kind : sent.request.kind = .vals := by rw [request]; rfl
      obtain ⟨-, -, -, -, noPoll⟩ := inSession.unopened delivery.waiting kind
      have chron : Chron server.instant (rowsOfId indice.id table) :=
        continues.chron.sublist (delivery.earlier.filter _).sublist
      rw [files] at read
      refine anchored.opens rfl rfl ?_ ?_
      · intro place isLast
        rw [Server.answer_table]
        rw [← sameRows] at response
        obtain ⟨origin, remainder⟩ :=
          origin_of_sample chron read stride (sameRows.trans sampled.symm) response isLast
        refine ⟨?_, remainder, origin.grown delivery.earlier anchored.dated anchored.archived⟩
        exact origin.mono fun row member => (delivery.earlier.filter _).subset member
      · exact fun other waiting => noPoll other (List.mem_of_mem_erase waiting)
  | pollEmpty sent table delivery date type request noRows => exact anchored.frame rfl rfl fewer
  | poll sent table delivery date type request rows last data labels news lastOf datasets
      labelled =>
      exact anchored.frame rfl rfl fewer

/-- **The numbers are true after a step** exactly when the sample has no remainder. -/
theorem Turn.totals_iff (files : server.directory = archive.directory)
    (years : ∀ file ∈ archive.files, InEra file.jour)
    (read : ∀ call < 3, server.caughtTotal call = false)
    (inSession : InSession server indice world) (continues : Continues server indice world)
    (anchored : Anchored server archive indice world)
    (counted : Counted server archive indice world)
    (complete : Complete server indice world world' event)
    (orderly : Orderly server archive indice world event) (first : NumbersFirst world event)
    (turn : Turn server indice world event world') :
    TotalsTrue server archive indice world world' event ↔
      EvenlySampled server archive indice world event := by
  -- the values change nothing in the numbers that have arrived
  have values : ∀ {sent : Sent} {table : List (LiveRow V)}, Delivery server world sent table →
      sent.request.kind = .vals → NumbersFirst world (.deliver sent) → ∀ answer,
        world.answerTo sent = some answer →
          CountIs server archive indice (rowsOfId indice.id answer.table).length
            world.tab.component.numbers := by
    intro sent table delivery kind first answer isAnswer
    have member := List.mem_of_find?_eq_some isAnswer
    have same : answer.sent = sent := by simpa using List.find?_some isAnswer
    have shown := counted.countIs (first kind) member (by rw [same, kind]; nofun)
    rwa [(inSession.unopened delivery.waiting kind).2.1] at shown
  cases turn with
  | insert id val date => exact Iff.rfl
  | evaluate sent waiting => exact Iff.rfl
  | tick handle active date cursor => exact Iff.rfl
  | fail sent waiting => exact absurd orderly id
  | erreur sent table delivery TIME type request response =>
      exact absurd (by rw [delivery.evaluated, Option.map_some, response]) orderly
  | total sent table delivery type request tmp totaux =>
      have kind : sent.request.kind = .total := by rw [request]; rfl
      subst totaux
      rw [evenlySampled_total kind]
      simp only [TotalsTrue, delivery.evaluated, Option.some.injEq, forall_eq', Server.answer_table,
        files]
      exact numbersAre_totals_iff years read rfl
  | openEmpty sent table delivery TIME type request response noRows =>
      have kind : sent.request.kind = .vals := by rw [request]; rfl
      exact iff_of_true (values delivery kind first) (evenlySampled_vals kind)
  | opens sent table delivery TIME type request series modulo last read stride rows sampled sameRows
      response lastOf =>
      have kind : sent.request.kind = .vals := by rw [request]; rfl
      exact iff_of_true (values delivery kind first) (evenlySampled_vals kind)
  | pollEmpty sent table delivery date type request noRows =>
      have kind : sent.request.kind = .poll := by rw [request]; rfl
      exact totals_iff_of_poll inSession continues anchored counted delivery kind complete
        fun _ shown => shown
  | poll sent table delivery date type request rows last data labels news lastOf datasets
      labelled =>
      have kind : sent.request.kind = .poll := by rw [request]; rfl
      apply totals_iff_of_poll inSession continues anchored counted delivery kind complete
      intro n shown
      exact shown.polled rows

theorem Turn.counted (inSession : InSession server indice world)
    (counted : Counted server archive indice world)
    (orderly : Orderly server archive indice world event) (first : NumbersFirst world event)
    (totals : TotalsTrue server archive indice world world' event)
    (turn : Turn server indice world event world') : Counted server archive indice world' := by
  have opensChart : ∀ {sent : Sent} {table : List (LiveRow V)}, Delivery server world sent table →
      sent.request.kind = .vals → ∀ opening, some (server.answer table sent) = some opening →
        opening ∈ world.answers ∧ opening.sent.request.kind ≠ .poll := by
    intro sent table delivery kind opening opened
    obtain rfl := Option.some.inj opened
    refine ⟨List.mem_of_find?_eq_some delivery.evaluated, ?_⟩
    rw [Server.answer_sent, kind]
    nofun
  have stays : ∀ opening, world.opening = some opening →
      opening ∈ world.answers ∧ opening.sent.request.kind ≠ .poll := by
    intro opening opened
    obtain ⟨member, noPoll, -⟩ := counted.opened opening opened
    exact ⟨member, noPoll⟩
  cases turn with
  | insert id val date => exact ⟨counted.same, counted.opened, counted.counts⟩
  | evaluate sent waiting => exact counted.evaluate orderly
  | tick handle active date cursor =>
      refine ⟨counted.same, ?_, ?_⟩
      · intro opening opened
        obtain ⟨member, noPoll, arrived⟩ := counted.opened opening opened
        refine ⟨member, noPoll, ?_⟩
        intro sent waiting
        rcases mem_pending_send.mp waiting with before | rfl
        · exact arrived sent before
        · nofun
      · intro arrived
        apply counted.counts
        intro sent waiting
        exact arrived sent (mem_pending_send.mpr (.inl waiting))
  | fail sent waiting => exact absurd orderly id
  | erreur sent table delivery TIME type request response =>
      exact absurd (by rw [delivery.evaluated, Option.map_some, response]) orderly
  | total sent table delivery type request tmp totaux =>
      have kind : sent.request.kind = .total := by rw [request]; rfl
      have unopened : world.opening = none := by
        by_contra opened
        obtain ⟨opening, isOpening⟩ := Option.ne_none_iff_exists'.mp opened
        exact (counted.opened opening isOpening).2.2 sent delivery.waiting kind
      have noneAppended := (inSession.closed unopened).1
      refine ⟨counted.same, ?_, ?_⟩
      · intro opening opened
        rw [unopened] at opened
        cases opened
      · intro _
        refine ⟨_, List.mem_of_find?_eq_some delivery.evaluated, ?_, ?_⟩
        · rw [Server.answer_sent, kind]
          nofun
        · rw [noneAppended]
          exact totals _ delivery.evaluated
  | openEmpty sent table delivery TIME type request response noRows =>
      have kind : sent.request.kind = .vals := by rw [request]; rfl
      exact counted.arrives (first kind) rfl (opensChart delivery kind) rfl fun _ shown => shown
  | opens sent table delivery TIME type request series modulo last read stride rows sampled sameRows
      response lastOf =>
      have kind : sent.request.kind = .vals := by rw [request]; rfl
      exact counted.arrives (first kind) rfl (opensChart delivery kind) rfl fun _ shown => shown
  | pollEmpty sent table delivery date type request noRows =>
      have kind : sent.request.kind = .poll := by rw [request]; rfl
      obtain ⟨opening, opened⟩ := inSession.opened delivery.waiting kind
      exact counted.arrives (counted.opened opening opened).2.2 rfl stays rfl fun _ shown => shown
  | poll sent table delivery date type request rows last data labels news lastOf datasets
      labelled =>
      have kind : sent.request.kind = .poll := by rw [request]; rfl
      obtain ⟨opening, opened⟩ := inSession.opened delivery.waiting kind
      refine counted.arrives (counted.opened opening opened).2.2 rfl stays rfl ?_
      intro n shown
      exact shown.polled rows

/-- **The numbers stay true** exactly when the year has four digits or no rows in the files, and
each poll finds a chart that was opened on a number of rows which the stride of its sample
divides. This holds for every session in which the dates of the instrument increase, the
numbers and the values are evaluated on the same table and arrive in this order, the polls are
answered one at a time and nothing fails. -/
theorem running_totals_iff (start : Start indice world)
    (files : server.directory = archive.directory)
    (years : ∀ file ∈ archive.files, InEra file.jour)
    (read : ∀ call < 3, server.caughtTotal call = false)
    (dated : Dated server.instant (rowsOfId indice.id world.live))
    (archived : ∀ row ∈ rowsOfId indice.id world.live, ∀ old ∈ archive.rowsOf indice.id,
      server.instant old.date < server.instant row.date)
    {events : List (Happening V)} (valid : (session server).Valid world events)
    (orderly : (session server).EachStep (Orderly server archive indice) world events)
    (first : (session server).EachStep NumbersFirst world events) :
    (session server).EachStep
        (fun world event => TotalsTrue server archive indice world (world.next server event) event)
        world events ↔
      (session server).EachStep (EvenlySampled server archive indice) world events := by
  have chron : Chron server.instant (rowsOfId indice.id world.live) :=
    (dated.and (start.ordered.sublist List.filter_sublist)).imp
      fun {_ _} order => ⟨order.1.le, order.2⟩
  have oneAtATime : ∀ {world : World V} {event : Happening V},
      Orderly server archive indice world event → OneAtATime server indice world event := by
    intro world event orderly
    cases event with
    | insert id val date => exact fun ofId row member => ((orderly ofId).1 row member).le
    | tick handle => exact orderly
    | evaluate sent | deliver sent | fail sent => trivial
  have complete : ∀ {world : World V} {event : Happening V}, InSession server indice world →
      Continues server indice world → Anchored server archive indice world →
      world.Possible event → Complete server indice world (world.next server event) event := by
    intro world event inSession continues anchored possible
    exact ((inSession.turn possible).complete_iff inSession continues).mpr
      (anchored.noTie inSession continues event)
  have agree : ∀ world event,
      (InSession server indice world ∧ Continues server indice world ∧
        Anchored server archive indice world ∧ Counted server archive indice world) →
      ((session server).Enabled world event ∧ Orderly server archive indice world event ∧
        NumbersFirst world event) →
      (TotalsTrue server archive indice world (world.next server event) event ↔
        EvenlySampled server archive indice world event) := by
    rintro world event ⟨inSession, continues, anchored, counted⟩ ⟨possible, orderly, first⟩
    exact (inSession.turn possible).totals_iff files years read inSession continues anchored counted
      (complete inSession continues anchored possible) orderly first
  apply Machine.eachStep_iff agree ?_ (valid.and (orderly.and first))
    ⟨start.inSession server, start.continues server chron, start.anchored dated archived,
      start.counted⟩
  rintro world event ⟨inSession, continues, anchored, counted⟩ ⟨possible, orderly, first⟩ totals
  have turn := inSession.turn possible
  exact ⟨turn.inSession inSession,
    turn.continues inSession continues (oneAtATime orderly)
      (complete inSession continues anchored possible),
    turn.anchored files inSession continues orderly anchored,
    turn.counted inSession counted orderly first totals⟩

end Turns

end Counting

/-- The seconds of a date since the last hour. -/
def hourSeconds (date : Text) : Int :=
  60 * Nat.ofDigitChars 10 ((date.drop 14).take 2) 0 + Nat.ofDigitChars 10 ((date.drop 17).take 2) 0

def hourServer : Server Int := { emptyServer with instant := hourSeconds }

def noFiles : Archive hourServer.instant := ⟨[], List.nodup_nil⟩

/-- The seconds of a date of two days. -/
def twoDaySeconds (date : Text) : Int :=
  86400 * (if date.take 10 = "2019-04-10".toList then 737158 else 737159) + hourSeconds date

/-- A file of the day before, with a value of each of two instruments. -/
def dayBefore : Archive twoDaySeconds where
  files :=
    [{ jour := 737158
       rows := [⟨1, "5300".toList, "2019-04-10 17:30:00.0".toList⟩,
         ⟨2, "7".toList, "2019-04-10 17:30:00.0".toList⟩]
       clean := by decide
       sorted := by decide +kernel
       ofDay := by decide +kernel }]
  distinct := by decide

def filedServer : Server Int :=
  { emptyServer with
    parseDouble := Text.parseInt
    instant := twoDaySeconds
    directory := dayBefore.directory }

/-- The files of the server. -/
def filed : Archive filedServer.instant := dayBefore

/-- The value of the file counts for the month, the year and all time. -/
theorem running_totals_row_found :
    (session filedServer).EachStep (fun world event =>
        TotalsTrue filedServer filed ⟨1, "CAC 40".toList⟩ world (world.next filedServer event)
          event)
      { tab := firstTab, live := openingRow } rowFound ∧
      numberOf "Today values" ((session filedServer).run { tab := firstTab, live := openingRow }
        rowFound).tab.component.numbers = some "2".toList ∧
      numberOf "All time values" ((session filedServer).run { tab := firstTab, live := openingRow }
        rowFound).tab.component.numbers = some "3".toList :=
  ⟨(running_totals_iff (start_firstTab (by decide) (by decide)) rfl (by decide +kernel)
      (fun _ _ => rfl) (by unfold Dated; decide +kernel) (by decide +kernel) (by decide +kernel)
      (by decide +kernel) (by decide +kernel)).mpr (by decide +kernel),
    by decide +kernel, by decide +kernel⟩

/-! ## A poll after a sample -/

/-- The chart is opened and the first poll answered. -/
def opensAndPolls (date : String) : List (Happening Int) :=
  [.evaluate totalSent, .deliver totalSent, .evaluate valsSent, .deliver valsSent] ++
    [.tick 0, .evaluate (pollSent 3 date), .deliver (pollSent 3 date)]

section FirstPoll

variable (server : Server Int) (live rows : List (LiveRow Int)) (last : IndiceVal Int)

/-- The page that has handled the totals of a table. -/
def numberedTab : Tab Int :=
  after firstTab (.deliver totalSent (.totaux (getIndicesTotal 1 server.curYear server.curMonth
    server.caughtTotal server.directory live)))

/-- The answer that opens the chart with some rows of a table. -/
def openingAnswer : Answer Int := ⟨valsSent, .vals (rows.map LiveRow.send), rows, live⟩

/-- The page on which the chart was opened. -/
def openedWorld : World Int where
  tab := ((numberedTab server live).receive valsSent (.vals (rows.map LiveRow.send))).replaced
    (rows.map LiveRow.send) last
  live := live
  answers := [openingAnswer live rows, server.answer live totalSent]
  opening := some (openingAnswer live rows)

variable {server live rows last} {archive : Archive server.instant} {date : String}

theorem run_opens (answer : server.answer live valsSent = openingAnswer live rows)
    (lastOf : (rows.map LiveRow.send).getLast? = some last) :
    (session server).run { tab := firstTab, live := live }
        [.evaluate totalSent, .deliver totalSent, .evaluate valsSent, .deliver valsSent] =
      openedWorld server live rows last := by
  have numbered : (session server).run { tab := firstTab, live := live }
      [.evaluate totalSent, .deliver totalSent] =
        { tab := numberedTab server live, live := live,
          answers := [server.answer live totalSent] } :=
    rfl
  show (session server).run ((session server).run { tab := firstTab, live := live }
    [.evaluate totalSent, .deliver totalSent]) [.evaluate valsSent, .deliver valsSent] = _
  rw [numbered]
  have opens : ∀ tab : Tab Int, after tab (.deliver valsSent (.vals (rows.map LiveRow.send))) = _ :=
    fun tab => after_vals tab rfl lastOf
  simp only [Machine.run, session, World.next, World.answerTo, answer, List.find?_cons,
    openingAnswer, decide_true, World.receive, opens]
  rfl

/-- The page that has sent its first poll. -/
def askedTab (server : Server Int) (live rows : List (LiveRow Int)) (last : IndiceVal Int)
    (date : String) : Tab Int :=
  let tab := (openedWorld server live rows last).tab
  { tab with
    component := { tab.component with count := tab.component.count + 1 }
    sent := pollSent 3 date :: tab.sent
    pending := [pollSent 3 date] }

/-- The answers to the totals, to the values and to the first poll. -/
def askedWorld (server : Server Int) (live rows : List (LiveRow Int)) (last : IndiceVal Int)
    (date : String) : World Int :=
  { openedWorld server live rows last with
    tab := askedTab server live rows last date
    answers := [server.answer live (pollSent 3 date), openingAnswer live rows,
      server.answer live totalSent] }

theorem answerTo_askedWorld :
    (askedWorld server live rows last date).answerTo (pollSent 3 date) =
      some (server.answer live (pollSent 3 date)) := by
  simp [World.answerTo, askedWorld, Server.answer_sent]

theorem step_tick (isDate : last.date = date.toList) :
    (session server).step (openedWorld server live rows last) (.tick 0) =
      { openedWorld server live rows last with tab := askedTab server live rows last date } := by
  have selected : (openedWorld server live rows last).tab.component.indiceSelected =
      some ⟨1, "CAC 40".toList⟩ := rfl
  simp only [session, World.next, after_tick selected]
  unfold askedTab pollSent
  rw [← isDate]
  rfl

/-- The steps up to the answer of the first poll. -/
theorem eachStep_opensAndPolls {P : World Int → Happening Int → Prop}
    (answer : server.answer live valsSent = openingAnswer live rows)
    (lastOf : (rows.map LiveRow.send).getLast? = some last) (isDate : last.date = date.toList) :
    (session server).EachStep P { tab := firstTab, live := live } (opensAndPolls date) ↔
      P { tab := firstTab, live := live } (.evaluate totalSent) ∧
      P { tab := firstTab, live := live, answers := [server.answer live totalSent] }
        (.deliver totalSent) ∧
      P { tab := numberedTab server live, live := live, answers := [server.answer live totalSent] }
        (.evaluate valsSent) ∧
      P { tab := numberedTab server live, live := live,
          answers := [openingAnswer live rows, server.answer live totalSent] } (.deliver valsSent) ∧
      P (openedWorld server live rows last) (.tick 0) ∧
      P { openedWorld server live rows last with tab := askedTab server live rows last date }
        (.evaluate (pollSent 3 date)) ∧
      P (askedWorld server live rows last date) (.deliver (pollSent 3 date)) := by
  unfold opensAndPolls
  rw [Machine.eachStep_append, run_opens answer lastOf]
  have valued : (session server).step
      { tab := numberedTab server live, live := live, answers := [server.answer live totalSent] }
      (.evaluate valsSent) =
        { tab := numberedTab server live, live := live,
          answers := [openingAnswer live rows, server.answer live totalSent] } := by
    rw [← answer]
    rfl
  simp only [Machine.EachStep, and_true, step_tick isDate, ← valued, and_assoc]
  rfl

theorem run_opensAndPolls (answer : server.answer live valsSent = openingAnswer live rows)
    (lastOf : (rows.map LiveRow.send).getLast? = some last) (isDate : last.date = date.toList) :
    (session server).run { tab := firstTab, live := live } (opensAndPolls date) =
      (askedWorld server live rows last date).next server (.deliver (pollSent 3 date)) := by
  unfold opensAndPolls
  rw [Machine.run_append, run_opens answer lastOf]
  simp only [Machine.run, step_tick isDate]
  rfl

/-- The first poll adds the number of its rows to the totals. -/
theorem numbers_polled {new : LiveRow Int}
    (news : newRows server.instant 1 date.toList live = [new]) :
    ((askedWorld server live rows last date).next server
        (.deliver (pollSent 3 date))).tab.component.numbers =
      addNumbers 1 (totalNumbers (getIndicesTotal 1 server.curYear server.curMonth
        server.caughtTotal server.directory live)) := by
  have response : (server.answer live (pollSent 3 date)).response = .vals [new.send] := by
    simp only [Server.answer, pollSent, Server.pollAnswer, getIndicesNewVals, Option.getD_some,
      news, List.map_cons, List.map_nil]
  simp only [World.next, answerTo_askedWorld, World.receive, Server.answer_sent, response]
  have handled : after (askedWorld server live rows last date).tab
      (.deliver (pollSent 3 date) (.vals [new.send])) = _ := after_poll rfl rfl rfl rfl
  rw [handled]
  rfl

theorem valid_opensAndPolls (answer : server.answer live valsSent = openingAnswer live rows)
    (lastOf : (rows.map LiveRow.send).getLast? = some last) (isDate : last.date = date.toList) :
    (session server).Valid { tab := firstTab, live := live } (opensAndPolls date) := by
  apply (eachStep_opensAndPolls answer lastOf isDate).mpr
  have waiting : totalSent ∈ firstTab.pending := by decide
  refine ⟨⟨waiting, rfl⟩, ⟨waiting, Option.some_ne_none _⟩, ⟨List.mem_singleton_self _, rfl⟩,
    ⟨List.mem_singleton_self _, Option.some_ne_none _⟩, List.mem_singleton_self _,
    ⟨List.mem_singleton_self _, rfl⟩, ⟨List.mem_singleton_self _, ?_⟩⟩
  rw [answerTo_askedWorld]
  exact Option.some_ne_none _

theorem orderly_opensAndPolls (answer : server.answer live valsSent = openingAnswer live rows)
    (lastOf : (rows.map LiveRow.send).getLast? = some last) (isDate : last.date = date.toList) :
    (session server).EachStep (Orderly server archive ⟨1, "CAC 40".toList⟩)
      { tab := firstTab, live := live } (opensAndPolls date) := by
  apply (eachStep_opensAndPolls answer lastOf isDate).mpr
  refine ⟨fun _ _ member => absurd member List.not_mem_nil, nofun, ?_, nofun, rfl, ?_, ?_⟩
  · intro _ other member _
    rw [List.mem_singleton.mp member, Server.answer_table]
  · intro poll
    exact absurd rfl poll
  · rw [Orderly, answerTo_askedWorld, Option.map_some]
    nofun

theorem numbersFirst_opensAndPolls (answer : server.answer live valsSent = openingAnswer live rows)
    (lastOf : (rows.map LiveRow.send).getLast? = some last) (isDate : last.date = date.toList) :
    (session server).EachStep NumbersFirst { tab := firstTab, live := live }
      (opensAndPolls date) := by
  apply (eachStep_opensAndPolls answer lastOf isDate).mpr
  refine ⟨trivial, nofun, trivial, ?_, trivial, trivial, nofun⟩
  intro _ other member
  rw [List.mem_singleton.mp member]
  nofun

/-- **A row after the sample is counted twice**, with the totals and with the first poll. -/
theorem counted_twice (archive : Archive server.instant)
    (files : server.directory = archive.directory)
    (years : ∀ file ∈ archive.files, InEra file.jour)
    (read : ∀ call < 3, server.caughtTotal call = false) (large : 1000 ≤ server.curYear)
    (answer : server.answer live valsSent = openingAnswer live rows)
    (lastOf : (rows.map LiveRow.send).getLast? = some last) (isDate : last.date = date.toList)
    {new : LiveRow Int} (news : newRows server.instant 1 date.toList live = [new]) :
    CountIs server archive ⟨1, "CAC 40".toList⟩ ((rowsOfId 1 live).length + 1)
        ((session server).run { tab := firstTab, live := live }
          (opensAndPolls date)).tab.component.numbers ∧
      ¬ (session server).EachStep (fun world event =>
          TotalsTrue server archive ⟨1, "CAC 40".toList⟩ world (world.next server event) event)
        { tab := firstTab, live := live } (opensAndPolls date) := by
  have totals : CountIs server archive ⟨1, "CAC 40".toList⟩ (rowsOfId 1 live).length
      (totalNumbers (getIndicesTotal 1 server.curYear server.curMonth server.caughtTotal
        server.directory live)) := by
    rw [files]
    exact (numbersAre_totals_iff years read rfl).mpr (.inl large)
  have shown := totals.add 1
  rw [← numbers_polled news] at shown
  refine ⟨?_, ?_⟩
  · rw [run_opensAndPolls answer lastOf isDate]
    exact shown
  · intro totalsTrue
    obtain ⟨-, -, -, -, -, -, afterPoll⟩ :=
      (eachStep_opensAndPolls answer lastOf isDate).mp totalsTrue
    have true := afterPoll _ answerTo_askedWorld
    rw [Server.answer_table] at true
    exact absurd ((countIs_iff shown).mp true) (Nat.lt_succ_self _).ne

end FirstPoll

/-- A date of an hour. -/
def secondDate (n : Nat) : Text :=
  "2019-04-11 11:".toList ++ (padded 2 (n / 60) ++ ':' :: (padded 2 (n % 60) ++ ".0".toList))

/-- A row in each of 2001 seconds. -/
def manyRows : List (LiveRow Int) :=
  (List.range 2001).map fun n => ⟨n, some 1, 5400, secondDate n⟩

theorem hourSeconds_secondDate {n : Nat} (inHour : n < 3600) : hourSeconds (secondDate n) = n := by
  have minutes : (padded 2 (n / 60)).length = 2 := length_padded (by decide) (by omega)
  have seconds : (padded 2 (n % 60)).length = 2 := length_padded (by decide) (by omega)
  have first : ((secondDate n).drop 14).take 2 = padded 2 (n / 60) := by
    have cut : (secondDate n).drop 14 =
        padded 2 (n / 60) ++ ':' :: (padded 2 (n % 60) ++ ".0".toList) := rfl
    rw [cut, List.take_left' minutes]
  have second : ((secondDate n).drop 17).take 2 = padded 2 (n % 60) := by
    have cut : (secondDate n).drop 17 =
        (padded 2 (n / 60) ++ ':' :: (padded 2 (n % 60) ++ ".0".toList)).drop 3 := rfl
    rw [cut, show 3 = (padded 2 (n / 60)).length + 1 by omega, List.drop_length_add_append,
      List.drop_succ_cons, List.drop_zero, List.take_left' seconds]
  rw [hourSeconds, first, second, ofDigitChars_padded, ofDigitChars_padded]
  omega

theorem dated_manyRows : Dated hourSeconds manyRows := by
  apply List.pairwise_map.mpr
  apply List.pairwise_lt_range.imp_of_mem
  intro first second inFirst inSecond earlier
  rw [hourSeconds_secondDate (by have := List.mem_range.mp inFirst; omega),
    hourSeconds_secondDate (by have := List.mem_range.mp inSecond; omega)]
  omega

theorem rowsOfId_manyRows : rowsOfId 1 manyRows = manyRows := by
  apply List.filter_eq_self.mpr
  intro row member
  obtain ⟨n, -, rfl⟩ := List.mem_map.mp member
  rfl

theorem length_manyRows : manyRows.length = 2001 := by
  rw [manyRows, List.length_map, List.length_range]

theorem chron_manyRows : Chron hourSeconds (rowsOfId 1 manyRows) := by
  rw [rowsOfId_manyRows]
  have ordered : manyRows.Pairwise fun first second => first.num < second.num :=
    List.pairwise_map.mpr List.pairwise_lt_range
  exact (dated_manyRows.and ordered).imp fun {_ _} order => ⟨order.1.le, order.2⟩

/-- The stride of 2001 rows is 2. -/
theorem getModulo_manyRows : getModulo 1 manyRows = some 2 := by
  rw [getModulo, countText, rowsOfId_manyRows, length_manyRows, Text.parseInt_natText (by decide)]
  exact congrArg some (moduloLoop_eq 2001 1 le_rfl (by decide))

/-- Without files the chart is opened with the sampled rows. -/
theorem answer_sampled {live : List (LiveRow Int)} {modulo : Nat}
    (stride : getModulo 1 live = some modulo) :
    hourServer.answer live valsSent =
      openingAnswer live (sampledRows hourSeconds 1 modulo live) := by
  have noneRead : filesVals (fun _ => (none : Option Int)) 1
      (periodFiles Time.allTime.text 2019 4) [] = some [] := by
    decide +kernel
  have vals : getIndicesVals hourSeconds (fun _ => none) 1 Time.allTime.text 2019 4 false [] live =
      some ((sampledRows hourSeconds 1 modulo live).map LiveRow.send) := by
    simp only [getIndicesVals, noneRead, stride, ite_self]
    rfl
  simp only [Server.answer, valsSent, Server.valsAnswer, hourServer, emptyServer, vals, stride]
  rfl

/-- The last but one row is the last sampled one. -/
theorem lastOf_manyRows :
    ((sampledRows hourSeconds 1 2 manyRows).map LiveRow.send).getLast? =
      some ⟨5400, secondDate 1999⟩ := by
  have sorted : byDate hourSeconds (rowsOfId 1 manyRows) = manyRows := by
    rw [byDate_of_sorted _ (chron_manyRows.imp fun {_ _} order => order.1), rowsOfId_manyRows]
  have enough : 2 ≤ manyRows.length := by
    rw [length_manyRows]
    decide
  obtain ⟨before, last, after, rows, remainder, isLast⟩ := everyNth_last (by decide) enough
  have place := congrArg List.length rows
  rw [length_manyRows] at remainder
  rw [length_manyRows, List.length_append, List.length_cons, remainder] at place
  have isRow : manyRows[1999]? = some last := by
    rw [rows, List.getElem?_append_right (by omega), show 1999 - before.length = 0 by omega]
    rfl
  rw [manyRows, List.getElem?_map, List.getElem?_range (by decide)] at isRow
  rw [sampledRows, sorted, List.getLast?_map, isLast, ← Option.some.inj isRow]
  rfl

theorem newRows_manyRows :
    newRows hourSeconds 1 "2019-04-11 11:33:19.0".toList manyRows =
      [⟨2000, some 1, 5400, secondDate 2000⟩] := by
  have after : (List.range 2001).filter (fun n => decide (1999 < n)) = [2000] := by decide +kernel
  have later : manyRows.filter (fun row =>
      decide (hourSeconds "2019-04-11 11:33:19.0".toList < hourSeconds row.date)) =
        [⟨2000, some 1, 5400, secondDate 2000⟩] := by
    rw [manyRows, List.filter_map, List.filter_congr (q := fun n => decide (1999 < n)), after]
    · rfl
    · intro n member
      have inRange := List.mem_range.mp member
      simp only [Function.comp_apply, hourSeconds_secondDate (show n < 3600 by omega)]
      rw [show hourSeconds "2019-04-11 11:33:19.0".toList = 1999 by decide +kernel]
      simp
  rw [newRows, rowsOfId_manyRows, later]
  rfl

theorem start_manyRows : Start ⟨1, "CAC 40".toList⟩ { tab := firstTab, live := manyRows } := by
  apply start_firstTab
  · exact List.pairwise_map.mpr List.pairwise_lt_range
  · intro row member
    obtain ⟨n, inRange, rfl⟩ := List.mem_map.mp member
    rw [length_manyRows]
    exact List.mem_range.mp inRange

/-- **The row after the sample is counted twice.** -/
theorem remainder_counted_twice :
    Start ⟨1, "CAC 40".toList⟩ { tab := firstTab, live := manyRows } ∧
      Dated hourServer.instant (rowsOfId 1 manyRows) ∧
      (session hourServer).Valid { tab := firstTab, live := manyRows }
        (opensAndPolls "2019-04-11 11:33:19.0") ∧
      (session hourServer).EachStep (Orderly hourServer noFiles ⟨1, "CAC 40".toList⟩)
        { tab := firstTab, live := manyRows } (opensAndPolls "2019-04-11 11:33:19.0") ∧
      (session hourServer).EachStep NumbersFirst { tab := firstTab, live := manyRows }
        (opensAndPolls "2019-04-11 11:33:19.0") ∧
      (rowsOfId 1 manyRows).length = 2001 ∧
      numberOf "Today values" ((session hourServer).run { tab := firstTab, live := manyRows }
        (opensAndPolls "2019-04-11 11:33:19.0")).tab.component.numbers = some "2002".toList ∧
      ¬ (session hourServer).EachStep (fun world event =>
          TotalsTrue hourServer noFiles ⟨1, "CAC 40".toList⟩ world (world.next hourServer event)
            event)
        { tab := firstTab, live := manyRows } (opensAndPolls "2019-04-11 11:33:19.0") := by
  have lastOf := lastOf_manyRows
  have answer := answer_sampled getModulo_manyRows
  have isDate : secondDate 1999 = "2019-04-11 11:33:19.0".toList := by decide +kernel
  have twice := counted_twice noFiles rfl nofun (fun _ _ => rfl) (by decide) answer lastOf isDate
    newRows_manyRows
  refine ⟨start_manyRows, ?_, ?_, ?_, ?_, ?_, ?_, ?_⟩
  · rw [rowsOfId_manyRows]
    exact dated_manyRows
  · exact valid_opensAndPolls answer lastOf isDate
  · exact orderly_opensAndPolls answer lastOf isDate
  · exact numbersFirst_opensAndPolls answer lastOf isDate
  · rw [rowsOfId_manyRows, length_manyRows]
  · have shown := twice.1.today
    rw [rowsOfId_manyRows, length_manyRows] at shown
    rw [shown]
    decide +kernel
  · exact twice.2

end Trading.Front
