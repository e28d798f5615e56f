import Trading.Dao.Queries
import Trading.Front.Effects

/-!
# A page and its server

A `World` is a page for one instrument and one period, and the table that the recorder inserts
into. The server evaluates a request on the table of that moment, and its answer arrives some
time later. With an answer its rows are kept, and the table that it was evaluated on; the
live rows that the chart shows are those of the answer that opened it and those that the polls
appended (`World.shown`).

`InSession` is what holds along every run that starts from a page which has asked for the numbers
and the values: there is one answer that opens the chart, every poll carries a date, and the
values of the chart are those of the files and of the live rows that are shown.
-/

set_option autoImplicit false

namespace Trading.Front

open Trading.Dao Trading.Runs

variable {V : Type}

/-! ## The world -/

/-- What the server reads besides the table: the cache directory and its clock. `caughtVals` and
`caughtTotal` say which of its reads of files throw. -/
structure Server (V : Type) where
  parseDouble : Text → Option V
  instant : Text → Int
  directory : Directory
  indices : List IndiceModule
  curYear : Nat
  curMonth : Nat
  caughtVals : Bool
  caughtTotal : Nat → Bool

/-- An answer, with the live rows that it carries and the table that it was evaluated on. -/
structure Answer (V : Type) where
  sent : Sent
  response : Response V
  rows : List (LiveRow V)
  table : List (LiveRow V)
  deriving DecidableEq

namespace Server

variable (server : Server V)

/-- The files and the live rows of `getIndicesVals`. -/
def valsAnswer (ID : Int) (TIME : Time) (sent : Sent) (live : List (LiveRow V)) : Answer V :=
  match getIndicesVals server.instant server.parseDouble ID TIME.text server.curYear
      server.curMonth server.caughtVals server.directory live, getModulo ID live with
  | some indices, some modulo =>
      ⟨sent, .vals indices, sampledRows server.instant ID modulo live, live⟩
  | _, _ => ⟨sent, .erreur, [], live⟩

/-- The rows after the date of a poll. -/
def pollAnswer (ID : Int) (DATE : Option Text) (sent : Sent) (live : List (LiveRow V)) : Answer V :=
  let date := DATE.getD "undefined".toList
  ⟨sent, .vals (getIndicesNewVals server.instant ID date live),
    newRows server.instant ID date live, live⟩

/-- What the server answers to a request on a table. -/
def answer (live : List (LiveRow V)) (sent : Sent) : Answer V :=
  match sent.request with
  | .getIndice _ => ⟨sent, .indices server.indices, [], live⟩
  | .getTotal ID _ =>
      ⟨sent, .totaux (getIndicesTotal ID server.curYear server.curMonth server.caughtTotal
        server.directory live), [], live⟩
  | .getIndiceVals ID TIME _ => server.valsAnswer ID TIME sent live
  | .getIndiceNewVals ID DATE _ => server.pollAnswer ID DATE sent live

end Server

/-- A page and the table, the answers that were evaluated, the one that opened the chart, and the
live rows that polls have appended to it. -/
structure World (V : Type) where
  tab : Tab V
  live : List (LiveRow V)
  answers : List (Answer V) := []
  opening : Option (Answer V) := none
  appended : List (LiveRow V) := []

inductive Happening (V : Type) where
  | insert (id : Option Int) (val : V) (date : Text)
  | evaluate (sent : Sent)
  | deliver (sent : Sent)
  | fail (sent : Sent)
  | tick (handle : Nat)

namespace World

/-- The live rows that the chart shows. -/
def shown (world : World V) : List (LiveRow V) :=
  (world.opening.map Answer.rows).getD [] ++ world.appended

theorem shown_of_opening {world : World V} {answer : Answer V}
    (opening : world.opening = some answer) : world.shown = answer.rows ++ world.appended := by
  rw [shown, opening, Option.map_some, Option.getD_some]

def answerTo (world : World V) (sent : Sent) : Option (Answer V) :=
  world.answers.find? fun answer => answer.sent = sent

/-- A row gets the next number. -/
def insert (world : World V) (id : Option Int) (val : V) (date : Text) : World V :=
  { world with live := world.live ++ [⟨world.live.length, id, val, date⟩] }

def Possible (world : World V) : Happening V → Prop
  | .insert _ _ _ => True
  | .evaluate sent => sent ∈ world.tab.pending ∧ world.answerTo sent = none
  | .deliver sent => sent ∈ world.tab.pending ∧ world.answerTo sent ≠ none
  | .fail sent => sent ∈ world.tab.pending
  | .tick handle => handle ∈ world.tab.intervals

instance (world : World V) : ∀ event : Happening V, Decidable (world.Possible event)
  | .insert _ _ _ => isTrue trivial
  | .evaluate _ => inferInstanceAs (Decidable (_ ∧ _))
  | .deliver _ => inferInstanceAs (Decidable (_ ∧ _))
  | .fail sent => inferInstanceAs (Decidable (sent ∈ world.tab.pending))
  | .tick handle => inferInstanceAs (Decidable (handle ∈ world.tab.intervals))

variable [Max V] [Min V]

/-- An answer arrives. -/
def receive (world : World V) (answer : Answer V) : World V :=
  { world with
    tab := after world.tab (.deliver answer.sent answer.response)
    opening :=
      match answer.sent.request.kind, answer.response with
      | .vals, .vals _ => some answer
      | _, _ => world.opening
    appended :=
      match answer.sent.request.kind with
      | .poll => world.appended ++ answer.rows
      | _ => world.appended }

def next (server : Server V) (world : World V) : Happening V → World V
  | .insert id val date => world.insert id val date
  | .evaluate sent => { world with answers := server.answer world.live sent :: world.answers }
  | .deliver sent =>
      match world.answerTo sent with
      | some answer => world.receive answer
      | none => world
  | .fail sent => { world with tab := after world.tab (.deliver sent .erreur) }
  | .tick handle => { world with tab := after world.tab (.tick handle) }

end World

/-- The page and the server together. -/
def session [Max V] [Min V] (server : Server V) : Machine (World V) (Happening V) where
  Enabled := World.Possible
  step := World.next server

instance [Max V] [Min V] (server : Server V) (world : World V) (event : Happening V) :
    Decidable ((session server).Enabled world event) :=
  inferInstanceAs (Decidable (world.Possible event))

/-! ## Answers -/

namespace Server

variable (server : Server V) (live : List (LiveRow V)) {sent : Sent}

theorem answer_sent (sent : Sent) :
    (server.answer live sent).sent = sent := by
  unfold answer
  split <;> first | rfl | (unfold valsAnswer; split <;> rfl)

theorem answer_table (sent : Sent) :
    (server.answer live sent).table = live := by
  unfold answer
  split <;> first | rfl | (unfold valsAnswer; split <;> rfl)

theorem answer_poll_rows {ID : Int} {date type : Text}
    (request : sent.request = .getIndiceNewVals ID (some date) type) :
    (server.answer live sent).rows = newRows server.instant ID date live := by
  simp only [answer, request, pollAnswer, Option.getD_some]

/-- An answer to `getIndiceVals` is an error, or it has the rows of the files and then the
sampled rows of the table. -/
theorem answer_vals {ID : Int} {TIME : Time} {type : Text}
    (request : sent.request = .getIndiceVals ID TIME type) :
    (server.answer live sent).response = .erreur ∨
      ∃ files modulo,
        (files = [] ∨ filesVals server.parseDouble ID
          (periodFiles TIME.text server.curYear server.curMonth) server.directory = some files) ∧
        getModulo ID live = some modulo ∧
        (server.answer live sent).rows = sampledRows server.instant ID modulo live ∧
        (server.answer live sent).response =
          .vals (files ++ (sampledRows server.instant ID modulo live).map LiveRow.send) := by
  simp only [answer, request, valsAnswer]
  split
  · rename_i indices modulo computed stride
    obtain ⟨files, other, read, sameStride, rfl⟩ := getIndicesVals_eq_some _ computed
    obtain rfl := Option.some.inj (sameStride.symm.trans stride)
    exact .inr ⟨files, other, read, stride, rfl, rfl⟩
  · exact .inl rfl

end Server

/-! ## Sessions -/

/-- The requests of a page for one instrument. -/
inductive Asks (indice : IndiceModule) : Request → Prop
  | total (type : Text) : Asks indice (.getTotal indice.id type)
  | vals (TIME : Time) (type : Text) : Asks indice (.getIndiceVals indice.id TIME type)
  | poll (date type : Text) : Asks indice (.getIndiceNewVals indice.id (some date) type)

def isVals (sent : Sent) : Bool := sent.request.kind = .vals

/-- A page for one instrument, its table and its answers. -/
structure InSession (server : Server V) (indice : IndiceModule) (world : World V) : Prop where
  loaded : Loaded world.tab
  selected : world.tab.component.indiceSelected = some indice
  ordered : world.live.Pairwise fun first second => first.num < second.num
  below : ∀ row ∈ world.live, row.num < world.live.length
  evaluated : ∀ answer ∈ world.answers, ∃ table, table <+: world.live ∧
    answer = server.answer table answer.sent
  asks : ∀ sent ∈ world.tab.pending, Asks indice sent.request
  numbered : ∀ sent ∈ world.tab.pending, sent.num < world.tab.sent.length
  answered : ∀ answer ∈ world.answers, answer.sent.num < world.tab.sent.length
  dated : world.tab.intervals ≠ [] → ∃ date, world.tab.component.maxDate = some date
  closed : world.opening = none → world.appended = [] ∧ world.tab.intervals = [] ∧
    ∀ sent ∈ world.tab.pending, sent.request.kind ≠ .poll
  once : (world.tab.pending.filter isVals).length ≤ if world.opening = none then 1 else 0
  chart : ∀ answer, world.opening = some answer →
    ∃ files, answer.response = .vals (files ++ answer.rows.map LiveRow.send) ∧
      world.tab.component.chartDatasets =
        some (files.map IndiceVal.val ++ world.shown.map LiveRow.val)

/-- A request that has an answer was sent before. -/
theorem InSession.num_lt {server : Server V} {indice : IndiceModule} {world : World V}
    (inSession : InSession server indice world) {sent : Sent} {answer : Answer V}
    (isAnswer : world.answerTo sent = some answer) : sent.num < world.tab.sent.length := by
  have same : answer.sent = sent := by simpa using List.find?_some isAnswer
  rw [← same]
  exact inSession.answered answer (List.mem_of_find?_eq_some isAnswer)

/-- The start of a session: an instrument is selected, and the requests for its numbers and its
values are on their way. -/
structure Start (indice : IndiceModule) (world : World V) : Prop where
  loaded : Loaded world.tab
  selected : world.tab.component.indiceSelected = some indice
  ordered : world.live.Pairwise fun first second => first.num < second.num
  below : ∀ row ∈ world.live, row.num < world.live.length
  unanswered : world.answers = [] ∧ world.opening = none ∧ world.appended = []
  idle : world.tab.intervals = []
  numbered : ∀ sent ∈ world.tab.pending, sent.num < world.tab.sent.length
  pending : ∃ total vals type TIME, world.tab.pending = [total, vals] ∧
    total.request = .getTotal indice.id type ∧ vals.request = .getIndiceVals indice.id TIME type

theorem Start.inSession (server : Server V) {indice : IndiceModule} {world : World V}
    (start : Start indice world) : InSession server indice world := by
  obtain ⟨total, vals, type, TIME, pending, isTotal, hasVals⟩ := start.pending
  obtain ⟨noAnswer, unopened, noneAppended⟩ := start.unanswered
  have both : ∀ sent ∈ world.tab.pending, sent = total ∨ sent = vals := by
    intro sent waiting
    simpa [pending] using waiting
  refine ⟨start.loaded, start.selected, start.ordered, start.below, ?_, ?_, start.numbered, ?_, ?_,
    ?_, ?_, ?_⟩
  · intro answer member
    rw [noAnswer] at member
    cases member
  · intro sent waiting
    rcases both sent waiting with rfl | rfl
    · rw [isTotal]
      exact .total type
    · rw [hasVals]
      exact .vals TIME type
  · intro answer member
    rw [noAnswer] at member
    cases member
  · intro polling
    exact absurd start.idle polling
  · intro _
    refine ⟨noneAppended, start.idle, ?_⟩
    intro sent waiting poll
    rcases both sent waiting with rfl | rfl
    · rw [isTotal] at poll
      cases poll
    · rw [hasVals] at poll
      cases poll
  · simp [pending, unopened, isVals, isTotal, hasVals, Request.kind]
  · intro answer opened
    rw [unopened] at opened
    cases opened

/-- The answer to a request that was evaluated on a table is delivered. -/
structure Delivery (server : Server V) (world : World V) (sent : Sent) (table : List (LiveRow V)) :
    Prop where
  waiting : sent ∈ world.tab.pending
  evaluated : world.answerTo sent = some (server.answer table sent)
  earlier : table <+: world.live

section Turns

variable [Max V] [Min V]

/-- What can happen in a session. -/
inductive Turn (server : Server V) (indice : IndiceModule) (world : World V) :
    Happening V → World V → Prop
  | insert (id : Option Int) (val : V) (date : Text) :
      Turn server indice world (.insert id val date) (world.insert id val date)
  | evaluate (sent : Sent) (waiting : sent ∈ world.tab.pending) :
      Turn server indice world (.evaluate sent)
        { world with answers := server.answer world.live sent :: world.answers }
  | tick (handle : Nat) (active : handle ∈ world.tab.intervals) (date : Text)
      (cursor : world.tab.component.maxDate = some date) :
      Turn server indice world (.tick handle)
        { world with
          tab :=
            { world.tab with
              component :=
                { world.tab.component with count := world.tab.component.count + 1 } }.send
              (.getIndiceNewVals indice.id (some date) world.tab.component.type) }
  | fail (sent : Sent) (waiting : sent ∈ world.tab.pending) :
      Turn server indice world (.fail sent)
        { world with tab := world.tab.receive sent .erreur }
  | erreur (sent : Sent) (table : List (LiveRow V)) (delivery : Delivery server world sent table)
      (TIME : Time) (type : Text) (request : sent.request = .getIndiceVals indice.id TIME type)
      (response : (server.answer table sent).response = .erreur) :
      Turn server indice world (.deliver sent)
        { world with tab := world.tab.receive sent .erreur }
  | total (sent : Sent) (table : List (LiveRow V)) (delivery : Delivery server world sent table)
      (type : Text) (request : sent.request = .getTotal indice.id type)
      (tmp : List (Option Text))
      (totaux : getIndicesTotal indice.id server.curYear server.curMonth server.caughtTotal
        server.directory table = tmp) :
      Turn server indice world (.deliver sent)
        { world with
          tab :=
            { world.tab.receive sent (.totaux tmp) with
              component := { world.tab.component with numbers := totalNumbers tmp } } }
  | openEmpty (sent : Sent) (table : List (LiveRow V)) (delivery : Delivery server world sent table)
      (TIME : Time) (type : Text) (request : sent.request = .getIndiceVals indice.id TIME type)
      (response : (server.answer table sent).response = .vals [])
      (noRows : (server.answer table sent).rows = []) :
      Turn server indice world (.deliver sent)
        { world with
          tab :=
            { world.tab.receive sent (.vals []) with
              intervals := world.tab.cleared
              component :=
                { world.tab.component with chartDatasets := some [], chartLabels := some [] } }
          opening := some (server.answer table sent) }
  | opens (sent : Sent) (table : List (LiveRow V)) (delivery : Delivery server world sent table)
      (TIME : Time) (type : Text) (request : sent.request = .getIndiceVals indice.id TIME type)
      (files : List (IndiceVal V)) (modulo : Nat) (last : IndiceVal V)
      (read : files = [] ∨ filesVals server.parseDouble indice.id
        (periodFiles TIME.text server.curYear server.curMonth) server.directory = some files)
      (stride : getModulo indice.id table = some modulo) (rows : List (LiveRow V))
      (sampled : sampledRows server.instant indice.id modulo table = rows)
      (sameRows : (server.answer table sent).rows = rows)
      (response : (server.answer table sent).response = .vals (files ++ rows.map LiveRow.send))
      (lastOf : (files ++ rows.map LiveRow.send).getLast? = some last) :
      Turn server indice world (.deliver sent)
        { world with
          tab := (world.tab.receive sent (.vals (files ++ rows.map LiveRow.send))).replaced
            (files ++ rows.map LiveRow.send) last
          opening := some (server.answer table sent) }
  | pollEmpty (sent : Sent) (table : List (LiveRow V)) (delivery : Delivery server world sent table)
      (date type : Text) (request : sent.request = .getIndiceNewVals indice.id (some date) type)
      (noRows : newRows server.instant indice.id date table = []) :
      Turn server indice world (.deliver sent)
        { world with tab := world.tab.receive sent (.vals []) }
  | poll (sent : Sent) (table : List (LiveRow V)) (delivery : Delivery server world sent table)
      (date type : Text) (request : sent.request = .getIndiceNewVals indice.id (some date) type)
      (rows : List (LiveRow V)) (last : LiveRow V) (data : List V) (labels : List Text)
      (news : newRows server.instant indice.id date table = rows)
      (lastOf : rows.getLast? = some last)
      (datasets : world.tab.component.chartDatasets = some data)
      (labelled : world.tab.component.chartLabels = some labels) :
      Turn server indice world (.deliver sent)
        { world with
          tab := (world.tab.receive sent (.vals (rows.map LiveRow.send))).extended data labels
            (rows.map LiveRow.send) last.send
          appended := world.appended ++ rows }

variable {server : Server V} {indice : IndiceModule} {world : World V}

section Deliveries

variable {sent : Sent} {table : List (LiveRow V)} {type : Text}

theorem Delivery.total (delivery : Delivery server world sent table)
    (request : sent.request = .getTotal indice.id type) :
    Turn server indice world (.deliver sent) (world.receive (server.answer table sent)) := by
  have kind : sent.request.kind = .total := by rw [request]; rfl
  have turn := Turn.total sent table delivery type request _ rfl
  rw [← after_total world.tab kind] at turn
  simpa only [World.receive, Server.answer_sent, Server.answer, request, Request.kind] using turn

theorem Delivery.vals (delivery : Delivery server world sent table) {TIME : Time}
    (request : sent.request = .getIndiceVals indice.id TIME type) :
    Turn server indice world (.deliver sent) (world.receive (server.answer table sent)) := by
  have kind : sent.request.kind = .vals := by rw [request]; rfl
  rcases server.answer_vals table request with
    failed | ⟨files, modulo, read, stride, rows, response⟩
  · have turn : Turn server indice world _ _ := .erreur sent table delivery TIME type request failed
    rw [← after_erreur] at turn
    simpa only [World.receive, Server.answer_sent, kind, failed] using turn
  · cases lastOf : (files ++
        (sampledRows server.instant indice.id modulo table).map LiveRow.send).getLast? with
    | none =>
        have empty := List.getLast?_eq_none_iff.mp lastOf
        obtain ⟨-, noRows⟩ := List.append_eq_nil_iff.mp empty
        rw [empty] at response
        have turn : Turn server indice world _ _ := .openEmpty sent table delivery TIME type request
          response (rows.trans (List.map_eq_nil_iff.mp noRows))
        rw [← after_vals_nil world.tab kind] at turn
        simpa only [World.receive, Server.answer_sent, kind, response] using turn
    | some last =>
        have turn : Turn server indice world _ _ := .opens sent table delivery TIME type request
          files modulo last read stride _ rfl rows response lastOf
        rw [← after_vals world.tab kind lastOf] at turn
        simpa only [World.receive, Server.answer_sent, kind, response] using turn

theorem Delivery.poll (inSession : InSession server indice world)
    (delivery : Delivery server world sent table) {date : Text}
    (request : sent.request = .getIndiceNewVals indice.id (some date) type) :
    Turn server indice world (.deliver sent) (world.receive (server.answer table sent)) := by
  have kind : sent.request.kind = .poll := by rw [request]; rfl
  obtain ⟨data, labels, datasets, labelled⟩ := inSession.loaded.chart_of_poll delivery.waiting kind
  cases lastOf : (newRows server.instant indice.id date table).getLast? with
  | none =>
      have noRows := List.getLast?_eq_none_iff.mp lastOf
      have turn := Turn.pollEmpty sent table delivery date type request noRows
      rw [← after_poll_nil world.tab kind] at turn
      simpa only [World.receive, Server.answer_sent, Server.answer, request, Request.kind,
        Server.pollAnswer, getIndicesNewVals, Option.getD_some, noRows, List.map_nil,
        List.append_nil] using turn
  | some last =>
      have turn := Turn.poll sent table delivery date type request _ last data labels rfl lastOf
        datasets labelled
      have lastSent : ((newRows server.instant indice.id date table).map LiveRow.send).getLast? =
          some last.send := by
        rw [List.getLast?_map, lastOf, Option.map_some]
      rw [← after_poll kind lastSent datasets labelled] at turn
      simpa only [World.receive, Server.answer_sent, Server.answer, request, Request.kind,
        Server.pollAnswer, getIndicesNewVals, Option.getD_some] using turn

end Deliveries

/-- **What happens in a session** is one of the turns. -/
theorem InSession.turn (inSession : InSession server indice world) {event : Happening V}
    (possible : world.Possible event) :
    Turn server indice world event (world.next server event) := by
  cases event with
  | insert id val date => exact .insert id val date
  | evaluate sent => exact .evaluate sent possible.1
  | tick handle =>
      obtain ⟨date, cursor⟩ := inSession.dated (List.ne_nil_of_mem possible)
      rw [World.next, after_tick inSession.selected, cursor]
      exact .tick handle possible date cursor
  | fail sent =>
      rw [World.next, after_erreur]
      exact .fail sent possible
  | deliver sent =>
      obtain ⟨waiting, found⟩ := possible
      obtain ⟨answer, isAnswer⟩ := Option.ne_none_iff_exists'.mp found
      have member := List.mem_of_find?_eq_some isAnswer
      have same : answer.sent = sent := by simpa using List.find?_some isAnswer
      obtain ⟨table, earlier, evaluated⟩ := inSession.evaluated answer member
      rw [same] at evaluated
      subst evaluated
      have delivery : Delivery server world sent table := ⟨waiting, isAnswer, earlier⟩
      have delivered : world.next server (.deliver sent) =
          world.receive (server.answer table sent) := by
        simp only [World.next, isAnswer]
      rw [delivered]
      have asks := inSession.asks sent waiting
      generalize request : sent.request = asked at asks
      cases asks with
      | total type => exact delivery.total request
      | vals TIME type => exact delivery.vals request
      | poll date type => exact delivery.poll inSession request

/-! ## The turns keep the session -/

omit [Max V] [Min V] in
/-- A poll is answered after the chart was opened. -/
theorem InSession.opened (inSession : InSession server indice world) {sent : Sent}
    (waiting : sent ∈ world.tab.pending) (poll : sent.request.kind = .poll) :
    ∃ answer, world.opening = some answer := by
  cases opening : world.opening with
  | none => exact absurd poll ((inSession.closed opening).2.2 sent waiting)
  | some answer => exact ⟨answer, rfl⟩

omit [Max V] [Min V] in
/-- An answer to the request that opens the chart comes when it is not open. -/
theorem InSession.unopened (inSession : InSession server indice world) {sent : Sent}
    (waiting : sent ∈ world.tab.pending) (vals : sent.request.kind = .vals) :
    world.opening = none ∧ world.appended = [] ∧ world.tab.intervals = [] ∧
      ((world.tab.pending.erase sent).filter isVals).length = 0 ∧
      ∀ other ∈ world.tab.pending, other.request.kind ≠ .poll := by
  have isOne : sent ∈ world.tab.pending.filter isVals :=
    List.mem_filter.mpr ⟨waiting, decide_eq_true vals⟩
  have positive := List.length_pos_of_mem isOne
  have once := inSession.once
  have unopened : world.opening = none := by
    by_contra opened
    rw [if_neg opened] at once
    omega
  rw [if_pos unopened] at once
  obtain ⟨noneAppended, idle, noPoll⟩ := inSession.closed unopened
  refine ⟨unopened, noneAppended, idle, ?_, noPoll⟩
  rw [← List.erase_filter, List.length_erase_of_mem isOne]
  omega

omit [Max V] [Min V] in
/-- An answer that does not open the chart. -/
theorem InSession.unchanged (inSession : InSession server indice world) {world' : World V}
    {sent : Sent} (loaded : Loaded world'.tab)
    (selected : world'.tab.component.indiceSelected = world.tab.component.indiceSelected)
    (live : world'.live = world.live) (answers : world'.answers = world.answers)
    (opening : world'.opening = world.opening)
    (pending : world'.tab.pending = world.tab.pending.erase sent)
    (allSent : world'.tab.sent = world.tab.sent)
    (intervals : world'.tab.intervals = world.tab.intervals)
    (dated : world'.tab.component.maxDate = world.tab.component.maxDate ∨
      ∃ date, world'.tab.component.maxDate = some date)
    (appended : world.opening = none → world'.appended = world.appended)
    (chart : ∀ answer (files : List (IndiceVal V)), world.opening = some answer →
      world.tab.component.chartDatasets =
        some (files.map IndiceVal.val ++ world.shown.map LiveRow.val) →
      world'.tab.component.chartDatasets =
        some (files.map IndiceVal.val ++ world'.shown.map LiveRow.val)) :
    InSession server indice world' := by
  have fewer : ∀ other ∈ world'.tab.pending, other ∈ world.tab.pending := by
    intro other waiting
    rw [pending] at waiting
    exact List.mem_of_mem_erase waiting
  refine ⟨loaded, selected.trans inSession.selected, ?_, ?_, ?_, ?_, ?_, ?_, ?_, ?_, ?_, ?_⟩
  · rw [live]
    exact inSession.ordered
  · rw [live]
    exact inSession.below
  · rw [live, answers]
    exact inSession.evaluated
  · exact fun other waiting => inSession.asks other (fewer other waiting)
  · rw [allSent]
    exact fun other waiting => inSession.numbered other (fewer other waiting)
  · rw [allSent, answers]
    exact inSession.answered
  · intro polling
    rw [intervals] at polling
    rcases dated with same | date
    · rw [same]
      exact inSession.dated polling
    · exact date
  · intro unopened
    rw [opening] at unopened
    obtain ⟨noneAppended, idle, noPoll⟩ := inSession.closed unopened
    exact ⟨(appended unopened).trans noneAppended, intervals.trans idle, fun other waiting =>
      noPoll other (fewer other waiting)⟩
  · rw [opening, pending]
    exact le_trans ((List.erase_sublist.filter isVals).length_le) inSession.once
  · intro answer isOpening
    rw [opening] at isOpening
    obtain ⟨files, response, datasets⟩ := inSession.chart answer isOpening
    exact ⟨files, response, chart answer files isOpening datasets⟩

omit [Max V] [Min V] in
/-- The answer that opens the chart. -/
theorem InSession.opens (inSession : InSession server indice world) {sent : Sent}
    (waiting : sent ∈ world.tab.pending) (vals : sent.request.kind = .vals) {tab : Tab V}
    (loaded : Loaded tab)
    (selected : tab.component.indiceSelected = world.tab.component.indiceSelected)
    (pending : tab.pending = world.tab.pending.erase sent) (allSent : tab.sent = world.tab.sent)
    (dated : tab.intervals ≠ [] → ∃ date, tab.component.maxDate = some date) {answer : Answer V}
    (files : List (IndiceVal V))
    (response : answer.response = .vals (files ++ answer.rows.map LiveRow.send))
    (chart : tab.component.chartDatasets =
      some (files.map IndiceVal.val ++ answer.rows.map LiveRow.val)) :
    InSession server indice { world with tab := tab, opening := some answer } := by
  obtain ⟨-, noneAppended, -, noVals, -⟩ := inSession.unopened waiting vals
  have fewer : ∀ other ∈ tab.pending, other ∈ world.tab.pending := by
    intro other waiting
    rw [pending] at waiting
    exact List.mem_of_mem_erase waiting
  refine ⟨loaded, selected.trans inSession.selected, inSession.ordered, inSession.below,
    inSession.evaluated, ?_, ?_, ?_, dated, ?_, ?_, ?_⟩
  · exact fun other waiting => inSession.asks other (fewer other waiting)
  · rw [allSent]
    exact fun other waiting => inSession.numbered other (fewer other waiting)
  · rw [allSent]
    exact inSession.answered
  · exact fun unopened => absurd unopened (Option.some_ne_none _)
  · rw [if_neg (Option.some_ne_none _), pending]
    exact noVals.le
  · rintro _ ⟨⟩
    refine ⟨files, response, chart.trans ?_⟩
    simp only [World.shown, noneAppended, List.append_nil, Option.map_some, Option.getD_some]

omit [Max V] [Min V] in
theorem InSession.insert (inSession : InSession server indice world) (id : Option Int) (val : V)
    (date : Text) : InSession server indice (world.insert id val date) := by
  refine ⟨inSession.loaded, inSession.selected, ?_, ?_, ?_, inSession.asks, inSession.numbered,
    inSession.answered, inSession.dated, inSession.closed, inSession.once, inSession.chart⟩
  · apply List.pairwise_append.mpr
    refine ⟨inSession.ordered, List.pairwise_singleton _ _, ?_⟩
    intro row member other isNew
    obtain rfl := List.mem_singleton.mp isNew
    exact inSession.below row member
  · intro row member
    rw [World.insert, List.length_append, List.length_singleton]
    rcases List.mem_append.mp member with before | isNew
    · exact Nat.lt_succ_of_lt (inSession.below row before)
    · obtain rfl := List.mem_singleton.mp isNew
      exact Nat.lt_succ_self _
  · intro answer member
    obtain ⟨table, earlier, evaluated⟩ := inSession.evaluated answer member
    exact ⟨table, earlier.trans (List.prefix_append _ _), evaluated⟩

omit [Max V] [Min V] in
theorem InSession.evaluate (inSession : InSession server indice world) {sent : Sent}
    (waiting : sent ∈ world.tab.pending) :
    InSession server indice
      { world with answers := server.answer world.live sent :: world.answers } := by
  refine ⟨inSession.loaded, inSession.selected, inSession.ordered, inSession.below, ?_,
    inSession.asks, inSession.numbered, ?_, inSession.dated, inSession.closed, inSession.once,
    inSession.chart⟩
  · intro answer member
    rcases List.mem_cons.mp member with rfl | before
    · exact ⟨world.live, List.prefix_rfl, by rw [Server.answer_sent]⟩
    · exact inSession.evaluated answer before
  · intro answer member
    rcases List.mem_cons.mp member with rfl | before
    · rw [Server.answer_sent]
      exact inSession.numbered sent waiting
    · exact inSession.answered answer before

/-- A tick counts and sends a poll. -/
theorem InSession.tick (inSession : InSession server indice world) {handle : Nat}
    (active : handle ∈ world.tab.intervals) {date : Text}
    (cursor : world.tab.component.maxDate = some date) :
    InSession server indice
      { world with
        tab :=
          { world.tab with
            component :=
              { world.tab.component with count := world.tab.component.count + 1 } }.send
            (.getIndiceNewVals indice.id (some date) world.tab.component.type) } := by
  have opened : world.opening ≠ none := by
    intro unopened
    rw [(inSession.closed unopened).2.1] at active
    cases active
  have loaded := (Effect.tick handle active indice inSession.selected).loaded inSession.loaded
  rw [cursor] at loaded
  refine ⟨loaded, inSession.selected, inSession.ordered, inSession.below, inSession.evaluated, ?_,
    ?_, ?_, inSession.dated, fun unopened => absurd unopened opened, ?_, inSession.chart⟩
  · intro sent waiting
    rcases mem_pending_send.mp waiting with before | rfl
    · exact inSession.asks sent before
    · exact .poll date world.tab.component.type
  · intro sent waiting
    rcases mem_pending_send.mp waiting with before | rfl
    · exact Nat.lt_succ_of_lt (inSession.numbered sent before)
    · exact Nat.lt_succ_self _
  · exact fun answer member => Nat.lt_succ_of_lt (inSession.answered answer member)
  · have once := inSession.once
    simpa [Tab.send, isVals, Request.kind] using once

theorem Turn.inSession {event : Happening V} {world' : World V}
    (inSession : InSession server indice world) (turn : Turn server indice world event world') :
    InSession server indice world' := by
  cases turn with
  | insert id val date => exact inSession.insert id val date
  | evaluate sent waiting => exact inSession.evaluate waiting
  | tick handle active date cursor => exact inSession.tick active cursor
  | fail sent waiting =>
      exact inSession.unchanged (inSession.loaded.receive sent .erreur) rfl rfl rfl rfl rfl rfl rfl
        (.inl rfl) (fun _ => rfl) fun _ _ _ datasets => datasets
  | erreur sent table delivery TIME type request response =>
      exact inSession.unchanged (inSession.loaded.receive sent .erreur) rfl rfl rfl rfl rfl rfl rfl
        (.inl rfl) (fun _ => rfl) fun _ _ _ datasets => datasets
  | total sent table delivery type request tmp totaux =>
      have kind : sent.request.kind = .total := by rw [request]; rfl
      have loaded := (Effect.total sent tmp delivery.waiting kind).loaded inSession.loaded
      exact inSession.unchanged loaded rfl rfl rfl rfl rfl rfl rfl (.inl rfl) (fun _ => rfl)
        fun _ _ _ datasets => datasets
  | openEmpty sent table delivery TIME type request response noRows =>
      have kind : sent.request.kind = .vals := by rw [request]; rfl
      have loaded := (Effect.emptyChart sent delivery.waiting kind).loaded inSession.loaded
      obtain ⟨-, -, idle, -⟩ := inSession.unopened delivery.waiting kind
      refine inSession.opens delivery.waiting kind loaded rfl rfl rfl ?_ [] ?_ ?_
      · intro polling
        simp [Tab.cleared, idle] at polling
      · rw [response, noRows, List.map_nil, List.append_nil]
      · rw [noRows]
        rfl
  | opens sent table delivery TIME type request files modulo last read stride rows sampled sameRows
      response lastOf =>
      have kind : sent.request.kind = .vals := by rw [request]; rfl
      have loaded := (Effect.chart sent _ last delivery.waiting kind lastOf).loaded inSession.loaded
      refine inSession.opens delivery.waiting kind loaded rfl rfl rfl ?_ files ?_ ?_
      · exact fun _ => ⟨last.date, rfl⟩
      · rw [response, sameRows]
      · simp [sameRows, Tab.replaced, LiveRow.send, Function.comp_def]
  | pollEmpty sent table delivery date type request noRows =>
      exact inSession.unchanged (inSession.loaded.receive sent (.vals [])) rfl rfl rfl rfl rfl rfl
        rfl (.inl rfl) (fun _ => rfl) fun _ _ _ datasets => datasets
  | poll sent table delivery date type request rows last data labels news lastOf datasets
      labelled =>
      have kind : sent.request.kind = .poll := by rw [request]; rfl
      have lastSent : (rows.map LiveRow.send).getLast? = some last.send := by
        rw [List.getLast?_map, lastOf, Option.map_some]
      have loaded := (Effect.append sent _ last.send data labels delivery.waiting kind lastSent
        datasets labelled).loaded inSession.loaded
      obtain ⟨answer, opened⟩ := inSession.opened delivery.waiting kind
      refine inSession.unchanged loaded rfl rfl rfl rfl rfl rfl rfl (.inr ⟨last.date, rfl⟩) ?_ ?_
      · intro unopened
        rw [opened] at unopened
        cases unopened
      · intro answer files opening shown
        obtain rfl := Option.some.inj (datasets.symm.trans shown)
        simp [World.shown, Tab.extended, LiveRow.send, Function.comp_def, List.append_assoc]

/-- **A session lasts.** -/
theorem InSession.run {events : List (Happening V)}
    (valid : (session server).Valid world events) (start : InSession server indice world) :
    InSession server indice ((session server).run world events) :=
  valid.run (fun _ _ inSession possible => (inSession.turn possible).inSession inSession) start

end Turns

/-! ## A session -/

/-- The seconds of a date, for dates of one minute. -/
def secondsOf (date : Text) : Int := Nat.ofDigitChars 10 ((date.drop 17).take 2) 0

/-- A server without files. -/
def emptyServer : Server Int where
  parseDouble _ := none
  instant := secondsOf
  directory := []
  indices := [⟨1, "CAC 40".toList⟩]
  curYear := 2019
  curMonth := 4
  caughtVals := false
  caughtTotal _ := false

/-- A page that has asked for its only instrument. -/
def firstTab : Tab Int :=
  (page Int).run {}
    [.ngOnInit "cfd".toList,
      .deliver ⟨0, .getIndice "cfd".toList, .allTime⟩ (.indices [⟨1, "CAC 40".toList⟩])]

def totalSent : Sent := ⟨1, .getTotal 1 "cfd".toList, .allTime⟩

def valsSent : Sent := ⟨2, .getIndiceVals 1 .allTime "cfd".toList, .allTime⟩

def pollSent (num : Nat) (date : String) : Sent :=
  ⟨num, .getIndiceNewVals 1 (some date.toList) "cfd".toList, .allTime⟩

theorem loaded_firstTab : Loaded firstTab := ⟨⟨_, rfl⟩, by decide, by decide, by decide, rfl⟩

theorem start_firstTab {live : List (LiveRow Int)}
    (ordered : live.Pairwise fun first second => first.num < second.num)
    (below : ∀ row ∈ live, row.num < live.length) :
    Start ⟨1, "CAC 40".toList⟩ { tab := firstTab, live := live } where
  loaded := loaded_firstTab
  selected := rfl
  ordered := ordered
  below := below
  unanswered := ⟨rfl, rfl, rfl⟩
  idle := rfl
  numbered := (by decide : ∀ sent ∈ firstTab.pending, sent.num < firstTab.sent.length)
  pending := ⟨totalSent, valsSent, "cfd".toList, .allTime, rfl, rfl, rfl⟩

/-- The row that the chart opens with. -/
def openingRow : List (LiveRow Int) := [⟨0, some 1, 5400, "2019-04-11 11:15:29.0".toList⟩]

end Trading.Front
