import Mathlib.Order.Bounds.Defs
import Mathlib.Order.MinMax
import Trading.Front.Pollers

/-!
# The chart and its answers

What the page shows is a function of the answers that it has handled: the last answer that
replaced the chart, and the polls with values since then (`series`). With it the labels and the
values are those of the same rows, and the extremes are those of the values
(`chart_representation`), also after the handler of an answer without values was left by an
exception: the extremes are then those of an earlier chart, but there are no values.

That handler stops half-way, and so does the one of a list without instruments. In every run
the answers are handled to their ends exactly when there is no such answer
(`handlers_complete_iff`).
-/

set_option autoImplicit false

namespace Trading.Front

open Trading.Dao (IndiceVal)
open Trading.Runs

variable {V : Type}

/-! ## What the answers amount to -/

namespace Handled

/-- The values of an answer. -/
def rows (answer : Handled V) : List (IndiceVal V) :=
  match answer.response with
  | .vals tmp => tmp
  | _ => []

/-- An answer that replaces the chart. -/
def charts (answer : Handled V) : Bool :=
  match answer.response with
  | .vals _ => answer.sent.request.kind = .vals
  | _ => false

/-- An answer that replaces the numbers. -/
def counts (answer : Handled V) : Bool :=
  match answer.response with
  | .totaux _ => answer.sent.request.kind = .total
  | _ => false

/-- A poll with values. -/
def appends (answer : Handled V) : Bool :=
  answer.sent.request.kind = .poll && !answer.rows.isEmpty

theorem charts_eq_false (answer : Handled V) (other : answer.sent.request.kind ≠ .vals) :
    answer.charts = false := by
  unfold charts
  split
  · exact decide_eq_false other
  · rfl

theorem appends_eq_false (answer : Handled V) (other : answer.sent.request.kind ≠ .poll) :
    answer.appends = false := by
  simp [appends, other]

theorem charts_vals {sent : Sent} (request : sent.request.kind = .vals) (tmp : List (IndiceVal V))
    (time : Time) : charts ⟨sent, .vals tmp, time⟩ = true :=
  decide_eq_true request

theorem appends_vals {sent : Sent} (request : sent.request.kind = .poll)
    {tmp : List (IndiceVal V)} {last : IndiceVal V} (lastOf : tmp.getLast? = some last)
    (time : Time) : appends ⟨sent, .vals tmp, time⟩ = true := by
  cases tmp with
  | nil => cases lastOf
  | cons first rest => simp [appends, rows, request]

end Handled

/-- The answers that matter since the last one that restarted, from the last one on. -/
def since (restarts : Handled V → Bool) : List (Handled V) → List (Handled V)
  | [] => []
  | answer :: older =>
      if restarts answer then [answer]
      else if answer.appends then answer :: since restarts older
      else since restarts older

/-- The answers that matter after one more answer. -/
theorem mem_since_cons {restarts : Handled V → Bool} {answer first : Handled V}
    {older : List (Handled V)} (member : answer ∈ since restarts (first :: older)) :
    (answer = first ∧ (restarts first || first.appends) = true) ∨
      (restarts first = false ∧ answer ∈ since restarts older) := by
  rw [since] at member
  split at member
  · rename_i restart
    exact .inl ⟨List.mem_singleton.mp member, by rw [restart, Bool.true_or]⟩
  · rename_i kept
    rw [Bool.not_eq_true] at kept
    split at member
    · rename_i appends
      rcases List.mem_cons.mp member with rfl | later
      · exact .inl ⟨rfl, by rw [appends, Bool.or_true]⟩
      · exact .inr ⟨kept, later⟩
    · exact .inr ⟨kept, member⟩

theorem mem_of_mem_since {restarts : Handled V → Bool} {answer : Handled V}
    {handled : List (Handled V)} (member : answer ∈ since restarts handled) : answer ∈ handled := by
  induction handled with
  | nil => exact member
  | cons first older ih =>
      rcases mem_since_cons member with ⟨rfl, -⟩ | ⟨-, later⟩
      · exact List.mem_cons_self
      · exact List.mem_cons_of_mem _ (ih later)

/-- An answer that restarted, if there was one, is among those that matter. -/
theorem exists_restart {restarts : Handled V → Bool} {answer : Handled V}
    {handled : List (Handled V)} (member : answer ∈ handled) (restart : restarts answer = true) :
    ∃ first ∈ since restarts handled, restarts first = true := by
  induction handled with
  | nil => cases member
  | cons last older ih =>
      rw [since]
      split
      · rename_i restart
        exact ⟨last, List.mem_singleton_self _, restart⟩
      · rename_i kept
        rcases List.mem_cons.mp member with rfl | before
        · exact absurd restart kept
        · obtain ⟨first, inSince, restart⟩ := ih before
          split
          · exact ⟨first, List.mem_cons_of_mem _ inSince, restart⟩
          · exact ⟨first, inSince, restart⟩

/-- A value of the chart: a row of an answer. -/
structure Point (V : Type) where
  answer : Handled V
  row : IndiceVal V

def Point.val (point : Point V) : V := point.row.val

/-- The label of a point, under the period that was selected when its answer was handled. -/
def Point.label (point : Point V) : Text := Front.label point.answer.time point.row.date

def Handled.points (answer : Handled V) : List (Point V) := answer.rows.map fun row => ⟨answer, row⟩

/-- The points that the answers amount to. -/
def series (handled : List (Handled V)) : List (Point V) :=
  (since Handled.charts handled).reverse.flatMap Handled.points

theorem mem_series {handled : List (Handled V)} {point : Point V}
    (member : point ∈ series handled) :
    point.answer ∈ since Handled.charts handled ∧ point.row ∈ point.answer.rows := by
  obtain ⟨answer, inSince, inAnswer⟩ := List.mem_flatMap.mp member
  obtain ⟨row, inRows, rfl⟩ := List.mem_map.mp inAnswer
  exact ⟨List.mem_reverse.mp inSince, inRows⟩

theorem series_charts {answer : Handled V} (charts : answer.charts = true)
    (handled : List (Handled V)) : series (answer :: handled) = answer.points := by
  simp [series, since, charts]

theorem series_appends {answer : Handled V} (appends : answer.appends = true)
    (handled : List (Handled V)) :
    series (answer :: handled) = series handled ++ answer.points := by
  have poll : answer.sent.request.kind = .poll := by
    simp only [Handled.appends, Bool.and_eq_true, decide_eq_true_eq] at appends
    exact appends.1
  have noChart := answer.charts_eq_false (by rw [poll]; decide)
  simp [series, since, noChart, appends]

theorem series_other {answer : Handled V} (noChart : answer.charts = false)
    (noPoll : answer.appends = false) (handled : List (Handled V)) :
    series (answer :: handled) = series handled := by
  simp [series, since, noChart, noPoll]

theorem map_val_points (answer : Handled V) :
    answer.points.map Point.val = answer.rows.map IndiceVal.val := by
  simp [Handled.points, Point.val, Function.comp_def]

theorem map_label_points (answer : Handled V) :
    answer.points.map Point.label = answer.rows.map fun o => label answer.time o.date := by
  simp [Handled.points, Point.label, Function.comp_def]

/-! ## The chart is what the answers amount to -/

/-- The fields of the chart. -/
structure Chart (V : Type) where
  data : Option (List V)
  labels : Option (List Text)
  maxVal : Option V
  minVal : Option V

def IndicesComponent.chart (component : IndicesComponent V) : Chart V :=
  ⟨component.chartDatasets, component.chartLabels, component.maxVal, component.minVal⟩

section Chart

variable [Max V] [Min V]

/-- A chart of points. -/
structure Shows (chart : Chart V) (points : List (Point V)) : Prop where
  data : chart.data = some (points.map Point.val)
  labels : chart.labels = some (points.map Point.label)
  maxVal : points ≠ [] → chart.maxVal = (points.map Point.val).max?
  minVal : points ≠ [] → chart.minVal = (points.map Point.val).min?

/-- There is no chart and there was no answer for one, or it shows what the answers amount to. -/
def Charted (tab : Tab V) : Prop :=
  (tab.component.chart.data = none ∧ ∀ answer ∈ tab.handled, answer.charts = false) ∨
    Shows tab.component.chart (series tab.handled)

variable {tab tab' : Tab V} {event : Event V} {thrown : Option TypeError}

/-- An answer that is not for the chart. -/
theorem Charted.other (charted : Charted tab) (answer : Handled V)
    (noChart : answer.charts = false) (noPoll : answer.appends = false) :
    (tab.component.chart.data = none ∧ ∀ other ∈ answer :: tab.handled, other.charts = false) ∨
      Shows tab.component.chart (series (answer :: tab.handled)) := by
  rw [series_other noChart noPoll]
  refine charted.imp ?_ id
  rintro ⟨none, before⟩
  exact ⟨none, List.forall_mem_cons.mpr ⟨noChart, before⟩⟩

theorem Effect.charted (charted : Charted tab) (effect : Effect tab event thrown tab') :
    Charted tab' := by
  cases effect with
  | init type first => exact charted
  | click indice member => exact charted
  | period time indice selected => exact charted
  | tick handle active indice selected => exact charted
  | destroy => exact charted
  | logged sent response waiting nothing =>
      apply charted.other
      · rcases nothing with rfl | ⟨request, rfl⟩
        · rfl
        · exact Handled.charts_eq_false _ (by rw [request]; decide)
      · rcases nothing with rfl | ⟨request, rfl⟩ <;> simp [Handled.appends, Handled.rows]
  | noIndice sent waiting request =>
      exact charted.other _ rfl (Handled.appends_eq_false _ (by rw [request]; decide))
  | indice sent first rest waiting request =>
      exact charted.other _ rfl (Handled.appends_eq_false _ (by rw [request]; decide))
  | total sent tmp waiting request =>
      exact charted.other _ rfl (Handled.appends_eq_false _ (by rw [request]; decide))
  | emptyChart sent waiting request =>
      have shown := series_charts (Handled.charts_vals request [] tab.component.timeSelected)
        tab.handled
      refine .inr ⟨?_, ?_, ?_, ?_⟩
      · exact congrArg (fun points => some (points.map Point.val)) shown.symm
      · exact congrArg (fun points => some (points.map Point.label)) shown.symm
      · exact absurd shown
      · exact absurd shown
  | chart sent tmp last waiting request lastOf =>
      have shown := series_charts (Handled.charts_vals request tmp tab.component.timeSelected)
        tab.handled
      have vals := congrArg (List.map Point.val) shown
      have labels := congrArg (List.map Point.label) shown
      rw [map_val_points] at vals
      rw [map_label_points] at labels
      exact .inr ⟨congrArg some vals.symm, congrArg some labels.symm,
        fun _ => congrArg List.max? vals.symm, fun _ => congrArg List.min? vals.symm⟩
  | append sent tmp last data labels waiting request lastOf datasets labelled =>
      obtain shows : Shows tab.component.chart (series tab.handled) := by
        rcases charted with ⟨none, -⟩ | shows
        · exact absurd (datasets.symm.trans none) nofun
        · exact shows
      obtain rfl := Option.some.inj (datasets.symm.trans shows.data)
      obtain rfl := Option.some.inj (labelled.symm.trans shows.labels)
      have shown := series_appends
        (Handled.appends_vals request lastOf tab.component.timeSelected) tab.handled
      have vals := congrArg (List.map Point.val) shown
      have labels := congrArg (List.map Point.label) shown
      rw [List.map_append, map_val_points] at vals
      rw [List.map_append, map_label_points] at labels
      exact .inr ⟨congrArg some vals.symm, congrArg some labels.symm,
        fun _ => congrArg List.max? vals.symm, fun _ => congrArg List.min? vals.symm⟩

/-- **In every run the chart shows what the handled answers amount to.** -/
theorem charted_run {events : List (Event V)} (valid : (page V).Valid {} events) :
    Charted ((page V).run {} events) := by
  have start : Charted ({} : Tab V) := .inl ⟨rfl, fun _ member => absurd member List.not_mem_nil⟩
  apply keeps_page ?_ valid start
  intro tab event thrown tab' _ charted effect
  exact effect.charted charted

end Chart

/-- **The chart represents rows of the server.** In every state of every run in which the chart
is defined, the labels and the values are those of the same rows, in the same order, each of
them from an answer that was handled: the label is `substring(11,16)` of the date of the row where
Today was selected, and `substring(0,16)` otherwise. When there are values, `maxVal` and `minVal`
are the greatest and the least of them. -/
theorem chart_representation [LinearOrder V] {events : List (Event V)}
    (valid : (page V).Valid {} events) {data : List V}
    (defined : ((page V).run {} events).component.chartDatasets = some data) :
    let tab := (page V).run {} events
    ∃ (labels : List Text) (points : List (Point V)),
      tab.component.chartLabels = some labels ∧ labels.length = data.length ∧
      data = points.map Point.val ∧ labels = points.map Point.label ∧
      (∀ point ∈ points, point.answer ∈ tab.handled ∧ point.row ∈ point.answer.rows) ∧
      (∀ point ∈ points, point.val = point.row.val ∧
        (point.answer.time = .today → point.label = (point.row.date.drop 11).take 5) ∧
        (point.answer.time ≠ .today → point.label = point.row.date.take 16)) ∧
      (data ≠ [] → ∃ greatest least, tab.component.maxVal = some greatest ∧
        tab.component.minVal = some least ∧ IsGreatest {val | val ∈ data} greatest ∧
        IsLeast {val | val ∈ data} least) := by
  intro tab
  obtain ⟨none, -⟩ | shows := charted_run valid
  · exact absurd (defined.symm.trans none) nofun
  obtain rfl := Option.some.inj (defined.symm.trans shows.data)
  refine ⟨_, series tab.handled, shows.labels, ?_, rfl, rfl, ?_, ?_, ?_⟩
  · rw [List.length_map, List.length_map]
  · intro point member
    obtain ⟨inSince, inRows⟩ := mem_series member
    exact ⟨mem_of_mem_since inSince, inRows⟩
  · exact fun point _ => ⟨rfl, fun today => if_pos today, fun other => if_neg other⟩
  · intro someVal
    have somePoint : series tab.handled ≠ [] := fun none => someVal (by
      rw [none, List.map_nil])
    obtain ⟨greatest, isMax⟩ := Option.isSome_iff_exists.mp (List.isSome_max?_iff.mpr someVal)
    obtain ⟨least, isMin⟩ := Option.isSome_iff_exists.mp (List.isSome_min?_iff.mpr someVal)
    refine ⟨greatest, least, (shows.maxVal somePoint).trans isMax,
      (shows.minVal somePoint).trans isMin, ?_, ?_⟩
    · exact List.max?_eq_some_iff.mp isMax
    · exact List.min?_eq_some_iff.mp isMin

/-- A chart with a poll. -/
theorem chart_representation_polling_page :
    ((page Int).run {} (pollingPage ++ [.tick 0, latePoll])).component.chartDatasets =
        some [12000, 12005] ∧
      ∃ labels, ((page Int).run {} (pollingPage ++ [.tick 0, latePoll])).component.chartLabels =
        some labels ∧ labels.length = 2 :=
  have defined : ((page Int).run {} (pollingPage ++ [.tick 0, latePoll])).component.chartDatasets =
      some [12000, 12005] := by decide
  have ⟨labels, _, chartLabels, same, _⟩ := chart_representation
    (by decide : (page Int).Valid {} (pollingPage ++ [.tick 0, latePoll])) defined
  ⟨defined, labels, chartLabels, same⟩

/-! ## Handlers that stop half-way -/

section Handlers

variable [Max V] [Min V]

/-- The fields that an answer to `getIndiceVals` is to set, and the dates and values that it
has for them. -/
def Describes (component : IndicesComponent V) (tmp : List (IndiceVal V)) : Prop :=
  component.chartDatasets = some (tmp.map IndiceVal.val) ∧
    component.chartLabels = some (tmp.map fun o => label component.timeSelected o.date) ∧
    component.maxVal = (tmp.map IndiceVal.val).max? ∧
    component.minVal = (tmp.map IndiceVal.val).min? ∧
    component.maxDate = tmp.getLast?.map IndiceVal.date

/-- An answer is handled to its end, and one for the chart sets all its fields. -/
def HandledWhole (tab : Tab V) : Event V → Prop
  | .deliver sent response =>
      exception tab (.deliver sent response) = none ∧
        ∀ tmp, response = .vals tmp → sent.request.kind = .vals →
          Describes (after tab (.deliver sent response)).component tmp
  | _ => True

/-- An answer with a list of instruments, or of values for a chart, has an entry. -/
def HasEntry : Event V → Prop
  | .deliver _ (.indices list) => list ≠ []
  | .deliver sent (.vals tmp) => sent.request.kind = .vals → tmp ≠ []
  | _ => True

theorem handledWhole_iff {tab : Tab V} {event : Event V} (sane : Sane tab)
    (enabled : Enabled tab event) : HandledWhole tab event ↔ HasEntry event := by
  have here := effect sane enabled
  cases event with
  | deliver sent response =>
      simp only [HandledWhole]
      generalize exception tab (.deliver sent response) = thrown at here ⊢
      generalize after tab (.deliver sent response) = tab' at here ⊢
      cases here with
      | logged _ _ waiting nothing =>
          rcases nothing with rfl | ⟨request, rfl⟩
          · exact ⟨fun _ => trivial, fun _ => ⟨rfl, nofun⟩⟩
          · have other : sent.request.kind ≠ .vals := by rw [request]; decide
            exact ⟨fun _ isVals => absurd isVals other, fun _ => ⟨rfl, fun _ _ isVals =>
              absurd isVals other⟩⟩
      | noIndice _ waiting request =>
          exact ⟨fun whole => absurd whole.1 nofun, fun some => absurd rfl some⟩
      | indice _ first rest waiting request =>
          exact ⟨fun _ => List.cons_ne_nil _ _, fun _ => ⟨rfl, nofun⟩⟩
      | total _ tmp waiting request => exact ⟨fun _ => trivial, fun _ => ⟨rfl, nofun⟩⟩
      | emptyChart _ waiting request =>
          exact ⟨fun whole => absurd whole.1 nofun, fun some => absurd rfl (some request)⟩
      | chart _ tmp last waiting request lastOf =>
          refine ⟨fun _ _ empty => ?_, fun _ => ⟨rfl, ?_⟩⟩
          · rw [empty] at lastOf
            cases lastOf
          · rintro _ ⟨⟩ _
            exact ⟨rfl, rfl, rfl, rfl, congrArg (Option.map IndiceVal.date) lastOf.symm⟩
      | append _ tmp last data labels waiting request lastOf datasets labelled =>
          have other : sent.request.kind ≠ .vals := by rw [request]; decide
          exact ⟨fun _ isVals => absurd isVals other, fun _ => ⟨rfl, fun _ _ isVals =>
            absurd isVals other⟩⟩
  | _ => exact Iff.rfl

/-- **When the handlers run to their ends.** In every run, every answer is handled to its end and
every answer to `getIndiceVals` sets all fields of the chart, exactly when no list of instruments
and no list of values for a chart is empty. -/
theorem handlers_complete_iff {events : List (Event V)} (valid : (page V).Valid {} events) :
    (page V).EachStep HandledWhole {} events ↔ ∀ event ∈ events, HasEntry event := by
  have all : (page V).EachStep (fun _ event => HasEntry event) {} events ↔
      ∀ event ∈ events, HasEntry event := Machine.eachStep_events ({} : Tab V) events
  rw [← all]
  apply Machine.eachStep_iff ?_ ?_ valid sane_start
  · intro tab event sane enabled
    exact handledWhole_iff sane enabled
  · intro tab event sane enabled _
    exact sane_step sane enabled

end Handlers

theorem handlers_complete_polling_page :
    (page Int).Valid {} pollingPage ∧ (page Int).EachStep HandledWhole {} pollingPage :=
  have entries : ∀ event ∈ pollingPage, HasEntry event := by
    simp [pollingPage, HasEntry]
  ⟨by decide, (handlers_complete_iff (by decide)).mpr entries⟩

/-- The first of two instruments is shown, and the second is selected. -/
def secondSelected : List (Event Int) :=
  [.ngOnInit "cfd".toList,
    .deliver ⟨0, .getIndice "cfd".toList, .allTime⟩
      (.indices [⟨1, "CAC 40".toList⟩, ⟨2, "DAX 30".toList⟩]),
    .deliver ⟨2, .getIndiceVals 1 .allTime "cfd".toList, .allTime⟩
      (.vals [⟨5400, "2019-04-11 11:15:29.0".toList⟩]),
    .clickIndice ⟨2, "DAX 30".toList⟩]

/-- **An instrument without values** throws after the chart was replaced: the extremes and the
last date of the first instrument stay beside the empty chart. -/
theorem empty_answer_leaves_extremes :
    let answer : Event Int :=
      .deliver ⟨4, .getIndiceVals 2 .allTime "cfd".toList, .allTime⟩ (.vals [])
    let tab := (page Int).run {} (secondSelected ++ [answer])
    (page Int).Valid {} (secondSelected ++ [answer]) ∧
      exception ((page Int).run {} secondSelected) answer = some .emptyReduce ∧
      tab.component.chartDatasets = some [] ∧ tab.component.maxVal = some 5400 ∧
      tab.component.minVal = some 5400 ∧
      tab.component.maxDate = some "2019-04-11 11:15:29.0".toList := by
  decide

end Trading.Front
