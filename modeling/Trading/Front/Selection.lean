import Trading.Front.Chart

/-!
# The selection and what is shown

The page sends its requests for the instrument and the period that are selected, and answers
come in any order. The chart and the numbers are two views of the answers. Each is asked for
anew when its selection changes, so what it shows belongs to the selection once its last request
is answered, as long as no answer for another selection is handled after that one. `Timely` says
so of a step, and `shows_selection` of every run whose steps are timely.

Nothing in the page makes the answers timely: an answer for an instrument that was left replaces
the chart of the one that is selected (`late_answer_shown`).
-/

set_option autoImplicit false

namespace Trading.Front

open Trading.Runs

variable {V : Type}

/-! ## Views -/

/-- The instrument that a request is for. -/
def Request.id : Request → Option Int
  | getIndice _ => none
  | getTotal ID _ => some ID
  | getIndiceVals ID _ _ => some ID
  | getIndiceNewVals ID _ _ => some ID

/-- The identifier that is selected. -/
def IndicesComponent.idSelected (component : IndicesComponent V) : Option Int :=
  component.indiceSelected.map IndiceModule.id

/-- A view of the answers: the kind of request that asks for it anew, the answers that restart
it, those of its answers that are seen, and when a request is for the selection. -/
structure View (V : Type) where
  kind : Kind
  restarts : Handled V → Bool
  seen : Handled V → Bool
  current : Option Int → Time → Sent → Bool

/-- The values of the chart. An answer without values is not seen. -/
def seriesView : View V where
  kind := .vals
  restarts := Handled.charts
  seen answer := !answer.rows.isEmpty
  current ID TIME sent := sent.request.id = ID && sent.time = TIME

/-- The numbers, which do not depend on the period. -/
def numbersView : View V where
  kind := .total
  restarts := Handled.counts
  seen _ := true
  current ID _ sent := sent.request.id = ID

/-- The last request of a kind. -/
def lastSent (kind : Kind) (tab : Tab V) : Option Sent :=
  tab.sent.find? fun sent => sent.request.kind = kind

def Response.isErreur : Response V → Bool
  | .erreur => true
  | _ => false

/-- The last request of a kind was answered without an error. -/
def answeredLast (kind : Kind) (tab : Tab V) : Bool :=
  (lastSent kind tab).any fun sent =>
    tab.handled.any fun answer => answer.sent = sent && !answer.response.isErreur

namespace View

/-- A request for the selection of a tab. -/
def Current (view : View V) (tab : Tab V) (sent : Sent) : Prop :=
  view.current tab.component.idSelected tab.component.timeSelected sent = true

/-- An answer that the view will show is for the selection, if the last request for the view has
been answered. -/
def Timely (view : View V) (tab : Tab V) (sent : Sent) (response : Response V) : Prop :=
  let answer : Handled V := ⟨sent, response, tab.component.timeSelected⟩
  answeredLast view.kind tab = true → (view.restarts answer || answer.appends) = true →
    view.seen answer = true → view.Current tab sent

instance (view : View V) (tab : Tab V) (sent : Sent) : Decidable (view.Current tab sent) :=
  inferInstanceAs (Decidable (_ = true))

instance (view : View V) (tab : Tab V) (sent : Sent) (response : Response V) :
    Decidable (view.Timely tab sent response) :=
  inferInstanceAs (Decidable (_ → _ → _ → view.Current tab sent))

/-- What a view shows is for the selection, once its last request is answered. -/
structure Tracks (view : View V) (tab : Tab V) : Prop where
  last : ∀ sent, lastSent view.kind tab = some sent → view.Current tab sent
  shown : answeredLast view.kind tab = true →
    ∀ answer ∈ since view.restarts tab.handled, view.seen answer = true →
      view.Current tab answer.sent

end View

/-- Requests are numbered, and only requests that were sent are answered. -/
structure Numbered (tab : Tab V) : Prop where
  below : ∀ sent ∈ tab.sent, sent.num < tab.sent.length
  waiting : ∀ sent ∈ tab.pending, sent ∈ tab.sent
  answered : ∀ answer ∈ tab.handled, answer.sent ∈ tab.sent
  kinds : ∀ answer ∈ tab.handled, fits answer.sent.request answer.response = true

/-! ## Requests -/

theorem Numbered.send {tab : Tab V} (numbered : Numbered tab) (request : Request) :
    Numbered (tab.send request) where
  below := by
    intro sent member
    rcases List.mem_cons.mp member with rfl | before
    · exact Nat.lt_succ_self _
    · exact Nat.lt_succ_of_lt (numbered.below sent before)
  waiting := by
    intro sent member
    rcases mem_pending_send.mp member with before | rfl
    · exact List.mem_cons_of_mem _ (numbered.waiting sent before)
    · exact List.mem_cons_self
  answered := fun answer member => List.mem_cons_of_mem _ (numbered.answered answer member)
  kinds := numbered.kinds

theorem lastSent_send_of_ne {kind : Kind} {tab : Tab V} {request : Request}
    (other : request.kind ≠ kind) : lastSent kind (tab.send request) = lastSent kind tab := by
  simp [lastSent, Tab.send, other]

theorem lastSent_send {kind : Kind} {tab : Tab V} {request : Request} (same : request.kind = kind) :
    lastSent kind (tab.send request) =
      some ⟨tab.sent.length, request, tab.component.timeSelected⟩ := by
  simp [lastSent, Tab.send, same]

/-- A new request is unanswered. -/
theorem answeredLast_send {kind : Kind} {tab : Tab V} (numbered : Numbered tab) {request : Request}
    (same : request.kind = kind) : answeredLast kind (tab.send request) = false := by
  rw [answeredLast, lastSent_send same, Option.any_some]
  apply List.any_eq_false.mpr
  intro answer member
  have old := numbered.below _ (numbered.answered answer member)
  have new : answer.sent ≠ ⟨tab.sent.length, request, tab.component.timeSelected⟩ := by
    intro equal
    rw [equal] at old
    exact Nat.lt_irrefl _ old
  simp [new]

theorem kind_of_lastSent {kind : Kind} {tab : Tab V} {sent : Sent}
    (isLast : lastSent kind tab = some sent) : sent.request.kind = kind := by
  simpa using List.find?_some isLast

/-- The last request was answered before, or it is answered now. -/
theorem answeredLast_receive {kind : Kind} {tab : Tab V} {sent : Sent} {response : Response V}
    (answered : answeredLast kind (tab.receive sent response) = true) :
    answeredLast kind tab = true ∨ (lastSent kind tab = some sent ∧ response.isErreur = false) := by
  unfold answeredLast at answered ⊢
  have same : lastSent kind (tab.receive sent response) = lastSent kind tab := rfl
  rw [same] at answered
  cases isLast : lastSent kind tab with
  | none =>
      rw [isLast] at answered
      cases answered
  | some last =>
      rw [isLast, Option.any_some] at answered
      simp only [Tab.receive, List.any_cons, Bool.or_eq_true] at answered
      rcases answered with now | before
      · simp only [Bool.and_eq_true, decide_eq_true_eq, Bool.not_eq_true'] at now
        obtain ⟨rfl, noErreur⟩ := now
        exact .inr ⟨rfl, noErreur⟩
      · exact .inl before

namespace View

variable {view : View V} {tab : Tab V}

/-- A view that is asked for anew tracks the selection. -/
theorem Tracks.fresh (numbered : Numbered tab) {request : Request}
    (same : request.kind = view.kind)
    (current : view.Current tab ⟨tab.sent.length, request, tab.component.timeSelected⟩) :
    view.Tracks (tab.send request) where
  last := by
    intro sent isLast
    obtain rfl := Option.some.inj ((lastSent_send same).symm.trans isLast)
    exact current
  shown := by
    intro answered
    rw [answeredLast_send numbered same] at answered
    cases answered

/-- A request for something else. -/
theorem Tracks.send (tracks : view.Tracks tab) {request : Request}
    (other : request.kind ≠ view.kind) : view.Tracks (tab.send request) where
  last := fun sent isLast => tracks.last sent ((lastSent_send_of_ne other).symm.trans isLast)
  shown := by
    intro answered
    rw [answeredLast, lastSent_send_of_ne other] at answered
    exact tracks.shown answered

/-- An answer, if it is timely. -/
theorem Tracks.receive (tracks : view.Tracks tab) {sent : Sent} {response : Response V}
    (restarts : sent.request.kind = view.kind → response.isErreur = false →
      view.restarts ⟨sent, response, tab.component.timeSelected⟩ = true)
    (timely : view.Timely tab sent response) : view.Tracks (tab.receive sent response) where
  last := tracks.last
  shown := by
    intro answered answer member seen
    rcases mem_since_cons member with ⟨rfl, matters⟩ | ⟨kept, older⟩
    · rcases answeredLast_receive answered with before | ⟨isLast, -⟩
      · exact timely before matters seen
      · exact tracks.last sent isLast
    · rcases answeredLast_receive answered with before | ⟨isLast, noErreur⟩
      · exact tracks.shown before answer older seen
      · rw [restarts (kind_of_lastSent isLast) noErreur] at kept
        cases kept

end View

/-! ## The numbers -/

/-- The numbers that answers amount to, from the last one on. -/
def showNumbers : List (Handled V) → List (Text × Option Text)
  | [] => []
  | answer :: older =>
      match answer.response with
      | .totaux tmp => totalNumbers tmp
      | _ => addNumbers answer.rows.length (showNumbers older)

/-- The numbers are those that the answers amount to. -/
def NumbersShown (tab : Tab V) : Prop :=
  tab.component.numbers = showNumbers (since Handled.counts tab.handled)

/-! ## The selection is followed -/

/-- Both views track the selection. -/
structure Follows (tab : Tab V) : Prop where
  numbered : Numbered tab
  series : seriesView.Tracks tab
  numbers : numbersView.Tracks tab

theorem Numbered.receive {tab : Tab V} (numbered : Numbered tab) {sent : Sent}
    (waiting : sent ∈ tab.pending) {response : Response V}
    (kind : fits sent.request response = true) : Numbered (tab.receive sent response) where
  below := numbered.below
  waiting := fun other member => numbered.waiting other (mem_pending_receive member)
  answered := by
    intro answer member
    rcases List.mem_cons.mp member with rfl | before
    · exact numbered.waiting sent waiting
    · exact numbered.answered answer before
  kinds := List.forall_mem_cons.mpr ⟨kind, numbered.kinds⟩

/-- The two requests for an instrument put both views on the selection. -/
theorem Follows.ask {tab : Tab V} (numbered : Numbered tab) {indice : IndiceModule}
    (selected : tab.component.indiceSelected = some indice) (type : Text) :
    Follows ((tab.send (.getTotal indice.id type)).send
      (.getIndiceVals indice.id tab.component.timeSelected type)) := by
  have asked := numbered.send (.getTotal indice.id type)
  have total : numbersView.Tracks (tab.send (.getTotal indice.id type)) := by
    apply View.Tracks.fresh numbered rfl
    simp [View.Current, numbersView, Request.id, IndicesComponent.idSelected, selected]
  refine ⟨asked.send _, View.Tracks.fresh asked rfl ?_, total.send nofun⟩
  simp [View.Current, seriesView, Request.id, IndicesComponent.idSelected, Tab.send, selected]

theorem Follows.select {tab : Tab V} (numbered : Numbered tab) (indice : IndiceModule) :
    Follows (tab.select indice) := by
  have chosen : Numbered
      { tab with component := { tab.component with indiceSelected := some indice } } :=
    ⟨numbered.below, numbered.waiting, numbered.answered, numbered.kinds⟩
  exact Follows.ask chosen rfl tab.component.type

/-- What the views depend on. -/
theorem Follows.congr {tab tab' : Tab V} (follows : Follows tab) (sent : tab'.sent = tab.sent)
    (pending : tab'.pending = tab.pending) (handled : tab'.handled = tab.handled)
    (indice : tab'.component.indiceSelected = tab.component.indiceSelected)
    (time : tab'.component.timeSelected = tab.component.timeSelected) : Follows tab' := by
  obtain ⟨⟨below, waiting, answered, kinds⟩, ⟨lastVals, series⟩, ⟨lastTotal, numbers⟩⟩ := follows
  refine ⟨⟨?_, ?_, ?_, ?_⟩, ⟨?_, ?_⟩, ⟨?_, ?_⟩⟩ <;>
    simpa only [lastSent, answeredLast, View.Current, IndicesComponent.idSelected, sent, pending,
      handled, indice, time]

/-- An answer that is not for the numbers. -/
theorem NumbersShown.receive {tab : Tab V} (shown : NumbersShown tab) {sent : Sent}
    {response : Response V}
    (noCount : Handled.counts ⟨sent, response, tab.component.timeSelected⟩ = false)
    (noPoll : Handled.appends ⟨sent, response, tab.component.timeSelected⟩ = false) :
    NumbersShown (tab.receive sent response) := by
  simpa [NumbersShown, Tab.receive, since, noCount, noPoll] using shown

/-- An answer without an error restarts the view that it was asked for. -/
theorem restarts_of_fits {sent : Sent} {response : Response V} (time : Time)
    (kind : fits sent.request response = true) (noErreur : response.isErreur = false) :
    (sent.request.kind = .vals → Handled.charts ⟨sent, response, time⟩ = true) ∧
      (sent.request.kind = .total → Handled.counts ⟨sent, response, time⟩ = true) := by
  rcases fits_cases kind with
    rfl | ⟨list, request, rfl⟩ | ⟨tmp, request, rfl⟩ | ⟨tmp, request | request, rfl⟩
  · cases noErreur
  all_goals simp [Handled.charts, Handled.counts, request]

/-- An answer that is shown by a view whose last request is answered is for the selection. -/
def Timely (tab : Tab V) : Event V → Prop
  | .deliver sent response =>
      seriesView.Timely tab sent response ∧ numbersView.Timely tab sent response
  | _ => True

instance (tab : Tab V) : ∀ event : Event V, Decidable (Timely tab event)
  | .deliver _ _ => inferInstanceAs (Decidable (_ ∧ _))
  | .ngOnInit _ | .clickIndice _ | .changeTime _ | .tick _ | .ngOnDestroy => isTrue trivial

/-- The answer to the last request of a kind. -/
theorem Numbered.answer {tab : Tab V} (numbered : Numbered tab) {kind : Kind}
    (answered : answeredLast kind tab = true) :
    ∃ answer ∈ tab.handled, answer.sent.request.kind = kind ∧
      fits answer.sent.request answer.response = true ∧ answer.response.isErreur = false := by
  obtain ⟨sent, isLast, found⟩ := (Option.any_eq_true _ _).mp answered
  obtain ⟨answer, member, isAnswer⟩ := List.any_eq_true.mp found
  simp only [Bool.and_eq_true, decide_eq_true_eq, Bool.not_eq_true'] at isAnswer
  obtain ⟨rfl, noErreur⟩ := isAnswer
  exact ⟨answer, member, kind_of_lastSent isLast, numbered.kinds answer member, noErreur⟩

/-- An answer keeps both views on the selection. -/
theorem Follows.receive {tab : Tab V} (follows : Follows tab) {sent : Sent} {response : Response V}
    (enabled : Enabled tab (.deliver sent response))
    (timely : Timely tab (.deliver sent response)) :
    Follows (tab.receive sent response) := by
  obtain ⟨waiting, kind⟩ := enabled
  refine ⟨follows.numbered.receive waiting kind, ?_, ?_⟩
  · apply follows.series.receive ?_ timely.1
    intro isVals noErreur
    exact (restarts_of_fits _ kind noErreur).1 isVals
  · apply follows.numbers.receive ?_ timely.2
    intro isTotal noErreur
    exact (restarts_of_fits _ kind noErreur).2 isTotal

section Steps

variable [Max V] [Min V] {tab tab' : Tab V} {event : Event V} {thrown : Option TypeError}

theorem Effect.follows (sane : Sane tab) (follows : Follows tab) (enabled : Enabled tab event)
    (timely : Timely tab event) (effect : Effect tab event thrown tab') : Follows tab' := by
  cases effect with
  | init type first =>
      have asked : Follows (tab.send (.getIndice type)) :=
        ⟨follows.numbered.send _, follows.series.send nofun, follows.numbers.send nofun⟩
      exact asked.congr rfl rfl rfl rfl rfl
  | click indice member => exact .select follows.numbered indice
  | period time indice selected =>
      have changed : Numbered
          { tab with component := { tab.component with timeSelected := time } } :=
        ⟨follows.numbered.below, follows.numbered.waiting, follows.numbered.answered,
          follows.numbered.kinds⟩
      have total : numbersView.Tracks
          { tab with component := { tab.component with timeSelected := time } } :=
        ⟨follows.numbers.last, follows.numbers.shown⟩
      refine ⟨changed.send _, View.Tracks.fresh changed rfl ?_, total.send nofun⟩
      simp [View.Current, seriesView, Request.id, IndicesComponent.idSelected, selected]
  | tick handle active indice selected =>
      have asked : Follows
          (tab.send (.getIndiceNewVals indice.id tab.component.maxDate tab.component.type)) :=
        ⟨follows.numbered.send _, follows.series.send nofun, follows.numbers.send nofun⟩
      exact asked.congr rfl rfl rfl rfl rfl
  | destroy => exact follows.congr rfl rfl rfl rfl rfl
  | logged sent response waiting nothing => exact follows.receive enabled timely
  | noIndice sent waiting request =>
      have blank := sane.blank_of_pending waiting request
      exact (follows.receive enabled timely).congr rfl rfl rfl blank.unselected.symm rfl
  | indice sent first rest waiting request =>
      have received := follows.numbered.receive waiting enabled.2
      apply Follows.select
      exact ⟨received.below, received.waiting, received.answered, received.kinds⟩
  | total sent tmp waiting request =>
      exact (follows.receive enabled timely).congr rfl rfl rfl rfl rfl
  | emptyChart sent waiting request =>
      exact (follows.receive enabled timely).congr rfl rfl rfl rfl rfl
  | chart sent tmp last waiting request lastOf =>
      exact (follows.receive enabled timely).congr rfl rfl rfl rfl rfl
  | append sent tmp last data labels waiting request lastOf datasets labelled =>
      exact (follows.receive enabled timely).congr rfl rfl rfl rfl rfl

theorem Effect.numbersShown (shown : NumbersShown tab) (effect : Effect tab event thrown tab') :
    NumbersShown tab' := by
  cases effect with
  | init type first => exact shown
  | click indice member => exact shown
  | period time indice selected => exact shown
  | tick handle active indice selected => exact shown
  | destroy => exact shown
  | logged sent response waiting nothing =>
      apply shown.receive
      · rcases nothing with rfl | ⟨-, rfl⟩ <;> rfl
      · rcases nothing with rfl | ⟨-, rfl⟩ <;> simp [Handled.appends, Handled.rows]
  | noIndice sent waiting request =>
      exact shown.receive rfl (Handled.appends_eq_false _ (by rw [request]; decide))
  | indice sent first rest waiting request =>
      exact shown.receive rfl (Handled.appends_eq_false _ (by rw [request]; decide))
  | total sent tmp waiting request =>
      simp [NumbersShown, Tab.receive, since, Handled.counts, request, showNumbers]
  | emptyChart sent waiting request =>
      exact shown.receive rfl (Handled.appends_eq_false _ (by rw [request]; decide))
  | chart sent tmp last waiting request lastOf =>
      exact shown.receive rfl (Handled.appends_eq_false _ (by rw [request]; decide))
  | append sent tmp last data labels waiting request lastOf datasets labelled =>
      have appends := Handled.appends_vals request lastOf tab.component.timeSelected
      have noCount :
          Handled.counts (V := V) ⟨sent, .vals tmp, tab.component.timeSelected⟩ = false :=
        rfl
      simp only [NumbersShown] at shown
      simp [NumbersShown, Tab.receive, Tab.extended, since, noCount, appends, showNumbers, shown,
        Handled.rows]

theorem follows_run {events : List (Event V)} (valid : (page V).Valid {} events)
    (timely : (page V).EachStep Timely {} events) : Follows ((page V).run {} events) := by
  have start : Follows ({} : Tab V) := by
    refine ⟨⟨?_, ?_, ?_, ?_⟩, ⟨nofun, nofun⟩, ⟨nofun, nofun⟩⟩
    all_goals
      intro entry member
      exact absurd member List.not_mem_nil
  apply keeps_run ?_ valid (valid.and timely) sane_start start
  rintro tab event thrown tab' sane follows ⟨enabled, timely⟩ effect
  exact effect.follows sane follows enabled timely

/-- **Timely answers show the selection.** In every state of every run whose steps are timely, in
which the last requests for the values and for the numbers were answered without an error, every
point of the chart is from an answer for the instrument and the period that are selected, and
the numbers are made of answers for the instrument. -/
theorem shows_selection {events : List (Event V)} (valid : (page V).Valid {} events)
    (timely : (page V).EachStep Timely {} events)
    (vals : answeredLast .vals ((page V).run {} events) = true)
    (total : answeredLast .total ((page V).run {} events) = true) :
    let tab := (page V).run {} events
    ∃ (points : List (Point V)) (answers : List (Handled V)),
      tab.component.chartDatasets = some (points.map Point.val) ∧
      tab.component.chartLabels = some (points.map Point.label) ∧
      (∀ point ∈ points, point.answer ∈ tab.handled ∧ point.row ∈ point.answer.rows ∧
        point.answer.sent.request.id = tab.component.idSelected ∧
        point.answer.sent.time = tab.component.timeSelected) ∧
      tab.component.numbers = showNumbers answers ∧
      (∃ answer ∈ answers, answer.counts = true) ∧
      ∀ answer ∈ answers, answer ∈ tab.handled ∧
        answer.sent.request.id = tab.component.idSelected := by
  intro tab
  have follows : Follows tab := follows_run valid timely
  have shown : NumbersShown tab := by
    have start : NumbersShown ({} : Tab V) := rfl
    exact keeps_page (fun _ shown effect => effect.numbersShown shown) valid start
  obtain ⟨chartAnswer, inHandled, isVals, fitsVals, noErreur⟩ := follows.numbered.answer vals
  have charts := (restarts_of_fits chartAnswer.time fitsVals noErreur).1 isVals
  obtain ⟨-, noChart⟩ | shows := charted_run valid
  · exact absurd charts (by rw [noChart chartAnswer inHandled]; decide)
  refine ⟨series tab.handled, since Handled.counts tab.handled, shows.data, shows.labels, ?_, shown,
    ?_, ?_⟩
  · intro point member
    obtain ⟨inSince, inRows⟩ := mem_series member
    have seen : seriesView.seen point.answer = true := by
      simpa [seriesView] using List.ne_nil_of_mem inRows
    have current := follows.series.shown vals point.answer inSince seen
    simp only [View.Current, seriesView, Bool.and_eq_true, decide_eq_true_eq] at current
    exact ⟨mem_of_mem_since inSince, inRows, current⟩
  · obtain ⟨countAnswer, inHandled, isTotal, fitsTotal, noErreur⟩ := follows.numbered.answer total
    have counts := (restarts_of_fits countAnswer.time fitsTotal noErreur).2 isTotal
    exact exists_restart inHandled counts
  · intro answer member
    have current := follows.numbers.shown total answer member rfl
    simp only [View.Current, numbersView, decide_eq_true_eq] at current
    exact ⟨mem_of_mem_since member, current⟩

end Steps

/-- The second instrument is selected and its two answers arrive. -/
def secondShown : List (Event Int) :=
  [.deliver ⟨3, .getTotal 2 "cfd".toList, .allTime⟩
      (.totaux [some "90".toList, some "60".toList, some "30".toList, some "9".toList]),
    .deliver ⟨4, .getIndiceVals 2 .allTime "cfd".toList, .allTime⟩
      (.vals [⟨12000, "2019-04-11 11:15:29.0".toList⟩])]

theorem shows_selection_second :
    (page Int).Valid {} (secondSelected ++ secondShown) ∧
      ∃ points : List (Point Int),
        ((page Int).run {} (secondSelected ++ secondShown)).component.chartDatasets =
          some (points.map Point.val) ∧
        ∀ point ∈ points, point.answer.sent.request.id =
          ((page Int).run {} (secondSelected ++ secondShown)).component.idSelected :=
  have ⟨points, _, data, _, ofSelection, _⟩ := shows_selection
    (by decide : (page Int).Valid {} (secondSelected ++ secondShown)) (by decide) (by decide)
    (by decide)
  ⟨by decide, points, data, fun point member => (ofSelection point member).2.2.1⟩

/-- The second instrument is selected while the answers for the first are on their way, and
these arrive last. -/
def lateAnswers : List (Event Int) :=
  [.ngOnInit "cfd".toList,
    .deliver ⟨0, .getIndice "cfd".toList, .allTime⟩
      (.indices [⟨1, "CAC 40".toList⟩, ⟨2, "DAX 30".toList⟩]),
    .clickIndice ⟨2, "DAX 30".toList⟩] ++ secondShown ++
    [.deliver ⟨1, .getTotal 1 "cfd".toList, .allTime⟩
        (.totaux [some "80".toList, some "50".toList, some "20".toList, some "8".toList]),
      .deliver ⟨2, .getIndiceVals 1 .allTime "cfd".toList, .allTime⟩
        (.vals [⟨5400, "2019-04-11 11:15:29.0".toList⟩])]

/-- **A late answer is shown.** Nothing is in flight and the last requests are answered, but the
values and the numbers are those of the instrument that was left. -/
theorem late_answer_shown :
    (page Int).Valid {} lateAnswers ∧
      ((page Int).run {} lateAnswers).pending = [] ∧
      answeredLast .vals ((page Int).run {} lateAnswers) = true ∧
      answeredLast .total ((page Int).run {} lateAnswers) = true ∧
      ((page Int).run {} lateAnswers).component.idSelected = some 2 ∧
      ((page Int).run {} lateAnswers).component.chartDatasets = some [5400] ∧
      (series ((page Int).run {} lateAnswers).handled).map
        (fun point => point.answer.sent.request.id) = [some 1] ∧
      (since Handled.counts ((page Int).run {} lateAnswers).handled).map
        (fun answer => answer.sent.request.id) = [some 1] := by
  decide

end Trading.Front
