import Trading.Front.IndicesComponent

/-!
# What an event does

Before the list of instruments is there, nothing is selected and nothing else is asked for
(`Blank`); with it an instrument is selected, and it stays so (`Loaded`). In these two phases an
event has one of twelve effects, which `Effect` lists with the tab and the exception they lead
to. Every other statement about the page is read off from this list.
-/

set_option autoImplicit false

namespace Trading.Front

open Trading.Dao (IndiceVal)
open Trading.Runs

variable {V : Type}

/-! ## Kinds of requests -/

/-- What a request asks for. -/
inductive Kind where
  | indice
  | total
  | vals
  | poll
  deriving DecidableEq

def Request.kind : Request → Kind
  | getIndice _ => .indice
  | getTotal _ _ => .total
  | getIndiceVals _ _ _ => .vals
  | getIndiceNewVals _ _ _ => .poll

/-- The kinds of answers. -/
theorem fits_cases {request : Request} {response : Response V}
    (kind : fits request response = true) :
    response = .erreur ∨ (∃ list, request.kind = .indice ∧ response = .indices list) ∨
      (∃ tmp, request.kind = .total ∧ response = .totaux tmp) ∨
      ∃ tmp, (request.kind = .vals ∨ request.kind = .poll) ∧ response = .vals tmp := by
  cases response with
  | erreur => exact .inl rfl
  | indices list =>
      cases request with
      | getIndice type => exact .inr (.inl ⟨list, rfl, rfl⟩)
      | _ => cases kind
  | totaux tmp =>
      cases request with
      | getTotal ID type => exact .inr (.inr (.inl ⟨tmp, rfl, rfl⟩))
      | _ => cases kind
  | vals tmp =>
      cases request with
      | getIndiceVals ID TIME type => exact .inr (.inr (.inr ⟨tmp, .inl rfl, rfl⟩))
      | getIndiceNewVals ID DATE type => exact .inr (.inr (.inr ⟨tmp, .inr rfl, rfl⟩))
      | _ => cases kind

/-! ## Phases -/

/-- The page without instruments. The only request it can wait for is the one for their list. -/
structure Blank (tab : Tab V) : Prop where
  unselected : tab.component.indiceSelected = none
  noDatas : tab.component.datas.getD [] = []
  noData : tab.component.chartDatasets = none
  noLabels : tab.component.chartLabels = none
  noInterval : tab.intervals = []
  waiting : tab.pending = [] ∨
    ∃ sent, tab.pending = [sent] ∧ sent.request.kind = .indice ∧ tab.sent ≠ []

/-- The page with an instrument. There is a chart when it polls or waits for a poll. -/
structure Loaded (tab : Tab V) : Prop where
  selected : ∃ indice, tab.component.indiceSelected = some indice
  started : tab.sent ≠ []
  listed : ∀ sent ∈ tab.pending, sent.request.kind ≠ .indice
  charted : (tab.intervals ≠ [] ∨ ∃ sent ∈ tab.pending, sent.request.kind = .poll) →
    tab.component.chartDatasets.isSome = true
  labelled : tab.component.chartLabels.isSome = tab.component.chartDatasets.isSome

def Sane (tab : Tab V) : Prop := Blank tab ∨ Loaded tab

theorem sane_start : Sane ({} : Tab V) := .inl ⟨rfl, rfl, rfl, rfl, rfl, .inl rfl⟩

theorem Sane.loaded_of_pending {tab : Tab V} (sane : Sane tab) {sent : Sent}
    (waiting : sent ∈ tab.pending) (request : sent.request.kind ≠ .indice) : Loaded tab := by
  rcases sane with blank | loaded
  · rcases blank.waiting with none | ⟨only, pending, isIndice, -⟩
    · rw [none] at waiting
      cases waiting
    · rw [pending] at waiting
      obtain rfl := List.mem_singleton.mp waiting
      exact absurd isIndice request
  · exact loaded

theorem Sane.blank_of_pending {tab : Tab V} (sane : Sane tab) {sent : Sent}
    (waiting : sent ∈ tab.pending) (request : sent.request.kind = .indice) : Blank tab := by
  rcases sane with blank | loaded
  · exact blank
  · exact absurd request (loaded.listed sent waiting)

theorem Sane.loaded_of_interval {tab : Tab V} (sane : Sane tab) {handle : Nat}
    (active : handle ∈ tab.intervals) : Loaded tab := by
  rcases sane with blank | loaded
  · rw [blank.noInterval] at active
    cases active
  · exact loaded

theorem Sane.loaded_of_chart {tab : Tab V} (sane : Sane tab)
    (charted : tab.component.chartDatasets.isSome = true) : Loaded tab := by
  rcases sane with blank | loaded
  · rw [blank.noData] at charted
    cases charted
  · exact loaded

/-- A poll is answered when there is a chart. -/
theorem Loaded.chart_of_poll {tab : Tab V} (loaded : Loaded tab) {sent : Sent}
    (waiting : sent ∈ tab.pending) (request : sent.request.kind = .poll) :
    ∃ data labels, tab.component.chartDatasets = some data ∧
      tab.component.chartLabels = some labels := by
  have charted := loaded.charted (.inr ⟨sent, waiting, request⟩)
  have labelled := loaded.labelled.trans charted
  obtain ⟨data, datasets⟩ := Option.isSome_iff_exists.mp charted
  obtain ⟨labels, labelsOf⟩ := Option.isSome_iff_exists.mp labelled
  exact ⟨data, labels, datasets, labelsOf⟩

/-! ## Effects -/

section Effects

variable [Max V] [Min V]

/-- The effects of an event: the exception that it throws and the tab that it leads to. -/
inductive Effect (tab : Tab V) : Event V → Option TypeError → Tab V → Prop
  | init (type : Text) (first : tab.sent = []) :
      Effect tab (.ngOnInit type) none
        ({ tab with component := { tab.component with type := type } }.send (.getIndice type))
  | click (indice : IndiceModule) (member : indice ∈ tab.component.datas.getD []) :
      Effect tab (.clickIndice indice) none (tab.select indice)
  | period (time : Time) (indice : IndiceModule)
      (selected : tab.component.indiceSelected = some indice) :
      Effect tab (.changeTime time) none
        ({ tab with component := { tab.component with timeSelected := time } }.send
          (.getIndiceVals indice.id time tab.component.type))
  | tick (handle : Nat) (active : handle ∈ tab.intervals) (indice : IndiceModule)
      (selected : tab.component.indiceSelected = some indice) :
      Effect tab (.tick handle) none
        ({ tab with component := { tab.component with count := tab.component.count + 1 } }.send
          (.getIndiceNewVals indice.id tab.component.maxDate tab.component.type))
  | destroy :
      Effect tab .ngOnDestroy none { tab with intervals := tab.cleared, destroyed := true }
  | logged (sent : Sent) (response : Response V) (waiting : sent ∈ tab.pending)
      (nothing : response = .erreur ∨ sent.request.kind = .poll ∧ response = .vals []) :
      Effect tab (.deliver sent response) none (tab.receive sent response)
  | noIndice (sent : Sent) (waiting : sent ∈ tab.pending) (request : sent.request.kind = .indice) :
      Effect tab (.deliver sent (.indices [])) (some .undefinedIndice)
        { tab.receive sent (.indices []) with
          component := { tab.component with datas := some [], indiceSelected := none } }
  | indice (sent : Sent) (first : IndiceModule) (rest : List IndiceModule)
      (waiting : sent ∈ tab.pending) (request : sent.request.kind = .indice) :
      Effect tab (.deliver sent (.indices (first :: rest))) none
        ({ tab.receive sent (.indices (first :: rest)) with
            component := { tab.component with datas := some (first :: rest) } }.select first)
  | total (sent : Sent) (tmp : List (Option Text)) (waiting : sent ∈ tab.pending)
      (request : sent.request.kind = .total) :
      Effect tab (.deliver sent (.totaux tmp)) none
        { tab.receive sent (.totaux tmp) with
          component := { tab.component with numbers := totalNumbers tmp } }
  | emptyChart (sent : Sent) (waiting : sent ∈ tab.pending) (request : sent.request.kind = .vals) :
      Effect tab (.deliver sent (.vals [])) (some .emptyReduce)
        { tab.receive sent (.vals []) with
          intervals := tab.cleared
          component := { tab.component with chartDatasets := some [], chartLabels := some [] } }
  | chart (sent : Sent) (tmp : List (IndiceVal V)) (last : IndiceVal V)
      (waiting : sent ∈ tab.pending) (request : sent.request.kind = .vals)
      (lastOf : tmp.getLast? = some last) :
      Effect tab (.deliver sent (.vals tmp)) none ((tab.receive sent (.vals tmp)).replaced tmp last)
  | append (sent : Sent) (tmp : List (IndiceVal V)) (last : IndiceVal V) (data : List V)
      (labels : List Text) (waiting : sent ∈ tab.pending) (request : sent.request.kind = .poll)
      (lastOf : tmp.getLast? = some last) (datasets : tab.component.chartDatasets = some data)
      (labelled : tab.component.chartLabels = some labels) :
      Effect tab (.deliver sent (.vals tmp)) none
        ((tab.receive sent (.vals tmp)).extended data labels tmp last)

/-- The effect of an event is read off from the run of its handler. -/
theorem Effect.ofRun {tab tab' : Tab V} {event : Event V}
    (effect : Effect tab event none tab') (ran : (handler event).run tab = .ok () tab') :
    Effect tab event (exception tab event) (after tab event) := by
  simpa only [exception, after, ran] using effect

theorem Effect.ofThrow {tab tab' : Tab V} {event : Event V} {thrown : TypeError}
    (effect : Effect tab event (some thrown) tab')
    (ran : (handler event).run tab = .error thrown tab') :
    Effect tab event (exception tab event) (after tab event) := by
  simpa only [exception, after, ran] using effect

theorem handler_vals {sent : Sent} (request : sent.request.kind = .vals)
    (tmp : List (IndiceVal V)) (tab : Tab V) :
    (handler (.deliver sent (.vals tmp))).run tab =
      onIndiceVals tmp (tab.receive sent (.vals tmp)) := by
  obtain ⟨num, _ | _ | ⟨ID, TIME, type⟩ | _, time⟩ := sent <;> first | rfl | cases request

theorem handler_poll {sent : Sent} (request : sent.request.kind = .poll)
    (tmp : List (IndiceVal V)) (tab : Tab V) :
    (handler (.deliver sent (.vals tmp))).run tab =
      onNewVals tmp (tab.receive sent (.vals tmp)) := by
  obtain ⟨num, _ | _ | _ | ⟨ID, DATE, type⟩, time⟩ := sent <;> first | rfl | cases request

theorem handler_indice {sent : Sent} (request : sent.request.kind = .indice)
    (response : List IndiceModule) (tab : Tab V) :
    (handler (.deliver sent (.indices response))).run tab =
      onIndice response (tab.receive sent (.indices response)) := by
  obtain ⟨num, ⟨type⟩ | _ | _ | _, time⟩ := sent <;> first | rfl | cases request

theorem handler_total {sent : Sent} (request : sent.request.kind = .total)
    (tmp : List (Option Text)) (tab : Tab V) :
    (handler (.deliver sent (.totaux tmp))).run tab =
      onTotal tmp (tab.receive sent (.totaux tmp)) := by
  obtain ⟨num, _ | ⟨ID, type⟩ | _ | _, time⟩ := sent <;> first | rfl | cases request

theorem handler_erreur (sent : Sent) (tab : Tab V) :
    (handler (.deliver sent .erreur)).run tab = .ok () (tab.receive sent .erreur) := by
  obtain ⟨num, _ | _ | _ | _, time⟩ := sent <;> rfl

/-! The tab after a tick and after the answers. -/

theorem after_tick {tab : Tab V} {indice : IndiceModule}
    (selected : tab.component.indiceSelected = some indice) (handle : Nat) :
    after tab (.tick handle) =
      { tab with component := { tab.component with count := tab.component.count + 1 } }.send
        (.getIndiceNewVals indice.id tab.component.maxDate tab.component.type) := by
  have ran : (handler (.tick handle)).run tab = .ok () _ := getNewVals_run _ selected
  simp only [after, ran]

theorem after_erreur (tab : Tab V) (sent : Sent) :
    after tab (.deliver sent .erreur) = tab.receive sent .erreur := by
  simp only [after, handler_erreur]

theorem after_total (tab : Tab V) {sent : Sent} (request : sent.request.kind = .total)
    (tmp : List (Option Text)) :
    after tab (.deliver sent (.totaux tmp)) =
      { tab.receive sent (.totaux tmp) with
        component := { tab.component with numbers := totalNumbers tmp } } := by
  simp only [after, handler_total request]
  rfl

theorem after_vals_nil (tab : Tab V) {sent : Sent} (request : sent.request.kind = .vals) :
    after tab (.deliver sent (.vals [])) =
      { tab.receive sent (.vals []) with
        intervals := tab.cleared
        component := { tab.component with chartDatasets := some [], chartLabels := some [] } } := by
  simp only [after, handler_vals request, onIndiceVals_run_nil]
  rfl

theorem after_vals (tab : Tab V) {sent : Sent} (request : sent.request.kind = .vals)
    {tmp : List (IndiceVal V)} {last : IndiceVal V} (lastOf : tmp.getLast? = some last) :
    after tab (.deliver sent (.vals tmp)) = (tab.receive sent (.vals tmp)).replaced tmp last := by
  simp only [after, handler_vals request, onIndiceVals_run lastOf]

theorem after_poll_nil (tab : Tab V) {sent : Sent} (request : sent.request.kind = .poll) :
    after tab (.deliver sent (.vals [])) = tab.receive sent (.vals []) := by
  simp only [after, handler_poll request]
  rfl

theorem after_poll {tab : Tab V} {sent : Sent} (request : sent.request.kind = .poll)
    {tmp : List (IndiceVal V)} {last : IndiceVal V} {data : List V} {labels : List Text}
    (lastOf : tmp.getLast? = some last) (datasets : tab.component.chartDatasets = some data)
    (labelled : tab.component.chartLabels = some labels) :
    after tab (.deliver sent (.vals tmp)) =
      (tab.receive sent (.vals tmp)).extended data labels tmp last := by
  have ran : onNewVals tmp (tab.receive sent (.vals tmp)) = .ok () _ :=
    onNewVals_run datasets labelled lastOf
  simp only [after, handler_poll request, ran]

/-- **An event of a page in its two phases has one of the effects.** -/
theorem effect {tab : Tab V} (sane : Sane tab) {event : Event V} (enabled : Enabled tab event) :
    Effect tab event (exception tab event) (after tab event) := by
  cases event with
  | ngOnInit type => exact Effect.ofRun (.init type enabled) rfl
  | clickIndice indice => exact Effect.ofRun (.click indice enabled.2) rfl
  | changeTime time =>
      obtain ⟨-, charted, -⟩ := enabled
      obtain ⟨indice, selected⟩ := (sane.loaded_of_chart charted).selected
      exact Effect.ofRun (.period time indice selected) (getIndiceVals_run _ selected)
  | tick handle =>
      obtain ⟨indice, selected⟩ := (sane.loaded_of_interval enabled).selected
      exact Effect.ofRun (.tick handle enabled indice selected) (getNewVals_run _ selected)
  | ngOnDestroy => exact Effect.ofRun .destroy rfl
  | deliver sent response =>
      obtain ⟨waiting, kind⟩ := enabled
      rcases fits_cases kind with
        rfl | ⟨_ | ⟨first, rest⟩, request, rfl⟩ | ⟨tmp, request, rfl⟩ |
          ⟨tmp, request | request, rfl⟩
      · exact Effect.ofRun (.logged sent .erreur waiting (.inl rfl)) (handler_erreur sent tab)
      · exact Effect.ofThrow (.noIndice sent waiting request) (handler_indice request [] tab)
      · exact Effect.ofRun (.indice sent first rest waiting request)
          (handler_indice request (first :: rest) tab)
      · exact Effect.ofRun (.total sent tmp waiting request) (handler_total request tmp tab)
      · cases lastOf : tmp.getLast? with
        | none =>
            obtain rfl := List.getLast?_eq_none_iff.mp lastOf
            exact Effect.ofThrow (.emptyChart sent waiting request) (handler_vals request [] tab)
        | some last =>
            exact Effect.ofRun (.chart sent tmp last waiting request lastOf)
              ((handler_vals request tmp tab).trans (onIndiceVals_run lastOf))
      · cases lastOf : tmp.getLast? with
        | none =>
            obtain rfl := List.getLast?_eq_none_iff.mp lastOf
            exact Effect.ofRun (.logged sent (.vals []) waiting (.inr ⟨request, rfl⟩))
              (handler_poll request [] tab)
        | some last =>
            have loaded := sane.loaded_of_pending waiting (by rw [request]; decide)
            obtain ⟨data, labels, datasets, labelled⟩ := loaded.chart_of_poll waiting request
            exact Effect.ofRun
              (.append sent tmp last data labels waiting request lastOf datasets labelled)
              ((handler_poll request tmp tab).trans (onNewVals_run datasets labelled lastOf))

end Effects

/-! ## The phases are kept -/

theorem mem_pending_send {tab : Tab V} {request : Request} {sent : Sent} :
    sent ∈ (tab.send request).pending ↔
      sent ∈ tab.pending ∨ sent = ⟨tab.sent.length, request, tab.component.timeSelected⟩ := by
  simp [Tab.send]

theorem mem_pending_receive {tab : Tab V} {sent other : Sent} {response : Response V}
    (waiting : other ∈ (tab.receive sent response).pending) : other ∈ tab.pending :=
  List.mem_of_mem_erase waiting

/-- A request that is no poll without a chart. -/
theorem Loaded.send {tab : Tab V} (loaded : Loaded tab) {request : Request}
    (listed : request.kind ≠ .indice)
    (charted : request.kind = .poll → tab.component.chartDatasets.isSome = true) :
    Loaded (tab.send request) where
  selected := loaded.selected
  started := List.cons_ne_nil _ _
  listed := by
    intro sent waiting
    rcases mem_pending_send.mp waiting with before | rfl
    · exact loaded.listed sent before
    · exact listed
  charted := by
    rintro (polling | ⟨sent, waiting, poll⟩)
    · exact loaded.charted (.inl polling)
    · rcases mem_pending_send.mp waiting with before | rfl
      · exact loaded.charted (.inr ⟨sent, before, poll⟩)
      · exact charted poll
  labelled := loaded.labelled

theorem Loaded.receive {tab : Tab V} (loaded : Loaded tab) (sent : Sent) (response : Response V) :
    Loaded (tab.receive sent response) where
  selected := loaded.selected
  started := loaded.started
  listed := fun _ waiting => loaded.listed _ (mem_pending_receive waiting)
  charted := by
    rintro (polling | ⟨other, waiting, poll⟩)
    · exact loaded.charted (.inl polling)
    · exact loaded.charted (.inr ⟨other, mem_pending_receive waiting, poll⟩)
  labelled := loaded.labelled

/-- The two requests for an instrument. -/
theorem Loaded.ask {tab : Tab V} (loaded : Loaded tab) (ID : Int) (time : Time) (type : Text) :
    Loaded ((tab.send (.getTotal ID type)).send (.getIndiceVals ID time type)) := by
  have asked : Loaded (tab.send (.getTotal ID type)) := loaded.send nofun nofun
  exact asked.send nofun nofun

theorem Loaded.select {tab : Tab V} (loaded : Loaded tab) (indice : IndiceModule) :
    Loaded (tab.select indice) := by
  have chosen :
      Loaded { tab with component := { tab.component with indiceSelected := some indice } } :=
    ⟨⟨indice, rfl⟩, loaded.started, loaded.listed, loaded.charted, loaded.labelled⟩
  exact chosen.ask indice.id tab.component.timeSelected tab.component.type

/-- The list of instruments ends the first phase. -/
theorem Blank.select {tab : Tab V} (blank : Blank tab) (alone : tab.pending = [])
    (started : tab.sent ≠ []) (datas : Option (List IndiceModule)) (indice : IndiceModule) :
    Loaded ({ tab with component := { tab.component with datas := datas } }.select indice) := by
  have chosen : Loaded
      { tab with
        component := { tab.component with datas := datas, indiceSelected := some indice } } := by
    refine ⟨⟨indice, rfl⟩, started, ?_, ?_, ?_⟩
    · intro sent waiting
      rw [alone] at waiting
      cases waiting
    · rintro (polling | ⟨sent, waiting, -⟩)
      · exact absurd blank.noInterval polling
      · rw [alone] at waiting
        cases waiting
    · simp [blank.noLabels, blank.noData]
  exact chosen.ask indice.id tab.component.timeSelected tab.component.type

/-- What the first phase waits for. -/
theorem Blank.of_pending {tab : Tab V} (blank : Blank tab) {sent : Sent}
    (waiting : sent ∈ tab.pending) :
    tab.pending = [sent] ∧ sent.request.kind = .indice ∧ tab.sent ≠ [] := by
  rcases blank.waiting with none | ⟨only, pending, indice, started⟩
  · rw [none] at waiting
    cases waiting
  · rw [pending] at waiting ⊢
    obtain rfl := List.mem_singleton.mp waiting
    exact ⟨rfl, indice, started⟩

/-- The answer that the first phase waits for. -/
theorem Blank.receive {tab : Tab V} (blank : Blank tab) {sent : Sent}
    (waiting : sent ∈ tab.pending) (response : Response V) :
    Blank (tab.receive sent response) ∧ (tab.receive sent response).pending = [] := by
  obtain ⟨pending, -, -⟩ := blank.of_pending waiting
  have answered : (tab.receive sent response).pending = [] := by
    simp [Tab.receive, pending]
  exact ⟨⟨blank.unselected, blank.noDatas, blank.noData, blank.noLabels, blank.noInterval,
    .inl answered⟩, answered⟩

section Steps

variable [Max V] [Min V] {tab tab' : Tab V} {event : Event V} {thrown : Option TypeError}

theorem Effect.loaded (loaded : Loaded tab) (effect : Effect tab event thrown tab') :
    Loaded tab' := by
  cases effect with
  | init type first => exact absurd first loaded.started
  | click indice member => exact loaded.select indice
  | period time indice selected =>
      have changed : Loaded
          { tab with component := { tab.component with timeSelected := time } } :=
        ⟨loaded.selected, loaded.started, loaded.listed, loaded.charted, loaded.labelled⟩
      exact changed.send nofun nofun
  | tick handle active indice selected =>
      have counted : Loaded
          { tab with component := { tab.component with count := tab.component.count + 1 } } :=
        ⟨loaded.selected, loaded.started, loaded.listed, loaded.charted, loaded.labelled⟩
      exact counted.send nofun fun _ => loaded.charted (.inl (List.ne_nil_of_mem active))
  | destroy =>
      refine ⟨loaded.selected, loaded.started, loaded.listed, ?_, loaded.labelled⟩
      rintro (polling | poll)
      · apply loaded.charted
        left
        intro none
        simp [Tab.cleared, none] at polling
      · exact loaded.charted (.inr poll)
  | logged sent response waiting nothing => exact loaded.receive sent response
  | noIndice sent waiting request => exact absurd request (loaded.listed sent waiting)
  | indice sent first rest waiting request => exact absurd request (loaded.listed sent waiting)
  | total sent tmp waiting request =>
      have received := loaded.receive sent (.totaux tmp)
      exact ⟨received.selected, received.started, received.listed, received.charted,
        received.labelled⟩
  | emptyChart sent waiting request =>
      have received := loaded.receive sent (.vals [])
      exact ⟨received.selected, received.started, received.listed, fun _ => rfl, rfl⟩
  | chart sent tmp last waiting request lastOf =>
      have received := loaded.receive sent (.vals tmp)
      exact ⟨received.selected, received.started, received.listed, fun _ => rfl, rfl⟩
  | append sent tmp last data labels waiting request lastOf datasets labelled =>
      have received := loaded.receive sent (.vals tmp)
      exact ⟨received.selected, received.started, received.listed, fun _ => rfl, rfl⟩

/-- The first phase is kept or ended by the list of instruments. -/
theorem Effect.blank (blank : Blank tab) (effect : Effect tab event thrown tab') : Sane tab' := by
  have onlyList : ∀ {sent : Sent}, sent ∈ tab.pending → sent.request.kind = .indice :=
    fun waiting => (blank.of_pending waiting).2.1
  cases effect with
  | init type first =>
      rcases blank.waiting with none | ⟨sent, -, -, started⟩
      · refine .inl ⟨blank.unselected, blank.noDatas, blank.noData, blank.noLabels,
          blank.noInterval, .inr ⟨⟨tab.sent.length, .getIndice type, tab.component.timeSelected⟩,
            ?_, rfl, List.cons_ne_nil _ _⟩⟩
        simp only [Tab.send, none, List.nil_append]
      · exact absurd first started
  | click indice member =>
      rw [blank.noDatas] at member
      cases member
  | period time indice selected =>
      rw [blank.unselected] at selected
      cases selected
  | tick handle active indice selected =>
      rw [blank.unselected] at selected
      cases selected
  | destroy =>
      have cleared : tab.cleared = [] := by simp [Tab.cleared, blank.noInterval]
      exact .inl ⟨blank.unselected, blank.noDatas, blank.noData, blank.noLabels, cleared,
        blank.waiting⟩
  | logged sent response waiting nothing => exact .inl (blank.receive waiting response).1
  | noIndice sent waiting request =>
      obtain ⟨received, answered⟩ := blank.receive waiting (.indices [])
      exact .inl ⟨rfl, rfl, received.noData, received.noLabels, received.noInterval, .inl answered⟩
  | indice sent first rest waiting request =>
      obtain ⟨received, answered⟩ := blank.receive waiting (.indices (first :: rest))
      exact .inr (received.select answered (blank.of_pending waiting).2.2 _ first)
  | total sent tmp waiting request => exact absurd (onlyList waiting) (by rw [request]; decide)
  | emptyChart sent waiting request => exact absurd (onlyList waiting) (by rw [request]; decide)
  | chart sent tmp last waiting request lastOf =>
      exact absurd (onlyList waiting) (by rw [request]; decide)
  | append sent tmp last data labels waiting request lastOf datasets labelled =>
      exact absurd (onlyList waiting) (by rw [request]; decide)

theorem Effect.sane (sane : Sane tab) (effect : Effect tab event thrown tab') : Sane tab' := by
  rcases sane with blank | loaded
  · exact effect.blank blank
  · exact .inr (effect.loaded loaded)

/-- Every step of the page stays in the phases, so every event of a run has an effect. -/
theorem sane_step (sane : Sane tab) (enabled : (page V).Enabled tab event) :
    Sane ((page V).step tab event) :=
  (effect sane enabled).sane sane

theorem sane_run {events : List (Event V)} (valid : (page V).Valid {} events) :
    Sane ((page V).run {} events) :=
  valid.run (fun _ _ sane enabled => sane_step sane enabled) sane_start

/-- **What the effects keep, a run keeps**, where the steps of the run may be restricted. -/
theorem keeps_run {P : Tab V → Event V → Prop} {Inv : Tab V → Prop}
    (keeps : ∀ {tab event thrown tab'}, Sane tab → Inv tab → P tab event →
      Effect tab event thrown tab' → Inv tab')
    {tab : Tab V} {events : List (Event V)} (valid : (page V).Valid tab events)
    (steps : (page V).EachStep P tab events) (sane : Sane tab) (start : Inv tab) :
    Inv ((page V).run tab events) := by
  have step : ∀ tab event, (Sane tab ∧ Inv tab) → ((page V).Enabled tab event ∧ P tab event) →
      Sane ((page V).step tab event) ∧ Inv ((page V).step tab event) := by
    rintro tab event ⟨sane, holds⟩ ⟨enabled, condition⟩
    exact ⟨sane_step sane enabled, keeps sane holds condition (effect sane enabled)⟩
  exact ((valid.and steps).run step ⟨sane, start⟩).2

/-- What the effects keep holds in every run of the page. -/
theorem keeps_page {Inv : Tab V → Prop}
    (keeps : ∀ {tab event thrown tab'}, Sane tab → Inv tab → Effect tab event thrown tab' →
      Inv tab')
    {events : List (Event V)} (valid : (page V).Valid {} events) (start : Inv {}) :
    Inv ((page V).run {} events) :=
  keeps_run (fun sane holds _ effect => keeps sane holds effect) valid valid sane_start start

end Steps

end Trading.Front
