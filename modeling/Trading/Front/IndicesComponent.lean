import Mathlib.Order.Lattice
import Trading.Dao.IndiceDaoImpl
import Trading.Runs

/-!
# The page of the charts

`IndicesComponent` of the front end. The user selects an instrument and a period; the page asks
the server for the values and for their numbers, and every five seconds for the values that are
new. It keeps no record of what it has asked for: each answer is handled as it arrives, under
the selection of that moment.

A `Tab` is the component in its browser: the active intervals, the requests that were sent and
those that are unanswered, and the answers that were handled. A handler is a program on the tab
that may throw, and what it did before it threw stays done. The events may come in any order in
which they are possible, and an answer is any answer of the kind of its request.
-/

set_option autoImplicit false

namespace Trading.Front

open Trading.Text (intText digitsValue)
open Trading.Dao (IndiceVal)
open Trading.Runs

/-! ## Numbers -/

/-- `parseInt` of a text or of `undefined`; `none` is `NaN`. The texts are counts, so only
decimal numerals are read, and their numbers are exact. -/
def parseInt (text : Option Text) : Option Int :=
  let leading (t : Text) : Option Int := (digitsValue (t.takeWhile Char.isDigit)).map Int.ofNat
  match (text.getD "undefined".toList).dropWhile Char.isWhitespace with
  | '-' :: rest => (leading rest).map Int.neg
  | '+' :: rest => leading rest
  | rest => leading rest

/-- `""+number`. -/
def numberText : Option Int → Text
  | none => "NaN".toList
  | some number => intText number

/-- `""+(parseInt(first)+parseInt(second))`. -/
def sumText (first second : Option Text) : Text :=
  numberText (do return (← parseInt first) + (← parseInt second))

/-- `""+(parseInt(n)+length)`. -/
def addText (length : Nat) (n : Option Text) : Text :=
  numberText (do return (← parseInt n) + length)

/-! ## The component -/

structure IndiceModule where
  id : Int
  nom : Text
  deriving DecidableEq

/-- The entries of `times`. -/
inductive Time where
  | allTime
  | year
  | month
  | today
  deriving DecidableEq

def Time.text : Time → Text
  | allTime => "All time".toList
  | year => "Year".toList
  | month => "Month".toList
  | today => "Today".toList

/-- The fields of the component. An undefined field is `none`; `datas` is `datas[0]`, and
`chartDatasets` is `chartDatasets[0].data`. -/
structure IndicesComponent (V : Type) where
  datas : Option (List IndiceModule) := none
  indiceSelected : Option IndiceModule := none
  timeSelected : Time := .allTime
  type : Text := []
  count : Nat := 0
  timing : Option Nat := none
  maxDate : Option Text := none
  maxVal : Option V := none
  minVal : Option V := none
  numbers : List (Text × Option Text) := []
  chartDatasets : Option (List V) := none
  chartLabels : Option (List Text) := none

/-- The requests of the service, with what their links carry. -/
inductive Request where
  | getIndice (type : Text)
  | getTotal (ID : Int) (type : Text)
  | getIndiceVals (ID : Int) (TIME : Time) (type : Text)
  | getIndiceNewVals (ID : Int) (DATE : Option Text) (type : Text)
  deriving DecidableEq

/-- A request that was sent, with its number and the period that was selected then. -/
structure Sent where
  num : Nat
  request : Request
  time : Time
  deriving DecidableEq

/-- What the server answers, or an error. -/
inductive Response (V : Type) where
  | indices (response : List IndiceModule)
  | totaux (response : List (Option Text))
  | vals (response : List (IndiceVal V))
  | erreur
  deriving DecidableEq

/-- An answer that was handled, with the period that was selected then. -/
structure Handled (V : Type) where
  sent : Sent
  response : Response V
  time : Time

/-- The component in its browser. The requests that were sent and the answers that were handled
are listed from the last one on. -/
structure Tab (V : Type) where
  component : IndicesComponent V := {}
  intervals : List Nat := []
  handles : Nat := 0
  sent : List Sent := []
  pending : List Sent := []
  handled : List (Handled V) := []
  destroyed : Bool := false

/-- What is thrown: a property of `undefined`, or `reduce` of an empty array. -/
inductive TypeError where
  | undefinedIndice
  | undefinedChart
  | emptyReduce
  deriving DecidableEq

abbrev Handler (V : Type) := EStateM TypeError (Tab V)

variable {V : Type}

/-! ## The handlers -/

/-- The tab after a request. -/
def Tab.send (tab : Tab V) (request : Request) : Tab V :=
  let sent : Sent := ⟨tab.sent.length, request, tab.component.timeSelected⟩
  { tab with sent := sent :: tab.sent, pending := tab.pending ++ [sent] }

def send (request : Request) : Handler V Unit := modify fun tab => tab.send request

def update (change : IndicesComponent V → IndicesComponent V) : Handler V Unit :=
  modify fun tab => { tab with component := change tab.component }

/-- `clearInterval(this.timing)`. -/
def clearInterval : Handler V Unit :=
  modify fun tab =>
    { tab with intervals := tab.intervals.filter fun handle => tab.component.timing ≠ some handle }

/-- `this.indiceSelected.id`. -/
def selectedId : Handler V Int := do
  match (← get).component.indiceSelected with
  | none => throw .undefinedIndice
  | some indice => return indice.id

def getTotal : Handler V Unit := do
  let id ← selectedId
  send (.getTotal id (← get).component.type)

def getIndiceVals : Handler V Unit := do
  let id ← selectedId
  let component := (← get).component
  send (.getIndiceVals id component.timeSelected component.type)

def getNewVals : Handler V Unit := do
  let id ← selectedId
  let component := (← get).component
  send (.getIndiceNewVals id component.maxDate component.type)

/-- `this.timing = setInterval(...)`. -/
def startTiming : Handler V Unit :=
  modify fun tab =>
    { tab with
      intervals := tab.handles :: tab.intervals
      handles := tab.handles + 1
      component := { tab.component with timing := some tab.handles } }

/-- `this.chartDatasets[0].data.reduce(...)`. -/
def reduceData (extreme : List V → Option V) : Handler V V := do
  match (← get).component.chartDatasets with
  | none => throw .undefinedChart
  | some data =>
      match extreme data with
      | none => throw .emptyReduce
      | some val => return val

def getMax [Max V] : Handler V V := reduceData List.max?

def getMin [Min V] : Handler V V := reduceData List.min?

/-- The label of a value. -/
def label (timeSelected : Time) (date : Text) : Text :=
  if timeSelected = .today then (date.drop 11).take 5 else date.take 16

/-- The answer to `getIndice`. -/
def onIndice (response : List IndiceModule) : Handler V Unit := do
  update fun component => { component with datas := some response }
  update fun component => { component with indiceSelected := response.head? }
  getTotal
  getIndiceVals

/-- The four lines of `numbers`. -/
def totalNumbers (tmp : List (Option Text)) : List (Text × Option Text) :=
  let entry (place : Nat) : Option Text := tmp[place]?.join
  [("Today values".toList, entry 3),
    ("Month values".toList, some (sumText (entry 2) (entry 3))),
    ("Year values".toList, some (sumText (entry 1) (entry 3))),
    ("All time values".toList, some (sumText (entry 0) (entry 3)))]

/-- The answer to `getTotal`. -/
def onTotal (tmp : List (Option Text)) : Handler V Unit :=
  update fun component => { component with numbers := totalNumbers tmp }

/-- The answer to `getIndiceVals`. -/
def onIndiceVals [Max V] [Min V] (tmp : List (IndiceVal V)) : Handler V Unit := do
  clearInterval
  update fun component =>
    { component with
      chartDatasets := some (tmp.map IndiceVal.val)
      chartLabels := some (tmp.map fun o => label component.timeSelected o.date) }
  let maxVal ← getMax
  update fun component => { component with maxVal := some maxVal }
  let minVal ← getMin
  update fun component => { component with minVal := some minVal }
  match tmp.getLast? with
  | none => pure ()
  | some last =>
      update fun component => { component with maxDate := some last.date }
      startTiming

/-- The two `push` of `getNewVals` for a value. -/
def push (e : IndiceVal V) : Handler V Unit := do
  let component := (← get).component
  match component.chartLabels with
  | none => throw .undefinedChart
  | some labels =>
      let pushed := labels ++ [label component.timeSelected e.date]
      update fun component => { component with chartLabels := some pushed }
  match component.chartDatasets with
  | none => throw .undefinedChart
  | some data =>
      update fun component => { component with chartDatasets := some (data ++ [e.val]) }

/-- `this.numbers.forEach(...)`. -/
def addNumbers (length : Nat) (numbers : List (Text × Option Text)) : List (Text × Option Text) :=
  numbers.map fun n => (n.1, some (addText length n.2))

/-- The answer to `getNewVals`. The arrays are copied by `slice`, which changes no entry. -/
def onNewVals [Max V] [Min V] (tmp : List (IndiceVal V)) : Handler V Unit := do
  match tmp.getLast? with
  | none => pure ()
  | some last =>
      tmp.forM push
      update fun component => { component with maxDate := some last.date }
      update fun component =>
        { component with numbers := addNumbers tmp.length component.numbers }
      let maxVal ← getMax
      update fun component => { component with maxVal := some maxVal }
      let minVal ← getMin
      update fun component => { component with minVal := some minVal }

def ngOnInit (type : Text) : Handler V Unit := do
  update fun component => { component with type := type }
  send (.getIndice type)

def clickIndice (indice : IndiceModule) : Handler V Unit := do
  update fun component => { component with indiceSelected := some indice }
  getTotal
  getIndiceVals

def changeTime (time : Time) : Handler V Unit := do
  update fun component => { component with timeSelected := time }
  getIndiceVals

/-- The function of the interval. -/
def onTick : Handler V Unit := do
  update fun component => { component with count := component.count + 1 }
  getNewVals

def ngOnDestroy : Handler V Unit := do
  clearInterval
  modify fun tab => { tab with destroyed := true }

/-! ## Events -/

inductive Event (V : Type) where
  | ngOnInit (type : Text)
  | clickIndice (indice : IndiceModule)
  | changeTime (time : Time)
  | tick (handle : Nat)
  | deliver (sent : Sent) (response : Response V)
  | ngOnDestroy

/-- The answers of the kind of a request. -/
def fits : Request → Response V → Bool
  | _, .erreur => true
  | .getIndice _, .indices _ => true
  | .getTotal _ _, .totaux _ => true
  | .getIndiceVals _ _ _, .vals _ => true
  | .getIndiceNewVals _ _ _, .vals _ => true
  | _, _ => false

/-- The tab when an answer has arrived. -/
def Tab.receive (tab : Tab V) (sent : Sent) (response : Response V) : Tab V :=
  { tab with
    pending := tab.pending.erase sent
    handled := ⟨sent, response, tab.component.timeSelected⟩ :: tab.handled }

section Page

variable [Max V] [Min V]

/-- The function that was subscribed to a request. An error is only logged. -/
def subscriber (request : Request) (response : Response V) : Handler V Unit :=
  match request, response with
  | .getIndice _, .indices response => onIndice response
  | .getTotal _ _, .totaux response => onTotal response
  | .getIndiceVals _ _ _, .vals response => onIndiceVals response
  | .getIndiceNewVals _ _ _, .vals response => onNewVals response
  | _, _ => pure ()

def handler : Event V → Handler V Unit
  | .ngOnInit type => ngOnInit type
  | .clickIndice indice => clickIndice indice
  | .changeTime time => changeTime time
  | .tick _ => onTick
  | .deliver sent response => do
      modify fun tab => tab.receive sent response
      subscriber sent.request response
  | .ngOnDestroy => ngOnDestroy

/-- The events that are possible. The instruments are shown when they are known, and the periods
with the chart; a destroyed page has no buttons. -/
def Enabled (tab : Tab V) : Event V → Prop
  | .ngOnInit _ => tab.sent = []
  | .clickIndice indice => tab.destroyed = false ∧ indice ∈ tab.component.datas.getD []
  | .changeTime _ => tab.destroyed = false ∧ tab.component.chartDatasets.isSome = true ∧
      tab.component.chartLabels.isSome = true
  | .tick handle => handle ∈ tab.intervals
  | .deliver sent response => sent ∈ tab.pending ∧ fits sent.request response = true
  | .ngOnDestroy => tab.sent ≠ [] ∧ tab.destroyed = false

instance (tab : Tab V) : ∀ event : Event V, Decidable (Enabled tab event)
  | .ngOnInit _ => inferInstanceAs (Decidable (tab.sent = []))
  | .clickIndice _ => inferInstanceAs (Decidable (_ ∧ _))
  | .changeTime _ => inferInstanceAs (Decidable (_ ∧ _ ∧ _))
  | .tick handle => inferInstanceAs (Decidable (handle ∈ tab.intervals))
  | .deliver _ _ => inferInstanceAs (Decidable (_ ∧ _))
  | .ngOnDestroy => inferInstanceAs (Decidable (_ ∧ _))

/-- The tab after an event. What was done before an exception stays done. -/
def after (tab : Tab V) (event : Event V) : Tab V :=
  match (handler event).run tab with
  | .ok _ tab => tab
  | .error _ tab => tab

/-- The exception that an event throws. -/
def exception (tab : Tab V) (event : Event V) : Option TypeError :=
  match (handler event).run tab with
  | .ok _ _ => none
  | .error exception _ => some exception

/-- The page, one event after the other. -/
def page (V : Type) [Max V] [Min V] : Machine (Tab V) (Event V) where
  Enabled := Enabled
  step := after

instance (tab : Tab V) (event : Event V) : Decidable ((page V).Enabled tab event) :=
  inferInstanceAs (Decidable (Enabled tab event))

end Page

/-! ## What the handlers do -/

namespace Tab

/-- The selection of an instrument and the two requests for it. -/
def select (tab : Tab V) (indice : IndiceModule) : Tab V :=
  ({ tab with component := { tab.component with indiceSelected := some indice } }.send
    (.getTotal indice.id tab.component.type)).send
      (.getIndiceVals indice.id tab.component.timeSelected tab.component.type)

/-- The intervals without the one of `timing`. -/
def cleared (tab : Tab V) : List Nat :=
  tab.intervals.filter fun handle => tab.component.timing ≠ some handle

/-- The chart replaced by values, the last of which is `last`. -/
def replaced [Max V] [Min V] (tab : Tab V) (tmp : List (IndiceVal V)) (last : IndiceVal V) :
    Tab V :=
  { tab with
    intervals := tab.handles :: tab.cleared
    handles := tab.handles + 1
    component :=
      { tab.component with
        chartDatasets := some (tmp.map IndiceVal.val)
        chartLabels := some (tmp.map fun o => label tab.component.timeSelected o.date)
        maxVal := (tmp.map IndiceVal.val).max?
        minVal := (tmp.map IndiceVal.val).min?
        maxDate := some last.date
        timing := some tab.handles } }

/-- The chart, which has `data` and `labels`, extended by values, the last of which is
`last`. -/
def extended [Max V] [Min V] (tab : Tab V) (data : List V) (labels : List Text)
    (tmp : List (IndiceVal V))
    (last : IndiceVal V) : Tab V :=
  { tab with
    component :=
      { tab.component with
        chartDatasets := some (data ++ tmp.map IndiceVal.val)
        chartLabels := some (labels ++ tmp.map fun o => label tab.component.timeSelected o.date)
        maxVal := (data ++ tmp.map IndiceVal.val).max?
        minVal := (data ++ tmp.map IndiceVal.val).min?
        maxDate := some last.date
        numbers := addNumbers tmp.length tab.component.numbers } }

end Tab

section Programs

variable {A B : Type} {program : Handler V A} {next : A → Handler V B} {tab tab' : Tab V}
    {result : A}

/-- A program that returns hands its result and its tab to the next one. -/
theorem bind_run (ran : program tab = .ok result tab') :
    (program >>= next) tab = next result tab' := by
  change EStateM.bind program next tab = _
  simp only [EStateM.bind, ran]

/-- The loop of `getNewVals` appends to both arrays. -/
theorem forM_push (tmp : List (IndiceVal V)) {tab : Tab V} {data : List V} {labels : List Text}
    (datasets : tab.component.chartDatasets = some data)
    (labelled : tab.component.chartLabels = some labels) :
    tmp.forM push tab = .ok ()
      { tab with
        component :=
          { tab.component with
            chartDatasets := some (data ++ tmp.map IndiceVal.val)
            chartLabels :=
              some (labels ++ tmp.map fun o => label tab.component.timeSelected o.date) } } := by
  induction tmp generalizing tab data labels with
  | nil =>
      simp only [List.map_nil, List.append_nil, ← datasets, ← labelled]
      rfl
  | cons e rest ih =>
      have first : push e tab = .ok ()
          { tab with
            component :=
              { tab.component with
                chartDatasets := some (data ++ [e.val])
                chartLabels := some (labels ++ [label tab.component.timeSelected e.date]) } } := by
        rw [push, bind_run (rfl : (get : Handler V (Tab V)) tab = .ok tab tab)]
        simp only [labelled, datasets]
        rfl
      have both : (e :: rest).forM push = push e >>= fun _ => rest.forM push := rfl
      rw [both, bind_run first, ih rfl rfl]
      simp only [List.map_cons, List.append_assoc, List.singleton_append]

variable {indice : IndiceModule}

theorem selectedId_run (selected : tab.component.indiceSelected = some indice) :
    selectedId tab = .ok indice.id tab := by
  rw [selectedId, bind_run (rfl : (get : Handler V (Tab V)) tab = .ok tab tab), selected]
  rfl

theorem getIndiceVals_run (tab : Tab V) (selected : tab.component.indiceSelected = some indice) :
    getIndiceVals tab = .ok ()
      (tab.send (.getIndiceVals indice.id tab.component.timeSelected tab.component.type)) := by
  rw [getIndiceVals, bind_run (selectedId_run selected)]
  rfl

theorem getNewVals_run (tab : Tab V) (selected : tab.component.indiceSelected = some indice) :
    getNewVals tab = .ok ()
      (tab.send (.getIndiceNewVals indice.id tab.component.maxDate tab.component.type)) := by
  rw [getNewVals, bind_run (selectedId_run selected)]
  rfl

end Programs

variable [Max V] [Min V]

theorem onIndiceVals_run_nil (tab : Tab V) :
    onIndiceVals [] tab = .error .emptyReduce
      { tab with
        intervals := tab.cleared
        component := { tab.component with chartDatasets := some [], chartLabels := some [] } } :=
  rfl

theorem onIndiceVals_run {tab : Tab V} {tmp : List (IndiceVal V)} {last : IndiceVal V}
    (lastOf : tmp.getLast? = some last) :
    onIndiceVals tmp tab = .ok () (tab.replaced tmp last) := by
  cases tmp with
  | nil => cases lastOf
  | cons first rest =>
      simp only [onIndiceVals, lastOf]
      rfl

theorem onNewVals_run {tab : Tab V} {data : List V} {labels : List Text}
    {tmp : List (IndiceVal V)} {last : IndiceVal V}
    (datasets : tab.component.chartDatasets = some data)
    (labelled : tab.component.chartLabels = some labels) (lastOf : tmp.getLast? = some last) :
    onNewVals tmp tab = .ok () (tab.extended data labels tmp last) := by
  have notEmpty : data ++ tmp.map IndiceVal.val ≠ [] := by
    intro empty
    obtain ⟨-, none⟩ := List.append_eq_nil_iff.mp empty
    rw [List.map_eq_nil_iff.mp none] at lastOf
    cases lastOf
  obtain ⟨first, rest, whole⟩ := List.exists_cons_of_ne_nil notEmpty
  simp only [onNewVals, lastOf]
  rw [bind_run (forM_push tmp datasets labelled), whole, Tab.extended, whole]
  rfl

end Trading.Front
