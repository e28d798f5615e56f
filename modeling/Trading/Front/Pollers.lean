import Trading.Front.Effects

/-!
# The interval of a page

An answer to `getIndiceVals` clears the interval that `timing` holds before it starts a new
one, so a page never has two of them (`at_most_one_poller`).

`ngOnDestroy` clears the interval too, but it leaves the subscriptions. An answer that arrives
afterwards starts an interval that nothing clears (`polls_after_destruction`); it has to be an
answer to `getIndiceVals` with at least one value (`quiet_after_destruction_iff`).
-/

set_option autoImplicit false

namespace Trading.Front

open Trading.Dao (IndiceVal)
open Trading.Runs

variable {V : Type}

/-! ## One interval -/

/-- There is no interval but the one that `timing` holds. -/
def Polling (tab : Tab V) : Prop :=
  tab.intervals = [] ∨
    ∃ handle, tab.intervals = [handle] ∧ tab.component.timing = some handle ∧ handle < tab.handles

theorem Polling.cleared {tab : Tab V} (polling : Polling tab) : tab.cleared = [] := by
  rcases polling with none | ⟨handle, intervals, timing, -⟩
  · simp [Tab.cleared, none]
  · simp [Tab.cleared, intervals, timing]

section Steps

variable [Max V] [Min V] {tab tab' : Tab V} {event : Event V} {thrown : Option TypeError}

theorem Effect.polling (polling : Polling tab) (effect : Effect tab event thrown tab') :
    Polling tab' := by
  cases effect with
  | init type first => exact polling
  | click indice member => exact polling
  | period time indice selected => exact polling
  | tick handle active indice selected => exact polling
  | destroy => exact .inl polling.cleared
  | logged sent response waiting nothing => exact polling
  | noIndice sent waiting request => exact polling
  | indice sent first rest waiting request => exact polling
  | total sent tmp waiting request => exact polling
  | emptyChart sent waiting request => exact .inl polling.cleared
  | chart sent tmp last waiting request lastOf =>
      refine .inr ⟨tab.handles, ?_, rfl, Nat.lt_succ_self _⟩
      exact congrArg (tab.handles :: ·) polling.cleared
  | append sent tmp last data labels waiting request lastOf datasets labelled => exact polling

theorem polling_run {events : List (Event V)} (valid : (page V).Valid {} events) :
    Polling ((page V).run {} events) := by
  apply keeps_page ?_ valid (.inl rfl)
  intro tab event thrown tab' _ polling effect
  exact effect.polling polling

/-- The intervals after an answer to `getIndiceVals`. -/
theorem intervals_vals (polling : Polling tab) {sent : Sent} (request : sent.request.kind = .vals)
    (tmp : List (IndiceVal V)) :
    (after tab (.deliver sent (.vals tmp))).intervals = if tmp = [] then [] else [tab.handles] := by
  cases lastOf : tmp.getLast? with
  | none =>
      obtain rfl := List.getLast?_eq_none_iff.mp lastOf
      simp only [after, handler_vals request, onIndiceVals_run_nil, if_true]
      exact polling.cleared
  | some last =>
      have notEmpty : tmp ≠ [] := by
        rintro rfl
        cases lastOf
      simp only [after, handler_vals request, onIndiceVals_run lastOf, if_neg notEmpty]
      exact congrArg (tab.handles :: ·) polling.cleared

/-- **At most one poller.** In every state of every run at most one interval is active, and
`timing` holds it. The next answer to `getIndiceVals` stops it, also one without values, and so
does `ngOnDestroy`. -/
theorem at_most_one_poller {events : List (Event V)} (valid : (page V).Valid {} events) :
    let tab := (page V).run {} events
    tab.intervals.length ≤ 1 ∧
      ∀ handle ∈ tab.intervals, tab.component.timing = some handle ∧
        (∀ sent tmp, sent.request.kind = .vals → Enabled tab (.deliver sent (.vals tmp)) →
          handle ∉ (after tab (.deliver sent (.vals tmp))).intervals) ∧
        handle ∉ (after tab .ngOnDestroy).intervals := by
  intro tab
  have polling : Polling tab := polling_run valid
  refine ⟨?_, ?_⟩
  · rcases polling with none | ⟨handle, intervals, -⟩
    · simp [none]
    · simp [intervals]
  · intro handle active
    obtain ⟨timing, old⟩ : tab.component.timing = some handle ∧ handle < tab.handles := by
      rcases polling with none | ⟨only, intervals, timing, old⟩
      · rw [none] at active
        cases active
      · rw [intervals] at active
        obtain rfl := List.mem_singleton.mp active
        exact ⟨timing, old⟩
    refine ⟨timing, ?_, ?_⟩
    · intro sent tmp request _ still
      rw [intervals_vals polling request] at still
      split at still
      · cases still
      · have same := List.mem_singleton.mp still
        omega
    · intro still
      have cleared : (after tab .ngOnDestroy).intervals = [] := polling.cleared
      rw [cleared] at still
      cases still

end Steps

/-- A page that polls: the list has one instrument, and its values have arrived. -/
def pollingPage : List (Event Int) :=
  [.ngOnInit "cfd".toList,
    .deliver ⟨0, .getIndice "cfd".toList, .allTime⟩ (.indices [⟨1, "DAX 30".toList⟩]),
    .deliver ⟨2, .getIndiceVals 1 .allTime "cfd".toList, .allTime⟩
      (.vals [⟨12000, "2019-04-11 11:15:29.0".toList⟩])]

theorem at_most_one_poller_polling_page :
    ((page Int).run {} pollingPage).intervals = [0] ∧
      ((page Int).run {} pollingPage).component.timing = some 0 :=
  ⟨by decide, ((at_most_one_poller (by decide : (page Int).Valid {} pollingPage)).2 0
    (by decide)).1⟩

/-! ## After the destruction -/

/-- The polls that were sent. -/
def polls (tab : Tab V) : List Sent :=
  tab.sent.filter fun sent => sent.request.kind = .poll

/-- No interval, and no poll but the given ones. -/
def Quiet (asked : List Sent) (tab : Tab V) : Prop := tab.intervals = [] ∧ polls tab = asked

/-- An event that delivers no values for a chart. -/
def BringsNoChart : Event V → Prop
  | .deliver sent (.vals tmp) => sent.request.kind = .vals → tmp = []
  | _ => True

theorem polls_send (tab : Tab V) {request : Request} (other : request.kind ≠ .poll) :
    polls (tab.send request) = polls tab := by
  simp [polls, Tab.send, other]

theorem polls_select (tab : Tab V) (indice : IndiceModule) :
    polls (tab.select indice) = polls tab := by
  simp [polls, Tab.select, Tab.send, Request.kind]

section Steps

variable [Max V] [Min V] {tab tab' : Tab V} {event : Event V} {thrown : Option TypeError}

theorem Effect.quiet {asked : List Sent} (quiet : Quiet asked tab) (bare : BringsNoChart event)
    (effect : Effect tab event thrown tab') : Quiet asked tab' := by
  obtain ⟨noInterval, same⟩ := quiet
  have cleared : tab.cleared = [] := by simp [Tab.cleared, noInterval]
  cases effect with
  | init type first => exact ⟨noInterval, (polls_send _ (by simp [Request.kind])).trans same⟩
  | click indice member => exact ⟨noInterval, (polls_select tab indice).trans same⟩
  | period time indice selected =>
      exact ⟨noInterval, (polls_send _ (by simp [Request.kind])).trans same⟩
  | tick handle active indice selected =>
      rw [noInterval] at active
      cases active
  | destroy => exact ⟨cleared, same⟩
  | logged sent response waiting nothing => exact ⟨noInterval, same⟩
  | noIndice sent waiting request => exact ⟨noInterval, same⟩
  | indice sent first rest waiting request => exact ⟨noInterval, (polls_select _ first).trans same⟩
  | total sent tmp waiting request => exact ⟨noInterval, same⟩
  | emptyChart sent waiting request => exact ⟨cleared, same⟩
  | chart sent tmp last waiting request lastOf =>
      rw [bare request] at lastOf
      cases lastOf
  | append sent tmp last data labels waiting request lastOf datasets labelled =>
      exact ⟨noInterval, same⟩

/-- An event after which there is no interval brought no chart. -/
theorem bringsNoChart_of_intervals (polling : Polling tab)
    (noInterval : (after tab event).intervals = []) : BringsNoChart event := by
  cases event with
  | deliver sent response =>
      cases response with
      | vals tmp =>
          intro request
          by_contra notEmpty
          rw [intervals_vals polling request, if_neg notEmpty] at noInterval
          cases noInterval
      | _ => trivial
  | _ => trivial

/-- **When nothing polls after the destruction.** No state after `ngOnDestroy` has an interval
and no poll is sent after it, exactly when no answer to `getIndiceVals` that arrives after it has
a value. -/
theorem quiet_after_destruction_iff {before after : List (Event V)}
    (valid : (page V).Valid {} (before ++ .ngOnDestroy :: after)) :
    (∀ first rest, after = first ++ rest →
      Quiet (polls ((page V).run {} before))
        ((page V).run {} (before ++ .ngOnDestroy :: first))) ↔
      ∀ event ∈ after, BringsNoChart event := by
  constructor
  · intro quiet event member
    obtain ⟨first, rest, rfl⟩ := List.append_of_mem member
    have upTo : (page V).Valid {} (before ++ .ngOnDestroy :: first) := by
      rw [← List.cons_append, ← List.append_assoc] at valid
      exact ((Machine.eachStep_append _ _ _).mp valid).1
    obtain ⟨noInterval, -⟩ := quiet (first ++ [event]) rest (by simp)
    rw [← List.cons_append, ← List.append_assoc, Machine.run_append] at noInterval
    exact bringsNoChart_of_intervals (polling_run upTo) noInterval
  · rintro bare first rest rfl
    obtain ⟨validBefore, enabled, validAfter⟩ := (Machine.eachStep_append _ _ _).mp valid
    have validFirst := ((Machine.eachStep_append _ _ _).mp validAfter).1
    have bareFirst : (page V).EachStep (fun _ event => BringsNoChart event)
        ((page V).step ((page V).run {} before) .ngOnDestroy) first :=
      (Machine.eachStep_events _ _).mpr fun event member =>
        bare event (List.mem_append_left rest member)
    have sane := sane_step (sane_run validBefore) enabled
    have destroyed : Quiet (polls ((page V).run {} before))
        ((page V).step ((page V).run {} before) .ngOnDestroy) :=
      ⟨(polling_run validBefore).cleared, rfl⟩
    have still := keeps_run (fun _ quiet bare effect => effect.quiet quiet bare) validFirst
      bareFirst sane destroyed
    rw [Machine.run_append]
    exact still

end Steps

/-- The answer to the first poll of `pollingPage`. -/
def latePoll : Event Int :=
  .deliver ⟨3, .getIndiceNewVals 1 (some "2019-04-11 11:15:29.0".toList) "cfd".toList, .allTime⟩
    (.vals [⟨12005, "2019-04-11 11:15:34.0".toList⟩])

theorem quiet_after_destruction_late_poll :
    (page Int).Valid {} ((pollingPage ++ [.tick 0]) ++ .ngOnDestroy :: [latePoll]) ∧
      Quiet (polls ((page Int).run {} (pollingPage ++ [.tick 0])))
        ((page Int).run {} ((pollingPage ++ [.tick 0]) ++ .ngOnDestroy :: [latePoll])) := by
  refine ⟨by decide, ?_⟩
  have bare : ∀ event ∈ [latePoll], BringsNoChart event := by
    intro event member
    obtain rfl := List.mem_singleton.mp member
    intro request
    cases request
  exact (quiet_after_destruction_iff (by decide)).mpr bare [latePoll] [] rfl

/-- **The page polls after its destruction** when the values of the chart arrive late. -/
theorem polls_after_destruction :
    let before : List (Event Int) :=
      [.ngOnInit "cfd".toList,
        .deliver ⟨0, .getIndice "cfd".toList, .allTime⟩ (.indices [⟨1, "DAX 30".toList⟩])]
    let late : Event Int :=
      .deliver ⟨2, .getIndiceVals 1 .allTime "cfd".toList, .allTime⟩
        (.vals [⟨12000, "2019-04-11 11:15:29.0".toList⟩])
    (page Int).Valid {} (before ++ .ngOnDestroy :: [late, .tick 0]) ∧
      ((page Int).run {} (before ++ .ngOnDestroy :: [late])).intervals = [0] ∧
      (polls ((page Int).run {} before)).length = 0 ∧
      (polls ((page Int).run {} (before ++ .ngOnDestroy :: [late, .tick 0]))).length = 1 := by
  decide

end Trading.Front
