import Trading.Front.Template

/-!
# The page on the screen

A `Navigateur` is a tab with what is on its screen. After every event the template is evaluated
again, and when it throws, the screen stays as it was. The instruments and the periods that can be
clicked are those on the screen, so the browser offers less than the page allows: each of its runs
is a run of `page`, and what holds of the page in every run holds in the browser.

Which answers have been handled decides whether the screen is that of the component
(`screen_current_iff`) and whether the chart is on it (`chart_on_screen_iff`). The values and
their numbers are asked for together, and their answers may come in any order: from the first
values on, the template throws until some numbers have come. Numbers of a server one of whose
counts threw take the chart from the screen until the next ones (`caught_count_hides_chart`).
-/

set_option autoImplicit false

namespace Trading.Front

open Trading.Dao (IndiceVal)
open Trading.Runs

variable {V : Type}

/-! ## The browser -/

/-- A tab and what is on its screen, which is nothing before the page is opened and after it was
destroyed. -/
structure Navigateur (V : Type) where
  tab : Tab V := {}
  ecran : Option (Ecran V) := none

namespace Navigateur

/-- The instruments on the screen. -/
def liste (navigateur : Navigateur V) : List IndiceModule :=
  (navigateur.ecran.map fun ecran => ecran.listeIndices.map DivIndice.indice).getD []

/-- The chart on the screen. -/
def graphique (navigateur : Navigateur V) : Option (Graphique V) :=
  navigateur.ecran.bind Ecran.graphique

/-- The events that the screen offers. A click on a button calls `changeTime` unless the button
is disabled at that moment. -/
def Offered (navigateur : Navigateur V) : Event V → Prop
  | .clickIndice indice => indice ∈ navigateur.liste
  | .changeTime time => navigateur.graphique.isSome = true ∧
      ∃ entry ∈ times.zipIdx, entry.1 = time ∧
        disabledDiv navigateur.tab.component entry.2 = .ok false
  | event => Enabled navigateur.tab event

instance (navigateur : Navigateur V) : ∀ event : Event V, Decidable (navigateur.Offered event)
  | .clickIndice indice => inferInstanceAs (Decidable (indice ∈ navigateur.liste))
  | .changeTime _ => inferInstanceAs (Decidable (_ ∧ _))
  | .ngOnInit type => inferInstanceAs (Decidable (Enabled navigateur.tab (.ngOnInit type)))
  | .tick handle => inferInstanceAs (Decidable (Enabled navigateur.tab (.tick handle)))
  | .deliver sent response =>
      inferInstanceAs (Decidable (Enabled navigateur.tab (.deliver sent response)))
  | .ngOnDestroy => inferInstanceAs (Decidable (Enabled navigateur.tab .ngOnDestroy))

/-- The screen after an event. A template that throws leaves the screen as it was: this is what
Angular does, and not a part of the page. -/
def rafraichir (tab : Tab V) (before : Option (Ecran V)) : Option (Ecran V) :=
  if tab.destroyed = true then none
  else
    match rendu tab.component with
    | .ok ecran => some ecran
    | .error _ => before

end Navigateur

/-- The browser, one event after the other. -/
def navigateur (V : Type) [Max V] [Min V] : Machine (Navigateur V) (Event V) where
  Enabled := Navigateur.Offered
  step := fun before event =>
    ⟨after before.tab event, Navigateur.rafraichir (after before.tab event) before.ecran⟩

instance [Max V] [Min V] (before : Navigateur V) (event : Event V) :
    Decidable ((navigateur V).Enabled before event) :=
  inferInstanceAs (Decidable (before.Offered event))

/-! ## The numbers of the answers -/

/-- The texts of an answer with numbers. -/
def Handled.totaux (answer : Handled V) : List (Option Text) :=
  match answer.response with
  | .totaux tmp => tmp
  | _ => []

/-- The numbers that the answers amount to. -/
def numbersOf : List (Handled V) → List (Text × Option Text)
  | [] => []
  | answer :: older =>
      if answer.counts then totalNumbers answer.totaux
      else if answer.appends then addNumbers answer.rows.length (numbersOf older)
      else numbersOf older

/-- The number of all values that the answers amount to: the sum of the first and of the last
text of the last numbers, and the values of the polls since then. -/
def allTimeOf : List (Handled V) → Option Int
  | [] => none
  | answer :: older =>
      if answer.counts then do
        return (← parseInt answer.totaux[0]?.join) + (← parseInt answer.totaux[3]?.join)
      else if answer.appends then (allTimeOf older).map fun n => n + answer.rows.length
      else allTimeOf older

/-- A poll adds to a number. -/
theorem addText_numberText (length : Nat) (number : Option Int) :
    addText length (some (numberText number)) =
      numberText (number.map fun n => n + length) := by
  rw [addText, parseInt_numberText]
  cases number <;> rfl

/-- There are no numbers before an answer with numbers, and four after it. The last one is the
number of all values. -/
theorem numbersOf_cases (handled : List (Handled V)) :
    (handled.any Handled.counts = false ∧ numbersOf handled = [] ∧ allTimeOf handled = none) ∨
      (handled.any Handled.counts = true ∧ ∃ today month year,
        numbersOf handled =
          [today, month, year, ("All time values".toList,
            some (numberText (allTimeOf handled)))]) := by
  induction handled with
  | nil => exact .inl ⟨rfl, rfl, rfl⟩
  | cons answer older ih =>
      rw [numbersOf, allTimeOf, List.any_cons]
      cases counts : answer.counts with
      | true => exact .inr ⟨rfl, _, _, _, rfl⟩
      | false =>
          cases appends : answer.appends with
          | false => exact ih
          | true =>
              rcases ih with ⟨none, numbers, noCount⟩ | ⟨some, today, month, year, numbers⟩
              · exact .inl ⟨none, by simp [numbers, addNumbers], by simp [noCount]⟩
              · have added := addText_numberText answer.rows.length (allTimeOf older)
                rw [if_neg Bool.false_ne_true, if_pos rfl, if_neg Bool.false_ne_true, if_pos rfl,
                  ← added, numbers]
                exact .inr ⟨some, _, _, _, rfl⟩

/-! ## What the answers say of the component -/

/-- The fields that the template reads. -/
structure Recorded (tab : Tab V) : Prop where
  charted : tab.component.chartDatasets.isSome = tab.handled.any Handled.charts
  numbered : tab.component.numbers = numbersOf tab.handled

/-- An answer that is neither for the chart nor for the numbers. -/
theorem Recorded.other {tab : Tab V} (recorded : Recorded tab) (answer : Handled V)
    (noChart : answer.charts = false) (noNumbers : answer.counts = false)
    (noPoll : answer.appends = false) :
    tab.component.chartDatasets.isSome = (answer :: tab.handled).any Handled.charts ∧
      tab.component.numbers = numbersOf (answer :: tab.handled) := by
  constructor
  · rw [List.any_cons, noChart, Bool.false_or]
    exact recorded.charted
  · rw [numbersOf, noNumbers, noPoll]
    exact recorded.numbered

/-- An answer for the chart leaves the numbers. -/
theorem numbersOf_vals {sent : Sent} (request : sent.request.kind = .vals)
    (tmp : List (IndiceVal V)) (time : Time) (handled : List (Handled V)) :
    numbersOf (⟨sent, .vals tmp, time⟩ :: handled) = numbersOf handled := by
  have noPoll : Handled.appends ⟨sent, .vals tmp, time⟩ = false :=
    Handled.appends_eq_false _ (by rw [request]; decide)
  rw [numbersOf, noPoll]
  rfl

section Steps

variable [Max V] [Min V] {tab tab' : Tab V} {event : Event V} {thrown : Option TypeError}

theorem Effect.recorded (recorded : Recorded tab) (effect : Effect tab event thrown tab') :
    Recorded tab' := by
  obtain ⟨charted, numbered⟩ := recorded
  cases effect with
  | init type first => exact ⟨charted, numbered⟩
  | click indice member => exact ⟨charted, numbered⟩
  | period time indice selected => exact ⟨charted, numbered⟩
  | tick handle active indice selected => exact ⟨charted, numbered⟩
  | destroy => exact ⟨charted, numbered⟩
  | logged sent response waiting nothing =>
      have noChart : Handled.charts ⟨sent, response, tab.component.timeSelected⟩ = false := by
        rcases nothing with rfl | ⟨request, rfl⟩
        · rfl
        · exact Handled.charts_eq_false _ (by rw [request]; decide)
      have noNumbers : Handled.counts ⟨sent, response, tab.component.timeSelected⟩ = false := by
        rcases nothing with rfl | ⟨-, rfl⟩ <;> rfl
      have noPoll : Handled.appends ⟨sent, response, tab.component.timeSelected⟩ = false := by
        rcases nothing with rfl | ⟨-, rfl⟩ <;> simp [Handled.appends, Handled.rows]
      obtain ⟨charts, numbers⟩ := Recorded.other ⟨charted, numbered⟩ _ noChart noNumbers noPoll
      exact ⟨charts, numbers⟩
  | noIndice sent waiting request =>
      obtain ⟨charts, numbers⟩ := Recorded.other ⟨charted, numbered⟩
        ⟨sent, .indices [], tab.component.timeSelected⟩ rfl rfl
        (Handled.appends_eq_false _ (by rw [request]; decide))
      exact ⟨charts, numbers⟩
  | indice sent first rest waiting request =>
      obtain ⟨charts, numbers⟩ := Recorded.other ⟨charted, numbered⟩
        ⟨sent, .indices (first :: rest), tab.component.timeSelected⟩ rfl rfl
        (Handled.appends_eq_false _ (by rw [request]; decide))
      exact ⟨charts, numbers⟩
  | total sent tmp waiting request =>
      have counts : Handled.counts (V := V) ⟨sent, .totaux tmp, tab.component.timeSelected⟩ =
          true := decide_eq_true request
      refine ⟨charted, ?_⟩
      change totalNumbers tmp = numbersOf (_ :: tab.handled)
      rw [numbersOf, if_pos counts]
      rfl
  | emptyChart sent waiting request =>
      have charts := Handled.charts_vals request ([] : List (IndiceVal V))
        tab.component.timeSelected
      exact ⟨(List.any_eq_true.mpr ⟨_, List.mem_cons_self, charts⟩).symm,
        numbered.trans (numbersOf_vals request [] _ tab.handled).symm⟩
  | chart sent tmp last waiting request lastOf =>
      have charts := Handled.charts_vals request tmp tab.component.timeSelected
      exact ⟨(List.any_eq_true.mpr ⟨_, List.mem_cons_self, charts⟩).symm,
        numbered.trans (numbersOf_vals request tmp _ tab.handled).symm⟩
  | append sent tmp last data labels waiting request lastOf datasets labelled =>
      have appends := Handled.appends_vals request lastOf tab.component.timeSelected
      have before : tab.handled.any Handled.charts = true := by
        rw [← charted, datasets]
        rfl
      refine ⟨?_, ?_⟩
      · change true = List.any (_ :: tab.handled) Handled.charts
        rw [List.any_cons, before, Bool.or_true]
      · change addNumbers tmp.length tab.component.numbers = numbersOf (_ :: tab.handled)
        rw [numbersOf, appends, numbered]
        rfl

/-- Before the list of instruments is there, no event brings a chart. -/
theorem Effect.noChart (blank : Blank tab) (effect : Effect tab event thrown tab') :
    tab'.component.chartDatasets = none := by
  have onlyList : ∀ {sent : Sent}, sent ∈ tab.pending → sent.request.kind = .indice :=
    fun waiting => (blank.of_pending waiting).2.1
  cases effect with
  | emptyChart sent waiting request => exact absurd (onlyList waiting) (by rw [request]; decide)
  | chart sent tmp last waiting request lastOf =>
      exact absurd (onlyList waiting) (by rw [request]; decide)
  | append sent tmp last data labels waiting request lastOf datasets labelled =>
      exact absurd (onlyList waiting) (by rw [request]; decide)
  | _ => exact blank.noData

/-- With an instrument, the list stays, a destroyed page stays destroyed, and no answer is
forgotten. -/
theorem Effect.keeps_list (loaded : Loaded tab) (effect : Effect tab event thrown tab') :
    tab'.component.datas = tab.component.datas ∧
      (tab.destroyed = true → tab'.destroyed = true) ∧
      (tab.handled.any Handled.counts = true → tab'.handled.any Handled.counts = true) := by
  have later : ∀ {answer : Handled V}, tab.handled.any Handled.counts = true →
      (answer :: tab.handled).any Handled.counts = true := by
    intro answer counted
    rw [List.any_cons, counted, Bool.or_true]
  cases effect with
  | destroy => exact ⟨rfl, fun _ => rfl, id⟩
  | noIndice sent waiting request => exact absurd request (loaded.listed sent waiting)
  | indice sent first rest waiting request => exact absurd request (loaded.listed sent waiting)
  | logged | total | emptyChart | chart | append => exact ⟨rfl, id, later⟩
  | _ => exact ⟨rfl, id, id⟩

end Steps

/-! ## The screen and the component -/

/-- The chart has come before the numbers. -/
def Unnumbered (tab : Tab V) : Prop :=
  tab.handled.any Handled.charts = true ∧ tab.handled.any Handled.counts = false

/-- **The template throws exactly when the chart has come before the numbers.** -/
theorem rendu_iff {tab : Tab V} (sane : Sane tab) (recorded : Recorded tab) :
    (∃ ecran, rendu tab.component = .ok ecran) ↔ ¬ Unnumbered tab := by
  rcases sane with blank | loaded
  · have list : (tab.component.datas.getD []).mapM (divIndice tab.component) = .ok [] := by
      rw [blank.noDatas]
      rfl
    have noChart : ¬ Unnumbered tab := by
      rintro ⟨charted, -⟩
      rw [← recorded.charted, blank.noData] at charted
      cases charted
    exact ⟨fun _ => noChart, fun _ =>
      ⟨_, rendu_of_parts (chartShown_of_undefined blank.noData) list rfl⟩⟩
  · obtain ⟨selected, isSelected⟩ := loaded.selected
    constructor
    · rintro ⟨ecran, done⟩ ⟨charted, uncounted⟩
      rw [← recorded.charted] at charted
      obtain ⟨data, datasets⟩ := Option.isSome_iff_exists.mp charted
      obtain ⟨labels, labelled⟩ :=
        Option.isSome_iff_exists.mp (loaded.labelled.trans charted)
      rcases numbersOf_cases tab.handled with ⟨-, none, -⟩ | ⟨counted, -⟩
      · rw [rendu_unnumbered datasets labelled (recorded.numbered.trans none)] at done
        cases done
      · rw [uncounted] at counted
        cases counted
    · intro numbered
      apply exists_rendu isSelected loaded.labelled
      rcases numbersOf_cases tab.handled with ⟨uncounted, -⟩ | ⟨-, today, month, year, four⟩
      · left
        rw [← Option.not_isSome_iff_eq_none, recorded.charted]
        exact fun charted => numbered ⟨charted, uncounted⟩
      · right
        rw [recorded.numbered, four]
        rfl

/-- What is on the screen: what the template makes of the component or, when the chart has come
before the numbers, the list without a chart. -/
def Shown (tab : Tab V) (ecran : Ecran V) : Prop :=
  rendu tab.component = .ok ecran ∨
    Unnumbered tab ∧ ecran.graphique = none ∧
      ecran.listeIndices.map DivIndice.indice = tab.component.datas.getD []

/-- The browser in its runs. -/
structure UpToDate (navigateur : Navigateur V) : Prop where
  sane : Sane navigateur.tab
  recorded : Recorded navigateur.tab
  destroyed : navigateur.tab.destroyed = true → navigateur.ecran = none
  opened : navigateur.tab.sent ≠ [] → navigateur.tab.destroyed = false →
    ∃ ecran, navigateur.ecran = some ecran
  shown : ∀ ecran, navigateur.ecran = some ecran → Shown navigateur.tab ecran

theorem upToDate_start : UpToDate ({} : Navigateur V) where
  sane := sane_start
  recorded := ⟨rfl, rfl⟩
  destroyed := fun _ => rfl
  opened := fun started => absurd rfl started
  shown := fun ecran none => absurd none (Option.some_ne_none ecran).symm

/-- The list on the screen is that of the component. -/
theorem Shown.liste {tab : Tab V} {ecran : Ecran V} (shown : Shown tab ecran) :
    ecran.listeIndices.map DivIndice.indice = tab.component.datas.getD [] := by
  rcases shown with done | ⟨-, -, list⟩
  · exact (rendu_listeIndices done).1
  · exact list

/-- A screen that was not drawn again is one without a chart. -/
theorem Shown.stays {tab tab' : Tab V} {ecran : Ecran V} (shown : Shown tab ecran)
    (sane : Sane tab) (recorded : Recorded tab) (unnumbered : Unnumbered tab')
    (datas : tab'.component.datas = tab.component.datas)
    (counts : tab.handled.any Handled.counts = true → tab'.handled.any Handled.counts = true) :
    Shown tab' ecran := by
  have list : ecran.listeIndices.map DivIndice.indice = tab'.component.datas.getD [] := by
    rw [datas]
    exact shown.liste
  rcases shown with done | ⟨-, noChart, -⟩
  · have numbered : ¬ Unnumbered tab := (rendu_iff sane recorded).mp ⟨ecran, done⟩
    have uncounted : tab.handled.any Handled.counts = false := by
      rw [Bool.eq_false_iff]
      intro counted
      exact absurd unnumbered.2 (by rw [counts counted]; decide)
    have noData : tab.component.chartDatasets = none := by
      rw [← Option.not_isSome_iff_eq_none, recorded.charted]
      exact fun charted => numbered ⟨charted, uncounted⟩
    have noChart : ecran.graphique = none := by
      rw [← Option.not_isSome_iff_eq_none, rendu_graphique done, chartShown_of_undefined noData]
      exact fun same => Bool.false_ne_true (Except.ok.inj same)
    exact .inr ⟨unnumbered, noChart, list⟩
  · exact .inr ⟨unnumbered, noChart, list⟩

/-- A screen with the chart is that of the component, which has the chart. -/
theorem Shown.charted {tab : Tab V} {ecran : Ecran V} (shown : Shown tab ecran)
    (drawn : ecran.graphique.isSome = true) :
    rendu tab.component = .ok ecran ∧ chartShown tab.component = .ok true := by
  rcases shown with done | ⟨-, noChart, -⟩
  · exact ⟨done, (rendu_graphique done).mp drawn⟩
  · rw [noChart] at drawn
    cases drawn

theorem chart_of_chartShown {component : IndicesComponent V}
    (shown : chartShown component = .ok true) :
    component.chartDatasets.isSome = true ∧ component.chartLabels.isSome = true := by
  rw [chartShown] at shown
  split at shown
  · rename_i defined
    exact Bool.and_eq_true_iff.mp defined
  · cases shown

section Runs

variable {before : Navigateur V} {event : Event V}

/-- A chart on the screen is that of the component. -/
theorem UpToDate.chart (current : UpToDate before) (drawn : before.graphique.isSome = true) :
    ∃ ecran, before.ecran = some ecran ∧ rendu before.tab.component = .ok ecran ∧
      chartShown before.tab.component = .ok true := by
  rw [Navigateur.graphique, Option.isSome_bind] at drawn
  obtain ⟨ecran, isOn, drawn⟩ := (Option.any_eq_true _ _).mp drawn
  exact ⟨ecran, isOn, (current.shown ecran isOn).charted drawn⟩

/-- What the screen offers is possible. -/
theorem UpToDate.enabled (current : UpToDate before) (offered : before.Offered event) :
    Enabled before.tab event := by
  have onScreen : ∀ {ecran : Ecran V}, before.ecran = some ecran →
      before.tab.destroyed = false := by
    intro ecran isOn
    rw [Bool.eq_false_iff]
    intro gone
    exact Option.some_ne_none _ (isOn.symm.trans (current.destroyed gone))
  cases event with
  | clickIndice indice =>
      change indice ∈ Option.getD (Option.map _ before.ecran) [] at offered
      cases isOn : before.ecran with
      | none =>
          rw [isOn] at offered
          cases offered
      | some ecran =>
          rw [isOn, Option.map_some, Option.getD_some, (current.shown ecran isOn).liste] at offered
          exact ⟨onScreen isOn, offered⟩
  | changeTime time =>
      obtain ⟨ecran, isOn, -, shown⟩ := current.chart offered.1
      exact ⟨onScreen isOn, chart_of_chartShown shown⟩
  | ngOnInit type => exact offered
  | tick handle => exact offered
  | deliver sent response => exact offered
  | ngOnDestroy => exact offered

variable [Max V] [Min V]

/-- Before the list of instruments is there, no event makes the template throw. -/
theorem UpToDate.loaded_of_throw (current : UpToDate before) {tab' : Tab V}
    {thrown : Option TypeError} (effect : Effect before.tab event thrown tab')
    (unnumbered : Unnumbered tab') : Loaded before.tab := by
  rcases current.sane with blank | loaded
  · have charted := unnumbered.1
    rw [← (effect.recorded current.recorded).charted, effect.noChart blank] at charted
    cases charted
  · exact loaded

theorem UpToDate.step (current : UpToDate before) (offered : before.Offered event) :
    UpToDate ((navigateur V).step before event) := by
  have effect := effect current.sane (current.enabled offered)
  have sane := effect.sane current.sane
  have recorded := effect.recorded current.recorded
  have throws : ∀ {error : TemplateError}, rendu (after before.tab event).component = .error error →
      Unnumbered (after before.tab event) := by
    intro error thrown
    by_contra numbered
    obtain ⟨ecran, done⟩ := (rendu_iff sane recorded).mpr numbered
    rw [thrown] at done
    cases done
  refine ⟨sane, recorded, ?_, ?_, ?_⟩
  · intro destroyed
    exact if_pos destroyed
  · intro _ alive
    change (after before.tab event).destroyed = false at alive
    change ∃ ecran, Navigateur.rafraichir (after before.tab event) before.ecran = some ecran
    rw [Navigateur.rafraichir, alive, if_neg Bool.false_ne_true]
    cases done : rendu (after before.tab event).component with
    | ok ecran => exact ⟨ecran, rfl⟩
    | error thrown =>
        have loaded := current.loaded_of_throw effect (throws done)
        have stillAlive : before.tab.destroyed = false := by
          rw [Bool.eq_false_iff]
          intro gone
          rw [(effect.keeps_list loaded).2.1 gone] at alive
          cases alive
        exact current.opened loaded.started stillAlive
  · intro ecran isOn
    change Navigateur.rafraichir (after before.tab event) before.ecran = some ecran at isOn
    rw [Navigateur.rafraichir] at isOn
    split at isOn
    · cases isOn
    · cases done : rendu (after before.tab event).component with
      | ok drawn =>
          rw [done] at isOn
          cases isOn
          exact .inl done
      | error thrown =>
          rw [done] at isOn
          have unnumbered := throws done
          obtain ⟨datas, -, counts⟩ :=
            effect.keeps_list (current.loaded_of_throw effect unnumbered)
          exact (current.shown ecran isOn).stays current.sane current.recorded unnumbered datas
            counts

theorem upToDate_run {events : List (Event V)} (valid : (navigateur V).Valid {} events) :
    UpToDate ((navigateur V).run {} events) :=
  valid.run (fun _ _ current offered => current.step offered) upToDate_start

/-- Every run of the browser is a run of the page. -/
theorem page_of_navigateur {events : List (Event V)} (valid : (navigateur V).Valid {} events) :
    (page V).Valid {} events ∧
      ((navigateur V).run {} events).tab = (page V).run {} events :=
  valid.project Navigateur.tab (fun _ _ => rfl)
    (fun _ _ current offered => current.enabled offered)
    (fun _ _ current offered => current.step offered) upToDate_start

end Runs

/-! ## What is on the screen -/

section Screen

variable [Max V] [Min V]

/-- **The screen is that of the component unless the values have come before the numbers.** In
every run of the browser the page is in a state of one of its runs, and while it is open the list
on the screen is the one of the component. The whole screen is what the template makes of the
component exactly when an answer with values has been handled only together with one with
numbers. -/
theorem screen_current_iff {events : List (Event V)} (valid : (navigateur V).Valid {} events) :
    let browser := (navigateur V).run {} events
    (page V).Valid {} events ∧ browser.tab = (page V).run {} events ∧
      (browser.tab.sent ≠ [] → browser.tab.destroyed = false →
        browser.liste = browser.tab.component.datas.getD [] ∧
          ((∃ ecran, browser.ecran = some ecran ∧ rendu browser.tab.component = .ok ecran) ↔
            ((∃ answer ∈ browser.tab.handled, answer.charts = true) →
              ∃ answer ∈ browser.tab.handled, answer.counts = true))) := by
  intro browser
  have current : UpToDate browser := upToDate_run valid
  obtain ⟨isRun, samePage⟩ := page_of_navigateur valid
  refine ⟨isRun, samePage, ?_⟩
  intro started alive
  obtain ⟨ecran, isOn⟩ := current.opened started alive
  have shown := current.shown ecran isOn
  have numbered : ¬ Unnumbered browser.tab ↔
      ((∃ answer ∈ browser.tab.handled, answer.charts = true) →
        ∃ answer ∈ browser.tab.handled, answer.counts = true) := by
    rw [← List.any_eq_true, ← List.any_eq_true, Unnumbered, not_and, Bool.not_eq_false]
  refine ⟨?_, ?_⟩
  · rw [Navigateur.liste, isOn]
    exact shown.liste
  · rw [← numbered, ← rendu_iff current.sane current.recorded]
    constructor
    · rintro ⟨ecran, -, done⟩
      exact ⟨ecran, done⟩
    · rintro ⟨drawn, done⟩
      rcases shown with same | ⟨unnumbered, -⟩
      · exact ⟨ecran, isOn, same⟩
      · exact absurd unnumbered ((rendu_iff current.sane current.recorded).mp ⟨drawn, done⟩)

omit [Max V] [Min V] in
/-- The condition of the chart in terms of the answers. -/
theorem chartShown_iff {tab : Tab V} (sane : Sane tab) (recorded : Recorded tab) :
    chartShown tab.component = .ok true ↔
      (∃ answer ∈ tab.handled, answer.charts = true) ∧
        ∃ n, allTimeOf tab.handled = some n ∧ 0 < n := by
  rw [← List.any_eq_true, ← recorded.charted]
  cases datasets : tab.component.chartDatasets with
  | none => simp [chartShown_of_undefined datasets]
  | some data =>
      have charted : tab.component.chartDatasets.isSome = true := by
        rw [datasets]
        rfl
      obtain ⟨labels, labelled⟩ := Option.isSome_iff_exists.mp
        ((sane.loaded_of_chart charted).labelled.trans charted)
      rcases numbersOf_cases tab.handled with ⟨-, none, noCount⟩ | ⟨-, today, month, year, four⟩
      · have throws : chartShown tab.component = .error .undefinedNumber := by
          rw [chartShown, datasets, labelled, numberAt, recorded.numbered, none]
          rfl
        simp [throws, noCount]
      · have fourth : tab.component.numbers[3]? =
            some ("All time values".toList, some (numberText (allTimeOf tab.handled))) := by
          rw [recorded.numbered, four]
          rfl
        have condition := chartShown_of_number datasets labelled fourth
        rw [isPositive, Option.bind_some, toNumber_numberText] at condition
        simp [condition, Option.any_eq_true]

/-- **The chart is on the screen exactly when values have come and their number is positive.** The
number is the one of the last answer with numbers and of the polls since then; it is not a number
when one of the texts of that answer is not, and then no poll brings the chart back. -/
theorem chart_on_screen_iff {events : List (Event V)} (valid : (navigateur V).Valid {} events)
    (alive : ((navigateur V).run {} events).tab.destroyed = false) :
    let browser := (navigateur V).run {} events
    browser.graphique.isSome = true ↔
      (∃ answer ∈ browser.tab.handled, answer.charts = true) ∧
        ∃ n, allTimeOf browser.tab.handled = some n ∧ 0 < n := by
  intro browser
  have current : UpToDate browser := upToDate_run valid
  rw [← chartShown_iff current.sane current.recorded]
  constructor
  · intro drawn
    obtain ⟨-, -, -, condition⟩ := current.chart drawn
    exact condition
  · intro condition
    have charted := (chart_of_chartShown condition).1
    have started := (current.sane.loaded_of_chart charted).started
    obtain ⟨ecran, isOn⟩ := current.opened started alive
    rcases current.shown ecran isOn with done | ⟨unnumbered, -⟩
    · rw [Navigateur.graphique, isOn]
      exact (rendu_graphique done).mpr condition
    · obtain ⟨-, n, count, -⟩ := (chartShown_iff current.sane current.recorded).mp condition
      rcases numbersOf_cases browser.tab.handled with ⟨-, -, noCount⟩ | ⟨counted, -⟩
      · exact absurd (count.symm.trans noCount) (Option.some_ne_none n)
      · rw [unnumbered.2] at counted
        cases counted

/-- An event that delivers no numbers. -/
def BringsNoNumbers : Event V → Prop
  | .deliver _ (.totaux _) => False
  | _ => True

/-- What is not a number stays so until the next numbers. -/
theorem Effect.noNumber {tab tab' : Tab V} {event : Event V} {thrown : Option TypeError}
    (effect : Effect tab event thrown tab') (noNumbers : BringsNoNumbers event)
    (nan : allTimeOf tab.handled = none) : allTimeOf tab'.handled = none := by
  have later : ∀ {answer : Handled V}, answer.counts = false →
      allTimeOf (answer :: tab.handled) = none := by
    intro answer uncounted
    simp [allTimeOf, uncounted, nan]
  cases effect with
  | total sent tmp waiting request => exact absurd noNumbers id
  | logged sent response waiting nothing =>
      apply later
      rcases nothing with rfl | ⟨-, rfl⟩ <;> rfl
  | noIndice | indice | emptyChart | chart | append => exact later rfl
  | _ => exact nan

/-- A browser without a number of all values. -/
structure Uncounted (browser : Navigateur V) : Prop where
  current : UpToDate browser
  nan : allTimeOf browser.tab.handled = none

theorem Uncounted.run {browser : Navigateur V} (uncounted : Uncounted browser)
    {later : List (Event V)} (steps : (navigateur V).Valid browser later)
    (noNumbers : ∀ event ∈ later, BringsNoNumbers event) :
    Uncounted ((navigateur V).run browser later) := by
  have keeps : ∀ browser event, Uncounted browser →
      (navigateur V).Enabled browser event ∧ BringsNoNumbers event →
      Uncounted ((navigateur V).step browser event) := by
    rintro browser event ⟨current, nan⟩ ⟨offered, noNumbers⟩
    have effect := effect current.sane (current.enabled offered)
    exact ⟨current.step offered, effect.noNumber noNumbers nan⟩
  exact (steps.and ((Machine.eachStep_events _ _).mpr noNumbers)).run keeps uncounted

omit [Max V] [Min V] in
theorem Uncounted.noChart {browser : Navigateur V} (uncounted : Uncounted browser) :
    browser.graphique = none := by
  obtain ⟨current, nan⟩ := uncounted
  rw [← Option.not_isSome_iff_eq_none]
  intro drawn
  obtain ⟨-, -, -, condition⟩ := current.chart drawn
  obtain ⟨-, n, count, -⟩ := (chartShown_iff current.sane current.recorded).mp condition
  exact Option.some_ne_none n (count.symm.trans nan)

omit [Max V] [Min V] in
/-- Numbers are the answer to a request for them. -/
theorem kind_of_totaux {request : Request} {tmp : List (Option Text)}
    (kind : fits request (.totaux tmp : Response V) = true) : request.kind = .total := by
  cases request with
  | getTotal ID type => rfl
  | _ => cases kind

/-- Numbers whose fourth text is missing. -/
theorem UpToDate.uncounted {browser : Navigateur V} (current : UpToDate browser) {sent : Sent}
    {tmp : List (Option Text)} (missing : tmp[3]?.join = none)
    (offered : browser.Offered (.deliver sent (.totaux tmp))) :
    Uncounted ((navigateur V).step browser (.deliver sent (.totaux tmp))) := by
  have request := kind_of_totaux offered.2
  have counts : Handled.counts (V := V)
      ⟨sent, .totaux tmp, browser.tab.component.timeSelected⟩ = true := decide_eq_true request
  refine ⟨current.step offered, ?_⟩
  change allTimeOf (after browser.tab _).handled = none
  rw [after_total _ request]
  change allTimeOf (_ :: browser.tab.handled) = none
  rw [allTimeOf, if_pos counts]
  simp only [Handled.totaux, missing]
  cases parseInt tmp[0]?.join <;> rfl

/-- **A count that throws takes the chart from the screen.** When the server answers with numbers
and one of its counts has thrown, the chart is not on the screen until the next numbers come,
whatever the user does and whatever the polls bring. -/
theorem caught_count_hides_chart {events later : List (Event V)} {sent : Sent} {ID : Int}
    {curYear curMonth : Nat} {caught : Nat → Bool} {directory : Dao.Directory}
    {live : List (Dao.LiveRow V)} (thrown : ¬ ∀ call < 3, caught call = false)
    (valid : (navigateur V).Valid {} (events ++ .deliver sent (.totaux
      (Dao.getIndicesTotal ID curYear curMonth caught directory live)) :: later))
    (noNumbers : ∀ event ∈ later, BringsNoNumbers event) :
    ((navigateur V).run {} (events ++ .deliver sent (.totaux
      (Dao.getIndicesTotal ID curYear curMonth caught directory live)) :: later)).graphique =
        none := by
  rw [getIndicesTotal_of_caught thrown] at valid ⊢
  obtain ⟨first, answered, steps⟩ := (Machine.eachStep_append _ _ _).mp valid
  have current : UpToDate ((navigateur V).run {} events) := upToDate_run first
  have uncounted : Uncounted ((navigateur V).step ((navigateur V).run {} events)
      (.deliver sent (.totaux [some (Text.natText (Dao.rowsOfId ID live).length)]))) :=
    current.uncounted rfl answered
  rw [Machine.run_append]
  exact (uncounted.run steps noNumbers).noChart

end Screen

/-- The numbers come after the values. -/
def lateNumbers : Event Int :=
  .deliver ⟨1, .getTotal 1 "cfd".toList, .allTime⟩
    (.totaux [some "3".toList, some "3".toList, some "3".toList, some "1".toList])

/-- A page that polls before its numbers have come is not on the screen. -/
theorem screen_current_iff_polling_page :
    let browser := (navigateur Int).run {} pollingPage
    browser.tab = (page Int).run {} pollingPage ∧
      ¬ ∃ ecran, browser.ecran = some ecran ∧ rendu browser.tab.component = .ok ecran :=
  have ⟨_, samePage, shown⟩ := screen_current_iff
    (by decide +kernel : (navigateur Int).Valid {} pollingPage)
  have current := (shown (by decide +kernel) (by decide +kernel)).2
  ⟨samePage, fun isCurrent => absurd (current.mp isCurrent) (by decide +kernel)⟩

/-- The numbers of a server one of whose counts threw. -/
def caughtNumbers : Event Int :=
  .deliver totalRequest (.totaux
    (Dao.getIndicesTotal 1 2019 4 (fun call => call = 0) Dao.twoDays.directory oneRow))

/-- Neither the numbers nor a poll bring the chart to the screen. -/
theorem caught_count_hides_chart_poll :
    ((navigateur Int).run {}
      (pollingPage ++ caughtNumbers :: [.tick 0, latePoll])).graphique = none :=
  caught_count_hides_chart (fun read => Bool.noConfusion (read 0 (by decide)))
    (by decide +kernel :
      (navigateur Int).Valid {} (pollingPage ++ caughtNumbers :: [.tick 0, latePoll]))
    (by simp [BringsNoNumbers, latePoll])

/-- The numbers bring the chart to the screen. -/
theorem chart_on_screen_iff_late_numbers :
    ((navigateur Int).run {} (pollingPage ++ [lateNumbers])).graphique.isSome = true :=
  (chart_on_screen_iff
    (by decide +kernel : (navigateur Int).Valid {} (pollingPage ++ [lateNumbers]))
    (by decide +kernel)).mpr ⟨by decide +kernel, 4, by decide +kernel, by decide⟩

end Trading.Front
