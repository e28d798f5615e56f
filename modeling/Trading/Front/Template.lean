import Trading.Front.Chart
import Trading.Front.Totals

/-!
# The template of the page

What the template of `IndicesComponent` makes of the fields of the component: the list of the
instruments with the selected one marked, and the chart with the buttons of the periods, its
title and its numbers. The chart is there when both of its arrays are defined and
`numbers[3][1]>0`. The template may throw, and the screen then stays as it was.

It throws when the chart comes before the numbers (`rendu_unnumbered`), and not when there is an
instrument to compare with and four numbers where there is a chart (`exists_rendu`).
-/

set_option autoImplicit false

namespace Trading.Front

open Trading.Text (natText intText digitsValue digitsValue_natText isDigit_of_mem_natText
  mem_intText natText_ne_nil)

variable {V : Type}

/-! ## Comparisons with a number -/

/-- The number that a text is compared as; `none` is `NaN`. The texts are counts, so only whole
decimal numerals are read. -/
def toNumber (text : Text) : Option Int :=
  let whole (t : Text) : Option Int := (digitsValue t).map Int.ofNat
  match (text.dropWhile Char.isWhitespace).rdropWhile Char.isWhitespace with
  | [] => some 0
  | '-' :: rest => (whole rest).map Int.neg
  | '+' :: rest => whole rest
  | rest => whole rest

/-- `text>0`, where the text may be undefined. -/
def isPositive (text : Option Text) : Bool := (text.bind toNumber).any fun n => 0 < n

/-- `text==0`, where the text may be undefined. -/
def isZero (text : Option Text) : Bool := (text.bind toNumber).any fun n => n = 0

/-! ## The template -/

/-- What the template throws: a property of the undefined `indiceSelected`, or an entry of an
undefined number. -/
inductive TemplateError where
  | undefinedIndice
  | undefinedNumber
  deriving DecidableEq

/-- An entry of the list. -/
structure DivIndice where
  indice : IndiceModule
  selectedDiv : Bool
  deriving DecidableEq

/-- A button of a period. -/
structure TimeInput where
  value : Time
  selectedDiv : Bool
  disabledDiv : Bool
  deriving DecidableEq

/-- The part of the screen with the chart. -/
structure Graphique (V : Type) where
  inputs : List TimeInput
  chartTitle : Text
  datasets : List V
  labels : List Text
  valuesShown : Nat
  maximum : Option V
  minimum : Option V
  start : Option Text
  numbers : List (Text × Option Text)
  lastValue : Option Text
  deriving DecidableEq

/-- What is on the screen. -/
structure Ecran (V : Type) where
  listeIndices : List DivIndice
  graphique : Option (Graphique V)
  deriving DecidableEq

/-- `this.times`. -/
def times : List Time := [.allTime, .year, .month, .today]

/-- `numbers[place][1]`. -/
def numberAt (component : IndicesComponent V) (place : Nat) :
    Except TemplateError (Option Text) :=
  match component.numbers[place]? with
  | none => throw .undefinedNumber
  | some number => return number.2

/-- The condition of the chart. -/
def chartShown (component : IndicesComponent V) : Except TemplateError Bool :=
  if component.chartDatasets.isSome && component.chartLabels.isSome then
    return isPositive (← numberAt component 3)
  else return false

/-- `i==3&&numbers[0][1]==0`. -/
def disabledDiv (component : IndicesComponent V) (i : Nat) : Except TemplateError Bool :=
  if i = 3 then return isZero (← numberAt component 0) else return false

/-- `indiceSelected.nom`. -/
def selectedNom (component : IndicesComponent V) : Except TemplateError Text :=
  match component.indiceSelected with
  | none => throw .undefinedIndice
  | some indice => return indice.nom

def divIndice (component : IndicesComponent V) (indice : IndiceModule) :
    Except TemplateError DivIndice :=
  return ⟨indice, indice.nom = (← selectedNom component)⟩

def timeInput (component : IndicesComponent V) (time : Time × Nat) :
    Except TemplateError TimeInput :=
  return ⟨time.1, component.timeSelected = time.1, ← disabledDiv component time.2⟩

def graphique (component : IndicesComponent V) (data : List V) (labels : List Text) :
    Except TemplateError (Graphique V) := do
  return {
    inputs := ← times.zipIdx.mapM (timeInput component)
    chartTitle := (← selectedNom component) ++ " - ".toList ++ component.timeSelected.text
    datasets := data
    labels := labels
    valuesShown := data.length
    maximum := component.maxVal
    minimum := component.minVal
    start := labels.head?
    numbers := component.numbers
    lastValue := labels.getLast? }

/-- The chart under its condition. -/
def partGraphique (component : IndicesComponent V) (shown : Bool) :
    Except TemplateError (Option (Graphique V)) :=
  match shown, component.chartDatasets, component.chartLabels with
  | true, some data, some labels => some <$> graphique component data labels
  | _, _, _ => return none

/-- The screen of a component. The condition of the chart belongs to the outer part of the
template, which is evaluated before the parts inside. -/
def rendu (component : IndicesComponent V) : Except TemplateError (Ecran V) := do
  let shown ← chartShown component
  let listeIndices ← (component.datas.getD []).mapM (divIndice component)
  return ⟨listeIndices, ← partGraphique component shown⟩

/-! ## Numerals that are compared -/

theorem isWhitespace_of_mem_intText {n : Int} {c : Char} (member : c ∈ intText n) :
    c.isWhitespace = false := by
  rw [Bool.eq_false_iff]
  intro space
  rcases mem_intText member with rfl | digit
  · exact absurd space (by decide)
  · rw [isDigit_of_isWhitespace space] at digit
    cases digit

/-- **A number is compared as what it is.** -/
theorem toNumber_numberText (number : Option Int) : toNumber (numberText number) = number := by
  cases number with
  | none => decide
  | some n =>
      have front : (intText n).dropWhile Char.isWhitespace = intText n := by
        apply List.dropWhile_eq_self_iff.mpr
        intro positive space
        rw [isWhitespace_of_mem_intText (List.getElem_mem positive)] at space
        cases space
      have back : (intText n).rdropWhile Char.isWhitespace = intText n := by
        apply List.rdropWhile_eq_self_iff.mpr
        intro notEmpty space
        rw [isWhitespace_of_mem_intText (List.getLast_mem notEmpty)] at space
        cases space
      rw [numberText, toNumber, front, back]
      rcases lt_or_ge n 0 with negative | natural
      · rw [intText, if_pos negative]
        simp only [digitsValue_natText, Option.map_some, Int.ofNat_eq_natCast]
        exact congrArg some (show -(n.natAbs : Int) = n by omega)
      · rw [intText, if_neg (not_lt.mpr natural)]
        split
        · rename_i none
          exact absurd none (natText_ne_nil _)
        · rename_i rest numeral
          exact absurd numeral (natText_ne_cons (by decide) _ rest)
        · rename_i rest numeral
          exact absurd numeral (natText_ne_cons (by decide) _ rest)
        · simp only [digitsValue_natText, Option.map_some, Int.ofNat_eq_natCast]
          exact congrArg some (by omega)

/-- A number is read back. -/
theorem parseInt_numberText (number : Option Int) :
    parseInt (some (numberText number)) = number := by
  cases number with
  | none => decide
  | some n =>
      rcases lt_or_ge n 0 with negative | natural
      · have digits : (natText n.natAbs).takeWhile Char.isDigit = natText n.natAbs :=
          List.takeWhile_eq_self_iff.mpr fun _ member => isDigit_of_mem_natText member
        have noSpace : ('-' :: natText n.natAbs).dropWhile Char.isWhitespace =
            '-' :: natText n.natAbs := rfl
        rw [numberText, intText, if_pos negative, parseInt, Option.getD_some, noSpace]
        simp only [digits, digitsValue_natText, Option.map_some, Int.ofNat_eq_natCast]
        exact congrArg some (show -(n.natAbs : Int) = n by omega)
      · obtain ⟨m, rfl⟩ := Int.eq_ofNat_of_zero_le natural
        rw [numberText, intText_natCast]
        exact parseInt_natText m

/-! ## What the template shows -/

variable {component : IndicesComponent V}

theorem divIndice_of_selected {selected : IndiceModule}
    (isSelected : component.indiceSelected = some selected) :
    (component.datas.getD []).mapM (divIndice component) =
      .ok ((component.datas.getD []).map fun indice => ⟨indice, indice.nom = selected.nom⟩) := by
  have each : divIndice component = fun indice => pure ⟨indice, indice.nom = selected.nom⟩ := by
    funext indice
    rw [divIndice, selectedNom, isSelected]
    rfl
  rw [each]
  exact List.mapM_pure

/-- What a template that does not throw has evaluated. -/
theorem bind_eq_ok {A B : Type} {part : Except TemplateError A}
    {next : A → Except TemplateError B} {result : B} (done : part >>= next = .ok result) :
    ∃ value, part = .ok value ∧ next value = .ok result := by
  cases part with
  | error thrown => cases done
  | ok value => exact ⟨value, rfl, done⟩

theorem rendu_parts {ecran : Ecran V} (done : rendu component = .ok ecran) :
    ∃ shown, chartShown component = .ok shown ∧
      (component.datas.getD []).mapM (divIndice component) = .ok ecran.listeIndices ∧
      partGraphique component shown = .ok ecran.graphique := by
  obtain ⟨shown, condition, rest⟩ := bind_eq_ok done
  obtain ⟨listeIndices, list, rest⟩ := bind_eq_ok rest
  obtain ⟨graphique, part, rest⟩ := bind_eq_ok rest
  cases rest
  exact ⟨shown, condition, list, part⟩

theorem rendu_of_parts {shown : Bool} {list : List DivIndice} {part : Option (Graphique V)}
    (condition : chartShown component = .ok shown)
    (listed : (component.datas.getD []).mapM (divIndice component) = .ok list)
    (drawn : partGraphique component shown = .ok part) : rendu component = .ok ⟨list, part⟩ := by
  rw [rendu, condition, listed]
  change (partGraphique component shown >>= fun part => pure (Ecran.mk list part)) = _
  rw [drawn]
  rfl

/-- The list on the screen: the instruments of the component, and the marked ones have the name
of the selected one. -/
theorem rendu_listeIndices {ecran : Ecran V} (done : rendu component = .ok ecran) :
    ecran.listeIndices.map DivIndice.indice = component.datas.getD [] ∧
      ∀ div ∈ ecran.listeIndices,
        (div.selectedDiv = true ↔
          ∃ selected, component.indiceSelected = some selected ∧
            div.indice.nom = selected.nom) := by
  obtain ⟨shown, -, list, -⟩ := rendu_parts done
  cases isSelected : component.indiceSelected with
  | some selected =>
      rw [divIndice_of_selected isSelected] at list
      rw [← Except.ok.inj list]
      constructor
      · simp [Function.comp_def]
      · intro div member
        obtain ⟨indice, -, rfl⟩ := List.mem_map.mp member
        simp
  | none =>
      cases datas : component.datas.getD [] with
      | nil =>
          rw [datas] at list
          rw [← Except.ok.inj list]
          exact ⟨rfl, fun div member => absurd member List.not_mem_nil⟩
      | cons first rest =>
          rw [datas, List.mapM_cons] at list
          obtain ⟨div, marked, -⟩ := bind_eq_ok list
          rw [divIndice, selectedNom, isSelected] at marked
          cases marked

/-- The condition of the chart, for a component with both arrays and a fourth number. -/
theorem chartShown_of_number {data : List V} {labels : List Text} {number : Text × Option Text}
    (datasets : component.chartDatasets = some data)
    (labelled : component.chartLabels = some labels)
    (fourth : component.numbers[3]? = some number) :
    chartShown component = .ok (isPositive number.2) := by
  rw [chartShown, datasets, labelled, numberAt, fourth]
  rfl

theorem chartShown_of_undefined (undefined : component.chartDatasets = none) :
    chartShown component = .ok false := by
  rw [chartShown, undefined]
  rfl

theorem partGraphique_of_some {data : List V} {labels : List Text}
    (datasets : component.chartDatasets = some data)
    (labelled : component.chartLabels = some labels) :
    partGraphique component true = some <$> graphique component data labels := by
  simp only [partGraphique, datasets, labelled]

/-- The chart is on the screen when its condition holds. -/
theorem rendu_graphique {ecran : Ecran V} (done : rendu component = .ok ecran) :
    ecran.graphique.isSome = true ↔ chartShown component = .ok true := by
  obtain ⟨shown, condition, -, part⟩ := rendu_parts done
  rw [condition]
  cases shown with
  | false =>
      rw [← Except.ok.inj part]
      simp
  | true =>
      have drawn : ecran.graphique.isSome = true := by
        rw [chartShown] at condition
        split at condition
        · rename_i defined
          rw [Bool.and_eq_true, Option.isSome_iff_exists, Option.isSome_iff_exists] at defined
          obtain ⟨⟨data, datasets⟩, ⟨labels, labelled⟩⟩ := defined
          rw [partGraphique_of_some datasets labelled] at part
          obtain ⟨graphique, -, result⟩ := bind_eq_ok part
          rw [← Except.ok.inj result]
          rfl
        · cases condition
      simp [drawn]

/-- The template throws when the chart has come before the numbers. -/
theorem rendu_unnumbered {data : List V} {labels : List Text}
    (datasets : component.chartDatasets = some data)
    (labelled : component.chartLabels = some labels) (unnumbered : component.numbers = []) :
    rendu component = .error .undefinedNumber := by
  rw [rendu, chartShown, datasets, labelled, numberAt, unnumbered]
  rfl

/-- The buttons of the periods, with a first number. -/
theorem timeInputs_of_number {number : Text × Option Text}
    (first : component.numbers[0]? = some number) :
    times.zipIdx.mapM (timeInput component) =
      .ok (times.zipIdx.map fun time => ⟨time.1, component.timeSelected = time.1,
        if time.2 = 3 then isZero number.2 else false⟩) := by
  have each : timeInput component = fun time => pure ⟨time.1, component.timeSelected = time.1,
      if time.2 = 3 then isZero number.2 else false⟩ := by
    funext time
    rw [timeInput, disabledDiv, numberAt, first]
    split <;> rfl
  rw [each]
  exact List.mapM_pure

/-- The template does not throw when there is an instrument to compare with, and numbers where
there is a chart. -/
theorem exists_rendu {selected : IndiceModule}
    (isSelected : component.indiceSelected = some selected)
    (labelled : component.chartLabels.isSome = component.chartDatasets.isSome)
    (numbered : component.chartDatasets = none ∨ 4 ≤ component.numbers.length) :
    ∃ ecran, rendu component = .ok ecran := by
  have list := divIndice_of_selected isSelected
  cases datasets : component.chartDatasets with
  | none => exact ⟨_, rendu_of_parts (chartShown_of_undefined datasets) list rfl⟩
  | some data =>
      rw [datasets] at labelled numbered
      obtain ⟨labels, labelsOf⟩ := Option.isSome_iff_exists.mp labelled
      have four : 4 ≤ component.numbers.length := numbered.resolve_left (Option.some_ne_none _)
      have first := List.getElem?_eq_getElem (show 0 < component.numbers.length by omega)
      have fourth := List.getElem?_eq_getElem (show 3 < component.numbers.length by omega)
      have condition := chartShown_of_number datasets labelsOf fourth
      cases shown : isPositive component.numbers[3].2 with
      | false =>
          rw [shown] at condition
          exact ⟨_, rendu_of_parts condition list rfl⟩
      | true =>
          rw [shown] at condition
          have title : selectedNom component = .ok selected.nom := by
            rw [selectedNom, isSelected]
            rfl
          have drawn := partGraphique_of_some datasets labelsOf
          rw [graphique, timeInputs_of_number first, title] at drawn
          exact ⟨_, rendu_of_parts condition list drawn⟩

end Trading.Front
