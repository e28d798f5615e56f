import Trading.Dao.Queries
import Trading.Front.Effects

/-!
# The numbers of a page

The server sends the numbers of rows in the files and in the table as a list of texts, and the
page reads them by their places. `totals_agree_iff` says when the four numbers of the page are
those of the rows: when none of the three counts throws, and the year has four digits or no rows.
After an exception the list has one text instead of four, and the place where the page looks for
the rows of the day is empty.
-/

set_option autoImplicit false

namespace Trading.Front

open Trading.Calendar Trading.Recup Trading.Dao
open Trading.Text (natText intText wildcard digitsValue_natText isDigit_of_mem_natText)

/-! ## Numerals -/

theorem intText_natCast (n : Nat) : intText n = natText n := by
  simp [intText]

/-- A numeral begins with a digit. -/
theorem natText_ne_cons {c : Char} (noDigit : c.isDigit = false) (n : Nat) (rest : Text) :
    natText n ≠ c :: rest := by
  intro numeral
  have digit : c.isDigit = true := isDigit_of_mem_natText (numeral ▸ List.mem_cons_self)
  rw [noDigit] at digit
  cases digit

theorem isDigit_of_isWhitespace {c : Char} (space : c.isWhitespace = true) : c.isDigit = false := by
  simp only [Char.isWhitespace, Bool.or_eq_true, decide_eq_true_eq] at space
  rcases space with ((rfl | rfl) | rfl) | rfl <;> decide

/-- **A numeral is read back.** -/
theorem parseInt_natText (n : Nat) : parseInt (some (natText n)) = some (n : Int) := by
  have allDigits : (natText n).takeWhile Char.isDigit = natText n :=
    List.takeWhile_eq_self_iff.mpr fun _ member => isDigit_of_mem_natText member
  have noSpace : (natText n).dropWhile Char.isWhitespace = natText n := by
    apply List.dropWhile_eq_self_iff.mpr
    intro positive space
    have digit := isDigit_of_mem_natText (List.getElem_mem positive)
    rw [isDigit_of_isWhitespace space] at digit
    cases digit
  rw [parseInt, Option.getD_some, noSpace]
  split
  · rename_i rest numeral
    exact absurd numeral (natText_ne_cons (by decide) n rest)
  · rename_i rest numeral
    exact absurd numeral (natText_ne_cons (by decide) n rest)
  · simp only [allDigits, digitsValue_natText, Option.map_some, Int.ofNat_eq_natCast]

theorem sumText_natText (n m : Nat) :
    sumText (some (natText n)) (some (natText m)) = natText (n + m) := by
  simp only [sumText, parseInt_natText]
  exact intText_natCast (n + m)

theorem addText_natText (n m : Nat) : addText n (some (natText m)) = natText (m + n) := by
  simp only [addText, parseInt_natText]
  exact intText_natCast (m + n)

/-! ## Agreement -/

/-- The days of a year. -/
def inYear (year : Nat) (jour : Int) : Bool := (civil jour).year = year

/-- The days of a month. -/
def inMonth (year month : Nat) (jour : Int) : Bool := inYear year jour && (civil jour).month = month

/-- What the page shows under a name. -/
def numberOf (name : String) (numbers : List (Text × Option Text)) : Option Text :=
  (numbers.lookup name.toList).join

/-- The four numbers of the page are those of the rows. -/
structure NumbersAre (numbers : List (Text × Option Text)) (today month year allTime : Nat) :
    Prop where
  today : numberOf "Today values" numbers = some (natText today)
  month : numberOf "Month values" numbers = some (natText month)
  year : numberOf "Year values" numbers = some (natText year)
  allTime : numberOf "All time values" numbers = some (natText allTime)

theorem totalNumbers_four (allTime year month today : Nat) :
    NumbersAre
      (totalNumbers [some (natText allTime), some (natText year), some (natText month),
        some (natText today)])
      today (today + month) (today + year) (today + allTime) := by
  refine ⟨rfl, ?_, ?_, ?_⟩
  · exact congrArg some ((sumText_natText month today).trans (by rw [Nat.add_comm]))
  · exact congrArg some ((sumText_natText year today).trans (by rw [Nat.add_comm]))
  · exact congrArg some ((sumText_natText allTime today).trans (by rw [Nat.add_comm]))

theorem lookup_addNumbers (length : Nat) (name : Text) (numbers : List (Text × Option Text)) :
    (addNumbers length numbers).lookup name =
      (numbers.lookup name).map fun n => some (addText length n) := by
  induction numbers with
  | nil => rfl
  | cons n numbers ih =>
      rw [addNumbers, List.map_cons, List.lookup_cons, List.lookup_cons]
      split
      · rfl
      · exact ih

/-- The numbers after a poll. -/
theorem NumbersAre.add {numbers : List (Text × Option Text)} {today month year allTime : Nat}
    (shown : NumbersAre numbers today month year allTime) (length : Nat) :
    NumbersAre (addNumbers length numbers) (today + length) (month + length) (year + length)
      (allTime + length) := by
  have added : ∀ {name : String} {n : Nat}, numberOf name numbers = some (natText n) →
      numberOf name (addNumbers length numbers) = some (natText (n + length)) := by
    intro name n isShown
    obtain ⟨entry, found, rfl⟩ : ∃ entry, numbers.lookup name.toList = some entry ∧
        entry = some (natText n) := by
      simpa [numberOf, Option.join_eq_some_iff] using isShown
    rw [numberOf, lookup_addNumbers, found, Option.map_some, Option.join_some, addText_natText]
  exact ⟨added shown.today, added shown.month, added shown.year, added shown.allTime⟩

/-- Numbers are shown in one way. -/
theorem NumbersAre.unique {numbers : List (Text × Option Text)}
    {today month year allTime today' month' year' allTime' : Nat}
    (first : NumbersAre numbers today month year allTime)
    (second : NumbersAre numbers today' month' year' allTime') :
    today = today' ∧ month = month' ∧ year = year' ∧ allTime = allTime' :=
  have same : ∀ {n m : Nat} {text : Option Text},
      text = some (natText n) → text = some (natText m) →
      n = m := fun one other => Text.natText_injective (Option.some.inj (one.symm.trans other))
  ⟨same first.today second.today, same first.month second.month, same first.year second.year,
    same first.allTime second.allTime⟩

section Totals

variable {V : Type} {instant : Text → Int} (archive : Archive instant) (ID : Int)
  (curYear curMonth : Nat) (caught : Nat → Bool) (live : List (LiveRow V))

/-- The rows of the day are shown, and if the files could be read, the numbers with the rows of
the month, of the year and of all files, in this order. -/
def TotalsAgree (numbers : List (Text × Option Text)) : Prop :=
  let today := (rowsOfId ID live).length
  let month := today + archive.count ID (inMonth curYear curMonth)
  let year := today + archive.count ID (inYear curYear)
  let allTime := today + archive.count ID fun _ => true
  numberOf "Today values" numbers = some (natText today) ∧
    ((∀ call < 3, caught call = false) →
      NumbersAre numbers today month year allTime ∧
        today ≤ month ∧ month ≤ year ∧ year ≤ allTime)

variable {archive ID curYear curMonth caught live}

/-- The list of a server whose counts were all made. -/
theorem getIndicesTotal_of_read (read : ∀ call < 3, caught call = false) :
    getIndicesTotal ID curYear curMonth caught archive.directory live =
      [some (natText (archive.count ID fun jour => wildcard "*.csv".toList (fileName jour))),
        some (natText (archive.count ID fun jour => wildcard (yearFiles curYear) (fileName jour))),
        some (natText (archive.count ID fun jour =>
          wildcard (monthFiles curYear curMonth) (fileName jour))),
        some (natText (rowsOfId ID live).length)] := by
  have first := read 0 (by decide)
  have second := read 1 (by decide)
  have third := read 2 (by decide)
  simp [getIndicesTotal, first, second, third, getCount_files, countText]

/-- The list of a server one of whose counts threw. -/
theorem getIndicesTotal_of_caught (thrown : ¬ ∀ call < 3, caught call = false)
    (directory : Directory) :
    getIndicesTotal ID curYear curMonth caught directory live =
      [some (natText (rowsOfId ID live).length)] := by
  simp only [not_forall, Bool.not_eq_false] at thrown
  obtain ⟨call, below, isCaught⟩ := thrown
  match call, below with
  | 0, _ => simp [getIndicesTotal, isCaught, countText]
  | 1, _ => cases first : caught 0 <;> simp [getIndicesTotal, first, isCaught, countText]
  | 2, _ =>
      cases first : caught 0 <;> cases second : caught 1 <;>
        simp [getIndicesTotal, first, second, isCaught, countText]

/-- The rows that a pattern finds in the files of some days, if it needs a year of four digits. -/
theorem count_pattern {files : Text} {days : Int → Bool}
    (found : ∀ file ∈ archive.files,
      wildcard files (fileName file.jour) = true ↔ 1000 ≤ curYear ∧ days file.jour = true) :
    archive.count ID (fun jour => wildcard files (fileName jour)) =
      if 1000 ≤ curYear then archive.count ID days else 0 := by
  split
  · rename_i large
    apply Archive.count_congr
    intro file member
    rw [Bool.eq_iff_iff, found file member]
    exact and_iff_right large
  · rename_i small
    rw [← archive.count_none ID]
    apply Archive.count_congr
    intro file member
    rw [Bool.eq_false_iff]
    exact fun isFound => small ((found file member).mp isFound).1

theorem count_year (years : ∀ file ∈ archive.files, InEra file.jour) :
    archive.count ID (fun jour => wildcard (yearFiles curYear) (fileName jour)) =
      if 1000 ≤ curYear then archive.count ID (inYear curYear) else 0 := by
  apply count_pattern
  intro file member
  rw [wildcard_year (years file member), inYear, decide_eq_true_eq]

theorem count_month (years : ∀ file ∈ archive.files, InEra file.jour) :
    archive.count ID (fun jour => wildcard (monthFiles curYear curMonth) (fileName jour)) =
      if 1000 ≤ curYear then archive.count ID (inMonth curYear curMonth) else 0 := by
  apply count_pattern
  intro file member
  rw [wildcard_month (years file member), inMonth, inYear, Bool.and_eq_true, decide_eq_true_eq,
    decide_eq_true_eq]

theorem count_allTime :
    archive.count ID (fun jour => wildcard "*.csv".toList (fileName jour)) =
      archive.count ID fun _ => true := by
  apply Archive.count_congr
  intro file _
  exact wildcard_fileName file.jour

variable (archive ID curYear curMonth) in
theorem count_month_le :
    archive.count ID (inMonth curYear curMonth) ≤ archive.count ID (inYear curYear) := by
  apply Archive.count_mono
  intro file _ inThis
  exact (Bool.and_eq_true _ _).mp inThis |>.1

variable (archive ID curYear) in
theorem count_year_le :
    archive.count ID (inYear curYear) ≤ archive.count ID fun _ => true :=
  Archive.count_mono ID fun _ _ _ => rfl

/-- The numbers of a page that has handled totals are those of the rows exactly when the year has
four digits or the files of the year have no rows. -/
theorem numbersAre_totals_iff (years : ∀ file ∈ archive.files, InEra file.jour)
    (read : ∀ call < 3, caught call = false) {today : Nat}
    (isToday : (rowsOfId ID live).length = today) :
    NumbersAre
        (totalNumbers (getIndicesTotal ID curYear curMonth caught archive.directory live)) today
        (today + archive.count ID (inMonth curYear curMonth))
        (today + archive.count ID (inYear curYear)) (today + archive.count ID fun _ => true) ↔
      1000 ≤ curYear ∨ archive.count ID (inYear curYear) = 0 := by
  have numbers := totalNumbers_four (archive.count ID fun _ => true)
    (if 1000 ≤ curYear then archive.count ID (inYear curYear) else 0)
    (if 1000 ≤ curYear then archive.count ID (inMonth curYear curMonth) else 0) today
  have monthLe := count_month_le archive ID curYear curMonth
  rw [getIndicesTotal_of_read read, count_allTime, count_year years, count_month years, isToday]
  constructor
  · intro agree
    obtain ⟨-, -, year, -⟩ := numbers.unique agree
    split at year <;> omega
  · intro large
    have year : (if 1000 ≤ curYear then archive.count ID (inYear curYear) else 0) =
        archive.count ID (inYear curYear) := by
      split <;> omega
    have month : (if 1000 ≤ curYear then archive.count ID (inMonth curYear curMonth) else 0) =
        archive.count ID (inMonth curYear curMonth) := by
      split <;> omega
    rw [year, month] at numbers ⊢
    exact numbers

/-- **When the totals agree.** The page that has handled the totals shows the rows of the day,
and those of the month, the year and all files when these were counted, exactly when no count
threw an exception, and the year has four digits or the files of the year have no rows. -/
theorem totals_agree_iff [Max V] [Min V] (years : ∀ file ∈ archive.files, InEra file.jour)
    (tab : Tab V) {sent : Sent} (request : sent.request.kind = .total) :
    TotalsAgree archive ID curYear curMonth caught live
        (after tab (.deliver sent (.totaux
          (getIndicesTotal ID curYear curMonth caught archive.directory live)))).component.numbers ↔
      (∀ call < 3, caught call = false) ∧
        (1000 ≤ curYear ∨ archive.count ID (inYear curYear) = 0) := by
  have handled : ∀ tmp, (after tab (.deliver sent (.totaux tmp))).component.numbers =
      totalNumbers tmp := by
    intro tmp
    simp only [after, handler_total request]
    rfl
  have monthLe := count_month_le archive ID curYear curMonth
  have yearLe := count_year_le archive ID curYear
  rw [handled]
  by_cases read : ∀ call < 3, caught call = false
  · rw [and_iff_right read, ← numbersAre_totals_iff years read rfl]
    constructor
    · rintro ⟨-, agree⟩
      exact (agree read).1
    · intro numbers
      exact ⟨numbers.today, fun _ => ⟨numbers, by omega, by omega, by omega⟩⟩
  · rw [getIndicesTotal_of_caught read]
    constructor
    · rintro ⟨today, -⟩
      cases today
    · rintro ⟨isRead, -⟩
      exact absurd isRead read

end Totals

/-- A row of the day. -/
def oneRow : List (LiveRow Int) := [⟨0, some 1, 24, "2019-04-21 09:00:04.0".toList⟩]

/-- The request for the totals of the first instrument. -/
def totalRequest : Sent := ⟨1, .getTotal 1 "cfd".toList, .allTime⟩

theorem totals_agree_two_days :
    TotalsAgree twoDays 1 2019 4 (fun _ => false) oneRow
      (after ({} : Tab Int) (.deliver totalRequest (.totaux
        (getIndicesTotal 1 2019 4 (fun _ => false) twoDays.directory oneRow)))).component.numbers :=
  (totals_agree_iff (by decide) {} rfl).mpr ⟨fun _ _ => rfl, .inl (by decide)⟩

/-- **A count that throws** leaves the page without the rows of the day. -/
theorem caught_count_hides_today :
    ¬ TotalsAgree twoDays 1 2019 4 (fun call => call = 0) oneRow
        (after ({} : Tab Int) (.deliver totalRequest (.totaux
          (getIndicesTotal 1 2019 4 (fun call => call = 0) twoDays.directory
            oneRow)))).component.numbers ∧
      (after ({} : Tab Int) (.deliver totalRequest (.totaux
        (getIndicesTotal 1 2019 4 (fun call => call = 0) twoDays.directory
          oneRow)))).component.numbers =
        [("Today values".toList, none), ("Month values".toList, some "NaN".toList),
          ("Year values".toList, some "NaN".toList),
          ("All time values".toList, some "NaN".toList)] := by
  refine ⟨?_, by decide⟩
  rintro ⟨today, -⟩
  cases today

end Trading.Front
