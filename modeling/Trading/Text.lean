import Mathlib.Algebra.Group.Nat.Defs
import Mathlib.Data.Char
import Mathlib.Data.List.DropRight
import Mathlib.Data.List.Infix
import Mathlib.Data.List.Lex
import Mathlib.Data.Rat.Defs

/-!
# Numerals, lines and fields of texts

Texts are lists of characters. This module has the conversions between texts and their
parts that programs exchanging text files rely on.

* Decimal numerals: `natText` and `intText` are the shortest numerals, `padded` fills with
  zeros, and `parseInt` and `parseDecimal` read numerals back.
* Lines: `lines` is the division into lines ended by a newline, and `readLines` the one
  that accepts a carriage return, a newline or both as the end of a line.
* Fields: `fields` divides a line at a separator and drops the empty fields at its end.
* Literals: `unquote` is the value of a text put between quotes.
* Names: numerals of one width are ordered as their numbers (`padded_lt`), and `wildcard`
  matches a name with a pattern.
-/

set_option autoImplicit false

namespace Trading

/-- A text, character by character. -/
abbrev Text := List Char

namespace Text

/-! ## Numerals -/

/-- The decimal numeral of a natural number. -/
def natText (n : Nat) : Text := Nat.toDigits 10 n

/-- The decimal numeral of an integer. -/
def intText (i : Int) : Text :=
  if i < 0 then '-' :: natText i.natAbs else natText i.natAbs

/-- A numeral filled with zeros up to a width. -/
def padded (width n : Nat) : Text :=
  List.replicate (width - (natText n).length) '0' ++ natText n

theorem isDigit_of_mem_natText {n : Nat} {c : Char} (member : c ∈ natText n) :
    c.isDigit = true :=
  Nat.isDigit_of_mem_toDigits (by decide) (by decide) member

theorem natText_ne_nil (n : Nat) : natText n ≠ [] := Nat.toDigits_ne_nil

theorem natText_injective : Function.Injective natText := by
  intro first second same
  rw [← Nat.ofDigitChars_ten_toDigits (n := first), ← Nat.ofDigitChars_ten_toDigits (n := second)]
  exact congrArg (fun text => Nat.ofDigitChars 10 text 0) same

/-- The numeral of an integer has digits and possibly a minus sign. -/
theorem mem_intText {i : Int} {c : Char} (member : c ∈ intText i) :
    c = '-' ∨ c.isDigit = true := by
  unfold intText at member
  split at member
  · rcases List.mem_cons.mp member with minus | digit
    · exact .inl minus
    · exact .inr (isDigit_of_mem_natText digit)
  · exact .inr (isDigit_of_mem_natText member)

theorem not_mem_intText {i : Int} {c : Char} (noMinus : c ≠ '-') (noDigit : c.isDigit = false) :
    c ∉ intText i := by
  intro member
  rcases mem_intText member with minus | digit
  · exact noMinus minus
  · rw [noDigit] at digit
    cases digit

theorem minus_not_mem_natText (n : Nat) : '-' ∉ natText n := by
  intro member
  have digit := isDigit_of_mem_natText member
  revert digit
  decide

theorem intText_injective : Function.Injective intText := by
  intro first second same
  unfold intText at same
  split at same <;> split at same
  · have equal := natText_injective (List.cons.inj same).2
    omega
  · exact absurd (same ▸ List.mem_cons_self) (minus_not_mem_natText _)
  · exact absurd (same ▸ List.mem_cons_self) (minus_not_mem_natText _)
  · have equal := natText_injective same
    omega

/-- Zeros in front do not change the value of a numeral. -/
theorem ofDigitChars_padded (width n : Nat) : Nat.ofDigitChars 10 (padded width n) 0 = n := by
  unfold padded
  rw [Nat.ofDigitChars_append, Nat.ofDigitChars_replicate_zero, Nat.mul_zero]
  exact Nat.ofDigitChars_ten_toDigits

theorem padded_injective (width : Nat) : Function.Injective (padded width) := by
  intro first second same
  rw [← ofDigitChars_padded width first, ← ofDigitChars_padded width second, same]

/-- A number that fits into the width fills it exactly. -/
theorem length_padded {width n : Nat} (positive : 0 < width) (fits : n < 10 ^ width) :
    (padded width n).length = width := by
  have short : (natText n).length ≤ width :=
    (Nat.length_toDigits_le_iff (by decide) positive).mpr fits
  simp only [padded, List.length_append, List.length_replicate]
  omega

theorem isDigit_of_mem_padded {width n : Nat} {c : Char} (member : c ∈ padded width n) :
    c.isDigit = true := by
  rcases List.mem_append.mp member with zero | digit
  · rw [List.eq_of_mem_replicate zero]
    decide
  · exact isDigit_of_mem_natText digit

/-! ## Reading numerals -/

/-- The number written by a non-empty text of digits. -/
def digitsValue (t : Text) : Option Nat :=
  if t ≠ [] ∧ t.all Char.isDigit = true then some (Nat.ofDigitChars 10 t 0) else none

/-- Reading a signed 32-bit integer. -/
def parseInt (t : Text) : Option Int :=
  let value : Option Int :=
    match t with
    | '-' :: rest => (digitsValue rest).map fun n => -(n : Int)
    | '+' :: rest => (digitsValue rest).map fun n => (n : Int)
    | _ => (digitsValue t).map fun n => (n : Int)
  value.filter fun i => decide (-2147483648 ≤ i ∧ i ≤ 2147483647)

/-- The rational number written by a text of digits with at most one decimal point. -/
def unsignedDecimal (t : Text) : Option ℚ :=
  match t.splitOn '.' with
  | [whole] => (digitsValue whole).map fun n => (n : ℚ)
  | [whole, decimals] => (digitsValue (whole ++ decimals)).map fun n =>
    (n : ℚ) / 10 ^ decimals.length
  | _ => none

/-- Exact reading of a decimal numeral. -/
def parseDecimal : Text → Option ℚ
  | '-' :: rest => (unsignedDecimal rest).map fun q => -q
  | '+' :: rest => unsignedDecimal rest
  | t => unsignedDecimal t

theorem digitsValue_natText (n : Nat) : digitsValue (natText n) = some n := by
  have digits : (natText n).all Char.isDigit = true :=
    List.all_eq_true.mpr fun _ member => isDigit_of_mem_natText member
  rw [digitsValue, if_pos ⟨natText_ne_nil n, digits⟩]
  exact congrArg some Nat.ofDigitChars_ten_toDigits

/-- The numeral of a number is read back if the number fits into an `int`. -/
theorem parseInt_natText_eq (n : Nat) :
    parseInt (natText n) = if n ≤ 2147483647 then some (n : Int) else none := by
  have minus : ∀ rest, natText n ≠ '-' :: rest := fun rest same =>
    minus_not_mem_natText n (same ▸ List.mem_cons_self)
  have plus : ∀ rest, natText n ≠ '+' :: rest := by
    intro rest same
    have digit := isDigit_of_mem_natText (n := n) (same ▸ List.mem_cons_self : '+' ∈ natText n)
    revert digit
    decide
  unfold parseInt
  split
  · rename_i rest same
    exact absurd same (minus rest)
  · rename_i rest same
    exact absurd same (plus rest)
  · rw [digitsValue_natText]
    have inRange : (n : Int) ≤ 2147483647 ↔ n ≤ 2147483647 := by omega
    simp [Option.filter, inRange]

/-- **The numeral of a number that fits into an `int` is read back.** -/
theorem parseInt_natText {n : Nat} (fits : n ≤ 2147483647) :
    parseInt (natText n) = some (n : Int) := by
  rw [parseInt_natText_eq, if_pos fits]

/-! ## Lines -/

/-- The lines of a file: each is ended by a newline, which the last one may lack. -/
def lines (t : Text) : List Text :=
  let pieces := t.splitOn '\n'
  if pieces.getLast? = some [] then pieces.dropLast else pieces

/-- Line by line reading, where a carriage return, a newline or a carriage return
followed by a newline ends a line. -/
def readLines : Text → Text → List Text
  | current, [] => if current = [] then [] else [current]
  | current, '\r' :: '\n' :: rest => current :: readLines [] rest
  | current, '\r' :: rest => current :: readLines [] rest
  | current, '\n' :: rest => current :: readLines [] rest
  | current, c :: rest => readLines (current ++ [c]) rest

@[simp] theorem lines_nil : lines [] = [] := by decide

/-- A line and the newline after it come first. -/
theorem lines_line (line rest : Text) (oneLine : '\n' ∉ line) :
    lines (line ++ '\n' :: rest) = line :: lines rest := by
  have pieces : (line ++ '\n' :: rest).splitOn '\n' = line :: rest.splitOn '\n' :=
    List.splitOn_append_cons_self_of_not_mem oneLine rest
  obtain ⟨head, tail, more⟩ := List.exists_cons_of_ne_nil (List.splitOn_ne_nil '\n' rest)
  simp only [lines, pieces, more, List.getLast?_cons_cons, List.dropLast_cons_cons]
  split <;> rfl

/-- **A file written line by line has these lines.** -/
theorem lines_flatMap (written : List Text) (oneLine : ∀ line ∈ written, '\n' ∉ line) :
    lines (written.flatMap fun line => line ++ ['\n']) = written := by
  induction written with
  | nil => exact lines_nil
  | cons line rest ih =>
      rw [List.flatMap_cons, List.append_assoc, List.singleton_append,
        lines_line line _ (oneLine line List.mem_cons_self),
        ih fun later member => oneLine later (List.mem_cons_of_mem _ member)]

/-! ### Lines of a growing text -/

/-- The lines of a text that a newline ends. -/
def endedLines (t : Text) : List Text := (t.splitOn '\n').dropLast

/-- What stands behind the last newline of a text. -/
def openLine (t : Text) : Text := ((t.splitOn '\n').getLast?).getD []

/-- Lines and a text behind them are split into these lines and the text. -/
theorem splitOn_lines {written : List Text} {tail : Text} (oneLine : ∀ line ∈ written, '\n' ∉ line)
    (noNewline : '\n' ∉ tail) :
    ((written.flatMap fun line => line ++ ['\n']) ++ tail).splitOn '\n' = written ++ [tail] := by
  induction written with
  | nil => exact List.splitOn_eq_singleton noNewline
  | cons line written ih =>
      rw [List.flatMap_cons, List.append_assoc, List.append_assoc, List.singleton_append,
        List.splitOn_append_cons_self_of_not_mem (oneLine line List.mem_cons_self),
        ih fun later member => oneLine later (List.mem_cons_of_mem _ member), List.cons_append]

/-- Every text is made of lines and a text behind them. -/
theorem exists_lines (t : Text) : ∃ (written : List Text) (tail : Text),
    (∀ line ∈ written, '\n' ∉ line) ∧ '\n' ∉ tail ∧
      t = (written.flatMap fun line => line ++ ['\n']) ++ tail := by
  induction t with
  | nil => exact ⟨[], [], fun _ none => absurd none List.not_mem_nil, List.not_mem_nil, rfl⟩
  | cons c t ih =>
      obtain ⟨written, tail, oneLine, noNewline, rfl⟩ := ih
      by_cases newline : c = '\n'
      · refine ⟨[] :: written, tail, ?_, noNewline, by rw [newline]; rfl⟩
        intro line member
        rcases List.mem_cons.mp member with rfl | later
        · exact List.not_mem_nil
        · exact oneLine line later
      · have joins : ∀ line : Text, '\n' ∉ line → '\n' ∉ c :: line := fun line clean member =>
          (List.mem_cons.mp member).elim (fun same => newline same.symm) clean
        cases written with
        | nil => exact ⟨[], c :: tail, oneLine, joins tail noNewline, rfl⟩
        | cons first written =>
            refine ⟨(c :: first) :: written, tail, ?_, noNewline, rfl⟩
            intro line member
            rcases List.mem_cons.mp member with rfl | later
            · exact joins first (oneLine first List.mem_cons_self)
            · exact oneLine line (List.mem_cons_of_mem _ later)

theorem endedLines_append {written : List Text} {tail : Text}
    (oneLine : ∀ line ∈ written, '\n' ∉ line) (noNewline : '\n' ∉ tail) :
    endedLines ((written.flatMap fun line => line ++ ['\n']) ++ tail) = written := by
  rw [endedLines, splitOn_lines oneLine noNewline, List.dropLast_concat]

theorem openLine_append {written : List Text} {tail : Text}
    (oneLine : ∀ line ∈ written, '\n' ∉ line) (noNewline : '\n' ∉ tail) :
    openLine ((written.flatMap fun line => line ++ ['\n']) ++ tail) = tail := by
  rw [openLine, splitOn_lines oneLine noNewline, List.getLast?_concat, Option.getD_some]

/-- The lines of a text, of which the last one may lack its newline. -/
theorem lines_eq (t : Text) :
    lines t = endedLines t ++ if openLine t = [] then [] else [openLine t] := by
  obtain ⟨written, tail, oneLine, noNewline, rfl⟩ := exists_lines t
  rw [lines, splitOn_lines oneLine noNewline, endedLines_append oneLine noNewline,
    openLine_append oneLine noNewline]
  simp only [List.getLast?_concat, Option.some_inj, List.dropLast_concat]
  split
  · rw [List.append_nil]
  · rfl

theorem newline_not_mem_endedLines (t : Text) : ∀ line ∈ endedLines t, '\n' ∉ line := by
  obtain ⟨written, tail, oneLine, noNewline, rfl⟩ := exists_lines t
  rw [endedLines_append oneLine noNewline]
  exact oneLine

theorem newline_not_mem_openLine (t : Text) : '\n' ∉ openLine t := by
  obtain ⟨written, tail, oneLine, noNewline, rfl⟩ := exists_lines t
  rw [openLine_append oneLine noNewline]
  exact noNewline

theorem newline_not_mem_lines (t : Text) : ∀ line ∈ lines t, '\n' ∉ line := by
  intro line member
  rw [lines_eq] at member
  rcases List.mem_append.mp member with isEnded | isLast
  · exact newline_not_mem_endedLines t line isEnded
  · split at isLast
    · exact absurd isLast List.not_mem_nil
    · rw [List.mem_singleton.mp isLast]
      exact newline_not_mem_openLine t

/-- **A growing text keeps the lines that are ended.** -/
theorem endedLines_of_grows {t t' : Text} (grows : t <+: t') : endedLines t <+: endedLines t' := by
  obtain ⟨rest, rfl⟩ := grows
  obtain ⟨written, tail, oneLine, noNewline, rfl⟩ := exists_lines t
  obtain ⟨written', tail', oneLine', noNewline', split⟩ := exists_lines (tail ++ rest)
  have all : ∀ line ∈ written ++ written', '\n' ∉ line := fun line member =>
    (List.mem_append.mp member).elim (oneLine line) (oneLine' line)
  rw [endedLines_append oneLine noNewline, List.append_assoc, split, ← List.append_assoc,
    ← List.flatMap_append, endedLines_append all noNewline']
  exact List.prefix_append _ _

theorem readLines_append (current line rest : Text) (noReturn : '\r' ∉ line)
    (noNewline : '\n' ∉ line) :
    readLines current (line ++ rest) = readLines (current ++ line) rest := by
  induction line generalizing current with
  | nil => rw [List.nil_append, List.append_nil]
  | cons c line ih =>
      obtain ⟨headReturn, tailReturn⟩ := List.ne_and_not_mem_of_not_mem_cons noReturn
      obtain ⟨headNewline, tailNewline⟩ := List.ne_and_not_mem_of_not_mem_cons noNewline
      rw [List.cons_append]
      have step : readLines current (c :: (line ++ rest)) =
          readLines (current ++ [c]) (line ++ rest) := by
        rw [readLines]
        · intro later same
          exact absurd same.symm headReturn
        · exact fun same => headReturn same.symm
        · exact fun same => headNewline same.symm
      rw [step, ih (current ++ [c]) tailReturn tailNewline, List.append_assoc,
        List.singleton_append]

/-- **Lines ended by a carriage return and a newline are read back.** -/
theorem readLines_flatMap (written : List Text)
    (noReturn : ∀ line ∈ written, '\r' ∉ line) (noNewline : ∀ line ∈ written, '\n' ∉ line) :
    readLines [] (written.flatMap fun line => line ++ ['\r', '\n']) = written := by
  induction written with
  | nil => rfl
  | cons line rest ih =>
      rw [List.flatMap_cons, List.append_assoc,
        readLines_append [] line _ (noReturn line List.mem_cons_self)
          (noNewline line List.mem_cons_self), List.nil_append, List.cons_append,
        List.cons_append, List.nil_append, readLines,
        ih (fun later member => noReturn later (List.mem_cons_of_mem _ member))
          fun later member => noNewline later (List.mem_cons_of_mem _ member)]

/-! ## Fields -/

/-- The fields of a line. Empty fields at the end are dropped; a line without the
separator is its only field. -/
def fields (separator : Char) (line : Text) : List Text :=
  if separator ∈ line then (line.splitOn separator).rdropWhile (fun field => decide (field = []))
  else [line]

/-- A line of non-empty fields, each followed by the separator, has these fields, and an
empty last field is lost. -/
theorem fields_three {separator : Char} {first second third : Text}
    (clean : separator ∉ first ∧ separator ∉ second ∧ separator ∉ third) :
    fields separator (first ++ separator :: (second ++ separator :: (third ++ [separator]))) =
      [first, second, third].rdropWhile (fun field => decide (field = [])) := by
  have pieces : (first ++ separator :: (second ++ separator :: (third ++ [separator]))).splitOn
      separator = [first, second, third] ++ [[]] := by
    rw [List.splitOn_append_cons_self_of_not_mem clean.1,
      List.splitOn_append_cons_self_of_not_mem clean.2.1,
      List.splitOn_append_cons_self_of_not_mem clean.2.2, List.splitOn_nil]
    rfl
  have separated :
      separator ∈ first ++ separator :: (second ++ separator :: (third ++ [separator])) := by
    simp
  rw [fields, if_pos separated, pieces, List.rdropWhile_concat_pos _ _ _ (by simp)]

/-! ## Marks in a text -/

/-- A mark that does not stand in the beginning of a text stands behind it. -/
theorem split_behind {mark : Char} {lead t before after : Text} (clean : mark ∉ lead)
    (split : lead ++ t = before ++ mark :: after) :
    ∃ middle, before = lead ++ middle ∧ t = middle ++ mark :: after := by
  induction lead generalizing before with
  | nil => exact ⟨before, rfl, split⟩
  | cons c lead ih =>
      obtain ⟨head, tail⟩ := List.ne_and_not_mem_of_not_mem_cons clean
      cases before with
      | nil => exact absurd (List.cons.inj split).1.symm head
      | cons d before =>
          obtain ⟨rfl, later⟩ := List.cons.inj split
          obtain ⟨middle, rfl, rest⟩ := ih tail later
          exact ⟨middle, rfl, rest⟩

/-- A mark that does not stand in the end of a text stands before it. -/
theorem split_before {mark : Char} {t tail before after : Text} (clean : mark ∉ tail)
    (split : t ++ tail = before ++ mark :: after) :
    ∃ middle, after = middle ++ tail ∧ t = before ++ mark :: middle := by
  induction t generalizing before with
  | nil =>
      rw [List.nil_append] at split
      exact absurd (by simp [split]) clean
  | cons c t ih =>
      cases before with
      | nil =>
          obtain ⟨rfl, rest⟩ := List.cons.inj split
          exact ⟨t, rest.symm, rfl⟩
      | cons d before =>
          obtain ⟨rfl, later⟩ := List.cons.inj split
          obtain ⟨middle, rest, rfl⟩ := ih later
          exact ⟨middle, rest, rfl⟩

/-! ## Quoted texts -/

/-- What a backslash and a character stand for in a string literal of SQL. -/
def escape (c : Char) : Text :=
  match c with
  | '0' => [Char.ofNat 0]
  | 'b' => [Char.ofNat 8]
  | 'n' => ['\n']
  | 'r' => ['\r']
  | 't' => ['\t']
  | 'Z' => [Char.ofNat 26]
  | '%' => ['\\', '%']
  | '_' => ['\\', '_']
  | c => [c]

/-- The value of the string literal that is a text between quotes, if the closing quote is the
one after the text. -/
def unquote : Text → Option Text
  | [] => some []
  | '\'' :: '\'' :: rest => (unquote rest).map fun value => '\'' :: value
  | '\'' :: _ => none
  | '\\' :: c :: rest => (unquote rest).map fun value => escape c ++ value
  | ['\\'] => none
  | c :: rest => (unquote rest).map fun value => c :: value

/-! ## The order of texts -/

theorem digit_bounds {c : Char} (digit : c.isDigit = true) : 48 ≤ c.toNat ∧ c.toNat ≤ 57 := by
  simp only [Char.isDigit, Bool.and_eq_true, decide_eq_true_eq] at digit
  exact digit

theorem ofDigitChars_head (c : Char) (t : Text) :
    Nat.ofDigitChars 10 (c :: t) 0 = 10 ^ t.length * (c.toNat - 48) + Nat.ofDigitChars 10 t 0 := by
  rw [Nat.ofDigitChars_cons, Nat.ofDigitChars_eq_ofDigitChars_zero, Nat.mul_zero, Nat.zero_add]
  rfl

theorem ofDigitChars_lt {t : Text} (digits : ∀ c ∈ t, c.isDigit = true) :
    Nat.ofDigitChars 10 t 0 < 10 ^ t.length := by
  induction t with
  | nil => decide
  | cons c t ih =>
      have digit := digit_bounds (digits c List.mem_cons_self)
      have rest := ih fun d member => digits d (List.mem_cons_of_mem _ member)
      have head : 10 ^ t.length * (c.toNat - 48) ≤ 10 ^ t.length * 9 :=
        Nat.mul_le_mul_left _ (by omega)
      rw [ofDigitChars_head, List.length_cons, Nat.pow_succ]
      omega

/-- Numerals of one length are ordered as their numbers. -/
theorem lt_of_ofDigitChars_lt {first second : Text} (sameLength : first.length = second.length)
    (digits : ∀ c ∈ first, c.isDigit = true) (digits' : ∀ c ∈ second, c.isDigit = true)
    (less : Nat.ofDigitChars 10 first 0 < Nat.ofDigitChars 10 second 0) : first < second := by
  induction first generalizing second with
  | nil =>
      obtain rfl := List.eq_nil_of_length_eq_zero sameLength.symm
      exact absurd less (lt_irrefl _)
  | cons c first ih =>
      cases second with
      | nil => exact absurd sameLength (Nat.succ_ne_zero _)
      | cons d second =>
          have tailLength : first.length = second.length := Nat.succ.inj sameLength
          have tail := fun e member => digits e (List.mem_cons_of_mem _ member)
          have tail' := fun e member => digits' e (List.mem_cons_of_mem _ member)
          rcases lt_trichotomy c d with smaller | rfl | larger
          · exact List.cons_lt_cons_iff.mpr (.inl smaller)
          · rw [ofDigitChars_head, ofDigitChars_head, tailLength, Nat.add_lt_add_iff_left] at less
            exact List.cons_lt_cons_iff.mpr (.inr ⟨rfl, ih tailLength tail tail' less⟩)
          · -- a larger head outweighs every tail
            have lead : d.toNat - 48 + 1 ≤ c.toNat - 48 := by
              have lower := (digit_bounds (digits' d List.mem_cons_self)).1
              have above : d.toNat < c.toNat := larger
              omega
            have weight := Nat.mul_le_mul_left (10 ^ first.length) lead
            have small := ofDigitChars_lt tail'
            rw [ofDigitChars_head, ofDigitChars_head, ← tailLength] at less
            rw [← tailLength] at small
            rw [Nat.mul_succ] at weight
            omega

theorem padded_lt {width n m : Nat} (positive : 0 < width) (less : n < m) (fits : m < 10 ^ width) :
    padded width n < padded width m := by
  apply lt_of_ofDigitChars_lt
  · rw [length_padded positive (less.trans fits), length_padded positive fits]
  · exact fun _ member => isDigit_of_mem_padded member
  · exact fun _ member => isDigit_of_mem_padded member
  · rw [ofDigitChars_padded, ofDigitChars_padded]
    exact less

theorem append_lt_append_of_lt {first second : Text} (sameLength : first.length = second.length)
    (less : first < second) (rest rest' : Text) : first ++ rest < second ++ rest' := by
  induction first generalizing second with
  | nil =>
      obtain rfl := List.eq_nil_of_length_eq_zero sameLength.symm
      exact absurd less (lt_irrefl _)
  | cons c first ih =>
      cases second with
      | nil => exact absurd sameLength (Nat.succ_ne_zero _)
      | cons d second =>
          rcases List.cons_lt_cons_iff.mp less with smaller | ⟨rfl, tailLess⟩
          · exact List.cons_lt_cons_iff.mpr (.inl smaller)
          · exact List.cons_lt_cons_iff.mpr (.inr ⟨rfl, ih (Nat.succ.inj sameLength) tailLess⟩)

theorem append_lt_append_left (start : Text) {rest rest' : Text} (less : rest < rest') :
    start ++ rest < start ++ rest' := by
  induction start with
  | nil => exact less
  | cons c start ih => exact List.cons_lt_cons_iff.mpr (.inr ⟨rfl, ih⟩)

/-! ## Wildcards -/

/-- Whether a name matches a pattern, in which `*` stands for any text. -/
def wildcard : Text → Text → Bool
  | [], name => name.isEmpty
  | '*' :: pattern, name => name.tails.any (wildcard pattern)
  | _ :: _, [] => false
  | c :: pattern, d :: name => decide (c = d) && wildcard pattern name

theorem wildcard_cons {c : Char} (notStar : c ≠ '*') (pattern : Text) (d : Char) (name : Text) :
    wildcard (c :: pattern) (d :: name) = (decide (c = d) && wildcard pattern name) :=
  wildcard.eq_4 c pattern d name notStar

theorem wildcard_cons_nil {c : Char} (notStar : c ≠ '*') (pattern : Text) :
    wildcard (c :: pattern) [] = false :=
  wildcard.eq_3 c pattern notStar

theorem wildcard_literal {pattern : Text} (noStar : '*' ∉ pattern) (name : Text) :
    wildcard pattern name = decide (name = pattern) := by
  induction pattern generalizing name with
  | nil => cases name <;> simp [wildcard]
  | cons c pattern ih =>
      obtain ⟨head, tail⟩ := List.ne_and_not_mem_of_not_mem_cons noStar
      cases name with
      | nil => simp [wildcard_cons_nil head.symm]
      | cons d name =>
          rw [wildcard_cons head.symm, ih tail]
          simp only [List.cons.injEq, Bool.decide_and, eq_comm (a := c)]

/-- **One star: the names with the beginning and the end around it.** -/
theorem wildcard_star {before after : Text} (noStar : '*' ∉ before) (noStar' : '*' ∉ after)
    (name : Text) :
    wildcard (before ++ '*' :: after) name = true ↔
      ∃ middle, name = before ++ (middle ++ after) := by
  induction before generalizing name with
  | nil =>
      rw [List.nil_append, wildcard, List.any_eq_true]
      simp only [List.mem_tails, wildcard_literal noStar', decide_eq_true_eq, List.nil_append]
      constructor
      · rintro ⟨_, ⟨middle, rfl⟩, rfl⟩
        exact ⟨middle, rfl⟩
      · rintro ⟨middle, rfl⟩
        exact ⟨after, List.suffix_append middle after, rfl⟩
  | cons c before ih =>
      obtain ⟨head, tail⟩ := List.ne_and_not_mem_of_not_mem_cons noStar
      cases name with
      | nil => simp [wildcard_cons_nil head.symm]
      | cons d name =>
          rw [List.cons_append, wildcard_cons head.symm, Bool.and_eq_true,
            decide_eq_true_eq, ih tail]
          simp only [List.cons_append, List.cons.injEq, exists_and_left, eq_comm (a := c)]

end Text

end Trading
