import Mathlib.Algebra.Field.Rat
import Mathlib.Tactic.FieldSimp
import Trading.Text

/-!
# Digits in groups of three

Numbers are written for readers with a mark between the groups of three digits of their whole
part: `group` puts it there. The place of a mark shows in its neighbourhood, the digits directly
before it and those directly after it (`Spaced`), and digits with marks are digits in groups of
three exactly when every mark has its place (`spaced_iff`).

A `Numeral` is a sign, the digits of a whole part and the decimals, and `Numeral.value` is the
number that it denotes. `Numeral.written` is its text, for a decimal point and a way to write the
whole part, and `Numeral.plain` the text that `parseDecimal` reads (`parseDecimal_eq_some`).
-/

set_option autoImplicit false

namespace Trading.Text

/-! ## Groups -/

/-- The mark between the groups of three digits, counted from the right. -/
def group (mark : Char) : Text → Text
  | [] => []
  | c :: rest =>
    if rest ≠ [] ∧ rest.length % 3 = 0 then c :: mark :: group mark rest else c :: group mark rest

variable {mark : Char}

/-- Up to three digits are one group. -/
theorem group_of_short {digits : Text} (short : digits.length ≤ 3) :
    group mark digits = digits := by
  match digits, short with
  | [], _ => rfl
  | [_], _ => rfl
  | [_, _], _ => rfl
  | [_, _, _], _ => rfl

example : group '.' "1234567".toList = "1.234.567".toList := by decide

/-- A first group, followed by others. -/
theorem group_append {first rest : Text} (some : first ≠ []) (short : first.length ≤ 3)
    (more : rest ≠ []) (threes : 3 ∣ rest.length) :
    group mark (first ++ rest) = first ++ mark :: group mark rest := by
  have last : rest.length % 3 = 0 := Nat.mod_eq_zero_of_dvd threes
  match first, some, short with
  | [a], _, _ => simp [group, more, last]
  | [a, b], _, _ =>
      have second : (rest.length + 1) % 3 ≠ 0 := by omega
      simp [group, more, last, second]
  | [a, b, c], _, _ =>
      have second : (rest.length + 1) % 3 ≠ 0 := by omega
      have third : (rest.length + 1 + 1) % 3 ≠ 0 := by omega
      simp [group, more, last, second, third]

/-- **Digits are one group, or a group before groups of three.** -/
theorem group_induction {P : Text → Prop} (one : ∀ digits : Text, digits.length ≤ 3 → P digits)
    (another : ∀ first rest : Text, first ≠ [] → first.length ≤ 3 → rest ≠ [] →
      3 ∣ rest.length → P rest → P (first ++ rest)) (digits : Text) : P digits := by
  induction size : digits.length using Nat.strong_induction_on generalizing digits with
  | _ size ih =>
      subst size
      by_cases short : digits.length ≤ 3
      · exact one digits short
      · have takes : (digits.take ((digits.length - 1) % 3 + 1)).length =
            (digits.length - 1) % 3 + 1 := by
          rw [List.length_take]
          omega
        have drops : (digits.drop ((digits.length - 1) % 3 + 1)).length =
            digits.length - ((digits.length - 1) % 3 + 1) := List.length_drop
        rw [← List.take_append_drop ((digits.length - 1) % 3 + 1) digits]
        apply another
        · exact List.ne_nil_of_length_pos (by omega)
        · omega
        · exact List.ne_nil_of_length_pos (by omega)
        · omega
        · exact ih _ (by omega) _ rfl

/-- The marks are the only thing that grouping adds. -/
theorem filter_group {digits : Text} (clean : mark ∉ digits) :
    (group mark digits).filter (fun c => c ≠ mark) = digits := by
  induction digits with
  | nil => rfl
  | cons c rest ih =>
      obtain ⟨head, tail⟩ := List.ne_and_not_mem_of_not_mem_cons clean
      rw [group]
      split <;> simp [Ne.symm head] <;> simpa using ih tail

theorem mem_group {digits : Text} {c : Char} (member : c ∈ group mark digits) :
    c = mark ∨ c ∈ digits := by
  induction digits with
  | nil => exact .inr member
  | cons d rest ih =>
      rw [group] at member
      split at member
      · rcases List.mem_cons.mp member with rfl | later
        · exact .inr List.mem_cons_self
        · rcases List.mem_cons.mp later with rfl | inRest
          · exact .inl rfl
          · exact (ih inRest).imp_right (List.mem_cons_of_mem d)
      · rcases List.mem_cons.mp member with rfl | inRest
        · exact .inr List.mem_cons_self
        · exact (ih inRest).imp_right (List.mem_cons_of_mem d)

theorem getLast?_group (digits : Text) : (group mark digits).getLast? = digits.getLast? := by
  induction digits using group_induction with
  | one digits short => rw [group_of_short short]
  | another first rest some short more threes ih =>
      have last := List.getLast?_eq_some_getLast more
      rw [group_append some short more threes, List.getLast?_append, List.getLast?_cons, ih,
        List.getLast?_append, last]
      rfl

/-! ## The places of marks -/

/-- Each mark has one to three digits directly before it, and three directly after it. -/
def Spaced (mark : Char) (t : Text) : Prop :=
  ∀ before after, t = before ++ mark :: after → before.rtakeWhile Char.isDigit ≠ [] ∧
    (before.rtakeWhile Char.isDigit).length ≤ 3 ∧ (after.takeWhile Char.isDigit).length = 3

theorem spaced_of_not_mem {t : Text} (clean : mark ∉ t) : Spaced mark t := by
  rintro before after rfl
  exact absurd (by simp) clean

/-- Digits end where a text without digits at its beginning comes. -/
theorem takeWhile_digits_append (t : Text) {tail : Text}
    (starts : ∀ c ∈ tail.head?, c.isDigit = false) :
    (t ++ tail).takeWhile Char.isDigit = t.takeWhile Char.isDigit := by
  have nothing : tail.takeWhile Char.isDigit = [] := by
    cases tail with
    | nil => rfl
    | cons c tail => simp [starts c rfl]
  rw [List.takeWhile_append, nothing, List.append_nil]
  split
  · rename_i whole
    exact (List.IsPrefix.eq_of_length (List.takeWhile_prefix _) whole).symm
  · rfl

theorem rtakeWhile_digits_append {lead : Text} (ends : ∀ c ∈ lead.getLast?, c.isDigit = false)
    (t : Text) : (lead ++ t).rtakeWhile Char.isDigit = t.rtakeWhile Char.isDigit := by
  rw [List.rtakeWhile, List.rtakeWhile, List.reverse_append, takeWhile_digits_append]
  rwa [List.head?_reverse]

theorem rtakeWhile_digits_self {t : Text} (digits : ∀ c ∈ t, c.isDigit = true) :
    t.rtakeWhile Char.isDigit = t :=
  List.rtakeWhile_eq_self_iff.mpr digits

theorem rtakeWhile_digits_ne_nil {t : Text} (some : t ≠ [])
    (ends : ∀ c ∈ t.getLast?, c.isDigit = true) : t.rtakeWhile Char.isDigit ≠ [] := by
  have last := List.getLast?_eq_some_getLast some
  obtain ⟨lead, split⟩ := List.getLast?_eq_some_iff.mp last
  rw [split, List.rtakeWhile_concat_pos _ _ _ (ends _ last)]
  simp

/-- What stands around the digits does not matter. -/
theorem spaced_inside {lead t tail : Text} (clean : mark ∉ lead) (clean' : mark ∉ tail)
    (ends : ∀ c ∈ lead.getLast?, c.isDigit = false)
    (starts : ∀ c ∈ tail.head?, c.isDigit = false) :
    Spaced mark (lead ++ (t ++ tail)) ↔ Spaced mark t := by
  constructor
  · rintro spaced before after rfl
    have place := spaced (lead ++ before) (after ++ tail) (by simp)
    rwa [rtakeWhile_digits_append ends, takeWhile_digits_append after starts] at place
  · intro spaced before after split
    obtain ⟨middle, rfl, later⟩ := split_behind clean split
    obtain ⟨middle', rfl, inside⟩ := split_before clean' later
    rw [rtakeWhile_digits_append ends, takeWhile_digits_append middle' starts]
    exact spaced middle middle' inside

section Places

variable (notDigit : mark.isDigit = false)
include notDigit

theorem mark_not_mem {digits : Text} (all : ∀ c ∈ digits, c.isDigit = true) : mark ∉ digits := by
  intro member
  rw [all mark member] at notDigit
  cases notDigit

theorem takeWhile_digits_mark {digits : Text} (all : ∀ c ∈ digits, c.isDigit = true)
    (rest : Text) : (digits ++ mark :: rest).takeWhile Char.isDigit = digits := by
  rw [takeWhile_digits_append digits (by simpa using notDigit)]
  exact List.takeWhile_eq_self_iff.mpr all

/-- Groups of three begin with three digits. -/
theorem length_first_group {digits : Text} (all : ∀ c ∈ digits, c.isDigit = true)
    (some : digits ≠ []) (threes : 3 ∣ digits.length) :
    ((group mark digits).takeWhile Char.isDigit).length = 3 := by
  have positive := List.length_pos_iff.mpr some
  by_cases short : digits.length ≤ 3
  · rw [group_of_short short, List.takeWhile_eq_self_iff.mpr all]
    omega
  · have first : (digits.take 3).length = 3 := by
      rw [List.length_take]
      omega
    have rest : (digits.drop 3).length = digits.length - 3 := List.length_drop
    have whole : group mark digits = digits.take 3 ++ mark :: group mark (digits.drop 3) := by
      rw [← group_append (List.ne_nil_of_length_pos (by omega)) (by omega)
        (List.ne_nil_of_length_pos (by omega)) (by omega), List.take_append_drop]
    rw [whole, takeWhile_digits_mark notDigit fun c member => all c (List.mem_of_mem_take member)]
    exact first

/-- Between groups the marks have their places. -/
theorem spaced_group {digits : Text} (all : ∀ c ∈ digits, c.isDigit = true) :
    Spaced mark (group mark digits) := by
  induction digits using group_induction with
  | one digits short =>
      rw [group_of_short short]
      exact spaced_of_not_mem (mark_not_mem notDigit all)
  | another first rest some short more threes ih =>
      have allFirst := fun c member => all c (List.mem_append_left rest member)
      have allRest := fun c member => all c (List.mem_append_right first member)
      rw [group_append some short more threes]
      intro before after split
      obtain ⟨middle, rfl, later⟩ := split_behind (mark_not_mem notDigit allFirst) split
      cases middle with
      | nil =>
          obtain rfl := (List.cons.inj later).2
          rw [List.append_nil, rtakeWhile_digits_self allFirst]
          exact ⟨some, short, length_first_group notDigit allRest more threes⟩
      | cons c middle =>
          obtain ⟨rfl, rest'⟩ := List.cons.inj later
          have place := ih allRest middle after rest'
          rw [List.append_cons, rtakeWhile_digits_append (by simpa using notDigit)]
          exact place

/-- Digits and marks begin with digits up to the first mark. -/
theorem digits_and_marks {t : Text} (chars : ∀ c ∈ t, c = mark ∨ c.isDigit = true) :
    (∀ c ∈ t, c.isDigit = true) ∨ ∃ digits rest, (∀ c ∈ digits, c.isDigit = true) ∧
      t = digits ++ mark :: rest := by
  induction t with
  | nil => exact .inl (by simp)
  | cons c t ih =>
      rcases chars c List.mem_cons_self with rfl | digit
      · exact .inr ⟨[], t, by simp, rfl⟩
      · rcases ih fun d member => chars d (List.mem_cons_of_mem _ member) with
          all | ⟨digits, rest, all, rfl⟩
        · exact .inl (List.forall_mem_cons.mpr ⟨digit, all⟩)
        · exact .inr ⟨c :: digits, rest, List.forall_mem_cons.mpr ⟨digit, all⟩, rfl⟩

/-- Three digits, and three after each mark, are groups of three. -/
theorem eq_group_of_threes {t : Text} (chars : ∀ c ∈ t, c = mark ∨ c.isDigit = true)
    (first : (t.takeWhile Char.isDigit).length = 3)
    (others : ∀ before after, t = before ++ mark :: after →
      (after.takeWhile Char.isDigit).length = 3) :
    ∃ digits, t = group mark digits ∧ digits ≠ [] ∧ 3 ∣ digits.length ∧
      ∀ c ∈ digits, c.isDigit = true := by
  induction size : t.length using Nat.strong_induction_on generalizing t with
  | _ size ih =>
      rcases digits_and_marks notDigit chars with all | ⟨digits, rest, all, rfl⟩
      · rw [List.takeWhile_eq_self_iff.mpr all] at first
        exact ⟨t, (group_of_short (by omega)).symm, List.ne_nil_of_length_pos (by omega),
          by omega, all⟩
      · rw [takeWhile_digits_mark notDigit all] at first
        obtain ⟨later, rfl, more, threes, allLater⟩ := ih rest.length (by simp [← size]; omega)
          (fun c member => chars c (by simp [member])) (others digits rest rfl)
          (fun before after split => others (digits ++ mark :: before) after (by simp [split])) rfl
        refine ⟨digits ++ later, ?_, by simp [more], ?_, ?_⟩
        · exact (group_append (List.ne_nil_of_length_pos (by omega)) (by omega) more threes).symm
        · rw [List.length_append]
          omega
        · exact List.forall_mem_append.mpr ⟨all, allLater⟩

/-- **Every mark in its place**: digits with marks are digits in groups of three, or have no
marks. -/
theorem spaced_iff {t : Text} (chars : ∀ c ∈ t, c = mark ∨ c.isDigit = true) :
    Spaced mark t ↔ mark ∉ t ∨ t = group mark (t.filter fun c => c ≠ mark) := by
  constructor
  · intro spaced
    rcases digits_and_marks notDigit chars with all | ⟨digits, rest, all, rfl⟩
    · exact .inl (mark_not_mem notDigit all)
    · obtain ⟨some, short, three⟩ := spaced digits rest rfl
      rw [rtakeWhile_digits_self all] at some short
      obtain ⟨later, rfl, more, threes, allLater⟩ := eq_group_of_threes notDigit
        (fun c member => chars c (by simp [member])) three
        fun before after split => (spaced (digits ++ mark :: before) after (by simp [split])).2.2
      rw [← group_append some short more threes, filter_group]
      · exact .inr rfl
      · exact mark_not_mem notDigit (List.forall_mem_append.mpr ⟨all, allLater⟩)
  · rintro (clean | grouped)
    · exact spaced_of_not_mem clean
    · rw [grouped]
      apply spaced_group notDigit
      intro c member
      obtain ⟨inside, notMark⟩ := List.mem_filter.mp member
      exact (chars c inside).resolve_left (by simpa using notMark)

end Places

/-! ## Numerals -/

/-- A sign, which may be missing. -/
inductive Sign where
  | none
  | plus
  | minus
  deriving DecidableEq

/-- The text of a sign. -/
def Sign.text : Sign → Text
  | .none => []
  | .plus => ['+']
  | .minus => ['-']

theorem Sign.mem_text {sign : Sign} {c : Char} (member : c ∈ sign.text) : c = '+' ∨ c = '-' := by
  cases sign with
  | none => exact absurd member List.not_mem_nil
  | plus => exact .inl (List.mem_singleton.mp member)
  | minus => exact .inr (List.mem_singleton.mp member)

theorem Sign.not_mem_text (sign : Sign) {c : Char} (other : c ≠ '+' ∧ c ≠ '-') : c ∉ sign.text :=
  fun member => (mem_text member).elim other.1 other.2

theorem Sign.isDigit_last (sign : Sign) : ∀ c ∈ sign.text.getLast?, c.isDigit = false := by
  intro c last
  rcases mem_text (List.mem_of_mem_getLast? last) with rfl | rfl <;> decide

/-- The number with a sign. -/
def Sign.apply : Sign → ℚ → ℚ
  | .minus, q => -q
  | _, q => q

/-- The number written by the digits of a whole part and by decimals. -/
def amount (whole decimals : Text) : ℚ :=
  (Nat.ofDigitChars 10 whole 0 : ℚ) + (Nat.ofDigitChars 10 decimals 0 : ℚ) / 10 ^ decimals.length

/-- A number in digits: the whole part has one at least. -/
structure Numeral where
  sign : Sign
  whole : Text
  decimals : Text
  whole_ne_nil : whole ≠ []
  isDigit_whole : ∀ c ∈ whole, c.isDigit = true
  isDigit_decimals : ∀ c ∈ decimals, c.isDigit = true

namespace Numeral

/-- The number that a numeral denotes. -/
def value (n : Numeral) : ℚ := n.sign.apply (amount n.whole n.decimals)

/-- The text of a numeral; without decimals it has no point. -/
def written (point : Char) (digits : Text → Text) (n : Numeral) : Text :=
  n.sign.text ++ (digits n.whole ++ if n.decimals = [] then [] else point :: n.decimals)

/-- The numeral without marks, with a dot as its point. -/
def plain : Numeral → Text := written '.' id

end Numeral

/-- A text with a sign, digits and possibly a point and decimals, one digit at least, and the
number it stands for. -/
inductive Reads (point : Char) (t : Text) (q : ℚ) : Prop
  | whole (sign : Sign) (whole : Text) (some : whole ≠ [])
      (digits : ∀ c ∈ whole, c.isDigit = true) (text : t = sign.text ++ whole)
      (value : q = sign.apply (amount whole []))
  | decimals (sign : Sign) (whole decimals : Text) (some : whole ++ decimals ≠ [])
      (digits : ∀ c ∈ whole ++ decimals, c.isDigit = true)
      (text : t = sign.text ++ (whole ++ point :: decimals))
      (value : q = sign.apply (amount whole decimals))

theorem amount_eq (whole decimals : Text) :
    amount whole decimals =
      (Nat.ofDigitChars 10 (whole ++ decimals) 0 : ℚ) / 10 ^ decimals.length := by
  have digits : Nat.ofDigitChars 10 (whole ++ decimals) 0 =
      10 ^ decimals.length * Nat.ofDigitChars 10 whole 0 + Nat.ofDigitChars 10 decimals 0 := by
    rw [Nat.ofDigitChars_append, Nat.ofDigitChars_eq_ofDigitChars_zero]
  rw [amount, digits]
  push_cast
  field_simp

theorem amount_whole (whole : Text) : amount whole [] = (Nat.ofDigitChars 10 whole 0 : ℚ) := by
  simp [amount]

theorem digitsValue_eq_some {t : Text} {n : Nat} :
    digitsValue t = some n ↔
      (t ≠ [] ∧ ∀ c ∈ t, c.isDigit = true) ∧ Nat.ofDigitChars 10 t 0 = n := by
  simp only [digitsValue, Option.ite_none_right_eq_some, List.all_eq_true, Option.some.injEq]

/-- The texts that are read as a number without a sign. -/
theorem unsignedDecimal_eq_some {t : Text} {q : ℚ} :
    unsignedDecimal t = some q ↔
      ((t ≠ [] ∧ ∀ c ∈ t, c.isDigit = true) ∧ amount t [] = q) ∨
      ∃ whole decimals, (whole ++ decimals ≠ [] ∧ ∀ c ∈ whole ++ decimals, c.isDigit = true) ∧
        t = whole ++ '.' :: decimals ∧ amount whole decimals = q := by
  have point : ('.' : Char).isDigit = false := by decide
  constructor
  · intro read
    have pieces : ['.'].intercalate (t.splitOn '.') = t := List.intercalate_splitOn '.'
    unfold unsignedDecimal at read
    split at read
    · rename_i whole split
      obtain ⟨_, number, rfl⟩ := Option.map_eq_some_iff.mp read
      obtain ⟨n, isValue, cast⟩ := Option.bind_eq_some_iff.mp number
      obtain rfl := Option.some.inj cast
      obtain ⟨digits, rfl⟩ := digitsValue_eq_some.mp isValue
      obtain rfl : whole = t := by simpa [split, List.intercalate] using pieces
      exact .inl ⟨digits, amount_whole whole⟩
    · rename_i whole decimals split
      obtain ⟨_, number, rfl⟩ := Option.map_eq_some_iff.mp read
      obtain ⟨n, isValue, cast⟩ := Option.bind_eq_some_iff.mp number
      obtain rfl := Option.some.inj cast
      obtain ⟨digits, rfl⟩ := digitsValue_eq_some.mp isValue
      have text : t = whole ++ '.' :: decimals := by
        simpa [split, List.intercalate] using pieces.symm
      exact .inr ⟨whole, decimals, digits, text, amount_eq whole decimals⟩
    · cases read
  · rintro (⟨digits, rfl⟩ | ⟨whole, decimals, digits, rfl, rfl⟩)
    · have split : t.splitOn '.' = [t] :=
        List.splitOn_eq_singleton (mark_not_mem point digits.2)
      rw [unsignedDecimal, split]
      simp only [digitsValue_eq_some.mpr ⟨digits, rfl⟩, amount_whole]
      rfl
    · obtain ⟨allWhole, allDecimals⟩ := List.forall_mem_append.mp digits.2
      have split : (whole ++ '.' :: decimals).splitOn '.' = [whole, decimals] := by
        rw [List.splitOn_append_cons_self_of_not_mem (mark_not_mem point allWhole),
          List.splitOn_eq_singleton (mark_not_mem point allDecimals)]
      rw [unsignedDecimal, split]
      simp only [digitsValue_eq_some.mpr ⟨digits, rfl⟩, amount_eq]
      rfl

theorem parseDecimal_unsigned {t : Text} (unsigned : ∀ c ∈ t.head?, c ≠ '-' ∧ c ≠ '+') :
    parseDecimal t = unsignedDecimal t := by
  unfold parseDecimal
  split
  · exact absurd rfl (unsigned '-' rfl).1
  · exact absurd rfl (unsigned '+' rfl).2
  · rfl

theorem parseDecimal_sign {sign : Sign} {t : Text} (unsigned : ∀ c ∈ t.head?, c ≠ '-' ∧ c ≠ '+') :
    parseDecimal (sign.text ++ t) = (unsignedDecimal t).map sign.apply := by
  cases sign with
  | none =>
      have same : Sign.none.apply = id := by
        funext q
        rfl
      rw [same, Option.map_id_fun]
      exact parseDecimal_unsigned unsigned
  | plus =>
      have same : Sign.plus.apply = id := by
        funext q
        rfl
      rw [same, Option.map_id_fun]
      rfl
  | minus => rfl

/-- A digit or the point is not a sign. -/
theorem not_sign {c : Char} (digit : c.isDigit = true ∨ c = '.') : c ≠ '-' ∧ c ≠ '+' := by
  constructor <;> rintro rfl <;> revert digit <;> decide

/-- **The texts that are read as a number**, and the number. -/
theorem parseDecimal_eq_some {t : Text} {q : ℚ} : parseDecimal t = some q ↔ Reads '.' t q := by
  constructor
  · intro read
    obtain ⟨sign, rest, rfl, isRead⟩ : ∃ (sign : Sign) (rest : Text), t = sign.text ++ rest ∧
        (unsignedDecimal rest).map sign.apply = some q := by
      unfold parseDecimal at read
      split at read
      · exact ⟨.minus, _, rfl, read⟩
      · exact ⟨.plus, _, rfl, by simpa [Sign.apply] using read⟩
      · exact ⟨.none, _, rfl, by simpa [Sign.apply] using read⟩
    obtain ⟨value, isValue, rfl⟩ := Option.map_eq_some_iff.mp isRead
    rcases unsignedDecimal_eq_some.mp isValue with
      ⟨digits, rfl⟩ | ⟨whole, decimals, digits, rfl, rfl⟩
    · exact .whole sign rest digits.1 digits.2 rfl rfl
    · exact .decimals sign whole decimals digits.1 digits.2 rfl rfl
  · rintro (⟨sign, whole, some, digits, rfl, rfl⟩ | ⟨sign, whole, decimals, some, digits, rfl, rfl⟩)
    · rw [parseDecimal_sign, unsignedDecimal_eq_some.mpr (.inl ⟨⟨some, digits⟩, rfl⟩),
        Option.map_some]
      exact fun c first => not_sign (.inl (digits c (List.mem_of_mem_head? first)))
    · rw [parseDecimal_sign, unsignedDecimal_eq_some.mpr
        (.inr ⟨whole, decimals, ⟨some, digits⟩, rfl, rfl⟩), Option.map_some]
      intro c first
      apply not_sign
      rcases List.mem_append.mp (List.mem_of_mem_head? first) with inWhole | later
      · exact .inl (digits c (List.mem_append_left _ inWhole))
      · rcases List.mem_cons.mp later with rfl | inDecimals
        · exact .inr rfl
        · exact .inl (digits c (List.mem_append_right _ inDecimals))

/-- **The plain text of a numeral is read as its value.** -/
theorem Numeral.parseDecimal_plain (n : Numeral) : parseDecimal n.plain = some n.value := by
  apply parseDecimal_eq_some.mpr
  by_cases none : n.decimals = []
  · refine .whole n.sign n.whole n.whole_ne_nil n.isDigit_whole ?_ ?_
    · simp [plain, written, none]
    · rw [value, none]
  · refine .decimals n.sign n.whole n.decimals (by simp [none]) ?_ ?_ rfl
    · exact List.forall_mem_append.mpr ⟨n.isDigit_whole, n.isDigit_decimals⟩
    · simp [plain, written, none]

end Trading.Text
