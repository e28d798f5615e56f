import Trading.Grouping
import Trading.Recup.Page

/-!
# Prices

The text of a price loses its dots, and its commas become dots, before it is read as a number.
For a price with dots between groups of three digits and a comma before its decimals, this gives
the plain numeral of the price (`grouped_price_round_trip`).

The dots are deleted wherever they stand. A text is misread when it is a number after that, and
one of its dots does not stand between groups of three digits, or its comma not between two
digits (`never_misread_iff`). `Double.parseDouble` is exact decimal reading here, `parseDecimal`.
-/

set_option autoImplicit false

namespace Trading.Recup

open Trading.Text

/-! ## The format -/

/-- A price with dots between groups of three digits and a comma before its decimals. -/
def grouped (n : Numeral) : Text := n.written ',' (group '.')

/-- A price with a comma before its decimals and no dots. -/
def ungrouped (n : Numeral) : Text := n.written ',' id

/-- A text is read as a number only if it is a price of the format, and then as its value. -/
def NeverMisread (t : Text) : Prop :=
  ∀ q, parseDecimal (normalise t) = some q →
    ∃ n : Numeral, (t = grouped n ∨ t = ungrouped n) ∧ q = n.value

/-- A text that is a number with a decimal comma when its dots are deleted. -/
def Lisible (t : Text) : Prop := ∃ q, Reads ',' (t.filter fun c => c ≠ '.') q

/-- Each dot has one to three digits directly before it and three directly after it, and each
comma has a digit directly before it and one directly after it, and no dot behind it. -/
def Placed (t : Text) : Prop :=
  Spaced '.' t ∧ ∀ before after, t = before ++ ',' :: after →
    '.' ∉ after ∧ before.rtakeWhile Char.isDigit ≠ [] ∧ after.takeWhile Char.isDigit ≠ []

/-! ## What is read -/

/-- The second replacement. -/
def pointer (c : Char) : Char := if c = ',' then '.' else c

theorem normalise_eq (t : Text) : normalise t = (t.filter fun c => c ≠ '.').map pointer := rfl

theorem map_pointer {t : Text} (clean : ',' ∉ t) : t.map pointer = t := by
  have fixed : ∀ c ∈ t, pointer c = c := fun c member =>
    if_neg fun (comma : c = ',') => clean (comma ▸ member)
  rw [List.map_congr_left fixed, List.map_id']

/-- A text that has no dot after the second replacement was not changed by it. -/
theorem eq_of_map_pointer {t t' : Text} (same : t.map pointer = t') (clean : '.' ∉ t') :
    t = t' := by
  subst same
  refine (map_pointer fun comma => clean ?_).symm
  exact List.mem_map_of_mem (f := pointer) comma

theorem comma_not_mem_digits {digits : Text} (all : ∀ c ∈ digits, c.isDigit = true) :
    ',' ∉ digits := mark_not_mem (by decide) all

theorem dot_not_mem_digits {digits : Text} (all : ∀ c ∈ digits, c.isDigit = true) :
    '.' ∉ digits := mark_not_mem (by decide) all

/-- The second replacement turns a decimal comma into a decimal point. -/
theorem reads_map_pointer {t : Text} (clean : '.' ∉ t) {q : ℚ} :
    Reads '.' (t.map pointer) q ↔ Reads ',' t q := by
  constructor
  · rintro (⟨sign, whole, some, digits, text, rfl⟩ |
      ⟨sign, whole, decimals, some, digits, text, rfl⟩)
    · have same := eq_of_map_pointer text ?_
      · exact .whole sign whole some digits same rfl
      · simp [sign.not_mem_text, dot_not_mem_digits digits]
    · obtain ⟨allWhole, allDecimals⟩ := List.forall_mem_append.mp digits
      obtain ⟨signText, rest, rfl, isSign, isRest⟩ := List.map_eq_append_iff.mp text
      obtain ⟨wholeText, rest', rfl, isWhole, isRest'⟩ := List.map_eq_append_iff.mp isRest
      obtain ⟨c, decimalsText, rfl, isPoint, isDecimals⟩ := List.map_eq_cons_iff.mp isRest'
      obtain rfl := eq_of_map_pointer isSign (sign.not_mem_text (by decide))
      obtain rfl := eq_of_map_pointer isWhole (dot_not_mem_digits allWhole)
      obtain rfl := eq_of_map_pointer isDecimals (dot_not_mem_digits allDecimals)
      obtain rfl : c = ',' := by
        by_contra notComma
        rw [pointer, if_neg notComma] at isPoint
        exact clean (by simp [isPoint])
      exact .decimals sign _ _ some digits rfl rfl
  · rintro (⟨sign, whole, some, digits, rfl, rfl⟩ | ⟨sign, whole, decimals, some, digits, rfl, rfl⟩)
    · refine .whole sign whole some digits (map_pointer ?_) rfl
      simp [sign.not_mem_text, comma_not_mem_digits digits]
    · obtain ⟨allWhole, allDecimals⟩ := List.forall_mem_append.mp digits
      refine .decimals sign whole decimals some digits ?_ rfl
      rw [List.map_append, List.map_append, List.map_cons,
        map_pointer (sign.not_mem_text (by decide)), map_pointer (comma_not_mem_digits allWhole),
        map_pointer (comma_not_mem_digits allDecimals)]
      rfl

/-- **What is read of a price** is the number, with a decimal comma, that is left without its
dots. -/
theorem parseDecimal_normalise {t : Text} {q : ℚ} :
    parseDecimal (normalise t) = some q ↔ Reads ',' (t.filter fun c => c ≠ '.') q := by
  rw [parseDecimal_eq_some, normalise_eq, reads_map_pointer (by simp)]

/-! ## Prices of the format -/

theorem filter_dots_of_not_mem {t : Text} (clean : '.' ∉ t) :
    t.filter (fun c => c ≠ '.') = t :=
  List.filter_eq_self.mpr fun c member => by
    simpa using fun (dot : c = '.') => clean (dot ▸ member)

/-- The decimals with the comma before them. -/
theorem normalise_written (n : Numeral) {digits : Text → Text}
    (whole : (digits n.whole).filter (fun c => c ≠ '.') = n.whole) :
    normalise (n.written ',' digits) = n.plain := by
  have noDecimals := dot_not_mem_digits n.isDigit_decimals
  rw [normalise_eq, Numeral.written, List.filter_append, List.filter_append, whole,
    filter_dots_of_not_mem (n.sign.not_mem_text (by decide)), Numeral.plain, Numeral.written,
    List.map_append, List.map_append, map_pointer (n.sign.not_mem_text (by decide)),
    map_pointer (comma_not_mem_digits n.isDigit_whole)]
  by_cases none : n.decimals = []
  · simp [none]
  · rw [if_neg none, if_neg none, filter_dots_of_not_mem (by simp [noDecimals]), List.map_cons,
      map_pointer (comma_not_mem_digits n.isDigit_decimals)]
    rfl

/-- **Prices in the grouped format are read back.** For every whole part, every decimals and
every sign, the two replacements give the plain numeral of the number, which is read as it. -/
theorem grouped_price_round_trip (n : Numeral) :
    normalise (grouped n) = n.plain ∧ parseDecimal (normalise (grouped n)) = some n.value := by
  have plain : normalise (grouped n) = n.plain :=
    normalise_written n (filter_group (dot_not_mem_digits n.isDigit_whole))
  exact ⟨plain, by rw [plain, n.parseDecimal_plain]⟩

/-! ## Texts that are misread -/

/-- The marks of a price of the format have their places. -/
theorem placed_text {sign : Sign} {digits decimals : Text} (spaced : Spaced '.' digits)
    (chars : ∀ c ∈ digits, c = '.' ∨ c.isDigit = true)
    (ends : digits.rtakeWhile Char.isDigit ≠ []) (all : ∀ c ∈ decimals, c.isDigit = true) :
    Placed (sign.text ++ (digits ++ if decimals = [] then [] else ',' :: decimals)) := by
  have noDot := dot_not_mem_digits all
  have noComma := comma_not_mem_digits all
  have beforeComma : ',' ∉ sign.text ++ digits := by
    rw [List.mem_append]
    rintro (inSign | inDigits)
    · exact sign.not_mem_text (by decide) inSign
    · rcases chars _ inDigits with dot | digit
      · exact absurd dot (by decide)
      · exact absurd digit (by decide)
  constructor
  · refine (spaced_inside (sign.not_mem_text (by decide)) ?_ sign.isDigit_last ?_).mpr spaced
    · split <;> simp [noDot]
    · split <;> simp
  · intro before after split
    rw [← List.append_assoc] at split
    obtain ⟨middle, rfl, tail⟩ := split_behind beforeComma split
    by_cases none : decimals = []
    · simp [none] at tail
    · rw [if_neg none] at tail
      cases middle with
      | nil =>
          obtain rfl := (List.cons.inj tail).2
          refine ⟨noDot, ?_, ?_⟩
          · rwa [List.append_nil, rtakeWhile_digits_append sign.isDigit_last]
          · rwa [List.takeWhile_eq_self_iff.mpr all]
      | cons c middle =>
          have inside := (List.cons.inj tail).2
          exact absurd (by simp [inside]) noComma

/-- The dots of a price of the format, and its comma, have their places. -/
theorem placed_of_format {t : Text} {n : Numeral} (format : t = grouped n ∨ t = ungrouped n) :
    Placed t := by
  have ends : ∀ c ∈ n.whole.getLast?, c.isDigit = true := fun c last =>
    n.isDigit_whole c (List.mem_of_mem_getLast? last)
  rcases format with rfl | rfl
  · apply placed_text (spaced_group (by decide) n.isDigit_whole) ?_ ?_ n.isDigit_decimals
    · exact fun c member => (mem_group member).imp_right (n.isDigit_whole c)
    · apply rtakeWhile_digits_ne_nil
      · intro none
        have last : (group '.' n.whole).getLast? = n.whole.getLast? := getLast?_group n.whole
        rw [none, List.getLast?_nil, eq_comm, List.getLast?_eq_none_iff] at last
        exact n.whole_ne_nil last
      · rwa [getLast?_group]
  · apply placed_text (spaced_of_not_mem (dot_not_mem_digits n.isDigit_whole)) ?_ ?_
      n.isDigit_decimals
    · exact fun c member => .inr (n.isDigit_whole c member)
    · exact rtakeWhile_digits_ne_nil n.whole_ne_nil ends

/-- A price with its dots in place begins with its sign. -/
theorem sign_first {t rest : Text} {sign : Sign} (spaced : Spaced '.' t)
    (left : t.filter (fun c => c ≠ '.') = sign.text ++ rest) :
    ∃ t', t = sign.text ++ t' ∧ t'.filter (fun c => c ≠ '.') = rest := by
  have signed : ∀ c, t.filter (fun c => c ≠ '.') = c :: rest →
      ∃ t', t = c :: t' ∧ t'.filter (fun c => c ≠ '.') = rest := by
    intro c left
    obtain ⟨dots, t', rfl, areDots, -, isRest⟩ := List.filter_eq_cons_iff.mp left
    cases dots with
    | nil => exact ⟨t', rfl, isRest⟩
    | cons d dots =>
        -- a dot in front has no digits before it
        obtain rfl : d = '.' := by simpa using areDots d List.mem_cons_self
        exact absurd rfl (spaced [] (dots ++ c :: t') rfl).1
  cases sign with
  | none => exact ⟨t, rfl, left⟩
  | plus => exact signed '+' left
  | minus => exact signed '-' left

/-- The whole part of a price with its dots in place. -/
theorem whole_part {sign : Sign} {t tail whole : Text}
    (spaced : Spaced '.' (sign.text ++ (t ++ tail))) (clean : '.' ∉ tail)
    (starts : ∀ c ∈ tail.head?, c.isDigit = false)
    (left : t.filter (fun c => c ≠ '.') = whole) (digits : ∀ c ∈ whole, c.isDigit = true) :
    t = group '.' whole ∨ t = whole := by
  have inside := (spaced_inside (sign.not_mem_text (by decide)) clean sign.isDigit_last
    starts).mp spaced
  have chars : ∀ c ∈ t, c = '.' ∨ c.isDigit = true := by
    intro c member
    by_cases dot : c = '.'
    · exact .inl dot
    · exact .inr (digits c (left ▸ List.mem_filter.mpr ⟨member, by simpa using dot⟩))
  rcases (spaced_iff (by decide) chars).mp inside with noDots | isGroup
  · exact .inr (by rw [← left, filter_dots_of_not_mem noDots])
  · exact .inl (by rw [← left, ← isGroup])

/-- A text that is read, with its marks in their places, is a price of the format. -/
theorem format_of_placed {t : Text} {q : ℚ} (read : Reads ',' (t.filter fun c => c ≠ '.') q)
    (placed : Placed t) : ∃ n : Numeral, (t = grouped n ∨ t = ungrouped n) ∧ q = n.value := by
  obtain ⟨spaced, commas⟩ := placed
  rcases read with ⟨sign, whole, some, digits, left, rfl⟩ |
    ⟨sign, whole, decimals, some, digits, left, rfl⟩
  · obtain ⟨t, rfl, left'⟩ := sign_first spaced left
    rw [← List.append_nil t] at spaced
    refine ⟨⟨sign, whole, [], some, digits, by simp⟩, ?_, rfl⟩
    rcases whole_part spaced (by simp) (by simp) left' digits with isGroup | isWhole
    · exact .inl (by simp [grouped, Numeral.written, isGroup])
    · exact .inr (by simp [ungrouped, Numeral.written, isWhole])
  · obtain ⟨allWhole, allDecimals⟩ := List.forall_mem_append.mp digits
    obtain ⟨t, rfl, left'⟩ := sign_first spaced left
    obtain ⟨first, second, rfl, isWhole, isRest⟩ := List.filter_eq_append_iff.mp left'
    obtain ⟨dots, last, rfl, areDots, -, isDecimals⟩ := List.filter_eq_cons_iff.mp isRest
    obtain ⟨noDot, digitBefore, digitAfter⟩ := commas (sign.text ++ (first ++ dots)) last (by simp)
    rw [filter_dots_of_not_mem noDot] at isDecimals
    subst isDecimals
    have isWhole' : (first ++ dots).filter (fun c => c ≠ '.') = whole := by
      rw [List.filter_append, isWhole, List.filter_eq_nil_iff.mpr areDots, List.append_nil]
    rw [← List.append_assoc first] at spaced
    have someDecimals : last ≠ [] := by
      rintro rfl
      exact digitAfter rfl
    have someWhole : whole ≠ [] := by
      obtain ⟨c, member⟩ := List.exists_mem_of_ne_nil _ digitBefore
      have digit : c.isDigit = true := List.mem_rtakeWhile_imp member
      rcases List.mem_append.mp ((List.rtakeWhile_suffix _ _).subset member) with inSign | inWhole
      · exact absurd inSign (sign.not_mem_text (by constructor <;> rintro rfl <;> cases digit))
      · have notDot : c ≠ '.' := by
          rintro rfl
          cases digit
        have kept : c ∈ (first ++ dots).filter fun c => c ≠ '.' :=
          List.mem_filter.mpr ⟨inWhole, decide_eq_true notDot⟩
        rw [isWhole'] at kept
        exact List.ne_nil_of_mem kept
    refine ⟨⟨sign, whole, last, someWhole, allWhole, allDecimals⟩, ?_, rfl⟩
    have comma : ∀ c ∈ (',' :: last).head?, c.isDigit = false := by simp
    rcases whole_part spaced (by simp [noDot]) comma isWhole' allWhole with isGroup | isPlain
    · refine .inl ?_
      rw [grouped, Numeral.written, if_neg someDecimals, ← List.append_assoc first, isGroup]
    · refine .inr ?_
      rw [ungrouped, Numeral.written, if_neg someDecimals, ← List.append_assoc first, isPlain, id]

/-- **Prices are never misread** exactly where the marks have their places: a text that becomes a
number is a price of the format, and read as its value, if and only if each of its dots has one
to three digits directly before it and three directly after it, and its comma stands behind the
dots and between two digits. -/
theorem never_misread_iff (t : Text) : NeverMisread t ↔ (Lisible t → Placed t) := by
  constructor
  · rintro never ⟨q, read⟩
    obtain ⟨n, format, -⟩ := never q (parseDecimal_normalise.mpr read)
    exact placed_of_format format
  · intro places q read
    have reads := parseDecimal_normalise.mp read
    exact format_of_placed reads (places ⟨q, reads⟩)

/-- **A price with a decimal point is misread.** Of an English price with thousands and decimals
the dot is deleted, and the comma becomes the point. -/
theorem english_price_is_misread :
    ¬ NeverMisread "1,234.56".toList ∧
      parseDecimal (normalise "1,234.56".toList) = some (123456 / 100000) := by
  have misread : parseDecimal (normalise "1,234.56".toList) = some (123456 / 100000) := by
    decide +kernel
  refine ⟨fun never => ?_, misread⟩
  obtain ⟨n, format, -⟩ := never _ misread
  -- the dot has two digits behind it
  have place := (placed_of_format format).1 "1,234".toList "56".toList rfl
  revert place
  decide

end Trading.Recup
