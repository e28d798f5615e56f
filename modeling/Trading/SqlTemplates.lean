import Trading.SqlText

/-!
# Values in a statement of SQL

A program that puts values between apostrophes into fixed texts means the tokens of the fixed
texts, with the values as literals between them (`expected`). `lex_filled_iff` says when the
text has these tokens: exactly when each value is what it says as a literal.

In a fixed text stand names and numbers without quotes (`Bare`): they end where a character comes
that is none of a word, so the fixed texts around them keep their tokens (`Fixed.insert`).
-/

set_option autoImplicit false

namespace Trading.SqlText

open Trading.Text

/-! ## Values between fixed texts -/

/-- A fixed text that ends between two tokens. -/
structure Fixed where
  text : Text
  tokens : List Token
  run_text : run .plain text = (tokens, .plain)
  ne_nil : text ≠ []
  unquoted : ∀ c ∈ text, isQuote c = false

/-- The fixed text at the end of a statement. -/
structure Ending where
  text : Text
  tokens : List Token
  lex_text : lex text = some tokens
  ne_nil : text ≠ []
  unquoted : ∀ c ∈ text, isQuote c = false

/-- A text whose tokens can be checked. -/
def Fixed.of (text : Text) (tokens : List Token)
    (check : run .plain text = (tokens, .plain) ∧ text ≠ [] ∧
      text.all (fun c => !isQuote c) = true) :
    Fixed :=
  ⟨text, tokens, check.1, check.2.1, fun c member => by
    simpa using List.all_eq_true.mp check.2.2 c member⟩

@[inherit_doc Fixed.of]
def Ending.of (text : Text) (tokens : List Token)
    (check : lex text = some tokens ∧ text ≠ [] ∧ text.all (fun c => !isQuote c) = true) : Ending :=
  ⟨text, tokens, check.1, check.2.1, fun c member => by
    simpa using List.all_eq_true.mp check.2.2 c member⟩

/-- Fixed texts, each followed by a value between apostrophes, and the end. -/
def filled : List (Fixed × Text) → Ending → Text
  | [], last => last.text
  | (fixed, value) :: slots, last => fixed.text ++ '\'' :: (value ++ '\'' :: filled slots last)

/-- The tokens that are meant: those of the fixed texts, with the values between them. -/
def expected : List (Fixed × Text) → Ending → List Token
  | [], last => last.tokens
  | (fixed, value) :: slots, last => fixed.tokens ++ .literal value :: expected slots last

/-- A text with one value. -/
theorem eq_filled_one {first last value : Text} {fixed : Fixed} {ending : Ending}
    (opens : first = fixed.text ++ ['\'']) (closes : last = '\'' :: ending.text) :
    first ++ value ++ last = filled [(fixed, value)] ending := by
  subst opens closes
  simp [filled]

/-- A text with two values. -/
theorem eq_filled_two {first middle last value value' : Text} {fixed fixed' : Fixed}
    {ending : Ending} (opens : first = fixed.text ++ ['\''])
    (between : middle = '\'' :: (fixed'.text ++ ['\''])) (closes : last = '\'' :: ending.text) :
    first ++ value ++ middle ++ value' ++ last =
      filled [(fixed, value), (fixed', value')] ending := by
  subst opens between closes
  simp [filled]

theorem Fixed.lex_append (fixed : Fixed) (t : Text) :
    lex (fixed.text ++ t) = (lex t).map fun tokens => fixed.tokens ++ tokens := by
  rw [lex, scan_append, fixed.run_text, lex]

theorem Fixed.literals_tokens (fixed : Fixed) : literals fixed.tokens = [] := by
  have lexed := fixed.lex_append []
  rw [List.append_nil] at lexed
  exact literals_of_unquoted fixed.unquoted (lexed.trans (by simp [lex, scan_nil, finish]))

theorem lex_quote (t : Text) : lex ('\'' :: t) = scan (.literal '\'' []) t := by
  have opened : step .plain '\'' = ([], .literal '\'' []) := by decide
  rw [lex, scan_cons, opened]
  simp

theorem literals_expected (slots : List (Fixed × Text)) (last : Ending) :
    literals (expected slots last) = slots.map Prod.snd := by
  induction slots with
  | nil => exact literals_of_unquoted last.unquoted last.lex_text
  | cons slot slots ih =>
      rw [expected, literals_append, slot.1.literals_tokens, List.nil_append, List.map_cons, ← ih]
      rfl

/-- After a value comes a fixed text, and no other quote. -/
theorem filled_head (slots : List (Fixed × Text)) (last : Ending) :
    ∀ c ∈ (filled slots last).head?, c ≠ '\'' := by
  have fixedHead : ∀ {t rest : Text}, t ≠ [] → (∀ c ∈ t, isQuote c = false) →
      ∀ c ∈ (t ++ rest).head?, c ≠ '\'' := by
    intro t rest some unquoted c first same
    rw [List.head?_append_of_ne_nil _ some] at first
    have noQuote := unquoted c (List.mem_of_mem_head? first)
    rw [same] at noQuote
    cases noQuote
  cases slots with
  | nil =>
      rw [filled, ← List.append_nil last.text]
      exact fixedHead last.ne_nil last.unquoted
  | cons slot slots => exact fixedHead slot.1.ne_nil slot.1.unquoted

/-- A quote that comes late enough stands behind the value and its closing apostrophe. -/
theorem exists_behind {value t rest : Text} {quote : Char}
    (suffix : quote :: rest <:+ value ++ '\'' :: t) (late : rest.length < t.length) :
    ∃ lead, t = lead ++ quote :: rest := by
  have behindValue : t <:+ value ++ '\'' :: t := ⟨value ++ ['\''], by simp⟩
  obtain ⟨lead, split⟩ := List.suffix_of_suffix_length_le suffix behindValue late
  exact ⟨lead, split.symm⟩

/-- **No other reading.** What stands behind a quote of a statement does not have the literals of
the whole statement: each of their sources would have to be as long as its value, and the quote
has taken a place already. -/
theorem literals_behind_quote (slots : List (Fixed × Text)) (last : Ending) {lead t : Text}
    {quote : Char} (isQuoted : isQuote quote = true)
    (split : filled slots last = lead ++ quote :: t) {tokens : List Token}
    (lexed : lex t = some tokens) : literals tokens ≠ slots.map Prod.snd := by
  induction slots generalizing lead t quote tokens with
  | nil =>
      rw [filled] at split
      have noQuote := last.unquoted quote (by simp [split])
      rw [isQuoted] at noQuote
      cases noQuote
  | cons slot slots ih =>
      obtain ⟨fixed, value⟩ := slot
      intro has
      have noQuote : quote ∉ fixed.text := by
        intro member
        rw [fixed.unquoted quote member] at isQuoted
        cases isQuoted
      obtain ⟨middle, -, behind⟩ := split_behind noQuote split
      have suffix : t <:+ value ++ '\'' :: filled slots last := by
        cases middle with
        | nil => exact ⟨[], (List.cons.inj behind).2.symm⟩
        | cons c middle => exact ⟨middle ++ [quote], by simpa using (List.cons.inj behind).2.symm⟩
      obtain ⟨lead', quote', source, rest, later, isQuoted', rfl, short, lexedRest, hasRest⟩ :=
        exists_literal (show Mode.plain.Outside from trivial) lexed has
      replace short : value.length ≤ source.length := short
      have size := suffix.length_le
      have behindSource : quote' :: rest <:+ value ++ '\'' :: filled slots last :=
        List.IsSuffix.trans ⟨lead' ++ quote' :: source, by simp⟩ suffix
      simp only [List.length_append, List.length_cons] at size
      obtain ⟨lead'', split'⟩ := exists_behind behindSource (by omega)
      exact ih isQuoted' split' lexedRest hasRest

/-- A value between apostrophes, followed by the rest of a statement. -/
theorem scan_value_iff (slots : List (Fixed × Text)) (last : Ending) (value : Text) :
    scan (.literal '\'' []) (value ++ '\'' :: filled slots last) =
        some (.literal value :: expected slots last) ↔
      unquote value = some value ∧ lex (filled slots last) = some (expected slots last) := by
  constructor
  · intro scanned
    obtain ⟨source, value', rest, later, split, short, isValue, lexedRest, same⟩ :=
      exists_source (by decide) scanned
    rw [List.cons.injEq, Token.literal.injEq, List.nil_append] at same
    obtain ⟨rfl, rfl⟩ := same
    by_cases long : value.length < source.length
    · -- the literal would end at a quote further on
      have size := congrArg List.length split
      simp only [List.length_append, List.length_cons] at size
      obtain ⟨lead, split'⟩ := exists_behind ⟨source, split.symm⟩
        (show rest.length < (filled slots last).length by omega)
      exact absurd (literals_expected slots last)
        (literals_behind_quote slots last (by decide) split' lexedRest)
    · obtain ⟨rfl, sameRest⟩ := List.append_inj split (by omega)
      obtain rfl := (List.cons.inj sameRest).2
      exact ⟨isValue rfl, lexedRest⟩
  · rintro ⟨isValue, lexedRest⟩
    rw [scan_literal_of_unquote isValue [] (filled_head slots last), lexedRest]
    rfl

/-- **A statement has the tokens that are meant** exactly when each value is what it says as a
literal. -/
theorem lex_filled_iff (slots : List (Fixed × Text)) (last : Ending) :
    lex (filled slots last) = some (expected slots last) ↔
      ∀ slot ∈ slots, unquote slot.2 = some slot.2 := by
  induction slots with
  | nil => exact iff_of_true last.lex_text (by simp)
  | cons slot slots ih =>
      obtain ⟨fixed, value⟩ := slot
      have cancel : Function.Injective fun tokens => fixed.tokens ++ tokens :=
        fun _ _ => List.append_cancel_left
      rw [filled, expected, fixed.lex_append, lex_quote, List.forall_mem_cons, ← ih,
        ← scan_value_iff, ← Option.map_some (f := fun tokens => fixed.tokens ++ tokens),
        (Option.map_injective cancel).eq_iff]

/-! ## Names and numbers in a fixed text -/

/-- A text that is put into a statement without quotes and ends in a word. -/
structure Bare where
  text : Text
  lead : List Token
  last : Text
  run_text : run .plain text = (lead, .word last)
  unquoted : ∀ c ∈ text, isQuote c = false

/-- The tokens of a name or a number. -/
def Bare.tokens (bare : Bare) : List Token := bare.lead ++ [.word bare.last]

theorem isQuote_of_isWordChar {c : Char} (word : isWordChar c = true) : isQuote c = false := by
  by_contra quote
  simp only [isQuote, Bool.not_eq_false, Bool.or_eq_true, decide_eq_true_eq] at quote
  rcases quote with rfl | rfl <;> revert word <;> decide

theorem dash_of_isWordChar {c : Char} (word : isWordChar c = true) : c ≠ '-' := by
  rintro rfl
  revert word
  decide

theorem run_word (text : Text) {t : Text} (chars : ∀ c ∈ t, isWordChar c = true) :
    run (.word text) t = ([], .word (text ++ t)) := by
  induction t generalizing text with
  | nil => rw [run, List.append_nil]
  | cons c t ih =>
      rw [run, step, if_pos (chars c List.mem_cons_self),
        ih (text ++ [c]) fun d member => chars d (List.mem_cons_of_mem _ member)]
      simp

/-- A word ends where a character comes that is none of a word. -/
theorem run_word_break (text : Text) {t : Text} (some : t ≠ [])
    (breaks : t.head?.any isWordChar = false) :
    run (.word text) t = (.word text :: (run .plain t).1, (run .plain t).2) := by
  cases t with
  | nil => exact absurd rfl some
  | cons c t =>
      have noWord : ¬ isWordChar c = true := by simpa using breaks
      simp only [run, step, if_neg noWord, after, List.cons_append, List.nil_append]

/-- A name that needs no quotes. -/
def IsWord (t : Text) : Prop := t ≠ [] ∧ t.all isWordChar = true

instance (t : Text) : Decidable (IsWord t) := inferInstanceAs (Decidable (_ ∧ _))

theorem IsWord.isWordChar {t : Text} (isWord : IsWord t) : ∀ c ∈ t, isWordChar c = true :=
  List.all_eq_true.mp isWord.2

theorem start_wordChar {c : Char} (word : isWordChar c = true) : start c = ([], .word [c]) :=
  if_pos word

/-- A word is read from a mode in which its first character begins a word. -/
theorem run_of_begins {mode : Mode} {tokens : List Token}
    (begins : ∀ c, isWordChar c = true → step mode c = (tokens, .word [c])) {t : Text}
    (isWord : IsWord t) : run mode t = (tokens, .word t) := by
  have chars := isWord.isWordChar
  cases t with
  | nil => exact absurd rfl isWord.1
  | cons c t =>
      rw [run, begins c (chars c List.mem_cons_self),
        run_word [c] fun d member => chars d (List.mem_cons_of_mem _ member)]
      simp

theorem run_isWord {t : Text} (isWord : IsWord t) : run .plain t = ([], .word t) :=
  run_of_begins (fun c word => show step .plain c = _ from start_wordChar word) isWord

/-- A dash before a word is a symbol. -/
theorem run_dash_isWord {t : Text} (isWord : IsWord t) :
    run .dash t = ([.symbol '-'], .word t) := by
  refine run_of_begins (fun c word => ?_) isWord
  rw [step, if_neg (dash_of_isWordChar word), after, start_wordChar word, List.append_nil]

/-- A name. -/
def Bare.word (t : Text) (isWord : IsWord t) : Bare where
  text := t
  lead := []
  last := t
  run_text := run_isWord isWord
  unquoted := fun c member => isQuote_of_isWordChar (isWord.isWordChar c member)

/-- Digits, letters and dashes, the last not a dash: the text of a number. -/
def IsNumber (t : Text) : Prop :=
  (∀ c ∈ t, isWordChar c = true ∨ c = '-') ∧ ∃ c ∈ t.getLast?, isWordChar c = true

theorem wordChar_bounds {c : Char} (word : isWordChar c = true) :
    32 < c.toNat ∧ c.toNat ≠ 127 := by
  simp only [isWordChar, Bool.or_eq_true, decide_eq_true_eq] at word
  rcases word with (((alphanumeric | rfl) | rfl) | rfl) | other
  · rcases Bool.or_eq_true_iff.mp alphanumeric with letter | digit
    · rcases Bool.or_eq_true_iff.mp letter with upper | lower
      · have bounds : 65 ≤ c.toNat ∧ c.toNat ≤ 90 := of_decide_eq_true upper
        omega
      · obtain ⟨least, greatest⟩ := Bool.and_eq_true_iff.mp lower
        have bounds : 97 ≤ c.toNat ∧ c.toNat ≤ 122 :=
          ⟨of_decide_eq_true least, of_decide_eq_true greatest⟩
        omega
    · have bounds := digit_bounds digit
      omega
  · decide
  · decide
  · decide
  · omega

/-- What has been read of a number. -/
def Mode.InNumber : Mode → Prop
  | .plain => True
  | .word _ => True
  | .dash => True
  | .dashes => True
  | _ => False

theorem step_wordChar {mode : Mode} (inNumber : mode.InNumber) {c : Char}
    (word : isWordChar c = true) : ∃ text, (step mode c).2 = .word text := by
  have noDash := dash_of_isWordChar word
  cases mode <;> try exact inNumber.elim
  case plain => exact ⟨[c], by rw [step, start_wordChar word]⟩
  case word text => exact ⟨text ++ [c], by rw [step, if_pos word]⟩
  case dash => exact ⟨[c], by rw [step, if_neg noDash, after, start_wordChar word]⟩
  case dashes =>
    obtain ⟨printed, notDelete⟩ := wordChar_bounds word
    have noNewline : c ≠ '\n' := by
      rintro rfl
      exact absurd printed (by decide)
    have noBlank : ¬ (isBlank c || isControl c) = true := by
      have noSpace : c ≠ ' ' := by
        rintro rfl
        exact absurd printed (by decide)
      simp [isBlank, isControl, noSpace]
      omega
    exact ⟨[c], by
      rw [step, if_neg noNewline, if_neg noBlank, if_neg noDash, after, start_wordChar word]⟩

theorem step_dash {mode : Mode} (inNumber : mode.InNumber) : (step mode '-').2.InNumber := by
  cases mode <;> first | exact inNumber.elim | trivial

theorem run_inNumber {mode : Mode} (inNumber : mode.InNumber) {t : Text}
    (chars : ∀ c ∈ t, isWordChar c = true ∨ c = '-') : (run mode t).2.InNumber := by
  induction t generalizing mode with
  | nil => exact inNumber
  | cons c t ih =>
      rw [run]
      apply ih ?_ fun d member => chars d (List.mem_cons_of_mem _ member)
      rcases chars c List.mem_cons_self with word | rfl
      · obtain ⟨text, next⟩ := step_wordChar inNumber word
        rw [next]
        trivial
      · exact step_dash inNumber

/-- A number ends in a word. -/
theorem run_isNumber {t : Text} (isNumber : IsNumber t) :
    ∃ lead last, run .plain t = (lead, .word last) := by
  obtain ⟨chars, c, isLast, word⟩ := isNumber
  obtain ⟨lead, rfl⟩ := List.getLast?_eq_some_iff.mp isLast
  have before : (run .plain lead).2.InNumber :=
    run_inNumber (show Mode.plain.InNumber from trivial) fun d member =>
      chars d (List.mem_append_left _ member)
  obtain ⟨last, ends⟩ := step_wordChar before word
  exact ⟨_, last, by rw [run_append, run, run, ends]⟩

theorem isQuote_of_isNumber {t : Text} (isNumber : IsNumber t) : ∀ c ∈ t, isQuote c = false := by
  intro c member
  rcases isNumber.1 c member with word | rfl
  · exact isQuote_of_isWordChar word
  · decide

/-- The text of a word that is being read. -/
def Mode.text : Mode → Text
  | .word text => text
  | _ => []

/-- A number. -/
def Bare.number (t : Text) (isNumber : IsNumber t) : Bare where
  text := t
  lead := (run .plain t).1
  last := (run .plain t).2.text
  run_text := by
    obtain ⟨lead, last, ends⟩ := run_isNumber isNumber
    rw [ends, Mode.text]
  unquoted := isQuote_of_isNumber isNumber

theorem isWordChar_of_isDigit {c : Char} (digit : c.isDigit = true) : isWordChar c = true := by
  simp [isWordChar, Char.isAlphanum, digit]

theorem isWord_natText (n : Nat) : IsWord (natText n) :=
  ⟨natText_ne_nil n, List.all_eq_true.mpr fun _ member =>
    isWordChar_of_isDigit (isDigit_of_mem_natText member)⟩

theorem isNumber_intText (i : Int) : IsNumber (intText i) := by
  constructor
  · intro c member
    rcases mem_intText member with minus | digit
    · exact .inr minus
    · exact .inl (isWordChar_of_isDigit digit)
  · have last := List.getLast?_eq_some_getLast (natText_ne_nil i.natAbs)
    refine ⟨(natText i.natAbs).getLast (natText_ne_nil _), ?_,
      (isWord_natText _).isWordChar _ (List.getLast_mem _)⟩
    unfold intText
    split
    · rw [List.getLast?_cons, last]
      rfl
    · exact last

/-- An integer: possibly a minus sign, and its digits. -/
def Bare.int (i : Int) : Bare where
  text := intText i
  lead := if i < 0 then [.symbol '-'] else []
  last := natText i.natAbs
  run_text := by
    have dash : step .plain '-' = ([], .dash) := by decide
    unfold intText
    split
    · rw [run, dash, run_dash_isWord (isWord_natText i.natAbs), List.nil_append]
    · exact run_isWord (isWord_natText i.natAbs)
  unquoted := isQuote_of_isNumber (isNumber_intText i)

theorem Bare.lex_text (bare : Bare) : lex bare.text = some bare.tokens := by
  rw [lex, scan, bare.run_text, finish, Option.map_some, tokens]

/-! ### Putting them in -/

/-- A fixed text, a name or a number, and another fixed text. -/
def Fixed.insert (first : Fixed) (bare : Bare) (second : Fixed)
    (breaks : second.text.head?.any isWordChar = false) : Fixed where
  text := first.text ++ (bare.text ++ second.text)
  tokens := first.tokens ++ (bare.tokens ++ second.tokens)
  run_text := by
    rw [run_append, first.run_text, run_append, bare.run_text,
      run_word_break bare.last second.ne_nil breaks, second.run_text, Bare.tokens]
    simp
  ne_nil := by simp [first.ne_nil]
  unquoted := List.forall_mem_append.mpr
    ⟨first.unquoted, List.forall_mem_append.mpr ⟨bare.unquoted, second.unquoted⟩⟩

@[simp] theorem Fixed.text_insert (first : Fixed) (bare : Bare) (second : Fixed)
    (breaks : second.text.head?.any isWordChar = false) :
    (first.insert bare second breaks).text = first.text ++ (bare.text ++ second.text) := rfl

/-- A fixed text, a name or a number, and the end of the statement. -/
def Ending.insert (first : Fixed) (bare : Bare) (last : Ending)
    (breaks : last.text.head?.any isWordChar = false) : Ending where
  text := first.text ++ (bare.text ++ last.text)
  tokens := first.tokens ++ (bare.tokens ++ last.tokens)
  lex_text := by
    have lexed := last.lex_text
    rw [lex, scan] at lexed
    rw [first.lex_append, lex, scan, run_append, bare.run_text,
      run_word_break bare.last last.ne_nil breaks]
    obtain ⟨tokens, finished, isLast⟩ := Option.map_eq_some_iff.mp lexed
    rw [finished, ← isLast, Bare.tokens]
    simp
  ne_nil := by simp [first.ne_nil]
  unquoted := List.forall_mem_append.mpr
    ⟨first.unquoted, List.forall_mem_append.mpr ⟨bare.unquoted, last.unquoted⟩⟩

@[simp] theorem Ending.text_insert (first : Fixed) (bare : Bare) (last : Ending)
    (breaks : last.text.head?.any isWordChar = false) :
    (insert first bare last breaks).text = first.text ++ (bare.text ++ last.text) := rfl

end Trading.SqlText
