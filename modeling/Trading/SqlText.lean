import Trading.Text

/-!
# The tokens of a statement of SQL

A statement is read character by character: `step` says what a character does in a mode, and
`lex` gives the tokens of a text, if no literal, quoted name or comment is left open at its end.
Between two apostrophes, or two quotation marks, stands a string literal, in which a doubled
quote stands for the quote and a backslash begins an escape sequence. Words are keywords, names,
qualified names and numbers, symbols are single characters, and comments are passed over
(`/*!` begins a comment like any other).

A literal has a source, which ends with a quote and is not shorter than its value
(`exists_source`), and begins with a quote (`exists_literal`). A text between apostrophes is the
literal of itself when it has no apostrophe, and no backslash but before `%` and `_`
(`unquote_eq_self_iff`).
-/

set_option autoImplicit false

namespace Trading.SqlText

open Trading.Text

/-! ## The automaton -/

/-- A token; of a literal, its value. -/
inductive Token where
  | word (text : Text)
  | name (text : Text)
  | literal (value : Text)
  | symbol (c : Char)
  deriving DecidableEq

/-- A keyword, a name or a number. -/
def kw (t : String) : Token := .word t.toList

/-- The values of the literals among some tokens. -/
def literals (tokens : List Token) : List Text :=
  tokens.filterMap fun
    | .literal value => some value
    | _ => none

def isWordChar (c : Char) : Bool :=
  c.isAlphanum || c = '_' || c = '$' || c = '.' || decide (128 ≤ c.toNat)

def isQuote (c : Char) : Bool := c = '\'' || c = '"'

def isBlank (c : Char) : Bool := c = ' ' || (decide (9 ≤ c.toNat) && decide (c.toNat ≤ 13))

def isControl (c : Char) : Bool := decide (c.toNat < 32) || decide (c.toNat = 127)

/-- What has been read of a token that is not complete. -/
inductive Mode where
  | plain
  | word (text : Text)
  /-- Inside a literal, after a backslash in it, and after a quote that may close it. -/
  | literal (quote : Char) (value : Text)
  | escaped (quote : Char) (value : Text)
  | closing (quote : Char) (value : Text)
  /-- Inside a name between backquotes, and after a backquote that may close it. -/
  | name (text : Text)
  | closingName (text : Text)
  /-- After one and after two dashes, and after a slash. -/
  | dash
  | dashes
  | slash
  /-- In a comment up to the end of the line, in one up to `*/`, and after a star in it. -/
  | line
  | block
  | star
  deriving DecidableEq

/-- A character between two tokens. -/
def start (c : Char) : List Token × Mode :=
  if isWordChar c then ([], .word [c])
  else if isBlank c then ([], .plain)
  else if isQuote c then ([], .literal c [])
  else if c = '`' then ([], .name [])
  else if c = '-' then ([], .dash)
  else if c = '/' then ([], .slash)
  else if c = '#' then ([], .line)
  else ([.symbol c], .plain)

/-- A character that ends the tokens before it. -/
def after (tokens : List Token) (c : Char) : List Token × Mode :=
  (tokens ++ (start c).1, (start c).2)

/-- What a character does: the tokens that it completes, and the next mode. -/
def step : Mode → Char → List Token × Mode
  | .plain, c => start c
  | .word text, c => if isWordChar c then ([], .word (text ++ [c])) else after [.word text] c
  | .literal quote value, c =>
    if c = quote then ([], .closing quote value)
    else if c = '\\' then ([], .escaped quote value)
    else ([], .literal quote (value ++ [c]))
  | .escaped quote value, c => ([], .literal quote (value ++ escape c))
  | .closing quote value, c =>
    if c = quote then ([], .literal quote (value ++ [c])) else after [.literal value] c
  | .name text, c => if c = '`' then ([], .closingName text) else ([], .name (text ++ [c]))
  | .closingName text, c =>
    if c = '`' then ([], .name (text ++ [c])) else after [.name text] c
  | .dash, c => if c = '-' then ([], .dashes) else after [.symbol '-'] c
  | .dashes, c =>
    -- only two dashes with a blank after them begin a comment
    if c = '\n' then ([], .plain)
    else if isBlank c || isControl c then ([], .line)
    else if c = '-' then ([.symbol '-'], .dashes)
    else after [.symbol '-', .symbol '-'] c
  | .slash, c => if c = '*' then ([], .block) else after [.symbol '/'] c
  | .line, c => ([], if c = '\n' then .plain else .line)
  | .block, c => ([], if c = '*' then .star else .block)
  | .star, c => ([], if c = '/' then .plain else if c = '*' then .star else .block)

/-- The end of the text: the last tokens, or none if something is left open. -/
def finish : Mode → Option (List Token)
  | .plain => some []
  | .word text => some [.word text]
  | .closing _ value => some [.literal value]
  | .closingName text => some [.name text]
  | .dash => some [.symbol '-']
  | .dashes => some []
  | .slash => some [.symbol '/']
  | .line => some []
  | _ => none

/-- The tokens that a text completes, and the mode at its end. -/
def run : Mode → Text → List Token × Mode
  | mode, [] => ([], mode)
  | mode, c :: t =>
    ((step mode c).1 ++ (run (step mode c).2 t).1, (run (step mode c).2 t).2)

/-- The tokens of a text that is read from a mode on. -/
def scan (mode : Mode) (t : Text) : Option (List Token) :=
  (finish (run mode t).2).map fun last => (run mode t).1 ++ last

/-- The tokens of a text. -/
def lex (t : Text) : Option (List Token) := scan .plain t

example : lex "SELECT 'it''s' -- a, b".toList =
    some [.word "SELECT".toList, .literal "it's".toList] := by decide +kernel

theorem run_append (mode : Mode) (first second : Text) :
    run mode (first ++ second) =
      ((run mode first).1 ++ (run (run mode first).2 second).1,
        (run (run mode first).2 second).2) := by
  induction first generalizing mode with
  | nil => rfl
  | cons c first ih => simp only [List.cons_append, run, ih, List.append_assoc]

theorem scan_append (mode : Mode) (first second : Text) :
    scan mode (first ++ second) =
      (scan (run mode first).2 second).map fun tokens => (run mode first).1 ++ tokens := by
  simp only [scan, run_append, Option.map_map, Function.comp_def, List.append_assoc]

theorem scan_cons (mode : Mode) (c : Char) (t : Text) :
    scan mode (c :: t) =
      (scan (step mode c).2 t).map fun tokens => (step mode c).1 ++ tokens := by
  simp only [scan, run, Option.map_map, Function.comp_def, List.append_assoc]

theorem scan_nil (mode : Mode) : scan mode [] = finish mode := by
  simp [scan, run]

theorem literals_append (first second : List Token) :
    literals (first ++ second) = literals first ++ literals second := List.filterMap_append

/-! ## Inside a literal -/

/-- A quote closes a literal unless another one follows it. -/
theorem scan_closing {quote : Char} (value : Text) {t : Text} (single : ∀ c ∈ t.head?, c ≠ quote) :
    scan (.closing quote value) t = (lex t).map fun tokens => .literal value :: tokens := by
  cases t with
  | nil => rfl
  | cons c t =>
      have other : c ≠ quote := single c rfl
      simp only [lex, scan_cons, step, if_neg other, after, Option.map_map, Function.comp_def,
        List.cons_append, List.nil_append]

theorem scan_literal_quote (quote : Char) (value t : Text) :
    scan (.literal quote value) (quote :: t) = scan (.closing quote value) t := by
  simp [scan_cons, step]

theorem scan_literal_doubled (quote : Char) (value t : Text) :
    scan (.literal quote value) (quote :: quote :: t) =
      scan (.literal quote (value ++ [quote])) t := by
  simp [scan_cons, step]

theorem scan_literal_escape {quote : Char} (other : '\\' ≠ quote) (value : Text) (c : Char)
    (t : Text) : scan (.literal quote value) ('\\' :: c :: t) =
      scan (.literal quote (value ++ escape c)) t := by
  simp [scan_cons, step, other]

theorem scan_literal_other {quote c : Char} (other : c ≠ quote) (noEscape : c ≠ '\\')
    (value t : Text) :
    scan (.literal quote value) (c :: t) = scan (.literal quote (value ++ [c])) t := by
  simp [scan_cons, step, other, noEscape]

theorem length_escape_le (c : Char) : (escape c).length ≤ 2 := by
  unfold escape
  split <;> simp

theorem unquote_other {c : Char} (noQuote : c ≠ '\'') (noEscape : c ≠ '\\') (t : Text) :
    unquote (c :: t) = (unquote t).map fun value => c :: value := by
  rw [unquote]
  · exact fun _ same => absurd same noQuote
  · exact noQuote
  · exact fun _ _ same => absurd same noEscape
  · exact fun same => absurd same noEscape

theorem not_escape {c : Char} {t : Text}
    (noEscape : ∀ d rest, c = '\\' → t = d :: rest → False) (noLast : c = '\\' → t = [] → False) :
    c ≠ '\\' := by
  intro same
  cases t with
  | nil => exact noLast same rfl
  | cons d t => exact noEscape d t same rfl

/-- **A text whose value is known, between quotes, is the literal of this value.** -/
theorem scan_literal_of_unquote {source value : Text} (isValue : unquote source = some value)
    (before : Text) {rest : Text} (single : ∀ c ∈ rest.head?, c ≠ '\'') :
    scan (.literal '\'' before) (source ++ '\'' :: rest) =
      (lex rest).map fun tokens => .literal (before ++ value) :: tokens := by
  induction source using unquote.induct generalizing before value with
  | case1 =>
      obtain rfl : [] = value := by simpa [unquote] using isValue
      rw [List.nil_append, scan_literal_quote, scan_closing before single, List.append_nil]
  | case2 source ih =>
      obtain ⟨value, isRest, rfl⟩ := Option.map_eq_some_iff.mp (by simpa [unquote] using isValue)
      rw [List.cons_append, List.cons_append, scan_literal_doubled, ih isRest, List.append_assoc,
        List.singleton_append]
  | case3 source notDoubled => simp [unquote] at isValue
  | case4 c source ih =>
      obtain ⟨value, isRest, rfl⟩ := Option.map_eq_some_iff.mp (by simpa [unquote] using isValue)
      rw [List.cons_append, List.cons_append, scan_literal_escape (by decide), ih isRest,
        List.append_assoc]
  | case5 => simp [unquote] at isValue
  | case6 c source _ noQuote noEscape noLast ih =>
      have other := not_escape noEscape noLast
      rw [unquote_other noQuote other] at isValue
      obtain ⟨value, isRest, rfl⟩ := Option.map_eq_some_iff.mp isValue
      rw [List.cons_append, scan_literal_other noQuote other, ih isRest, List.append_assoc,
        List.singleton_append]

/-- **A literal ends**: its source stands before a single quote, is not shorter than its value,
and its value is that of the source between apostrophes. -/
theorem exists_source {quote : Char} (noEscape : '\\' ≠ quote) {before t : Text}
    {tokens : List Token} (scanned : scan (.literal quote before) t = some tokens) :
    ∃ source value rest later, t = source ++ quote :: rest ∧
      value.length ≤ source.length ∧ (quote = '\'' → unquote source = some value) ∧
      lex rest = some later ∧ tokens = .literal (before ++ value) :: later := by
  induction size : t.length using Nat.strong_induction_on generalizing t before with
  | _ size ih =>
      cases t with
      | nil => cases scanned
      | cons c t =>
          rw [List.length_cons] at size
          by_cases isQuote : c = quote
          · subst isQuote
            by_cases single : ∀ d ∈ t.head?, d ≠ c
            · rw [scan_literal_quote, scan_closing before single] at scanned
              obtain ⟨later, isLater, rfl⟩ := Option.map_eq_some_iff.mp scanned
              exact ⟨[], [], t, later, rfl, le_rfl, fun _ => rfl, isLater, by simp⟩
            · -- a doubled quote is one character of the value
              obtain ⟨t, rfl⟩ : ∃ t', t = c :: t' := by
                cases t with
                | nil => simp at single
                | cons d t => exact ⟨t, by simpa using single⟩
              rw [scan_literal_doubled] at scanned
              rw [List.length_cons] at size
              obtain ⟨source, value, rest, later, rfl, short, isValue, isLater, rfl⟩ :=
                ih t.length (by omega) scanned rfl
              refine ⟨c :: c :: source, c :: value, rest, later, rfl, ?_, ?_, isLater, by simp⟩
              · simp only [List.length_cons]
                omega
              · rintro rfl
                rw [unquote, isValue rfl, Option.map_some]
          · by_cases isEscape : c = '\\'
            · subst isEscape
              cases t with
              | nil =>
                  rw [scan_cons, scan_nil] at scanned
                  simp [step, isQuote, finish] at scanned
              | cons d t =>
                  rw [scan_literal_escape isQuote] at scanned
                  rw [List.length_cons] at size
                  obtain ⟨source, value, rest, later, rfl, short, isValue, isLater, rfl⟩ :=
                    ih t.length (by omega) scanned rfl
                  refine ⟨'\\' :: d :: source, escape d ++ value, rest, later, rfl, ?_, ?_, isLater,
                    by simp⟩
                  · have two := length_escape_le d
                    simp only [List.length_cons, List.length_append]
                    omega
                  · rintro rfl
                    rw [unquote, isValue rfl, Option.map_some]
            · rw [scan_literal_other isQuote isEscape] at scanned
              obtain ⟨source, value, rest, later, rfl, short, isValue, isLater, rfl⟩ :=
                ih t.length (by omega) scanned rfl
              refine ⟨c :: source, c :: value, rest, later, rfl, ?_, ?_, isLater, by simp⟩
              · simp only [List.length_cons]
                omega
              · rintro rfl
                rw [unquote_other isQuote isEscape, isValue rfl, Option.map_some]

/-! ## Outside of literals -/

/-- No literal is open. -/
def Mode.Outside : Mode → Prop
  | .literal _ _ => False
  | .escaped _ _ => False
  | .closing _ _ => False
  | _ => True

/-- Between two tokens only a quote begins a literal. -/
theorem start_outside (c : Char) :
    literals (start c).1 = [] ∧
      ((start c).2.Outside ∨ isQuote c = true ∧ (start c).2 = .literal c []) := by
  unfold start
  by_cases quote : isQuote c = true
  · rw [if_pos quote]
    split_ifs
    · exact ⟨rfl, .inl trivial⟩
    · exact ⟨rfl, .inl trivial⟩
    · exact ⟨rfl, .inr ⟨quote, rfl⟩⟩
  · rw [if_neg quote]
    split_ifs <;> exact ⟨rfl, .inl trivial⟩

theorem after_outside {tokens : List Token} (none : literals tokens = []) (c : Char) :
    literals (after tokens c).1 = [] ∧
      ((after tokens c).2.Outside ∨ isQuote c = true ∧ (after tokens c).2 = .literal c []) := by
  obtain ⟨noLiteral, next⟩ := start_outside c
  refine ⟨?_, next⟩
  rw [after, literals_append, none, noLiteral, List.append_nil]

/-- **Outside of a literal** no character completes one, and only a quote begins one. -/
theorem step_outside {mode : Mode} (outside : mode.Outside) (c : Char) :
    literals (step mode c).1 = [] ∧
      ((step mode c).2.Outside ∨ isQuote c = true ∧ (step mode c).2 = .literal c []) := by
  cases mode with
  | plain => exact start_outside c
  | word text =>
      rw [step]
      split
      · exact ⟨rfl, .inl trivial⟩
      · exact after_outside rfl c
  | literal quote value => exact outside.elim
  | escaped quote value => exact outside.elim
  | closing quote value => exact outside.elim
  | name text =>
      rw [step]
      split <;> exact ⟨rfl, .inl trivial⟩
  | closingName text =>
      rw [step]
      split
      · exact ⟨rfl, .inl trivial⟩
      · exact after_outside rfl c
  | dash =>
      rw [step]
      split
      · exact ⟨rfl, .inl trivial⟩
      · exact after_outside rfl c
  | dashes =>
      rw [step]
      split_ifs
      · exact ⟨rfl, .inl trivial⟩
      · exact ⟨rfl, .inl trivial⟩
      · exact ⟨rfl, .inl trivial⟩
      · exact after_outside rfl c
  | slash =>
      rw [step]
      split
      · exact ⟨rfl, .inl trivial⟩
      · exact after_outside rfl c
  | line =>
      rw [step]
      refine ⟨rfl, .inl ?_⟩
      split <;> trivial
  | block =>
      rw [step]
      refine ⟨rfl, .inl ?_⟩
      split <;> trivial
  | star =>
      rw [step]
      refine ⟨rfl, .inl ?_⟩
      split_ifs <;> trivial

theorem finish_outside {mode : Mode} (outside : mode.Outside) {tokens : List Token}
    (finished : finish mode = some tokens) : literals tokens = [] := by
  cases mode <;> simp only [finish, Option.some.injEq, reduceCtorEq] at finished
  case closing => exact outside.elim
  all_goals
    subst finished
    rfl

theorem escape_not_quote {c : Char} (quote : isQuote c = true) : '\\' ≠ c := by
  rintro rfl
  cases quote

/-- **A literal begins with a quote**, and its source, which is not shorter than its value, ends
with a quote. -/
theorem exists_literal {mode : Mode} (outside : mode.Outside) {t : Text} {tokens : List Token}
    (scanned : scan mode t = some tokens) {value : Text} {values : List Text}
    (has : literals tokens = value :: values) :
    ∃ lead quote source rest later, isQuote quote = true ∧
      t = lead ++ quote :: (source ++ quote :: rest) ∧ value.length ≤ source.length ∧
      lex rest = some later ∧ literals later = values := by
  induction t generalizing mode tokens with
  | nil =>
      rw [scan_nil] at scanned
      rw [finish_outside outside scanned] at has
      cases has
  | cons c t ih =>
      rw [scan_cons] at scanned
      obtain ⟨tokens, scannedTail, rfl⟩ := Option.map_eq_some_iff.mp scanned
      obtain ⟨noLiteral, stillOutside | ⟨quote, opened⟩⟩ := step_outside outside c
      · rw [literals_append, noLiteral, List.nil_append] at has
        obtain ⟨lead, quote, source, rest, later, isQuote, rfl, more⟩ :=
          ih stillOutside scannedTail has
        exact ⟨c :: lead, quote, source, rest, later, isQuote, rfl, more⟩
      · rw [literals_append, noLiteral, List.nil_append] at has
        rw [opened] at scannedTail
        obtain ⟨source, value', rest, later, rfl, short, -, isLater, rfl⟩ :=
          exists_source (escape_not_quote quote) scannedTail
        obtain ⟨rfl, rfl⟩ := List.cons.inj has
        exact ⟨[], c, source, rest, later, quote, rfl, short, isLater, rfl⟩

theorem literals_of_unquoted {t : Text} (unquoted : ∀ c ∈ t, isQuote c = false)
    {tokens : List Token} (lexed : lex t = some tokens) : literals tokens = [] := by
  cases has : literals tokens with
  | nil => rfl
  | cons value values =>
      obtain ⟨lead, quote, source, rest, later, isQuote, rfl, -⟩ :=
        exists_literal (show Mode.plain.Outside from trivial) lexed has
      rw [unquoted quote (by simp)] at isQuote
      cases isQuote

/-! ## Texts that are what they say -/

/-- No apostrophe, and a backslash only before `%` and `_`. -/
def Verbatim (t : Text) : Prop :=
  '\'' ∉ t ∧ ∀ before after, t = before ++ '\\' :: after →
    after.head? = some '%' ∨ after.head? = some '_'

theorem Verbatim.tail {c : Char} {t : Text} (verbatim : Verbatim (c :: t)) : Verbatim t :=
  ⟨(List.ne_and_not_mem_of_not_mem_cons verbatim.1).2, fun before after split =>
    verbatim.2 (c :: before) after (by rw [split, List.cons_append])⟩

theorem verbatim_nil : Verbatim [] := ⟨List.not_mem_nil, fun _ _ split => by simp at split⟩

theorem verbatim_other {c : Char} (noQuote : c ≠ '\'') (noEscape : c ≠ '\\') {t : Text} :
    Verbatim (c :: t) ↔ Verbatim t := by
  refine ⟨Verbatim.tail, fun verbatim => ⟨?_, fun before after split => ?_⟩⟩
  · simpa [noQuote.symm] using verbatim.1
  · cases before with
    | nil => exact absurd (List.cons.inj split).1 noEscape
    | cons d before => exact verbatim.2 before after (List.cons.inj split).2

theorem verbatim_escape {c : Char} {t : Text} :
    Verbatim ('\\' :: c :: t) ↔ (c = '%' ∨ c = '_') ∧ Verbatim t := by
  constructor
  · intro verbatim
    have next := verbatim.2 [] (c :: t) rfl
    simp only [List.head?_cons, Option.some.injEq] at next
    exact ⟨next, verbatim.tail.tail⟩
  · rintro ⟨next, verbatim⟩
    have noQuote : c ≠ '\'' := by rcases next with rfl | rfl <;> decide
    have noEscape : c ≠ '\\' := by rcases next with rfl | rfl <;> decide
    have verbatim' : Verbatim (c :: t) := (verbatim_other noQuote noEscape).mpr verbatim
    refine ⟨by simpa using verbatim'.1, fun before after split => ?_⟩
    cases before with
    | nil =>
        rw [← (List.cons.inj split).2, List.head?_cons, Option.some.injEq, Option.some.injEq]
        exact next
    | cons d before => exact verbatim'.2 before after (List.cons.inj split).2

theorem length_escape_eq {c : Char} (two : (escape c).length = 2) : c = '%' ∨ c = '_' := by
  unfold escape at two
  split at two <;> simp_all

/-- A value is not longer than its source, and as long only if the source is verbatim. -/
theorem length_unquote {source value : Text} (isValue : unquote source = some value) :
    value.length ≤ source.length ∧ (value.length = source.length → Verbatim source) := by
  induction source using unquote.induct generalizing value with
  | case1 =>
      obtain rfl : [] = value := by simpa [unquote] using isValue
      exact ⟨le_rfl, fun _ => verbatim_nil⟩
  | case2 source ih =>
      obtain ⟨value, isRest, rfl⟩ := Option.map_eq_some_iff.mp (by simpa [unquote] using isValue)
      have short := (ih isRest).1
      simp only [List.length_cons]
      exact ⟨by omega, fun same => by omega⟩
  | case3 source notDoubled => simp [unquote] at isValue
  | case4 c source ih =>
      obtain ⟨value, isRest, rfl⟩ := Option.map_eq_some_iff.mp (by simpa [unquote] using isValue)
      obtain ⟨short, whole⟩ := ih isRest
      have two := length_escape_le c
      simp only [List.length_cons, List.length_append]
      refine ⟨by omega, fun same => verbatim_escape.mpr ⟨?_, whole (by omega)⟩⟩
      exact length_escape_eq (by omega)
  | case5 => simp [unquote] at isValue
  | case6 c source _ noQuote noEscape noLast ih =>
      have other := not_escape noEscape noLast
      rw [unquote_other noQuote other] at isValue
      obtain ⟨value, isRest, rfl⟩ := Option.map_eq_some_iff.mp isValue
      obtain ⟨short, whole⟩ := ih isRest
      simp only [List.length_cons]
      exact ⟨by omega, fun same => (verbatim_other noQuote other).mpr (whole (by omega))⟩

/-- **A text is what it says as a literal** exactly when it has no apostrophe, and no backslash
but before `%` and `_`. -/
theorem unquote_eq_self_iff (t : Text) : unquote t = some t ↔ Verbatim t := by
  constructor
  · exact fun isValue => (length_unquote isValue).2 rfl
  · intro verbatim
    induction t using unquote.induct with
    | case1 => rfl
    | case2 source ih => exact absurd List.mem_cons_self verbatim.1
    | case3 source notDoubled => exact absurd List.mem_cons_self verbatim.1
    | case4 c source ih =>
        obtain ⟨next, verbatimRest⟩ := verbatim_escape.mp verbatim
        rw [unquote, ih verbatimRest]
        rcases next with rfl | rfl <;> rfl
    | case5 => simpa using verbatim.2 [] [] rfl
    | case6 c source _ noQuote noEscape noLast ih =>
        have other := not_escape noEscape noLast
        have verbatimRest := (verbatim_other noQuote other).mp verbatim
        rw [unquote_other noQuote other, ih verbatimRest, Option.map_some]

end Trading.SqlText
