import Mathlib.Algebra.Order.Ring.Nat
import Mathlib.Order.Bounds.Defs
import Trading.Dao.Queries

/-!
# The two strides

`getModulo` and `getParam` look for a stride with the same loop, in `int` variables: a counter,
and the quotient of the number of rows by the counter. `whileInts` is this loop as it runs in 32
bits, for a bounded number of rounds. What a result that does not fit becomes is a parameter of
it: `wrapped` is what the language does, and with `checked` such a result is an error.

`strides_agree` says that the loops end with the same stride for every number of rows that is
an `int`, that nothing overflows on the way and no divisor is zero, and what the stride makes of
the script and of the statement.
-/

set_option autoImplicit false

namespace Trading.Dao

open Trading.Text

/-! ## The loop in 32 bits -/

/-- A result that does not fit into an `int` wraps around. -/
def wrapped (i : Int) : Option Int := some (i.bmod (2 ^ 32))

/-- A result that does not fit into an `int` is an error. -/
def checked (i : Int) : Option Int :=
  if -2147483648 ≤ i ∧ i ≤ 2147483647 then some i else none

/-- `nb/k`. A zero divisor is an `ArithmeticException`. -/
def divide (fit : Int → Option Int) (nb k : Int) : Option Int :=
  if k = 0 then none else fit (nb.tdiv k)

/-- `while(tmp>2000)`, with the counter increased and `tmp` set to `nb/k` in each round, for a
number of rounds at most. `body` is what a round does besides. -/
def whileInts {A : Type} (fit : Int → Option Int) (nb : Int) (body : A → A) :
    Nat → Int → Int → A → Option (Int × A)
  | 0, k, tmp, other => if 2000 < tmp then none else some (k, other)
  | rounds + 1, k, tmp, other =>
      if 2000 < tmp then do
        let k' ← fit (k + 1)
        let tmp' ← divide fit nb k'
        whileInts fit nb body rounds k' tmp' (body other)
      else some (k, other)

/-- The loop of `getModulo`. -/
def moduloInts (fit : Int → Option Int) (nb : Int) (rounds : Nat) : Option Int :=
  (whileInts fit nb id rounds 1 nb ()).map Prod.fst

/-- The loop of `getParam`: the counter, and the script. -/
def paramInts (fit : Int → Option Int) (nb : Int) (rounds : Nat) : Option (Int × Text) :=
  (whileInts fit nb (fun param => param ++ "n;".toList) rounds 1 nb ['{', 'p', ';']).map
    fun result => (result.1, result.2 ++ ['}'])

/-! ## The end of the loop -/

/-- Results that fit stay as they are. -/
def Fitting (fit : Int → Option Int) : Prop :=
  ∀ i, -2147483648 ≤ i → i ≤ 2147483647 → fit i = some i

theorem fitting_wrapped : Fitting wrapped := by
  intro i lower upper
  rw [wrapped, Int.bmod_eq_of_le (by omega) (by omega)]

theorem fitting_checked : Fitting checked := by
  intro i lower upper
  rw [checked, if_pos ⟨lower, upper⟩]

variable {fit : Int → Option Int}

theorem Fitting.divide_eq (fitting : Fitting fit) {nb k : Nat} (positive : 1 ≤ k)
    (fits : nb ≤ 2147483647) : divide fit (nb : Int) (k : Int) = some ((nb / k : Nat) : Int) := by
  have small : nb / k ≤ nb := Nat.div_le_self nb k
  have quotient : (nb : Int).tdiv (k : Int) = ((nb / k : Nat) : Int) := by
    rw [Int.tdiv_eq_ediv_of_nonneg (Int.natCast_nonneg nb), Int.natCast_ediv]
  rw [divide, if_neg (by omega), quotient]
  generalize nb / k = result at small
  exact fitting _ (by omega) (by omega)

/-- **The loop ends with the least stride that is long enough**, after a round for each stride
that is too short. -/
theorem Fitting.whileInts_eq (fitting : Fitting fit) {nb : Nat} (fits : nb ≤ 2147483647) {A : Type}
    (body : A → A) : ∀ (left rounds k : Nat) (other : A), 1 ≤ k → k + left = nb / 2001 + 1 →
      left ≤ rounds →
        whileInts fit nb body rounds k ((nb / k : Nat) : Int) other =
          some (((nb / 2001 + 1 : Nat) : Int), body^[left] other) := by
  intro left
  induction left with
  | zero =>
      intro rounds k other positive last _
      have enough : ¬ 2000 < nb / k := mt (tooMany_iff positive).mp (by omega)
      have ends : whileInts fit nb body rounds k ((nb / k : Nat) : Int) other =
          some ((k : Int), other) := by
        cases rounds <;> rw [whileInts, if_neg (by omega)]
      rw [ends, ← last, Nat.add_zero, Function.iterate_zero_apply]
  | succ left ih =>
      intro rounds k other positive more within
      obtain ⟨rounds, rfl⟩ : ∃ fewer, rounds = fewer + 1 := ⟨rounds - 1, by omega⟩
      have tooMany : 2000 < nb / k := (tooMany_iff positive).mpr (by omega)
      have next : fit ((k : Int) + 1) = some ((k + 1 : Nat) : Int) := by
        rw [← Int.natCast_succ]
        exact fitting _ (by omega) (by omega)
      rw [whileInts, if_pos (by omega)]
      simp only [next, Option.bind_eq_bind, Option.bind_some,
        fitting.divide_eq (Nat.le_add_left 1 k) fits]
      rw [ih rounds (k + 1) (body other) (by omega) (by omega) (by omega),
        Function.iterate_succ_apply]

theorem iterate_append (part : Text) (n : Nat) (text : Text) :
    (fun param => param ++ part)^[n] text = text ++ (List.replicate n part).flatten := by
  induction n generalizing text with
  | zero => rw [Function.iterate_zero_apply, List.replicate_zero, List.flatten_nil, List.append_nil]
  | succ n ih =>
      rw [Function.iterate_succ_apply, ih, List.replicate_succ, List.flatten_cons,
        List.append_assoc]

theorem Fitting.moduloInts_eq (fitting : Fitting fit) {nb : Nat} (fits : nb ≤ 2147483647)
    {rounds : Nat} (enough : nb / 2001 ≤ rounds) :
    moduloInts fit nb rounds = some ((nb / 2001 + 1 : Nat) : Int) := by
  have ends := fitting.whileInts_eq fits id (nb / 2001) rounds 1 () le_rfl (by omega) enough
  rw [Nat.div_one] at ends
  rw [moduloInts, Nat.cast_one.symm, ends, Option.map_some]

theorem Fitting.paramInts_eq (fitting : Fitting fit) {nb : Nat} (fits : nb ≤ 2147483647)
    {rounds : Nat} (enough : nb / 2001 ≤ rounds) :
    paramInts fit nb rounds =
      some (((nb / 2001 + 1 : Nat) : Int), Sed.scriptText (nb / 2001)) := by
  have ends := fitting.whileInts_eq fits (fun param => param ++ "n;".toList) (nb / 2001) rounds 1
    ['{', 'p', ';'] le_rfl (by omega) enough
  rw [Nat.div_one, iterate_append] at ends
  rw [paramInts, Nat.cast_one.symm, ends, Option.map_some, Sed.scriptText]

/-! ## The stride -/

/-- The stride is the least one that leaves 2000 rows at most. -/
theorem isLeast_stride (nb : Nat) : IsLeast {k | 1 ≤ k ∧ nb / k ≤ 2000} (nb / 2001 + 1) := by
  constructor
  · refine ⟨Nat.le_add_left 1 _, Nat.le_of_not_lt ?_⟩
    exact mt (tooMany_iff (Nat.le_add_left 1 _)).mp (by omega)
  · rintro k ⟨positive, enough⟩
    have longer := mt (tooMany_iff positive).mpr (Nat.not_lt_of_le enough)
    omega

/-- Of more than 2000 rows a thousand at least are left. -/
theorem thousand_le_div {nb : Nat} (many : 2000 < nb) : 1000 ≤ nb / (nb / 2001 + 1) := by
  rw [Nat.le_div_iff_mul_le (Nat.succ_pos _)]
  omega

/-- The number of places at which a text begins inside another one. -/
def occurrences (part text : Text) : Nat := text.tails.countP part.isPrefixOf

theorem occurrences_cons (part : Text) (c : Char) (text : Text) :
    occurrences part (c :: text) =
      occurrences part text + if part.isPrefixOf (c :: text) = true then 1 else 0 := by
  rw [occurrences, List.tails_cons, List.countP_cons, occurrences]

theorem occurrences_scriptText (skip : Nat) :
    occurrences "n;".toList (Sed.scriptText skip) = skip := by
  have nexts : occurrences "n;".toList
      ((List.replicate skip "n;".toList).flatten ++ ['}']) = skip := by
    induction skip with
    | zero => decide
    | succ skip ih =>
        have step : (List.replicate (skip + 1) "n;".toList).flatten ++ ['}'] =
            'n' :: ';' :: ((List.replicate skip "n;".toList).flatten ++ ['}']) := by
          simp [List.replicate_succ]
        rw [step, occurrences_cons, occurrences_cons, ih]
        simp [List.isPrefixOf]
  have opened : Sed.scriptText skip =
      '{' :: 'p' :: ';' :: ((List.replicate skip "n;".toList).flatten ++ ['}']) := by
    simp [Sed.scriptText]
  rw [opened, occurrences_cons, occurrences_cons, occurrences_cons, nexts]
  simp [List.isPrefixOf]

/-! ## The sample -/

variable {V : Type}

theorem length_byDate (instant : Text → Int) (rows : List (LiveRow V)) :
    (byDate instant rows).length = rows.length := List.length_insertionSort _ rows

/-- **Every `modulo`-th of some rows** is the quotient of their number. -/
theorem length_everyNth (modulo : Nat) (rows : List (LiveRow V)) :
    (everyNth modulo rows).length = rows.length / modulo := by
  -- the last row is kept when the stride divides the number of rows up to it
  induction rows using List.reverseRecOn with
  | nil => simp [everyNth]
  | append_singleton rows row ih =>
      rw [everyNth, List.length_map] at ih ⊢
      rw [List.zipIdx_append, List.filter_append, List.length_append, ih, List.length_append,
        List.length_singleton, Nat.succ_div]
      congr 1
      simp only [List.zipIdx_singleton, List.filter_singleton, Nat.dvd_iff_mod_eq_zero,
        Nat.add_comm 1 rows.length]
      by_cases divides : (rows.length + 1) % modulo = 0 <;> simp [divides]

theorem getModulo_eq (ID : Int) (live : List (LiveRow V))
    (fits : (rowsOfId ID live).length ≤ 2147483647) :
    getModulo ID live = some ((rowsOfId ID live).length / 2001 + 1) := by
  simp only [getModulo, countText, parseInt_natText fits, Option.bind_eq_bind, Option.bind_some,
    Option.pure_def, Int.toNat_natCast]
  rw [moduloLoop_eq _ 1 le_rfl (by omega)]

theorem getParam_eq {ID : Int} {files : Text} {directory : Directory} {nb : Nat}
    (fits : nb ≤ 2147483647) (counted : getCount ID files directory = some (natText nb)) :
    getParam ID files directory = some (Sed.scriptText (nb / 2001)) := by
  rw [getCount] at counted
  simp only [getParam, counted, Option.bind_eq_bind, Option.bind_some, parseInt_natText fits,
    Option.pure_def, Int.toNat_natCast, paramLoop_script]

/-- **The two loops end and agree.** For every number of rows that is an `int` there is a
stride, the quotient by 2001 and one more, which is the least that leaves 2000 rows at most.
Both loops end with it within as many rounds, in arithmetic that wraps around and in arithmetic
in which an overflow is an error, and no divisor is zero. The script of `getParam` passes over
as many lines as the stride says, and the statement of `getIndicesVals` samples the quotient of
the number of rows by the stride: all rows up to 2000 of them, and otherwise between 1000
and 2000. -/
theorem strides_agree {nb : Nat} (fits : nb ≤ 2147483647) :
    ∃ k, k = nb / 2001 + 1 ∧ IsLeast {k | 1 ≤ k ∧ nb / k ≤ 2000} k ∧
      (∀ fit ∈ [wrapped, checked], ∀ rounds, k ≤ rounds + 1 →
        moduloInts fit nb rounds = some (k : Int) ∧
          paramInts fit nb rounds = some ((k : Int), Sed.scriptText (k - 1))) ∧
      occurrences "n;".toList (Sed.scriptText (k - 1)) = k - 1 ∧
      (∀ ID files directory, getCount ID files directory = some (natText nb) →
        getParam ID files directory = some (Sed.scriptText (k - 1))) ∧
      (∀ (V : Type) (instant : Text → Int) (ID : Int) (live : List (LiveRow V)),
        (rowsOfId ID live).length = nb →
          getModulo ID live = some k ∧ (sampledRows instant ID k live).length = nb / k) ∧
      (nb ≤ 2000 → nb / k = nb) ∧ (2000 < nb → 1000 ≤ nb / k ∧ nb / k ≤ 2000) := by
  have least := isLeast_stride nb
  refine ⟨nb / 2001 + 1, rfl, least, ?_, ?_, ?_, ?_, ?_, ?_⟩
  · intro fit member rounds enough
    have fitting : Fitting fit := by
      rcases List.mem_cons.mp member with rfl | last
      · exact fitting_wrapped
      · rw [List.mem_singleton.mp last]
        exact fitting_checked
    exact ⟨fitting.moduloInts_eq fits (Nat.le_of_succ_le_succ enough),
      fitting.paramInts_eq fits (Nat.le_of_succ_le_succ enough)⟩
  · exact occurrences_scriptText _
  · exact fun ID files directory counted => getParam_eq fits counted
  · intro V instant ID live counted
    subst counted
    refine ⟨getModulo_eq ID live fits, ?_⟩
    rw [sampledRows, length_everyNth, length_byDate]
  · intro few
    have one : nb / 2001 + 1 = 1 := by omega
    rw [one, Nat.div_one]
  · exact fun many => ⟨thousand_le_div many, least.1.2⟩

theorem strides_agree_2001 :
    moduloInts wrapped 2001 1 = some 2 ∧
      paramInts wrapped 2001 1 = some (2, ['{', 'p', ';', 'n', ';', '}']) := by
  obtain ⟨k, rfl, -, loops, -⟩ := strides_agree (show 2001 ≤ 2147483647 by decide)
  exact loops wrapped List.mem_cons_self 1 (by decide)

end Trading.Dao
