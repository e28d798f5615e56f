import Trading.SqlTemplates
import Trading.Dao.Queries

/-!
# The statement of a poll

The server puts the date that a client sends between apostrophes, as it is. `poll_isolated_iff`
says for which dates the statement has the tokens that are meant, so that its answer depends on
the rows of the identifier alone: for the dates without an apostrophe, and without a backslash but
before `%` and `_`.

What the database does with the tokens of a statement is a `Moteur`: of the statement that is
meant it gives the answer of `getIndicesNewVals`. `lecteur` is one that reads the conditions of
statements of this form, also those that a date with apostrophes makes of it.
-/

set_option autoImplicit false

namespace Trading.Dao

open Trading.Text Trading.Recup Trading.SqlText

/-! ## The statement -/

/-- The statement of `getIndicesNewVals`. -/
def newValsSql (ID : Int) (DATE type : Text) : Text :=
  "SELECT VAL, DATE FROM ".toList ++ type ++ " WHERE ID=".toList ++ intText ID ++
    " AND DATE>'".toList ++ DATE ++ "' ORDER BY DATE".toList

/-- The condition that is meant. -/
def newValsCondition (ID : Int) (DATE : Text) : List Token :=
  [kw "ID", .symbol '='] ++
    ((Bare.int ID).tokens ++ [kw "AND", kw "DATE", .symbol '>', .literal DATE])

/-- The tokens that the statement means. -/
def newValsTokens (ID : Int) (DATE type : Text) : List Token :=
  [kw "SELECT", kw "VAL", .symbol ',', kw "DATE", kw "FROM", .word type, kw "WHERE"] ++
    (newValsCondition ID DATE ++ [kw "ORDER", kw "BY", kw "DATE"])

/-- The beginning of the statement. -/
def selectFrom : Fixed :=
  .of "SELECT VAL, DATE FROM ".toList [kw "SELECT", kw "VAL", .symbol ',', kw "DATE", kw "FROM"]
    (by decide +kernel)

/-- The fixed text between the table and the identifier. -/
def whereId : Fixed :=
  .of " WHERE ID=".toList [kw "WHERE", kw "ID", .symbol '='] (by decide +kernel)

/-- The fixed text between the identifier and the date. -/
def andDate : Fixed :=
  .of " AND DATE>".toList [kw "AND", kw "DATE", .symbol '>'] (by decide +kernel)

/-- The end of the statement. -/
def orderBy : Ending :=
  .of " ORDER BY DATE".toList [kw "ORDER", kw "BY", kw "DATE"] (by decide +kernel)

/-- What stands before the date. -/
def avantDate (ID : Int) (type : Text) (isWord : IsWord type) : Fixed :=
  (selectFrom.insert (.word type isWord) whereId rfl).insert (.int ID) andDate rfl

theorem newValsSql_eq (ID : Int) (DATE : Text) {type : Text} (isWord : IsWord type) :
    newValsSql ID DATE type = filled [(avantDate ID type isWord, DATE)] orderBy := by
  have last : " AND DATE>'".toList = andDate.text ++ ['\''] := by decide +kernel
  refine eq_filled_one ?_ (by decide +kernel)
  show selectFrom.text ++ type ++ whereId.text ++ intText ID ++ _ =
    selectFrom.text ++ (type ++ whereId.text) ++ (intText ID ++ andDate.text) ++ ['\'']
  rw [last]
  simp only [List.append_assoc]

/-- **The statement has the tokens that are meant** exactly for the dates that are
what they say as a literal. -/
theorem lex_newVals (ID : Int) (DATE : Text) {type : Text} (isWord : IsWord type) :
    lex (newValsSql ID DATE type) = some (newValsTokens ID DATE type) ↔ Verbatim DATE := by
  have tokens : newValsTokens ID DATE type =
      expected [(avantDate ID type isWord, DATE)] orderBy := by
    show _ = (selectFrom.tokens ++ ([.word type] ++ whereId.tokens) ++
      ((Bare.int ID).tokens ++ andDate.tokens)) ++ _
    simp only [newValsTokens, newValsCondition, List.append_assoc]
    rfl
  rw [newValsSql_eq ID DATE isWord, tokens, lex_filled_iff, ← unquote_eq_self_iff]
  simp

/-! ## The answer -/

variable {V : Type} {instant : Text → Int}

/-- A database that evaluates the tokens of a statement on its value tables. -/
structure Moteur (V : Type) (instant : Text → Int) where
  query : List Token → (Text → List (LiveRow V)) → Option (List (IndiceVal V))
  newVals : ∀ (ID : Int) (DATE type : Text) (tables : Text → List (LiveRow V)), IsWord type →
    query (newValsTokens ID DATE type) tables =
      some (getIndicesNewVals instant ID DATE (tables type))

/-- `jdbcTemplate.query`: the text is divided into tokens and evaluated. -/
def Moteur.executer (moteur : Moteur V instant) (sql : Text) (tables : Text → List (LiveRow V)) :
    Option (List (IndiceVal V)) :=
  (lex sql).bind fun tokens => moteur.query tokens tables

/-- A poll cannot read the data of another instrument: its statement has the tokens that are
meant, with the date as their only literal, and its answer is the same on any two databases that
agree on the rows of the identifier. -/
structure Isolee (moteur : Moteur V instant) (ID : Int) (DATE type : Text) : Prop where
  tokens : lex (newValsSql ID DATE type) = some (newValsTokens ID DATE type)
  answer : ∀ tables tables' : Text → List (LiveRow V),
    rowsOfId ID (tables type) = rowsOfId ID (tables' type) →
      moteur.executer (newValsSql ID DATE type) tables =
        moteur.executer (newValsSql ID DATE type) tables'

/-- **A poll is isolated** exactly when its date has no apostrophe, and no backslash but before
`%` and `_`. -/
theorem poll_isolated_iff (moteur : Moteur V instant) (ID : Int) (DATE : Text) {type : Text}
    (isWord : IsWord type) : Isolee moteur ID DATE type ↔ Verbatim DATE := by
  constructor
  · exact fun isolated => (lex_newVals ID DATE isWord).mp isolated.tokens
  · intro verbatim
    have lexed := (lex_newVals ID DATE isWord).mpr verbatim
    refine ⟨lexed, fun tables tables' agree => ?_⟩
    rw [Moteur.executer, Moteur.executer, lexed, Option.bind_some, Option.bind_some,
      moteur.newVals ID DATE type tables isWord, moteur.newVals ID DATE type tables' isWord,
      getIndicesNewVals, getIndicesNewVals, newRows, newRows, agree]

/-! ## A database that reads conditions -/

/-- A comparison, for a row: of the identifier, of the date, or of two literals. -/
def comparer (instant : Text → Int) (row : LiveRow V) : List Token → Option Bool
  | [.word colonne, .symbol '=', .word n] =>
    if colonne = "ID".toList then
      (digitsValue n).map fun (id : Nat) => decide (row.id = some (id : Int))
    else none
  | [.word colonne, .symbol '=', .symbol '-', .word n] =>
    if colonne = "ID".toList then
      (digitsValue n).map fun (id : Nat) => decide (row.id = some (-(id : Int)))
    else none
  | [.word colonne, .symbol '>', .literal date] =>
    if colonne = "DATE".toList then some (decide (instant date < instant row.date)) else none
  | [.literal first, .symbol '=', .literal second] => some (decide (first = second))
  | _ => none

/-- A condition, for a row: `OR` of `AND` of comparisons. -/
def evaluer (instant : Text → Int) (row : LiveRow V) (condition : List Token) : Option Bool := do
  let termes ← (condition.splitOn (kw "OR")).mapM fun terme =>
    (terme.splitOn (kw "AND")).mapM (comparer instant row)
  return termes.any fun terme => terme.all id

/-- What follows `WHERE`, for the rows of a table: a condition and `ORDER BY DATE`. -/
def repondre (instant : Text → Int) (rest : List Token) (live : List (LiveRow V)) :
    Option (List (IndiceVal V)) :=
  let condition := rest.take (rest.length - 3)
  if rest.drop (rest.length - 3) = [kw "ORDER", kw "BY", kw "DATE"] ∧
      live.all (fun row => (evaluer instant row condition).isSome) = true then
    some ((byDate instant (live.filter fun row =>
      decide (evaluer instant row condition = some true))).map LiveRow.send)
  else none

/-- `SELECT VAL, DATE FROM ... WHERE ...`. -/
def chercher (instant : Text → Int) (tokens : List Token) (tables : Text → List (LiveRow V)) :
    Option (List (IndiceVal V)) :=
  match tokens with
  | .word select :: .word val :: .symbol ',' :: .word date :: .word source :: .word type ::
      .word filtre :: rest =>
    if [select, val, date, source, filtre] =
        ["SELECT".toList, "VAL".toList, "DATE".toList, "FROM".toList, "WHERE".toList] then
      repondre instant rest (tables type)
    else none
  | _ => none

theorem word_natText_ne (n : Nat) {t : String} (other : t.toList.all Char.isDigit = false) :
    Token.word (natText n) ≠ kw t := by
  intro same
  have digits : (natText n).all Char.isDigit = true :=
    List.all_eq_true.mpr fun _ member => isDigit_of_mem_natText member
  rw [Token.word.inj same, other] at digits
  cases digits

/-- The identifier of the condition that is meant. -/
theorem comparer_id (row : LiveRow V) (ID : Int) :
    comparer instant row ([kw "ID", .symbol '='] ++ (Bare.int ID).tokens) =
      some (decide (row.id = some ID)) := by
  simp only [Bare.tokens, Bare.int]
  by_cases negative : ID < 0
  · have value : -((ID.natAbs : Nat) : Int) = ID := by omega
    rw [if_pos negative]
    show comparer instant row
      [.word "ID".toList, .symbol '=', .symbol '-', .word (natText ID.natAbs)] = _
    rw [comparer, if_pos rfl, digitsValue_natText, Option.map_some, value]
  · have value : ((ID.natAbs : Nat) : Int) = ID := by omega
    rw [if_neg negative]
    show comparer instant row [.word "ID".toList, .symbol '=', .word (natText ID.natAbs)] = _
    rw [comparer, if_pos rfl, digitsValue_natText, Option.map_some, value]

theorem kw_not_mem_int {t : String} (other : t.toList.all Char.isDigit = false) (ID : Int) :
    kw t ∉ (Bare.int ID).tokens := by
  intro member
  rcases List.mem_append.mp member with lead | last
  · unfold Bare.int at lead
    split at lead
    · cases List.mem_singleton.mp lead
    · cases lead
  · exact word_natText_ne _ other (List.mem_singleton.mp last).symm

/-- The condition that is meant, for a row. -/
theorem evaluer_newVals (row : LiveRow V) (ID : Int) (DATE : Text) :
    evaluer instant row (newValsCondition ID DATE) =
      some (decide (row.id = some ID) && decide (instant DATE < instant row.date)) := by
  have noOr : kw "OR" ∉ newValsCondition ID DATE := by
    rw [newValsCondition, List.mem_append, List.mem_append]
    rintro (first | number | last)
    · revert first
      decide
    · exact kw_not_mem_int (by decide +kernel) ID number
    · simp [kw] at last
  have noAnd : kw "AND" ∉ [kw "ID", .symbol '='] ++ (Bare.int ID).tokens := by
    rw [List.mem_append]
    rintro (first | number)
    · revert first
      decide
    · exact kw_not_mem_int (by decide +kernel) ID number
  have noAnd' : kw "AND" ∉ [kw "DATE", .symbol '>', .literal DATE] := by simp [kw]
  have pieces : (newValsCondition ID DATE).splitOn (kw "AND") =
      [[kw "ID", .symbol '='] ++ (Bare.int ID).tokens,
        [kw "DATE", .symbol '>', .literal DATE]] := by
    rw [newValsCondition, ← List.append_assoc, List.splitOn_append_cons_self_of_not_mem noAnd,
      List.splitOn_eq_singleton noAnd']
  have date : comparer instant row [kw "DATE", .symbol '>', .literal DATE] =
      some (decide (instant DATE < instant row.date)) := by
    simp [comparer, kw]
  simp only [evaluer, List.splitOn_eq_singleton noOr, List.mapM_cons, List.mapM_nil, pieces,
    comparer_id, date, Option.bind_eq_bind, Option.bind_some, Option.pure_def, List.any_cons,
    List.any_nil, List.all_cons, List.all_nil, id, Bool.and_true, Bool.or_false]

theorem repondre_newVals (ID : Int) (DATE : Text) (live : List (LiveRow V)) :
    repondre instant (newValsCondition ID DATE ++ [kw "ORDER", kw "BY", kw "DATE"]) live =
      some (getIndicesNewVals instant ID DATE live) := by
  have size : (newValsCondition ID DATE ++ [kw "ORDER", kw "BY", kw "DATE"]).length - 3 =
      (newValsCondition ID DATE).length := by simp
  have kept : (live.filter fun row =>
        decide (evaluer instant row (newValsCondition ID DATE) = some true)) =
      (rowsOfId ID live).filter fun row => decide (instant DATE < instant row.date) := by
    rw [rowsOfId, List.filter_filter]
    refine List.filter_congr fun row _ => ?_
    rw [evaluer_newVals]
    simp [Bool.and_comm]
  have known : live.all (fun row =>
      (evaluer instant row (newValsCondition ID DATE)).isSome) = true := by
    simp [evaluer_newVals]
  simp only [repondre, size, List.take_left, List.drop_left, known, kept, and_self, if_true]
  rfl

/-- **The statement that is meant has the answer of `getIndicesNewVals`.** -/
theorem chercher_newVals (ID : Int) (DATE type : Text) (tables : Text → List (LiveRow V)) :
    chercher instant (newValsTokens ID DATE type) tables =
      some (getIndicesNewVals instant ID DATE (tables type)) := by
  show chercher instant (.word "SELECT".toList :: .word "VAL".toList :: .symbol ',' ::
    .word "DATE".toList :: .word "FROM".toList :: .word type :: .word "WHERE".toList ::
      (newValsCondition ID DATE ++ [kw "ORDER", kw "BY", kw "DATE"])) tables = _
  rw [chercher, if_pos rfl, repondre_newVals]

/-- A database that reads conditions. -/
def lecteur (V : Type) (instant : Text → Int) : Moteur V instant where
  query := chercher instant
  newVals := fun ID DATE type tables _ => chercher_newVals ID DATE type tables

/-! ## Two dates -/

/-- A date as the number that its digits write, which orders dates as their seconds do. -/
def digitsOf (date : Text) : Int := Nat.ofDigitChars 10 (date.filter Char.isDigit) 0

theorem poll_isolated_noon :
    Verbatim "2022-02-22 12:00:00".toList ∧
      Isolee (lecteur Int digitsOf) 1 "2022-02-22 12:00:00".toList "cfd".toList := by
  have verbatim : Verbatim "2022-02-22 12:00:00".toList :=
    (unquote_eq_self_iff _).mp (by decide +kernel)
  exact ⟨verbatim, (poll_isolated_iff _ 1 _ (by decide +kernel)).mpr verbatim⟩

/-- A table with one row, of the identifier 2. -/
def otherRow : List (LiveRow Int) := [⟨0, some 2, 7, "2022-02-22 12:00:00".toList⟩]

/-- **A date with apostrophes reads the data of another instrument.** The condition is true of
every row, and the answer to a poll for the identifier 1 is the row of the identifier 2. -/
theorem apostrophes_read_other_rows :
    ¬ Isolee (lecteur Int digitsOf) 1 "' OR '1'='1".toList "cfd".toList ∧
      rowsOfId 1 otherRow = rowsOfId 1 [] ∧
      (lecteur Int digitsOf).executer (newValsSql 1 "' OR '1'='1".toList "cfd".toList)
        (fun _ => otherRow) = some [⟨7, "2022-02-22 12:00:00".toList⟩] ∧
      (lecteur Int digitsOf).executer (newValsSql 1 "' OR '1'='1".toList "cfd".toList)
        (fun _ => []) = some [] := by
  refine ⟨fun isolated => ?_, by decide +kernel, by decide +kernel, by decide +kernel⟩
  have same := isolated.answer (fun _ => otherRow) (fun _ => []) (by decide +kernel)
  revert same
  decide +kernel

end Trading.Dao
