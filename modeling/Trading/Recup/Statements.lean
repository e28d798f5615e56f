import Trading.SqlTemplates
import Trading.Recup.Registry

/-!
# The texts of the statements of the recorder

The recorder builds its statements by concatenation: the names that it reads on a page are put
between apostrophes as they are. `names_survive_iff` says for which names the three statements
have the tokens that are meant, so that an instrument is registered at the start and its values
are stored under its own identifier afterwards: for the names without an apostrophe, and without
a backslash but before `%` and `_`.

The text of a value, `String.valueOf(d)`, is a parameter, of which only `IsNumber` is used.
-/

set_option autoImplicit false

namespace Trading.Recup

open Trading.Text
open Trading.SqlText

/-! ## The statements -/

/-- The `INSERT` of a country in `recupIndices`. -/
def insertPaysSql (pays : Text) : Text :=
  "INSERT INTO PAYS VALUES ((SELECT COALESCE(MAX(ID)+1,0) FROM PAYS P2),'".toList ++ pays ++
    "')".toList

/-- The `INSERT` of an instrument in `recupIndices`. -/
def insertIndiceSql (bdd pays nom : Text) : Text :=
  "INSERT INTO ".toList ++ bdd ++ " VALUES ((SELECT COALESCE(MAX(ID)+1,0) FROM ".toList ++ bdd ++
    " I2),(SELECT P.ID FROM PAYS P WHERE P.NOM='".toList ++ pays ++ "'),'".toList ++ nom ++
    "')".toList

/-- The `INSERT` of a value in `addVal`. -/
def addValSql (type bdd nom d : Text) : Text :=
  "INSERT INTO ".toList ++ type ++ " (ID,VAL) VALUES ((SELECT ID FROM ".toList ++ bdd ++
    " WHERE NOM='".toList ++ nom ++ "'),".toList ++ d ++ ")".toList

/-- `SELECT COALESCE(MAX(ID)+1,0) FROM`. -/
def selectSuivant : List Token :=
  [kw "SELECT", kw "COALESCE", .symbol '(', kw "MAX", .symbol '(', kw "ID", .symbol ')',
    .symbol '+', kw "1", .symbol ',', kw "0", .symbol ')', kw "FROM"]

/-- The tokens that `insertPaysSql` means. -/
def insertPaysTokens (pays : Text) : List Token :=
  [kw "INSERT", kw "INTO", kw "PAYS", kw "VALUES", .symbol '(', .symbol '('] ++ selectSuivant ++
    [kw "PAYS", kw "P2", .symbol ')', .symbol ',', .literal pays, .symbol ')']

/-- The tokens that `insertIndiceSql` means. -/
def insertIndiceTokens (bdd pays nom : Text) : List Token :=
  [kw "INSERT", kw "INTO", .word bdd, kw "VALUES", .symbol '(', .symbol '('] ++ selectSuivant ++
    [.word bdd, kw "I2", .symbol ')', .symbol ',', .symbol '(', kw "SELECT", kw "P.ID",
      kw "FROM", kw "PAYS", kw "P", kw "WHERE", kw "P.NOM", .symbol '=', .literal pays,
      .symbol ')', .symbol ',', .literal nom, .symbol ')']

/-- The tokens that `addValSql` means; `d` are those of the value. -/
def addValTokens (type bdd nom : Text) (d : List Token) : List Token :=
  [kw "INSERT", kw "INTO", .word type, .symbol '(', kw "ID", .symbol ',', kw "VAL", .symbol ')',
    kw "VALUES", .symbol '(', .symbol '(', kw "SELECT", kw "ID", kw "FROM", .word bdd,
    kw "WHERE", kw "NOM", .symbol '=', .literal nom, .symbol ')', .symbol ','] ++ d ++ [.symbol ')']

/-! ## Their fixed texts -/

/-- The fixed text before a country. -/
def avantPays : Fixed :=
  .of "INSERT INTO PAYS VALUES ((SELECT COALESCE(MAX(ID)+1,0) FROM PAYS P2),".toList
    ([kw "INSERT", kw "INTO", kw "PAYS", kw "VALUES", .symbol '(', .symbol '('] ++
      selectSuivant ++ [kw "PAYS", kw "P2", .symbol ')', .symbol ','])
    (by decide +kernel)

/-- `INSERT INTO`. -/
def insertInto : Fixed :=
  .of "INSERT INTO ".toList [kw "INSERT", kw "INTO"] (by decide +kernel)

/-- The fixed text between the table of an instrument and the same table. -/
def valuesSuivant : Fixed :=
  .of " VALUES ((SELECT COALESCE(MAX(ID)+1,0) FROM ".toList
    ([kw "VALUES", .symbol '(', .symbol '('] ++ selectSuivant)
    (by decide +kernel)

/-- The fixed text between the table of an instrument and its country. -/
def selectPays : Fixed :=
  .of " I2),(SELECT P.ID FROM PAYS P WHERE P.NOM=".toList
    [kw "I2", .symbol ')', .symbol ',', .symbol '(', kw "SELECT", kw "P.ID", kw "FROM",
      kw "PAYS", kw "P", kw "WHERE", kw "P.NOM", .symbol '='] (by decide +kernel)

/-- The fixed text between the two tables of `addVal`. -/
def valuesSelect : Fixed :=
  .of " (ID,VAL) VALUES ((SELECT ID FROM ".toList
    [.symbol '(', kw "ID", .symbol ',', kw "VAL", .symbol ')', kw "VALUES", .symbol '(',
      .symbol '(', kw "SELECT", kw "ID", kw "FROM"] (by decide +kernel)

/-- The fixed text between the second table of `addVal` and the name. -/
def whereNom : Fixed :=
  .of " WHERE NOM=".toList [kw "WHERE", kw "NOM", .symbol '='] (by decide +kernel)

/-- The fixed text between two values. -/
def entre : Fixed := .of "),".toList [.symbol ')', .symbol ','] (by decide +kernel)

/-- The end of a statement. -/
def parenthese : Ending := .of ")".toList [.symbol ')'] (by decide +kernel)

/-- What stands before the country of an instrument. -/
def avantPaysIndice (bdd : Text) (isWord : IsWord bdd) : Fixed :=
  (insertInto.insert (.word bdd isWord) valuesSuivant rfl).insert (.word bdd isWord)
    selectPays rfl

/-- What stands before the name of an instrument in `addVal`. -/
def avantNom (type bdd : Text) (isType : IsWord type) (isBdd : IsWord bdd) : Fixed :=
  (insertInto.insert (.word type isType) valuesSelect rfl).insert (.word bdd isBdd) whereNom rfl

/-- What stands behind the name of an instrument in `addVal`. -/
def apresNom (d : Text) (isNumber : IsNumber d) : Ending :=
  .insert entre (.number d isNumber) parenthese rfl

theorem insertPaysSql_eq (pays : Text) :
    insertPaysSql pays = filled [(avantPays, pays)] parenthese :=
  eq_filled_one (by decide +kernel) (by decide +kernel)

theorem insertIndiceSql_eq {bdd : Text} (isWord : IsWord bdd) (pays nom : Text) :
    insertIndiceSql bdd pays nom =
      filled [(avantPaysIndice bdd isWord, pays), (entre, nom)] parenthese := by
  have last : " I2),(SELECT P.ID FROM PAYS P WHERE P.NOM='".toList = selectPays.text ++ ['\''] := by
    decide +kernel
  refine eq_filled_two ?_ (by decide +kernel) (by decide +kernel)
  show insertInto.text ++ bdd ++ valuesSuivant.text ++ bdd ++ _ =
    insertInto.text ++ (bdd ++ valuesSuivant.text) ++ (bdd ++ selectPays.text) ++ ['\'']
  rw [last]
  simp only [List.append_assoc]

theorem addValSql_eq {type bdd d : Text} (isType : IsWord type) (isBdd : IsWord bdd)
    (isNumber : IsNumber d) (nom : Text) :
    addValSql type bdd nom d =
      filled [(avantNom type bdd isType isBdd, nom)] (apresNom d isNumber) := by
  have last : " WHERE NOM='".toList = whereNom.text ++ ['\''] := by decide +kernel
  have next : "'),".toList = '\'' :: entre.text := by decide +kernel
  have opens : insertInto.text ++ type ++ valuesSelect.text ++ bdd ++ " WHERE NOM='".toList =
      (avantNom type bdd isType isBdd).text ++ ['\''] := by
    rw [last]
    show _ = insertInto.text ++ (type ++ valuesSelect.text) ++ (bdd ++ whereNom.text) ++ ['\'']
    simp only [List.append_assoc]
  have closes : "'),".toList ++ (d ++ parenthese.text) = '\'' :: (apresNom d isNumber).text := by
    rw [next]
    rfl
  rw [← eq_filled_one opens closes]
  show insertInto.text ++ type ++ valuesSelect.text ++ bdd ++ _ ++ nom ++ _ ++ d ++
    parenthese.text = _
  simp only [List.append_assoc]

/-! ## Their tokens -/

/-- The `INSERT` of a country. -/
theorem lex_insertPays (pays : Text) :
    lex (insertPaysSql pays) = some (insertPaysTokens pays) ↔ Verbatim pays := by
  have tokens : insertPaysTokens pays = expected [(avantPays, pays)] parenthese := rfl
  rw [insertPaysSql_eq, tokens, lex_filled_iff, ← unquote_eq_self_iff]
  simp

/-- The `INSERT` of an instrument. -/
theorem lex_insertIndice {bdd : Text} (isWord : IsWord bdd) (pays nom : Text) :
    lex (insertIndiceSql bdd pays nom) = some (insertIndiceTokens bdd pays nom) ↔
      Verbatim pays ∧ Verbatim nom := by
  have tokens : insertIndiceTokens bdd pays nom =
      expected [(avantPaysIndice bdd isWord, pays), (entre, nom)] parenthese := rfl
  rw [insertIndiceSql_eq isWord, tokens, lex_filled_iff, ← unquote_eq_self_iff,
    ← unquote_eq_self_iff]
  simp

/-- The `INSERT` of a value. -/
theorem lex_addVal {type bdd d : Text} (isType : IsWord type) (isBdd : IsWord bdd)
    (isNumber : IsNumber d) (nom : Text) :
    lex (addValSql type bdd nom d) = some (addValTokens type bdd nom ((lex d).getD [])) ↔
      Verbatim nom := by
  have value : lex d = some (Bare.number d isNumber).tokens := (Bare.number d isNumber).lex_text
  have tokens : addValTokens type bdd nom (Bare.number d isNumber).tokens =
      expected [(avantNom type bdd isType isBdd, nom)] (apresNom d isNumber) := rfl
  rw [value, Option.getD_some, addValSql_eq isType isBdd isNumber, tokens, lex_filled_iff,
    ← unquote_eq_self_iff]
  simp

/-! ## Names -/

section Names

variable {δ : Type}

/-- The names of an instrument survive: the three statements have the tokens that are meant, and
on tables that have its name for its country only, the instrument is registered, and a value is
stored under the identifier with which it is registered. -/
structure Survivent (valText : δ → Text) (site : Site) (pays nom : Text) : Prop where
  insertPays : lex (insertPaysSql pays) = some (insertPaysTokens pays)
  insertIndice : lex (insertIndiceSql site.bdd pays nom) =
    some (insertIndiceTokens site.bdd pays nom)
  addVal : ∀ d, lex (addValSql site.type site.bdd nom (valText d)) =
    some (addValTokens site.type site.bdd nom ((lex (valText d)).getD []))
  recorded : ∀ (base : Base δ), base.Fidele (fun bdd name country =>
      bdd = site.bdd ∧ name = nom ∧ country = pays) → ∀ val d, ∃ i base',
    (inscrire sqlBase site ⟨nom, pays, val⟩ base).Inscrit site.bdd nom pays i ∧
      sqlBase.insertVal site.type site.bdd nom d (inscrire sqlBase site ⟨nom, pays, val⟩ base) =
        some (base', some i)

/-- Verbatim names are registered and looked up. -/
theorem recorded_of_verbatim {site : Site} {pays nom : Text} (verbatimPays : Verbatim pays)
    (verbatimNom : Verbatim nom) {base : Base δ}
    (faithful : base.Fidele fun bdd name country => bdd = site.bdd ∧ name = nom ∧ country = pays)
    (val d : δ) : ∃ i base',
    (inscrire sqlBase site ⟨nom, pays, val⟩ base).Inscrit site.bdd nom pays i ∧
      sqlBase.insertVal site.type site.bdd nom d (inscrire sqlBase site ⟨nom, pays, val⟩ base) =
        some (base', some i) := by
  have literalPays := (unquote_eq_self_iff pays).mpr verbatimPays
  have literalNom := (unquote_eq_self_iff nom).mpr verbatimNom
  have inscription : (inscrire sqlBase site ⟨nom, pays, val⟩ base).Fidele _ ∧ _ ∧
      ∃ i, (inscrire sqlBase site ⟨nom, pays, val⟩ base).Inscrit site.bdd nom pays i :=
    faithful.after_inscrire (fun _ _ _ _ shown shown' => shown.2.2.trans shown'.2.2.symm)
      ⟨rfl, rfl, rfl⟩ literalPays literalNom
  obtain ⟨faithful', -, i, registered⟩ := inscription
  obtain ⟨base', stored, -⟩ :=
    Base.insertVal_inscrit faithful' ⟨rfl, rfl, rfl⟩ registered literalNom site.type d
  exact ⟨i, base', registered, stored⟩

/-- **Names survive being put into statements** exactly when they have no apostrophe, and no
backslash but before `%` and `_`. -/
theorem names_survive_iff (valText : δ → Text) (isNumber : ∀ d, IsNumber (valText d)) (site : Site)
    (isType : IsWord site.type) (isBdd : IsWord site.bdd) (pays nom : Text) :
    Survivent valText site pays nom ↔ Verbatim pays ∧ Verbatim nom := by
  constructor
  · exact fun survive => (lex_insertIndice isBdd pays nom).mp survive.insertIndice
  · rintro ⟨verbatimPays, verbatimNom⟩
    exact ⟨(lex_insertPays pays).mpr verbatimPays,
      (lex_insertIndice isBdd pays nom).mpr ⟨verbatimPays, verbatimNom⟩,
      fun d => (lex_addVal isType isBdd (isNumber d) nom).mpr verbatimNom,
      fun base faithful val d => recorded_of_verbatim verbatimPays verbatimNom faithful val d⟩

/-- A site with raw materials. -/
def siteMatieres : Site :=
  ⟨"real-time-futures".toList, "matieresvals".toList, "0".toList, "0".toList, "1".toList,
    "3".toList, "matieres".toList⟩

/-- The text of a double that is a small whole number. -/
def wholeText (d : Int) : Text := intText d ++ ".0".toList

theorem isNumber_wholeText (d : Int) : IsNumber (wholeText d) := by
  refine ⟨fun c member => ?_, '0', ?_, by decide⟩
  · rcases List.mem_append.mp member with digits | decimals
    · exact (isNumber_intText d).1 c digits
    · rcases List.mem_pair.mp decimals with rfl | rfl <;> exact .inl (by decide)
  · rw [wholeText, List.getLast?_append]
    rfl

theorem names_survive_wheat :
    Verbatim "Monde".toList ∧ Verbatim "Wheat".toList ∧
      Survivent wholeText siteMatieres "Monde".toList "Wheat".toList := by
  have pays : Verbatim "Monde".toList := (unquote_eq_self_iff _).mp (by decide +kernel)
  have nom : Verbatim "Wheat".toList := (unquote_eq_self_iff _).mp (by decide +kernel)
  exact ⟨pays, nom, (names_survive_iff wholeText isNumber_wholeText siteMatieres
    (by decide +kernel) (by decide +kernel) _ _).mpr ⟨pays, nom⟩⟩

/-- **A name with an apostrophe does not survive.** The statements that register the instrument
and that store its values end inside a literal. -/
theorem apostrophe_does_not_survive :
    ¬ Survivent wholeText siteMatieres "Monde".toList "Baker's Wheat".toList ∧
      lex (insertIndiceSql siteMatieres.bdd "Monde".toList "Baker's Wheat".toList) = none ∧
      lex (addValSql siteMatieres.type siteMatieres.bdd "Baker's Wheat".toList (wholeText 7)) =
        none := by
  refine ⟨fun survive => ?_, by decide +kernel, by decide +kernel⟩
  have lexed := survive.insertIndice
  revert lexed
  decide +kernel

end Names

end Trading.Recup
