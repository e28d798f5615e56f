import Trading.Calendar
import Trading.Text
import Mathlib.Data.List.Sort

/-!
# The trading database

The recorder and its archiver share one database. A value table holds the rows
`(ID, VAL, DATE)`, a registry table the instruments `(ID, PAYS, NOM)`, and `PAYS` the
countries. The identifier of a value row is nullable, since the recorder inserts the result
of a subquery that may find no row.

This module has the tables, the texts under which the driver returns their columns, and the
two statements of the archiver: the joined and ordered `SELECT` of a window of days, and the
`DELETE` of that window. The values are kept abstract; a `Rendered` type knows the texts of
its values.
-/

set_option autoImplicit false

namespace Trading.Recup

open Trading.Calendar Trading.Text

/-! ## Columns -/

/-- Values with the texts under which the driver returns them. A text of a numeric column
has none of the characters that structure a cache file, and tells the values apart. -/
class Rendered (ν : Type) where
  text : ν → Text
  clean : ∀ value, ∀ c ∈ text value, c ≠ ';' ∧ c ≠ '\r' ∧ c ≠ '\n'
  text_injective : Function.Injective text

/-- A `DATE`: the day and the second of the day, as the database clock gives it. -/
structure Stamp where
  jour : Int
  seconde : Fin 86400
  deriving DecidableEq

/-- The position of a date on the time line. -/
def Stamp.time (date : Stamp) : Int := 86400 * date.jour + (date.seconde : Nat)

/-- `SimpleDateFormat("yyyy-MM-dd")`. The year is the year of the era. -/
def formatDay (jour : Int) : Text :=
  let date := civil jour
  let yearOfEra := if 1 ≤ date.year then date.year else 1 - date.year
  padded 4 yearOfEra.toNat ++ '-' :: (padded 2 date.month ++ '-' :: padded 2 date.day)

/-- The text of a `DATE`, as in the cached files: `2019-04-11 11:15:29.0`. -/
def Stamp.text (date : Stamp) : Text :=
  let seconde : Nat := date.seconde
  formatDay date.jour ++ ' ' :: (padded 2 (seconde / 3600) ++ ':' ::
    (padded 2 (seconde / 60 % 60) ++ ':' :: (padded 2 (seconde % 60) ++ ['.', '0'])))

/-! ## Tables -/

/-- A row of a value table. -/
structure Row (ν : Type) where
  id : Option Int
  val : ν
  date : Stamp
  deriving DecidableEq

/-- A row of a registry table. -/
structure RegistryRow where
  id : Int
  pays : Option Int
  nom : Text
  deriving DecidableEq

/-- The tables of the database, by name. -/
structure Database (ν : Type) where
  vals : Text → List (Row ν)
  registry : Text → List RegistryRow

/-- An entry of `SITES`: the page, the value table, the positions of the table and of the
columns on the page, and the registry table. -/
structure Site where
  url : Text
  type : Text
  table : Text
  pays : Text
  nom : Text
  val : Text
  bdd : Text
  deriving DecidableEq

variable {ν : Type}

/-- The rows dated in a window of days. -/
def Row.inWindow (hier ojd : Int) (row : Row ν) : Bool :=
  decide (hier ≤ row.date.jour ∧ row.date.jour < ojd)

/-- `ORDER BY V.ID, DATE`, with the rows without identifier first. -/
def Row.before (first second : Row ν) : Bool :=
  match first.id, second.id with
  | none, _ => true
  | some _, none => false
  | some i, some j => decide (i < j ∨ i = j ∧ first.date.time ≤ second.date.time)

/-- The rows of `FROM bdd I, type V WHERE I.ID=V.ID AND DATE >= hier AND DATE < ojd`: one for
each pair of a registry row and a value row with the same identifier. -/
def Database.join (db : Database ν) (type bdd : Text) (hier ojd : Int) : List (Row ν) :=
  (db.registry bdd).flatMap fun indice =>
    (db.vals type).filter fun row => decide (row.id = some indice.id) && row.inWindow hier ojd

/-- The archiver's `SELECT`. -/
def Database.select (db : Database ν) (type bdd : Text) (hier ojd : Int) : List (Row ν) :=
  (db.join type bdd hier ojd).insertionSort fun first second => first.before second = true

/-- The archiver's `DELETE`, which has no join. -/
def Database.delete (db : Database ν) (type : Text) (hier ojd : Int) : Database ν :=
  { db with
    vals := Function.update db.vals type
      ((db.vals type).filter fun row => !row.inWindow hier ojd) }

/-! ## Ordered lists -/

/-- A list in which what satisfies a condition comes first. -/
theorem filter_append_filter_not {A : Type} {p : A → Bool} {items : List A}
    (ordered : items.Pairwise fun first second => p second = true → p first = true) :
    items.filter p ++ items.filter (fun item => !p item) = items := by
  induction items with
  | nil => rfl
  | cons item items ih =>
      obtain ⟨first, later⟩ := List.pairwise_cons.mp ordered
      by_cases holds : p item = true
      · rw [List.filter_cons_of_pos holds, List.filter_cons_of_neg (by simp [holds]),
          List.cons_append, ih later]
      · have noneLater : items.filter p = [] :=
          List.filter_eq_nil_iff.mpr fun other member satisfied =>
            holds (first other member satisfied)
        have allLater := ih later
        rw [noneLater, List.nil_append] at allLater
        rw [List.filter_cons_of_neg holds, List.filter_cons_of_pos (by simp [holds]), noneLater,
          allLater, List.nil_append]

/-! ## What the two statements select -/

theorem Database.delete_vals_self (db : Database ν) (type : Text) (hier ojd : Int) :
    (db.delete type hier ojd).vals type =
      (db.vals type).filter fun row => !row.inWindow hier ojd := by
  simp only [Database.delete, Function.update_self]

theorem Database.delete_vals_of_ne (db : Database ν) {type other : Text} (different : other ≠ type)
    (hier ojd : Int) : (db.delete type hier ojd).vals other = db.vals other := by
  simp only [Database.delete, Function.update_of_ne different]

theorem Database.select_perm (db : Database ν) (type bdd : Text) (hier ojd : Int) :
    (db.select type bdd hier ojd).Perm (db.join type bdd hier ojd) :=
  List.perm_insertionSort _ _

theorem Database.sorted_select (db : Database ν) (type bdd : Text) (hier ojd : Int) :
    (db.select type bdd hier ojd).Pairwise fun first second => first.before second = true := by
  have : Std.Total fun first second : Row ν => first.before second = true := ⟨by
    intro first second
    unfold Row.before
    cases first.id <;> cases second.id <;> simp
    omega⟩
  have : IsTrans (Row ν) fun first second => first.before second = true := ⟨by
    intro first second third
    unfold Row.before
    cases first.id <;> cases second.id <;> cases third.id <;> simp
    omega⟩
  exact List.pairwise_insertionSort _ _

theorem Database.mem_select {db : Database ν} {type bdd : Text} {hier ojd : Int} {row : Row ν} :
    row ∈ db.select type bdd hier ojd ↔
      row ∈ db.vals type ∧ row.inWindow hier ojd = true ∧
        ∃ indice ∈ db.registry bdd, row.id = some indice.id := by
  rw [(db.select_perm type bdd hier ojd).mem_iff, Database.join, List.mem_flatMap]
  constructor
  · rintro ⟨indice, registered, selected⟩
    obtain ⟨live, condition⟩ := List.mem_filter.mp selected
    simp only [Bool.and_eq_true, decide_eq_true_eq] at condition
    exact ⟨live, condition.2, indice, registered, condition.1⟩
  · rintro ⟨live, window, indice, registered, same⟩
    refine ⟨indice, registered, List.mem_filter.mpr ⟨live, ?_⟩⟩
    simp only [Bool.and_eq_true, decide_eq_true_eq]
    exact ⟨same, window⟩

/-- How often an identifier is registered. -/
def Database.registered (db : Database ν) (bdd : Text) (id : Option Int) : Nat :=
  (db.registry bdd).countP fun indice => decide (id = some indice.id)

theorem Database.registered_pos {db : Database ν} {bdd : Text} {id : Option Int} :
    0 < db.registered bdd id ↔ ∃ indice ∈ db.registry bdd, id = some indice.id := by
  simp [Database.registered, List.countP_pos_iff]

/-- Where registry identifiers are unique, an identifier is registered at most once. -/
theorem Database.registered_le_one {db : Database ν} {bdd : Text}
    (unique : ((db.registry bdd).map RegistryRow.id).Nodup) (id : Option Int) :
    db.registered bdd id ≤ 1 := by
  cases id with
  | none => simp [Database.registered]
  | some i =>
      have counted : db.registered bdd (some i) =
          ((db.registry bdd).map RegistryRow.id).count i := by
        rw [Database.registered, List.count, List.countP_map]
        apply List.countP_congr
        intro indice _
        simp only [decide_eq_true_eq, Option.some.injEq, Function.comp_apply, beq_iff_eq]
        exact eq_comm
      rw [counted]
      exact List.nodup_iff_count_le_one.mp unique i

variable [DecidableEq ν]

/-- **The join repeats a row once for each registration of its identifier.** -/
theorem Database.count_select (db : Database ν) (type bdd : Text) (hier ojd : Int) (row : Row ν) :
    (db.select type bdd hier ojd).count row =
      db.registered bdd row.id *
        ((db.vals type).filter fun row => row.inWindow hier ojd).count row := by
  rw [(db.select_perm type bdd hier ojd).count_eq, Database.join, Database.registered]
  induction db.registry bdd with
  | nil => simp
  | cons indice registry ih =>
      rw [List.flatMap_cons, List.count_append, ih, List.countP_cons, Nat.add_mul, Nat.add_comm]
      congr 1
      by_cases same : row.id = some indice.id
      · simp only [same, decide_true, ↓reduceIte, Nat.one_mul]
        by_cases window : row.inWindow hier ojd = true
        · rw [List.count_filter (by simp [same, window]), List.count_filter window]
        · rw [List.count_eq_zero.mpr, List.count_eq_zero.mpr]
          · simp [List.mem_filter, window]
          · simp [List.mem_filter, window]
      · simp only [same, decide_false, Bool.false_eq_true, ↓reduceIte, Nat.zero_mul]
        rw [List.count_eq_zero]
        simp [List.mem_filter, same]

end Trading.Recup
