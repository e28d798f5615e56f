import Trading.Recup.Polling
import Trading.Runs

/-!
# Values whose insertion is refused

`addVal` compares a value with the last one of its object, and sets the last one before the
statement is executed. So an object whose `INSERT` throws has a last value that was not stored,
and the value is not tried again until another one was seen.

The calls on one object are the events of a machine, each with the database that it finds, so
that every pattern of refusals is a list of calls. `refusals_forgotten_iff` says that the last
value is the one stored last after every call if and only if no statement is refused.
-/

set_option autoImplicit false

namespace Trading.Recup

open Trading.Text

variable {σ δ : Type} [DecidableEq δ]

/-- A call of `addVal`, and the database that it finds. -/
structure Appel (σ δ : Type) where
  d : δ
  type : Text
  bdd : Text
  base : σ

/-- An object, and the value that its calls stored last. -/
structure Memoire (δ : Type) where
  indice : Indice δ
  stockee : Option δ := none
  deriving DecidableEq

/-- The outcome of a call on an object. -/
def Indice.insertion (sql : Sql σ δ) (indice : Indice δ) (appel : Appel σ δ) : Insertion :=
  (indice.addVal sql appel.d appel.type appel.bdd appel.base).2.2

/-- The value that is stored last after a call. -/
def Memoire.stocker (memoire : Memoire δ) (d : δ) : Insertion → Option δ
  | .faite _ => some d
  | .refusee | .aucune => memoire.stockee

/-- The calls on one object. -/
def appels (sql : Sql σ δ) : Runs.Machine (Memoire δ) (Appel σ δ) where
  Enabled _ _ := True
  step memoire appel :=
    { indice := (memoire.indice.addVal sql appel.d appel.type appel.bdd appel.base).1
      stockee := memoire.stocker appel.d (memoire.indice.insertion sql appel) }

/-- The last value of the object is the one stored last, or the one of the start. -/
def Memoire.Juste (depart : δ) (memoire : Memoire δ) : Prop :=
  memoire.indice.last = memoire.stockee.getD depart

/-- After a call the last value is the one stored last, and a value that was refused is tried
again by a call that sees it unchanged. -/
def NonOubliee (sql : Sql σ δ) (depart : δ) (memoire : Memoire δ) (appel : Appel σ δ) : Prop :=
  ((appels sql).step memoire appel).Juste depart ∧
    (memoire.indice.insertion sql appel = .refusee → ∀ encore : Appel σ δ, encore.d = appel.d →
      ((appels sql).step memoire appel).indice.insertion sql encore ≠ .aucune)

/-- The statement of the call, if there is one, is not refused. -/
def Acceptee (sql : Sql σ δ) (memoire : Memoire δ) (appel : Appel σ δ) : Prop :=
  memoire.indice.last ≠ appel.d →
    sql.insertVal appel.type appel.bdd memoire.indice.nom appel.d appel.base ≠ none

instance (depart : δ) (memoire : Memoire δ) : Decidable (memoire.Juste depart) :=
  inferInstanceAs (Decidable (_ = _))

variable {sql : Sql σ δ} {memoire : Memoire δ} {appel : Appel σ δ}

/-- A statement is refused if and only if the value is a new one and the database throws. -/
theorem insertion_refusee : memoire.indice.insertion sql appel = .refusee ↔
    ¬ Acceptee sql memoire appel := by
  unfold Indice.insertion Indice.addVal Acceptee
  split
  · rename_i different
    split
    · rename_i stored
      simp [stored]
    · rename_i thrown
      simp [different, thrown]
  · rename_i same
    simp [not_not.mp same]

theorem appels_step_indice : ((appels sql).step memoire appel).indice =
    { memoire.indice with last := appel.d } := Indice.addVal_fst sql _ _ _ _ _

/-- What a call that is not refused stores. -/
theorem stocker_of_acceptee {depart : δ} (juste : memoire.Juste depart)
    (accepted : Acceptee sql memoire appel) :
    ((appels sql).step memoire appel).stockee.getD depart = appel.d := by
  have notRefused : memoire.indice.insertion sql appel ≠ .refusee := fun refused =>
    insertion_refusee.mp refused accepted
  simp only [appels]
  cases outcome : memoire.indice.insertion sql appel with
  | aucune => exact juste.symm.trans ((Indice.addVal_insertion sql _ _ _ _ _).mp outcome)
  | refusee => exact absurd outcome notRefused
  | faite id => rfl

/-- **A call forgets nothing** exactly when its statement is not refused. -/
theorem nonOubliee_iff {depart : δ} (juste : memoire.Juste depart) :
    NonOubliee sql depart memoire appel ↔ Acceptee sql memoire appel := by
  constructor
  · rintro ⟨after, -⟩
    by_contra thrown
    have refused : memoire.indice.insertion sql appel = .refusee := insertion_refusee.mpr thrown
    have different : memoire.indice.last ≠ appel.d := fun same => thrown fun new => absurd same new
    -- the last value has changed, and the stored one has not
    rw [Memoire.Juste, appels_step_indice] at after
    simp only [appels, refused, Memoire.stocker] at after
    exact different (juste.trans after.symm)
  · intro accepted
    refine ⟨?_, fun refused => absurd accepted (insertion_refusee.mp refused)⟩
    rw [Memoire.Juste, appels_step_indice, stocker_of_acceptee juste accepted]

/-- **A refused value is forgotten.** In every sequence of calls on one object, with every
pattern of refusals, the last value is after each call the one that was stored last, and a
refused value is tried again when it is seen again, if and only if no statement is refused. -/
theorem refusals_forgotten_iff (sql : Sql σ δ) (nom : Text) (depart : δ)
    (calls : List (Appel σ δ)) :
    (appels sql).EachStep (NonOubliee sql depart) { indice := ⟨depart, nom⟩ } calls ↔
      (appels sql).EachStep (Acceptee sql) { indice := ⟨depart, nom⟩ } calls := by
  have steps : (appels sql).EachStep (fun _ _ => True) { indice := ⟨depart, nom⟩ } calls :=
    (Runs.Machine.eachStep_events _ calls).mpr fun _ _ => trivial
  have start : Memoire.Juste depart { indice := ⟨depart, nom⟩ } := rfl
  apply Runs.Machine.eachStep_iff ?_ ?_ steps start
  · exact fun memoire appel juste _ => nonOubliee_iff juste
  · exact fun memoire appel _ _ notForgotten => notForgotten.1

/-- A database that is reached or not. -/
def switchSql : Sql Bool Int where
  insertPays _ reached := if reached then some reached else none
  insertIndice _ _ _ reached := if reached then some reached else none
  insertVal _ _ _ _ reached := if reached then some (reached, some 0) else none

/-- The same value twice, refused the first time. -/
def refusedOnce : List (Appel Bool Int) :=
  [⟨8, "cfd".toList, "indices".toList, false⟩, ⟨8, "cfd".toList, "indices".toList, true⟩]

/-- **A refused value is not tried again.** Two polls show 8 after a start with 7, and only the
first statement is refused: the last value is 8, and nothing is stored. -/
theorem refused_value_is_forgotten :
    ¬ (appels switchSql).EachStep (NonOubliee switchSql 7) { indice := ⟨7, "CAC 40".toList⟩ }
        refusedOnce ∧
      (appels switchSql).run { indice := ⟨7, "CAC 40".toList⟩ } refusedOnce =
        { indice := ⟨8, "CAC 40".toList⟩, stockee := none } := by
  constructor
  · rintro ⟨⟨after, -⟩, -⟩
    revert after
    decide
  · decide

end Trading.Recup
