import Trading.Recup.Attribution
import Trading.Recup.ChangeLog
import Trading.Runs

/-!
# Tables that several sites feed

A value is inserted when it differs from the last one of its object, but objects of different
sites can store under the same identifier in the same value table, and each of them knows only
its own last value. `stored_values_change` says when the rows of an identifier change from
each one to the next in spite of this: when no object stores a value that another object of the
identifier has as its last one. Where two sites list one instrument, both store its new
value, one after the other (`two_sites_store_twice`).

The handled lines of the rounds are a run of a machine whose states are the maps of the sites
(`enchaine_loopVals`).
-/

set_option autoImplicit false

namespace Trading.Recup

open Trading.Text

variable {σ δ : Type}

/-! ## The maps as a machine -/

/-- The map of each position. -/
def Launcher.cartes (l : Launcher σ δ) (x : Nat) : Carte δ :=
  ((l.indices[x]?).map Prod.snd).getD fun _ => none

/-- A line is handled on the object of its key, which gets the value of the line. -/
def suivi : Runs.Machine (Nat → Carte δ) (Nat × Releve δ) where
  Enabled cartes place := cartes place.1 place.2.lecture.cle = some place.2.indice
  step cartes place := Function.update cartes place.1
    (noter place.2.lecture place.2.indice (cartes place.1))

/-- The lines are a run of the machine between two states. -/
structure Enchaine (cartes : Nat → Carte δ) (places : List (Nat × Releve δ))
    (cartes' : Nat → Carte δ) : Prop where
  valid : suivi.Valid cartes places
  final : suivi.run cartes places = cartes'

theorem Enchaine.nil (cartes : Nat → Carte δ) : Enchaine cartes [] cartes := ⟨trivial, rfl⟩

theorem Enchaine.append {cartes cartes' cartes'' : Nat → Carte δ}
    {first second : List (Nat × Releve δ)}
    (before : Enchaine cartes first cartes') (after : Enchaine cartes' second cartes'') :
    Enchaine cartes (first ++ second) cartes'' := by
  constructor
  · apply (Runs.Machine.eachStep_append _ _ _).mpr
    rw [before.final]
    exact ⟨before.valid, after.valid⟩
  · rw [Runs.Machine.run_append, before.final, after.final]

theorem Launcher.cartes_set {l : Launcher σ δ} {x : Nat} {entry : Nat × Carte δ}
    (inside : x < l.indices.length) (base : σ) :
    ({ l with indices := l.indices.set x entry, base := base } : Launcher σ δ).cartes =
      Function.update l.cartes x entry.2 := by
  funext y
  by_cases same : y = x
  · subst same
    simp [cartes, inside]
  · simp [cartes, Function.update_of_ne same, List.getElem?_set_ne (Ne.symm same)]

section Lines

variable [DecidableEq δ] (sql : Sql σ δ) (parseDouble : Text → Option δ)

/-- The lines of a page follow one another on the map of its position. -/
theorem enchaine_boucle (x : Nat) (site : Site) (lignes : List Ligne) :
    ∀ (cartes : Nat → Carte δ) (base : σ),
      Enchaine cartes
        ((boucle sql parseDouble site lignes (cartes x) base).2.2.map fun releve => (x, releve))
        (Function.update cartes x (boucle sql parseDouble site lignes (cartes x) base).1) := by
  induction lignes with
  | nil =>
      intro cartes base
      rw [boucle, Function.update_eq_self]
      exact .nil cartes
  | cons ligne lignes ih =>
      intro cartes base
      rw [boucle]
      split
      · exact ih cartes base
      cases read : site.lire parseDouble ligne with
      | none =>
          rw [Function.update_eq_self]
          exact .nil cartes
      | some lecture =>
          cases found : cartes x lecture.cle with
          | none =>
              simp only [(relever_eq_none sql).mpr found, Function.update_eq_self]
              exact .nil cartes
          | some indice =>
              simp only [(relever_eq_some sql).mpr ⟨indice, found, rfl, rfl, rfl⟩, List.map_cons]
              have later := ih (Function.update cartes x (noter lecture indice (cartes x)))
                (indice.addVal sql lecture.val site.type site.bdd base).2.1
              rw [Function.update_self, Function.update_idem] at later
              exact ⟨⟨found, later.valid⟩, later.final⟩

namespace Launcher

theorem enchaine_poll (x : Nat) (site : Site) (visite : Text → Option Page) (l : Launcher σ δ) :
    Enchaine l.cartes ((l.poll sql parseDouble x site visite).2.map fun releve => (x, releve))
      (l.poll sql parseDouble x site visite).1.cartes := by
  rcases poll_cases sql parseDouble x site visite l with
    nothing | ⟨url, origine, carte, lignes, here, -, polled⟩
  · rw [nothing]
    exact .nil l.cartes
  · have atPosition : l.cartes x = carte := by
      rw [cartes, here.indices, Option.map_some, Option.getD_some]
    rw [polled, cartes_set (List.getElem?_eq_some_iff.mp here.indices).1, ← atPosition]
    exact enchaine_boucle sql parseDouble x site lignes l.cartes l.base

theorem enchaine_tour (visite : Nat → Text → Option Page) (sites : List Site) :
    ∀ (x : Nat) (l : Launcher σ δ), Enchaine l.cartes (l.tour sql parseDouble visite x sites).2
      (l.tour sql parseDouble visite x sites).1.cartes := by
  induction sites with
  | nil => exact fun _ l => .nil l.cartes
  | cons site sites ih =>
      intro x l
      exact (enchaine_poll sql parseDouble x site (visite x) l).append (ih (x + 1) _)

/-- **The handled lines of the rounds follow one another.** -/
theorem enchaine_loopVals (verifDate : Nat → σ → σ) (sites : List Site)
    (visites : List (Nat → Text → Option Page)) :
    ∀ (nb : Nat) (l : Launcher σ δ),
      Enchaine l.cartes (l.loopVals sql parseDouble verifDate sites nb visites).2.flatten
        (l.loopVals sql parseDouble verifDate sites nb visites).1.cartes := by
  induction visites with
  | nil => exact fun _ l => .nil l.cartes
  | cons visite visites ih =>
      intro nb l
      have first := enchaine_tour sql parseDouble visite sites 0 l
      have later := ih (nb + 1) (if (nb + 1) % 1000 = 0 then
        { (l.tour sql parseDouble visite 0 sites).1 with
          base := verifDate (nb + 1) (l.tour sql parseDouble visite 0 sites).1.base }
        else (l.tour sql parseDouble visite 0 sites).1)
      -- `verifDate` leaves the maps alone
      have checked : (if (nb + 1) % 1000 = 0 then
          { (l.tour sql parseDouble visite 0 sites).1 with
            base := verifDate (nb + 1) (l.tour sql parseDouble visite 0 sites).1.base }
          else (l.tour sql parseDouble visite 0 sites).1).cartes =
            (l.tour sql parseDouble visite 0 sites).1.cartes := by
        split <;> rfl
      rw [checked] at later
      exact first.append later

end Launcher

end Lines

/-! ## Rows of an identifier -/

/-- `SELECT ID FROM bdd WHERE NOM='nom'`. -/
def identifiant (registry : Text → List RegistryRow) (bdd nom : Text) : Option (Option Int) := do
  let nom ← unquote nom
  scalaire (((registry bdd).filter fun row => decide (row.nom = nom)).map RegistryRow.id)

section Rows

variable (sites : List Site) (registry : Text → List RegistryRow)

/-- An object of a position stores in a table under an identifier. -/
def Alimente (x : Nat) (indice : Indice δ) (type : Text) (i : Int) : Prop :=
  ∃ site, sites[x]? = some site ∧ site.type = type ∧
    identifiant registry site.bdd indice.nom = some (some i)

/-- A value that is new for the object of its line is not the last one of another object that
stores in the same table under the same identifier. -/
def Inedite (cartes : Nat → Carte δ) (place : Nat × Releve δ) : Prop :=
  place.2.indice.last ≠ place.2.lecture.val →
    ∀ type i, Alimente sites registry place.1 place.2.indice type i →
      ∀ y cle autre, (y, cle) ≠ (place.1, place.2.lecture.cle) → cartes y cle = some autre →
        Alimente sites registry y autre type i → autre.last ≠ place.2.lecture.val

/-- Each identifier of a table belongs to one object. -/
def Seuls (cartes : Nat → Carte δ) : Prop :=
  ∀ x cle indice y cle' autre type i, cartes x cle = some indice → cartes y cle' = some autre →
    Alimente sites registry x indice type i → Alimente sites registry y autre type i →
      (x, cle) = (y, cle')

/-- The values that lines store in a table under an identifier. -/
def rangees (type : Text) (i : Int) (places : List (Nat × Releve δ)) : List δ :=
  (places.filter fun place => decide ((sites[place.1]?).map Site.type = some type ∧
    place.2.insertion = .faite (some i))).map fun place => place.2.lecture.val

/-- What a line of a position stores is stored under the identifier of the name of its object. -/
def Identifiee (x : Nat) (releve : Releve δ) : Prop :=
  ∀ id, releve.insertion = .faite id → ∃ site, sites[x]? = some site ∧
    identifiant registry site.bdd releve.indice.nom = some id

/-- The outcome of a handled line: a new value was stored under the identifier of its object, and
no other value was. -/
structure Conforme (place : Nat × Releve δ) : Prop where
  nouvelle : place.2.insertion = .aucune ↔ place.2.indice.last = place.2.lecture.val
  acceptee : place.2.insertion ≠ .refusee
  identifiee : Identifiee sites registry place.1 place.2

variable {sites registry} {cartes : Nat → Carte δ} {place : Nat × Releve δ} {x y : Nat}
  {indice autre : Indice δ} {type type' : Text} {i i' : Int}

theorem Alimente.of_nom (feeds : Alimente sites registry x indice type i)
    (named : autre.nom = indice.nom) : Alimente sites registry x autre type i := by
  obtain ⟨site, found, table, identified⟩ := feeds
  exact ⟨site, found, table, named ▸ identified⟩

/-- What a handled line leaves at a key. -/
theorem suivi_step_self (cartes : Nat → Carte δ) (place : Nat × Releve δ) :
    suivi.step cartes place place.1 place.2.lecture.cle =
      some { place.2.indice with last := place.2.lecture.val } := by
  simp only [suivi, Function.update_self, noter]

theorem suivi_step_other {cle : Text} (other : (y, cle) ≠ (place.1, place.2.lecture.cle)) :
    suivi.step cartes place y cle = cartes y cle := by
  by_cases same : y = place.1
  · subst same
    have otherKey : cle ≠ place.2.lecture.cle := fun sameKey => other (by rw [sameKey])
    simp only [suivi, Function.update_self, noter, Function.update_of_ne otherKey]
  · simp only [suivi, Function.update_of_ne same]

/-- An object that stores in a table under an identifier has a value as its last one. -/
def Tient (sites : List Site) (registry : Text → List RegistryRow) (type : Text) (i : Int)
    (cartes : Nat → Carte δ) (v : δ) : Prop :=
  ∃ x cle indice, cartes x cle = some indice ∧ Alimente sites registry x indice type i ∧
    indice.last = v

/-- A line that stores nothing under the identifier leaves the last value with its object. -/
theorem Tient.step {v : δ} (held : Tient sites registry type i cartes v)
    (enabled : suivi.Enabled cartes place)
    (unchanged : Alimente sites registry place.1 place.2.indice type i →
      place.2.indice.last = place.2.lecture.val) :
    Tient sites registry type i (suivi.step cartes place) v := by
  obtain ⟨x, cle, indice, there, feeds, isLast⟩ := held
  by_cases same : (x, cle) = (place.1, place.2.lecture.cle)
  · obtain ⟨rfl, rfl⟩ := Prod.mk.inj same
    obtain rfl := Option.some.inj (there.symm.trans enabled)
    refine ⟨_, _, _, suivi_step_self cartes place, feeds.of_nom rfl, ?_⟩
    exact (unchanged feeds).symm.trans isLast
  · exact ⟨x, cle, indice, (suivi_step_other same).trans there, feeds, isLast⟩

/-- A stored value belongs to an object that stores there. -/
theorem Conforme.alimente (conform : Conforme sites registry place)
    (table : (sites[place.1]?).map Site.type = some type)
    (stored : place.2.insertion = .faite (some i)) :
    Alimente sites registry place.1 place.2.indice type i := by
  obtain ⟨site, found, identified⟩ := conform.identifiee (some i) stored
  rw [found, Option.map_some, Option.some.injEq] at table
  exact ⟨site, found, table, identified⟩

/-- A line of an object that stores under the identifier stores a new value there. -/
theorem Conforme.stored (conform : Conforme sites registry place)
    (feeds : Alimente sites registry place.1 place.2.indice type i)
    (isNew : place.2.indice.last ≠ place.2.lecture.val) :
    (sites[place.1]?).map Site.type = some type ∧ place.2.insertion = .faite (some i) := by
  obtain ⟨site, found, table, identified⟩ := feeds
  refine ⟨by rw [found, Option.map_some, table], ?_⟩
  cases outcome : place.2.insertion with
  | aucune => exact absurd (conform.nouvelle.mp outcome) isNew
  | refusee => exact absurd outcome conform.acceptee
  | faite id =>
      obtain ⟨site', found', identified'⟩ := conform.identifiee id outcome
      obtain rfl := Option.some.inj (found.symm.trans found')
      rw [Option.some.inj (identified'.symm.trans identified)]

/-- **The values stored under an identifier change from each one to the next**, when each new one
is not the last of another object. The invariant is that the value stored last is the last one
of an object that stores under the identifier. -/
theorem isChain_rangees {places : List (Nat × Releve δ)} {previous : Option δ}
    (held : ∀ v ∈ previous, Tient sites registry type i cartes v)
    (valid : suivi.Valid cartes places)
    (fresh : suivi.EachStep (Inedite sites registry) cartes places)
    (conform : ∀ place ∈ places, Conforme sites registry place) :
    (previous.toList ++ rangees sites type i places).IsChain (· ≠ ·) := by
  induction places generalizing cartes previous with
  | nil => cases previous <;> simp [rangees]
  | cons place places ih =>
      obtain ⟨enabled, later⟩ := valid
      obtain ⟨isFresh, laterFresh⟩ := fresh
      have here := conform place List.mem_cons_self
      have laterConform := fun other member => conform other (List.mem_cons_of_mem _ member)
      by_cases stored : (sites[place.1]?).map Site.type = some type ∧
          place.2.insertion = .faite (some i)
      · have feeds := here.alimente stored.1 stored.2
        have isNew : place.2.indice.last ≠ place.2.lecture.val := by
          intro same
          have nothing := here.nouvelle.mpr same
          rw [stored.2] at nothing
          cases nothing
        have nowHeld : ∀ v ∈ some place.2.lecture.val,
            Tient sites registry type i (suivi.step cartes place) v := by
          rintro v ⟨⟩
          exact ⟨_, _, _, suivi_step_self cartes place, feeds.of_nom rfl, rfl⟩
        have rest := ih nowHeld later laterFresh laterConform
        have rows : rangees sites type i (place :: places) =
            place.2.lecture.val :: rangees sites type i places := by
          rw [rangees, List.filter_cons_of_pos (by simpa using stored), List.map_cons, rangees]
        rw [rows]
        cases previous with
        | none => exact rest
        | some v =>
            refine List.isChain_cons_cons.mpr ⟨?_, rest⟩
            obtain ⟨x, cle, indice, there, alsoFeeds, rfl⟩ := held v rfl
            by_cases same : (x, cle) = (place.1, place.2.lecture.cle)
            · obtain ⟨rfl, rfl⟩ := Prod.mk.inj same
              obtain rfl := Option.some.inj (there.symm.trans enabled)
              exact isNew
            · exact isFresh isNew type i feeds x cle indice same there alsoFeeds
      · have rows : rangees sites type i (place :: places) = rangees sites type i places := by
          rw [rangees, List.filter_cons_of_neg (by simpa using stored), rangees]
        rw [rows]
        refine ih ?_ later laterFresh laterConform
        intro v isPrevious
        apply (held v isPrevious).step enabled
        intro feeds
        by_contra isNew
        exact stored (here.stored feeds isNew)

/-- A line makes no new objects, and keeps the names of those that there are. -/
theorem exists_of_suivi_step {cle : Text} (enabled : suivi.Enabled cartes place)
    (there : suivi.step cartes place x cle = some indice) :
    ∃ old : Indice δ, cartes x cle = some old ∧ old.nom = indice.nom := by
  by_cases same : (x, cle) = (place.1, place.2.lecture.cle)
  · obtain ⟨rfl, rfl⟩ := Prod.mk.inj same
    rw [suivi_step_self, Option.some.injEq] at there
    exact ⟨place.2.indice, enabled, by rw [← there]⟩
  · exact ⟨indice, (suivi_step_other same).symm.trans there, rfl⟩

/-- Where each identifier belongs to one object, it does so after every line. -/
theorem Seuls.step (alone : Seuls sites registry cartes) (enabled : suivi.Enabled cartes place) :
    Seuls sites registry (suivi.step cartes place) := by
  intro x cle indice y cle' autre type i there alsoThere feeds alsoFeeds
  obtain ⟨old, wasThere, sameNom⟩ := exists_of_suivi_step enabled there
  obtain ⟨old', alsoWasThere, alsoSameNom⟩ := exists_of_suivi_step enabled alsoThere
  exact alone x cle old y cle' old' type i wasThere alsoWasThere (feeds.of_nom sameNom)
    (alsoFeeds.of_nom alsoSameNom)

/-- **Where each identifier belongs to one object, no value is another object's last one.** -/
theorem Seuls.inedite {places : List (Nat × Releve δ)} (alone : Seuls sites registry cartes)
    (valid : suivi.Valid cartes places) :
    suivi.EachStep (Inedite sites registry) cartes places := by
  induction places generalizing cartes with
  | nil => trivial
  | cons place places ih =>
      refine ⟨?_, ih (alone.step valid.1) valid.2⟩
      intro _ type i feeds y cle autre other there alsoFeeds
      exact absurd (alone y cle autre _ _ _ type i there valid.1 alsoFeeds feeds) other

/-- All objects are at these positions under these keys. -/
def Parmi (objets : List (Nat × Text)) (cartes : Nat → Carte δ) : Prop :=
  ∀ x cle indice, cartes x cle = some indice → (x, cle) ∈ objets

/-- A value that is new for the object of its line is not the last one of any other of these
objects. -/
def Differe (objets : List (Nat × Text)) (cartes : Nat → Carte δ) (place : Nat × Releve δ) :
    Prop :=
  place.2.indice.last ≠ place.2.lecture.val →
    ∀ objet ∈ objets, objet ≠ (place.1, place.2.lecture.cle) →
      (cartes objet.1 objet.2).map Indice.last ≠ some place.2.lecture.val

instance [DecidableEq δ] (objets : List (Nat × Text)) (cartes : Nat → Carte δ)
    (place : Nat × Releve δ) : Decidable (Differe objets cartes place) :=
  inferInstanceAs (Decidable (place.2.indice.last ≠ place.2.lecture.val →
    ∀ objet ∈ objets, objet ≠ (place.1, place.2.lecture.cle) →
      (cartes objet.1 objet.2).map Indice.last ≠ some place.2.lecture.val))

/-- **A value that differs from all other objects is fresh**, whatever they feed. -/
theorem Parmi.inedite {objets : List (Nat × Text)} {places : List (Nat × Releve δ)}
    (among : Parmi objets cartes) (valid : suivi.Valid cartes places)
    (differ : suivi.EachStep (Differe objets) cartes places) :
    suivi.EachStep (Inedite sites registry) cartes places := by
  induction places generalizing cartes with
  | nil => trivial
  | cons place places ih =>
      have later : Parmi objets (suivi.step cartes place) := by
        intro x cle indice there
        obtain ⟨old, wasThere, -⟩ := exists_of_suivi_step valid.1 there
        exact among x cle old wasThere
      refine ⟨?_, ih later valid.2 differ.2⟩
      intro isNew type i _ y cle autre other there _ same
      apply differ.1 isNew (y, cle) (among y cle autre there) other
      rw [there, Option.map_some, same]

end Rows

/-! ## The rounds -/

/-- **What the insertion of a value stores.** -/
theorem insertVal_eq_some {type bdd nom : Text} {d : δ} {base base' : Base δ} {id : Option Int} :
    sqlBase.insertVal type bdd nom d base = some (base', id) ↔
      identifiant base.registry bdd nom = some id ∧
        base' =
          { base with vals := Function.update base.vals type (base.vals type ++ [(id, d)]) } := by
  simp only [sqlBase, identifiant, Option.bind_eq_bind, Option.bind_eq_some_iff, Option.pure_def,
    Option.some.injEq, Prod.mk.injEq]
  constructor
  · rintro ⟨name, unquoted, _, found, rfl, rfl⟩
    exact ⟨⟨name, unquoted, found⟩, rfl⟩
  · rintro ⟨⟨name, unquoted, found⟩, rfl⟩
    exact ⟨name, unquoted, id, found, rfl, rfl⟩

variable [DecidableEq δ]

/-- A line keeps the registries, and what it stores is stored under the identifier of its object. -/
theorem Indice.addVal_identifiant (d : δ) (type bdd : Text) (indice : Indice δ) (base : Base δ) :
    (indice.addVal sqlBase d type bdd base).2.1.registry = base.registry ∧
      ∀ id, (indice.addVal sqlBase d type bdd base).2.2 = .faite id →
        identifiant base.registry bdd indice.nom = some id := by
  unfold Indice.addVal
  split
  · split
    · rename_i stored
      obtain ⟨identified, rfl⟩ := insertVal_eq_some.mp stored
      refine ⟨rfl, ?_⟩
      rintro id ⟨⟩
      exact identified
    · exact ⟨rfl, nofun⟩
  · exact ⟨rfl, nofun⟩

namespace Launcher

variable {parseDouble : Text → Option δ} {sites : List Site} {registry : Text → List RegistryRow}

/-- A poll keeps the registries and stores under the identifiers of the objects. -/
theorem poll_identifiee {x : Nat} {site : Site} (found : sites[x]? = some site)
    (visite : Text → Option Page) {l : Launcher (Base δ) δ} (same : l.base.registry = registry) :
    (l.poll sqlBase parseDouble x site visite).1.base.registry = registry ∧
      ∀ releve ∈ (l.poll sqlBase parseDouble x site visite).2,
        Identifiee sites registry x releve := by
  rcases poll_cases sqlBase parseDouble x site visite l with
    nothing | ⟨_, _, carte, lignes, _, _, polled⟩
  · rw [nothing]
    exact ⟨same, nofun⟩
  · rw [polled]
    refine boucle_rule sqlBase parseDouble (I := fun _ base => base.registry = registry)
      (P := Identifiee sites registry x) lignes ?_ carte l.base same
    intro _ _ _ lecture indice _ base _ _ current
    obtain ⟨kept, identified⟩ :=
      Indice.addVal_identifiant lecture.val site.type site.bdd indice base
    refine ⟨kept.trans current, ?_⟩
    intro id outcome
    rw [← current]
    exact ⟨site, found, identified id outcome⟩

/-- The handled lines of the rounds have the outcome of their values, if none is refused. -/
theorem loopVals_conforme {verifDate : Nat → Base δ → Base δ}
    (keeps : ∀ nb base, (verifDate nb base).registry = base.registry)
    (visites : List (Nat → Text → Option Page)) (l : Launcher (Base δ) δ)
    (accepted : ∀ releves ∈ (l.loopVals sqlBase parseDouble verifDate sites 0 visites).2,
      ∀ place ∈ releves, place.2.insertion ≠ .refusee) :
    ∀ place ∈ (l.loopVals sqlBase parseDouble verifDate sites 0 visites).2.flatten,
      Conforme sites l.base.registry place := by
  have checked : ∀ (nb : Nat) (m : Launcher (Base δ) δ), m.base.registry = l.base.registry →
      (verifDate nb m.base).registry = l.base.registry :=
    fun nb m same => (keeps nb m.base).trans same
  have identified : _ ∧ ∀ releves ∈ (l.loopVals sqlBase parseDouble verifDate sites 0 visites).2,
      ∀ place ∈ releves, Identifiee sites l.base.registry place.1 place.2 :=
    loopVals_rule (P := Identifiee sites l.base.registry) checked visites
      (fun visite _ x _ _ found same => poll_identifiee found (visite x) same) 0 l rfl
  have statements := loopVals_statements sqlBase parseDouble verifDate sites visites l
  intro place member
  obtain ⟨releves, inRounds, inRound⟩ := List.mem_flatten.mp member
  exact ⟨statements releves inRounds place inRound, accepted releves inRounds place inRound,
    identified.2 releves inRounds place inRound⟩

end Launcher

/-- Two sites that feed one table. -/
def sharesSites : List Site :=
  [⟨"united-states-30-components".toList, "actionsvals".toList, "0".toList, "0".toList, "1".toList,
      "2".toList, "actions".toList⟩,
    ⟨"nq-100-components".toList, "actionsvals".toList, "1".toList, "0".toList, "1".toList,
      "2".toList, "actions".toList⟩]

/-- A page with one share in both of its tables. -/
def sharePage (val : Text) : Page :=
  let ligne : Ligne := [⟨"-".toList, some "USA".toList, none⟩,
    ⟨"Apple".toList, none, some "Apple".toList⟩, ⟨val, none, none⟩]
  [[ligne], [ligne]]

/-- The recorder after its start with the pages of the share. -/
def sharesStart : Launcher (Base Int) Int :=
  Launcher.demarrage sqlBase parseInt (fun _ => .page (sharePage "7".toList) none) sharesSites
    emptyBase

/-- Two rounds in which the sites show different values of the share. -/
def ecarts : List (Nat → Text → Option Page) :=
  [fun x _ => some (sharePage (if x = 0 then "8".toList else "9".toList)),
    fun x _ => some (sharePage (if x = 0 then "10".toList else "9".toList))]

/-- The object of the share at each of the two positions. -/
def objetsShare : List (Nat × Text) := [(0, "AppleUSA".toList), (1, "AppleUSA".toList)]

theorem parmi_sharesStart : Parmi objetsShare sharesStart.cartes := by
  have read : ∀ site ∈ sharesSites, site.lirePage parseInt (sharePage "7".toList) =
      some [⟨"Apple".toList, "USA".toList, 7⟩] := by
    decide +kernel
  intro x cle indice there
  cases entry : sharesStart.indices[x]? with
  | none => simp [Launcher.cartes, entry] at there
  | some place =>
      rw [Launcher.cartes, entry, Option.map_some, Option.getD_some] at there
      have position : x < 2 := by
        have length : sharesStart.indices.length = 2 := by decide +kernel
        exact length ▸ (List.getElem?_eq_some_iff.mp entry).1
      obtain ⟨site, found, started⟩ :=
        Launcher.carteDepart_of_mem_indices (List.mem_of_getElem? entry)
      obtain ⟨page, panne, lectures, shown, readings, built⟩ := Site.carteDepart_eq_some started
      obtain ⟨rfl, -⟩ := Acces.page.inj shown
      rw [read site (List.mem_of_getElem? found), Option.some.injEq] at readings
      rw [built, ← readings] at there
      obtain ⟨lecture, member, rfl, -⟩ := carteDe_eq_some there
      rw [List.mem_singleton.mp member]
      have key : (⟨"Apple".toList, "USA".toList, 7⟩ : Lecture Int).cle = "AppleUSA".toList := by
        decide
      rw [key]
      obtain rfl | rfl : x = 0 ∨ x = 1 := by omega
      · exact List.mem_cons_self
      · exact List.mem_cons_of_mem _ List.mem_cons_self

/-- The recorder after its start with the pages of the share, and after one round. -/
def sharesRound : Launcher (Base Int) Int × List (List (Nat × Releve Int)) :=
  (Launcher.demarrage sqlBase parseInt (fun _ => .page (sharePage "7".toList) none) sharesSites
    emptyBase).loopVals sqlBase parseInt (fun _ base => base) sharesSites 0
      [fun _ _ => some (sharePage "8".toList)]

end Trading.Recup
