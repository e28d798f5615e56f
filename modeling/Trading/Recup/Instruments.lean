import Trading.Recup.Attribution
import Trading.Recup.Execution

/-!
# Instruments of an execution

What the program does to the registries from its launch on. An instrument is registered together
with its country, rows of the registries stay as they are, and a value is stored under the
identifier of a registered instrument that has the name of the object (`Garde`). Every execution
keeps this (`executer_garde`), whatever pages, exceptions and refused statements there are.
-/

set_option autoImplicit false

namespace Trading.Recup

open Trading.Calendar Trading.Text

/-! ## Instruments and countries -/

namespace Base

variable {δ : Type}

/-- Every registered instrument has a country. -/
structure Rattachee (base : Base δ) : Prop extends Valide base where
  country : ∀ bdd, ∀ row ∈ base.registry bdd, ∃ pays ∈ base.pays, row.pays = some pays.id

theorem Rattachee.after_insertPays {base : Base δ} (attached : base.Rattachee) (pays : Text) :
    ((sqlBase.insertPays pays base).getD base).Rattachee := by
  refine ⟨attached.toValide.after_insertPays pays, fun bdd row member => ?_⟩
  rw [registry_insertPays] at member
  obtain ⟨country, inPays, linked⟩ := attached.country bdd row member
  exact ⟨country, (contenue_insertPays pays base).pays country inPays, linked⟩

/-- After the statement for its country, an instrument is registered with its country, or the
statement is refused. -/
theorem Rattachee.after_insertIndice {base : Base δ} (attached : base.Rattachee)
    (bdd pays nom : Text)
    (present : ∀ name, unquote pays = some name → name ∈ base.pays.map PaysRow.nom) :
    ((sqlBase.insertIndice bdd pays nom base).getD base).Rattachee := by
  cases added : sqlBase.insertIndice bdd pays nom base with
  | none => exact attached
  | some base' =>
      simp only [sqlBase, Option.bind_eq_bind, Option.bind_eq_some_iff] at added
      obtain ⟨name, unquoted, label, -, id, found, accepted⟩ := added
      obtain ⟨country, inPays, named⟩ := List.mem_map.mp (present name unquoted)
      have only : (base.pays.filter fun row => decide (row.nom = name)) = [country] := by
        rw [← named]
        exact filter_key attached.paysNoms inPays
      obtain rfl : some country.id = id := by
        rw [only] at found
        exact Option.some.inj found
      split at accepted
      · cases accepted
      · rename_i new
        rw [Option.getD_some, ← Option.some.inj accepted]
        refine ⟨attached.toValide.after_ajouter fun old => new ⟨rfl, old⟩, ?_⟩
        intro other row member
        by_cases same : other = bdd
        · rw [same, registry_ajouter_self] at member
          rcases List.mem_append.mp member with old | new
          · exact attached.country bdd row old
          · rw [List.mem_singleton.mp new]
            exact ⟨country, inPays, rfl⟩
        · rw [registry_ajouter_of_ne same] at member
          exact attached.country other row member

/-- **The registrations of a line** keep instruments and countries together. -/
theorem Rattachee.after_inscrire {base : Base δ} (attached : base.Rattachee) (site : Site)
    (lecture : Lecture δ) : (inscrire sqlBase site lecture base).Rattachee := by
  refine (attached.after_insertPays lecture.pays).after_insertIndice _ _ _ fun name unquoted => ?_
  rcases insertPays_cases lecture.pays base with ⟨unchanged, present⟩ | ⟨nom, value, -, added⟩
  · rw [unchanged]
    exact present name unquoted
  · rw [added]
    obtain rfl := Option.some.inj (unquoted.symm.trans value)
    exact List.mem_map_of_mem (List.mem_append_right _ List.mem_cons_self)

theorem contenue_inscrire (site : Site) (lecture : Lecture δ) (base : Base δ) :
    Contenue base (inscrire sqlBase site lecture base) := by
  refine (contenue_insertPays lecture.pays base).trans ?_
  rw [inscrire]
  cases added : sqlBase.insertIndice site.bdd lecture.pays lecture.nom
      ((sqlBase.insertPays lecture.pays base).getD base) with
  | none => exact .refl _
  | some base' =>
      obtain ⟨indice, -, rfl⟩ := insertIndice_ajoute added
      exact contenue_ajouter site.bdd indice _

end Base

/-! ## What an execution keeps -/

variable {ν : Type}

/-- A part of an execution keeps instruments and countries together, keeps the rows of the
registries, and stores under the identifiers of registered instruments that have the names of the
objects. -/
structure Garde (sites : List Site) (base : Base ν) (places : List (Nat × Releve ν))
    (base' : Base ν) : Prop where
  attached : base.Rattachee → base'.Rattachee
  more : base.Contenue base'
  named : ∀ place ∈ places, ∀ i, place.2.insertion = .faite (some i) →
    ∃ site, sites[place.1]? = some site ∧ ∃ row ∈ base'.registry site.bdd,
      row.id = i ∧ unquote place.2.indice.nom = some row.nom

namespace Garde

variable {sites : List Site} {base base' base'' : Base ν}

/-- A step that leaves instruments and countries alone and stores nothing. -/
theorem idle {places : List (Nat × Releve ν)} (pays : base'.pays = base.pays)
    (registry : base'.registry = base.registry)
    (nothing : ∀ place ∈ places, ∀ id, place.2.insertion ≠ .faite id) :
    Garde sites base places base' where
  attached := fun attached => by
    refine ⟨⟨?_, ?_, ?_, ?_⟩, ?_⟩
    · rw [pays]
      exact attached.paysIds
    · rw [pays]
      exact attached.paysNoms
    · rw [registry]
      exact attached.ids
    · rw [registry]
      exact attached.noms
    · rw [pays, registry]
      exact attached.country
  more := ⟨fun row member => by rwa [pays], fun bdd row member => by rwa [registry]⟩
  named := fun place member i stored => absurd stored (nothing place member _)

theorem append {places places' : List (Nat × Releve ν)} (before : Garde sites base places base')
    (after : Garde sites base' places' base'') : Garde sites base (places ++ places') base'' where
  attached := fun attached => after.attached (before.attached attached)
  more := before.more.trans after.more
  named := by
    intro place member i stored
    rcases List.mem_append.mp member with early | late
    · obtain ⟨site, found, row, inRegistry, rowIs⟩ := before.named place early i stored
      exact ⟨site, found, row, after.more.registry site.bdd row inRegistry, rowIs⟩
    · exact after.named place late i stored

/-- A step of the start that stores nothing. -/
theorem inscrit (attached : base.Rattachee → base'.Rattachee) (more : base.Contenue base') :
    Garde sites base [] base' :=
  ⟨attached, more, fun _ absent => absurd absent List.not_mem_nil⟩

end Garde

/-! ## The steps of an execution -/

section Steps

variable (horloge : Nat → Stamp)

/-- `INSERT INTO PAYS` on the state of the program. -/
theorem base_insertPays (pays : Text) (e : Etat ν) :
    (((sqlEtat horloge).insertPays pays e).getD e).base =
      (sqlBase.insertPays pays e.base).getD e.base := by
  have kept := Base.insertPays_cases pays e.base
  cases added : sqlBase.insertPays pays e.base with
  | none => simp only [sqlEtat, added, Option.map_none, Option.getD_none]
  | some base =>
      rw [added, Option.getD_some] at kept
      simp only [sqlEtat, added, Option.map_some, Option.getD_some]
      rcases kept with ⟨rfl, -⟩ | ⟨nom, -, -, rfl⟩
      · rfl
      · rfl

/-- The `INSERT` into a registry on the state of the program. -/
theorem base_insertIndice (bdd pays nom : Text) (e : Etat ν) :
    (((sqlEtat horloge).insertIndice bdd pays nom e).getD e).base =
      (sqlBase.insertIndice bdd pays nom e.base).getD e.base := by
  cases added : sqlBase.insertIndice bdd pays nom e.base with
  | none => simp only [sqlEtat, added, Option.map_none, Option.getD_none]
  | some base =>
      obtain ⟨indice, -, rfl⟩ := insertIndice_ajoute added
      simp only [sqlEtat, added, Option.map_some, Option.getD_some]
      rfl

theorem base_inscrire (site : Site) (lecture : Lecture ν) (e : Etat ν) :
    (inscrire (sqlEtat horloge) site lecture e).base = inscrire sqlBase site lecture e.base := by
  rw [inscrire, base_insertIndice, base_insertPays]
  rfl

end Steps

namespace Garde

variable {horloge : Nat → Stamp} {sites : List Site}

/-- A handled line. -/
theorem line [DecidableEq ν] {x : Nat} {site : Site} (found : sites[x]? = some site)
    (lecture : Lecture ν) (indice : Indice ν) (e : Etat ν) :
    Garde sites e.base
      [(x, ⟨lecture, indice,
        (indice.addVal (sqlEtat horloge) lecture.val site.type site.bdd e).2.2⟩)]
      (indice.addVal (sqlEtat horloge) lecture.val site.type site.bdd e).2.1.base := by
  have nothing : ∀ insertion : Insertion, (∀ id, insertion ≠ .faite id) →
      ∀ place ∈ [((x, ⟨lecture, indice, insertion⟩) : Nat × Releve ν)], ∀ id,
        place.2.insertion ≠ .faite id := by
    intro insertion notDone place member
    rw [List.mem_singleton.mp member]
    exact notDone
  unfold Indice.addVal
  split
  · cases stored : sqlBase.insertVal site.type site.bdd indice.nom lecture.val e.base with
    | none =>
        have refused : (sqlEtat horloge).insertVal site.type site.bdd indice.nom lecture.val e =
            none := by
          simp only [sqlEtat, stored, Option.map_none]
        rw [refused]
        exact idle rfl rfl (nothing _ fun _ => Insertion.noConfusion)
    | some result =>
        obtain ⟨base', id⟩ := result
        have accepted : (sqlEtat horloge).insertVal site.type site.bdd indice.nom lecture.val e =
            some (e.inserer site.type id lecture.val (horloge e.heure), id) := by
          simp only [sqlEtat, stored, Option.map_some]
        rw [accepted]
        obtain ⟨identified, -⟩ := insertVal_eq_some.mp stored
        have same : Garde sites e.base []
            (e.inserer site.type id lecture.val (horloge e.heure)).base :=
          idle rfl rfl fun _ absent => absurd absent List.not_mem_nil
        refine ⟨same.attached, same.more, fun place member i isStored => ?_⟩
        rw [List.mem_singleton.mp member] at isStored ⊢
        obtain rfl : id = some i := Insertion.faite.inj isStored
        exact ⟨site, found, exists_row_of_identifiant identified⟩
  · exact idle rfl rfl (nothing _ fun _ => Insertion.noConfusion)

/-- The lines of a start-up page. -/
theorem recupLignes {parseDouble : Text → Option ν} {site : Site} (lignes : List Ligne) :
    ∀ (panne : Option Nat) (carte : Carte ν) (e : Etat ν),
      Garde sites e.base []
        (Recup.recupLignes (sqlEtat horloge) parseDouble site lignes panne carte e).1.base := by
  induction lignes with
  | nil => exact fun _ _ e => inscrit id (.refl e.base)
  | cons ligne lignes ih =>
      intro panne carte e
      by_cases empty : eachText ligne = []
      · rw [Recup.recupLignes, if_pos empty]
        exact ih panne carte e
      rcases recupLignes_cases (sqlEtat horloge) parseDouble site empty lignes panne carte e with
        ⟨lecture, -, -, continued⟩ | ⟨-, e', reached, ended⟩
      · rw [continued]
        have later := ih (panne.map Nat.pred) (enregistrer carte lecture)
          (inscrire (sqlEtat horloge) site lecture e)
        rw [base_inscrire] at later
        have registered : Garde sites e.base [] (inscrire sqlBase site lecture e.base) :=
          inscrit (fun attached => attached.after_inscrire site lecture)
            (Base.contenue_inscrire site lecture e.base)
        exact registered.append later
      · rw [ended]
        rcases reached with rfl | ⟨name, -, rfl⟩
        · exact inscrit id (.refl _)
        · rw [base_insertPays]
          exact inscrit (fun attached => attached.after_insertPays name)
            (Base.contenue_insertPays name e.base)

/-- The work on a site of the start. -/
theorem recupSite (parseDouble : Text → Option ν) (x : Nat) (site : Site) (acces : Acces)
    (l : Launcher (Etat ν) ν) :
    Garde sites l.base.base []
      (l.recupSite (sqlEtat horloge) parseDouble x site acces).base.base := by
  cases acces with
  | refus => exact inscrit id (.refl _)
  | silence => exact inscrit id (.refl _)
  | page page panne =>
      cases table : getAt site.table page with
      | none =>
          have unchanged : (l.recupSite (sqlEtat horloge) parseDouble x site
              (.page page panne)).base = l.base := by simp only [Launcher.recupSite, table]
          rw [unchanged]
          exact inscrit id (.refl _)
      | some lignes =>
          have read : (l.recupSite (sqlEtat horloge) parseDouble x site (.page page panne)).base =
              (Recup.recupLignes (sqlEtat horloge) parseDouble site lignes panne (fun _ => none)
                l.base).1 := by
            simp only [Launcher.recupSite, table]
            split <;> simp only [*]
          rw [read]
          exact recupLignes lignes panne (fun _ => none) l.base

/-- The tables of a launcher were reached from others without an insert. -/
def Depuis (sites : List Site) (base : Base ν) (l : Launcher (Etat ν) ν) : Prop :=
  Garde sites base [] l.base.base

/-- The start. -/
theorem demarrage (parseDouble : Text → Option ν) (acces : Nat → Acces) (e : Etat ν) :
    Depuis sites e.base (Launcher.demarrage (sqlEtat horloge) parseDouble acces sites e) := by
  refine Launcher.recupIndices_rule (fun x site l _ before => ?_) sites 0 _ rfl
    (inscrit id (.refl _))
  exact before.append (recupSite parseDouble x site (acces x) l)

end Garde

variable [Rendered ν] [DecidableEq ν]

omit [DecidableEq ν] in
/-- An archive run leaves the registries alone. -/
theorem writeSites_registry (hier ojd : Int) (sites : List Site) :
    ∀ (faults : Nat → Faults) (w : World ν),
      (writeSites hier ojd sites faults w).db.registry = w.db.registry := by
  induction sites with
  | nil => exact fun _ _ => rfl
  | cons site sites ih =>
      intro faults w
      rw [writeSites, ih, (write_effect hier ojd site.type site.bdd (faults 0) w).registry]

omit [DecidableEq ν] in
/-- A check of the date. -/
theorem Garde.verif (horloge : Nat → Stamp) (sites : List Site) (faults : Nat → Faults)
    (e : Etat ν) : Garde sites e.base [] (e.verifDate horloge sites faults).base := by
  have registry : (e.verifDate horloge sites faults).base.registry = e.base.registry := by
    simp only [Etat.verifDate, Etat.base, Machine.verifDate]
    split
    · exact writeSites_registry _ _ sites faults e.machine.world
    · rfl
  exact .idle rfl registry fun _ absent => absurd absent List.not_mem_nil

/-- **Every execution keeps instruments, countries and names together.** -/
theorem executer_garde (horloge : Nat → Stamp) (sites : List Site)
    (parseDouble : Text → Option ν) (faults : Nat → Nat → Faults) (acces : Nat → Acces)
    (visites : List (Nat → Text → Option Page)) (e : Etat ν) :
    Garde sites e.base (executer horloge sites parseDouble faults acces visites e).2.flatten
      (executer horloge sites parseDouble faults acces visites e).1.base.base := by
  have init : Garde sites e.base [] (e.init horloge sites (faults 0)).base :=
    .idle rfl (writeSites_registry _ _ sites (faults 0) e.machine.world)
      fun _ absent => absurd absent List.not_mem_nil
  have start : Garde sites (e.init horloge sites (faults 0)).base []
      (Launcher.demarrage (sqlEtat horloge) parseDouble acces sites
        (e.init horloge sites (faults 0))).base.base := .demarrage parseDouble acces _
  have rounds : Garde sites (Launcher.demarrage (sqlEtat horloge) parseDouble acces sites
        (e.init horloge sites (faults 0))).base.base
      (executer horloge sites parseDouble faults acces visites e).2.flatten
      (executer horloge sites parseDouble faults acces visites e).1.base.base :=
    chaine_loopVals (T := fun (first : Etat ν) places (second : Etat ν) =>
        Garde sites first.base places second.base)
      (fun base => .inscrit id (.refl base.base)) (fun before after => Garde.append before after)
      (fun _ _ found lecture indice base => .line found lecture indice base)
      (fun nb base => .verif horloge sites (faults nb) base) visites 0 _
  exact (init.append start).append rounds

end Trading.Recup
