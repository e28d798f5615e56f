import Trading.Recup.Instruments

/-!
# What the start registers

The start writes to the tables line by line, and an exception ends the work on a page but not what
its earlier lines have registered. `inscritesDe` lists the readings that the work on some sites
registers, from the pages alone, and `Augmente` says what that does to the tables: rows are added
behind those that are there, each for a reading whose instrument is not there yet, and every
reading has its instrument afterwards (`augmente_demarrage`).

The identifier of a value is looked up by the name alone. So a reading matters for the lookup of a
name if and only if it declares a country that the name does not have yet: without a new country
the lookup stays as it is (`Augmente.identifiant_eq`), and with two countries it fails
(`Augmente.identifiant_of_ambigu`).
-/

set_option autoImplicit false

namespace Trading.Recup

open Trading.Text

variable {δ : Type}

/-! ## The readings that are registered -/

section Inscrites

variable (parseDouble : Text → Option δ)

/-- The readings that the lines of a start-up page register, up to an exception. -/
def Site.inscritesLignes (site : Site) : List Ligne → Option Nat → List (Lecture δ)
  | [], _ => []
  | ligne :: lignes, panne =>
      if eachText ligne = [] then Site.inscritesLignes site lignes panne
      else
        match site.lire parseDouble ligne with
        | none => []
        | some lecture =>
            if panne = some 0 then []
            else lecture :: Site.inscritesLignes site lignes (panne.map Nat.pred)

/-- The readings that the work on a site registers at the start. -/
def Site.inscrites (site : Site) : Acces → List (Lecture δ)
  | .refus => []
  | .silence => []
  | .page page panne =>
      match getAt site.table page with
      | none => []
      | some lignes => site.inscritesLignes parseDouble lignes panne

/-- The readings that the work on some sites registers, with their categories. -/
def inscritesDe (acces : Nat → Acces) (places : List (Site × Nat)) : List (Text × Lecture δ) :=
  places.flatMap fun place =>
    (place.1.inscrites parseDouble (acces place.2)).map fun lecture => (place.1.bdd, lecture)

variable {parseDouble}

/-- Without an exception every reading of the page is registered. -/
theorem Site.inscritesLignes_eq {site : Site} (lignes : List Ligne) :
    ∀ (panne : Option Nat) (lectures : List (Lecture δ)),
      site.lireLignes parseDouble lignes = some lectures →
        panne.any (fun n => decide (n < lectures.length)) = false →
          site.inscritesLignes parseDouble lignes panne = lectures := by
  induction lignes with
  | nil => exact fun _ _ read _ => Option.some.inj read
  | cons ligne lignes ih =>
      intro panne lectures read late
      rw [Site.inscritesLignes]
      by_cases empty : eachText ligne = []
      · rw [Site.lireLignes_cons_empty empty] at read
        rw [if_pos empty]
        exact ih panne lectures read late
      rw [if_neg empty]
      rw [Site.lireLignes_cons empty, Option.bind_eq_some_iff] at read
      obtain ⟨lecture, first, rest⟩ := read
      obtain ⟨later, readLater, rfl⟩ := Option.map_eq_some_iff.mp rest
      rw [first]
      cases panne with
      | none => simp only [reduceCtorEq, if_false, Option.map_none, ih none later readLater rfl]
      | some n =>
          have within : later.length + 1 ≤ n := by simpa using late
          have notNow : n ≠ 0 := by omega
          have lateRest : n.pred ≥ later.length := by
            rw [Nat.pred_eq_sub_one]
            omega
          simp only [Option.some.injEq, if_neg notNow, Option.map_some,
            ih (some n.pred) later readLater (by simpa using lateRest)]

/-- The map that the start builds for a site is that of the readings it registers. -/
theorem Site.eq_carteDe_inscrites {site : Site} {acces : Acces} {carte : Carte δ}
    (started : site.carteDepart parseDouble acces = some carte) :
    carte = carteDe (site.inscrites parseDouble acces) := by
  cases acces with
  | refus => cases started
  | silence => cases started
  | page page panne =>
      obtain ⟨lectures, read, built⟩ := Option.bind_eq_some_iff.mp started
      split at built
      · cases built
      · rename_i late
        obtain ⟨lignes, table, readLignes⟩ := Option.bind_eq_some_iff.mp read
        rw [Site.inscrites, table]
        simp only
        rw [Site.inscritesLignes_eq lignes panne lectures readLignes (Bool.not_eq_true _ ▸ late)]
        exact (Option.some.inj built).symm

end Inscrites

/-- One of the readings declares the instrument of a name and a country in a category. -/
def Declare (lues : List (Text × Lecture δ)) (bdd nom pays : Text) : Prop :=
  ∃ lue ∈ lues, lue.1 = bdd ∧ unquote lue.2.nom = some nom ∧ unquote lue.2.pays = some pays

theorem declare_append {lues lues' : List (Text × Lecture δ)} {bdd nom pays : Text} :
    Declare (lues ++ lues') bdd nom pays ↔
      Declare lues bdd nom pays ∨ Declare lues' bdd nom pays := by
  simp only [Declare, List.mem_append, or_and_right, exists_or]

theorem not_declare_nil {bdd nom pays : Text} :
    ¬ Declare ([] : List (Text × Lecture δ)) bdd nom pays :=
  fun ⟨_, absent, _⟩ => List.not_mem_nil absent

theorem declare_singleton {bdd bdd' nom pays : Text} {lecture : Lecture δ} :
    Declare [(bdd, lecture)] bdd' nom pays ↔
      bdd = bdd' ∧ unquote lecture.nom = some nom ∧ unquote lecture.pays = some pays := by
  simp only [Declare, List.mem_singleton, exists_eq_left]

/-! ## Tables with more instruments -/

namespace Base

/-- **What registering readings does to the tables**: each new row is for a country that a reading
declares and that the name did not have, and every reading has its instrument afterwards. -/
structure Augmente (lues : List (Text × Lecture δ)) (base base' : Base δ) : Prop where
  valid : base'.Valide
  pays : ∀ row ∈ base.pays, row ∈ base'.pays
  registry : ∀ bdd, ∃ rows, base'.registry bdd = base.registry bdd ++ rows ∧
    ∀ row ∈ rows, ∃ country ∈ base'.pays, row.pays = some country.id ∧
      Declare lues bdd row.nom country.nom ∧ ∀ i, ¬ base.Inscrit bdd row.nom country.nom i
  registered : ∀ bdd nom pays, Declare lues bdd nom pays → ∃ i, base'.Inscrit bdd nom pays i

namespace Augmente

variable {lues lues' : List (Text × Lecture δ)} {base base' base'' : Base δ}

theorem contenue (more : Augmente lues base base') : Contenue base base' := by
  refine ⟨more.pays, fun bdd row member => ?_⟩
  obtain ⟨rows, added, -⟩ := more.registry bdd
  rw [added]
  exact List.mem_append_left _ member

/-- Only `PAYS` has new rows: every reading has its instrument already. -/
theorem of_registry (valid : base'.Valide) (more : Contenue base base')
    (same : base'.registry = base.registry)
    (registered : ∀ bdd nom pays, Declare lues bdd nom pays → ∃ i, base'.Inscrit bdd nom pays i) :
    Augmente lues base base' where
  valid := valid
  pays := more.pays
  registry bdd := by
    refine ⟨[], ?_, fun _ absent => absurd absent List.not_mem_nil⟩
    rw [same, List.append_nil]
  registered := registered

theorem refl (valid : base.Valide) : Augmente [] base base :=
  of_registry valid (.refl base) rfl fun _ _ _ declared => absurd declared not_declare_nil

theorem trans (first : Augmente lues base base') (second : Augmente lues' base' base'') :
    Augmente (lues ++ lues') base base'' where
  valid := second.valid
  pays row member := second.pays row (first.pays row member)
  registry bdd := by
    obtain ⟨rows, added, new⟩ := first.registry bdd
    obtain ⟨rows', added', new'⟩ := second.registry bdd
    refine ⟨rows ++ rows', by rw [added', added, List.append_assoc], fun row member => ?_⟩
    rcases List.mem_append.mp member with early | late
    · obtain ⟨country, inPays, linked, declared, unknown⟩ := new row early
      exact ⟨country, second.pays country inPays, linked, declare_append.mpr (.inl declared),
        unknown⟩
    · obtain ⟨country, inPays, linked, declared, unknown⟩ := new' row late
      exact ⟨country, inPays, linked, declare_append.mpr (.inr declared),
        fun i registered => unknown i (registered.mono first.contenue)⟩
  registered bdd nom pays declared := by
    rcases declare_append.mp declared with early | late
    · obtain ⟨i, registered⟩ := first.registered bdd nom pays early
      exact ⟨i, registered.mono second.contenue⟩
    · exact second.registered bdd nom pays late

/-- New instruments have countries. -/
theorem rattachee (more : Augmente lues base base') (attached : base.Rattachee) :
    base'.Rattachee := by
  refine ⟨more.valid, fun bdd row member => ?_⟩
  obtain ⟨rows, added, new⟩ := more.registry bdd
  rw [added] at member
  rcases List.mem_append.mp member with old | late
  · obtain ⟨country, inPays, linked⟩ := attached.country bdd row old
    exact ⟨country, more.pays country inPays, linked⟩
  · obtain ⟨country, inPays, linked, -⟩ := new row late
    exact ⟨country, inPays, linked⟩

end Augmente

theorem augmente_insertPays {base : Base δ} (valid : base.Valide) (pays : Text) :
    Augmente [] base ((sqlBase.insertPays pays base).getD base) :=
  .of_registry (valid.after_insertPays pays) (contenue_insertPays pays base)
    (registry_insertPays pays base) fun _ _ _ declared => absurd declared not_declare_nil

/-- A new instrument of a reading, after the statement for its country. -/
theorem augmente_ajouter {base base' : Base δ} (valid : base'.Valide) (more : Contenue base base')
    (same : base'.registry = base.registry) {bdd label : Text} {lecture : Lecture δ}
    {country : PaysRow} (inPays : country ∈ base'.pays)
    (valuePays : unquote lecture.pays = some country.nom)
    (valueNom : unquote lecture.nom = some label)
    (absent : (some country.id, label) ∉ (base'.registry bdd).map fun row => (row.pays, row.nom)) :
    Augmente [(bdd, lecture)] base (base'.ajouter bdd
      ⟨suivant ((base'.registry bdd).map RegistryRow.id), some country.id, label⟩) where
  valid := valid.after_ajouter absent
  pays := more.pays
  registry other := by
    by_cases here : other = bdd
    · subst here
      refine ⟨_, by rw [registry_ajouter_self, same], fun row member => ?_⟩
      rw [List.mem_singleton.mp member]
      refine ⟨country, inPays, rfl, declare_singleton.mpr ⟨rfl, valueNom, valuePays⟩, ?_⟩
      intro i registered
      obtain ⟨country', inPays', named, inRegistry⟩ := registered.mono more
      rw [eq_of_key valid.paysNoms inPays' inPays named] at inRegistry
      exact absent (List.mem_map_of_mem inRegistry)
    · refine ⟨[], ?_, fun _ impossible => absurd impossible List.not_mem_nil⟩
      rw [registry_ajouter_of_ne here, same, List.append_nil]
  registered other nom pays declared := by
    obtain ⟨rfl, unquotedNom, unquotedPays⟩ := declare_singleton.mp declared
    obtain rfl := Option.some.inj (valueNom.symm.trans unquotedNom)
    obtain rfl := Option.some.inj (valuePays.symm.trans unquotedPays)
    refine ⟨suivant ((base'.registry bdd).map RegistryRow.id), country, inPays, rfl, ?_⟩
    rw [registry_ajouter_self]
    exact List.mem_append_right _ List.mem_cons_self

/-- **The registrations of a line.** -/
theorem augmente_inscrire {base : Base δ} (valid : base.Valide) (site : Site)
    (lecture : Lecture δ) :
    Augmente [(site.bdd, lecture)] base (inscrire sqlBase site lecture base) := by
  have valid' := valid.after_insertPays lecture.pays
  have more := contenue_insertPays lecture.pays base
  have same := registry_insertPays lecture.pays base
  have present : ∀ name, unquote lecture.pays = some name →
      ∃ country ∈ ((sqlBase.insertPays lecture.pays base).getD base).pays, country.nom = name :=
    fun name value => exists_pays_after_insertPays value base
  rw [inscrire]
  generalize (sqlBase.insertPays lecture.pays base).getD base = base' at valid' more same present
  cases valuePays : unquote lecture.pays with
  | none =>
      have refused : sqlBase.insertIndice site.bdd lecture.pays lecture.nom base' = none := by
        simp [sqlBase, valuePays]
      rw [refused, Option.getD_none]
      refine .of_registry valid' more same fun bdd nom pays declared => ?_
      rw [declare_singleton, valuePays] at declared
      cases declared.2.2
  | some name =>
      cases valueNom : unquote lecture.nom with
      | none =>
          have refused : sqlBase.insertIndice site.bdd lecture.pays lecture.nom base' = none := by
            simp [sqlBase, valuePays, valueNom]
          rw [refused, Option.getD_none]
          refine .of_registry valid' more same fun bdd nom pays declared => ?_
          rw [declare_singleton, valueNom] at declared
          cases declared.2.1
      | some label =>
          obtain ⟨country, inPays, rfl⟩ := present name valuePays
          rcases insertIndice_cases valid' site.bdd valuePays valueNom inPays with
            ⟨unchanged, i, inRegistry⟩ | ⟨absent, added⟩
          · rw [unchanged]
            refine .of_registry valid' more same fun bdd nom pays declared => ?_
            obtain ⟨rfl, unquotedNom, unquotedPays⟩ := declare_singleton.mp declared
            obtain rfl := Option.some.inj (valueNom.symm.trans unquotedNom)
            obtain rfl := Option.some.inj (valuePays.symm.trans unquotedPays)
            exact ⟨i, country, inPays, rfl, inRegistry⟩
          · rw [added]
            exact augmente_ajouter valid' more same inPays valuePays valueNom absent

end Base

/-! ## The work on the sites -/

section Travaux

variable (parseDouble : Text → Option δ)

/-- The lines of a start-up page register its readings. -/
theorem augmente_recupLignes (site : Site) (lignes : List Ligne) :
    ∀ (panne : Option Nat) (carte : Carte δ) (base : Base δ), base.Valide →
      Base.Augmente
        ((site.inscritesLignes parseDouble lignes panne).map fun lecture => (site.bdd, lecture))
        base (recupLignes sqlBase parseDouble site lignes panne carte base).1 := by
  induction lignes with
  | nil => exact fun _ _ _ valid => .refl valid
  | cons ligne lignes ih =>
      intro panne carte base valid
      rw [Site.inscritesLignes]
      by_cases empty : eachText ligne = []
      · rw [recupLignes, if_pos empty, if_pos empty]
        exact ih panne carte base valid
      rw [if_neg empty]
      rcases recupLignes_cases sqlBase parseDouble site empty lignes panne carte base with
        ⟨lecture, read, notNow, continued⟩ | ⟨reason, base', reached, ended⟩
      · have first := Base.augmente_inscrire valid site lecture
        rw [continued, read]
        simp only [if_neg notNow]
        exact first.trans (ih (panne.map Nat.pred) (enregistrer carte lecture) _ first.valid)
      · have nothing : (match site.lire parseDouble ligne with
            | none => []
            | some lecture => if panne = some 0 then []
                else lecture :: site.inscritesLignes parseDouble lignes (panne.map Nat.pred)) =
            [] := by
          rcases reason with unread | now
          · rw [unread]
          · cases site.lire parseDouble ligne with
            | none => rfl
            | some lecture => exact if_pos now
        rw [ended, nothing]
        rcases reached with rfl | ⟨pays, -, rfl⟩
        · exact .refl valid
        · exact Base.augmente_insertPays valid pays

namespace Launcher

/-- The work on a site registers the readings of its page. -/
theorem augmente_recupSite (x : Nat) (site : Site) (acces : Acces) {l : Launcher (Base δ) δ}
    (valid : l.base.Valide) :
    Base.Augmente ((site.inscrites parseDouble acces).map fun lecture => (site.bdd, lecture))
      l.base (l.recupSite sqlBase parseDouble x site acces).base := by
  cases acces with
  | refus => exact .refl valid
  | silence => exact .refl valid
  | page page panne =>
      rw [Site.inscrites, recupSite]
      cases table : getAt site.table page with
      | none => exact .refl valid
      | some lignes =>
          have worked := augmente_recupLignes parseDouble site lignes panne (fun _ => none) l.base
            valid
          simp only
          split
          · rename_i base' result
            rwa [result] at worked
          · rename_i base' carte result
            rwa [result] at worked

/-- The work on some sites, one after the other. -/
def travailler {σ : Type} (sql : Sql σ δ) (parseDouble : Text → Option δ) (acces : Nat → Acces)
    (places : List (Site × Nat)) (l : Launcher σ δ) : Launcher σ δ :=
  places.foldl (fun l place => l.recupSite sql parseDouble place.2 place.1 (acces place.2)) l

theorem recupIndices_eq_travailler {σ : Type} (sql : Sql σ δ) (acces : Nat → Acces)
    (sites : List Site) : ∀ (x : Nat) (l : Launcher σ δ),
      l.recupIndices sql parseDouble acces x sites =
        l.travailler sql parseDouble acces (sites.zipIdx x) := by
  induction sites with
  | nil => exact fun _ _ => rfl
  | cons site sites ih =>
      intro x l
      rw [recupIndices, ih, List.zipIdx_cons]
      rfl

/-- Only the accesses to its own sites matter for the work. -/
theorem travailler_congr {σ : Type} {parseDouble : Text → Option δ} {sql : Sql σ δ}
    {acces acces' : Nat → Acces} {places : List (Site × Nat)}
    (same : ∀ place ∈ places, acces' place.2 = acces place.2) (l : Launcher σ δ) :
    l.travailler sql parseDouble acces' places = l.travailler sql parseDouble acces places :=
  List.foldl_ext _ _ l fun _ place member => by rw [same place member]

/-- **The work on some sites registers the readings of their pages.** -/
theorem augmente_travailler (acces : Nat → Acces) (places : List (Site × Nat)) :
    ∀ {l : Launcher (Base δ) δ}, l.base.Valide →
      Base.Augmente (inscritesDe parseDouble acces places) l.base
        (l.travailler sqlBase parseDouble acces places).base := by
  induction places with
  | nil => exact fun valid => .refl valid
  | cons place places ih =>
      intro l valid
      have first := augmente_recupSite parseDouble place.2 place.1 (acces place.2) valid
      exact first.trans (ih first.valid)

/-- **The start registers the readings of all pages.** -/
theorem augmente_demarrage (acces : Nat → Acces) (sites : List Site) {base : Base δ}
    (valid : base.Valide) :
    Base.Augmente (inscritesDe parseDouble acces sites.zipIdx) base
      (demarrage sqlBase parseDouble acces sites base).base := by
  rw [demarrage, recupIndices_eq_travailler]
  exact augmente_travailler parseDouble acces sites.zipIdx (l := ⟨[], [], base⟩) valid

end Launcher

end Travaux

/-! ## Lookups -/

/-- A country of a name in a category: the name is registered with it, or a reading declares it. -/
def Connu (base : Base δ) (lues : List (Text × Lecture δ)) (bdd nom pays : Text) : Prop :=
  (∃ i, base.Inscrit bdd nom pays i) ∨ Declare lues bdd nom pays

/-- A name has two countries in a category. -/
def Ambigu (base : Base δ) (lues : List (Text × Lecture δ)) (bdd nom : Text) : Prop :=
  ∃ pays pays', pays ≠ pays' ∧ Connu base lues bdd nom pays ∧ Connu base lues bdd nom pays'

namespace Base

/-- A name with two countries has no identifier. -/
theorem identifiant_of_two {base : Base δ} (valid : base.Valide) {bdd text nom pays pays' : Text}
    {i i' : Int} (value : unquote text = some nom) (first : base.Inscrit bdd nom pays i)
    (second : base.Inscrit bdd nom pays' i') (different : pays ≠ pays') :
    identifiant base.registry bdd text = none := by
  obtain ⟨country, inPays, rfl, inRegistry⟩ := first
  obtain ⟨country', inPays', rfl, inRegistry'⟩ := second
  have rows : ∀ id ∈ [i, i'], id ∈ ((base.registry bdd).filter fun row =>
      decide (row.nom = nom)).map RegistryRow.id := by
    intro id member
    rcases List.mem_pair.mp member with rfl | rfl
    · exact List.mem_map_of_mem (List.mem_filter.mpr ⟨inRegistry, decide_eq_true rfl⟩)
    · exact List.mem_map_of_mem (List.mem_filter.mpr ⟨inRegistry', decide_eq_true rfl⟩)
  have notSame : i ≠ i' := by
    rintro rfl
    have sameRow := eq_of_key (valid.ids bdd) inRegistry inRegistry' rfl
    simp only [RegistryRow.mk.injEq, Option.some.injEq, true_and, and_true] at sameRow
    exact different (congrArg PaysRow.nom (eq_of_key valid.paysIds inPays inPays' sameRow))
  simp only [identifiant, value, Option.bind_eq_bind, Option.bind_some]
  generalize ((base.registry bdd).filter fun row => decide (row.nom = nom)).map RegistryRow.id =
    ids at rows
  rcases ids with _ | ⟨id, _ | ⟨other, ids⟩⟩
  · exact absurd (rows i List.mem_cons_self) List.not_mem_nil
  · have isFirst := List.mem_singleton.mp (rows i List.mem_cons_self)
    have isSecond := List.mem_singleton.mp (rows i' (List.mem_cons_of_mem _ List.mem_cons_self))
    exact absurd (isFirst.trans isSecond.symm) notSame
  · rfl

/-- A name without an identifier has two countries, where every instrument has a country. -/
theorem exists_two_of_identifiant {base : Base δ} (attached : base.Rattachee) {bdd text nom : Text}
    (value : unquote text = some nom) (ambiguous : identifiant base.registry bdd text = none) :
    ∃ pays pays' i i', pays ≠ pays' ∧ base.Inscrit bdd nom pays i ∧
      base.Inscrit bdd nom pays' i' := by
  have unique : ((base.registry bdd).filter fun row => decide (row.nom = nom)).Nodup :=
    ((attached.noms bdd).of_map _).filter _
  have inside : ∀ row ∈ (base.registry bdd).filter fun row => decide (row.nom = nom),
      ∃ country ∈ base.pays, row.pays = some country.id ∧ row.nom = nom ∧
        row ∈ base.registry bdd := by
    intro row member
    obtain ⟨inRegistry, named⟩ := List.mem_filter.mp member
    obtain ⟨country, inPays, linked⟩ := attached.country bdd row inRegistry
    exact ⟨country, inPays, linked, of_decide_eq_true named, inRegistry⟩
  simp only [identifiant, value, Option.bind_eq_bind, Option.bind_some] at ambiguous
  generalize (base.registry bdd).filter (fun row => decide (row.nom = nom)) = rows at *
  rcases rows with _ | ⟨⟨i, _, _⟩, _ | ⟨⟨i', _, _⟩, rows⟩⟩
  · cases ambiguous
  · cases ambiguous
  · obtain ⟨country, inPays, rfl, rfl, inRegistry⟩ := inside _ List.mem_cons_self
    obtain ⟨country', inPays', rfl, rfl, inRegistry'⟩ :=
      inside _ (List.mem_cons_of_mem _ List.mem_cons_self)
    refine ⟨country.nom, country'.nom, i, i', fun same => ?_, ⟨country, inPays, rfl, inRegistry⟩,
      ⟨country', inPays', rfl, inRegistry'⟩⟩
    obtain rfl := eq_of_key attached.paysNoms inPays inPays' same
    have sameRow := eq_of_key (attached.noms bdd) inRegistry inRegistry' rfl
    rw [sameRow] at unique
    exact (List.nodup_cons.mp unique).1 List.mem_cons_self

namespace Augmente

variable {lues : List (Text × Lecture δ)} {base base' : Base δ} {bdd text nom pays : Text}

/-- A known country is registered. -/
theorem exists_inscrit (more : Augmente lues base base') (known : Connu base lues bdd nom pays) :
    ∃ i, base'.Inscrit bdd nom pays i := by
  rcases known with ⟨i, registered⟩ | declared
  · exact ⟨i, registered.mono more.contenue⟩
  · exact more.registered bdd nom pays declared

/-- A registered country is known. -/
theorem connu (more : Augmente lues base base') (attached : base.Rattachee) {i : Int}
    (registered : base'.Inscrit bdd nom pays i) : Connu base lues bdd nom pays := by
  obtain ⟨country, inPays, rfl, inRegistry⟩ := registered
  obtain ⟨rows, added, new⟩ := more.registry bdd
  rw [added] at inRegistry
  rcases List.mem_append.mp inRegistry with old | late
  · obtain ⟨country', inPays', linked⟩ := attached.country bdd _ old
    obtain rfl := eq_of_key more.valid.paysIds inPays (more.pays country' inPays')
      (Option.some.inj linked)
    exact .inl ⟨i, country, inPays', rfl, old⟩
  · obtain ⟨country', inPays', linked, declared, -⟩ := new _ late
    obtain rfl := eq_of_key more.valid.paysIds inPays inPays' (Option.some.inj linked)
    exact .inr declared

/-- **Without a new country of the name the lookup stays as it is.** -/
theorem identifiant_eq (more : Augmente lues base base') (value : unquote text = some nom)
    (known : ∀ pays, Declare lues bdd nom pays → ∃ i, base.Inscrit bdd nom pays i) :
    identifiant base'.registry bdd text = identifiant base.registry bdd text := by
  obtain ⟨rows, added, new⟩ := more.registry bdd
  have noneNamed : (rows.filter fun row => decide (row.nom = nom)) = [] := by
    rw [List.filter_eq_nil_iff]
    intro row member named
    obtain ⟨country, -, -, declared, unknown⟩ := new row member
    rw [of_decide_eq_true named] at declared unknown
    obtain ⟨i, registered⟩ := known country.nom declared
    exact unknown i registered
  simp only [identifiant, value, Option.bind_eq_bind, Option.bind_some, added, List.filter_append,
    noneNamed, List.append_nil]

/-- **With two countries the lookup fails.** -/
theorem identifiant_of_ambigu (more : Augmente lues base base') (value : unquote text = some nom)
    (ambiguous : Ambigu base lues bdd nom) : identifiant base'.registry bdd text = none := by
  obtain ⟨pays, pays', different, known, known'⟩ := ambiguous
  obtain ⟨i, registered⟩ := more.exists_inscrit known
  obtain ⟨i', registered'⟩ := more.exists_inscrit known'
  exact identifiant_of_two more.valid value registered registered' different

/-- The lookup of a name fails only with two countries. -/
theorem ambigu_of_identifiant (more : Augmente lues base base') (attached : base.Rattachee)
    (value : unquote text = some nom) (fails : identifiant base'.registry bdd text = none) :
    Ambigu base lues bdd nom := by
  obtain ⟨pays, pays', i, i', different, registered, registered'⟩ :=
    exists_two_of_identifiant (more.rattachee attached) value fails
  exact ⟨pays, pays', different, more.connu attached registered, more.connu attached registered'⟩

end Augmente

end Base

end Trading.Recup
