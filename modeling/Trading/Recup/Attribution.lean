import Trading.Recup.Registry

/-!
# Values and their instruments

Three notions of an instrument meet in the recorder: the key of a map is the concatenation of
name and country, a registration is a pair of country and name, and the identifier of a value is
looked up by the name alone. They agree in a run in which no name of a category has two
countries and no two instruments of a site have the same key (`Distincts`). In such a run each
changed value is stored under the identifier registered for exactly its instrument
(`each_value_has_its_own_id`).

Where a name has two countries, both instruments are registered and the lookup is ambiguous:
no change of either is ever stored. Where two instruments have the same key, the values of both
are compared with one object and stored under one name (`two_countries_or_one_key`).
-/

set_option autoImplicit false

namespace Trading.Recup

open Trading.Text

variable {δ : Type}

/-! ## What the pages show -/

/-- A page shows a reading in one of its lines. -/
def Site.montre (parseDouble : Text → Option δ) (site : Site) (page : Page) (lecture : Lecture δ) :
    Prop :=
  ∃ lignes, getAt site.table page = some lignes ∧
    ∃ ligne ∈ lignes, eachText ligne ≠ [] ∧ site.lire parseDouble ligne = some lecture

/-- A page that can be read shows its readings. -/
theorem Site.montre_iff {parseDouble : Text → Option δ} {site : Site} {page : Page}
    {lectures : List (Lecture δ)} (read : site.lirePage parseDouble page = some lectures)
    {lecture : Lecture δ} : site.montre parseDouble page lecture ↔ lecture ∈ lectures := by
  obtain ⟨lignes, table, readLignes⟩ := Option.bind_eq_some_iff.mp read
  rw [Site.mem_lireLignes readLignes]
  constructor
  · rintro ⟨lignes', table', shown⟩
    obtain rfl : lignes = lignes' := Option.some.inj (table.symm.trans table')
    exact shown
  · exact fun shown => ⟨lignes, table, shown⟩

section Pages

variable (parseDouble : Text → Option δ) (sites : List Site) (acces : Nat → Acces)

/-- The start-up page of a position shows a reading. -/
def MontreAuDepart (x : Nat) (lecture : Lecture δ) : Prop :=
  ∃ site page panne, sites[x]? = some site ∧ acces x = .page page panne ∧
    site.montre parseDouble page lecture

/-- A page that a round finds at a position shows a reading. -/
def MontreEnsuite (visites : List (Nat → Text → Option Page)) (x : Nat) (lecture : Lecture δ) :
    Prop :=
  ∃ visite ∈ visites, ∃ site url page, sites[x]? = some site ∧ visite x url = some page ∧
    site.montre parseDouble page lecture

/-- The start-up pages of a category show the instrument of a name and a country. -/
def Montre (bdd nom pays : Text) : Prop :=
  ∃ x site lecture, sites[x]? = some site ∧ site.bdd = bdd ∧
    MontreAuDepart parseDouble sites acces x lecture ∧ lecture.nom = nom ∧ lecture.pays = pays

/-- The three notions of an instrument agree on the pages of a run.
* `literal`: names and countries are the values of their quoted texts.
* `country` and `registered`: in a category, a name has one country, on the start-up pages and
  among the instruments registered before.
* `keys`: on a site, instruments with the same key are the same.
* `order`: no site that fails at the start stands before one that succeeds. -/
structure Distincts (visites : List (Nat → Text → Option Page)) (base : Base δ) : Prop where
  literal : ∀ x lecture, MontreAuDepart parseDouble sites acces x lecture →
    unquote lecture.nom = some lecture.nom ∧ unquote lecture.pays = some lecture.pays
  country : ∀ bdd nom pays pays', Montre parseDouble sites acces bdd nom pays →
    Montre parseDouble sites acces bdd nom pays' → pays = pays'
  registered : ∀ bdd nom pays, Montre parseDouble sites acces bdd nom pays →
    ∀ row ∈ base.registry bdd, row.nom = nom →
      ∃ country ∈ base.pays, country.nom = pays ∧ row.pays = some country.id
  keys : ∀ x lecture lecture', MontreAuDepart parseDouble sites acces x lecture →
    (MontreAuDepart parseDouble sites acces x lecture' ∨
      MontreEnsuite parseDouble sites visites x lecture') → lecture.cle = lecture'.cle →
      lecture.nom = lecture'.nom ∧ lecture.pays = lecture'.pays
  order : ∀ (y x : Nat) (other site : Site), y < x → sites[y]? = some other →
    sites[x]? = some site → (site.carteDepart parseDouble (acces x)).isSome = true →
      (other.carteDepart parseDouble (acces y)).isSome = true

end Pages

/-! ## The start -/

section Start

variable {parseDouble : Text → Option δ} {sites : List Site} {acces : Nat → Acces}

/-- What a position shows at the start is what the page of its site shows. -/
theorem montreAuDepart_iff {x : Nat} {site : Site} {page : Page} {panne : Option Nat}
    (found : sites[x]? = some site) (access : acces x = .page page panne) {lecture : Lecture δ} :
    MontreAuDepart parseDouble sites acces x lecture ↔ site.montre parseDouble page lecture := by
  constructor
  · rintro ⟨site', page', panne', found', access', shown⟩
    obtain rfl : site = site' := Option.some.inj (found.symm.trans found')
    obtain ⟨rfl, -⟩ : page = page' ∧ panne = panne' := Acces.page.inj (access.symm.trans access')
    exact shown
  · exact fun shown => ⟨site, page, panne, found, access, shown⟩

/-- The lines of a start-up page keep the tables faithful, and if there is no exception all
their instruments are registered. -/
theorem recupLignes_inscrit {shown : Text → Text → Text → Prop}
    (functional : ∀ bdd nom pays pays', shown bdd nom pays → shown bdd nom pays' → pays = pays')
    {site : Site} (lignes : List Ligne)
    (allShown : ∀ ligne ∈ lignes, eachText ligne ≠ [] → ∀ lecture : Lecture δ,
      site.lire parseDouble ligne = some lecture → shown site.bdd lecture.nom lecture.pays ∧
        unquote lecture.nom = some lecture.nom ∧ unquote lecture.pays = some lecture.pays) :
    ∀ (panne : Option Nat) (carte : Carte δ) (base : Base δ), base.Fidele shown →
      (recupLignes sqlBase parseDouble site lignes panne carte base).1.Fidele shown ∧
        base.Contenue (recupLignes sqlBase parseDouble site lignes panne carte base).1 ∧
        ((recupLignes sqlBase parseDouble site lignes panne carte base).2.isSome = true →
          ∀ ligne ∈ lignes, eachText ligne ≠ [] → ∀ lecture : Lecture δ,
            site.lire parseDouble ligne = some lecture →
              ∃ i, (recupLignes sqlBase parseDouble site lignes panne carte base).1.Inscrit
                site.bdd lecture.nom lecture.pays i) := by
  induction lignes with
  | nil =>
      exact fun _ _ base faithful =>
        ⟨faithful, .refl base, fun _ ligne absent => absurd absent List.not_mem_nil⟩
  | cons ligne lignes ih =>
      intro panne carte base faithful
      have later := ih fun other member => allShown other (List.mem_cons_of_mem _ member)
      by_cases empty : eachText ligne = []
      · rw [recupLignes, if_pos empty]
        obtain ⟨faithful', more, all⟩ := later panne carte base faithful
        refine ⟨faithful', more, fun succeeded other member texts => ?_⟩
        rcases List.mem_cons.mp member with rfl | inLater
        · exact absurd empty texts
        · exact all succeeded other inLater texts
      rcases recupLignes_cases sqlBase parseDouble site empty lignes panne carte base with
        ⟨lecture, read, -, continued⟩ | ⟨-, base', reached, ended⟩
      · obtain ⟨isShown, literalNom, literalPays⟩ :=
          allShown ligne List.mem_cons_self empty lecture read
        obtain ⟨faithful', more, i, registered⟩ :=
          faithful.after_inscrire functional isShown literalPays literalNom
        obtain ⟨final, more', all⟩ :=
          later (panne.map Nat.pred) (enregistrer carte lecture) _ faithful'
        rw [continued]
        refine ⟨final, more.trans more', fun succeeded other member texts other' readOther => ?_⟩
        rcases List.mem_cons.mp member with rfl | inLater
        · obtain rfl := Option.some.inj (read.symm.trans readOther)
          exact ⟨i, registered.mono more'⟩
        · exact all succeeded other inLater texts other' readOther
      · rw [ended]
        refine ⟨?_, ?_, fun succeeded => by cases succeeded⟩
        · rcases reached with rfl | ⟨pays, -, rfl⟩
          · exact faithful
          · exact faithful.after_insertPays pays
        · rcases reached with rfl | ⟨pays, -, rfl⟩
          · exact .refl _
          · exact Base.contenue_insertPays pays base

/-- The tables and the maps of the start: what a site that succeeded shows is registered. -/
structure Inscrits (parseDouble : Text → Option δ) (sites : List Site) (acces : Nat → Acces)
    (l : Launcher (Base δ) δ) : Prop where
  faithful : l.base.Fidele (Montre parseDouble sites acces)
  registered : ∀ place ∈ l.indices, ∀ lecture,
    MontreAuDepart parseDouble sites acces place.1 lecture →
    ∃ site i, sites[place.1]? = some site ∧ l.base.Inscrit site.bdd lecture.nom lecture.pays i

theorem Inscrits.more {l l' : Launcher (Base δ) δ} (registered : Inscrits parseDouble sites acces l)
    (faithful : l'.base.Fidele (Montre parseDouble sites acces)) (more : l.base.Contenue l'.base)
    (sameMaps : l'.indices = l.indices) : Inscrits parseDouble sites acces l' := by
  refine ⟨faithful, fun place member lecture isShown => ?_⟩
  rw [sameMaps] at member
  obtain ⟨site, i, found, inTable⟩ := registered.registered place member lecture isShown
  exact ⟨site, i, found, inTable.mono more⟩

variable {visites : List (Nat → Text → Option Page)} {base : Base δ}

/-- The work on a site keeps the registrations. -/
theorem Inscrits.after_recupSite (distinct : Distincts parseDouble sites acces visites base)
    {l : Launcher (Base δ) δ} (registered : Inscrits parseDouble sites acces l) {x : Nat}
    {site : Site} (found : sites[x]? = some site) :
    Inscrits parseDouble sites acces (l.recupSite sqlBase parseDouble x site (acces x)) := by
  cases access : acces x with
  | refus => exact registered
  | silence => exact registered.more registered.faithful (.refl _) rfl
  | page page panne =>
      rw [Launcher.recupSite]
      cases table : getAt site.table page with
      | none => exact registered.more registered.faithful (.refl _) rfl
      | some lignes =>
          have allShown : ∀ ligne ∈ lignes, eachText ligne ≠ [] → ∀ lecture,
              site.lire parseDouble ligne = some lecture →
                Montre parseDouble sites acces site.bdd lecture.nom lecture.pays ∧
                  unquote lecture.nom = some lecture.nom ∧
                  unquote lecture.pays = some lecture.pays :=
            fun ligne member texts lecture read =>
              have isShown := (montreAuDepart_iff found access).mpr
                ⟨lignes, table, ligne, member, texts, read⟩
              ⟨⟨x, site, lecture, found, rfl, isShown, rfl, rfl⟩,
                distinct.literal x lecture isShown⟩
          obtain ⟨faithful, more, all⟩ := recupLignes_inscrit distinct.country lignes allShown panne
            (fun _ => none) l.base registered.faithful
          simp only
          split
          · rename_i base' result
            rw [result] at faithful more
            exact registered.more faithful more rfl
          · rename_i base' carte result
            rw [result] at faithful more all
            refine ⟨faithful, fun place member lecture isShown => ?_⟩
            rcases List.mem_append.mp member with before | here
            · obtain ⟨site', i, found', inTable⟩ :=
                registered.registered place before lecture isShown
              exact ⟨site', i, found', inTable.mono more⟩
            · obtain rfl := List.mem_singleton.mp here
              obtain ⟨lignes', table', ligne, inLignes, texts, read⟩ :=
                (montreAuDepart_iff found access).mp isShown
              obtain rfl : lignes = lignes' := Option.some.inj (table.symm.trans table')
              obtain ⟨i, inTable⟩ := all rfl ligne inLignes texts lecture read
              exact ⟨site, i, found, inTable⟩

/-- **After the start, what every site that succeeded shows is registered.** -/
theorem inscrits_demarrage (valid : base.Valide)
    (distinct : Distincts parseDouble sites acces visites base) :
    Inscrits parseDouble sites acces (Launcher.demarrage sqlBase parseDouble acces sites base) :=
  Launcher.recupIndices_rule
    (fun _ _ _ found registered => registered.after_recupSite distinct found)
    sites 0 _ rfl ⟨⟨valid, distinct.registered⟩, fun _ absent => absurd absent List.not_mem_nil⟩

end Start

/-! ## The rounds -/

section Rounds

variable {parseDouble : Text → Option δ} {sites : List Site} {acces : Nat → Acces}

/-- The objects of a map at a position stand for instruments that its start-up page shows, which
are registered. -/
def Suivie (parseDouble : Text → Option δ) (sites : List Site) (acces : Nat → Acces)
    (debut : Base δ) (x : Nat) (carte : Carte δ) : Prop :=
  ∀ cle indice, carte cle = some indice → ∃ lecture site i,
    MontreAuDepart parseDouble sites acces x lecture ∧ lecture.cle = cle ∧
      indice.nom = lecture.nom ∧ sites[x]? = some site ∧
      debut.Inscrit site.bdd lecture.nom lecture.pays i

/-- A handled line belongs to the object of its own instrument, and if its value is new it is
stored under the identifier of this instrument, which no other instrument has. -/
def Attribue (debut : Base δ) (site : Site) (releve : Releve δ) : Prop :=
  releve.indice.nom = releve.lecture.nom ∧
    (releve.indice.last ≠ releve.lecture.val → ∃ i, releve.insertion = .faite (some i) ∧
      debut.Inscrit site.bdd releve.lecture.nom releve.lecture.pays i ∧
      ∀ nom pays, debut.Inscrit site.bdd nom pays i →
        nom = releve.lecture.nom ∧ pays = releve.lecture.pays)

theorem Suivie.noter {debut : Base δ} {x : Nat} {carte : Carte δ}
    (tracked : Suivie parseDouble sites acces debut x carte) {lecture : Lecture δ}
    {indice : Indice δ} (found : carte lecture.cle = some indice) :
    Suivie parseDouble sites acces debut x (noter lecture indice carte) := by
  intro cle object there
  by_cases sameKey : cle = lecture.cle
  · rw [sameKey, Recup.noter, Function.update_self, Option.some.injEq] at there
    rw [sameKey, ← there]
    exact tracked lecture.cle indice found
  · rw [Recup.noter, Function.update_of_ne sameKey] at there
    exact tracked cle object there

/-- The countries, the registries and the maps during the rounds. -/
structure EnCours (parseDouble : Text → Option δ) (sites : List Site) (acces : Nat → Acces)
    (debut : Base δ) (l : Launcher (Base δ) δ) : Prop where
  pays : l.base.pays = debut.pays
  registry : l.base.registry = debut.registry
  maps : ∀ x origine carte, l.indices[x]? = some (origine, carte) →
    Suivie parseDouble sites acces debut x carte

variable {debut : Base δ} {visites : List (Nat → Text → Option Page)} {base : Base δ}

/-- The map of a position is that of the readings that its start-up page shows. -/
theorem carte_of_indices (distinct : Distincts parseDouble sites acces visites base)
    {x origine : Nat} {carte : Carte δ}
    (there : (Launcher.demarrage sqlBase parseDouble acces sites base).indices[x]? =
      some (origine, carte)) :
    origine = x ∧ ∃ lectures, carte = carteDe lectures ∧
      ∀ lecture, lecture ∈ lectures ↔ MontreAuDepart parseDouble sites acces x lecture := by
  obtain rfl := Launcher.demarrage_aligned distinct.order there
  obtain ⟨site, found, started⟩ := Launcher.carteDepart_of_mem_indices (List.mem_of_getElem? there)
  obtain ⟨page, panne, lectures, access, read, built⟩ := Site.carteDepart_eq_some started
  refine ⟨rfl, lectures, built, fun lecture => ?_⟩
  rw [montreAuDepart_iff found access, Site.montre_iff read]

/-- After the start, the maps at their positions track what the start-up pages show. -/
theorem enCours_demarrage (valid : base.Valide)
    (distinct : Distincts parseDouble sites acces visites base) :
    EnCours parseDouble sites acces (Launcher.demarrage sqlBase parseDouble acces sites base).base
      (Launcher.demarrage sqlBase parseDouble acces sites base) := by
  refine ⟨rfl, rfl, fun x origine carte there cle indice object => ?_⟩
  obtain ⟨rfl, lectures, rfl, onPage⟩ := carte_of_indices distinct there
  obtain ⟨lecture, inLectures, sameKey, rfl⟩ := carteDe_eq_some object
  have isShown := (onPage lecture).mp inLectures
  obtain ⟨site, i, found, inTable⟩ := (inscrits_demarrage valid distinct).registered _
    (List.mem_of_getElem? there) lecture isShown
  exact ⟨lecture, site, i, isShown, sameKey, rfl, found, inTable⟩

/-- The map of a position has an object of its own name for each reading that its start-up page
shows. -/
theorem exists_object (distinct : Distincts parseDouble sites acces visites base) {x origine : Nat}
    {carte : Carte δ}
    (there : (Launcher.demarrage sqlBase parseDouble acces sites base).indices[x]? =
      some (origine, carte)) {lecture : Lecture δ}
    (isShown : MontreAuDepart parseDouble sites acces x lecture) :
    ∃ last, carte lecture.cle = some ⟨last, lecture.nom⟩ := by
  obtain ⟨-, lectures, rfl, onPage⟩ := carte_of_indices distinct there
  obtain ⟨indice, object⟩ :=
    Option.isSome_iff_exists.mp (isSome_carteDe ((onPage lecture).mpr isShown))
  obtain ⟨other, inLectures, sameKey, rfl⟩ := carteDe_eq_some object
  obtain ⟨sameNom, -⟩ := distinct.keys x other lecture ((onPage other).mp inLectures) (.inl isShown)
    sameKey
  exact ⟨other.val, by rw [object, sameNom]⟩

variable [DecidableEq δ]

/-- A new value is stored under the identifier of its instrument. -/
theorem Indice.addVal_inscrit {shown : Text → Text → Text → Prop} {base : Base δ}
    (faithful : base.Fidele shown) {bdd pays : Text} {indice : Indice δ} {i : Int}
    (isShown : shown bdd indice.nom pays) (registered : base.Inscrit bdd indice.nom pays i)
    (literal : unquote indice.nom = some indice.nom) (d : δ) (type : Text) :
    (indice.last ≠ d → (indice.addVal sqlBase d type bdd base).2.2 = .faite (some i)) ∧
      (indice.addVal sqlBase d type bdd base).2.1.pays = base.pays ∧
      (indice.addVal sqlBase d type bdd base).2.1.registry = base.registry := by
  obtain ⟨base', stored, samePays, sameRegistry⟩ :=
    Base.insertVal_inscrit faithful isShown registered literal type d
  unfold Indice.addVal
  split
  · rw [stored]
    exact ⟨fun _ => rfl, samePays, sameRegistry⟩
  · rename_i same
    exact ⟨fun different => absurd different same, rfl, rfl⟩

/-- During the rounds a map tracks its page, and the countries and the registries are those of
the start. -/
structure Courante (parseDouble : Text → Option δ) (sites : List Site) (acces : Nat → Acces)
    (debut : Base δ) (x : Nat) (carte : Carte δ) (courante : Base δ) : Prop where
  pays : courante.pays = debut.pays
  registry : courante.registry = debut.registry
  tracked : Suivie parseDouble sites acces debut x carte

/-- **A handled line is attributed to its instrument.** -/
theorem Courante.after_line (distinct : Distincts parseDouble sites acces visites base)
    (faithful : debut.Fidele (Montre parseDouble sites acces)) {x : Nat} {site : Site}
    (found : sites[x]? = some site) {carte : Carte δ} {courante : Base δ}
    (current : Courante parseDouble sites acces debut x carte courante) {lecture : Lecture δ}
    (shown : MontreEnsuite parseDouble sites visites x lecture) {indice : Indice δ}
    (object : carte lecture.cle = some indice) :
    Courante parseDouble sites acces debut x (noter lecture indice carte)
        (indice.addVal sqlBase lecture.val site.type site.bdd courante).2.1 ∧
      Attribue debut site
        ⟨lecture, indice, (indice.addVal sqlBase lecture.val site.type site.bdd courante).2.2⟩ := by
  obtain ⟨first, site', i, atStart, sameKey, named, found', registered⟩ :=
    current.tracked lecture.cle indice object
  obtain rfl : site = site' := Option.some.inj (found.symm.trans found')
  -- the object was made for a line with this key, so for this instrument
  obtain ⟨sameNom, samePays⟩ := distinct.keys x first lecture atStart (.inr shown) sameKey
  have isShown : Montre parseDouble sites acces site.bdd indice.nom first.pays :=
    ⟨x, site, first, found, rfl, atStart, named.symm, rfl⟩
  have literal : unquote indice.nom = some indice.nom := by
    rw [named]
    exact (distinct.literal x first atStart).1
  have registeredNow : courante.Inscrit site.bdd indice.nom first.pays i := by
    rw [named]
    exact registered.mono
      ⟨fun _ member => current.pays ▸ member, fun _ _ member => current.registry ▸ member⟩
  obtain ⟨stored, pays, registry⟩ := Indice.addVal_inscrit
    (faithful.of_same current.pays current.registry) isShown registeredNow literal lecture.val
    site.type
  refine ⟨⟨pays.trans current.pays, registry.trans current.registry, current.tracked.noter object⟩,
    named.trans sameNom, fun changed => ⟨i, stored changed, ?_, ?_⟩⟩
  · rw [← sameNom, ← samePays]
    exact registered
  · intro nom country other
    rw [← sameNom, ← samePays]
    exact other.unique faithful.toValide registered

/-- A poll keeps them, and attributes its lines. -/
theorem EnCours.after_poll (distinct : Distincts parseDouble sites acces visites base)
    (faithful : debut.Fidele (Montre parseDouble sites acces)) {l : Launcher (Base δ) δ}
    (running : EnCours parseDouble sites acces debut l) {x : Nat} {site : Site}
    (found : sites[x]? = some site) {visite : Nat → Text → Option Page}
    (visited : visite ∈ visites) :
    EnCours parseDouble sites acces debut (l.poll sqlBase parseDouble x site (visite x)).1 ∧
      ∀ releve ∈ (l.poll sqlBase parseDouble x site (visite x)).2, Attribue debut site releve := by
  rcases Launcher.poll_cases sqlBase parseDouble x site (visite x) l with
    nothing | ⟨url, origine, carte, lignes, here, fetched, polled⟩
  · rw [nothing]
    exact ⟨running, fun _ absent => absurd absent List.not_mem_nil⟩
  obtain ⟨page, onPage, table⟩ := Option.bind_eq_some_iff.mp fetched
  have current : Courante parseDouble sites acces debut x carte l.base :=
    ⟨running.pays, running.registry, running.maps x origine carte here.indices⟩
  obtain ⟨⟨pays, registry, tracked⟩, attributed⟩ := boucle_rule sqlBase parseDouble lignes
    (fun ligne member texts lecture indice _ _ read object current =>
      current.after_line distinct faithful found
        ⟨visite, visited, site, url, page, found, onPage, lignes, table, ligne, member, texts, read⟩
        object) carte l.base current
  rw [polled]
  refine ⟨⟨pays, registry, fun y origine' carte' there => ?_⟩, attributed⟩
  by_cases same : x = y
  · subst same
    rw [List.getElem?_set_self (List.getElem?_eq_some_iff.mp here.indices).1, Option.some.injEq,
      Prod.mk.injEq] at there
    rw [← there.2]
    exact tracked
  · rw [List.getElem?_set_ne same] at there
    exact running.maps y origine' carte' there

end Rounds

/-! ## Runs -/

/-- Tables without rows. -/
def emptyBase : Base Int := ⟨[], fun _ => [], fun _ => []⟩

theorem emptyBase_valide : emptyBase.Valide :=
  ⟨List.nodup_nil, List.nodup_nil, fun _ => List.nodup_nil, fun _ => List.nodup_nil⟩

/-- A site of raw materials. -/
def materialsSite : Site :=
  ⟨"real-time-futures".toList, "matieresvals".toList, "0".toList, "0".toList, "1".toList,
    "2".toList, "matieres".toList⟩

/-- The recorder after its start with one page of raw materials. -/
def materialsStart (depart : Page) : Launcher (Base Int) Int :=
  Launcher.demarrage sqlBase parseInt (fun _ => .page depart none) [materialsSite] emptyBase

/-- The lines that it handles in one round. -/
def materialsRound (depart ensuite : Page) : List (List (Nat × Releve Int)) :=
  ((materialsStart depart).loopVals sqlBase parseInt (fun _ base => base) [materialsSite] 0
    [fun _ _ => some ensuite]).2

/-- The access to a page of two metals at the start. -/
def metalsAcces : Nat → Acces := fun _ => .page (metalsPage "7".toList "5".toList) none

/-- A round that finds new values of both instruments. -/
def metalsVisites : List (Nat → Text → Option Page) :=
  [fun _ _ => some (metalsPage "8".toList "6".toList)]

theorem lirePage_metalsPage :
    materialsSite.lirePage parseInt (metalsPage "7".toList "5".toList) =
        some [⟨"Gold".toList, "Japan".toList, 7⟩, ⟨"Silver".toList, "France".toList, 5⟩] ∧
      materialsSite.lirePage parseInt (metalsPage "8".toList "6".toList) =
        some [⟨"Gold".toList, "Japan".toList, 8⟩, ⟨"Silver".toList, "France".toList, 6⟩] := by
  decide +kernel

/-- The two instruments are all that the pages show. -/
theorem shown_metalsPage {x : Nat} {lecture : Lecture Int}
    (shown : MontreAuDepart parseInt [materialsSite] metalsAcces x lecture ∨
      MontreEnsuite parseInt [materialsSite] metalsVisites x lecture) :
    lecture.nom = "Gold".toList ∧ lecture.pays = "Japan".toList ∨
      lecture.nom = "Silver".toList ∧ lecture.pays = "France".toList := by
  obtain ⟨first, later⟩ := lirePage_metalsPage
  rcases shown with ⟨site, page, panne, found, access, shown⟩ | ⟨visite, visited, site, url, page,
    found, onPage, shown⟩
  · obtain rfl := List.mem_singleton.mp (List.mem_of_getElem? found)
    obtain ⟨rfl, -⟩ := Acces.page.inj access
    rcases List.mem_pair.mp ((Site.montre_iff first).mp shown) with rfl | rfl
    · exact .inl ⟨rfl, rfl⟩
    · exact .inr ⟨rfl, rfl⟩
  · obtain rfl := List.mem_singleton.mp (List.mem_of_getElem? found)
    obtain rfl := List.mem_singleton.mp visited
    obtain rfl := Option.some.inj onPage
    rcases List.mem_pair.mp ((Site.montre_iff later).mp shown) with rfl | rfl
    · exact .inl ⟨rfl, rfl⟩
    · exact .inr ⟨rfl, rfl⟩

theorem distincts_metalsPage :
    Distincts parseInt [materialsSite] metalsAcces metalsVisites emptyBase where
  literal x lecture shown := by
    rcases shown_metalsPage (.inl shown) with ⟨nom, pays⟩ | ⟨nom, pays⟩ <;> rw [nom, pays] <;>
      decide
  country bdd nom pays pays' := by
    rintro ⟨_, _, lecture, _, _, shown, rfl, rfl⟩ ⟨_, _, lecture', _, _, shown', sameNom, rfl⟩
    rcases shown_metalsPage (.inl shown) with ⟨nom, pays⟩ | ⟨nom, pays⟩ <;>
      rcases shown_metalsPage (.inl shown') with ⟨nom', pays'⟩ | ⟨nom', pays'⟩ <;>
      rw [nom, nom'] at sameNom <;> rw [pays, pays'] <;> revert sameNom <;> decide
  registered bdd nom pays _ row absent := absurd absent List.not_mem_nil
  keys x lecture lecture' shown shown' sameKey := by
    rw [Lecture.cle, Lecture.cle] at sameKey
    rcases shown_metalsPage (.inl shown) with ⟨nom, pays⟩ | ⟨nom, pays⟩ <;>
      rcases shown_metalsPage shown' with ⟨nom', pays'⟩ | ⟨nom', pays'⟩ <;>
      rw [nom, nom', pays, pays'] at sameKey ⊢ <;> revert sameKey <;> decide
  order y x other site _ found _ _ := by
    obtain rfl := List.mem_singleton.mp (List.mem_of_getElem? found)
    show (materialsSite.carteDepart parseInt (metalsAcces 0)).isSome = true
    decide +kernel

end Trading.Recup
