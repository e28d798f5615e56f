import Trading.Recup.SharedTables

/-!
# The rows of a page and their neighbours

The rows of a polled page are handled one after the other inside one `try`, so a row that
cannot be read, or whose instrument is not in the map of the site, ends the work on the page:
the rows below it are not handled. `rows_independent_iff` says when this does not matter: the
values recorded from a page are those of the page without its other rows, if and only if each
good row below the first bad one shows the value that its object has anyway.
-/

set_option autoImplicit false

namespace Trading.Recup

open Trading.Text

variable {σ δ : Type}

/-! ## Good and bad rows -/

/-- A row that can be read, of an instrument of the map. -/
def bonne (parseDouble : Text → Option δ) (site : Site) (carte : Carte δ) (ligne : Ligne) : Bool :=
  match site.lire parseDouble ligne with
  | some lecture => (carte lecture.cle).isSome
  | none => false

/-- A row with texts that is not good: an exception ends the work on the page. -/
def mauvaise (parseDouble : Text → Option δ) (site : Site) (carte : Carte δ) (ligne : Ligne) :
    Bool :=
  decide (eachText ligne ≠ []) && !bonne parseDouble site carte ligne

/-- The page without the rows that are not good. -/
def Page.nettoyer (parseDouble : Text → Option δ) (site : Site) (carte : Carte δ) (page : Page) :
    Page :=
  page.map fun lignes => lignes.filter (bonne parseDouble site carte)

/-- The handled lines that caused a statement, with its outcome. -/
def enregistrees (releves : List (Releve δ)) : List (Releve δ) :=
  releves.filter fun releve => decide (releve.insertion ≠ .aucune)

/-- The last value of a key after some rows: that of its last row, or that of its object. -/
def derniere (parseDouble : Text → Option δ) (site : Site) (carte : Carte δ) (lignes : List Ligne)
    (cle : Text) : Option δ :=
  (valeursDe cle (lignes.filterMap (site.lire parseDouble))).getLast?.or
    ((carte cle).map Indice.last)

/-- The rows above the first bad one. -/
def dessus (parseDouble : Text → Option δ) (site : Site) (carte : Carte δ) (lignes : List Ligne) :
    List Ligne :=
  lignes.takeWhile fun ligne => !mauvaise parseDouble site carte ligne

/-- The rows from the first bad one on. -/
def dessous (parseDouble : Text → Option δ) (site : Site) (carte : Carte δ) (lignes : List Ligne) :
    List Ligne :=
  lignes.dropWhile fun ligne => !mauvaise parseDouble site carte ligne

/-- Each good row below the first bad one shows the last value of its key. -/
def RienDessous (parseDouble : Text → Option δ) (site : Site) (carte : Carte δ)
    (lignes : List Ligne) : Prop :=
  ∀ ligne ∈ dessous parseDouble site carte lignes, bonne parseDouble site carte ligne = true →
    ∀ lecture, site.lire parseDouble ligne = some lecture →
      derniere parseDouble site carte (dessus parseDouble site carte lignes) lecture.cle =
        some lecture.val

variable {parseDouble : Text → Option δ} {site : Site} {carte : Carte δ} {ligne : Ligne}
  {lecture : Lecture δ} {indice : Indice δ}

/-- A row without texts cannot be read. -/
theorem eachText_ne_nil_of_lire (read : site.lire parseDouble ligne = some lecture) :
    eachText ligne ≠ [] := by
  intro empty
  have value := (Site.lire_eq_some.mp read).2.2
  rw [Site.lireVal, empty] at value
  simp only [getAt, Option.bind_eq_bind, Option.bind_eq_some_iff] at value
  obtain ⟨text, ⟨i, -, found⟩, -⟩ := value
  split at found
  · cases found
  · rw [List.getElem?_nil] at found
    cases found

theorem bonne_iff : bonne parseDouble site carte ligne = true ↔
    ∃ lecture indice, site.lire parseDouble ligne = some lecture ∧
      carte lecture.cle = some indice := by
  unfold bonne
  cases read : site.lire parseDouble ligne with
  | none => simp
  | some lecture => simp [Option.isSome_iff_exists]

/-- A handled row leaves the keys of the map as they are. -/
theorem bonne_noter (found : carte lecture.cle = some indice) :
    bonne parseDouble site (noter lecture indice carte) = bonne parseDouble site carte := by
  funext ligne
  unfold bonne
  cases site.lire parseDouble ligne with
  | none => rfl
  | some other =>
      by_cases sameKey : other.cle = lecture.cle
      · simp only [sameKey, noter, Function.update_self, found, Option.isSome_some]
      · simp only [noter, Function.update_of_ne sameKey]

theorem mauvaise_of_bonne {carte' : Carte δ}
    (same : bonne parseDouble site carte' = bonne parseDouble site carte) :
    mauvaise parseDouble site carte' = mauvaise parseDouble site carte := by
  funext ligne
  rw [mauvaise, same, mauvaise]

theorem dessus_append_dessous (lignes : List Ligne) :
    dessus parseDouble site carte lignes ++ dessous parseDouble site carte lignes = lignes :=
  List.takeWhile_append_dropWhile

theorem mauvaise_of_mem_dessus {lignes : List Ligne}
    (member : ligne ∈ dessus parseDouble site carte lignes) :
    mauvaise parseDouble site carte ligne = false := by
  simpa using List.mem_takeWhile_imp member

/-- Below there is nothing, or a bad row comes first. -/
theorem dessous_cases (parseDouble : Text → Option δ) (site : Site) (carte : Carte δ)
    (lignes : List Ligne) :
    dessous parseDouble site carte lignes = [] ∨
      ∃ fautive apres, dessous parseDouble site carte lignes = fautive :: apres ∧
        mauvaise parseDouble site carte fautive = true := by
  cases rest : dessous parseDouble site carte lignes with
  | nil => exact .inl rfl
  | cons fautive apres =>
      have first := List.head?_dropWhile_not
        (fun ligne => !mauvaise parseDouble site carte ligne) lignes
      rw [← dessous, rest] at first
      exact .inr ⟨fautive, apres, rfl, by simpa using first⟩

theorem enregistrees_append (first second : List (Releve δ)) :
    enregistrees (first ++ second) = enregistrees first ++ enregistrees second :=
  List.filter_append first second

/-- A value that an object has changes nothing. -/
theorem noter_self (found : carte lecture.cle = some indice) (same : indice.last = lecture.val) :
    noter lecture indice carte = carte := by
  rw [noter, ← same, ← found, Function.update_eq_self]

theorem getAt_map {A B : Type} (f : A → B) (position : Text) (list : List A) :
    getAt position (list.map f) = (getAt position list).map f := by
  unfold getAt
  cases parseInt position with
  | none => rfl
  | some i =>
      simp only [Option.bind_eq_bind, Option.bind_some, List.getElem?_map]
      split <;> rfl

/-- A page without its other rows has the table without them. -/
theorem bind_nettoyer (carte : Carte δ) (page : Option Page) :
    (page.map (Page.nettoyer parseDouble site carte)).bind (getAt site.table) =
      (page.bind (getAt site.table)).map fun lignes =>
        lignes.filter (bonne parseDouble site carte) := by
  cases page with
  | none => rfl
  | some page => exact getAt_map _ site.table page

/-- Without a map no row is good. -/
theorem rienDessous_of_no_map {l : Launcher σ δ} {x : Nat} (noMap : l.indices[x]? = none)
    (lignes : List Ligne) : RienDessous parseDouble site (l.cartes x) lignes := by
  intro ligne _ isGood
  obtain ⟨lecture, indice, -, found⟩ := bonne_iff.mp isGood
  rw [Launcher.cartes, noMap, Option.map_none, Option.getD_none] at found
  cases found

/-- The map of a site is the one at its position. -/
theorem at_cartes {l : Launcher σ δ} {x : Nat} {url : Text} {place : Nat × Carte δ}
    (conn : l.conn[x]? = some url) (entry : l.indices[x]? = some place) :
    l.At x url place.1 (l.cartes x) := by
  refine ⟨conn, ?_⟩
  rw [Launcher.cartes, entry, Option.map_some, Option.getD_some]

section Rows

variable [DecidableEq δ] {sql : Sql σ δ} {base : σ} {lignes : List Ligne}

/-! ## One row -/

theorem boucle_vide (empty : eachText ligne = []) :
    boucle sql parseDouble site (ligne :: lignes) carte base =
      boucle sql parseDouble site lignes carte base := by
  rw [boucle, if_pos empty]

theorem boucle_bonne (read : site.lire parseDouble ligne = some lecture)
    (found : carte lecture.cle = some indice) :
    boucle sql parseDouble site (ligne :: lignes) carte base =
      let added := indice.addVal sql lecture.val site.type site.bdd base
      let rest := boucle sql parseDouble site lignes (noter lecture indice carte) added.2.1
      (rest.1, rest.2.1, ⟨lecture, indice, added.2.2⟩ :: rest.2.2) := by
  have handled : relever sql site lecture carte base = some (noter lecture indice carte,
      (indice.addVal sql lecture.val site.type site.bdd base).2.1,
      ⟨lecture, indice, (indice.addVal sql lecture.val site.type site.bdd base).2.2⟩) :=
    (relever_eq_some sql).mpr ⟨indice, found, rfl, rfl, rfl⟩
  rw [boucle, if_neg (eachText_ne_nil_of_lire read), read]
  simp only [handled]

theorem boucle_mauvaise (bad : mauvaise parseDouble site carte ligne = true) :
    boucle sql parseDouble site (ligne :: lignes) carte base = (carte, base, []) := by
  simp only [mauvaise, Bool.and_eq_true, decide_eq_true_eq, Bool.not_eq_true',
    ← Bool.not_eq_true] at bad
  obtain ⟨texts, notGood⟩ := bad
  rw [boucle, if_neg texts]
  cases read : site.lire parseDouble ligne with
  | none => rfl
  | some lecture =>
      have unknown : carte lecture.cle = none := by
        by_contra known
        obtain ⟨indice, found⟩ := Option.ne_none_iff_exists'.mp known
        exact notGood (bonne_iff.mpr ⟨lecture, indice, read, found⟩)
      simp only [(relever_eq_none sql).mpr unknown]

/-! ## Rows without a bad one -/

/-- Rows of which none is bad, with a map and a database that they are handled on. -/
inductive Bonnes (sql : Sql σ δ) (parseDouble : Text → Option δ) (site : Site) :
    List Ligne → Carte δ → σ → Prop
  | nil (carte : Carte δ) (base : σ) : Bonnes sql parseDouble site [] carte base
  | vide {lignes : List Ligne} {carte : Carte δ} {base : σ} (ligne : Ligne)
      (empty : eachText ligne = []) (later : Bonnes sql parseDouble site lignes carte base) :
      Bonnes sql parseDouble site (ligne :: lignes) carte base
  | lue {lignes : List Ligne} {carte : Carte δ} {base : σ} (ligne : Ligne)
      (lecture : Lecture δ) (indice : Indice δ) (read : site.lire parseDouble ligne = some lecture)
      (found : carte lecture.cle = some indice)
      (later : Bonnes sql parseDouble site lignes (noter lecture indice carte)
        (indice.addVal sql lecture.val site.type site.bdd base).2.1) :
      Bonnes sql parseDouble site (ligne :: lignes) carte base

theorem bonnes_of_forall (sql : Sql σ δ) (lignes : List Ligne) (carte : Carte δ) (base : σ)
    (good : ∀ ligne ∈ lignes, mauvaise parseDouble site carte ligne = false) :
    Bonnes sql parseDouble site lignes carte base := by
  induction lignes generalizing carte base with
  | nil => exact .nil carte base
  | cons ligne lignes ih =>
      have later := fun other member => good other (List.mem_cons_of_mem _ member)
      by_cases empty : eachText ligne = []
      · exact .vide ligne empty (ih carte base later)
      · have isGood : bonne parseDouble site carte ligne = true := by
          simpa [mauvaise, empty] using good ligne List.mem_cons_self
        obtain ⟨lecture, indice, read, found⟩ := bonne_iff.mp isGood
        apply Bonnes.lue ligne lecture indice read found
        apply ih
        rw [mauvaise_of_bonne (bonne_noter found)]
        exact later

variable {avant : List Ligne}

/-- The rows before the first bad one are handled, and then the others. -/
theorem Bonnes.boucle_append (rows : Bonnes sql parseDouble site avant carte base)
    (suite : List Ligne) :
    boucle sql parseDouble site (avant ++ suite) carte base =
      let reached := boucle sql parseDouble site avant carte base
      let rest := boucle sql parseDouble site suite reached.1 reached.2.1
      (rest.1, rest.2.1, reached.2.2 ++ rest.2.2) := by
  induction rows with
  | nil => rfl
  | vide ligne empty later ih => rw [List.cons_append, boucle_vide empty, boucle_vide empty, ih]
  | lue ligne lecture indice read found later ih =>
      rw [List.cons_append, boucle_bonne read found, boucle_bonne read found]
      simp only [ih, List.cons_append]

/-- The rows of a map keep its keys. -/
theorem Bonnes.bonne_boucle (rows : Bonnes sql parseDouble site avant carte base) :
    bonne parseDouble site (boucle sql parseDouble site avant carte base).1 =
      bonne parseDouble site carte := by
  induction rows with
  | nil => rfl
  | vide ligne empty later ih => rw [boucle_vide empty, ih]
  | lue ligne lecture indice read found later ih =>
      rw [boucle_bonne read found]
      exact ih.trans (bonne_noter found)

/-- Rows without texts make no difference. -/
theorem Bonnes.boucle_filter (rows : Bonnes sql parseDouble site avant carte base) :
    boucle sql parseDouble site (avant.filter (bonne parseDouble site carte)) carte base =
      boucle sql parseDouble site avant carte base := by
  induction rows with
  | nil => rfl
  | @vide lignes carte base ligne empty later ih =>
      have notGood : ¬ bonne parseDouble site carte ligne = true := by
        intro isGood
        obtain ⟨lecture, -, read, -⟩ := bonne_iff.mp isGood
        exact eachText_ne_nil_of_lire read empty
      rw [List.filter_cons_of_neg notGood, boucle_vide empty, ih]
  | lue ligne lecture indice read found later ih =>
      rw [bonne_noter found] at ih
      rw [List.filter_cons_of_pos (bonne_iff.mpr ⟨lecture, indice, read, found⟩),
        boucle_bonne read found, boucle_bonne read found]
      simp only [ih]

/-- **What the map says after some rows** is the last value that they show for a key. -/
theorem Bonnes.last_boucle (rows : Bonnes sql parseDouble site avant carte base) (cle : Text) :
    ((boucle sql parseDouble site avant carte base).1 cle).map Indice.last =
      derniere parseDouble site carte avant cle := by
  induction rows with
  | nil => simp [boucle, derniere, valeursDe]
  | vide ligne empty later ih =>
      have unread : site.lire parseDouble ligne = none := by
        by_contra read
        obtain ⟨lecture, isRead⟩ := Option.ne_none_iff_exists'.mp read
        exact eachText_ne_nil_of_lire isRead empty
      rw [boucle_vide empty, ih, derniere, derniere, List.filterMap_cons_none unread]
  | lue ligne lecture indice read found later ih =>
      rw [boucle_bonne read found]
      refine ih.trans ?_
      rw [derniere, derniere, List.filterMap_cons_some read]
      by_cases sameKey : lecture.cle = cle
      · simp [valeursDe, sameKey, noter, List.getLast?_cons]
      · simp [valeursDe, sameKey, noter, Function.update_of_ne (Ne.symm sameKey)]

/-! ## Rows that record nothing -/

/-- **Good rows record nothing** exactly when each of them shows the value of its object. -/
theorem enregistrees_boucle_eq_nil {bonnes : List Ligne}
    (good : ∀ ligne ∈ bonnes, bonne parseDouble site carte ligne = true) :
    enregistrees (boucle sql parseDouble site bonnes carte base).2.2 = [] ↔
      ∀ ligne ∈ bonnes, ∀ lecture, site.lire parseDouble ligne = some lecture →
        (carte lecture.cle).map Indice.last = some lecture.val := by
  induction bonnes with
  | nil => simp [boucle, enregistrees]
  | cons ligne bonnes ih =>
      obtain ⟨lecture, indice, read, found⟩ := bonne_iff.mp (good ligne List.mem_cons_self)
      have later := ih fun other member => good other (List.mem_cons_of_mem _ member)
      have shows : (∀ lecture, site.lire parseDouble ligne = some lecture →
          (carte lecture.cle).map Indice.last = some lecture.val) ↔ indice.last = lecture.val := by
        constructor
        · intro every
          have here := every lecture read
          rwa [found, Option.map_some, Option.some.injEq] at here
        · intro same other readOther
          obtain rfl := Option.some.inj (read.symm.trans readOther)
          rw [found, Option.map_some, same]
      rw [List.forall_mem_cons, shows, boucle_bonne read found]
      by_cases same : indice.last = lecture.val
      · have nothing : indice.addVal sql lecture.val site.type site.bdd base =
            (indice, base, .aucune) := by
          rw [Indice.addVal, if_neg (not_not.mpr same)]
        rw [nothing]
        simp only [noter_self found same]
        rw [← later]
        simp [enregistrees, same]
      · have some := mt (Indice.addVal_insertion sql lecture.val site.type site.bdd indice base).mp
          same
        simp [enregistrees, same, some]

/-- Good rows that record nothing leave the map and the database as they are. -/
theorem boucle_of_unchanged {bonnes : List Ligne}
    (good : ∀ ligne ∈ bonnes, bonne parseDouble site carte ligne = true)
    (same : ∀ ligne ∈ bonnes, ∀ lecture, site.lire parseDouble ligne = some lecture →
      (carte lecture.cle).map Indice.last = some lecture.val) :
    (boucle sql parseDouble site bonnes carte base).1 = carte ∧
      (boucle sql parseDouble site bonnes carte base).2.1 = base := by
  induction bonnes with
  | nil => exact ⟨rfl, rfl⟩
  | cons ligne bonnes ih =>
      obtain ⟨lecture, indice, read, found⟩ := bonne_iff.mp (good ligne List.mem_cons_self)
      have shown := same ligne List.mem_cons_self lecture read
      rw [found, Option.map_some, Option.some.injEq] at shown
      have nothing : indice.addVal sql lecture.val site.type site.bdd base =
          (indice, base, .aucune) := by
        rw [Indice.addVal, if_neg (not_not.mpr shown)]
      rw [boucle_bonne read found, nothing]
      simp only [noter_self found shown]
      exact ih (fun other member => good other (List.mem_cons_of_mem _ member))
        fun other member => same other (List.mem_cons_of_mem _ member)

/-! ## A page -/

/-- The work on a page ends at its first bad row. -/
theorem boucle_dessus (lignes : List Ligne) (carte : Carte δ) (base : σ) :
    boucle sql parseDouble site lignes carte base =
      boucle sql parseDouble site (dessus parseDouble site carte lignes) carte base := by
  have rows : Bonnes sql parseDouble site (dessus parseDouble site carte lignes) carte base :=
    bonnes_of_forall sql _ carte base fun _ member => mauvaise_of_mem_dessus member
  have whole := rows.boucle_append (dessous parseDouble site carte lignes)
  rw [dessus_append_dessous] at whole
  rw [whole]
  rcases dessous_cases parseDouble site carte lignes with nothing | ⟨fautive, apres, below, bad⟩
  · simp only [nothing, boucle, List.append_nil]
  · have stillBad : mauvaise parseDouble site (boucle sql parseDouble site
        (dessus parseDouble site carte lignes) carte base).1 fautive = true := by
      rw [mauvaise_of_bonne rows.bonne_boucle, bad]
    simp only [below, boucle_mauvaise stillBad, List.append_nil]

/-- The good rows of a page are handled as the rows above the first bad one, and then as the good
rows below it. -/
theorem boucle_bonnes (lignes : List Ligne) (carte : Carte δ) (base : σ) :
    boucle sql parseDouble site (lignes.filter (bonne parseDouble site carte)) carte base =
      let reached := boucle sql parseDouble site lignes carte base
      let rest := boucle sql parseDouble site
        ((dessous parseDouble site carte lignes).filter (bonne parseDouble site carte)) reached.1
        reached.2.1
      (rest.1, rest.2.1, reached.2.2 ++ rest.2.2) := by
  have above : ∀ ligne ∈ (dessus parseDouble site carte lignes).filter
      (bonne parseDouble site carte), mauvaise parseDouble site carte ligne = false :=
    fun ligne member => mauvaise_of_mem_dessus (List.mem_filter.mp member).1
  have kept := (bonnes_of_forall sql _ carte base above).boucle_append
    ((dessous parseDouble site carte lignes).filter (bonne parseDouble site carte))
  rw [← List.filter_append, dessus_append_dessous] at kept
  have rows : Bonnes sql parseDouble site (dessus parseDouble site carte lignes) carte base :=
    bonnes_of_forall sql _ carte base fun _ member => mauvaise_of_mem_dessus member
  rw [kept, rows.boucle_filter, ← boucle_dessus]

theorem bonne_reached (lignes : List Ligne) (carte : Carte δ) (base : σ) :
    bonne parseDouble site (boucle sql parseDouble site lignes carte base).1 =
      bonne parseDouble site carte := by
  rw [boucle_dessus]
  exact (bonnes_of_forall sql _ carte base fun _ member =>
    mauvaise_of_mem_dessus member).bonne_boucle

/-- The condition on the rows below, as one on the map that the rows above leave. -/
theorem rienDessous_iff (sql : Sql σ δ) (lignes : List Ligne) (carte : Carte δ) (base : σ) :
    RienDessous parseDouble site carte lignes ↔
      ∀ ligne ∈ (dessous parseDouble site carte lignes).filter (bonne parseDouble site carte),
        ∀ lecture, site.lire parseDouble ligne = some lecture →
          ((boucle sql parseDouble site lignes carte base).1 lecture.cle).map Indice.last =
            some lecture.val := by
  have lasts := (bonnes_of_forall sql (dessus parseDouble site carte lignes) carte base
    fun _ member => mauvaise_of_mem_dessus member).last_boucle
  rw [← boucle_dessus] at lasts
  simp only [RienDessous, List.mem_filter, and_imp, lasts]

/-- **A page records what its good rows alone record** exactly when nothing is to be recorded
below its first bad row. -/
theorem enregistrees_bonnes_iff (lignes : List Ligne) (carte : Carte δ) (base : σ) :
    enregistrees (boucle sql parseDouble site lignes carte base).2.2 =
        enregistrees (boucle sql parseDouble site
          (lignes.filter (bonne parseDouble site carte)) carte base).2.2 ↔
      RienDessous parseDouble site carte lignes := by
  have good : ∀ ligne ∈ (dessous parseDouble site carte lignes).filter
      (bonne parseDouble site carte),
      bonne parseDouble site (boucle sql parseDouble site lignes carte base).1 ligne = true := by
    intro ligne member
    rw [bonne_reached]
    exact (List.mem_filter.mp member).2
  rw [boucle_bonnes, enregistrees_append, List.self_eq_append_right,
    enregistrees_boucle_eq_nil good, ← rienDessous_iff]

/-- Then it also leaves the same map and the same database. -/
theorem RienDessous.boucle_eq {lignes : List Ligne} {carte : Carte δ}
    (rien : RienDessous parseDouble site carte lignes) (sql : Sql σ δ) (base : σ) :
    (boucle sql parseDouble site (lignes.filter (bonne parseDouble site carte)) carte base).1 =
        (boucle sql parseDouble site lignes carte base).1 ∧
      (boucle sql parseDouble site (lignes.filter (bonne parseDouble site carte)) carte base).2.1 =
        (boucle sql parseDouble site lignes carte base).2.1 := by
  rw [boucle_bonnes]
  apply boucle_of_unchanged ?_ ((rienDessous_iff sql lignes carte base).mp rien)
  intro ligne member
  rw [bonne_reached]
  exact (List.mem_filter.mp member).2

/-- A poll of a page leaves the recorder as a poll of its good rows alone leaves it, and records
the same values with the same outcomes. -/
def Independantes (sql : Sql σ δ) (parseDouble : Text → Option δ) (x : Nat) (site : Site)
    (visite : Text → Option Page) (l : Launcher σ δ) : Prop :=
  let page := l.poll sql parseDouble x site visite
  let bonnes := l.poll sql parseDouble x site fun url =>
    (visite url).map (Page.nettoyer parseDouble site (l.cartes x))
  page.1 = bonnes.1 ∧ enregistrees page.2 = enregistrees bonnes.2

/-- A page with lines, polled with a map. -/
theorem independantes_iff_of_at {l : Launcher σ δ} {x origine : Nat} {url : Text}
    (here : l.At x url origine (l.cartes x)) {visite : Text → Option Page} {lignes : List Ligne}
    (found : (visite url).bind (getAt site.table) = some lignes) :
    Independantes sql parseDouble x site visite l ↔
      RienDessous parseDouble site (l.cartes x) lignes := by
  have foundGood : ((visite url).map (Page.nettoyer parseDouble site (l.cartes x))).bind
      (getAt site.table) = some (lignes.filter (bonne parseDouble site (l.cartes x))) := by
    rw [bind_nettoyer, found, Option.map_some]
  rw [Independantes, here.poll_eq sql parseDouble found, here.poll_eq sql parseDouble foundGood]
  constructor
  · rintro ⟨-, recorded⟩
    exact (enregistrees_bonnes_iff lignes (l.cartes x) l.base).mp recorded
  · intro rien
    obtain ⟨sameMap, sameBase⟩ := rien.boucle_eq sql l.base
    refine ⟨?_, (enregistrees_bonnes_iff lignes (l.cartes x) l.base).mpr rien⟩
    rw [sameMap, sameBase]

/-- Without a page that has a table, or without a map, a poll does nothing. -/
theorem poll_idle {l : Launcher σ δ} {x : Nat} {visite : Text → Option Page}
    (nothing : ∀ url origine carte lignes, l.At x url origine carte →
      (visite url).bind (getAt site.table) ≠ some lignes) :
    l.poll sql parseDouble x site visite = (l, []) := by
  rcases Launcher.poll_cases sql parseDouble x site visite l with
    idle | ⟨url, origine, carte, lignes, here, found, -⟩
  · exact idle
  · exact absurd found (nothing url origine carte lignes here)

theorem independantes_of_idle {l : Launcher σ δ} {x : Nat} {visite : Text → Option Page}
    (nothing : ∀ url origine carte lignes, l.At x url origine carte →
      (visite url).bind (getAt site.table) ≠ some lignes) :
    Independantes sql parseDouble x site visite l := by
  rw [Independantes, poll_idle nothing, poll_idle]
  · exact ⟨rfl, rfl⟩
  · intro url origine carte lignes here found
    rw [bind_nettoyer, Option.map_eq_some_iff] at found
    obtain ⟨all, foundAll, -⟩ := found
    exact nothing url origine carte all here foundAll

end Rows

/-! ## A new instrument at the top of a page -/

/-- The recorder after its start with the pages of one instrument. -/
def oneStart : Launcher (Base Int) Int :=
  Launcher.demarrage sqlBase parseInt (fun _ => .page (onePage "7".toList) none) twoSites emptyBase

/-- A page that lists an instrument which was not there at the start, and below it the one that
was. -/
def newcomerPage : Page :=
  [[[⟨"-".toList, some "Germany".toList, none⟩, ⟨"DAX".toList, none, none⟩,
      ⟨"5".toList, none, none⟩],
    [⟨"-".toList, some "France".toList, none⟩, ⟨"CAC 40".toList, none, none⟩,
      ⟨"8".toList, none, none⟩]]]

end Trading.Recup
