import Trading.Recup.Polling

/-!
# Sites that fail at the start

`recupIndices` fills two lists that `loopVals` reads by position. `demarrage_conn` and
`demarrage_indices` say what they hold: the address of every site whose work got as far as
`conn.add`, and the map of every site whose page was read to its end. So a site that fails
moves the maps of all later sites by one position, and a site is found at its own position if
and only if no site before it failed (`demarrage_at`, `not_at_of_failed`).
-/

set_option autoImplicit false

namespace Trading.Recup

open Trading.Text

variable {σ δ : Type}

/-! ## The map of a start-up page -/

/-- `indicestmp.put(nom+pays,new Indice(val,nom,pays))`. -/
def enregistrer (carte : Carte δ) (lecture : Lecture δ) : Carte δ :=
  Function.update carte lecture.cle (some ⟨lecture.val, lecture.nom⟩)

/-- The map of the readings of a page. -/
def carteDe (lectures : List (Lecture δ)) : Carte δ := lectures.foldl enregistrer fun _ => none

/-- The objects of the map are those of the readings, or they were there before. -/
theorem foldl_enregistrer_eq_some {lectures : List (Lecture δ)} {carte : Carte δ} {cle : Text}
    {indice : Indice δ} (found : lectures.foldl enregistrer carte cle = some indice) :
    (∃ lecture ∈ lectures, lecture.cle = cle ∧ indice = ⟨lecture.val, lecture.nom⟩) ∨
      carte cle = some indice := by
  induction lectures generalizing carte with
  | nil => exact .inr found
  | cons lecture lectures ih =>
      rcases ih found with ⟨other, member, sameKey, object⟩ | before
      · exact .inl ⟨other, List.mem_cons_of_mem _ member, sameKey, object⟩
      · by_cases sameKey : cle = lecture.cle
        · rw [enregistrer, sameKey, Function.update_self] at before
          exact .inl ⟨lecture, List.mem_cons_self, sameKey.symm, (Option.some.inj before).symm⟩
        · rw [enregistrer, Function.update_of_ne sameKey] at before
          exact .inr before

theorem carteDe_eq_some {lectures : List (Lecture δ)} {cle : Text} {indice : Indice δ}
    (found : carteDe lectures cle = some indice) :
    ∃ lecture ∈ lectures, lecture.cle = cle ∧ indice = ⟨lecture.val, lecture.nom⟩ := by
  rcases foldl_enregistrer_eq_some found with fromPage | before
  · exact fromPage
  · cases before

/-- Every reading has an object. -/
theorem isSome_carteDe {lectures : List (Lecture δ)} {lecture : Lecture δ}
    (member : lecture ∈ lectures) : (carteDe lectures lecture.cle).isSome = true := by
  have kept : ∀ (lectures : List (Lecture δ)) (carte : Carte δ), (carte lecture.cle).isSome = true →
      (lectures.foldl enregistrer carte lecture.cle).isSome = true := by
    intro lectures
    induction lectures with
    | nil => exact fun _ known => known
    | cons first lectures ih =>
        intro carte known
        apply ih
        by_cases sameKey : lecture.cle = first.cle
        · rw [enregistrer, sameKey, Function.update_self, Option.isSome_some]
        · rw [enregistrer, Function.update_of_ne sameKey, known]
  obtain ⟨before, after, rfl⟩ := List.append_of_mem member
  rw [carteDe, List.foldl_append, List.foldl_cons]
  apply kept after
  rw [enregistrer, Function.update_self, Option.isSome_some]

/-- Where the keys are different, each reading has its own object. -/
theorem carteDe_of_mem {lectures : List (Lecture δ)} (distinct : (lectures.map Lecture.cle).Nodup)
    {lecture : Lecture δ} (member : lecture ∈ lectures) :
    carteDe lectures lecture.cle = some ⟨lecture.val, lecture.nom⟩ := by
  have kept : ∀ (lectures : List (Lecture δ)) (carte : Carte δ) (cle : Text),
      cle ∉ lectures.map Lecture.cle → lectures.foldl enregistrer carte cle = carte cle := by
    intro lectures
    induction lectures with
    | nil => exact fun _ _ _ => rfl
    | cons first lectures ih =>
        intro carte cle absent
        rw [List.map_cons, List.mem_cons, not_or] at absent
        rw [List.foldl_cons, ih _ _ absent.2, enregistrer, Function.update_of_ne absent.1]
  have general : ∀ (lectures : List (Lecture δ)) (carte : Carte δ),
      (lectures.map Lecture.cle).Nodup → lecture ∈ lectures →
        lectures.foldl enregistrer carte lecture.cle = some ⟨lecture.val, lecture.nom⟩ := by
    intro lectures
    induction lectures with
    | nil => exact fun _ _ absent => absurd absent List.not_mem_nil
    | cons first lectures ih =>
        intro carte distinct member
        rw [List.map_cons, List.nodup_cons] at distinct
        rw [List.foldl_cons]
        rcases List.mem_cons.mp member with rfl | later
        · rw [kept _ _ _ distinct.1, enregistrer, Function.update_self]
        · exact ih _ distinct.2 later
  exact general lectures _ distinct member

/-- The map that the start builds for a site, if it gets to the end of the page. -/
def Site.carteDepart (parseDouble : Text → Option δ) (site : Site) : Acces → Option (Carte δ)
  | .refus => none
  | .silence => none
  | .page page panne => do
      let lectures ← site.lirePage parseDouble page
      if panne.any (fun n => decide (n < lectures.length)) then none else some (carteDe lectures)

/-- Whether the work on a site gets as far as `conn.add`. -/
def Acces.connecte : Acces → Bool
  | .refus => false
  | _ => true

theorem Site.connecte_of_carteDepart {parseDouble : Text → Option δ} {site : Site} {acces : Acces}
    {carte : Carte δ} (started : site.carteDepart parseDouble acces = some carte) :
    acces.connecte = true := by
  cases acces with
  | refus => cases started
  | silence => rfl
  | page page panne => rfl

/-- A map that the start builds is that of the readings of the page. -/
theorem Site.carteDepart_eq_some {parseDouble : Text → Option δ} {site : Site} {acces : Acces}
    {carte : Carte δ} (started : site.carteDepart parseDouble acces = some carte) :
    ∃ page panne lectures, acces = .page page panne ∧
      site.lirePage parseDouble page = some lectures ∧ carte = carteDe lectures := by
  cases acces with
  | refus => cases started
  | silence => cases started
  | page page panne =>
      obtain ⟨lectures, read, built⟩ := Option.bind_eq_some_iff.mp started
      split at built
      · cases built
      · exact ⟨page, panne, lectures, rfl, read, (Option.some.inj built).symm⟩

variable (sql : Sql σ δ) (parseDouble : Text → Option δ)

/-- The two registrations of a line. -/
def inscrire (site : Site) (lecture : Lecture δ) (base : σ) : σ :=
  let base' := (sql.insertPays lecture.pays base).getD base
  (sql.insertIndice site.bdd lecture.pays lecture.nom base').getD base'

/-- **What a line with texts of a start-up page can do**: end the work, perhaps after its country
was registered, or register its instrument. -/
theorem recupLignes_cases (site : Site) {ligne : Ligne} (texts : eachText ligne ≠ [])
    (lignes : List Ligne) (panne : Option Nat) (carte : Carte δ) (base : σ) :
    (∃ lecture, site.lire parseDouble ligne = some lecture ∧ panne ≠ some 0 ∧
        recupLignes sql parseDouble site (ligne :: lignes) panne carte base =
          recupLignes sql parseDouble site lignes (panne.map Nat.pred) (enregistrer carte lecture)
            (inscrire sql site lecture base)) ∨
      ((site.lire parseDouble ligne = none ∨ panne = some 0) ∧
        ∃ base', (base' = base ∨ ∃ pays, site.lirePays ligne = some pays ∧
            base' = (sql.insertPays pays base).getD base) ∧
          recupLignes sql parseDouble site (ligne :: lignes) panne carte base = (base', none)) := by
  rw [recupLignes, if_neg texts]
  cases country : site.lirePays ligne with
  | none => exact .inr ⟨.inl (by simp [Site.lire, country]), base, .inl rfl, rfl⟩
  | some pays =>
      by_cases now : panne = some 0
      · exact .inr ⟨.inr now, base, .inl rfl, by simp only [if_pos now]⟩
      · simp only [if_neg now]
        cases name : site.lireNom ligne with
        | none =>
            exact .inr ⟨.inl (by simp [Site.lire, name]), _, .inr ⟨pays, rfl, rfl⟩, rfl⟩
        | some nom =>
            cases value : site.lireVal parseDouble ligne with
            | none =>
                exact .inr ⟨.inl (by simp [Site.lire, value]), _, .inr ⟨pays, rfl, rfl⟩, rfl⟩
            | some val =>
                exact .inl ⟨⟨nom, pays, val⟩, Site.lire_eq_some.mpr ⟨country, name, value⟩,
                  now, rfl⟩

/-- **The lines of a start-up page give the map of its readings**, unless there is an
exception. -/
theorem recupLignes_snd (site : Site) (lignes : List Ligne) (panne : Option Nat) (carte : Carte δ)
    (base : σ) :
    (recupLignes sql parseDouble site lignes panne carte base).2 =
      (site.lireLignes parseDouble lignes).bind fun lectures =>
        if panne.any (fun n => decide (n < lectures.length)) then none
        else some (lectures.foldl enregistrer carte) := by
  induction lignes generalizing panne carte base with
  | nil => cases panne <;> rfl
  | cons ligne lignes ih =>
      by_cases empty : eachText ligne = []
      · rw [recupLignes, if_pos empty, ih, Site.lireLignes_cons_empty empty]
      rw [Site.lireLignes_cons empty]
      rcases recupLignes_cases sql parseDouble site empty lignes panne carte base with
        ⟨lecture, read, notNow, continued⟩ | ⟨reason, base', -, ended⟩
      · have later : ∀ length : Nat, (panne.map Nat.pred).any (fun n => decide (n < length)) =
            panne.any fun n => decide (n < length + 1) := by
          intro length
          cases panne with
          | none => rfl
          | some n =>
              have positive : n ≠ 0 := fun zero => notNow (congrArg some zero)
              simp only [Option.map_some, Option.any_some, decide_eq_decide, Nat.pred_eq_sub_one]
              omega
        rw [continued, ih, read]
        simp only [Option.bind_some, Option.bind_map, Function.comp_def, later, List.length_cons,
          List.foldl_cons]
      · rw [ended]
        rcases reason with unread | rfl
        · rw [unread, Option.bind_none, Option.bind_none]
        · cases site.lire parseDouble ligne <;> cases site.lireLignes parseDouble lignes <;> rfl

namespace Launcher

/-! ## The two lists -/

theorem recupSite_conn (x : Nat) (site : Site) (l : Launcher σ δ) (acces : Acces) :
    (l.recupSite sql parseDouble x site acces).conn =
      l.conn ++ if acces.connecte then [site.url] else [] := by
  cases acces with
  | refus => exact (List.append_nil _).symm
  | silence => rfl
  | page page panne =>
      rw [recupSite]
      split
      · rfl
      · split <;> rfl

theorem recupSite_indices (x : Nat) (site : Site) (l : Launcher σ δ) (acces : Acces) :
    (l.recupSite sql parseDouble x site acces).indices =
      l.indices ++ (site.carteDepart parseDouble acces).toList.map fun carte => (x, carte) := by
  cases acces with
  | refus => exact (List.append_nil _).symm
  | silence => exact (List.append_nil _).symm
  | page page panne =>
      rw [recupSite, Site.carteDepart, Site.lirePage]
      cases table : getAt site.table page with
      | none => exact (List.append_nil _).symm
      | some lignes =>
          have built := recupLignes_snd sql parseDouble site lignes panne (fun _ => none) l.base
          simp only [Option.bind_eq_bind, Option.bind_some, carteDe, ← built]
          split
          · rename_i base failed
            simp [failed]
          · rename_i base carte succeeded
            simp [succeeded]

/-- The addresses after the start. -/
theorem recupIndices_conn (acces : Nat → Acces) (sites : List Site) :
    ∀ (x : Nat) (l : Launcher σ δ), (l.recupIndices sql parseDouble acces x sites).conn =
      l.conn ++ (sites.zipIdx x).filterMap fun place =>
        if (acces place.2).connecte then some place.1.url else none := by
  induction sites with
  | nil => exact fun _ l => (List.append_nil _).symm
  | cons site sites ih =>
      intro x l
      rw [recupIndices, ih, recupSite_conn, List.zipIdx_cons, List.filterMap_cons,
        List.append_assoc]
      cases (acces x).connecte <;> rfl

/-- The maps after the start. -/
theorem recupIndices_indices (acces : Nat → Acces) (sites : List Site) :
    ∀ (x : Nat) (l : Launcher σ δ), (l.recupIndices sql parseDouble acces x sites).indices =
      l.indices ++ (sites.zipIdx x).filterMap fun place =>
        (place.1.carteDepart parseDouble (acces place.2)).map fun carte => (place.2, carte) := by
  induction sites with
  | nil => exact fun _ l => (List.append_nil _).symm
  | cons site sites ih =>
      intro x l
      rw [recupIndices, ih, recupSite_indices, List.zipIdx_cons, List.filterMap_cons,
        List.append_assoc]
      cases site.carteDepart parseDouble (acces x) <;> rfl

theorem demarrage_conn (acces : Nat → Acces) (sites : List Site) (base : σ) :
    (demarrage sql parseDouble acces sites base).conn = sites.zipIdx.filterMap fun place =>
      if (acces place.2).connecte then some place.1.url else none := by
  rw [demarrage, recupIndices_conn, List.nil_append]

theorem demarrage_indices (acces : Nat → Acces) (sites : List Site) (base : σ) :
    (demarrage sql parseDouble acces sites base).indices = sites.zipIdx.filterMap fun place =>
      (place.1.carteDepart parseDouble (acces place.2)).map fun carte => (place.2, carte) := by
  rw [demarrage, recupIndices_indices, List.nil_append]

end Launcher

/-! ## Positions -/

/-- Where nothing up to a position is left out, the position is kept. -/
theorem getElem?_filterMap_of_isSome {A B : Type} (f : A → Option B) (items : List A) :
    ∀ (x : Nat), (∀ y ≤ x, ∀ item, items[y]? = some item → (f item).isSome = true) →
      (items.filterMap f)[x]? = (items[x]?).bind f := by
  induction items with
  | nil => exact fun _ _ => rfl
  | cons item items ih =>
      intro x kept
      obtain ⟨image, first⟩ := Option.isSome_iff_exists.mp (kept 0 (Nat.zero_le x) item rfl)
      rw [List.filterMap_cons, first]
      cases x with
      | zero => exact first.symm
      | succ x =>
          rw [List.getElem?_cons_succ, List.getElem?_cons_succ]
          exact ih x fun y within other => kept (y + 1) (Nat.succ_le_succ within) other

/-- The marks of a list that keeps some positions are not below the positions they are at. -/
theorem le_of_getElem?_filterMap {A B : Type} (f : A × Nat → Option B) (items : List A) :
    ∀ {n p : Nat} {mark : Nat} {image : B},
      ((items.zipIdx n).filterMap fun place => (f place).map fun image => (place.2, image))[p]? =
        some (mark, image) → n + p ≤ mark := by
  induction items with
  | nil => intro n p mark image found; cases found
  | cons item items ih =>
      intro n p mark image found
      rw [List.zipIdx_cons, List.filterMap_cons] at found
      cases first : f (item, n) with
      | none =>
          simp only [first, Option.map_none] at found
          have later := ih found
          omega
      | some kept =>
          simp only [first, Option.map_some] at found
          cases p with
          | zero =>
              obtain ⟨rfl, -⟩ := Prod.mk.inj (Option.some.inj found)
              exact le_rfl
          | succ p =>
              have later := ih (List.getElem?_cons_succ ▸ found)
              omega

/-- A position that is left out moves all later marks. -/
theorem lt_of_getElem?_filterMap {A B : Type} (f : A × Nat → Option B) (items : List A) :
    ∀ {n p y : Nat} {mark : Nat} {image : B} {missing : A},
      ((items.zipIdx n).filterMap fun place => (f place).map fun image => (place.2, image))[p]? =
        some (mark, image) → n ≤ y → y < mark → items[y - n]? = some missing →
      f (missing, y) = none → n + p < mark := by
  induction items with
  | nil => intro n p y mark image missing found; cases found
  | cons item items ih =>
      intro n p y mark image missing found lower upper there failed
      rw [List.zipIdx_cons, List.filterMap_cons] at found
      cases first : f (item, n) with
      | none =>
          simp only [first, Option.map_none] at found
          have later := le_of_getElem?_filterMap f items found
          omega
      | some kept =>
          simp only [first, Option.map_some] at found
          cases p with
          | zero =>
              obtain ⟨rfl, -⟩ := Prod.mk.inj (Option.some.inj found)
              omega
          | succ p =>
              have notFirst : y ≠ n := by
                rintro rfl
                rw [Nat.sub_self, List.getElem?_cons_zero, Option.some.injEq] at there
                rw [there, failed] at first
                cases first
              have step : y - n = y - (n + 1) + 1 := by omega
              rw [step, List.getElem?_cons_succ] at there
              have later := ih (List.getElem?_cons_succ ▸ found) (by omega) upper there failed
              omega

/-- What one function keeps, a function that keeps more keeps at least as often. -/
theorem length_filterMap_le_of_isSome {A B C : Type} {f : A → Option B} {g : A → Option C}
    (items : List A) (more : ∀ item, (f item).isSome = true → (g item).isSome = true) :
    (items.filterMap f).length ≤ (items.filterMap g).length := by
  induction items with
  | nil => exact le_rfl
  | cons item items ih =>
      rw [List.filterMap_cons, List.filterMap_cons]
      cases kept : f item with
      | none =>
          refine ih.trans ?_
          cases g item with
          | none => exact le_rfl
          | some image => exact Nat.le_succ _
      | some image =>
          obtain ⟨image', kept'⟩ := Option.isSome_iff_exists.mp (more item (by rw [kept]; rfl))
          rw [kept']
          exact Nat.succ_le_succ ih

/-! ## Sites that succeed -/

namespace Launcher

variable {sql parseDouble}

/-- **A site that no failing site stands before is found at its own position.** -/
theorem demarrage_at {acces : Nat → Acces} {sites : List Site} (base : σ) {x : Nat} {site : Site}
    {carte : Carte δ} (found : sites[x]? = some site)
    (started : site.carteDepart parseDouble (acces x) = some carte)
    (before : ∀ y < x, ∀ other, sites[y]? = some other →
      (other.carteDepart parseDouble (acces y)).isSome = true) :
    (demarrage sql parseDouble acces sites base).At x site.url x carte := by
  have upTo : ∀ y ≤ x, ∀ place : Site × Nat, sites.zipIdx[y]? = some place →
      place.2 = y ∧ (place.1.carteDepart parseDouble (acces place.2)).isSome = true := by
    intro y within place there
    rw [List.getElem?_zipIdx, Option.map_eq_some_iff] at there
    obtain ⟨other, otherFound, rfl⟩ := there
    rw [Nat.zero_add]
    refine ⟨rfl, ?_⟩
    rcases Nat.eq_or_lt_of_le within with rfl | earlier
    · obtain rfl : site = other := Option.some.inj (found.symm.trans otherFound)
      rw [started, Option.isSome_some]
    · exact before y earlier other otherFound
  have here : sites.zipIdx[x]? = some (site, x) := by
    rw [List.getElem?_zipIdx, found, Option.map_some, Nat.zero_add]
  constructor
  · rw [demarrage_conn, getElem?_filterMap_of_isSome, here, Option.bind_some,
      if_pos (Site.connecte_of_carteDepart started)]
    intro y within place there
    obtain ⟨carte', started'⟩ := Option.isSome_iff_exists.mp (upTo y within place there).2
    rw [if_pos (Site.connecte_of_carteDepart started'), Option.isSome_some]
  · rw [demarrage_indices, getElem?_filterMap_of_isSome, here, Option.bind_some, started,
      Option.map_some]
    intro y within place there
    rw [Option.isSome_map]
    exact (upTo y within place there).2

/-- **The map of a site that succeeds is found somewhere**, at its own position if no failing site
stands before it. -/
theorem demarrage_place {acces : Nat → Acces} {sites : List Site} (base : σ) {x : Nat} {site : Site}
    {carte : Carte δ} (found : sites[x]? = some site)
    (started : site.carteDepart parseDouble (acces x) = some carte) :
    ∃ place url other, place ≤ x ∧ sites[place]? = some other ∧
      (demarrage sql parseDouble acces sites base).At place url x carte ∧
      ((∀ y < x, ∀ earlier, sites[y]? = some earlier →
        (earlier.carteDepart parseDouble (acces y)).isSome = true) → place = x ∧
          url = site.url) := by
  by_cases before : ∀ y < x, ∀ earlier, sites[y]? = some earlier →
      (earlier.carteDepart parseDouble (acces y)).isSome = true
  · exact ⟨x, site.url, site, le_rfl, found, demarrage_at base found started before,
      fun _ => ⟨rfl, rfl⟩⟩
  have member : (x, carte) ∈ (demarrage sql parseDouble acces sites base).indices := by
    rw [demarrage_indices, List.mem_filterMap]
    refine ⟨(site, x), List.mem_of_getElem? (i := x) ?_, by rw [started, Option.map_some]⟩
    rw [List.getElem?_zipIdx, found, Option.map_some, Nat.zero_add]
  obtain ⟨place, indices⟩ := List.mem_iff_getElem?.mp member
  have notLater : place ≤ x := by
    rw [demarrage_indices] at indices
    have bound := le_of_getElem?_filterMap
      (fun place : Site × Nat => place.1.carteDepart parseDouble (acces place.2)) sites indices
    omega
  have inSites : place < sites.length := notLater.trans_lt (List.getElem?_eq_some_iff.mp found).1
  have inConn : place < (demarrage sql parseDouble acces sites base).conn.length := by
    refine (List.getElem?_eq_some_iff.mp indices).1.trans_le ?_
    rw [demarrage_indices, demarrage_conn]
    apply length_filterMap_le_of_isSome
    intro item kept
    rw [Option.isSome_map] at kept
    obtain ⟨carte', started'⟩ := Option.isSome_iff_exists.mp kept
    rw [if_pos (Site.connecte_of_carteDepart started'), Option.isSome_some]
  exact ⟨place, _, _, notLater, List.getElem?_eq_getElem inSites,
    ⟨List.getElem?_eq_getElem inConn, indices⟩, fun all => absurd all before⟩

/-- The site of a map is one whose start succeeded. -/
theorem carteDepart_of_mem_indices {acces : Nat → Acces} {sites : List Site} {base : σ} {x : Nat}
    {carte : Carte δ} (member : (x, carte) ∈ (demarrage sql parseDouble acces sites base).indices) :
    ∃ site, sites[x]? = some site ∧ site.carteDepart parseDouble (acces x) = some carte := by
  rw [demarrage_indices, List.mem_filterMap] at member
  obtain ⟨⟨site, y⟩, inSites, built⟩ := member
  obtain ⟨carte', started, same⟩ := Option.map_eq_some_iff.mp built
  obtain ⟨rfl, rfl⟩ := Prod.mk.inj same
  obtain ⟨position, there⟩ := List.mem_iff_getElem?.mp inSites
  rw [List.getElem?_zipIdx, Option.map_eq_some_iff, Nat.zero_add] at there
  obtain ⟨other, found, same⟩ := there
  obtain ⟨rfl, rfl⟩ := Prod.mk.inj same
  exact ⟨other, found, started⟩

/-- Where no failing site stands before one that succeeds, each position has the map of its own
site. -/
theorem demarrage_aligned {acces : Nat → Acces} {sites : List Site} {base : σ}
    (ordered : ∀ (y x : Nat) (other site : Site), y < x → sites[y]? = some other →
      sites[x]? = some site → (site.carteDepart parseDouble (acces x)).isSome = true →
        (other.carteDepart parseDouble (acces y)).isSome = true)
    {place x : Nat} {carte : Carte δ}
    (there : (demarrage sql parseDouble acces sites base).indices[place]? = some (x, carte)) :
    x = place := by
  obtain ⟨site, found, started⟩ := carteDepart_of_mem_indices (List.mem_of_getElem? there)
  have notLater : place ≤ x := by
    rw [demarrage_indices] at there
    have bound := le_of_getElem?_filterMap
      (fun place : Site × Nat => place.1.carteDepart parseDouble (acces place.2)) sites there
    omega
  have inSites : place < sites.length := notLater.trans_lt (List.getElem?_eq_some_iff.mp found).1
  have succeeds : ∀ y ≤ x, ∀ other, sites[y]? = some other →
      (other.carteDepart parseDouble (acces y)).isSome = true := by
    intro y within other otherFound
    rcases Nat.eq_or_lt_of_le within with rfl | earlier
    · obtain rfl : site = other := Option.some.inj (found.symm.trans otherFound)
      rw [started, Option.isSome_some]
    · exact ordered y x other site earlier otherFound found (by rw [started, Option.isSome_some])
  have placed := List.getElem?_eq_getElem inSites
  obtain ⟨carte', started'⟩ := Option.isSome_iff_exists.mp (succeeds place notLater _ placed)
  have here : (demarrage sql parseDouble acces sites base).At place _ place carte' :=
    demarrage_at base placed started' fun y earlier other otherFound =>
      succeeds y (earlier.le.trans notLater) other otherFound
  have own := here.indices
  rw [there] at own
  exact (Prod.mk.inj (Option.some.inj own)).1

/-- A site that a failing site stands before is not found at its own position. -/
theorem not_at_of_failed {acces : Nat → Acces} {sites : List Site} {base : σ} {x y : Nat}
    {other : Site} {url : Text} {carte : Carte δ} (earlier : y < x) (found : sites[y]? = some other)
    (failed : other.carteDepart parseDouble (acces y) = none) :
    ¬ (demarrage sql parseDouble acces sites base).At x url x carte := by
  intro here
  have position := here.indices
  rw [demarrage_indices] at position
  have moved := lt_of_getElem?_filterMap
    (fun place : Site × Nat => place.1.carteDepart parseDouble (acces place.2)) sites position
    (Nat.zero_le y) earlier (by rwa [Nat.sub_zero]) failed
  omega

/-- **What the work on each site keeps, the start keeps.** -/
theorem recupIndices_rule {acces : Nat → Acces} {all : List Site} {Inv : Launcher σ δ → Prop}
    (step : ∀ x site l, all[x]? = some site → Inv l →
      Inv (l.recupSite sql parseDouble x site (acces x))) :
    ∀ (sites : List Site) (x : Nat) (l : Launcher σ δ), sites = all.drop x → Inv l →
      Inv (l.recupIndices sql parseDouble acces x sites) := by
  intro sites
  induction sites with
  | nil => exact fun _ _ _ holds => holds
  | cons site sites ih =>
      intro x l rest holds
      obtain ⟨found, tail⟩ := of_cons_eq_drop rest
      exact ih (x + 1) _ tail (step x site l found holds)

end Launcher

/-! ## A page that does not answer -/

/-- Two sites with the table, the country, the name and the value at the first positions. -/
def twoSites : List Site :=
  [⟨"indices-cfds".toList, "cfd".toList, "0".toList, "0".toList, "1".toList, "2".toList,
      "indices".toList⟩,
    ⟨"indices-futures".toList, "futures".toList, "0".toList, "0".toList, "1".toList, "2".toList,
      "indices".toList⟩]

/-- A page with one instrument. -/
def onePage (val : Text) : Page :=
  [[[⟨"-".toList, some "France".toList, none⟩, ⟨"CAC 40".toList, none, none⟩, ⟨val, none, none⟩]]]

/-- A page with two instruments. -/
def twoRows (pays nom val pays' nom' val' : Text) : Page :=
  [[[⟨"-".toList, some pays, none⟩, ⟨nom, none, none⟩, ⟨val, none, none⟩],
    [⟨"-".toList, some pays', none⟩, ⟨nom', none, none⟩, ⟨val', none, none⟩]]]

/-- A page with two instruments of different names. -/
def metalsPage (gold silver : Text) : Page :=
  twoRows "Japan".toList "Gold".toList gold "France".toList "Silver".toList silver

/-- A database that accepts every statement. -/
def acceptingSql : Sql Unit Int where
  insertPays _ base := some base
  insertIndice _ _ _ base := some base
  insertVal _ _ _ _ base := some (base, some 0)

/-- The first site does not answer at the start. -/
def firstSilent : Nat → Acces
  | 0 => .silence
  | _ => .page (onePage "7".toList) none

end Trading.Recup
