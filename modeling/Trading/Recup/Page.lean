import Trading.Recup.Database

/-!
# The rows of a page

What the recorder reads from a page: the table at the position given by the site, its lines,
and in each line the country, the name and the value of an instrument. A line is read from
its cells and from the texts of those cells that have one, so a position counts cells in one
case and texts in the other.

`Double.parseDouble` is a parameter. A result `none` stands for an exception.
-/

set_option autoImplicit false

namespace Trading.Recup

open Trading.Text

/-! ## Pages -/

/-- A cell: its text, the `title` of its first `span` and the text of its first `a`. -/
structure Cell where
  text : Text
  span : Option Text
  lien : Option Text
  deriving DecidableEq

/-- The cells of a line. -/
abbrev Ligne := List Cell

/-- The tables of a page, each with its lines. -/
abbrev Page := List (List Ligne)

/-- `colonnes.eachText()`: cells without text are left out. -/
def eachText (colonnes : Ligne) : List Text := (colonnes.map Cell.text).filter fun text => text ≠ []

/-- `list.get(Integer.parseInt(position))`. -/
def getAt {A : Type} (position : Text) (list : List A) : Option A := do
  let i ← parseInt position
  if i < 0 then none else list[i.toNat]?

/-- `replaceAll("\\.", "").replaceAll(",",".")`. -/
def normalise (text : Text) : Text :=
  (text.filter fun c => c ≠ '.').map fun c => if c = ',' then '.' else c

/-! ## Readings -/

/-- What a line says about an instrument. -/
structure Lecture (δ : Type) where
  nom : Text
  pays : Text
  val : δ
  deriving DecidableEq

variable {δ : Type}

/-- The key of an instrument, `nom+pays`. -/
def Lecture.cle (lecture : Lecture δ) : Text := lecture.nom ++ lecture.pays

namespace Site

/-- The country of a line; an empty title is the whole world. -/
def lirePays (site : Site) (colonnes : Ligne) : Option Text := do
  let colonne ← getAt site.pays colonnes
  let title ← colonne.span
  return if title = [] then "Monde".toList else title

/-- The name of a line: the text of a link for `actions`, else one of the texts. -/
def lireNom (site : Site) (colonnes : Ligne) : Option Text :=
  if site.bdd = "actions".toList then do
    let colonne ← getAt site.nom colonnes
    colonne.lien
  else getAt site.nom (eachText colonnes)

/-- The value of a line. -/
def lireVal (parseDouble : Text → Option δ) (site : Site) (colonnes : Ligne) : Option δ := do
  let text ← getAt site.val (eachText colonnes)
  parseDouble (normalise text)

/-- The reading of a line with texts. -/
def lire (parseDouble : Text → Option δ) (site : Site) (colonnes : Ligne) : Option (Lecture δ) := do
  let pays ← site.lirePays colonnes
  let nom ← site.lireNom colonnes
  let val ← site.lireVal parseDouble colonnes
  return ⟨nom, pays, val⟩

/-- The readings of a table, if every line with texts can be read. -/
def lireLignes (parseDouble : Text → Option δ) (site : Site) (lignes : List Ligne) :
    Option (List (Lecture δ)) :=
  (lignes.filter fun ligne => eachText ligne ≠ []).mapM (site.lire parseDouble)

/-- The readings of a page. -/
def lirePage (parseDouble : Text → Option δ) (site : Site) (page : Page) :
    Option (List (Lecture δ)) := do
  let lignes ← getAt site.table page
  site.lireLignes parseDouble lignes

variable {parseDouble : Text → Option δ} {site : Site}

theorem lire_eq_some {colonnes : Ligne} {lecture : Lecture δ} :
    site.lire parseDouble colonnes = some lecture ↔ site.lirePays colonnes = some lecture.pays ∧
      site.lireNom colonnes = some lecture.nom ∧
      site.lireVal parseDouble colonnes = some lecture.val := by
  obtain ⟨nom, pays, val⟩ := lecture
  simp only [lire, Option.bind_eq_bind, Option.bind_eq_some_iff, Option.pure_def, Option.some.injEq,
    Lecture.mk.injEq]
  constructor
  · rintro ⟨_, country, _, name, _, value, rfl, rfl, rfl⟩
    exact ⟨country, name, value⟩
  · rintro ⟨country, name, value⟩
    exact ⟨pays, country, nom, name, val, value, rfl, rfl, rfl⟩

/-- A line without texts is passed over. -/
theorem lireLignes_cons_empty {ligne : Ligne} (empty : eachText ligne = []) (lignes : List Ligne) :
    site.lireLignes parseDouble (ligne :: lignes) = site.lireLignes parseDouble lignes := by
  rw [lireLignes, List.filter_cons_of_neg (by simp [empty]), lireLignes]

/-- A line with texts is read first. -/
theorem lireLignes_cons {ligne : Ligne} (texts : eachText ligne ≠ []) (lignes : List Ligne) :
    site.lireLignes parseDouble (ligne :: lignes) =
      (site.lire parseDouble ligne).bind fun lecture =>
        (site.lireLignes parseDouble lignes).map fun lectures => lecture :: lectures := by
  rw [lireLignes, List.filter_cons_of_pos (by simp [texts]), List.mapM_cons]
  simp only [Option.bind_eq_bind, Option.pure_def, lireLignes, Option.map_eq_bind,
    Function.comp_def]

/-- The readings of a table are those of its lines with texts. -/
theorem mem_lireLignes {lignes : List Ligne} {lectures : List (Lecture δ)}
    (read : site.lireLignes parseDouble lignes = some lectures) {lecture : Lecture δ} :
    lecture ∈ lectures ↔
      ∃ ligne ∈ lignes, eachText ligne ≠ [] ∧ site.lire parseDouble ligne = some lecture := by
  induction lignes generalizing lectures with
  | nil =>
      obtain rfl := Option.some.inj read
      simp
  | cons ligne lignes ih =>
      by_cases empty : eachText ligne = []
      · rw [lireLignes_cons_empty empty] at read
        rw [ih read]
        constructor
        · rintro ⟨other, member, texts, readOther⟩
          exact ⟨other, List.mem_cons_of_mem _ member, texts, readOther⟩
        · rintro ⟨other, member, texts, readOther⟩
          rcases List.mem_cons.mp member with rfl | later
          · exact absurd empty texts
          · exact ⟨other, later, texts, readOther⟩
      · rw [lireLignes_cons empty, Option.bind_eq_some_iff] at read
        obtain ⟨first, readFirst, rest⟩ := read
        obtain ⟨later, readLater, rfl⟩ := Option.map_eq_some_iff.mp rest
        rw [List.mem_cons, ih readLater]
        constructor
        · rintro (rfl | ⟨other, member, texts, readOther⟩)
          · exact ⟨ligne, List.mem_cons_self, empty, readFirst⟩
          · exact ⟨other, List.mem_cons_of_mem _ member, texts, readOther⟩
        · rintro ⟨other, member, texts, readOther⟩
          rcases List.mem_cons.mp member with rfl | inLater
          · exact .inl (Option.some.inj (readOther.symm.trans readFirst))
          · exact .inr ⟨other, inLater, texts, readOther⟩

end Site

end Trading.Recup
