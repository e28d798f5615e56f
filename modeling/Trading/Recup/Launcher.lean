import Mathlib.Logic.Function.Basic
import Trading.Recup.Page

/-!
# The recorder

The recorder reads the page of each site once, registers its instruments and keeps a map of
`Indice` objects for it. Then it polls the pages for ever, and a value that differs from the
last one of its object is inserted into a value table.

* `recupIndices` is the start. The connection of a site is appended to `conn` before its page is
  fetched, and its map to `indices` after its last line.
* `loopVals` is a number of rounds over the sites. A round looks up both lists by the position
  of the site.

The database is a parameter: `Sql` has the three statements that the recorder executes, where
`none` is an `SQLException`. Every exception inside a site ends the work on that site, and what
was done before it stays. Each map carries the position of the site from whose page it was
built.
-/

set_option autoImplicit false

namespace Trading.Recup

open Trading.Text

variable {σ δ : Type}

/-! ## Statements -/

/-- The statements of the recorder on a database. -/
structure Sql (σ δ : Type) where
  /-- `INSERT INTO PAYS`. -/
  insertPays : (pays : Text) → σ → Option σ
  /-- `INSERT INTO SITE[6]`. -/
  insertIndice : (bdd pays nom : Text) → σ → Option σ
  /-- `INSERT INTO type (ID,VAL)`, with the identifier that is stored. -/
  insertVal : (type bdd nom : Text) → δ → σ → Option (σ × Option Int)

/-- What became of the `INSERT` of a value. -/
inductive Insertion where
  | aucune
  | refusee
  | faite (id : Option Int)
  deriving DecidableEq

/-! ## Objects and maps -/

structure Indice (δ : Type) where
  last : δ
  nom : Text
  deriving DecidableEq

/-- `HashMap<String,Indice>`. -/
abbrev Carte (δ : Type) := Text → Option (Indice δ)

/-- A line that was handled: its reading, the object found for it as it was before, and the
insertion. -/
structure Releve (δ : Type) where
  lecture : Lecture δ
  indice : Indice δ
  insertion : Insertion
  deriving DecidableEq

section Polls

variable [DecidableEq δ] (sql : Sql σ δ) (parseDouble : Text → Option δ)

/-- `addVal`. The last value changes before the statement is executed. -/
def Indice.addVal (d : δ) (type bdd : Text) (indice : Indice δ) (base : σ) :
    Indice δ × σ × Insertion :=
  if indice.last ≠ d then
    match sql.insertVal type bdd indice.nom d base with
    | some (base', id) => ({ indice with last := d }, base', .faite id)
    | none => ({ indice with last := d }, base, .refusee)
  else (indice, base, .aucune)

/-- `indices.get(x).get(nom+pays).addVal(val,st,SITE[1],SITE[6])`. -/
def relever (site : Site) (lecture : Lecture δ) (carte : Carte δ) (base : σ) :
    Option (Carte δ × σ × Releve δ) := do
  let indice ← carte lecture.cle
  let (indice', base', insertion) := indice.addVal sql lecture.val site.type site.bdd base
  return (Function.update carte lecture.cle (some indice'), base', ⟨lecture, indice, insertion⟩)

/-- The lines of a polled page, up to an exception. -/
def boucle (site : Site) : List Ligne → Carte δ → σ → Carte δ × σ × List (Releve δ)
  | [], carte, base => (carte, base, [])
  | ligne :: lignes, carte, base =>
      if eachText ligne = [] then boucle site lignes carte base
      else
        match site.lire parseDouble ligne with
        | none => (carte, base, [])
        | some lecture =>
            match relever sql site lecture carte base with
            | none => (carte, base, [])
            | some (carte', base', releve) =>
                let (carte'', base'', releves) := boucle site lignes carte' base'
                (carte'', base'', releve :: releves)

/-! ## Polling -/

/-- The fields of the recorder: the address of each connection, each map with the position of
the site from whose page it was built, and the database. -/
structure Launcher (σ δ : Type) where
  conn : List Text
  indices : List (Nat × Carte δ)
  base : σ

namespace Launcher

/-- One site of a round. Without a connection, a page, a table or a map nothing happens: the
exception comes before the first insertion. -/
def poll (x : Nat) (site : Site) (visite : Text → Option Page) (l : Launcher σ δ) :
    Launcher σ δ × List (Releve δ) :=
  let polled : Option (Launcher σ δ × List (Releve δ)) := do
    let page ← visite (← l.conn[x]?)
    let lignes ← getAt site.table page
    let (origine, carte) ← l.indices[x]?
    let (carte', base', releves) := boucle sql parseDouble site lignes carte l.base
    return ({ l with indices := l.indices.set x (origine, carte'), base := base' }, releves)
  polled.getD (l, [])

/-- A round over the sites from position `x` on, with the pages that the visits of each
position find. The handled lines are marked by the position of their site. -/
def tour (visite : Nat → Text → Option Page) :
    Nat → List Site → Launcher σ δ → Launcher σ δ × List (Nat × Releve δ)
  | _, [], l => (l, [])
  | x, site :: sites, l =>
      let (l', releves) := l.poll sql parseDouble x site (visite x)
      let (l'', suite) := tour visite (x + 1) sites l'
      (l'', releves.map (fun releve => (x, releve)) ++ suite)

/-- Rounds, numbered from `nb + 1` on. Every thousandth of them is followed by `verifDate`. -/
def loopVals (verifDate : Nat → σ → σ) (sites : List Site) :
    Nat → List (Nat → Text → Option Page) → Launcher σ δ →
      Launcher σ δ × List (List (Nat × Releve δ))
  | _, [], l => (l, [])
  | nb, visite :: visites, l =>
      let (l', releves) := l.tour sql parseDouble visite 0 sites
      let l'' := if (nb + 1) % 1000 = 0 then { l' with base := verifDate (nb + 1) l'.base } else l'
      let (fin, suite) := loopVals verifDate sites (nb + 1) visites l''
      (fin, releves :: suite)

end Launcher

end Polls

/-! ## The start -/

/-- How far the work on a site gets: an exception before `conn.add`, an exception of
`c.get()`, or a page. With a page, an exception that no cell causes may end the work at a
line: `st` is null where the database was not reached. -/
inductive Acces where
  | refus
  | silence
  | page (page : Page) (panne : Option Nat)

section Start

variable (sql : Sql σ δ) (parseDouble : Text → Option δ)

/-- The lines of a start-up page: the database after them and the map, unless there was an
exception. -/
def recupLignes (site : Site) : List Ligne → Option Nat → Carte δ → σ → σ × Option (Carte δ)
  | [], _, carte, base => (base, some carte)
  | ligne :: lignes, panne, carte, base =>
      if eachText ligne = [] then recupLignes site lignes panne carte base
      else
        match site.lirePays ligne with
        | none => (base, none)
        | some pays =>
            if panne = some 0 then (base, none)
            else
              let base' := (sql.insertPays pays base).getD base
              match site.lireNom ligne, site.lireVal parseDouble ligne with
              | some nom, some val =>
                  recupLignes site lignes (panne.map Nat.pred)
                    (Function.update carte (nom ++ pays) (some ⟨val, nom⟩))
                    ((sql.insertIndice site.bdd pays nom base').getD base')
              | _, _ => (base', none)

namespace Launcher

/-- One site of the start. -/
def recupSite (x : Nat) (site : Site) (l : Launcher σ δ) : Acces → Launcher σ δ
  | .refus => l
  | .silence => { l with conn := l.conn ++ [site.url] }
  | .page page panne =>
      match getAt site.table page with
      | none => { l with conn := l.conn ++ [site.url] }
      | some lignes =>
          match recupLignes sql parseDouble site lignes panne (fun _ => none) l.base with
          | (base, none) => { l with conn := l.conn ++ [site.url], base := base }
          | (base, some carte) =>
              { conn := l.conn ++ [site.url], indices := l.indices ++ [(x, carte)], base := base }

/-- The start, from the site at position `x` on. -/
def recupIndices (acces : Nat → Acces) : Nat → List Site → Launcher σ δ → Launcher σ δ
  | _, [], l => l
  | x, site :: sites, l =>
      recupIndices acces (x + 1) sites (l.recupSite sql parseDouble x site (acces x))

/-- The recorder after its start on a database. -/
def demarrage (acces : Nat → Acces) (sites : List Site) (base : σ) : Launcher σ δ :=
  recupIndices sql parseDouble acces 0 sites ⟨[], [], base⟩

end Launcher

end Start

end Trading.Recup
