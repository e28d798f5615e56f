import Mathlib.Data.List.Destutter
import Trading.Recup.StartUp

/-!
# The change log

The recorder inserts a value when it differs from the last one of its object. So the values
inserted for an instrument are the sequence of the values that the start-up page and the polled
pages show for it, without consecutive repetitions and without the first of them
(`recorder_stores_the_changes`).

`changes` is that sequence, as a function of the values alone. `changes_suivre` says that
the objects of a map compute it, one instrument not disturbing another.
-/

set_option autoImplicit false

namespace Trading.Recup

open Trading.Text

variable {σ δ : Type}

/-! ## Readings that are all handled -/

/-- Readings handled one after the other. -/
def suivre : List (Lecture δ) → Carte δ → Carte δ × List (Vue δ)
  | [], carte => (carte, [])
  | lecture :: lectures, carte =>
      match carte lecture.cle with
      | none => (carte, [])
      | some indice =>
          ((suivre lectures (noter lecture indice carte)).1,
            (lecture, indice) :: (suivre lectures (noter lecture indice carte)).2)

/-- The keys of the readings are in the map. -/
def Connues (lectures : List (Lecture δ)) (carte : Carte δ) : Prop :=
  ∀ lecture ∈ lectures, (carte lecture.cle).isSome = true

theorem isSome_noter {lecture : Lecture δ} {indice : Indice δ} {carte : Carte δ} {cle : Text}
    (known : (carte cle).isSome = true) : (noter lecture indice carte cle).isSome = true := by
  by_cases sameKey : cle = lecture.cle
  · rw [noter, sameKey, Function.update_self, Option.isSome_some]
  · rw [noter, Function.update_of_ne sameKey, known]

theorem Connues.tail {lecture : Lecture δ} {lectures : List (Lecture δ)} {carte : Carte δ}
    (known : Connues (lecture :: lectures) carte) (indice : Indice δ) :
    Connues lectures (noter lecture indice carte) := fun other member =>
  isSome_noter (known other (List.mem_cons_of_mem _ member))

/-- The map keeps its keys. -/
theorem isSome_suivre (lectures : List (Lecture δ)) {carte : Carte δ} {cle : Text}
    (known : (carte cle).isSome = true) : ((suivre lectures carte).1 cle).isSome = true := by
  induction lectures generalizing carte with
  | nil => exact known
  | cons lecture lectures ih =>
      rw [suivre]
      split
      · exact known
      · exact ih (isSome_noter known)

/-- Every reading is handled, in order. -/
theorem map_fst_suivre {lectures : List (Lecture δ)} {carte : Carte δ}
    (known : Connues lectures carte) : (suivre lectures carte).2.map Prod.fst = lectures := by
  induction lectures generalizing carte with
  | nil => rfl
  | cons lecture lectures ih =>
      obtain ⟨indice, found⟩ := Option.isSome_iff_exists.mp (known lecture List.mem_cons_self)
      simp only [suivre, found, List.map_cons, ih (known.tail indice)]

theorem suivre_append {first second : List (Lecture δ)} {carte : Carte δ}
    (known : Connues first carte) :
    suivre (first ++ second) carte =
      ((suivre second (suivre first carte).1).1,
        (suivre first carte).2 ++ (suivre second (suivre first carte).1).2) := by
  induction first generalizing carte with
  | nil => rfl
  | cons lecture first ih =>
      obtain ⟨indice, found⟩ := Option.isSome_iff_exists.mp (known lecture List.mem_cons_self)
      simp only [List.cons_append, suivre, found, ih (known.tail indice)]

/-- A page that can be read is handled reading by reading. -/
theorem vues_eq_suivre {parseDouble : Text → Option δ} {site : Site} {lignes : List Ligne}
    {lectures : List (Lecture δ)} (read : site.lireLignes parseDouble lignes = some lectures)
    {carte : Carte δ} (known : Connues lectures carte) :
    vues parseDouble site lignes carte = suivre lectures carte := by
  induction lignes generalizing lectures carte with
  | nil =>
      obtain rfl := Option.some.inj read
      rfl
  | cons ligne lignes ih =>
      rw [vues]
      split
      · rename_i empty
        rw [Site.lireLignes_cons_empty empty] at read
        exact ih read known
      · rename_i texts
        rw [Site.lireLignes_cons texts, Option.bind_eq_some_iff] at read
        obtain ⟨lecture, first, rest⟩ := read
        obtain ⟨later, readLater, rfl⟩ := Option.map_eq_some_iff.mp rest
        obtain ⟨indice, found⟩ := Option.isSome_iff_exists.mp (known lecture List.mem_cons_self)
        simp only [first, found, suivre, ih readLater (known.tail indice)]

/-- The visits of the rounds find pages that can be read, with these readings. -/
def Lisibles (parseDouble : Text → Option δ) (site : Site) (pages : List (Option Page))
    (lectures : List (List (Lecture δ))) : Prop :=
  List.Forall₂ (fun page read => page.bind (site.lirePage parseDouble) = some read) pages lectures

theorem vuesPage_eq_suivre {parseDouble : Text → Option δ} {site : Site} {page : Option Page}
    {lectures : List (Lecture δ)} (read : page.bind (site.lirePage parseDouble) = some lectures)
    {carte : Carte δ} (known : Connues lectures carte) :
    vuesPage parseDouble site page carte = suivre lectures carte := by
  obtain ⟨content, rfl, readPage⟩ := Option.bind_eq_some_iff.mp read
  obtain ⟨lignes, table, readLignes⟩ := Option.bind_eq_some_iff.mp readPage
  rw [vuesPage, Option.bind_some, table]
  exact vues_eq_suivre readLignes known

/-- **Pages that can be read are handled reading by reading**, each in its order. -/
theorem vuesTours_eq_suivre {parseDouble : Text → Option δ} {site : Site}
    {pages : List (Option Page)} {lectures : List (List (Lecture δ))}
    (readable : Lisibles parseDouble site pages lectures) {carte : Carte δ}
    (known : Connues lectures.flatten carte) :
    (vuesTours parseDouble site pages carte).2.flatten = (suivre lectures.flatten carte).2 ∧
      List.Forall₂ (fun handled read => handled.map Prod.fst = read)
        (vuesTours parseDouble site pages carte).2 lectures := by
  induction readable generalizing carte with
  | nil => exact ⟨rfl, .nil⟩
  | @cons page first pages lectures read _ ih =>
      have knownFirst : Connues first carte := fun lecture member =>
        known lecture (List.mem_append_left _ member)
      have knownLater : Connues lectures.flatten (suivre first carte).1 := fun lecture member =>
        isSome_suivre first (known lecture (List.mem_append_right _ member))
      obtain ⟨later, inOrder⟩ := ih knownLater
      rw [vuesTours, vuesPage_eq_suivre read knownFirst, List.flatten_cons, List.flatten_cons,
        suivre_append knownFirst, later]
      exact ⟨rfl, .cons (map_fst_suivre knownFirst) inOrder⟩

variable [DecidableEq δ]

/-! ## Changes -/

/-- The values that differ from the one before them. -/
def changes : δ → List δ → List δ
  | _, [] => []
  | last, val :: vals => if last ≠ val then val :: changes val vals else changes val vals

/-- A sequence without repetitions is its first value and the changes. -/
theorem destutter_eq_changes (first : δ) (vals : List δ) :
    (first :: vals).destutter (· ≠ ·) = first :: changes first vals := by
  rw [List.destutter_cons']
  induction vals generalizing first with
  | nil => rfl
  | cons val vals ih =>
      by_cases same : first = val
      · subst same
        rw [List.destutter'_cons_neg (h := not_not.mpr rfl), ih, changes, if_neg (not_not.mpr rfl)]
      · rw [List.destutter'_cons_pos (h := same), ih, changes, if_pos same]

/-! ## The changes of an instrument -/

/-- The reading of a handled line, if its value is a new one. -/
def nouvelle (vue : Vue δ) : Option (Lecture δ) :=
  if vue.2.last ≠ vue.1.val then some vue.1 else none

/-- The values that readings show for a key. -/
def valeursDe (cle : Text) (lectures : List (Lecture δ)) : List δ :=
  (lectures.filter fun lecture => decide (lecture.cle = cle)).map Lecture.val

/-- **The new values handled for a key are the changes of the values shown for it.** -/
theorem changes_suivre {lectures : List (Lecture δ)} {carte : Carte δ}
    (known : Connues lectures carte) {cle : Text} {indice : Indice δ}
    (tracked : carte cle = some indice) :
    valeursDe cle ((suivre lectures carte).2.filterMap nouvelle) =
      changes indice.last (valeursDe cle lectures) := by
  induction lectures generalizing carte indice with
  | nil => rfl
  | cons lecture lectures ih =>
      obtain ⟨object, found⟩ := Option.isSome_iff_exists.mp (known lecture List.mem_cons_self)
      simp only [suivre, found, List.filterMap_cons, nouvelle]
      by_cases sameKey : lecture.cle = cle
      · obtain rfl : object = indice := by
          rw [sameKey, tracked] at found
          exact (Option.some.inj found).symm
        have updated : noter lecture object carte cle =
            some { object with last := lecture.val } := by
          rw [noter, sameKey, Function.update_self]
        have later := ih (known.tail object) updated
        have shown : valeursDe cle (lecture :: lectures) =
            lecture.val :: valeursDe cle lectures := by
          rw [valeursDe, List.filter_cons_of_pos (by simpa using sameKey), List.map_cons, valeursDe]
        rw [shown, changes]
        split
        · rename_i different
          rw [if_neg (by simpa using different), later]
        · rename_i reading different
          obtain ⟨changed, rfl⟩ : object.last ≠ lecture.val ∧ lecture = reading := by
            simpa using different
          rw [if_pos changed, valeursDe, List.filter_cons_of_pos (by simpa using sameKey),
            List.map_cons, ← valeursDe, later]
      · -- the line of another instrument leaves this one's object alone
        have unchanged : noter lecture object carte cle = some indice := by
          rw [noter, Function.update_of_ne (Ne.symm sameKey), tracked]
        have later := ih (known.tail object) unchanged
        have shown : valeursDe cle (lecture :: lectures) = valeursDe cle lectures := by
          rw [valeursDe, List.filter_cons_of_neg (by simpa using sameKey), valeursDe]
        rw [shown, ← later]
        split
        · rfl
        · rename_i reading different
          obtain ⟨-, rfl⟩ : object.last ≠ lecture.val ∧ lecture = reading := by
            simpa using different
          rw [valeursDe, List.filter_cons_of_neg (by simpa using sameKey), ← valeursDe]

/-- The new readings are in the order in which they are handled. -/
theorem filterMap_nouvelle_sublist (vues : List (Vue δ)) :
    (vues.filterMap nouvelle).Sublist (vues.map Prod.fst) := by
  induction vues with
  | nil => exact List.Sublist.slnil
  | cons vue vues ih =>
      rw [List.filterMap_cons, List.map_cons, nouvelle]
      split
      · exact ih.cons _
      · rename_i reading different
        obtain ⟨-, rfl⟩ : vue.2.last ≠ vue.1.val ∧ vue.1 = reading := by simpa using different
        exact ih.cons_cons _

/-! ## The rounds of the recorder -/

/-- The reading of a handled line, if it was stored. -/
def Releve.inseree (releve : Releve δ) : Option (Lecture δ) :=
  match releve.insertion with
  | .faite _ => some releve.lecture
  | _ => none

/-- The readings that a round stores through the map of a position. -/
def inserees (x : Nat) (releves : List (Nat × Releve δ)) : List (Lecture δ) :=
  (partDe x releves).filterMap Releve.inseree

/-- Where no insertion is refused, a handled line is stored if and only if its value is new. -/
theorem inserees_eq_nouvelles {x : Nat} {releves : List (Nat × Releve δ)}
    (statements : ∀ releve ∈ partDe x releves,
      (releve.insertion = .aucune ↔ releve.indice.last = releve.lecture.val))
    (accepted : ∀ releve ∈ partDe x releves, releve.insertion ≠ .refusee) :
    inserees x releves = ((partDe x releves).map Releve.vue).filterMap nouvelle := by
  rw [inserees, List.filterMap_map]
  apply List.filterMap_congr
  intro releve member
  have executed := statements releve member
  have notRefused := accepted releve member
  rw [Function.comp_apply, nouvelle, Releve.vue, Releve.inseree]
  cases outcome : releve.insertion with
  | aucune => rw [if_neg (not_not.mpr (executed.mp outcome))]
  | refusee => exact absurd outcome notRefused
  | faite id =>
      have changed : releve.indice.last ≠ releve.lecture.val := fun same => by
        rw [executed.mpr same] at outcome
        cases outcome
      rw [if_pos changed]

/-- The statements of a run are executed for the new values only. -/
theorem Launcher.loopVals_statements (sql : Sql σ δ) (parseDouble : Text → Option δ)
    (verifDate : Nat → σ → σ) (sites : List Site) (visites : List (Nat → Text → Option Page))
    (l : Launcher σ δ) :
    ∀ releves ∈ (l.loopVals sql parseDouble verifDate sites 0 visites).2, ∀ place ∈ releves,
      (place.2.insertion = .aucune ↔ place.2.indice.last = place.2.lecture.val) := by
  have always : ∀ (nb : Nat) (l : Launcher σ δ), True →
      (fun _ => True) { l with base := verifDate nb l.base } := fun _ _ _ => trivial
  refine (Launcher.loopVals_rule
    (P := fun _ releve => releve.insertion = .aucune ↔ releve.indice.last = releve.lecture.val)
    always visites ?_ 0 l trivial).2
  intro visite _ x site l _ _
  refine ⟨trivial, fun releve member => ?_⟩
  rcases Launcher.poll_cases sql parseDouble x site (visite x) l with
    nothing | ⟨_, _, carte, lignes, _, _, polled⟩
  · rw [nothing] at member
    exact absurd member List.not_mem_nil
  · rw [polled] at member
    exact boucle_statements sql parseDouble site lignes carte l.base releve member

/-- The rounds store through a map of different keys exactly the changes, each round in the order
of its page. -/
theorem Launcher.At.stores_the_changes {sql : Sql σ δ} {parseDouble : Text → Option δ}
    {verifDate : Nat → σ → σ} {sites : List Site} {l : Launcher σ δ} {x place : Nat} {site : Site}
    {url : Text} {depart : List (Lecture δ)} (distinct : (depart.map Lecture.cle).Nodup)
    (here : l.At place url x (carteDe depart)) (found : sites[place]? = some site)
    {lectures : List (List (Lecture δ))} {visites : List (Nat → Text → Option Page)}
    (readable : Lisibles parseDouble site (visites.map fun visite => visite place url) lectures)
    (listed : ∀ lecture ∈ lectures.flatten, lecture.cle ∈ depart.map Lecture.cle)
    (accepted : ∀ releves ∈ (l.loopVals sql parseDouble verifDate sites 0 visites).2,
      ∀ releve ∈ partDe place releves, releve.insertion ≠ .refusee) :
    (∀ first ∈ depart,
      valeursDe first.cle ((l.loopVals sql parseDouble verifDate sites 0 visites).2.flatMap
          (inserees place)) =
        ((first.val :: valeursDe first.cle lectures.flatten).destutter (· ≠ ·)).tail) ∧
      List.Forall₂ (fun releves read => (inserees place releves).Sublist read)
        (l.loopVals sql parseDouble verifDate sites 0 visites).2 lectures := by
  have known : Connues lectures.flatten (carteDe depart) := by
    intro lecture member
    obtain ⟨first, inDepart, sameKey⟩ := List.mem_map.mp (listed lecture member)
    rw [← sameKey, carteDe_of_mem distinct inDepart, Option.isSome_some]
  have statements := Launcher.loopVals_statements sql parseDouble verifDate sites visites l
  have seen : (l.loopVals sql parseDouble verifDate sites 0 visites).2.map
      (fun releves => (partDe place releves).map Releve.vue) =
        (vuesTours parseDouble site (visites.map fun visite => visite place url)
          (carteDe depart)).2 :=
    (here.loopVals_vues sql parseDouble found verifDate visites).2
  obtain ⟨handled, inOrder⟩ := vuesTours_eq_suivre readable known
  generalize (l.loopVals sql parseDouble verifDate sites 0 visites).2 = rounds
    at accepted statements seen ⊢
  have stored : ∀ releves ∈ rounds,
      inserees place releves = ((partDe place releves).map Releve.vue).filterMap nouvelle :=
    fun releves member => inserees_eq_nouvelles
      (fun releve part => statements releves member _ (mem_of_mem_partDe part))
      (accepted releves member)
  constructor
  · intro first inDepart
    have allStored : rounds.flatMap (inserees place) =
        (suivre lectures.flatten (carteDe depart)).2.filterMap nouvelle := by
      rw [List.flatMap_congr stored, ← handled, ← seen, ← List.flatMap_def, List.filterMap_flatMap]
    rw [allStored, changes_suivre known (carteDe_of_mem distinct inDepart), destutter_eq_changes,
      List.tail_cons]
  · have perRound : rounds.map (inserees place) =
        (rounds.map fun releves => (partDe place releves).map Releve.vue).map
          (List.filterMap nouvelle) := by
      rw [List.map_map, List.map_congr_left stored]
      rfl
    refine (List.forall₂_map_left_iff (f := inserees place) (R := List.Sublist)).mp ?_
    rw [perRound, seen, List.forall₂_map_left_iff]
    exact inOrder.imp fun handled read same => same ▸ filterMap_nouvelle_sublist handled

/-- Three rounds over the pages of two instruments. -/
def metalsRounds : List (Nat → Text → Option Page) :=
  [fun _ _ => some (metalsPage "8".toList "5".toList),
    fun _ _ => some (metalsPage "8".toList "6".toList),
    fun _ _ => some (metalsPage "7".toList "4".toList)]

/-- The readings of these pages. -/
def metalsLectures : List (List (Lecture Int)) :=
  [[⟨"Gold".toList, "Japan".toList, 8⟩, ⟨"Silver".toList, "France".toList, 5⟩],
    [⟨"Gold".toList, "Japan".toList, 8⟩, ⟨"Silver".toList, "France".toList, 6⟩],
    [⟨"Gold".toList, "Japan".toList, 7⟩, ⟨"Silver".toList, "France".toList, 4⟩]]

/-- What the recorder handles in these rounds, on a database that accepts every statement. -/
def metalsReleves : List (List (Nat × Releve Int)) :=
  ((Launcher.demarrage acceptingSql parseInt
      (fun _ => .page (metalsPage "7".toList "5".toList) none) twoSites ()).loopVals acceptingSql
    parseInt (fun _ base => base) twoSites 0 metalsRounds).2

end Trading.Recup
