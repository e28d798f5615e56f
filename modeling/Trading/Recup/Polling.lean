import Trading.Recup.Launcher

/-!
# What a site sees of the rounds

Which lines of a polled page are handled, and on which objects, depends on the page and on
the map of the site, and on nothing else: not on the database, not on the outcome of an
insertion and not on the other sites. `vues` says it for a page without a database, and
`loopVals_vues` says that the rounds of the recorder do the same on the map at a position as
these steps alone do. `boucle_rule` and `loopVals_rule` are the rules for what a page and the
rounds keep.
-/

set_option autoImplicit false

namespace Trading.Recup

open Trading.Text

variable {σ δ : Type}

/-! ## Pages without a database -/

/-- A handled line: its reading, and the object found for it. -/
abbrev Vue (δ : Type) := Lecture δ × Indice δ

def Releve.vue (releve : Releve δ) : Vue δ := (releve.lecture, releve.indice)

/-- The object of a line gets its value. -/
def noter (lecture : Lecture δ) (indice : Indice δ) (carte : Carte δ) : Carte δ :=
  Function.update carte lecture.cle (some { indice with last := lecture.val })

/-- The lines of a page that are handled with a map. -/
def vues (parseDouble : Text → Option δ) (site : Site) :
    List Ligne → Carte δ → Carte δ × List (Vue δ)
  | [], carte => (carte, [])
  | ligne :: lignes, carte =>
      if eachText ligne = [] then vues parseDouble site lignes carte
      else
        match site.lire parseDouble ligne with
        | none => (carte, [])
        | some lecture =>
            match carte lecture.cle with
            | none => (carte, [])
            | some indice =>
                ((vues parseDouble site lignes (noter lecture indice carte)).1,
                  (lecture, indice) :: (vues parseDouble site lignes
                    (noter lecture indice carte)).2)

/-- The same for what a visit finds. -/
def vuesPage (parseDouble : Text → Option δ) (site : Site) (page : Option Page) (carte : Carte δ) :
    Carte δ × List (Vue δ) :=
  match page.bind (getAt site.table) with
  | none => (carte, [])
  | some lignes => vues parseDouble site lignes carte

/-- The same for what the visits of the rounds find. -/
def vuesTours (parseDouble : Text → Option δ) (site : Site) :
    List (Option Page) → Carte δ → Carte δ × List (List (Vue δ))
  | [], carte => (carte, [])
  | page :: pages, carte =>
      ((vuesTours parseDouble site pages (vuesPage parseDouble site page carte).1).1,
        (vuesPage parseDouble site page carte).2 ::
          (vuesTours parseDouble site pages (vuesPage parseDouble site page carte).1).2)

/-! ## The lines of a position -/

/-- The handled lines of a position. -/
def partDe (x : Nat) (releves : List (Nat × Releve δ)) : List (Releve δ) :=
  (releves.filter fun releve => decide (releve.1 = x)).map Prod.snd

theorem partDe_append (x : Nat) (first second : List (Nat × Releve δ)) :
    partDe x (first ++ second) = partDe x first ++ partDe x second := by
  simp only [partDe, List.filter_append, List.map_append]

theorem partDe_self (x : Nat) (releves : List (Releve δ)) :
    partDe x (releves.map fun releve => (x, releve)) = releves := by
  simp [partDe, List.filter_map, Function.comp_def]

theorem partDe_other {x y : Nat} (different : y ≠ x) (releves : List (Releve δ)) :
    partDe x (releves.map fun releve => (y, releve)) = [] := by
  simp [partDe, List.filter_map, Function.comp_def, different]

theorem mem_of_mem_partDe {x : Nat} {releves : List (Nat × Releve δ)} {releve : Releve δ}
    (member : releve ∈ partDe x releves) : (x, releve) ∈ releves := by
  obtain ⟨⟨y, other⟩, inFilter, rfl⟩ := List.mem_map.mp member
  obtain ⟨inReleves, same⟩ := List.mem_filter.mp inFilter
  rwa [← of_decide_eq_true same]

section Refinement

variable [DecidableEq δ] (sql : Sql σ δ) (parseDouble : Text → Option δ)

/-! ## One line -/

/-- Whatever happens to the insertion, the object has the new value afterwards. -/
theorem Indice.addVal_fst (d : δ) (type bdd : Text) (indice : Indice δ) (base : σ) :
    (indice.addVal sql d type bdd base).1 = { indice with last := d } := by
  unfold Indice.addVal
  split
  · split <;> rfl
  · rename_i same
    rw [not_not] at same
    rw [← same]

/-- A statement is executed if and only if the value is a new one. -/
theorem Indice.addVal_insertion (d : δ) (type bdd : Text) (indice : Indice δ) (base : σ) :
    (indice.addVal sql d type bdd base).2.2 = .aucune ↔ indice.last = d := by
  unfold Indice.addVal
  split
  · rename_i different
    split <;> simpa using different
  · rename_i same
    simpa using same

/-- **What a handled line does to the map.** -/
theorem relever_eq_some {site : Site} {lecture : Lecture δ} {carte carte' : Carte δ}
    {base base' : σ} {releve : Releve δ} :
    relever sql site lecture carte base = some (carte', base', releve) ↔
      ∃ indice, carte lecture.cle = some indice ∧ carte' = noter lecture indice carte ∧
        base' = (indice.addVal sql lecture.val site.type site.bdd base).2.1 ∧
        releve = ⟨lecture, indice,
          (indice.addVal sql lecture.val site.type site.bdd base).2.2⟩ := by
  simp only [relever, Option.bind_eq_bind, Option.bind_eq_some_iff, Option.pure_def,
    Option.some.injEq, Prod.mk.injEq, Indice.addVal_fst, noter]
  constructor
  · rintro ⟨indice, found, rfl, rfl, rfl⟩
    exact ⟨indice, found, rfl, rfl, rfl⟩
  · rintro ⟨indice, found, rfl, rfl, rfl⟩
    exact ⟨indice, found, rfl, rfl, rfl⟩

theorem relever_eq_none {site : Site} {lecture : Lecture δ} {carte : Carte δ} {base : σ} :
    relever sql site lecture carte base = none ↔ carte lecture.cle = none := by
  cases found : carte lecture.cle <;> simp [relever, found]

/-! ## One page -/

/-- **What each handled line keeps, a page keeps**, and what holds of each handled line holds of
all lines that the page hands on. -/
theorem boucle_rule {site : Site} {I : Carte δ → σ → Prop} {P : Releve δ → Prop}
    (lignes : List Ligne)
    (step : ∀ ligne ∈ lignes, eachText ligne ≠ [] → ∀ lecture indice carte base,
      site.lire parseDouble ligne = some lecture → carte lecture.cle = some indice →
        I carte base →
          I (noter lecture indice carte)
              (indice.addVal sql lecture.val site.type site.bdd base).2.1 ∧
            P ⟨lecture, indice, (indice.addVal sql lecture.val site.type site.bdd base).2.2⟩) :
    ∀ carte base, I carte base →
      I (boucle sql parseDouble site lignes carte base).1
          (boucle sql parseDouble site lignes carte base).2.1 ∧
        ∀ releve ∈ (boucle sql parseDouble site lignes carte base).2.2, P releve := by
  have nothing : ∀ releve ∈ ([] : List (Releve δ)), P releve :=
    fun _ absent => absurd absent List.not_mem_nil
  induction lignes with
  | nil => exact fun _ _ holds => ⟨holds, nothing⟩
  | cons ligne lignes ih =>
      intro carte base holds
      have later := ih fun other member => step other (List.mem_cons_of_mem _ member)
      rw [boucle]
      split
      · exact later carte base holds
      rename_i texts
      cases read : site.lire parseDouble ligne with
      | none => exact ⟨holds, nothing⟩
      | some lecture =>
          cases found : carte lecture.cle with
          | none =>
              simp only [(relever_eq_none sql).mpr found]
              exact ⟨holds, nothing⟩
          | some indice =>
              simp only [(relever_eq_some sql).mpr ⟨indice, found, rfl, rfl, rfl⟩]
              obtain ⟨kept, first⟩ :=
                step ligne List.mem_cons_self texts lecture indice carte base read found holds
              obtain ⟨final, rest⟩ := later _ _ kept
              refine ⟨final, fun releve member => ?_⟩
              rcases List.mem_cons.mp member with rfl | after
              · exact first
              · exact rest releve after

/-- The statements of a page are those for new values. -/
theorem boucle_statements (site : Site) (lignes : List Ligne) (carte : Carte δ) (base : σ) :
    ∀ releve ∈ (boucle sql parseDouble site lignes carte base).2.2,
      (releve.insertion = .aucune ↔ releve.indice.last = releve.lecture.val) := by
  refine (boucle_rule sql parseDouble (I := fun _ _ => True) lignes ?_ carte base trivial).2
  intro _ _ _ lecture indice _ base _ _ _
  exact ⟨trivial, Indice.addVal_insertion sql lecture.val site.type site.bdd indice base⟩

/-- **A polled page is handled as without a database.** -/
theorem boucle_vues (site : Site) (lignes : List Ligne) (carte : Carte δ) (base : σ) :
    (boucle sql parseDouble site lignes carte base).1 = (vues parseDouble site lignes carte).1 ∧
      (boucle sql parseDouble site lignes carte base).2.2.map Releve.vue =
        (vues parseDouble site lignes carte).2 := by
  induction lignes generalizing carte base with
  | nil => exact ⟨rfl, rfl⟩
  | cons ligne lignes ih =>
      rw [boucle, vues]
      split
      · exact ih carte base
      cases read : site.lire parseDouble ligne with
      | none => exact ⟨rfl, rfl⟩
      | some lecture =>
          cases found : carte lecture.cle with
          | none =>
              simp only [(relever_eq_none sql).mpr found, found]
              exact ⟨trivial, rfl⟩
          | some indice =>
              simp only [(relever_eq_some sql).mpr ⟨indice, found, rfl, rfl, rfl⟩, found]
              obtain ⟨sameMap, sameLines⟩ := ih (noter lecture indice carte)
                (indice.addVal sql lecture.val site.type site.bdd base).2.1
              exact ⟨sameMap, by rw [List.map_cons, sameLines, Releve.vue]⟩

/-! ## Rounds -/

/-- The connection and the map that are found at a position. -/
structure Launcher.At (x : Nat) (url : Text) (origine : Nat) (carte : Carte δ) (l : Launcher σ δ) :
    Prop where
  conn : l.conn[x]? = some url
  indices : l.indices[x]? = some (origine, carte)

namespace Launcher

variable {x y : Nat} {url : Text} {origine : Nat} {carte : Carte δ} {l : Launcher σ δ}

/-- **What polling a site can do**: nothing, or to handle lines with the map of its position. -/
theorem poll_cases (y : Nat) (site : Site) (visite : Text → Option Page) (l : Launcher σ δ) :
    l.poll sql parseDouble y site visite = (l, []) ∨
      ∃ url origine carte lignes, l.At y url origine carte ∧
        (visite url).bind (getAt site.table) = some lignes ∧
        l.poll sql parseDouble y site visite =
          ({ l with
              indices := l.indices.set y (origine,
                (boucle sql parseDouble site lignes carte l.base).1)
              base := (boucle sql parseDouble site lignes carte l.base).2.1 },
            (boucle sql parseDouble site lignes carte l.base).2.2) := by
  unfold poll
  cases conn : l.conn[y]? with
  | none => exact .inl rfl
  | some url =>
      cases visited : visite url with
      | none => exact .inl (by simp [visited])
      | some page =>
          cases table : getAt site.table page with
          | none => exact .inl (by simp [visited, table])
          | some lignes =>
              cases indices : l.indices[y]? with
              | none => exact .inl (by simp)
              | some entry =>
                  refine .inr ⟨url, entry.1, entry.2, lignes, ⟨conn, indices⟩, ?_, ?_⟩
                  · rw [visited, Option.bind_some, table]
                  · simp [visited, table]

/-- Polling a page with a table handles the lines of the table. -/
theorem At.poll_eq (here : l.At x url origine carte) {site : Site} {visite : Text → Option Page}
    {lignes : List Ligne} (found : (visite url).bind (getAt site.table) = some lignes) :
    l.poll sql parseDouble x site visite =
      ({ l with
          indices := l.indices.set x (origine, (boucle sql parseDouble site lignes carte l.base).1)
          base := (boucle sql parseDouble site lignes carte l.base).2.1 },
        (boucle sql parseDouble site lignes carte l.base).2.2) := by
  obtain ⟨page, visited, table⟩ := Option.bind_eq_some_iff.mp found
  simp [poll, here.conn, here.indices, visited, table]

/-- Polling the site of the position. -/
theorem At.poll_self (here : l.At x url origine carte) (site : Site) (visite : Text → Option Page) :
    (l.poll sql parseDouble x site visite).1.At x url origine
        (vuesPage parseDouble site (visite url) carte).1 ∧
      (l.poll sql parseDouble x site visite).2.map Releve.vue =
        (vuesPage parseDouble site (visite url) carte).2 := by
  obtain ⟨conn, indices⟩ := here
  have inside : x < l.indices.length := (List.getElem?_eq_some_iff.mp indices).1
  unfold vuesPage
  cases found : (visite url).bind (getAt site.table) with
  | none =>
      rcases poll_cases sql parseDouble x site visite l with
        nothing | ⟨url', _, _, lignes, here', found', -⟩
      · rw [nothing]
        exact ⟨⟨conn, indices⟩, rfl⟩
      · obtain rfl : url = url' := Option.some.inj (conn.symm.trans here'.conn)
        rw [found] at found'
        cases found'
  | some lignes =>
      obtain ⟨sameMap, sameLines⟩ := boucle_vues sql parseDouble site lignes carte l.base
      rw [At.poll_eq sql parseDouble ⟨conn, indices⟩ found]
      exact ⟨⟨conn, by rw [List.getElem?_set_self inside, sameMap]⟩, sameLines⟩

/-- Polling another site. -/
theorem At.poll_other (here : l.At x url origine carte) (different : y ≠ x) (site : Site)
    (visite : Text → Option Page) :
    (l.poll sql parseDouble y site visite).1.At x url origine carte := by
  rcases poll_cases sql parseDouble y site visite l with
    nothing | ⟨_, _, _, _, _, _, polled⟩
  · rw [nothing]
    exact here
  · rw [polled]
    exact ⟨here.conn, by rw [List.getElem?_set_ne different, here.indices]⟩

/-- A round before the position is reached, or after it, passes it by. -/
theorem At.tour_other (visite : Nat → Text → Option Page) (sites : List Site) :
    ∀ {y : Nat} {l : Launcher σ δ}, l.At x url origine carte → (x < y ∨ y + sites.length ≤ x) →
      (l.tour sql parseDouble visite y sites).1.At x url origine carte ∧
        partDe x (l.tour sql parseDouble visite y sites).2 = [] := by
  induction sites with
  | nil => exact fun here _ => ⟨here, rfl⟩
  | cons site sites ih =>
      intro y l here outside
      have outside' : x < y + 1 ∨ y + 1 + sites.length ≤ x := by
        rw [List.length_cons] at outside
        omega
      have different : y ≠ x := by
        rw [List.length_cons] at outside
        omega
      obtain ⟨after, later⟩ :=
        ih (here.poll_other sql parseDouble different site (visite y)) outside'
      refine ⟨after, ?_⟩
      simp only [tour, partDe_append, partDe_other different, later, List.append_nil]

/-- **A round does on a position what its own page does.** -/
theorem At.tour_self (visite : Nat → Text → Option Page) (sites : List Site) :
    ∀ {y : Nat} {l : Launcher σ δ} {site : Site}, l.At x url origine carte → y ≤ x →
      sites[x - y]? = some site →
        (l.tour sql parseDouble visite y sites).1.At x url origine
            (vuesPage parseDouble site (visite x url) carte).1 ∧
          (partDe x (l.tour sql parseDouble visite y sites).2).map Releve.vue =
            (vuesPage parseDouble site (visite x url) carte).2 := by
  induction sites with
  | nil => intro y l site _ _ found; cases found
  | cons first sites ih =>
      intro y l site here before found
      rcases Nat.eq_or_lt_of_le before with rfl | later
      · rw [Nat.sub_self, List.getElem?_cons_zero, Option.some.injEq] at found
        subst found
        obtain ⟨after, seen⟩ := here.poll_self sql parseDouble first (visite y)
        obtain ⟨final, rest⟩ := after.tour_other sql parseDouble visite sites
          (.inl (Nat.lt_succ_self y))
        refine ⟨final, ?_⟩
        simp only [tour, partDe_append, partDe_self, rest, List.append_nil]
        exact seen
      · have step : x - y = x - (y + 1) + 1 := by omega
        rw [step, List.getElem?_cons_succ] at found
        obtain ⟨final, seen⟩ :=
          ih (here.poll_other sql parseDouble (Nat.ne_of_lt later) first (visite y))
          later found
        refine ⟨final, ?_⟩
        simp only [tour, partDe_append, partDe_other (Nat.ne_of_lt later), List.nil_append]
        exact seen

/-- **The rounds do on a position what its own pages do.** -/
theorem At.loopVals_vues {sites : List Site} {site : Site} (found : sites[x]? = some site)
    (verifDate : Nat → σ → σ) (visites : List (Nat → Text → Option Page)) :
    ∀ {nb : Nat} {l : Launcher σ δ} {carte : Carte δ}, l.At x url origine carte →
      (l.loopVals sql parseDouble verifDate sites nb visites).1.At x url origine
          (vuesTours parseDouble site (visites.map fun visite => visite x url) carte).1 ∧
        (l.loopVals sql parseDouble verifDate sites nb visites).2.map
            (fun releves => (partDe x releves).map Releve.vue) =
          (vuesTours parseDouble site (visites.map fun visite => visite x url) carte).2 := by
  induction visites with
  | nil => exact fun here => ⟨here, rfl⟩
  | cons visite visites ih =>
      intro nb l carte here
      obtain ⟨after, seen⟩ := here.tour_self sql parseDouble visite sites (Nat.zero_le x)
        (by rwa [Nat.sub_zero])
      rw [loopVals, List.map_cons, vuesTours, List.map_cons, seen]
      have checked : (if (nb + 1) % 1000 = 0 then
          { (l.tour sql parseDouble visite 0 sites).1 with
            base := verifDate (nb + 1) (l.tour sql parseDouble visite 0 sites).1.base }
          else (l.tour sql parseDouble visite 0 sites).1).At x url origine
            (vuesPage parseDouble site (visite x url) carte).1 := by
        split
        · exact ⟨after.conn, after.indices⟩
        · exact after
      obtain ⟨final, rest⟩ := @ih (nb + 1) _ _ checked
      exact ⟨final, by rw [rest]⟩

/-! ## Invariants of the rounds -/

variable {sql parseDouble} {Inv : Launcher σ δ → Prop} {P : Nat → Releve δ → Prop}

/-- The next of the sites that remain, and the sites after it. -/
theorem of_cons_eq_drop {all sites : List Site} {site : Site} {x : Nat}
    (rest : site :: sites = all.drop x) : all[x]? = some site ∧ sites = all.drop (x + 1) := by
  constructor
  · rw [← List.head?_drop, ← rest, List.head?_cons]
  · rw [← List.tail_drop, ← rest, List.tail_cons]

/-- What every poll keeps, a round keeps. -/
theorem tour_rule {visite : Nat → Text → Option Page} {all : List Site}
    (poll : ∀ x site l, all[x]? = some site → Inv l →
      Inv (l.poll sql parseDouble x site (visite x)).1 ∧
        ∀ releve ∈ (l.poll sql parseDouble x site (visite x)).2, P x releve) :
    ∀ (sites : List Site) (x : Nat) (l : Launcher σ δ), sites = all.drop x → Inv l →
      Inv (l.tour sql parseDouble visite x sites).1 ∧
        ∀ place ∈ (l.tour sql parseDouble visite x sites).2, P place.1 place.2 := by
  intro sites
  induction sites with
  | nil => exact fun x l _ holds => ⟨holds, fun _ member => absurd member List.not_mem_nil⟩
  | cons site sites ih =>
      intro x l rest holds
      obtain ⟨found, tail⟩ := of_cons_eq_drop rest
      obtain ⟨kept, handled⟩ := poll x site l found holds
      obtain ⟨final, later⟩ := ih (x + 1) _ tail kept
      refine ⟨final, fun place member => ?_⟩
      rcases List.mem_append.mp member with here | after
      · obtain ⟨releve, inPoll, rfl⟩ := List.mem_map.mp here
        exact handled releve inPoll
      · exact later place after

/-- **What every poll and `verifDate` keep, all rounds keep.** -/
theorem loopVals_rule {verifDate : Nat → σ → σ} {sites : List Site}
    (verif : ∀ nb l, Inv l → Inv { l with base := verifDate nb l.base })
    (visites : List (Nat → Text → Option Page))
    (poll : ∀ visite ∈ visites, ∀ x site l, sites[x]? = some site → Inv l →
      Inv (l.poll sql parseDouble x site (visite x)).1 ∧
        ∀ releve ∈ (l.poll sql parseDouble x site (visite x)).2, P x releve) :
    ∀ (nb : Nat) (l : Launcher σ δ), Inv l →
      Inv (l.loopVals sql parseDouble verifDate sites nb visites).1 ∧
        ∀ releves ∈ (l.loopVals sql parseDouble verifDate sites nb visites).2,
          ∀ place ∈ releves, P place.1 place.2 := by
  induction visites with
  | nil => exact fun nb l holds => ⟨holds, fun _ member => absurd member List.not_mem_nil⟩
  | cons visite visites ih =>
      intro nb l holds
      obtain ⟨kept, handled⟩ := tour_rule (poll visite List.mem_cons_self) sites 0 l rfl holds
      have checked : Inv (if (nb + 1) % 1000 = 0 then
          { (l.tour sql parseDouble visite 0 sites).1 with
            base := verifDate (nb + 1) (l.tour sql parseDouble visite 0 sites).1.base }
          else (l.tour sql parseDouble visite 0 sites).1) := by
        split
        · exact verif (nb + 1) _ kept
        · exact kept
      obtain ⟨final, later⟩ :=
        ih (fun other member => poll other (List.mem_cons_of_mem _ member)) (nb + 1) _ checked
      refine ⟨final, fun releves member => ?_⟩
      rcases List.mem_cons.mp member with rfl | after
      · exact handled
      · exact later releves after

end Launcher

end Refinement

end Trading.Recup
