import Trading.Recup.StartUp

/-!
# Countries and registered instruments

The tables that the recorder writes at its start: `PAYS` with the countries, and a registry
table for each category with the instruments. Both give a new row the identifier after the
greatest one, `PAYS` rejects a name that it has, and a registry rejects a pair of country and
name that it has. The identifier of a value is looked up by the name alone.

`Fidele` is what the start keeps: each name that it registers belongs to one country. Where it
holds and an instrument is registered (`Inscrit`), the lookup finds the identifier of the
instrument and no other (`insertVal_inscrit`).
-/

set_option autoImplicit false

namespace Trading.Recup

open Trading.Text

variable {δ : Type}

/-! ## Tables -/

/-- A row of `PAYS`. -/
structure PaysRow where
  id : Int
  nom : Text
  deriving DecidableEq

/-- The tables of the recorder; of a row of a value table, the identifier and the value. -/
structure Base (δ : Type) where
  pays : List PaysRow
  registry : Text → List RegistryRow
  vals : Text → List (Option Int × δ)

/-- `COALESCE(MAX(ID)+1,0)`. -/
def suivant (ids : List Int) : Int :=
  match ids.max? with
  | none => 0
  | some greatest => greatest + 1

/-- The value of a subquery: null without a row, and an error with several. -/
def scalaire : List Int → Option (Option Int)
  | [] => some none
  | [id] => some (some id)
  | _ => none

/-- A registry with one more row. -/
def Base.ajouter (bdd : Text) (row : RegistryRow) (base : Base δ) : Base δ :=
  { base with registry := Function.update base.registry bdd (base.registry bdd ++ [row]) }

/-- The statements of the recorder on the tables. The names are put between quotes. -/
def sqlBase : Sql (Base δ) δ where
  insertPays pays base := do
    let nom ← unquote pays
    if nom ∈ base.pays.map PaysRow.nom then none
    else some { base with pays := base.pays ++ [⟨suivant (base.pays.map PaysRow.id), nom⟩] }
  insertIndice bdd pays nom base := do
    let pays ← unquote pays
    let nom ← unquote nom
    let id ← scalaire ((base.pays.filter fun row => decide (row.nom = pays)).map PaysRow.id)
    if id.isSome ∧ (id, nom) ∈ (base.registry bdd).map fun row => (row.pays, row.nom) then none
    else some (base.ajouter bdd ⟨suivant ((base.registry bdd).map RegistryRow.id), id, nom⟩)
  insertVal type bdd nom d base := do
    let nom ← unquote nom
    let id ←
      scalaire (((base.registry bdd).filter fun row => decide (row.nom = nom)).map RegistryRow.id)
    return ({ base with vals := Function.update base.vals type (base.vals type ++ [(id, d)]) }, id)

/-! ## Keys -/

theorem suivant_not_mem (ids : List Int) : suivant ids ∉ ids := by
  intro member
  unfold suivant at member
  cases greatest : ids.max? with
  | none =>
      rw [List.max?_eq_none_iff] at greatest
      rw [greatest] at member
      cases member
  | some top =>
      rw [greatest] at member
      have above := (List.max?_eq_some_iff.mp greatest).2 _ member
      simp only at above
      omega

/-- A unique key finds its row. -/
theorem filter_key {A K : Type} [DecidableEq K] {key : A → K} {rows : List A}
    (unique : (rows.map key).Nodup) {row : A} (member : row ∈ rows) :
    (rows.filter fun other => decide (key other = key row)) = [row] := by
  induction rows with
  | nil => cases member
  | cons first rows ih =>
      rw [List.map_cons, List.nodup_cons] at unique
      rcases List.mem_cons.mp member with rfl | later
      · have noOther : (rows.filter fun other => decide (key other = key row)) = [] :=
          List.filter_eq_nil_iff.mpr fun other inRows same =>
            unique.1 (List.mem_map.mpr ⟨other, inRows, of_decide_eq_true same⟩)
        rw [List.filter_cons_of_pos (by simp), noOther]
      · have notFirst : key first ≠ key row := fun same =>
          unique.1 (List.mem_map.mpr ⟨row, later, same.symm⟩)
        rw [List.filter_cons_of_neg (by simpa using notFirst), ih unique.2 later]

/-- Rows with the same unique key are the same row. -/
theorem eq_of_key {A K : Type} {key : A → K} {rows : List A} (unique : (rows.map key).Nodup)
    {first second : A} (inFirst : first ∈ rows) (inSecond : second ∈ rows)
    (same : key first = key second) : first = second :=
  List.inj_on_of_nodup_map unique inFirst inSecond same

theorem nodup_append_new {K : Type} {keys : List K} (unique : keys.Nodup) {key : K}
    (new : key ∉ keys) : (keys ++ [key]).Nodup := by
  rw [List.nodup_append]
  refine ⟨unique, List.nodup_singleton key, fun first inKeys second inSingle same => new ?_⟩
  rw [← List.mem_singleton.mp inSingle, ← same]
  exact inKeys

namespace Base

theorem registry_ajouter_self (bdd : Text) (row : RegistryRow) (base : Base δ) :
    (base.ajouter bdd row).registry bdd = base.registry bdd ++ [row] := Function.update_self _ _ _

theorem registry_ajouter_of_ne {bdd other : Text} (different : other ≠ bdd) (row : RegistryRow)
    (base : Base δ) : (base.ajouter bdd row).registry other = base.registry other :=
  Function.update_of_ne different _ _

/-- The unique keys of the tables. -/
structure Valide (base : Base δ) : Prop where
  paysIds : (base.pays.map PaysRow.id).Nodup
  paysNoms : (base.pays.map PaysRow.nom).Nodup
  ids : ∀ bdd, ((base.registry bdd).map RegistryRow.id).Nodup
  noms : ∀ bdd, ((base.registry bdd).map fun row => (row.pays, row.nom)).Nodup

/-- The instrument of a name and a country is registered in a table, with this identifier. -/
def Inscrit (base : Base δ) (bdd nom pays : Text) (i : Int) : Prop :=
  ∃ country ∈ base.pays, country.nom = pays ∧
    (⟨i, some country.id, nom⟩ : RegistryRow) ∈ base.registry bdd

/-- The names of a relation are registered for their own countries only. -/
structure Fidele (shown : Text → Text → Text → Prop) (base : Base δ) :
    Prop extends Valide base where
  own : ∀ bdd nom pays, shown bdd nom pays → ∀ row ∈ base.registry bdd, row.nom = nom →
    ∃ country ∈ base.pays, country.nom = pays ∧ row.pays = some country.id

/-- Every row of the first tables is in the second. -/
structure Contenue (base base' : Base δ) : Prop where
  pays : ∀ row ∈ base.pays, row ∈ base'.pays
  registry : ∀ bdd, ∀ row ∈ base.registry bdd, row ∈ base'.registry bdd

theorem Contenue.refl (base : Base δ) : Contenue base base :=
  ⟨fun _ member => member, fun _ _ member => member⟩

theorem Contenue.trans {first second third : Base δ} (before : Contenue first second)
    (after : Contenue second third) : Contenue first third :=
  ⟨fun row member => after.pays row (before.pays row member),
    fun bdd row member => after.registry bdd row (before.registry bdd row member)⟩

theorem Inscrit.mono {base base' : Base δ} {bdd nom pays : Text} {i : Int}
    (registered : base.Inscrit bdd nom pays i) (more : Contenue base base') :
    base'.Inscrit bdd nom pays i := by
  obtain ⟨country, member, named, inRegistry⟩ := registered
  exact ⟨country, more.pays country member, named, more.registry bdd _ inRegistry⟩

/-- An identifier stands for one instrument only. -/
theorem Inscrit.unique {base : Base δ} (valid : base.Valide) {bdd nom nom' pays pays' : Text}
    {i : Int} (registered : base.Inscrit bdd nom pays i) (other : base.Inscrit bdd nom' pays' i) :
    nom = nom' ∧ pays = pays' := by
  obtain ⟨country, member, rfl, inRegistry⟩ := registered
  obtain ⟨country', member', rfl, inRegistry'⟩ := other
  have sameRow := eq_of_key (valid.ids bdd) inRegistry inRegistry' rfl
  simp only [RegistryRow.mk.injEq, Option.some.injEq, true_and] at sameRow
  refine ⟨sameRow.2, ?_⟩
  rw [eq_of_key valid.paysIds member member' sameRow.1]

/-! ## Registering -/

/-- **What `INSERT INTO PAYS` does**: it adds a country with a new name and a new identifier, or
nothing. -/
theorem insertPays_cases (pays : Text) (base : Base δ) :
    ((sqlBase.insertPays pays base).getD base = base ∧
        ∀ nom, unquote pays = some nom → nom ∈ base.pays.map PaysRow.nom) ∨
      ∃ nom, unquote pays = some nom ∧ nom ∉ base.pays.map PaysRow.nom ∧
        (sqlBase.insertPays pays base).getD base =
          { base with pays := base.pays ++ [⟨suivant (base.pays.map PaysRow.id), nom⟩] } := by
  simp only [sqlBase]
  cases value : unquote pays with
  | none => exact .inl ⟨rfl, fun nom impossible => by cases impossible⟩
  | some nom =>
      simp only [Option.bind_eq_bind, Option.bind_some]
      split
      · rename_i present
        refine .inl ⟨rfl, fun other same => ?_⟩
        rwa [← Option.some.inj same]
      · rename_i absent
        exact .inr ⟨nom, rfl, absent, rfl⟩

theorem contenue_insertPays (pays : Text) (base : Base δ) :
    Contenue base ((sqlBase.insertPays pays base).getD base) := by
  rcases insertPays_cases pays base with ⟨unchanged, -⟩ | ⟨nom, -, -, added⟩
  · rw [unchanged]
    exact .refl base
  · rw [added]
    exact ⟨fun row member => List.mem_append_left _ member, fun _ _ member => member⟩

theorem registry_insertPays (pays : Text) (base : Base δ) :
    ((sqlBase.insertPays pays base).getD base).registry = base.registry := by
  rcases insertPays_cases pays base with ⟨unchanged, -⟩ | ⟨nom, -, -, added⟩
  · rw [unchanged]
  · rw [added]

theorem Valide.after_insertPays {base : Base δ} (valid : base.Valide) (pays : Text) :
    ((sqlBase.insertPays pays base).getD base).Valide := by
  rcases insertPays_cases pays base with ⟨unchanged, -⟩ | ⟨nom, -, new, added⟩
  · rw [unchanged]
    exact valid
  · rw [added]
    refine ⟨?_, ?_, valid.ids, valid.noms⟩
    · rw [List.map_append]
      exact nodup_append_new valid.paysIds (suivant_not_mem _)
    · rw [List.map_append]
      exact nodup_append_new valid.paysNoms new

theorem Fidele.after_insertPays {shown : Text → Text → Text → Prop} {base : Base δ}
    (faithful : base.Fidele shown) (pays : Text) :
    ((sqlBase.insertPays pays base).getD base).Fidele shown := by
  refine ⟨faithful.toValide.after_insertPays pays, ?_⟩
  intro bdd nom pays' isShown row inRegistry named
  rw [registry_insertPays] at inRegistry
  obtain ⟨country, member, countryNamed, linked⟩ :=
    faithful.own bdd nom pays' isShown row inRegistry named
  exact ⟨country, (contenue_insertPays pays base).pays country member, countryNamed, linked⟩

/-- After the statement the country is there. -/
theorem exists_pays_after_insertPays {pays name : Text} (value : unquote pays = some name)
    (base : Base δ) :
    ∃ country ∈ ((sqlBase.insertPays pays base).getD base).pays, country.nom = name := by
  rcases insertPays_cases pays base with ⟨unchanged, present⟩ | ⟨nom, value', -, added⟩
  · rw [unchanged]
    obtain ⟨country, member, named⟩ := List.mem_map.mp (present name value)
    exact ⟨country, member, named⟩
  · rw [added]
    obtain rfl := Option.some.inj (value.symm.trans value')
    exact ⟨_, List.mem_append_right _ List.mem_cons_self, rfl⟩

/-- **What the `INSERT` into a registry does** for a country that is there: it adds the
instrument with a new identifier, or the instrument is there already. -/
theorem insertIndice_cases {base : Base δ} (valid : base.Valide) (bdd : Text)
    {pays nom label : Text} {country : PaysRow} (valuePays : unquote pays = some country.nom)
    (valueNom : unquote nom = some label) (member : country ∈ base.pays) :
    ((sqlBase.insertIndice bdd pays nom base).getD base = base ∧
        ∃ i, (⟨i, some country.id, label⟩ : RegistryRow) ∈ base.registry bdd) ∨
      ((some country.id, label) ∉ (base.registry bdd).map (fun row => (row.pays, row.nom)) ∧
        (sqlBase.insertIndice bdd pays nom base).getD base = base.ajouter bdd
          ⟨suivant ((base.registry bdd).map RegistryRow.id), some country.id, label⟩) := by
  have found : (base.pays.filter fun row => decide (row.nom = country.nom)) = [country] :=
    filter_key valid.paysNoms member
  simp only [sqlBase, valuePays, valueNom, Option.bind_eq_bind, Option.bind_some, found,
    List.map_cons, List.map_nil, scalaire, Option.isSome_some, true_and]
  split
  · rename_i present
    obtain ⟨⟨i, _, _⟩, inRegistry, same⟩ := List.mem_map.mp present
    obtain ⟨rfl, rfl⟩ := Prod.mk.inj same
    exact .inl ⟨rfl, i, inRegistry⟩
  · rename_i absent
    exact .inr ⟨absent, rfl⟩

/-- A new instrument keeps the keys unique. -/
theorem Valide.after_ajouter {base : Base δ} (valid : base.Valide) {bdd nom : Text}
    {pays : Option Int}
    (new : (pays, nom) ∉ (base.registry bdd).map fun row => (row.pays, row.nom)) :
    (base.ajouter bdd ⟨suivant ((base.registry bdd).map RegistryRow.id), pays, nom⟩).Valide := by
  refine ⟨valid.paysIds, valid.paysNoms, fun other => ?_, fun other => ?_⟩
  · by_cases same : other = bdd
    · rw [same, registry_ajouter_self, List.map_append]
      exact nodup_append_new (valid.ids bdd) (suivant_not_mem _)
    · rw [registry_ajouter_of_ne same]
      exact valid.ids other
  · by_cases same : other = bdd
    · rw [same, registry_ajouter_self, List.map_append]
      exact nodup_append_new (valid.noms bdd) new
    · rw [registry_ajouter_of_ne same]
      exact valid.noms other

/-- A new instrument of its own country keeps the tables faithful. -/
theorem Fidele.after_ajouter {shown : Text → Text → Text → Prop} {base : Base δ}
    (faithful : base.Fidele shown) {bdd nom : Text} {country : PaysRow}
    (member : country ∈ base.pays)
    (own : ∀ pays, shown bdd nom pays → country.nom = pays)
    (new : (some country.id, nom) ∉ (base.registry bdd).map fun row => (row.pays, row.nom)) :
    (base.ajouter bdd
      ⟨suivant ((base.registry bdd).map RegistryRow.id), some country.id, nom⟩).Fidele shown := by
  refine ⟨faithful.toValide.after_ajouter new, ?_⟩
  intro other name pays isShown row inRegistry named
  by_cases same : other = bdd
  · subst same
    rw [registry_ajouter_self] at inRegistry
    rcases List.mem_append.mp inRegistry with before | added
    · exact faithful.own other name pays isShown row before named
    · obtain rfl := List.mem_singleton.mp added
      subst named
      exact ⟨country, member, own pays isShown, rfl⟩
  · rw [registry_ajouter_of_ne same] at inRegistry
    exact faithful.own other name pays isShown row inRegistry named

theorem contenue_ajouter (bdd : Text) (row : RegistryRow) (base : Base δ) :
    Contenue base (base.ajouter bdd row) := by
  refine ⟨fun _ member => member, fun other kept member => ?_⟩
  by_cases same : other = bdd
  · subst same
    rw [registry_ajouter_self]
    exact List.mem_append_left _ member
  · rwa [registry_ajouter_of_ne same]

/-- **The registrations of a line** keep the tables faithful, and its instrument is registered
afterwards. -/
theorem Fidele.after_inscrire {shown : Text → Text → Text → Prop} {base : Base δ}
    (faithful : base.Fidele shown) (functional : ∀ bdd nom pays pays', shown bdd nom pays →
      shown bdd nom pays' → pays = pays') {site : Site} {lecture : Lecture δ}
    (isShown : shown site.bdd lecture.nom lecture.pays)
    (literalPays : unquote lecture.pays = some lecture.pays)
    (literalNom : unquote lecture.nom = some lecture.nom) :
    (inscrire sqlBase site lecture base).Fidele shown ∧
      Contenue base (inscrire sqlBase site lecture base) ∧
      ∃ i, (inscrire sqlBase site lecture base).Inscrit site.bdd lecture.nom lecture.pays i := by
  have faithful' := faithful.after_insertPays lecture.pays
  have more := contenue_insertPays lecture.pays base
  obtain ⟨country, member, named⟩ := exists_pays_after_insertPays literalPays base
  rw [inscrire]
  generalize (sqlBase.insertPays lecture.pays base).getD base = base' at faithful' more member
  have value : unquote lecture.pays = some country.nom := by rw [literalPays, named]
  rcases insertIndice_cases faithful'.toValide site.bdd value literalNom member with
    ⟨unchanged, i, present⟩ | ⟨absent, added⟩
  · rw [unchanged]
    exact ⟨faithful', more, i, country, member, named, present⟩
  · rw [added]
    have own : ∀ pays, shown site.bdd lecture.nom pays → country.nom = pays := fun pays nameShown =>
      named.trans (functional _ _ _ _ isShown nameShown)
    refine ⟨faithful'.after_ajouter member own absent, more.trans (contenue_ajouter _ _ _),
      suivant ((base'.registry site.bdd).map RegistryRow.id), country, member, named, ?_⟩
    rw [registry_ajouter_self]
    exact List.mem_append_right _ List.mem_cons_self

/-! ## Looking up -/

/-- **The lookup by name finds the instrument**, where its name is registered for its own country
only. -/
theorem insertVal_inscrit {shown : Text → Text → Text → Prop} {base : Base δ}
    (faithful : base.Fidele shown) {bdd nom pays : Text} {i : Int} (isShown : shown bdd nom pays)
    (registered : base.Inscrit bdd nom pays i) (literal : unquote nom = some nom) (type : Text)
    (d : δ) : ∃ base', sqlBase.insertVal type bdd nom d base = some (base', some i) ∧
      base'.pays = base.pays ∧ base'.registry = base.registry := by
  obtain ⟨country, member, named, inRegistry⟩ := registered
  have found : ((base.registry bdd).filter fun row => decide (row.nom = nom)) =
      [⟨i, some country.id, nom⟩] := by
    rw [← filter_key (faithful.noms bdd) inRegistry]
    refine List.filter_congr fun row rowMember =>
      decide_eq_decide.mpr ⟨fun rowNamed => ?_, fun same => ?_⟩
    · obtain ⟨country', member', named', linked⟩ :=
        faithful.own bdd nom pays isShown row rowMember rowNamed
      rw [eq_of_key faithful.paysNoms member' member (named'.trans named.symm)] at linked
      exact Prod.ext linked rowNamed
    · exact (Prod.mk.inj same).2
  refine ⟨{ base with vals := Function.update base.vals type (base.vals type ++ [(some i, d)]) },
    ?_, rfl, rfl⟩
  simp only [sqlBase, literal, Option.bind_eq_bind, Option.bind_some, found, List.map_cons,
    List.map_nil, scalaire, Option.pure_def]

/-- Faithfulness is about countries and registries only. -/
theorem Fidele.of_same {shown : Text → Text → Text → Prop} {base base' : Base δ}
    (faithful : base.Fidele shown) (pays : base'.pays = base.pays)
    (registry : base'.registry = base.registry) : base'.Fidele shown := by
  obtain ⟨⟨paysIds, paysNoms, ids, noms⟩, own⟩ := faithful
  refine ⟨⟨?_, ?_, ?_, ?_⟩, ?_⟩ <;> simp only [pays, registry] <;> assumption

end Base

end Trading.Recup
