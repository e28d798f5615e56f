import Trading.Dao.Answers

/-!
# The answers are the inserted values

After a regular run of the store, what the server answers for an identifier is a function of the
inserted values and of the days on which the archiver ran.

* `getIndicesTotal_store`: the counts are those of the inserted rows of the identifier, in the
  files those of the days after which the archiver ran.
* `getIndicesVals_store`: the values of a period are the inserted ones of its days, each once and
  in the order of their dates, when the archiver ran on every day up to today (`Daily`) and there
  are few enough values.
-/

set_option autoImplicit false

namespace Trading.Dao

open Trading.Calendar Trading.Text Trading.Recup

variable {ν : Type}

/-! ## Rows of an identifier -/

theorem rowsWithId_identified (ID : Int) (rows : List (Row ν)) :
    rowsWithId ID (identified rows) = rowsWithId ID rows := by
  rw [rowsWithId, identified, List.filter_filter, rowsWithId]
  apply List.filter_congr
  intro row _
  by_cases same : row.id = some ID <;> simp [same]

theorem rowsWithId_filter (ID : Int) (days : Int → Bool) (rows : List (Row ν)) :
    rowsWithId ID (rows.filter fun row => days row.date.jour) =
      (rowsWithId ID rows).filter fun row => days row.date.jour := by
  rw [rowsWithId, rowsWithId, List.filter_comm]

/-- The inserted rows of a type and an identifier. -/
def insertedOf (operations : List (Operation ν)) (type : Text) (ID : Int) : List (Row ν) :=
  rowsWithId ID (Journal.entriesOf type (operations.flatMap Operation.rows))

/-- The days on which the archiver ran. -/
def ranDays (operations : List (Operation ν)) : List Int := operations.flatMap Operation.jours

variable [Rendered ν] [DecidableEq ν]

section Runs

variable {sites : List Site} {w : World ν} {now : Int} {operations : List (Operation ν)}

/-- The rows of an identifier in the two places. -/
theorem rowsWithId_store (regular : Regular sites w now operations) {site : Site}
    (member : site ∈ sites) (ID : Int) :
    rowsWithId ID (((store sites).run w operations).db.vals site.type) =
        ((insertedOf operations site.type ID).filter fun row =>
          decide (row.date.jour + 1 ∉ ranDays operations)) ∧
      ∃ volumes : List (Volume ν),
        Ranges volumes (((store sites).run w operations).cache site.type) ∧
        (rowsWithId ID (volumes.flatMap Volume.rows)).Perm
          ((insertedOf operations site.type ID).filter fun row =>
            decide (row.date.jour + 1 ∈ ranDays operations)) := by
  obtain ⟨volumes, ranges, -, perm⟩ := regular.volumes member
  refine ⟨?_, volumes, ranges, ?_⟩
  · rw [regular.vals member,
      rowsWithId_filter ID fun jour => decide (jour + 1 ∉ operations.flatMap _)]
    rfl
  · have ofId := perm.filter fun row => decide (row.id = some ID)
    have selected := rowsWithId_filter ID
      (fun jour => decide (jour + 1 ∈ operations.flatMap Operation.jours))
      (identified (Journal.entriesOf site.type (operations.flatMap Operation.rows)))
    rw [rowsWithId_identified] at selected
    rw [insertedOf, ranDays, ← selected]
    exact ofId

/-! ## Counts -/

/-- **The counts of the server are those of the inserted rows.** -/
theorem getIndicesTotal_store {V : Type} (value : ν → V) (regular : Regular sites w now operations)
    {site : Site} (member : site ∈ sites) {directory : Directory}
    (listed : Listing directory (((store sites).run w operations).cache site.type)) (ID : Int)
    {curYear : Nat} (fourDigits : 1000 ≤ curYear) (curMonth : Nat) :
    let nb (days : Int → Bool) : Option Text := some (natText
      ((insertedOf operations site.type ID).filter fun row => days row.date.jour).length)
    getIndicesTotal ID curYear curMonth (fun _ => false) directory
        (liveOf value (((store sites).run w operations).db.vals site.type)) =
      [nb fun jour => decide (jour + 1 ∈ ranDays operations),
        nb fun jour => decide (jour + 1 ∈ ranDays operations ∧ (civil jour).year = curYear),
        nb fun jour => decide (jour + 1 ∈ ranDays operations ∧ (civil jour).year = curYear ∧
          (civil jour).month = curMonth),
        nb fun jour => decide (jour + 1 ∉ ranDays operations)] := by
  intro nb
  obtain ⟨live, volumes, ranges, perm⟩ := rowsWithId_store regular member ID
  -- the count of a pattern is the count of the days that it finds
  have counted : ∀ (pattern : Text) (days : Int → Prop) [DecidablePred days],
      (∀ jour, InEra jour → (wildcard pattern (fileName jour) = true ↔ days jour)) →
        getCount ID pattern directory =
          nb fun jour => decide (jour + 1 ∈ ranDays operations ∧ days jour) := by
    intro pattern days _ found
    have sameCount : getCount ID pattern directory =
        getCount ID pattern (archiveOf volumes ranges.distinct).directory := by
      rw [getCount, getCount, run, run, commande]
      simp only [stream_listing listed (listing_archiveOf ranges)]
    have sameRows : ((volumes.flatMap Volume.rows).filter fun row =>
        wildcard pattern (fileName row.date.jour)) =
          (volumes.flatMap Volume.rows).filter fun row => decide (days row.date.jour) := by
      apply List.filter_congr
      intro row inRows
      obtain ⟨volume, -, inVolume⟩ := List.mem_flatMap.mp inRows
      rw [Bool.eq_iff_iff, decide_eq_true_iff]
      exact found _ ((volume.ofDay row inVolume).2 ▸ volume.inEra)
    rw [sameCount, getCount_files, count_archiveOf, sameRows,
      rowsWithId_filter ID fun jour => decide (days jour),
      (perm.filter fun row => decide (days row.date.jour)).length_eq, List.filter_filter]
    simp only [nb]
    congr 3
    apply List.filter_congr
    intro row _
    rw [Bool.decide_and, Bool.and_comm]
  have today : countText ID (liveOf value (((store sites).run w operations).db.vals site.type)) =
      natText ((insertedOf operations site.type ID).filter fun row =>
        decide (row.date.jour + 1 ∉ ranDays operations)).length := by
    rw [countText, length_rowsOfId_liveOf, live]
  have allTime := counted "*.csv".toList (fun _ => True) fun jour _ =>
    iff_true_intro (wildcard_fileName jour)
  have year := counted (yearFiles curYear) (fun jour => (civil jour).year = curYear)
    fun jour inEra => by rw [wildcard_year inEra]; exact and_iff_right fourDigits
  have month := counted (monthFiles curYear curMonth)
    (fun jour => (civil jour).year = curYear ∧ (civil jour).month = curMonth)
    fun jour inEra => by rw [wildcard_month inEra]; exact and_iff_right fourDigits
  simp only [and_true] at allTime
  simp only [getIndicesTotal, Bool.false_eq_true, ↓reduceIte, allTime, year, month, today,
    Option.bind_eq_bind, Option.bind_some, Option.pure_def, Option.getD_some, List.cons_append,
    List.nil_append, nb]

/-! ## Values -/

/-- The days of a period, as the client asks for it. -/
def dansPeriode (TIME : Text) (today jour : Int) : Bool :=
  if TIME = "Today".toList then decide (jour = today)
  else if TIME = "Year".toList then decide ((civil jour).year = (civil today).year)
  else if TIME = "Month".toList then
    decide ((civil jour).year = (civil today).year ∧ (civil jour).month = (civil today).month)
  else true

/-- Up to today the archiver ran on the day after each day with values. -/
structure Daily (today : Int) (operations : List (Operation ν)) : Prop where
  rows : ∀ entry ∈ operations.flatMap Operation.rows,
    entry.2.date.jour ≤ today ∧ InEra entry.2.date.jour
  ran : ∀ jour ∈ ranDays operations, jour ≤ today
  archived : ∀ entry ∈ operations.flatMap Operation.rows, entry.2.date.jour < today →
    entry.2.date.jour + 1 ∈ ranDays operations

omit [Rendered ν] [DecidableEq ν] in
theorem mem_rows_of_mem_entriesOf {operations : List (Operation ν)} {type : Text} {row : Row ν}
    (member : row ∈ Journal.entriesOf type (operations.flatMap Operation.rows)) :
    ∃ entry ∈ operations.flatMap Operation.rows, entry.2 = row := by
  obtain ⟨entry, inFilter, rfl⟩ := List.mem_map.mp member
  exact ⟨entry, (List.mem_filter.mp inFilter).1, rfl⟩

omit [Rendered ν] [DecidableEq ν] in
/-- The archived rows are those of earlier days, and the live ones those of today. -/
theorem Daily.ran_iff {today : Int} (daily : Daily today operations) {type : Text} {ID : Int}
    {row : Row ν} (member : row ∈ insertedOf operations type ID) :
    row.date.jour + 1 ∈ ranDays operations ↔ row.date.jour < today := by
  obtain ⟨entry, inserted, rfl⟩ := mem_rows_of_mem_entriesOf (List.mem_filter.mp member).1
  constructor
  · intro ran
    have late := daily.ran _ ran
    omega
  · exact daily.archived entry inserted

omit [Rendered ν] [DecidableEq ν] in
theorem Daily.not_ran_iff {today : Int} (daily : Daily today operations) {type : Text} {ID : Int}
    {row : Row ν} (member : row ∈ insertedOf operations type ID) :
    row.date.jour + 1 ∉ ranDays operations ↔ row.date.jour = today := by
  obtain ⟨entry, inserted, same⟩ := mem_rows_of_mem_entriesOf (List.mem_filter.mp member).1
  have past := (daily.rows entry inserted).1
  rw [same] at past
  rw [daily.ran_iff member]
  omega

omit [Rendered ν] [DecidableEq ν] in
theorem everyNth_one {V : Type} (rows : List (LiveRow V)) : everyNth 1 rows = rows := by
  rw [everyNth, List.filter_eq_self.mpr, List.zipIdx_map_fst]
  intro line _
  simp [Nat.mod_one]

omit [Rendered ν] [DecidableEq ν] in
/-- What the patterns of the periods find. -/
theorem wildcard_periodFiles {TIME : Text} {today jour : Int} (notToday : TIME ≠ "Today".toList)
    (fourDigits : 1000 ≤ (civil today).year) (inEra : InEra jour) :
    wildcard (periodFiles TIME (civil today).year.toNat (civil today).month) (fileName jour) =
      dansPeriode TIME today jour := by
  have year : ((civil today).year.toNat : Int) = (civil today).year := by omega
  rw [Bool.eq_iff_iff, periodFiles, dansPeriode, if_neg notToday]
  split
  · rw [wildcard_year inEra, year, decide_eq_true_iff]
    exact and_iff_right (by omega)
  · split
    · rw [wildcard_month inEra, year, decide_eq_true_iff]
      exact and_iff_right (by omega)
    · exact iff_of_true (wildcard_fileName jour) rfl

omit [Rendered ν] [DecidableEq ν] in
/-- Today belongs to every period. -/
theorem dansPeriode_today (TIME : Text) (today : Int) : dansPeriode TIME today today = true := by
  unfold dansPeriode
  split_ifs <;> simp

/-- The live stage sends the values of today. -/
theorem live_stage {V : Type} (value : ν → V) (regular : Regular sites w now operations)
    {today : Int} (daily : Daily today operations) {site : Site} (member : site ∈ sites) (ID : Int)
    (few : ((insertedOf operations site.type ID).filter fun row =>
      decide (row.date.jour = today)).length ≤ 2000) :
    let live := liveOf value (((store sites).run w operations).db.vals site.type)
    ∃ recents : List (Row ν),
      recents.Perm ((insertedOf operations site.type ID).filter fun row =>
        decide (row.date.jour = today)) ∧
      recents.Pairwise (fun first second => first.date.time ≤ second.date.time) ∧
      getModulo ID live = some 1 ∧
      (sampledRows instantOf ID 1 live).map LiveRow.send = recents.map (envoyer value) := by
  intro live
  have ofToday : rowsWithId ID (((store sites).run w operations).db.vals site.type) =
      (insertedOf operations site.type ID).filter fun row => decide (row.date.jour = today) := by
    rw [(rowsWithId_store regular member ID).1]
    apply List.filter_congr
    intro row inserted
    rw [decide_eq_decide]
    exact daily.not_ran_iff inserted
  have years : ∀ row ∈ ((store sites).run w operations).db.vals site.type,
      InEra row.date.jour := by
    intro row inTable
    rw [regular.vals member] at inTable
    obtain ⟨entry, inserted, same⟩ := mem_rows_of_mem_entriesOf (List.mem_filter.mp inTable).1
    rw [← same]
    exact (daily.rows entry inserted).2
  obtain ⟨recents, perm, sorted, sent⟩ := send_byDate_liveOf value ID years
  rw [ofToday] at perm
  have number : (rowsOfId ID live).length ≤ 2000 := by
    rw [length_rowsOfId_liveOf, ofToday]
    exact few
  refine ⟨recents, perm, sorted, ?_, ?_⟩
  · rw [getModulo_eq ID live (by omega), show (rowsOfId ID live).length / 2001 = 0 by omega]
  · rw [sampledRows, everyNth_one]
    exact sent

/-- The file stage sends the values of the earlier days of the period. -/
theorem file_stage {V : Type} {value : ν → V} {parseDouble : Text → Option V}
    (numerals : ∀ val, parseDouble (Rendered.text val) = some (value val))
    (regular : Regular sites w now operations) {today : Int} (daily : Daily today operations)
    {site : Site} (member : site ∈ sites) {directory : Directory}
    (listed : Listing directory (((store sites).run w operations).cache site.type)) (ID : Int)
    {TIME : Text} (notToday : TIME ≠ "Today".toList) (fourDigits : 1000 ≤ (civil today).year)
    (few : ((insertedOf operations site.type ID).filter fun row =>
      decide (row.date.jour < today) && dansPeriode TIME today row.date.jour).length ≤ 2000) :
    ∃ anciens : List (Row ν),
      anciens.Perm ((insertedOf operations site.type ID).filter fun row =>
        decide (row.date.jour < today) && dansPeriode TIME today row.date.jour) ∧
      anciens.Pairwise (fun first second => first.date.time ≤ second.date.time) ∧
      filesVals parseDouble ID (periodFiles TIME (civil today).year.toNat (civil today).month)
        directory = some (anciens.map (envoyer value)) := by
  obtain ⟨-, volumes, ranges, perm⟩ := rowsWithId_store regular member ID
  have ofPeriod : (rowsWithId ID ((volumes.flatMap Volume.rows).filter fun row =>
      wildcard (periodFiles TIME (civil today).year.toNat (civil today).month)
        (fileName row.date.jour))).Perm
          ((insertedOf operations site.type ID).filter fun row =>
            decide (row.date.jour < today) && dansPeriode TIME today row.date.jour) := by
    have found : ((volumes.flatMap Volume.rows).filter fun row =>
        wildcard (periodFiles TIME (civil today).year.toNat (civil today).month)
          (fileName row.date.jour)) =
            (volumes.flatMap Volume.rows).filter fun row =>
              dansPeriode TIME today row.date.jour := by
      apply List.filter_congr
      intro row inRows
      obtain ⟨volume, -, inVolume⟩ := List.mem_flatMap.mp inRows
      exact wildcard_periodFiles notToday fourDigits ((volume.ofDay row inVolume).2 ▸ volume.inEra)
    rw [found, rowsWithId_filter ID fun jour => dansPeriode TIME today jour]
    refine (perm.filter fun row => dansPeriode TIME today row.date.jour).trans (List.Perm.of_eq ?_)
    rw [List.filter_filter]
    apply List.filter_congr
    intro row inserted
    rw [Bool.and_comm, decide_eq_decide.mpr (daily.ran_iff inserted)]
  obtain ⟨anciens, montres, perm', sorted, sampled, read⟩ :=
    filesVals_listing numerals ranges listed ID
      (periodFiles TIME (civil today).year.toNat (civil today).month)
      (by rw [ofPeriod.length_eq]; omega)
  have chosen := perm'.trans ofPeriod
  have all : anciens.length / 2001 = 0 := by
    rw [chosen.length_eq]
    omega
  rw [all] at sampled
  rw [sampled.eq_of_zero] at read
  exact ⟨anciens, chosen, sorted, read⟩

omit [Rendered ν] [DecidableEq ν] in
/-- The rows of earlier days come before those of today. -/
theorem time_le_of_jour_lt {first second : Row ν} (earlier : first.date.jour < second.date.jour) :
    first.date.time ≤ second.date.time := by
  have seconde := first.date.seconde.isLt
  unfold Stamp.time
  omega

omit [Rendered ν] [DecidableEq ν] in
/-- The earlier days of a period and today are the period, one after the other. -/
theorem join_stages {today : Int} (daily : Daily today operations) {type : Text} {ID : Int}
    {TIME : Text} {anciens recents : List (Row ν)}
    (ofPeriod : anciens.Perm ((insertedOf operations type ID).filter fun row =>
      decide (row.date.jour < today) && dansPeriode TIME today row.date.jour))
    (sorted : anciens.Pairwise fun first second => first.date.time ≤ second.date.time)
    (ofToday : recents.Perm ((insertedOf operations type ID).filter fun row =>
      decide (row.date.jour = today)))
    (sorted' : recents.Pairwise fun first second => first.date.time ≤ second.date.time) :
    (anciens ++ recents).Perm ((insertedOf operations type ID).filter fun row =>
        dansPeriode TIME today row.date.jour) ∧
      (anciens ++ recents).Pairwise fun first second => first.date.time ≤ second.date.time := by
  constructor
  · -- a row of the period is of an earlier day or of today
    refine (ofPeriod.append ofToday).trans ?_
    have split := List.filter_append_perm (fun row : Row ν => decide (row.date.jour < today))
      ((insertedOf operations type ID).filter fun row => dansPeriode TIME today row.date.jour)
    refine List.Perm.trans (List.Perm.of_eq ?_) split
    rw [List.filter_filter, List.filter_filter]
    congr 1
    apply List.filter_congr
    intro row inserted
    obtain ⟨entry, inRun, same⟩ := mem_rows_of_mem_entriesOf (List.mem_filter.mp inserted).1
    have past := (daily.rows entry inRun).1
    rw [same] at past
    by_cases here : row.date.jour = today
    · simp [here, dansPeriode_today]
    · have earlier : row.date.jour < today := by omega
      simp [here, earlier]
  · refine List.pairwise_append.mpr ⟨sorted, sorted', fun first inFirst second inSecond => ?_⟩
    have before := (List.mem_filter.mp (ofPeriod.mem_iff.mp inFirst)).2
    rw [Bool.and_eq_true, decide_eq_true_iff] at before
    have here := of_decide_eq_true (List.mem_filter.mp (ofToday.mem_iff.mp inSecond)).2
    exact time_le_of_jour_lt (before.1.trans_eq here.symm)

/-- **The values of a period are the inserted ones.** After a regular run in which the archiver ran
on the day after each day with values, and for at most 2000 archived and 2000 live values of the
identifier in the period, the server sends exactly the inserted values of the identifier dated in
the period, each as often as it was inserted and in the order of their dates. -/
theorem getIndicesVals_store {V : Type} {value : ν → V} {parseDouble : Text → Option V}
    (numerals : ∀ val, parseDouble (Rendered.text val) = some (value val))
    (regular : Regular sites w now operations) {today : Int} (daily : Daily today operations)
    {site : Site} (member : site ∈ sites) {directory : Directory}
    (listed : Listing directory (((store sites).run w operations).cache site.type)) (ID : Int)
    (TIME : Text) (fourDigits : 1000 ≤ (civil today).year)
    (fewFiles : ((insertedOf operations site.type ID).filter fun row =>
      decide (row.date.jour < today) && dansPeriode TIME today row.date.jour).length ≤ 2000)
    (fewLive : ((insertedOf operations site.type ID).filter fun row =>
      decide (row.date.jour = today)).length ≤ 2000) :
    ∃ rows : List (Row ν),
      rows.Perm ((insertedOf operations site.type ID).filter fun row =>
        dansPeriode TIME today row.date.jour) ∧
      rows.Pairwise (fun first second => first.date.time ≤ second.date.time) ∧
      getIndicesVals instantOf parseDouble ID TIME (civil today).year.toNat (civil today).month
          false directory (liveOf value (((store sites).run w operations).db.vals site.type)) =
        some (rows.map (envoyer value)) := by
  obtain ⟨recents, ofToday, sorted, stride, sent⟩ :=
    live_stage value regular daily member ID fewLive
  by_cases isToday : TIME = "Today".toList
  · refine ⟨recents, ?_, sorted, ?_⟩
    · simpa only [dansPeriode, isToday, ↓reduceIte] using ofToday
    · simp only [getIndicesVals, isToday, true_or, ↓reduceIte, stride, sent, Option.bind_eq_bind,
        Option.bind_some, Option.pure_def, List.nil_append]
  · obtain ⟨anciens, ofPeriod, sorted', read⟩ :=
      file_stage numerals regular daily member listed ID isToday fourDigits fewFiles
    obtain ⟨all, ordered⟩ := join_stages daily ofPeriod sorted' ofToday sorted
    refine ⟨anciens ++ recents, all, ordered, ?_⟩
    simp only [getIndicesVals, isToday, Bool.false_eq_true, or_self, ↓reduceIte, read, stride, sent,
      Option.bind_eq_bind, Option.bind_some, Option.pure_def, List.map_append]

end Runs

theorem twoDayRun_daily : Daily sampleDay twoDayRun where
  rows := by
    intro entry member
    simp only [twoDayRun, List.flatMap_cons, List.flatMap_nil, Operation.rows, List.cons_append,
      List.nil_append, List.append_nil, List.mem_cons, List.not_mem_nil, or_false] at member
    rcases member with rfl | rfl
    · exact ⟨by decide, by decide +kernel⟩
    · exact ⟨by decide, by decide +kernel⟩
  ran := by decide +kernel
  archived := by decide +kernel

end Trading.Dao
