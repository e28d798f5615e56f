import Trading.Dao.StoredValues
import Trading.Front.Session
import Trading.Front.Totals

/-!
# The page shows the store

A page that has asked for the numbers and for the values of an instrument shows what the recorder
stored under its identifier (`page_shows_the_store`). The numbers of the four periods are the
numbers of the inserted values dated in them, and the chart of a period has these values, with
their labels and in the order of their dates.

The rows of today are in the live table and those of the earlier days are in the files, so the
sums that the page makes of the counts are the counts of the periods (`numbersAre_ofPeriod`).
-/

set_option autoImplicit false

namespace Trading.Front

open Trading.Calendar Trading.Text Trading.Recup Trading.Dao

variable {ν V : Type}

/-- The server on a day, with a cache directory whose files can be read. -/
def serveur (parseDouble : Text → Option V) (today : Int) (directory : Directory) : Server V where
  parseDouble := parseDouble
  instant := instantOf
  directory := directory
  indices := []
  curYear := (civil today).year.toNat
  curMonth := (civil today).month
  caughtVals := false
  caughtTotal := fun _ => false

/-- The inserted rows of an identifier that are dated in a period. -/
def ofPeriod (operations : List (Operation ν)) (type : Text) (ID today : Int) (TIME : Time) :
    List (Row ν) :=
  (insertedOf operations type ID).filter fun row => dansPeriode TIME.text today row.date.jour

/-! ## Numbers -/

/-- The earlier days of a period and today make up the period. -/
theorem length_ofPeriod {today : Int} {operations : List (Operation ν)}
    (daily : Daily today operations) (type : Text) (ID : Int) (TIME : Time) (days : Int → Bool)
    (same : ∀ jour, jour < today → days jour = dansPeriode TIME.text today jour) :
    ((insertedOf operations type ID).filter fun row =>
        decide (row.date.jour + 1 ∉ ranDays operations)).length +
      ((insertedOf operations type ID).filter fun row =>
        decide (row.date.jour + 1 ∈ ranDays operations) && days row.date.jour).length =
      (ofPeriod operations type ID today TIME).length := by
  have split := List.filter_append_perm (fun row : Row ν => decide (row.date.jour = today))
    (ofPeriod operations type ID today TIME)
  rw [← split.length_eq, List.length_append, ofPeriod, List.filter_filter, List.filter_filter]
  congr 2
  · apply List.filter_congr
    intro row inserted
    have live := daily.not_ran_iff inserted
    by_cases here : row.date.jour = today
    · have notRan := live.mpr here
      rw [here] at notRan
      simp [here, notRan, dansPeriode_today]
    · simp [here, not_imp_comm.mp live.mp here]
  · apply List.filter_congr
    intro row inserted
    have live := daily.not_ran_iff inserted
    by_cases here : row.date.jour = today
    · have notRan := live.mpr here
      rw [here] at notRan
      simp [here, notRan]
    · have ran : row.date.jour + 1 ∈ ranDays operations := by
        by_contra notRan
        exact here (live.mp notRan)
      have earlier := (daily.ran_iff inserted).mp ran
      simp [here, ran, same _ earlier]

variable [Rendered ν] [DecidableEq ν] {sites : List Site} {w : Recup.World ν} {now today : Int}
variable {operations : List (Operation ν)} {site : Site} {directory : Directory}

/-- **The numbers of the page are those of the periods.** -/
theorem numbersAre_ofPeriod (value : ν → V) (regular : Regular sites w now operations)
    (daily : Daily today operations) (member : site ∈ sites)
    (listed : Listing directory (((store sites).run w operations).cache site.type)) (ID : Int)
    (fourDigits : 1000 ≤ (civil today).year) :
    NumbersAre
      (totalNumbers (getIndicesTotal ID (civil today).year.toNat (civil today).month
        (fun _ => false) directory
        (liveOf value (((store sites).run w operations).db.vals site.type))))
      (ofPeriod operations site.type ID today .today).length
      (ofPeriod operations site.type ID today .month).length
      (ofPeriod operations site.type ID today .year).length
      (ofPeriod operations site.type ID today .allTime).length := by
  have year : ((civil today).year.toNat : Int) = (civil today).year := by omega
  have counts := getIndicesTotal_store value regular member listed ID
    (show 1000 ≤ (civil today).year.toNat by omega) (civil today).month
  have ofToday : ((insertedOf operations site.type ID).filter fun row =>
      decide (row.date.jour + 1 ∉ ranDays operations)).length =
        (ofPeriod operations site.type ID today .today).length := by
    rw [ofPeriod]
    congr 1
    apply List.filter_congr
    intro row inserted
    rw [decide_eq_decide.mpr (daily.not_ran_iff inserted)]
    rfl
  have ofMonth := length_ofPeriod daily site.type ID .month
    (fun jour => decide ((civil jour).year = (civil today).year ∧
      (civil jour).month = (civil today).month)) fun _ _ => rfl
  have ofYear := length_ofPeriod daily site.type ID .year
    (fun jour => decide ((civil jour).year = (civil today).year)) fun _ _ => rfl
  have ofAllTime := length_ofPeriod daily site.type ID .allTime (fun _ => true) fun _ _ => rfl
  simp only [year, Bool.decide_and] at counts
  simp only [Bool.and_true, Bool.decide_and] at ofAllTime ofMonth ofYear
  rw [counts, ← ofMonth, ← ofYear, ← ofAllTime, ← ofToday]
  exact totalNumbers_four _ _ _ _

/-! ## The chart -/

/-- The chart after an answer with values. -/
theorem chart_after_vals [Max V] [Min V] (tab : Tab V) {sent : Sent}
    (request : sent.request.kind = .vals) (tmp : List (IndiceVal V)) :
    (after tab (.deliver sent (.vals tmp))).component.chartDatasets =
        some (tmp.map IndiceVal.val) ∧
      (after tab (.deliver sent (.vals tmp))).component.chartLabels =
        some (tmp.map fun o => label tab.component.timeSelected o.date) := by
  cases lastOf : tmp.getLast? with
  | none =>
      rw [List.getLast?_eq_none_iff.mp lastOf, after_vals_nil tab request]
      exact ⟨rfl, rfl⟩
  | some last =>
      rw [after_vals tab request lastOf]
      exact ⟨rfl, rfl⟩

/-- **The page shows the store.** After a regular run in which the archiver ran on the day after
each day with values, the answer to a request for the numbers of an identifier makes the page show
the numbers of the inserted values of the identifier that are dated in the four periods. The
answer to a request for the values of a period, with at most 2000 archived and 2000 live ones,
makes the page show exactly the inserted values that are dated in it, each as often as it was
inserted, with the labels of their dates and in the order of these. -/
theorem page_shows_the_store [Max V] [Min V] {value : ν → V} {parseDouble : Text → Option V}
    (numerals : ∀ val, parseDouble (Rendered.text val) = some (value val))
    (regular : Regular sites w now operations) (daily : Daily today operations)
    (member : site ∈ sites)
    (listed : Listing directory (((store sites).run w operations).cache site.type)) (ID : Int)
    (fourDigits : 1000 ≤ (civil today).year) :
    let live := liveOf value (((store sites).run w operations).db.vals site.type)
    let answer (sent : Sent) := ((serveur parseDouble today directory).answer live sent).response
    (∀ (tab : Tab V) (sent : Sent), sent.request = .getTotal ID site.type →
      NumbersAre (after tab (.deliver sent (answer sent))).component.numbers
        (ofPeriod operations site.type ID today .today).length
        (ofPeriod operations site.type ID today .month).length
        (ofPeriod operations site.type ID today .year).length
        (ofPeriod operations site.type ID today .allTime).length) ∧
      ∀ TIME : Time,
        ((ofPeriod operations site.type ID today TIME).filter fun row =>
          decide (row.date.jour < today)).length ≤ 2000 →
        (ofPeriod operations site.type ID today .today).length ≤ 2000 →
        ∃ rows : List (Row ν), rows.Perm (ofPeriod operations site.type ID today TIME) ∧
          rows.Pairwise (fun first second => first.date.time ≤ second.date.time) ∧
          ∀ (tab : Tab V) (sent : Sent), sent.request = .getIndiceVals ID TIME site.type →
            (after tab (.deliver sent (answer sent))).component.chartDatasets =
                some (rows.map fun row => value row.val) ∧
              (after tab (.deliver sent (answer sent))).component.chartLabels =
                some (rows.map fun row => label tab.component.timeSelected row.date.text) := by
  intro live answer
  constructor
  · intro tab sent request
    have kind : sent.request.kind = .total := by rw [request]; rfl
    have sends : answer sent = .totaux (getIndicesTotal ID (civil today).year.toNat
        (civil today).month (fun _ => false) directory live) := by
      simp only [answer, Server.answer, request, serveur]
    rw [sends, after_total tab kind]
    exact numbersAre_ofPeriod value regular daily member listed ID fourDigits
  · intro TIME fewFiles fewLive
    obtain ⟨rows, perm, sorted, sent⟩ := getIndicesVals_store numerals regular daily member listed
      ID TIME.text fourDigits (by simpa only [ofPeriod, List.filter_filter] using fewFiles) fewLive
    refine ⟨rows, perm, sorted, fun tab request isVals => ?_⟩
    have kind : request.request.kind = .vals := by rw [isVals]; rfl
    obtain ⟨-, -, -, stride, -⟩ := live_stage value regular daily member ID fewLive
    have sends : answer request = .vals (rows.map (envoyer value)) := by
      simp only [answer, Server.answer, isVals, Server.valsAnswer, serveur, live, sent, stride]
    obtain ⟨data, labels⟩ := chart_after_vals tab kind (rows.map (envoyer value))
    rw [sends, data, labels, List.map_map, List.map_map]
    exact ⟨rfl, rfl⟩

/-- The requests for the numbers and for the values of the year of the first contract. -/
def firstRequests : Sent × Sent :=
  (⟨1, .getTotal 0 "cfd".toList, .year⟩, ⟨2, .getIndiceVals 0 .year "cfd".toList, .year⟩)

theorem page_shows_the_store_sample :
    ∃ (directory : Directory) (rows : List (Row Int)),
      rows.Perm [rowOfYesterday, rowOfToday] ∧
      let live := liveOf (fun i : Int => (i : ℚ))
        (((store [sampleSite]).run (sampleWorld []) twoDayRun).db.vals "cfd".toList)
      let answer (sent : Sent) :=
        ((serveur parseDecimal sampleDay directory).answer live sent).response
      NumbersAre (after ({} : Tab ℚ)
          (.deliver firstRequests.1 (answer firstRequests.1))).component.numbers 1 2 2 2 ∧
        (after ({} : Tab ℚ) (.deliver firstRequests.2
            (answer firstRequests.2))).component.chartDatasets =
          some (rows.map fun row => (row.val : ℚ)) := by
  obtain ⟨volumes, ranges, -, -⟩ := twoDayRun_regular.volumes (List.mem_singleton.mpr rfl)
  obtain ⟨numbers, charts⟩ := page_shows_the_store parseDecimal_text twoDayRun_regular
    twoDayRun_daily (List.mem_singleton.mpr rfl) (listing_archiveOf ranges) 0 (by decide +kernel)
  obtain ⟨rows, perm, -, chart⟩ := charts .year (by decide +kernel) (by decide +kernel)
  refine ⟨_, rows, perm.trans (List.Perm.of_eq (by decide +kernel)), ?_, (chart {} _ rfl).1⟩
  have lengths : (ofPeriod twoDayRun "cfd".toList 0 sampleDay .today).length = 1 ∧
      (ofPeriod twoDayRun "cfd".toList 0 sampleDay .month).length = 2 ∧
      (ofPeriod twoDayRun "cfd".toList 0 sampleDay .year).length = 2 ∧
      (ofPeriod twoDayRun "cfd".toList 0 sampleDay .allTime).length = 2 := by
    decide +kernel
  have shown := numbers {} firstRequests.1 rfl
  simp only [show sampleSite.type = "cfd".toList from rfl, lengths] at shown
  exact shown

end Trading.Front
