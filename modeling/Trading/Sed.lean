import Trading.Text

/-!
# A stream editor that prints nothing by itself

The part of the stream editor `sed -n "/address/script"` that samples a stream of lines.

* An address is a basic regular expression of literal characters, `.`, `*` and the anchor
  `^`. `matchesLine_word` says when a literal beginning followed by `.*` matches.
* A script has the commands `p`, which prints the pattern space, and `n`, which replaces it
  by the next line of the stream, whatever this line is, and ends the run where there is none.

The script `{p;n;..n;}` prints a line that the address matches and passes over a fixed
number of lines after it. `run_scriptText` says that its run is the function `sample`, which has
no pattern space and no cycles but a number of lines to pass over. What `sample` keeps of the
matching lines is the relation `Sampled`: `sampled_sample` holds for every stream, and
`mul_length_sample_flatten_le` bounds the number of lines kept where the matching lines of
each stretch of the stream are next to each other.
-/

set_option autoImplicit false

namespace Trading.Sed

open Trading.Text

/-! ## Addresses -/

/-- What one character of a line is compared with. -/
inductive Atom where
  | any
  | literal (c : Char)
deriving DecidableEq

def Atom.accepts : Atom → Char → Bool
  | .any, _ => true
  | .literal c, d => decide (c = d)

/-- An atom, repeated any number of times if it is starred. -/
structure Item where
  atom : Atom
  starred : Bool
deriving DecidableEq

def atom (c : Char) : Atom := if c = '.' then .any else .literal c

/-- The items of a regular expression. -/
def items : Text → List Item
  | [] => []
  | c :: '*' :: rest => ⟨atom c, true⟩ :: items rest
  | c :: rest => ⟨atom c, false⟩ :: items rest

/-- Whether the items match a beginning of the text. -/
def matchHere : List Item → Text → Bool
  | [], _ => true
  | ⟨_, false⟩ :: _, [] => false
  | ⟨a, false⟩ :: rest, c :: t => a.accepts c && matchHere rest t
  | ⟨a, true⟩ :: rest, t => (List.range (t.length + 1)).any fun length =>
      (t.take length).all a.accepts && matchHere rest (t.drop length)

/-- Whether a line matches an address. -/
def matchesLine (address line : Text) : Bool :=
  match address with
  | '^' :: rest => matchHere (items rest) line
  | _ => line.tails.any (matchHere (items address))

theorem items_literal_append {c : Char} {rest : Text} (literal : c ≠ '.')
    (unstarred : ∀ later, rest ≠ '*' :: later) :
    items (c :: rest) = ⟨.literal c, false⟩ :: items rest := by
  rw [items.eq_3 c rest unstarred, atom, if_neg literal]

theorem matchHere_any_star (t : Text) : matchHere (items ['.', '*']) t = true := by
  have everything : items ['.', '*'] = [⟨.any, true⟩] := by decide
  rw [everything, matchHere]
  refine List.any_eq_true.mpr ⟨0, List.mem_range.mpr (Nat.succ_pos _), ?_⟩
  simp only [List.take_zero, List.all_nil, Bool.true_and, matchHere]

/-- **A literal word, then anything: the lines that begin with the word.** -/
theorem matchesLine_word {word : Text} (noDot : '.' ∉ word) (noStar : '*' ∉ word) (line : Text) :
    matchesLine ('^' :: (word ++ ['.', '*'])) line = decide (word <+: line) := by
  simp only [matchesLine]
  induction word generalizing line with
  | nil => simpa using matchHere_any_star line
  | cons c word ih =>
      obtain ⟨headDot, tailDot⟩ := List.ne_and_not_mem_of_not_mem_cons noDot
      obtain ⟨-, tailStar⟩ := List.ne_and_not_mem_of_not_mem_cons noStar
      have unstarred : ∀ later, word ++ ['.', '*'] ≠ '*' :: later := by
        intro later same
        cases word with
        | nil => exact absurd (List.cons.inj same).1 (by decide)
        | cons d word => exact tailStar ((List.cons.inj same).1 ▸ List.mem_cons_self)
      rw [List.cons_append, items_literal_append headDot.symm unstarred]
      cases line with
      | nil => simp [matchHere]
      | cons d line =>
          rw [matchHere, ih tailDot tailStar, Atom.accepts]
          simp only [List.cons_prefix_cons, Bool.decide_and]

/-! ## Scripts -/

inductive Command where
  | print
  | next
deriving DecidableEq

/-- The commands up to the closing brace. -/
def commands : Text → Option (List Command)
  | ['}'] => some []
  | 'p' :: ';' :: rest => (commands rest).map (.print :: ·)
  | 'n' :: ';' :: rest => (commands rest).map (.next :: ·)
  | _ => none

/-- A script is `p` or a group of commands in braces. -/
def parse : Text → Option (List Command)
  | ['p'] => some [.print]
  | '{' :: rest => commands rest
  | _ => none

/-- The text of the group that prints and passes over a number of lines. -/
def scriptText (skip : Nat) : Text :=
  ['{', 'p', ';'] ++ (List.replicate skip "n;".toList).flatten ++ ['}']

theorem commands_nexts (skip : Nat) :
    commands ((List.replicate skip "n;".toList).flatten ++ ['}']) =
      some (List.replicate skip .next) := by
  induction skip with
  | zero => rfl
  | succ skip ih =>
      have head : (List.replicate (skip + 1) "n;".toList).flatten ++ ['}'] =
          'n' :: ';' :: ((List.replicate skip "n;".toList).flatten ++ ['}']) := by
        simp [List.replicate_succ]
      rw [head, commands, ih, Option.map_some, List.replicate_succ]

theorem parse_scriptText (skip : Nat) :
    parse (scriptText skip) = some (.print :: List.replicate skip .next) := by
  have opened : scriptText skip =
      '{' :: 'p' :: ';' :: ((List.replicate skip "n;".toList).flatten ++ ['}']) := by
    simp [scriptText]
  rw [opened, parse, commands, commands_nexts, Option.map_some]

/-! ## Runs -/

section Runs

variable {L : Type}

/-- The commands of one cycle on a pattern space, with the lines still to be read: the
printed lines, and the lines left unless the stream has ended. -/
def exec : List Command → L → List L → List L × Option (List L)
  | [], _, input => ([], some input)
  | .print :: script, space, input =>
      (space :: (exec script space input).1, (exec script space input).2)
  | .next :: _, _, [] => ([], none)
  | .next :: script, _, line :: input => exec script line input

/-- Cycles: each reads a line, and executes the script if the address matches it. -/
def cycles (hit : L → Bool) (script : List Command) : Nat → List L → List L
  | 0, _ => []
  | _ + 1, [] => []
  | fuel + 1, line :: input =>
      if hit line then
        match exec script line input with
        | (printed, some rest) => printed ++ cycles hit script fuel rest
        | (printed, none) => printed
      else cycles hit script fuel input

/-- A stream with a number of lines to pass over: a line that is hit is kept, and the next
`skip` lines are passed over. -/
def sample (hit : L → Bool) (skip : Nat) : Nat → List L → List L
  | _, [] => []
  | pending + 1, _ :: rest => sample hit skip pending rest
  | 0, line :: rest =>
      if hit line then line :: sample hit skip skip rest else sample hit skip 0 rest

theorem exec_nexts (skip : Nat) (space : L) (input : List L) :
    exec (List.replicate skip .next) space input =
      ([], if skip ≤ input.length then some (input.drop skip) else none) := by
  induction skip generalizing space input with
  | zero => simp [exec]
  | succ skip ih =>
      cases input with
      | nil => simp [List.replicate_succ, exec]
      | cons line input => simp [List.replicate_succ, exec, ih]

variable (hit : L → Bool) (skip : Nat)

theorem sample_pending (pending : Nat) (stream : List L) :
    sample hit skip pending stream = sample hit skip 0 (stream.drop pending) := by
  induction stream generalizing pending with
  | nil => simp [sample]
  | cons line rest ih =>
      cases pending with
      | zero => rfl
      | succ pending => rw [sample, ih, List.drop_succ_cons]

/-- With a cycle for each line, the cycles of the sampling script are the sampling. -/
theorem cycles_eq_sample (fuel : Nat) (stream : List L) (enough : stream.length ≤ fuel) :
    cycles hit (.print :: List.replicate skip .next) fuel stream = sample hit skip 0 stream := by
  induction fuel generalizing stream with
  | zero => rw [List.eq_nil_of_length_eq_zero (Nat.le_zero.mp enough), cycles, sample]
  | succ fuel ih =>
      cases stream with
      | nil => rfl
      | cons line rest =>
          have shorter : rest.length ≤ fuel := Nat.le_of_succ_le_succ enough
          rw [cycles, sample]
          split
          · rw [sample_pending]
            by_cases ended : skip ≤ rest.length
            · have left : (rest.drop skip).length ≤ fuel := by
                rw [List.length_drop]
                omega
              simp only [exec, exec_nexts, if_pos ended, ih _ left, List.singleton_append]
            · simp only [exec, exec_nexts, if_neg ended]
              rw [List.drop_eq_nil_of_le (by omega), sample]
          · exact ih rest shorter

end Runs

/-- The lines that `sed -n "/address/script"` prints. A script that is not one prints
nothing. -/
def run (address script : Text) (stream : List Text) : List Text :=
  match parse script with
  | some list => cycles (matchesLine address) list stream.length stream
  | none => []

/-- **The printing script that passes over lines samples the stream.** -/
theorem run_scriptText (address : Text) (skip : Nat) (stream : List Text) :
    run address (scriptText skip) stream = sample (matchesLine address) skip 0 stream := by
  simp only [run, parse_scriptText]
  exact cycles_eq_sample _ skip _ stream le_rfl

/-! ## What a sample keeps -/

section Samples

variable {L M : Type}

/-- The second list has the first entry of the first list and, after each entry it has, passes
over at most `skip` entries of it. -/
inductive Sampled (skip : Nat) : List L → List L → Prop where
  | nil : Sampled skip [] []
  | cons (kept : L) (passed : List L) (few : passed.length ≤ skip) {rest outputs : List L}
      (later : Sampled skip rest outputs) : Sampled skip (kept :: passed ++ rest) (kept :: outputs)

namespace Sampled

variable {skip : Nat} {all outputs : List L}

theorem sublist (sampled : Sampled skip all outputs) : outputs.Sublist all := by
  induction sampled with
  | nil => exact List.Sublist.refl _
  | cons kept passed few later ih =>
      rw [List.cons_append]
      exact (ih.trans (List.sublist_append_right passed _)).cons_cons kept

theorem head (sampled : Sampled skip all outputs) : outputs.head? = all.head? := by
  cases sampled <;> rfl

/-- A sample has at least the share of the whole that its stride gives. -/
theorem length_le (sampled : Sampled skip all outputs) :
    all.length ≤ (skip + 1) * outputs.length := by
  induction sampled with
  | nil => exact Nat.zero_le _
  | cons kept passed few later ih =>
      rw [List.length_append, List.length_cons, List.length_cons, Nat.mul_succ]
      omega

theorem eq_of_zero (sampled : Sampled 0 all outputs) : outputs = all := by
  induction sampled with
  | nil => rfl
  | cons kept passed few later ih =>
      rw [List.eq_nil_of_length_eq_zero (Nat.le_zero.mp few), ih, List.singleton_append]

/-- A sample of an image is the image of a sample. -/
theorem of_map {f : L → M} {images : List M} (sampled : Sampled skip (all.map f) images) :
    ∃ outputs, images = outputs.map f ∧ Sampled skip all outputs := by
  generalize source : all.map f = mapped at sampled
  induction sampled generalizing all with
  | nil =>
      obtain rfl := List.map_eq_nil_iff.mp source
      exact ⟨[], rfl, .nil⟩
  | cons kept passed few later ih =>
      obtain ⟨first, rest, rfl, firstImage, restImage⟩ := List.map_eq_append_iff.mp source
      obtain ⟨keptSource, passedSource, rfl, rfl, passedImage⟩ := List.map_eq_cons_iff.mp firstImage
      obtain ⟨outputs, rfl, sampled⟩ := ih restImage
      have few' : passedSource.length ≤ skip := by
        rw [← List.length_map f, passedImage]
        exact few
      exact ⟨keptSource :: outputs, rfl, .cons keptSource passedSource few' sampled⟩

end Sampled

variable (hit : L → Bool) (skip : Nat)

/-- The lines hit while lines are passed over come first, and there are few of them. -/
theorem sampled_pending (pending : Nat) (stream : List L) :
    ∃ passed rest, stream.filter hit = passed ++ rest ∧ passed.length ≤ pending ∧
      Sampled skip rest (sample hit skip pending stream) := by
  induction stream generalizing pending with
  | nil => exact ⟨[], [], rfl, Nat.zero_le _, by rw [sample]; exact .nil⟩
  | cons line stream ih =>
      cases pending with
      | succ pending =>
          obtain ⟨passed, rest, split, few, sampled⟩ := ih pending
          rw [sample, List.filter_cons]
          by_cases isHit : hit line
          · rw [if_pos isHit, split]
            exact ⟨line :: passed, rest, rfl, Nat.succ_le_succ few, sampled⟩
          · rw [if_neg isHit]
            exact ⟨passed, rest, split, few.trans (Nat.le_succ _), sampled⟩
      | zero =>
          rw [sample, List.filter_cons]
          by_cases isHit : hit line
          · obtain ⟨passed, rest, split, few, sampled⟩ := ih skip
            rw [if_pos isHit, if_pos isHit, split]
            exact ⟨[], line :: (passed ++ rest), rfl, le_rfl, .cons line passed few sampled⟩
          · rw [if_neg isHit, if_neg isHit]
            exact ih 0

/-- **What the run of the sampling script keeps of the lines that are hit.** -/
theorem sampled_sample (stream : List L) :
    Sampled skip (stream.filter hit) (sample hit skip 0 stream) := by
  obtain ⟨passed, rest, split, few, sampled⟩ := sampled_pending hit skip 0 stream
  rw [split, List.eq_nil_of_length_eq_zero (Nat.le_zero.mp few), List.nil_append]
  exact sampled

/-- A run over two streams is a run over the first and one over the second, which passes over
some lines at its beginning. -/
theorem sample_append (pending : Nat) (pendingLe : pending ≤ skip) (first second : List L) :
    ∃ left, left ≤ skip ∧ sample hit skip pending (first ++ second) =
      sample hit skip pending first ++ sample hit skip left second := by
  induction first generalizing pending with
  | nil => exact ⟨pending, pendingLe, by rw [List.nil_append, sample, List.nil_append]⟩
  | cons line first ih =>
      rw [List.cons_append]
      cases pending with
      | succ pending =>
          obtain ⟨left, leftLe, split⟩ := ih pending (Nat.le_of_succ_le pendingLe)
          exact ⟨left, leftLe, by rw [sample, sample, split]⟩
      | zero =>
          by_cases isHit : hit line
          · obtain ⟨left, leftLe, split⟩ := ih skip le_rfl
            exact ⟨left, leftLe, by rw [sample, if_pos isHit, sample, if_pos isHit, split,
              List.cons_append]⟩
          · obtain ⟨left, leftLe, split⟩ := ih 0 (Nat.zero_le _)
            exact ⟨left, leftLe, by rw [sample, if_neg isHit, sample, if_neg isHit, split]⟩

/-- A stretch of the stream contributes at most one line for each full stride. -/
theorem mul_length_sample_le (pending : Nat) (pendingLe : pending ≤ skip) (stream : List L) :
    (skip + 1) * (sample hit skip pending stream).length + pending ≤ stream.length + skip := by
  induction stream generalizing pending with
  | nil =>
      rw [sample, List.length_nil, Nat.mul_zero]
      omega
  | cons line stream ih =>
      rw [List.length_cons]
      cases pending with
      | succ pending =>
          have shorter := ih pending (Nat.le_of_succ_le pendingLe)
          rw [sample]
          omega
      | zero =>
          rw [sample]
          split
          · have shorter := ih skip le_rfl
            rw [List.length_cons, Nat.mul_succ]
            omega
          · have shorter := ih 0 (Nat.zero_le _)
            omega

theorem sample_eq_nil {stream : List L} (noHit : ∀ line ∈ stream, hit line = false)
    (pending : Nat) :
    sample hit skip pending stream = [] := by
  obtain ⟨passed, rest, split, -, sampled⟩ := sampled_pending hit skip pending stream
  have nothing : stream.filter hit = [] := by
    rw [List.filter_eq_nil_iff]
    intro line member
    rw [noHit line member]
    decide
  rw [nothing] at split
  have empty := sampled.sublist
  rw [(List.append_eq_nil_iff.mp split.symm).2] at empty
  exact List.sublist_nil.mp empty

/-- A stretch of the stream in which the lines that are hit are next to each other. -/
def OneBlock (stretch : List L) : Prop :=
  ∃ before block after, stretch = before ++ (block ++ after) ∧
    (∀ line ∈ before, hit line = false) ∧ (∀ line ∈ block, hit line = true) ∧
    ∀ line ∈ after, hit line = false

theorem mul_length_sample_oneBlock_le {stretch : List L} (oneBlock : OneBlock hit stretch)
    {pending : Nat} (pendingLe : pending ≤ skip) :
    (skip + 1) * (sample hit skip pending stretch).length ≤
      (stretch.filter hit).length + skip := by
  obtain ⟨before, block, after, rfl, quiet, hits, quiet'⟩ := oneBlock
  obtain ⟨left, leftLe, split⟩ := sample_append hit skip pending pendingLe before (block ++ after)
  obtain ⟨left', -, split'⟩ := sample_append hit skip left leftLe block after
  have onlyBlock : (before ++ (block ++ after)).filter hit = block := by
    have noneOf : ∀ {list : List L}, (∀ line ∈ list, hit line = false) → list.filter hit = [] :=
      fun quiet => List.filter_eq_nil_iff.mpr fun line member => by
        rw [quiet line member]
        decide
    rw [List.filter_append, List.filter_append, noneOf quiet, noneOf quiet',
      List.filter_eq_self.mpr hits, List.nil_append, List.append_nil]
  rw [split, split', sample_eq_nil hit skip quiet, sample_eq_nil hit skip quiet', List.nil_append,
    List.append_nil, onlyBlock]
  exact (Nat.le_add_right _ left).trans (mul_length_sample_le hit skip left leftLe block)

/-- **Stretches with one block each contribute, beyond their share, one line each at most.** -/
theorem mul_length_sample_flatten_le (stretches : List (List L))
    (oneBlock : ∀ stretch ∈ stretches, OneBlock hit stretch) {pending : Nat}
    (pendingLe : pending ≤ skip) :
    (skip + 1) * (sample hit skip pending stretches.flatten).length ≤
      (stretches.flatten.filter hit).length + stretches.length * skip := by
  induction stretches generalizing pending with
  | nil =>
      rw [List.flatten_nil, sample, List.length_nil, Nat.mul_zero]
      exact Nat.zero_le _
  | cons stretch stretches ih =>
      obtain ⟨left, leftLe, split⟩ :=
        sample_append hit skip pending pendingLe stretch stretches.flatten
      have first :=
        mul_length_sample_oneBlock_le hit skip (oneBlock stretch List.mem_cons_self) pendingLe
      have later := ih (fun other member => oneBlock other (List.mem_cons_of_mem _ member)) leftLe
      rw [List.flatten_cons, split, List.filter_append, List.length_append, List.length_append,
        List.length_cons, Nat.mul_add, Nat.succ_mul stretches.length]
      omega

/-- Sampling commutes with reading the lines of another stream. -/
theorem sample_map (f : M → L) (pending : Nat) (stream : List M) :
    sample hit skip pending (stream.map f) =
      (sample (fun m => hit (f m)) skip pending stream).map f := by
  induction stream generalizing pending with
  | nil => rw [List.map_nil, sample, sample, List.map_nil]
  | cons line stream ih =>
      cases pending with
      | succ pending => rw [List.map_cons, sample, sample, ih]
      | zero =>
          rw [List.map_cons, sample, sample]
          split
          · rw [ih, List.map_cons]
          · exact ih 0

end Samples

end Trading.Sed
