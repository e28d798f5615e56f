import Mathlib.Data.List.Basic

/-!
# Runs of a state machine

A machine has steps that are possible in some states, and a run is a list of events. What holds
of the state before each event and of the event itself is `EachStep`; a run is `Valid` when
each of its events is possible.

`EachStep.run` is the rule for invariants. `eachStep_iff` compares two properties of a run step
by step: they agree on every run of which they agree on each step from the states of an
invariant, where the invariant only has to survive the steps that have the first property.

A machine `Simulates` another one when each of its steps stands for some steps of the other, which
keep the states related; `Simulates.run` is the same for whole runs. `EachStep.project` is for a
machine that is part of another one.
-/

set_option autoImplicit false

namespace Trading.Runs

/-- The events that are possible in a state, and the states that they lead to. -/
structure Machine (S E : Type) where
  Enabled : S → E → Prop
  step : S → E → S

namespace Machine

variable {S E : Type} (machine : Machine S E)

/-- The state after a list of events. -/
def run : S → List E → S
  | state, [] => state
  | state, event :: events => run (machine.step state event) events

/-- A property of each event of a run and of the state before it. -/
def EachStep (P : S → E → Prop) : S → List E → Prop
  | _, [] => True
  | state, event :: events => P state event ∧ EachStep P (machine.step state event) events

/-- A run whose events are possible. -/
def Valid (state : S) (events : List E) : Prop := machine.EachStep machine.Enabled state events

instance {P : S → E → Prop} [∀ state event, Decidable (P state event)] (state : S)
    (events : List E) : Decidable (machine.EachStep P state events) :=
  match events with
  | [] => isTrue trivial
  | event :: events =>
      have := instDecidableEachStep (P := P) (machine.step state event) events
      inferInstanceAs (Decidable (_ ∧ _))

instance [∀ state event, Decidable (machine.Enabled state event)] (state : S) (events : List E) :
    Decidable (machine.Valid state events) :=
  inferInstanceAs (Decidable (machine.EachStep machine.Enabled state events))

variable {machine}

theorem run_append (state : S) (first second : List E) :
    machine.run state (first ++ second) = machine.run (machine.run state first) second := by
  induction first generalizing state with
  | nil => rfl
  | cons event first ih => exact ih (machine.step state event)

variable {P Q R : S → E → Prop} {Inv : S → Prop}

theorem eachStep_append (state : S) (first second : List E) :
    machine.EachStep P state (first ++ second) ↔
      machine.EachStep P state first ∧ machine.EachStep P (machine.run state first) second := by
  induction first generalizing state with
  | nil => simp [EachStep, run]
  | cons event first ih => simp only [List.cons_append, EachStep, run, ih, and_assoc]

theorem EachStep.and {state : S} {events : List E} (first : machine.EachStep P state events)
    (second : machine.EachStep Q state events) :
    machine.EachStep (fun state event => P state event ∧ Q state event) state events := by
  induction events generalizing state with
  | nil => trivial
  | cons event events ih => exact ⟨⟨first.1, second.1⟩, ih first.2 second.2⟩

/-- A property of the events alone. -/
theorem eachStep_events {P : E → Prop} (state : S) (events : List E) :
    machine.EachStep (fun _ event => P event) state events ↔ ∀ event ∈ events, P event := by
  induction events generalizing state with
  | nil => simp [EachStep]
  | cons event events ih => simp only [EachStep, ih, List.forall_mem_cons]

/-- **What each step keeps, a run keeps.** -/
theorem EachStep.run (keeps : ∀ state event, Inv state → P state event →
    Inv (machine.step state event))
    {state : S} {events : List E} (steps : machine.EachStep P state events) (start : Inv state) :
    Inv (machine.run state events) := by
  induction events generalizing state with
  | nil => exact start
  | cons event events ih => exact ih steps.2 (keeps state event start steps.1)

/-- **Two properties that agree on each step agree on every run**, where a step with the first
one keeps the invariant under which they agree. -/
theorem eachStep_iff
    (agree : ∀ state event, Inv state → R state event → (P state event ↔ Q state event))
    (keeps : ∀ state event, Inv state → R state event → P state event →
      Inv (machine.step state event))
    {state : S} {events : List E} (steps : machine.EachStep R state events) (start : Inv state) :
    machine.EachStep P state events ↔ machine.EachStep Q state events := by
  induction events generalizing state with
  | nil => exact Iff.rfl
  | cons event events ih =>
      have here := agree state event start steps.1
      constructor
      · rintro ⟨first, later⟩
        exact ⟨here.mp first, (ih steps.2 (keeps state event start steps.1 first)).mp later⟩
      · rintro ⟨first, later⟩
        have holds := here.mpr first
        exact ⟨holds, (ih steps.2 (keeps state event start steps.1 holds)).mpr later⟩

/-! ## Simulations -/

variable {T F : Type}

/-- The steps of another machine that the steps of a run stand for. -/
def trace (machine : Machine S E) (shows : S → E → List F) : S → List E → List F
  | _, [] => []
  | state, event :: events =>
      shows state event ++ machine.trace shows (machine.step state event) events

theorem trace_events (shows : E → List F) (state : S) (events : List E) :
    machine.trace (fun _ event => shows event) state events = events.flatMap shows := by
  induction events generalizing state with
  | nil => rfl
  | cons event events ih => rw [trace, ih, List.flatMap_cons]

/-- A step with the property `P` keeps the states related, where the other machine takes the
steps that it stands for. -/
def Simulates (machine : Machine S E) (other : Machine T F) (shows : S → E → List F)
    (P : S → E → Prop) (Rel : S → T → Prop) : Prop :=
  ∀ state event state', Rel state state' → P state event →
    Rel (machine.step state event) (other.run state' (shows state event))

/-- **Related states stay related along a run.** -/
theorem Simulates.run {other : Machine T F} {shows : S → E → List F} {Rel : S → T → Prop}
    (simulates : machine.Simulates other shows P Rel) {state : S} {state' : T} {events : List E}
    (steps : machine.EachStep P state events) (start : Rel state state') :
    Rel (machine.run state events) (other.run state' (machine.trace shows state events)) := by
  induction events generalizing state state' with
  | nil => exact start
  | cons event events ih =>
      rw [trace, run_append]
      exact ih steps.2 (simulates state event state' start steps.1)

/-- **A run of a machine whose states have a part that is another machine is a run of it**, where
an invariant says that the steps are possible there. -/
theorem EachStep.project {other : Machine T E} {Q : T → E → Prop} (part : S → T)
    (step : ∀ state event, part (machine.step state event) = other.step (part state) event)
    (allows : ∀ state event, Inv state → P state event → Q (part state) event)
    (keeps : ∀ state event, Inv state → P state event → Inv (machine.step state event))
    {state : S} {events : List E} (steps : machine.EachStep P state events) (start : Inv state) :
    other.EachStep Q (part state) events ∧
      part (machine.run state events) = other.run (part state) events := by
  induction events generalizing state with
  | nil => exact ⟨trivial, rfl⟩
  | cons event events ih =>
      obtain ⟨later, same⟩ := ih steps.2 (keeps state event start steps.1)
      rw [step] at later same
      exact ⟨⟨allows state event start steps.1, later⟩, same⟩

end Machine

end Trading.Runs
