import Mathlib.Order.Basic
import Mathlib.Data.List.Infix

/-! Deterministic executions as folds over their inputs. A property of every
step of a run is stated by `Along`, a property of every state of a run over
the prefixes of its inputs. -/

universe u v w x

namespace Runs

variable {σ : Type u} {α : Type v}

/-- The state reached once the inputs have been handled one by one. -/
def after (step : σ → α → σ) (state : σ) (inputs : List α) : σ :=
  inputs.foldl step state

/-- A property of each input together with the state that meets it. -/
def Along (step : σ → α → σ) (property : σ → α → Prop) : σ → List α → Prop
  | _, [] => True
  | state, input :: rest => property state input ∧ Along step property (step state input) rest

def upTo (step : σ → α → σ) (property : σ → α → Prop) [∀ state input, Decidable (property state input)] :
    σ → List α → List α
  | _, [] => []
  | state, input :: rest => if property state input then input :: upTo step property (step state input) rest else []

/-- What the steps of a run give out one after the other. -/
def emitted {β : Type w} (step : σ → α → σ) (emit : σ → α → List β) : σ → List α → List β
  | _, [] => []
  | state, input :: rest => emit state input ++ emitted step emit (step state input) rest

variable {step : σ → α → σ}

@[simp] theorem after_nil (state : σ) : after step state [] = state := rfl

@[simp] theorem after_cons (state : σ) (input : α) (rest : List α) :
    after step state (input :: rest) = after step (step state input) rest := rfl

@[simp] theorem after_append (state : σ) (first rest : List α) :
    after step state (first ++ rest) = after step (after step state first) rest :=
  List.foldl_append ..

@[simp] theorem emitted_nil {β : Type w} (emit : σ → α → List β) (state : σ) : emitted step emit state [] = [] := rfl

@[simp] theorem emitted_cons {β : Type w} (emit : σ → α → List β) (state : σ) (input : α) (rest : List α) :
    emitted step emit state (input :: rest) = emit state input ++ emitted step emit (step state input) rest := rfl

@[simp] theorem emitted_append {β : Type w} (emit : σ → α → List β) (state : σ) (first rest : List α) :
    emitted step emit state (first ++ rest) =
      emitted step emit state first ++ emitted step emit (after step state first) rest := by
  induction first generalizing state with
  | nil => rfl
  | cons input first ih =>
    rw [List.cons_append, emitted_cons, ih, emitted_cons, after_cons, List.append_assoc]

theorem emitted_fixed {β : Type w} (emit : α → List β) (state : σ) (inputs : List α) :
    emitted step (fun _ => emit) state inputs = inputs.flatMap emit := by
  induction inputs generalizing state with
  | nil => rfl
  | cons input rest ih => rw [emitted_cons, ih, List.flatMap_cons]

/-- A quantity that every step raises by what it gives out counts what the run
gives out. -/
theorem counted {β : Type w} {emit : σ → α → List β} (measure : σ → Nat)
    (each : ∀ state input, measure (step state input) = measure state + (emit state input).length) (state : σ)
    (inputs : List α) :
    measure (after step state inputs) = measure state + (emitted step emit state inputs).length := by
  induction inputs generalizing state with
  | nil => rfl
  | cons input rest ih => rw [after_cons, ih, each, emitted_cons, List.length_append, Nat.add_assoc]

/-- A log to which every step appends what its input alone decides holds the
inputs one after the other. -/
theorem logged {β : Type w} {log : σ → List β} {emit : α → List β}
    (each : ∀ state input, log (step state input) = log state ++ emit input) (state : σ) (inputs : List α) :
    log (after step state inputs) = log state ++ inputs.flatMap emit := by
  induction inputs generalizing state with
  | nil => exact (List.append_nil _).symm
  | cons input rest ih => rw [after_cons, ih, each, List.flatMap_cons, List.append_assoc]

@[simp] theorem along_nil {property : σ → α → Prop} (state : σ) : Along step property state [] := trivial

@[simp] theorem along_cons {property : σ → α → Prop} (state : σ) (input : α) (rest : List α) :
    Along step property state (input :: rest) ↔
      property state input ∧ Along step property (step state input) rest := Iff.rfl

@[simp] theorem along_append {property : σ → α → Prop} (state : σ) (first rest : List α) :
    Along step property state (first ++ rest) ↔
      Along step property state first ∧ Along step property (after step state first) rest := by
  induction first generalizing state with
  | nil => simp
  | cons input first ih => simp [ih, and_assoc]

theorem along_and {property other : σ → α → Prop} (state : σ) (inputs : List α) :
    Along step (fun state input => property state input ∧ other state input) state inputs ↔
      Along step property state inputs ∧ Along step other state inputs := by
  induction inputs generalizing state with
  | nil => simp
  | cons input rest ih =>
    rw [along_cons, along_cons, along_cons, ih]
    exact and_and_and_comm

instance decidableAlong {property : σ → α → Prop} [∀ state input, Decidable (property state input)] :
    ∀ state inputs, Decidable (Along step property state inputs)
  | _, [] => .isTrue trivial
  | state, input :: rest =>
    have : Decidable (Along step property (step state input) rest) := decidableAlong _ _
    inferInstanceAs (Decidable (property state input ∧ Along step property (step state input) rest))

theorem emitted_eq_nil_iff {β : Type w} {emit : σ → α → List β} (state : σ) (inputs : List α) :
    emitted step emit state inputs = [] ↔ Along step (fun state input => emit state input = []) state inputs := by
  induction inputs generalizing state with
  | nil => simp
  | cons input rest ih => rw [emitted_cons, List.append_eq_nil_iff, along_cons, ih]

theorem upTo_of_along {property : σ → α → Prop} [∀ state input, Decidable (property state input)]
    {state : σ} {inputs : List α} (holds : Along step property state inputs) :
    upTo step property state inputs = inputs := by
  induction inputs generalizing state with
  | nil => rfl
  | cons input rest ih => rw [upTo, if_pos holds.1, ih holds.2]

theorem along_upTo {property : σ → α → Prop} [∀ state input, Decidable (property state input)] (state : σ)
    (inputs : List α) : Along step property state (upTo step property state inputs) := by
  induction inputs generalizing state with
  | nil => exact trivial
  | cons input rest ih =>
    rw [upTo]
    split
    next holds => exact ⟨holds, ih _⟩
    next => exact trivial

theorem mem_upTo {property : σ → α → Prop} [∀ state input, Decidable (property state input)] {state : σ}
    {inputs : List α} {input : α} (member : input ∈ upTo step property state inputs) : input ∈ inputs := by
  induction inputs generalizing state with
  | nil => cases member
  | cons first rest ih =>
    rw [upTo] at member
    split at member
    next =>
      rcases List.mem_cons.mp member with rfl | later
      · exact List.mem_cons_self
      · exact List.mem_cons_of_mem first (ih later)
    next => cases member

theorem along_of_forall {property : σ → α → Prop} {inputs : List α}
    (holds : ∀ state, ∀ input ∈ inputs, property state input) (state : σ) : Along step property state inputs := by
  induction inputs generalizing state with
  | nil => exact trivial
  | cons input rest ih =>
    refine ⟨holds state input List.mem_cons_self, ?_⟩
    exact ih (fun state other member => holds state other (List.mem_cons_of_mem input member)) _

theorem along_of_invariant {kept : σ → Prop} {property : σ → α → Prop}
    (preserved : ∀ state input, kept state → kept (step state input))
    (holds : ∀ state input, kept state → property state input) {state : σ} (start : kept state) (inputs : List α) :
    Along step property state inputs := by
  induction inputs generalizing state with
  | nil => exact trivial
  | cons input rest ih => exact ⟨holds state input start, ih (preserved state input start)⟩

theorem invariant {kept : σ → Prop} (preserved : ∀ state input, kept state → kept (step state input))
    {state : σ} (start : kept state) (inputs : List α) : kept (after step state inputs) := by
  induction inputs generalizing state with
  | nil => exact start
  | cons input rest ih => exact ih (preserved state input start)

/-- An invariant between a state and what has been given out on the way to it. -/
theorem invariant_emitted {β : Type w} {emit : σ → α → List β} {kept : List β → σ → Prop}
    (preserved : ∀ given state input, kept given state → kept (given ++ emit state input) (step state input))
    {given : List β} {state : σ} (start : kept given state) (inputs : List α) :
    kept (given ++ emitted step emit state inputs) (after step state inputs) := by
  induction inputs generalizing given state with
  | nil => rwa [emitted_nil, List.append_nil]
  | cons input rest ih =>
    rw [emitted_cons, ← List.append_assoc]
    exact ih (preserved given state input start)

/-- What is preserved by the steps that meet a side condition holds at the
end of every run whose steps all meet it. -/
theorem invariant_along {kept : σ → Prop} {property : σ → α → Prop}
    (preserved : ∀ state input, kept state → property state input → kept (step state input))
    {state : σ} (start : kept state) {inputs : List α} (holds : Along step property state inputs) :
    kept (after step state inputs) := by
  induction inputs generalizing state with
  | nil => exact start
  | cons input rest ih => exact ih (preserved state input start holds.1) holds.2

theorem along_prefix {property : σ → α → Prop} {state : σ} {pre inputs : List α} (inside : pre <+: inputs)
    (along : Along step property state inputs) : Along step property state pre := by
  obtain ⟨rest, rfl⟩ := inside
  exact ((along_append state pre rest).mp along).1

/-- Steps that meet a side condition meet everything that follows from it in
the states the side condition preserves. -/
theorem along_within {kept : σ → Prop} {property other : σ → α → Prop}
    (preserved : ∀ state input, kept state → property state input → kept (step state input))
    (follows : ∀ state input, kept state → property state input → other state input)
    {state : σ} (start : kept state) {inputs : List α} (along : Along step property state inputs) :
    Along step other state inputs := by
  induction inputs generalizing state with
  | nil => exact trivial
  | cons input rest ih =>
    exact ⟨follows state input start along.1, ih (preserved state input start along.1) along.2⟩

theorem related {τ : Type w} {other : τ → α → τ} {relation : σ → τ → Prop}
    (moves : ∀ first second input, relation first second → relation (step first input) (other second input))
    {first : σ} {second : τ} (start : relation first second) (inputs : List α) :
    relation (after step first inputs) (after other second inputs) := by
  induction inputs generalizing first second with
  | nil => exact start
  | cons input rest ih => exact ih (moves first second input start)

/-- A machine whose steps are those of another one, seen through a view, or are
hidden from it: every run goes through a run of the other with the same things
observed. -/
theorem refined {τ : Type w} {β : Type x} {other : τ → α → τ} {view : σ → τ} {observe : τ → α → List β}
    {kept : σ → Prop} (preserved : ∀ state input, kept state → kept (step state input))
    (simulates : ∀ state input, kept state → view (step state input) = other (view state) input ∨
      view (step state input) = view state ∧ observe (view state) input = [])
    {state : σ} (start : kept state) (inputs : List α) :
    ∃ seen, seen.Sublist inputs ∧ view (after step state inputs) = after other (view state) seen ∧
      emitted step (fun state => observe (view state)) state inputs = emitted other observe (view state) seen := by
  induction inputs generalizing state with
  | nil => exact ⟨[], List.Sublist.refl [], rfl, rfl⟩
  | cons input rest ih =>
    obtain ⟨seen, inside, reached, given⟩ := ih (preserved state input start)
    rcases simulates state input start with same | ⟨hidden, nothing⟩
    · refine ⟨input :: seen, inside.cons_cons input, ?_, ?_⟩
      · rw [after_cons, reached, same, after_cons]
      · rw [emitted_cons, given, same, emitted_cons]
    · refine ⟨seen, inside.cons input, ?_, ?_⟩
      · rw [after_cons, reached, hidden]
      · rw [emitted_cons, given, hidden, nothing, List.nil_append]

theorem along_congr {kept : σ → Prop} {property other : σ → α → Prop}
    (preserved : ∀ state input, kept state → kept (step state input))
    (same : ∀ state input, kept state → (property state input ↔ other state input))
    {state : σ} (start : kept state) (inputs : List α) :
    Along step property state inputs ↔ Along step other state inputs := by
  induction inputs generalizing state with
  | nil => simp
  | cons input rest ih => rw [along_cons, along_cons, same state input start, ih (preserved state input start)]

/-- A state property is kept throughout a run, and every step moves as wanted,
exactly when every step meets the condition under which one step does both. -/
theorem always_moving_iff {kept : σ → Prop} {moves property : σ → α → Prop}
    (exact_step : ∀ state input, kept state → (kept (step state input) ∧ moves state input ↔ property state input))
    {state : σ} (start : kept state) (inputs : List α) :
    (∀ pre, pre <+: inputs → kept (after step state pre)) ∧ Along step moves state inputs ↔
      Along step property state inputs := by
  induction inputs generalizing state with
  | nil => simp [start]
  | cons input rest ih =>
    constructor
    · intro ⟨always, moved, moving⟩
      have next : kept (step state input) := always [input] (by simp)
      refine ⟨(exact_step state input start).mp ⟨next, moved⟩, (ih next).mp ⟨?_, moving⟩⟩
      intro pre inside
      exact always (input :: pre) (by simpa using inside)
    · intro ⟨holds, remaining⟩
      obtain ⟨next, moved⟩ := (exact_step state input start).mpr holds
      obtain ⟨always, moving⟩ := (ih next).mpr remaining
      refine ⟨?_, moved, moving⟩
      intro pre inside
      cases pre with
      | nil => exact start
      | cons other pre =>
        obtain ⟨rfl, shorter⟩ := List.cons_prefix_cons.mp inside
        exact always pre shorter

/-- A state property is kept throughout a run exactly when every step meets
the condition under which a single step keeps it. -/
theorem always_iff {kept : σ → Prop} {property : σ → α → Prop}
    (exact_step : ∀ state input, kept state → (kept (step state input) ↔ property state input))
    {state : σ} (start : kept state) (inputs : List α) :
    (∀ pre, pre <+: inputs → kept (after step state pre)) ↔ Along step property state inputs := by
  have everywhere : Along step (fun _ _ => True) state inputs := along_of_forall (fun _ _ _ => trivial) state
  have exact : ∀ state input, kept state → (kept (step state input) ∧ True ↔ property state input) := by
    intro state input holds
    rw [and_true]
    exact exact_step state input holds
  have combined := always_moving_iff exact start inputs
  exact ⟨fun always => combined.mp ⟨always, everywhere⟩, fun along => (combined.mpr along).1⟩

/-- The same where single steps are only understood in states that keep an
invariant of all steps. -/
theorem always_iff_within {base kept : σ → Prop} {property : σ → α → Prop}
    (preserved : ∀ state input, base state → base (step state input))
    (exact_step : ∀ state input, base state → kept state → (kept (step state input) ↔ property state input))
    {state : σ} (valid : base state) (start : kept state) (inputs : List α) :
    (∀ pre, pre <+: inputs → kept (after step state pre)) ↔ Along step property state inputs := by
  have exact : ∀ state input, base state ∧ kept state →
      (base (step state input) ∧ kept (step state input) ↔ property state input) := by
    intro state input ⟨valid, holds⟩
    rw [and_iff_right (preserved state input valid)]
    exact exact_step state input valid holds
  rw [← always_iff exact ⟨valid, start⟩ inputs]
  constructor
  · intro always pre inside
    exact ⟨invariant preserved valid pre, always pre inside⟩
  · intro always pre inside
    exact (always pre inside).2

/-- Each state of a run is related to every later one. -/
def Ascending (step : σ → α → σ) (relation : σ → σ → Prop) (state : σ) (inputs : List α) : Prop :=
  ∀ pre later, pre ++ later <+: inputs → relation (after step state pre) (after step state (pre ++ later))

theorem climbs {relation : σ → σ → Prop} (refl : ∀ state, relation state state)
    (trans : ∀ first middle last, relation first middle → relation middle last → relation first last)
    {state : σ} {inputs : List α}
    (along : Along step (fun state input => relation state (step state input)) state inputs) :
    relation state (after step state inputs) := by
  induction inputs generalizing state with
  | nil => exact refl state
  | cons input rest ih =>
    apply trans
    · exact along.1
    · exact ih along.2

/-- For a preorder, single steps decide whether a run ascends. -/
theorem ascending_iff {relation : σ → σ → Prop} (refl : ∀ state, relation state state)
    (trans : ∀ first middle last, relation first middle → relation middle last → relation first last)
    (state : σ) (inputs : List α) :
    Ascending step relation state inputs ↔
      Along step (fun state input => relation state (step state input)) state inputs := by
  constructor
  · intro ascending
    induction inputs generalizing state with
    | nil => exact trivial
    | cons input rest ih =>
      refine ⟨ascending [] [input] (by simp), ih (step state input) ?_⟩
      intro pre later inside
      exact ascending (input :: pre) later (by simpa using inside)
  · intro along pre later ⟨remaining, same⟩
    rw [← same, along_append, along_append] at along
    rw [after_append]
    exact climbs refl trans along.1.2

/-- Where an invariant is kept and some input always brings the work down until
the goal is reached, some inputs lead there. -/
theorem reaches_within {β : Type w} [work_order : WellFoundedRelation β] {kept goal : σ → Prop} (work : σ → β)
    (preserved : ∀ state input, kept state → kept (step state input))
    (progress : ∀ state, kept state → ¬ goal state → ∃ input, work_order.rel (work (step state input)) (work state))
    {state : σ} (start : kept state) : ∃ inputs, goal (after step state inputs) := by
  have from_each : ∀ left state, work state = left → kept state → ∃ inputs, goal (after step state inputs) := by
    intro left
    induction left using work_order.wf.induction with
    | _ left ih =>
      rintro state rfl start
      by_cases reached : goal state
      · exact ⟨[], reached⟩
      · obtain ⟨input, less⟩ := progress state start reached
        obtain ⟨inputs, later⟩ := ih _ less (step state input) rfl (preserved state input start)
        exact ⟨input :: inputs, later⟩
  exact from_each (work state) state rfl start

theorem reaches {goal : σ → Prop} (work : σ → Nat)
    (progress : ∀ state, ¬ goal state → ∃ input, work (step state input) < work state) (state : σ) :
    ∃ inputs, goal (after step state inputs) := by
  have kept : ∀ state input, True → (fun _ : σ => True) (step state input) := fun _ _ _ => trivial
  exact reaches_within work kept (fun state _ => progress state) trivial

/-- Two machines fed the same inputs. -/
def both {τ : Type w} (step : σ → α → σ) (other : τ → α → τ) (states : σ × τ) (input : α) : σ × τ :=
  (step states.1 input, other states.2 input)

theorem after_both {τ : Type w} (other : τ → α → τ) (states : σ × τ) (inputs : List α) :
    after (both step other) states inputs = (after step states.1 inputs, after other states.2 inputs) := by
  induction inputs generalizing states with
  | nil => rfl
  | cons input rest ih => rw [after_cons, ih, both, after_cons, after_cons]

end Runs
