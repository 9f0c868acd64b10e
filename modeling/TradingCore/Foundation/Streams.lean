import TradingCore.Foundation.Runs
import Mathlib.Data.List.Perm.Basic
import Mathlib.Data.List.Count

/-! Inputs routed by a key to independent machines. Arrangements of the same
keyed streams differ only in how the streams interleave: each machine sees the
same inputs, and the outputs of one arrangement are those of the other in
another order. -/

universe u v w x

namespace Streams

variable {κ : Type u} [DecidableEq κ] {α : Type v} {S : Type w} {ω : Type x}

def stream (key : α → κ) (wanted : κ) (inputs : List α) : List α :=
  inputs.filter (fun input => key input = wanted)

/-- Two interleavings of the same streams. -/
def SameStreams (key : α → κ) (first second : List α) : Prop :=
  ∀ wanted, stream key wanted first = stream key wanted second

theorem SameStreams.perm {key : α → κ} {first second : List α} (same : SameStreams key first second) :
    first.Perm second := by
  classical
  rw [List.perm_iff_count]
  intro input
  have counted : ∀ inputs : List α, (stream key (key input) inputs).count input = inputs.count input :=
    fun inputs => List.count_filter (by simp)
  rw [← counted first, ← counted second, same]

theorem SameStreams.map {β : Type x} {key : β → κ} (convert : α → β) {first second : List α}
    (same : SameStreams (fun input => key (convert input)) first second) :
    SameStreams key (first.map convert) (second.map convert) := by
  intro wanted
  have converted : ∀ inputs : List α, stream key wanted (inputs.map convert) =
      (stream (fun input => key (convert input)) wanted inputs).map convert := by
    intro inputs
    rw [stream, List.filter_map]
    rfl
  rw [converted, converted, same]

def route (key : α → κ) (next : S → α → S) (states : κ → S) (input : α) : κ → S :=
  Function.update states (key input) (next (states (key input)) input)

def outputs (key : α → κ) (next : S → α → S) (output : S → α → ω) : (κ → S) → List α → List (α × ω)
  | _, [] => []
  | states, input :: rest =>
    (input, output (states (key input)) input) :: outputs key next output (route key next states input) rest

def answers (next : S → α → S) (output : S → α → ω) : S → List α → List (α × ω)
  | _, [] => []
  | state, input :: rest => (input, output state input) :: answers next output (next state input) rest

variable {key : α → κ} {next : S → α → S} {output : S → α → ω}

theorem after_route (states : κ → S) (inputs : List α) (wanted : κ) :
    Runs.after (route key next) states inputs wanted =
      Runs.after next (states wanted) (stream key wanted inputs) := by
  induction inputs generalizing states with
  | nil => rfl
  | cons input rest ih =>
    rw [Runs.after_cons, ih]
    by_cases same : key input = wanted
    · subst same
      simp [stream, route]
    · simp [stream, same, route, Function.update_of_ne (Ne.symm same)]

theorem stream_outputs (states : κ → S) (inputs : List α) (wanted : κ) :
    stream (fun answered : α × ω => key answered.1) wanted (outputs key next output states inputs) =
      answers next output (states wanted) (stream key wanted inputs) := by
  induction inputs generalizing states with
  | nil => rfl
  | cons input rest ih =>
    have rest := ih (route key next states input)
    simp only [stream] at rest
    by_cases same : key input = wanted
    · subst same
      simp only [outputs, stream, List.filter_cons, decide_true, if_true, answers, rest]
      simp [route]
    · simp only [outputs, stream, List.filter_cons, same, decide_false, rest]
      simp [route, Function.update_of_ne (Ne.symm same)]

variable (next output) in
/-- Interleaving changes neither where the machines end nor what they answer. -/
theorem interleaving_independent {first second : List α} (same : SameStreams key first second) (states : κ → S) :
    Runs.after (route key next) states first = Runs.after (route key next) states second ∧
    SameStreams (fun answered : α × ω => key answered.1)
      (outputs key next output states first) (outputs key next output states second) := by
  constructor
  · funext wanted
    rw [after_route, after_route, same]
  · intro wanted
    rw [stream_outputs, stream_outputs, same]

end Streams
