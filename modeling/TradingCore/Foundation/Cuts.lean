import TradingCore.Foundation.Runs

/-! A list cut into pieces at the elements at which a machine that reads it
cuts. The element of a cut belongs to no piece. -/

universe u v

namespace Cuts

variable {σ : Type u} {α : Type v} (step : σ → α → σ) (cuts : σ → α → Bool)

def pieces : σ → List α → List (List α)
  | _, [] => [[]]
  | state, element :: rest =>
    if cuts state element then [] :: pieces (step state element) rest
    else (pieces (step state element) rest).modifyHead (element :: ·)

variable {step cuts}

theorem modifyHead_nil_append (lists : List (List α)) : lists.modifyHead ([] ++ ·) = lists :=
  congrFun List.modifyHead_id lists

theorem pieces_cut {state : σ} {element : α} (cut : cuts state element = true) (rest : List α) :
    pieces step cuts state (element :: rest) = [] :: pieces step cuts (step state element) rest := by
  rw [pieces, if_pos cut]

theorem pieces_uncut {state : σ} {element : α} (uncut : cuts state element = false) (rest : List α) :
    pieces step cuts state (element :: rest) =
      (pieces step cuts (step state element) rest).modifyHead (element :: ·) := by
  rw [pieces, uncut, if_neg Bool.false_ne_true]

/-- What is read without a cut stays in front of the first piece. -/
theorem pieces_append {state : σ} {first : List α}
    (uncut : Runs.Along step (fun state element => cuts state element = false) state first) (rest : List α) :
    pieces step cuts state (first ++ rest) =
      (pieces step cuts (Runs.after step state first) rest).modifyHead (first ++ ·) := by
  induction first generalizing state with
  | nil => exact (modifyHead_nil_append _).symm
  | cons element first ih =>
    rw [List.cons_append, pieces_uncut uncut.1, ih uncut.2, List.modifyHead_modifyHead, Runs.after_cons]
    rfl

theorem pieces_whole {state : σ} {elements : List α}
    (uncut : Runs.Along step (fun state element => cuts state element = false) state elements) :
    pieces step cuts state elements = [elements] := by
  have whole := pieces_append uncut []
  rw [List.append_nil] at whole
  rw [whole, pieces, List.modifyHead_cons, List.append_nil]

end Cuts
