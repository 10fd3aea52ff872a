/-
Module: Gateway.Text.Split
Layer: Text
Purpose: Cutting a sequence at a separator, and joining it again.
Main exports: splitOn, joinWith, cutAt
-/
namespace Gateway

/-- The pieces between the separators; a sequence without separator is one piece. -/
def splitOn {α : Type} [BEq α] (separator : α) : List α → List (List α)
  | [] => [[]]
  | a :: rest =>
    if a == separator then [] :: splitOn separator rest
    else
      match splitOn separator rest with
      | [] => [[a]]
      | piece :: pieces => (a :: piece) :: pieces

/-- The pieces with a separator between each two. -/
def joinWith {α : Type} (separator : α) : List (List α) → List α
  | [] => []
  | [piece] => piece
  | piece :: next :: pieces => piece ++ separator :: joinWith separator (next :: pieces)

/-- What stands before the first separator and what stands after it, the latter `none` when there is
no separator. -/
def cutAt {α : Type} [BEq α] (separator : α) : List α → List α × Option (List α)
  | [] => ([], none)
  | a :: rest =>
    if a == separator then ([], some rest)
    else ((a :: (cutAt separator rest).1), (cutAt separator rest).2)

theorem splitOn_ne_nil {α : Type} [BEq α] (separator : α) (s : List α) :
    splitOn separator s ≠ [] := by
  induction s with
  | nil => simp [splitOn]
  | cons a rest ih =>
    unfold splitOn
    split
    · simp
    · split <;> simp

end Gateway
