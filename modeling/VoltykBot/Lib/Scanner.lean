import Mathlib.Algebra.Ring.Nat

/-!
This module contains scanners: they read a text from left to right, at each place one piece of it, and go on
behind the piece. What is read at a place depends on the rest of the text only.
-/

namespace Scanner

variable {α β : Type*}

/--
The pieces of a text, if `skip` characters of it already belong to the piece before. `cut` gives a piece and how
many characters it takes besides the first one, so that each piece takes at least one.
-/
def scan (cut : α → List α → β × Nat) (skip : Nat) (text : List α) : List β :=
  match skip, text with
  | _, [] => []
  | skip + 1, _ :: rest => scan cut skip rest
  | 0, c :: rest => (cut c rest).1 :: scan cut (cut c rest).2 rest

def pieces (cut : α → List α → β × Nat) (text : List α) : List β := scan cut 0 text

variable {cut : α → List α → β × Nat}

@[simp]
theorem pieces_nil : pieces cut [] = [] := rfl

theorem scan_append (before rest : List α) : scan cut before.length (before ++ rest) = pieces cut rest := by
  induction before with
  | nil => rfl
  | cons c before ih =>
    rw [List.length_cons, List.cons_append, scan]
    exact ih

theorem pieces_cons {c : α} {more rest : List α} {piece : β} (hcut : cut c (more ++ rest) = (piece, more.length))
    : pieces cut (c :: more ++ rest) = piece :: pieces cut rest := by
  unfold pieces
  rw [List.cons_append, scan, hcut]
  dsimp only
  rw [scan_append]
  rfl

end Scanner
