/-! Lines of a text. A text is cut after each line feed, so that the pieces put together give it
back; a line is a piece without its end. -/

namespace Keyrings.Text

/-- Puts a character in front of some pieces: a line feed is a piece of its own, and any other
character belongs to the first piece. -/
def putFirst (c : Char) (pieces : List (List Char)) : List (List Char) :=
  if c = '\n' then [c] :: pieces
  else match pieces with
    | [] => [[c]]
    | piece :: rest => (c :: piece) :: rest

/-- Cuts a text after each line feed; only the last piece may lack one. -/
def cut (cs : List Char) : List (List Char) := cs.foldr putFirst []

/-- Drops the line feed at the end of a piece, and a carriage return before it. -/
def dropLineFeed : List Char → List Char
  | [] => []
  | ['\n'] => []
  | ['\r', '\n'] => []
  | c :: cs => c :: dropLineFeed cs

def lines (cs : List Char) : List (List Char) := (cut cs).map dropLineFeed

theorem flatten_putFirst (c : Char) (pieces : List (List Char)) :
    (putFirst c pieces).flatten = c :: pieces.flatten := by
  unfold putFirst
  split
  · rfl
  · cases pieces <;> rfl

/-- The pieces of a text put together give the text back. -/
theorem flatten_cut (cs : List Char) : (cut cs).flatten = cs := by
  induction cs with
  | nil => rfl
  | cons c cs ih =>
    have step : cut (c :: cs) = putFirst c (cut cs) := rfl
    rw [step, flatten_putFirst, ih]

end Keyrings.Text
