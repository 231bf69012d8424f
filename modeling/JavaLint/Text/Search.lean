/-!
# Searching in texts

Prefixes, suffixes, separators and the first occurrence of a text in another, on lists of
characters.
-/

namespace JavaLint.Text

/-- What follows the first text in the second, if the second starts with it. -/
def dropStart? : List Char → List Char → Option (List Char)
  | [], cs => some cs
  | _ :: _, [] => none
  | p :: ps, c :: cs => if p = c then dropStart? ps cs else none

/-- What precedes the first text in the second, if the second ends with it. -/
def dropEnd? (tail cs : List Char) : Option (List Char) :=
  (dropStart? tail.reverse cs.reverse).map List.reverse

/-- What follows the first text, or the whole second text if it does not start with the first. -/
def dropStart (head cs : List Char) : List Char :=
  (dropStart? head cs).getD cs

/-- What precedes the first text, or the whole second text if it does not end with the first. -/
def dropEnd (tail cs : List Char) : List Char :=
  (dropEnd? tail cs).getD cs

/-- The number of characters before the first occurrence of `piece`. -/
def find? (piece : List Char) : List Char → Option Nat
  | [] => if piece.isEmpty then some 0 else none
  | c :: cs => if piece.isPrefixOf (c :: cs) then some 0 else (find? piece cs).map (· + 1)

/-- The text holds `piece` somewhere. -/
def contains (piece cs : List Char) : Bool :=
  (find? piece cs).isSome

/-- The pieces between the separators; a text without separators is one piece. -/
def splitAt (separator : Char) : List Char → List (List Char)
  | [] => [[]]
  | c :: cs =>
    match splitAt separator cs with
    | [] => [[c]]
    | piece :: pieces => if c = separator then [] :: piece :: pieces else (c :: piece) :: pieces

/-- The two sides of the first character that satisfies the test. -/
def cut? (test : Char → Bool) (cs : List Char) : Option (List Char × List Char) :=
  match cs.dropWhile fun c => !test c with
  | [] => none
  | _ :: after => some (cs.takeWhile fun c => !test c, after)

end JavaLint.Text
