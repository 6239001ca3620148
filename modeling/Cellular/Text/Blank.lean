import Cellular.Text.Bytes
/-!
# Blank characters

Fields of a reply are texts, and the spacing around a text may be any of the characters that Unicode
gives the property White_Space: 25 of them, in ten runs.  `blankRuns` is that table, `isBlank` asks
it, `trim` takes blanks off both ends and `words` cuts a text at them.
-/

namespace Cellular.Text

/-- The runs of code points with the property White_Space, ends included, in order. -/
def blankRuns : List (Nat × Nat) :=
  [(0x09, 0x0D), (0x20, 0x20), (0x85, 0x85), (0xA0, 0xA0), (0x1680, 0x1680), (0x2000, 0x200A),
    (0x2028, 0x2029), (0x202F, 0x202F), (0x205F, 0x205F), (0x3000, 0x3000)]

/-- Whether a character has the property White_Space. -/
def isBlank (c : Char) : Bool :=
  blankRuns.any fun run => run.1 ≤ c.toNat && c.toNat ≤ run.2

example : (blankRuns.map fun run => run.2 + 1 - run.1).sum = 25 := by decide

/-- Without the blanks in front. -/
def trimLeft (cs : List Char) : List Char := cs.dropWhile isBlank

/-- Without the blanks at either end. -/
def trim (cs : List Char) : List Char := (trimLeft (trimLeft cs).reverse).reverse

/-- The runs of characters between blanks, none of them empty. -/
def words : List Char → List (List Char)
  | [] => []
  | c :: cs =>
    if isBlank c then words cs
    else match cs with
      | [] => [[c]]
      | d :: ds =>
        if isBlank d then [c] :: words ds
        else match words (d :: ds) with
          | [] => [[c]]
          | w :: ws => (c :: w) :: ws

example : words " 0776  1\t- ".toList = ["0776".toList, "1".toList, "-".toList] := by decide +kernel

end Cellular.Text
