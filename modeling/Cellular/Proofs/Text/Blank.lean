import Cellular.Text.Blank
/-!
# Texts without blanks at their ends

Trimming takes nothing off a text when neither of its ends is blank (`trim_of_ends`).  A text off
which nothing is trimmed does not begin with a blank (`isBlank_of_trim`).

Both facts come from the same observation: trimming looks at one end at a time, and an end that is
not blank stops it at once (`trimLeft_of_head`).  The other end is the first one of the reversed
text.
-/

namespace Cellular.Text

variable {cs : List Char}

/-- A character in front of a text without blanks at its ends is no blank. -/
theorem isBlank_of_trim {c : Char} (h : trim (c :: cs) = c :: cs) : isBlank c = false := by
  rw [Bool.eq_false_iff]
  intro hblank
  have hfront : trimLeft (c :: cs) = trimLeft cs := List.dropWhile_cons_of_pos hblank
  have hshort : ∀ ds : List Char, (trimLeft ds).length ≤ ds.length :=
    fun ds => (List.dropWhile_sublist isBlank).length_le
  -- the blank is taken off, and trimming puts nothing back
  have hlength := congrArg List.length h
  rw [trim, hfront, List.length_reverse, List.length_cons] at hlength
  have hback := hshort (trimLeft cs).reverse
  have hcs := hshort cs
  rw [List.length_reverse] at hback
  omega

/-- Nothing is taken off the front of a text that does not begin with a blank. -/
theorem trimLeft_of_head (h : ∀ c, cs.head? = some c → isBlank c = false) : trimLeft cs = cs := by
  cases cs with
  | nil => rfl
  | cons c cs => exact List.dropWhile_cons_of_neg (by rw [h c rfl]; nofun)

/-- Nothing is trimmed off a text that begins and ends with no blank. -/
theorem trim_of_ends (hfront : ∀ c, cs.head? = some c → isBlank c = false)
    (hback : ∀ c, cs.getLast? = some c → isBlank c = false) : trim cs = cs := by
  have hreverse : trimLeft cs.reverse = cs.reverse :=
    trimLeft_of_head fun c hc => hback c (by rwa [List.head?_reverse] at hc)
  rw [trim, trimLeft_of_head hfront, hreverse, List.reverse_reverse]

end Cellular.Text
