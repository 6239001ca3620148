import Cellular.Grammar.Listing
import Cellular.Proofs.Grammar.Scanner
/-!
# Lines of a listing are told apart as they were put together

A reply of several lines has a line end between any two of them.  Cutting it at its line breaks
gives the lines, and an empty stretch for the gap inside each line end, which does not count as a
line.

A line that sets a name to a value is read as that, and no other line is (`namedValue_eq_some_iff`).

A line end is two octets, and each of them ends a stretch.  So the stretches of a reply are its
lines with an empty stretch between any two; that the empty ones are dropped is what makes the lines
come back (`lines_intercalate`), and why a line has to have something on it (`IsLine`).
-/

namespace Cellular.Scanner

open Bytes

/-! ## Lines

Stretches are taken off the front, and the lemmas are about the first one: it runs up to the first
line break, or to the end of the reply. -/

/-- A line with something on it. -/
structure IsLine (line : Bytes) : Prop where
  unbroken : ∀ b ∈ line, isLineBreak b = false
  shows : line.any (!isSpace ·) = true

variable {line rest : Bytes} {listing : List Bytes}

/-- Octets without a line break are one stretch. -/
theorem stretches_unbroken (h : ∀ b ∈ line, isLineBreak b = false) : stretches line = [line] := by
  induction line with
  | nil => rfl
  | cons b line ih =>
    obtain ⟨hb, hline⟩ := List.forall_mem_cons.mp h
    rw [stretches, if_neg (by rw [hb]; nofun), ih hline]

/-- A stretch ends at its line break, and the others follow. -/
theorem stretches_break {b : UInt8} (h : ∀ b ∈ line, isLineBreak b = false)
    (hb : isLineBreak b = true) :
    stretches (line ++ b :: rest) = line :: stretches rest := by
  induction line with
  | nil => exact if_pos hb
  | cons c line ih =>
    obtain ⟨hc, hline⟩ := List.forall_mem_cons.mp h
    rw [List.cons_append, stretches, if_neg (by rw [hc]; nofun), ih hline]

/-- The first line, and those behind its line end. -/
theorem lines_append (h : IsLine line) : lines (line ++ lineEnd ++ rest) = line :: lines rest := by
  have hgap : stretches (10 :: rest) = [] :: stretches rest := rfl
  have hcut : stretches (line ++ lineEnd ++ rest) = line :: [] :: stretches rest := by
    rw [List.append_assoc]
    exact (stretches_break h.unbroken rfl).trans (congrArg (line :: ·) hgap)
  rw [lines, hcut, List.filter_cons, if_pos h.shows]
  rfl

/-- The lines of a reply with line ends between them. -/
theorem lines_intercalate (h : ∀ line ∈ listing, IsLine line) :
    lines (lineEnd.intercalate listing) = listing := by
  induction listing with
  | nil => rfl
  | cons line listing ih =>
    obtain ⟨hline, hrest⟩ := List.forall_mem_cons.mp h
    cases listing with
    | nil =>
      rw [List.intercalate_singleton, lines, stretches_unbroken hline.unbroken, List.filter_cons,
        if_pos hline.shows]
      rfl
    | cons next listing => rw [List.intercalate_cons_cons, lines_append hline, ih hrest]

/-! ## Settings

A setting has a quoted name, a colon and a number, with spacing where a modem may put it.  What
follows the number is not looked at, so the form of a line that is read has an arbitrary rest. -/

/-- The line is `"name": n`, with spacing in front of the name and on either side of the colon, and
whatever follows. -/
inductive Sets (name : Bytes) (n : Nat) : Bytes → Prop
  | line {pads pads' value rest : Bytes} (hpads : Pads pads) (hname : quote ∉ name)
    (hpads' : Pads pads') (hvalue : LeadingNumber n value rest) :
      Sets name n (pads ++ (marked name ++ (pads' ++ 58 :: value)))

/-- A line is read as a setting just if it sets the name to a number that fits. -/
theorem namedValue_eq_some_iff {name : Bytes} {n : Nat} :
    item? namedValue line = some (name, n) ↔ n < Decimal.word32 ∧ Sets name n line := by
  constructor
  · -- the line is read as spacing, a name in marks, spacing, a colon and a number
    intro h
    obtain ⟨⟨_, rest⟩, hread, rfl⟩ := Option.map_eq_some_iff.mp h
    simp only [namedValue, Option.bind_eq_bind, Option.bind_eq_some_iff] at hread
    obtain ⟨⟨inner, behind⟩, hquoted, value, hcolon, ⟨m, more⟩, hnumber, hresult⟩ := hread
    obtain ⟨hitem, rfl⟩ := Prod.mk.inj (Option.some.inj hresult)
    obtain ⟨rfl, rfl⟩ := Prod.mk.inj hitem
    obtain ⟨hname, hline⟩ := quoted_eq_some_iff.mp hquoted
    obtain ⟨hfits, hvalue⟩ := number_eq_some_iff.mp hnumber
    obtain ⟨-, pads, hpads, rfl⟩ := skipPads_eq_iff.mp hline
    obtain ⟨-, pads', hpads', rfl⟩ := skipPads_eq_iff.mp (octet_eq_some hcolon)
    exact ⟨hfits, .line hpads hname hpads' hvalue⟩
  · rintro ⟨hfits, hsets⟩
    cases hsets with
    | @line pads pads' value rest hpads hname hpads' hvalue =>
      have hfront : skipPads (pads ++ (marked name ++ (pads' ++ 58 :: value))) =
          marked name ++ (pads' ++ 58 :: value) :=
        skipPads_eq_iff.mpr ⟨parts_cons rfl, pads, hpads, rfl⟩
      have hcolon : skipPads (pads' ++ 58 :: value) = 58 :: value :=
        skipPads_eq_iff.mpr ⟨parts_cons rfl, pads', hpads', rfl⟩
      have hread : namedValue (pads ++ (marked name ++ (pads' ++ 58 :: value))) =
          some ((name, n), rest) := by
        simp only [namedValue, hfront, quoted_marked hname, Option.bind_eq_bind, Option.bind_some,
          hcolon, octet_cons, number_eq_some_iff.mpr ⟨hfits, hvalue⟩]
        rfl
      rw [item?, hread]
      rfl

end Cellular.Scanner
