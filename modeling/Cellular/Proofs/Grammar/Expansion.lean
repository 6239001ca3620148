import Cellular.Proofs.Grammar.RangeList
/-!
# Lists of ranges are expanded

An item of a list is a number or a range, with quotation marks around it or without, and with
spacing on either side (`Item`).  It is read as what it spells, whatever ends it
(`Item.range_text`).  So a list is expanded into the members of its items, one item after the other,
just if there is room for all of them (`items_expanded_if_room`).

Items are read before any of them is expanded.  So nothing hangs on how large they are, and one that
runs backwards is found behind however many others, by its place in the list alone
(`separated_leading`).

A list is expanded in two passes, and the proof follows them: first its items are read as pairs of a
start and an end (`ranges_written`), whatever the pairs are, and then the pairs are expanded if
there is room.  The refusal of an item that runs backwards belongs to the second pass, unless its
numbers do not even fit; `rangeList_backward` treats both cases at once, so that nothing needs to be
known of the items behind it.
-/

namespace Cellular.Scanner

open Bytes

/-! ## Items

An item carries the proof that its digits spell the pair of numbers that it stands for.  So leading
zeros, quotation marks and spacing are all ways to write the same item, and what is shown of it
holds for every one of them. -/

/-- A number or range as it may stand in a list. -/
structure Item where
  range : Nat × Nat
  /-- The numbers as they are written. -/
  digits : Bytes
  spelled : Spelled range digits
  /-- Whether there are quotation marks around them. -/
  quoted : Bool
  /-- Spacing in front. -/
  front : Bytes
  front_pads : Pads front
  /-- Spacing behind. -/
  back : Bytes
  back_pads : Pads back

variable {capacity : Nat} {bs rest : Bytes}

namespace Item

/-- The item without the spacing behind it. -/
def text (e : Item) : Bytes := e.front ++ if e.quoted then marked e.digits else e.digits

/-- The item as it is written. -/
def written (e : Item) : Bytes := e.text ++ e.back

/-- The numbers that the item stands for, in order. -/
def members (e : Item) : List Nat := rangeMembers e.range

variable (e : Item)

/-- Quotation marks tell which of the two readers an item is for. -/
theorem range_text_eq (rest : Bytes) : Scanner.range (e.text ++ rest) =
    if e.quoted then inQuotes bareRange (quote :: (e.digits ++ quote :: rest))
    else bareRange (e.digits ++ rest) := by
  rw [text, List.append_assoc]
  split
  · exact range_marked e.front_pads e.digits rest
  · exact range_bare e.front_pads e.spelled rest

/-- An item is read if its numbers fit, and nothing behind it could be part of it. -/
theorem range_text (hfits : e.range.1 < Decimal.word32 ∧ e.range.2 < Decimal.word32)
    (hdigits : Parts isDigit rest) (hdash : Parts (· == 45) rest) :
    Scanner.range (e.text ++ rest) = some (e.range, rest) := by
  rw [range_text_eq]
  split
  · exact inQuotes_of_item (bareRange_spelled e.spelled hfits (parts_cons rfl) (parts_cons rfl))
  · exact bareRange_spelled e.spelled hfits hdigits hdash

/-- An item that runs backwards is read, or its first number does not fit. -/
theorem range_backward (h : e.range.2 < e.range.1) (hdigits : Parts isDigit rest) :
    Scanner.range (e.text ++ rest) = if e.range.1 < Decimal.word32 then some (e.range, rest)
      else none := by
  rw [range_text_eq]
  split
  · have hread : bareRange (e.digits ++ quote :: rest) =
        if e.range.1 < Decimal.word32 then some (e.range, quote :: rest) else none :=
      bareRange_backward e.spelled h (parts_cons rfl)
    split
    · rename_i hfits
      exact inQuotes_of_item (hread.trans (if_pos hfits))
    · rename_i hfits
      exact inQuotes_eq_none (hread.trans (if_neg hfits))
  · exact bareRange_backward e.spelled h hdigits

/-! ## Lists of items

Items that can be expanded come first in the list; what follows them is either the end of the list
or an item that runs backwards. -/

/-- It is an item of a list that can be expanded: it does not run backwards, and its numbers fit. -/
def Orderly : Prop := e.range.1 ≤ e.range.2 ∧ e.range.2 < Decimal.word32

variable {e}

/-- Such an item is read, with its spacing, up to what ends it. -/
theorem Orderly.reads (h : e.Orderly) (hrest : Parts (!endsBare ·) rest) :
    Scanner.range (e.text ++ (e.back ++ rest)) = some (e.range, e.back ++ rest) :=
  e.range_text ⟨Nat.lt_of_le_of_lt h.1 h.2, h.2⟩
    (e.back_pads.parts (by decide) (parts_of_end hrest (by decide)))
    (e.back_pads.parts (by decide) (parts_of_end hrest (by decide)))

end Item

section

variable {items : List Item} (h : ∀ e ∈ items, e.Orderly)

include h in
/-- Their ranges are read, if there is room for as many. -/
theorem ranges_written (hne : items ≠ []) :
    ranges capacity ([44].intercalate (items.map Item.written)) =
    if (items.map Item.range).length ≤ capacity then
      some (items.map Item.range, (items.getLast hne).back) else none := by
  have hwritten : separated range capacity ([44].intercalate (items.map Item.written) ++ []) =
      if items.length ≤ capacity then some (items.map Item.range, (items.getLast hne).back ++ [])
      else none :=
    separated_written range_skipPads Item.back_pads (fun e he rest => (h e he).reads) hne parts_nil
  rw [List.append_nil, List.append_nil] at hwritten
  rw [ranges_eq, List.length_map, hwritten]

include h in
/-- A list is refused at an item that runs backwards. -/
theorem rangeList_backward {backward : Item} (hbackward : backward.range.2 < backward.range.1)
    (hrest : Parts isDigit rest) :
    rangeList capacity ([44].intercalate (items.map Item.written ++ [backward.text ++ rest])) =
      none := by
  have hline : [44].intercalate (items.map Item.written ++ [backward.text ++ rest]) =
      (items.flatMap fun e => e.text ++ (e.back ++ [44])) ++ (backward.text ++ rest) := by
    simp [intercalate_concat, List.flatMap_map, Item.written]
  rw [hline]
  cases hranges : ranges capacity
    ((items.flatMap fun e => e.text ++ (e.back ++ [44])) ++ (backward.text ++ rest)) with
  | none => exact rangeList_eq_none hranges
  | some read =>
    obtain ⟨found, behind⟩ := read
    -- the item is the first of those that are read behind the others
    have hleading := hranges
    rw [ranges_eq, separated_leading range_skipPads Item.back_pads fun e he rest => (h e he).reads]
      at hleading
    obtain ⟨⟨more, _⟩, hmore, hfound⟩ := Option.map_eq_some_iff.mp hleading
    obtain ⟨first, _, hfirst, hmem⟩ := separated_front hmore
    rw [backward.range_backward hbackward hrest] at hfirst
    split at hfirst
    · obtain ⟨rfl, -⟩ := Prod.mk.inj (Option.some.inj hfirst)
      obtain ⟨rfl, -⟩ := Prod.mk.inj hfound
      rw [rangeList_of_ranges hranges, if_neg fun hexpandable =>
        Nat.not_le.mpr hbackward (hexpandable.1 _ (List.mem_append_right _ hmem))]
    · cases hfirst

end

/-- **A list is expanded if there is room for all of its members.**  The items of a list may be
numbers and ranges of any size up to the largest number, each with quotation marks around it or
without, with any spacing around the commas.  The list is read as the members of its items, in
order, if there are no more of them than there is room for, and otherwise it is refused.  It is also
refused if the next item runs backwards, whatever follows that one. -/
theorem items_expanded_if_room (capacity : Nat) (items : List Item)
    (h : ∀ e ∈ items, e.range.1 ≤ e.range.2 ∧ e.range.2 < Decimal.word32) :
    (∀ hne : items ≠ [], rangeList capacity ([44].intercalate (items.map Item.written)) =
      if (items.flatMap Item.members).length ≤ capacity then
        some (items.flatMap Item.members, (items.getLast hne).back)
      else none) ∧
    ∀ (backward : Item) (rest : Bytes), backward.range.2 < backward.range.1 → Parts isDigit rest →
      rangeList capacity ([44].intercalate (items.map Item.written ++ [backward.text ++ rest])) =
        none := by
  refine ⟨fun hne => ?_, fun backward rest hbackward hrest => rangeList_backward h hbackward hrest⟩
  have hordered : ∀ r ∈ items.map Item.range, r.1 ≤ r.2 := by
    intro r hr
    obtain ⟨e, he, rfl⟩ := List.mem_map.mp hr
    exact (h e he).1
  have hmembers : (items.map Item.range).flatMap rangeMembers = items.flatMap Item.members :=
    List.flatMap_map ..
  rw [rangeList_of_room (ranges_written h hne)]
  simp only [expandable_iff hordered, hmembers]

/-- A number, and a range in quotation marks with spacing around them. -/
def numberAndRange : List Item :=
  [⟨(1, 1), span (1, 1), spelled_span (1, 1), false, [], pads_nil, [], pads_nil⟩,
    ⟨(4, 5), span (4, 5), spelled_span (4, 5), true, [32], pads_space, [32], pads_space⟩]

/-- They have three members, and a range that runs backwards may follow. -/
theorem items_expanded_if_room_three :
    (∀ e ∈ numberAndRange, e.range.1 ≤ e.range.2 ∧ e.range.2 < Decimal.word32) ∧
      rangeList 3 (ofString "1, \"4-5\" ") = some ([1, 4, 5], [32]) ∧
      rangeList 2 (ofString "1, \"4-5\" ") = none ∧
      rangeList 16 (ofString "1, \"4-5\" ,3-1,0") = none := by
  have horderly : ∀ e ∈ numberAndRange, e.range.1 ≤ e.range.2 ∧
      e.range.2 < Decimal.word32 := by decide
  have hwritten : [44].intercalate (numberAndRange.map Item.written) = ofString "1, \"4-5\" " := by
    decide +kernel
  have hbackward := (items_expanded_if_room 16 numberAndRange horderly).2
    ⟨(3, 1), span (3, 1), spelled_span (3, 1), false, [], pads_nil, [], pads_nil⟩ [44, 48]
      (by decide) (parts_cons rfl)
  refine ⟨horderly, ?_, ?_, hbackward⟩
  · rw [← hwritten, (items_expanded_if_room 3 numberAndRange horderly).1 (by decide)]
    rfl
  · rw [← hwritten, (items_expanded_if_room 2 numberAndRange horderly).1 (by decide)]
    rfl

end Cellular.Scanner
