import Cellular.Proofs.Grammar.Scanner
/-!
# Fields come apart as they were joined

A field of a line has quotation marks around it or is bare, and there may be spacing around it
(`Entry`).  It is read as what it holds, whatever ends it (`Entry.field_text`): a comma between
quotation marks ends no field, and a field may hold nothing.  So a line is taken apart into what its
fields hold, each in its place (`joined_fields_come_apart`).

The two forms differ in where their spacing goes.  Behind a closing mark it belongs to no field, and
is skipped with the comma.  A bare field runs on to the comma, so spacing behind it is part of what
it holds.  `Entry.back` is the spacing that is left over, which is never any behind a bare field;
with it the two forms are treated alike from `field_text` on.
-/

namespace Cellular.Scanner

open Bytes

/-- A field as it may stand in a line.  Spacing behind a bare field is part of what the field
holds. -/
inductive Entry where
  | quoted (front content back : Bytes) (front_pads : Pads front) (no_quote : quote ∉ content)
      (back_pads : Pads back)
  | bare (front content : Bytes) (front_pads : Pads front) (no_pad : Parts isPad content)
    (no_quote : Parts (· == quote) content) (no_end : ∀ b ∈ content, endsBare b = false)

namespace Entry

/-- What the field holds. -/
def content : Entry → Bytes
  | quoted _ content .. => content
  | bare _ content .. => content

/-- The field without the spacing behind it. -/
def text : Entry → Bytes
  | quoted front content .. => front ++ marked content
  | bare front content .. => front ++ content

/-- The spacing behind the field. -/
def back : Entry → Bytes
  | quoted _ _ back .. => back
  | bare .. => []

/-- The field as it is written. -/
def written (e : Entry) : Bytes := e.text ++ e.back

/-- What stands behind a field is spacing. -/
theorem back_is_pads : ∀ e : Entry, Pads e.back
  | quoted _ _ _ _ _ back_pads => back_pads
  | bare .. => pads_nil

/-- A field is read as what it holds, up to what ends it. -/
theorem field_text (e : Entry) {rest : Bytes} (hrest : Parts (!endsBare ·) rest) :
    field (e.text ++ (e.back ++ rest)) = some (e.content, e.back ++ rest) := by
  cases e with
  | quoted front content back front_pads no_quote back_pads =>
    rw [text, List.append_assoc, field_append front_pads]
    exact field_marked no_quote (back ++ rest)
  | bare front content front_pads no_pad no_quote no_end =>
    -- where the field holds nothing, what ends it is no spacing and no quotation mark either
    have hpads : Parts isPad (content ++ rest) :=
      no_pad.append_parts (parts_of_end hrest (by decide))
    have hquote : Parts (· == quote) (content ++ rest) :=
      no_quote.append_parts (parts_of_end hrest (by decide))
    rw [text, List.append_assoc, field_append front_pads]
    exact field_bare hpads hquote no_end hrest

end Entry

/-! ## Lines

A line is an instance of a list of items with commas between them.  The spacing behind its last
field is all that is left in front of the line end. -/

/-- **Fields come apart as they were joined.**  Fields that are written with commas between them, up
to the end of the line, are read as what they hold, in order, if there is room for as many, and
otherwise the line is refused.  What there is behind the last field is left. -/
theorem joined_fields_come_apart (capacity : Nat) (line : List Entry) (hne : line ≠ [])
    (follow : Bytes) (hfollow : Parts (!isLineBreak ·) follow) :
    fields capacity ([44].intercalate (line.map Entry.written) ++ follow) =
      if line.length ≤ capacity then
        some (line.map Entry.content, (line.getLast hne).back ++ follow) else none := by
  rw [fields_eq]
  exact separated_written field_skipPads Entry.back_is_pads
    (fun e _ _ hrest => e.field_text hrest) hne hfollow

/-- A field with a comma in it, one that holds nothing, and one that ends with a space. -/
def threeFields : List Entry :=
  [.quoted [] (ofString "a,b") [32] pads_nil (by decide) pads_space,
    .bare [] [] pads_nil parts_nil parts_nil nofun, .bare [32] [99, 32] pads_space (parts_cons rfl)
      (parts_cons rfl) (by simp [endsBare, isLineBreak])]

/-- They are read up to the end of their line, and there has to be room for all three. -/
theorem joined_fields_come_apart_three :
    fields 3 (ofString "\"a,b\" ,, c \r\n") = some (["a,b", "", "c "].map ofString, [13, 10]) ∧
      fields 2 (ofString "\"a,b\" ,, c \r\n") = none := by
  have hline : ofString "\"a,b\" ,, c \r\n" =
      [44].intercalate (threeFields.map Entry.written) ++ [13, 10] := by decide +kernel
  have hread (capacity : Nat) :=
    joined_fields_come_apart capacity threeFields (by decide) [13, 10] (parts_cons rfl)
  exact ⟨by rw [hline, hread]; rfl, by rw [hline, hread]; rfl⟩

end Cellular.Scanner
