import Cellular.Grammar.RangeList
import Cellular.Proofs.Grammar.Scanner
import Cellular.Proofs.Text.Listed
/-!
# Lists of ranges, and groups of them

A list of ranges is expanded into what lies within one of them (`mem_rangeMembers`), if there is
room for all of that and no range runs backwards (`Expandable`).

What is read as a number or range is spelled as one (`Spelled`): it is read where it stands
(`bareRange_spelled`), and nothing else is (`spelled_of_bareRange`).  `span` is a range as a modem
writes it and `spans` a group of such ranges; a group is read as what stands between its parentheses
(`group_enclosed`).

There are two sources of refusal, and the lemmas keep them apart.  A list may not be read at all, or
there may be no room for its items (`ranges`); and a list that is read may not be expandable.  The
latter can be decided from the items, so it is enough to say of a written list which items it has
(`rangeList_of_ranges`).
-/

namespace Cellular.Scanner

open Bytes

variable {capacity n : Nat} {bs rest : Bytes} {listed : List Nat}

/-- The ranges of a list are read like any items with commas between them. -/
theorem ranges_eq (capacity : Nat) : ranges capacity = separated range capacity :=
  eq_separated (funext fun _ => rfl) (fun _ => funext fun _ => rfl) capacity

theorem groups_eq (capacity : Nat) : groups capacity = separated group capacity :=
  eq_separated (funext fun _ => rfl) (fun _ => funext fun _ => rfl) capacity

/-! ## Expanded lists

The members of a range are counted before they are listed.  Where no range runs backwards, the count
is the length of the list of all members, so the room that is asked for is that which is needed. -/

/-- A number is a member of a range if it lies within its ends. -/
theorem mem_rangeMembers {r : Nat × Nat} : n ∈ rangeMembers r ↔ r.1 ≤ n ∧ n ≤ r.2 := by
  rw [rangeMembers, rangeSize, List.mem_range'_1]
  omega

/-- There is room for what lies within the ranges, and none of them runs backwards. -/
def Expandable (capacity : Nat) (items : List (Nat × Nat)) : Prop :=
  (∀ r ∈ items, r.1 ≤ r.2) ∧ (items.map rangeSize).foldl (· + ·) 0 ≤ capacity

instance (capacity : Nat) (items : List (Nat × Nat)) : Decidable (Expandable capacity items) :=
  inferInstanceAs (Decidable (_ ∧ _))

/-- Where no range runs backwards, there has to be room for the members. -/
theorem expandable_iff {items : List (Nat × Nat)} (h : ∀ r ∈ items, r.1 ≤ r.2) :
    Expandable capacity items ↔ (items.flatMap rangeMembers).length ≤ capacity := by
  have hlength : (items.flatMap rangeMembers).length = (items.map rangeSize).foldl (· + ·) 0 := by
    simp only [List.length_flatMap, rangeMembers, List.length_range', List.sum_eq_foldl]
  rw [hlength]
  exact and_iff_right h

/-- Ranges that can be expanded are few. -/
theorem Expandable.length_le {items : List (Nat × Nat)} (h : Expandable capacity items) :
    items.length ≤ capacity := by
  obtain ⟨hordered, hfits⟩ := h
  rw [← List.sum_eq_foldl] at hfits
  suffices hmany : items.length ≤ (items.map rangeSize).sum from Nat.le_trans hmany hfits
  clear hfits
  induction items with
  | nil => exact Nat.le_refl 0
  | cons r items ih =>
    obtain ⟨hr, hrest⟩ := List.forall_mem_cons.mp hordered
    have hmany := ih hrest
    rw [List.length_cons, List.map_cons, List.sum_cons, rangeSize]
    omega

/-- A list is expanded if it can be. -/
theorem rangeList_of_ranges {items : List (Nat × Nat)}
    (h : ranges capacity bs = some (items, rest)) :
    rangeList capacity bs =
      if Expandable capacity items then some (items.flatMap rangeMembers, rest) else none := by
  have hiff : (items.all (fun r => r.1 ≤ r.2) && (items.map rangeSize).foldl (· + ·) 0 ≤ capacity) =
    true ↔
      Expandable capacity items := by
    simp [Expandable]
  rw [rangeList, h, Option.bind_eq_bind, Option.bind_some]
  simp only [hiff]
  rfl

theorem rangeList_eq_none (h : ranges capacity bs = none) : rangeList capacity bs = none := by
  rw [rangeList, h]
  rfl

/-- Lists are the same if their first items are, and what there is behind them. -/
theorem rangeList_congr {bs' : Bytes} (h : range bs = range bs') :
    rangeList capacity bs = rangeList capacity bs' := by
  rw [rangeList, rangeList, ranges_eq, separated_congr h]

/-- Where there is no room for the items there is none for their members. -/
theorem rangeList_of_room {items : List (Nat × Nat)}
    (h : ranges capacity bs = if items.length ≤ capacity then some (items, rest) else none) :
    rangeList capacity bs =
      if Expandable capacity items then some (items.flatMap rangeMembers, rest) else none := by
  split at h
  · exact rangeList_of_ranges h
  · rename_i hmany
    rw [rangeList_eq_none h, if_neg fun hexpandable => hmany hexpandable.length_le]

/-! ## As they may be written

A modem may write zeros in front of a number and quotation marks around a range.  `Spelled` has all
ways without the marks; it says nothing of the bound that numbers have to stay below, so that
spellings of numbers that do not fit can be spoken of too. -/

/-- The octets are a number or a range, and nothing else.  There may be zeros in front of a
number. -/
inductive Spelled : Nat × Nat → Bytes → Prop where
  | number {ds : Bytes} {a : Nat} (h : Decimal.Denotes ds a) : Spelled (a, a) ds
  | ends {ds es : Bytes} {a b : Nat} (hstart : Decimal.Denotes ds a) (hend : Decimal.Denotes es b) :
    Spelled (a, b) (ds ++ 45 :: es)

variable {r : Nat × Nat} {xs front : Bytes}

/-- It begins with a digit. -/
theorem Spelled.parts {p : UInt8 → Bool} (h : Spelled r xs)
    (hp : ∀ n, n < 10 → p (UInt8.ofNat (48 + n)) = false) :
    Parts p (xs ++ rest) := by
  cases h with
  | number h => exact parts_of_denotes h hp
  | ends hstart hend =>
    rw [List.append_assoc]
    exact parts_of_denotes hstart hp

/-- There are digits in it, and a dash at most. -/
theorem Spelled.mem {b : UInt8} (h : Spelled r xs) (hb : b ∈ xs) : isDigit b = true ∨ b = 45 := by
  cases h with
  | number h => exact .inl (h.digits b hb)
  | ends hstart hend =>
    rcases List.mem_append.mp hb with hb | hb
    · exact .inl (hstart.digits b hb)
    · exact (List.mem_cons.mp hb).symm.imp_left (hend.digits b)

/-- Other octets than digits and a dash are not in it. -/
theorem Spelled.not_mem {b : UInt8} (h : Spelled r xs) (hdigit : isDigit b = false)
    (hdash : b ≠ 45) : b ∉ xs := by
  intro hb
  rcases h.mem hb with hb | hb
  · rw [hdigit] at hb
    cases hb
  · exact hdash hb

theorem word32_pos : 0 < Decimal.word32 := by decide

/-- A range is read if its numbers fit. -/
theorem bareRange_ends {ds es : Bytes} {a b : Nat} (hstart : Decimal.Denotes ds a)
    (hend : Decimal.Denotes es b) (ha : a < Decimal.word32) (hb : b < Decimal.word32)
    (hdigits : Parts isDigit rest) :
    bareRange (ds ++ 45 :: es ++ rest) = some ((a, b), rest) := by
  have hfront : Decimal.scan Decimal.word32 (ds ++ 45 :: es ++ rest) =
      some (a, 45 :: (es ++ rest)) := by
    rw [List.append_assoc, List.cons_append,
      Decimal.scan_denotes word32_pos hstart (parts_cons rfl), if_pos ha]
  have hback : Decimal.scan Decimal.word32 (es ++ rest) = some (b, rest) := by
    rw [Decimal.scan_denotes word32_pos hend hdigits, if_pos hb]
  rw [bareRange, hfront, Option.bind_eq_bind, Option.bind_some]
  simp only [octet_cons, Option.bind_some, hback]
  rfl

/-- What is spelled is read, if the numbers fit and nothing behind it could be part of it. -/
theorem bareRange_spelled (h : Spelled r xs) (hfits : r.1 < Decimal.word32 ∧ r.2 < Decimal.word32)
    (hdigits : Parts isDigit rest) (hdash : Parts (· == 45) rest) :
    bareRange (xs ++ rest) = some (r, rest) := by
  cases h with
  | number h =>
    rw [bareRange, Decimal.scan_denotes word32_pos h hdigits, if_pos hfits.1, Option.bind_eq_bind,
      Option.bind_some]
    simp only [octet_of_parts hdash, Option.bind_none]
    rfl
  | ends hstart hend => exact bareRange_ends hstart hend hfits.1 hfits.2 hdigits

/-- So is what runs backwards, if only its first number fits, and no digit is behind it. -/
theorem bareRange_backward (h : Spelled r xs) (hbackward : r.2 < r.1)
    (hdigits : Parts isDigit rest) :
    bareRange (xs ++ rest) = if r.1 < Decimal.word32 then some (r, rest) else none := by
  cases h with
  | number => exact absurd hbackward (Nat.lt_irrefl _)
  | ends hstart hend =>
    split
    · rename_i hfits
      exact bareRange_ends hstart hend hfits (Nat.lt_trans hbackward hfits) hdigits
    · rename_i hlarge
      rw [bareRange, List.append_assoc, List.cons_append,
        Decimal.scan_denotes word32_pos hstart (parts_cons rfl), if_neg hlarge]
      rfl

/-- What is read was spelled. -/
theorem spelled_of_bareRange (h : bareRange bs = some (r, rest)) :
    ∃ xs, Spelled r xs ∧ r.1 < Decimal.word32 ∧ r.2 < Decimal.word32 ∧ bs = xs ++ rest := by
  simp only [bareRange, Option.bind_eq_bind, Option.bind_eq_some_iff] at h
  obtain ⟨⟨a, behind⟩, hstart, h⟩ := h
  obtain ⟨ha, ds, hds, -, rfl⟩ := (Decimal.scan_eq_some_iff word32_pos).mp hstart
  -- a range, or a number as the range from itself to itself
  split at h
  · rename_i b rest' hdash
    obtain ⟨rfl, rfl⟩ := Prod.mk.inj (Option.some.inj h)
    obtain ⟨es', hes', hend⟩ := Option.bind_eq_some_iff.mp hdash
    obtain ⟨hb, es, hes, -, rfl⟩ := (Decimal.scan_eq_some_iff word32_pos).mp hend
    have hbehind : behind = 45 :: (es ++ rest') := octet_eq_some hes'
    exact ⟨_, .ends hds hes, ha, hb, by rw [hbehind, List.append_assoc, List.cons_append]⟩
  · obtain ⟨rfl, rfl⟩ := Prod.mk.inj (Option.some.inj h)
    exact ⟨ds, .number hds, ha, ha, rfl⟩

theorem range_eq (bs : Bytes) :
    range bs = (inQuotes bareRange (skipPads bs) <|> bareRange (skipPads bs)) := rfl

theorem range_skipPads (bs : Bytes) : range (skipPads bs) = range bs := by
  rw [range_eq, range_eq, skipPads_skipPads]

/-- Without quotation marks, with spacing in front. -/
theorem range_bare (hpads : Pads front) (h : Spelled r xs) (rest : Bytes) :
    range (front ++ (xs ++ rest)) = bareRange (xs ++ rest) := by
  have hskip : skipPads (front ++ (xs ++ rest)) = xs ++ rest :=
    skipPads_eq_iff.mpr ⟨h.parts (by decide), front, hpads, rfl⟩
  have hquoted : inQuotes bareRange (xs ++ rest) = none := by
    rw [inQuotes, octet_of_parts (h.parts (by decide))]
    rfl
  rw [range_eq, hskip, hquoted]
  rfl

/-- Nothing else begins with a quotation mark. -/
theorem bareRange_quote (rest : Bytes) : bareRange (quote :: rest) = none := rfl

/-- Between quotation marks, with spacing in front of them. -/
theorem range_marked (hpads : Pads front) (xs rest : Bytes) :
    range (front ++ (marked xs ++ rest)) = inQuotes bareRange (quote :: (xs ++ quote :: rest)) := by
  have hmarked : marked xs ++ rest = quote :: (xs ++ quote :: rest) := by simp [marked]
  have hskip : skipPads (front ++ (marked xs ++ rest)) = quote :: (xs ++ quote :: rest) :=
    hmarked ▸ skipPads_eq_iff.mpr ⟨hmarked ▸ parts_cons rfl, front, hpads, rfl⟩
  rw [range_eq, hskip, bareRange_quote, Option.orElse_eq_orElse, Option.orElse_eq_or,
    Option.or_none]

/-! ## As they are written

Lists that are sent back to a modem, and those of the examples, are written in one way: without
zeros, marks and spacing. -/

/-- A range as it is written: one of one number is that number. -/
def span (r : Nat × Nat) : Bytes :=
  if r.1 = r.2 then Decimal.digits r.1 else Decimal.digits r.1 ++ 45 :: Decimal.digits r.2

/-- A group of ranges as it is written. -/
def spans (items : List (Nat × Nat)) : Bytes := 40 :: ([44].intercalate (items.map span) ++ [41])

/-- A range as it is written spells the range. -/
theorem spelled_span (r : Nat × Nat) : Spelled r (span r) := by
  obtain ⟨a, b⟩ := r
  by_cases heq : a = b
  · subst heq
    have hspan : span (a, a) = Decimal.digits a := if_pos rfl
    rw [hspan]
    exact .number (Decimal.denotes_digits a)
  · have hspan : span (a, b) = Decimal.digits a ++ 45 :: Decimal.digits b := if_neg heq
    rw [hspan]
    exact .ends (Decimal.denotes_digits a) (Decimal.denotes_digits b)

/-- A range is read as it is written. -/
theorem range_span (hfits : r.1 < Decimal.word32 ∧ r.2 < Decimal.word32)
    (hrest : Parts (!endsBare ·) rest) :
    range (span r ++ rest) = some (r, rest) := by
  have hbare : range ([] ++ (span r ++ rest)) = bareRange (span r ++ rest) :=
    range_bare pads_nil (spelled_span r) rest
  rw [List.nil_append] at hbare
  rw [hbare, bareRange_spelled (spelled_span r) hfits (parts_of_end hrest (by decide))
    (parts_of_end hrest (by decide))]

/-- The ranges of a group are read, if there is room for all of them. -/
theorem ranges_intercalate {items : List (Nat × Nat)} (hne : items ≠ [])
    (h : ∀ r ∈ items, r.1 < Decimal.word32 ∧ r.2 < Decimal.word32) :
    ranges capacity ([44].intercalate (items.map span)) = if items.length ≤ capacity then
      some (items, []) else none := by
  have hread : separated range capacity ([44].intercalate (items.map span)) =
      if items.length ≤ capacity then some (items.map id, []) else none :=
    separated_intercalate hne range_skipPads fun r hr rest => range_span (h r hr)
  rw [ranges_eq, hread, List.map_id]

/-- They are expanded just if they can be. -/
theorem rangeList_intercalate {items : List (Nat × Nat)} (hne : items ≠ [])
    (h : ∀ r ∈ items, r.1 < Decimal.word32 ∧ r.2 < Decimal.word32) :
    item? (rangeList capacity) ([44].intercalate (items.map span)) =
      if Expandable capacity items then some (items.flatMap rangeMembers) else none := by
  rw [item?, rangeList_of_room (ranges_intercalate hne h)]
  split <;> rfl

/-! ## Groups

A group is whatever stands between parentheses, and is not looked into when it is read.  Its lists
have no closing parenthesis in them, so groups of lists come apart at the right places. -/

/-- What stands between parentheses. -/
def enclosed (inner : Bytes) : Bytes := 40 :: (inner ++ [41])

theorem group_skipPads (bs : Bytes) : group (skipPads bs) = group bs := by
  rw [group, group, skipPads_skipPads]

/-- A group ends with the first closing parenthesis. -/
theorem group_enclosed {inner : Bytes} (h : 41 ∉ inner) (rest : Bytes) :
    group (enclosed inner ++ rest) = some (inner, rest) := by
  have hclass : ∀ b ∈ inner, (b != 41) = true := fun b hb => bne_iff_ne.mpr fun heq => h (heq ▸ hb)
  have hend : Parts (· != 41) (41 :: rest) := parts_cons rfl
  have henclosed : enclosed inner ++ rest = 40 :: (inner ++ 41 :: rest) := by simp [enclosed]
  have hpads : Parts isPad (40 :: (inner ++ 41 :: rest)) := parts_cons rfl
  simp only [henclosed, group, skipPads_parts hpads, octet_cons, Option.bind_eq_bind,
    Option.bind_some, takeWhile_stretch hclass hend, dropWhile_stretch hclass hend]
  rfl

/-- Groups are read, if there is room for all of them. -/
theorem groups_enclosed {inners : List Bytes} (hne : inners ≠ [])
    (h : ∀ inner ∈ inners, 41 ∉ inner) :
    groups capacity ([44].intercalate (inners.map enclosed)) =
      if inners.length ≤ capacity then some (inners, []) else none := by
  have hread : separated group capacity ([44].intercalate (inners.map enclosed)) =
      if inners.length ≤ capacity then some (inners.map id, []) else none :=
    separated_intercalate hne group_skipPads fun inner hinner rest _ =>
      group_enclosed (h inner hinner) rest
  rw [groups_eq, hread, List.map_id]

/-- There is no closing parenthesis in a list. -/
theorem close_not_mem_spans (items : List (Nat × Nat)) :
    41 ∉ [44].intercalate (items.map span) := by
  intro hclose
  rcases mem_intercalate hclose with hcomma | ⟨part, hpart, hmem⟩
  · cases hcomma
  · obtain ⟨r, -, rfl⟩ := List.mem_map.mp hpart
    exact (spelled_span r).not_mem (by decide) (by decide) hmem

end Cellular.Scanner
