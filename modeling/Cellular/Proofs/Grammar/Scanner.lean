import Cellular.Proofs.Text.Decimal
import Cellular.Proofs.Text.Listed
import Cellular.Proofs.Text.Utf8
import Cellular.Grammar.Field
/-!
# What the scanners read off a line

There is one lemma for each scanner that is used on lines of fields.  A bare field and a number are
read as they were written, and spacing is skipped where there is any and nothing is lost where there
is none.  Lists of fields, of ranges and of groups are all read in the same way, item by item with a
comma behind all but the last (`separated`).

Lemmas come in two directions.  In the one, something is known of how the octets were written, and
the lemma says what is read; these have hypotheses about what follows, in the form that what follows
parts from a class of octets.  In the other, something was read, and the lemma says how the octets
must have been written; those end in `eq_some_iff`.

1. Spacing, single octets and tags.
2. Items with commas between them: the general list, for any reader of items.  Every list in the
   project is an instance (`eq_separated`), so its induction is done once, in `separated_leading`.
3. Fields, bare and quoted, as items of such a list.
4. Numbers, in quotation marks or without.
-/

namespace Cellular.Scanner

open Bytes

variable {header xs rest : Bytes} {n : Nat}

/-! ## Spacing and tags

Spacing is spaces and tabs, as many as there are.  It is a stretch, so what is said of stretches
holds of it; what is added here is that skipping twice is skipping once. -/

theorem skipPads_parts (h : Parts isPad rest) : skipPads rest = rest := dropWhile_parts h

/-- Spaces and tabs alone. -/
def Pads (pads : Bytes) : Prop := ∀ b ∈ pads, isPad b = true

theorem pads_nil : Pads [] := nofun

theorem pads_space : Pads [32] := List.forall_mem_singleton.mpr rfl

/-- All spacing is skipped, and nothing else. -/
theorem skipPads_eq_iff {bs : Bytes} :
    skipPads bs = rest ↔ Parts isPad rest ∧ ∃ pads, Pads pads ∧ bs = pads ++ rest := by
  constructor
  · rintro rfl
    refine ⟨fun b hb => ?_, bs.takeWhile isPad, List.all_eq_true.mp List.all_takeWhile,
      List.takeWhile_append_dropWhile.symm⟩
    have hnot := List.head?_dropWhile_not isPad bs
    rw [show (bs.dropWhile isPad).head? = some b from hb] at hnot
    exact hnot
  · rintro ⟨hrest, pads, hpads, rfl⟩
    exact dropWhile_stretch hpads hrest

theorem skipPads_skipPads (bs : Bytes) : skipPads (skipPads bs) = skipPads bs :=
  skipPads_parts (skipPads_eq_iff.mp rfl).1

theorem skipPads_append {pads : Bytes} (hpads : Pads pads) (rest : Bytes) :
    skipPads (pads ++ rest) = skipPads rest :=
  List.dropWhile_append_of_pos hpads

/-- Spacing is in no class without a space and a tab. -/
theorem Pads.parts {p : UInt8 → Bool} {pads : Bytes} (hpads : Pads pads)
    (hp : p 32 = false ∧ p 9 = false) (h : Parts p rest) :
    Parts p (pads ++ rest) := by
  cases pads with
  | nil => exact h
  | cons b pads =>
    have hpad : b = 32 ∨ b = 9 := by simpa [isPad] using hpads b List.mem_cons_self
    rcases hpad with rfl | rfl
    · exact parts_cons hp.1
    · exact parts_cons hp.2

theorem octet_cons (b : UInt8) (rest : Bytes) : octet b (b :: rest) = some rest := if_pos rfl

/-- An octet that is not there is not taken off. -/
theorem octet_of_parts {b : UInt8} (h : Parts (· == b) rest) : octet b rest = none := by
  cases rest with
  | nil => rfl
  | cons c rest => exact if_neg (by simpa using h c rfl)

/-- An octet that is taken off was in front. -/
theorem octet_eq_some {b : UInt8} {bs : Bytes} (h : octet b bs = some rest) : bs = b :: rest := by
  cases bs with
  | nil => cases h
  | cons c bs =>
    rw [octet] at h
    split at h
    · rename_i hc
      rw [hc, Option.some.inj h]
    · cases h

/-- A tag with its spacing is taken off, and nothing else. -/
theorem tag_eq_some_iff {bs : Bytes} (hheader : Parts isPad header) (hne : header ≠ []) :
    tag header bs = some rest ↔ Parts isPad rest ∧ ∃ pads pads', Pads pads ∧ Pads pads' ∧
      bs = pads ++ (header ++ (pads' ++ rest)) := by
  rw [tag, Option.map_eq_some_iff]
  constructor
  · rintro ⟨behind, hdrop, hskip⟩
    obtain ⟨hrest, pads', hpads', rfl⟩ := skipPads_eq_iff.mp hskip
    obtain ⟨-, pads, hpads, rfl⟩ := skipPads_eq_iff.mp (dropTag?_eq_some_iff.mp hdrop)
    exact ⟨hrest, pads, pads', hpads, hpads', rfl⟩
  · rintro ⟨hrest, pads, pads', hpads, hpads', rfl⟩
    have hskip : skipPads (pads ++ (header ++ (pads' ++ rest))) = header ++ (pads' ++ rest) :=
      skipPads_eq_iff.mpr ⟨hheader.append hne, pads, hpads, rfl⟩
    exact ⟨pads' ++ rest, dropTag?_eq_some_iff.mpr hskip,
      skipPads_eq_iff.mpr ⟨hrest, pads', hpads', rfl⟩⟩

/-- A tag with a space behind it. -/
theorem tag_space (hheader : Parts isPad header) (hne : header ≠ []) (h : Parts isPad rest) :
    tag header (header ++ 32 :: rest) = some rest :=
  (tag_eq_some_iff hheader hne).mpr ⟨h, [], [32], pads_nil, pads_space, rfl⟩

/-- A tag that is not there. -/
theorem tag_eq_none (hpads : Parts isPad rest) (h : dropTag? header rest = none) :
    tag header rest = none := by
  rw [tag, skipPads_parts hpads, h]
  rfl

section

variable {α : Type} {item : Scanner α} {a : α} {bs : Bytes}

/-- An item that ends at a quotation mark is read between marks. -/
theorem inQuotes_of_item (h : item bs = some (a, quote :: rest)) :
    inQuotes item (quote :: bs) = some (a, rest) := by
  simp only [inQuotes, octet_cons, h, Option.bind_eq_bind, Option.bind_some]
  rfl

theorem inQuotes_eq_none (h : item bs = none) : inQuotes item (quote :: bs) = none := by
  simp only [inQuotes, octet_cons, h, Option.bind_eq_bind, Option.bind_some, Option.bind_none]

/-- What is read in quotation marks stands between them. -/
theorem inQuotes_eq_some {bs : Bytes} (h : inQuotes item bs = some (a, rest)) :
    ∃ inner, bs = quote :: inner ∧ item inner = some (a, quote :: rest) := by
  simp only [inQuotes, Option.bind_eq_bind, Option.bind_eq_some_iff] at h
  obtain ⟨inner, hopened, ⟨a', closed⟩, hread, last, hlast, hresult⟩ := h
  obtain ⟨rfl, rfl⟩ := Prod.mk.inj (Option.some.inj hresult)
  have hclosed : closed = quote :: last := octet_eq_some hlast
  exact ⟨inner, octet_eq_some hopened, hclosed ▸ hread⟩

end

/-! ## Items with commas between them

The general list is given by a reader of items and a capacity.  It stops at the first item that has
no comma behind it, and it is refused when an item is, also one behind the capacity.  The reader is
only asked for two things: that it skips spacing in front of an item, and that it reads each item as
written, up to what ends it. -/

/-- A comma is taken off with the spacing behind it. -/
theorem comma_cons (rest : Bytes) : comma (44 :: rest) = some (skipPads rest) := by
  show (octet 44 (44 :: rest)).map skipPads = some (skipPads rest)
  rw [octet, if_pos rfl, Option.map_some]

/-- A comma with its spacing is taken off, and nothing else. -/
theorem comma_eq_some_iff {bs : Bytes} :
    comma bs = some rest ↔ Parts isPad rest ∧ ∃ pads pads', Pads pads ∧ Pads pads' ∧
    bs = pads ++ 44 :: (pads' ++ rest) := by
  rw [comma, Option.map_eq_some_iff]
  constructor
  · rintro ⟨behind, hoctet, hskip⟩
    obtain ⟨hrest, pads', hpads', rfl⟩ := skipPads_eq_iff.mp hskip
    obtain ⟨-, pads, hpads, rfl⟩ := skipPads_eq_iff.mp (octet_eq_some hoctet)
    exact ⟨hrest, pads, pads', hpads, hpads', rfl⟩
  · rintro ⟨hrest, pads, pads', hpads, hpads', rfl⟩
    have hskip : skipPads (pads ++ 44 :: (pads' ++ rest)) = 44 :: (pads' ++ rest) :=
      skipPads_eq_iff.mpr ⟨parts_cons rfl, pads, hpads, rfl⟩
    exact ⟨pads' ++ rest, by rw [hskip, octet_cons],
      skipPads_eq_iff.mpr ⟨hrest, pads', hpads', rfl⟩⟩

/-- Spacing in front of a comma makes no difference. -/
theorem comma_append {pads : Bytes} (hpads : Pads pads) (rest : Bytes) :
    comma (pads ++ rest) = comma rest := by
  rw [comma, skipPads_append hpads, comma]

/-- An item of a list ends at a comma, at a line break, or with the input. -/
theorem parts_of_end {p : UInt8 → Bool} (h : Parts (!endsBare ·) rest)
    (hp : p 44 = false ∧ p 13 = false ∧ p 10 = false) :
    Parts p rest := by
  refine h.imp fun b hb => ?_
  have hends : endsBare b = true := by simpa using hb
  have hend : b = 44 ∨ b = 13 ∨ b = 10 := by simpa [endsBare, isLineBreak] using hends
  rcases hend with rfl | rfl | rfl
  · exact hp.1
  · exact hp.2.1
  · exact hp.2.2

/-- What goes on with a line break goes on with nothing of an item. -/
theorem parts_of_line_end (h : Parts (!isLineBreak ·) rest) : Parts (!endsBare ·) rest :=
  h.imp fun b hb => by simp_all [endsBare]

/-- There is no comma at the end of a line. -/
theorem comma_of_line_end (h : Parts (!isLineBreak ·) rest) : comma rest = none := by
  have hpads : Parts isPad rest := parts_of_end (parts_of_line_end h) (by decide)
  have hcomma : Parts (· == 44) rest := h.imp fun b hb => by
    have hbreak : isLineBreak b = true := by simpa using hb
    have hline : b = 13 ∨ b = 10 := by simpa [isLineBreak] using hbreak
    rcases hline with rfl | rfl <;> rfl
  rw [comma, skipPads_parts hpads, octet_of_parts hcomma]
  rfl

/-- Where there is no comma at all, none is taken off. -/
theorem comma_eq_none (h : 44 ∉ rest) : comma rest = none := by
  refine Option.eq_none_iff_forall_not_mem.mpr fun behind hcomma => ?_
  obtain ⟨-, pads, pads', -, -, rfl⟩ := comma_eq_some_iff.mp hcomma
  exact h (List.mem_append_right _ List.mem_cons_self)

section

variable {α β : Type} {item : Scanner α} {capacity : Nat}

/-- An item, and what there is behind a comma that follows it. -/
def itemThen (item : Scanner α) (more : Scanner (List α)) : Scanner (List α) := fun bs => do
  let (first, rest) ← item bs
  match comma rest with
  | none => some ([first], rest)
  | some rest => (more rest).map fun (more, rest) => (first :: more, rest)

/-- The items up to the first that has no comma behind it, at most `capacity` of them. -/
def separated (item : Scanner α) : (capacity : Nat) → Scanner (List α)
  | 0 => fun _ => none
  | capacity + 1 => itemThen item (separated item capacity)

/-- Whatever is read item by item is read so. -/
theorem eq_separated {scan : Nat → Scanner (List α)} (hnone : scan 0 = fun _ => none)
    (hmore : ∀ capacity, scan (capacity + 1) = itemThen item (scan capacity)) (capacity : Nat) :
    scan capacity = separated item capacity := by
  induction capacity with
  | zero => exact hnone
  | succ capacity ih => rw [hmore, ih, separated]

/-- An item without a comma behind it is the last one. -/
theorem separated_last {bs : Bytes} {first : α} (h : item bs = some (first, rest))
    (hcomma : comma rest = none) :
    separated item (capacity + 1) bs = some ([first], rest) := by
  rw [separated, itemThen, h, Option.bind_eq_bind, Option.bind_some]
  simp only [hcomma]

/-- The items behind the first one are read from what it leaves. -/
theorem separated_congr {bs bs' : Bytes} (h : item bs = item bs') :
    separated item capacity bs = separated item capacity bs' := by
  cases capacity with
  | zero => rfl
  | succ capacity => rw [separated, itemThen, itemThen, h]

/-- There are no items where there is no first one. -/
theorem separated_eq_none {bs : Bytes} (h : item bs = none) :
    separated item capacity bs = none := by
  cases capacity with
  | zero => rfl
  | succ capacity =>
    rw [separated, itemThen, h]
    rfl

/-- What is read begins with the item that is read first. -/
theorem separated_front {bs : Bytes} {found : List α}
    (h : separated item capacity bs = some (found, rest)) :
    ∃ first behind, item bs = some (first, behind) ∧ first ∈ found := by
  cases capacity with
  | zero => cases h
  | succ capacity =>
    rw [separated, itemThen, Option.bind_eq_bind, Option.bind_eq_some_iff] at h
    obtain ⟨⟨first, behind⟩, hfirst, hmore⟩ := h
    refine ⟨first, behind, hfirst, ?_⟩
    dsimp only at hmore
    split at hmore
    · obtain ⟨rfl, -⟩ := Prod.mk.inj (Option.some.inj hmore)
      exact List.mem_cons_self
    · obtain ⟨more, -, hfound⟩ := Option.map_eq_some_iff.mp hmore
      obtain ⟨rfl, -⟩ := Prod.mk.inj hfound
      exact List.mem_cons_self

/-- A comma with spacing in front of it, and the items behind it. -/
theorem separated_cons {bs pads : Bytes} {first : α} (hpads : Pads pads)
    (h : item bs = some (first, pads ++ 44 :: rest)) :
    separated item (capacity + 1) bs =
      (separated item capacity (skipPads rest)).map fun (more, rest) => (first :: more, rest) := by
  have hcomma : comma (pads ++ 44 :: rest) = some (skipPads rest) :=
    (comma_append hpads _).trans (comma_cons rest)
  rw [separated, itemThen, h, Option.bind_eq_bind, Option.bind_some]
  simp only [hcomma]

/-- What is written with commas between it begins with its first item. -/
theorem parts_intercalate {p : UInt8 → Bool} {xs : Bytes} (h : Parts p xs) (hne : xs ≠ [])
    (more : List Bytes) :
    Parts p ([44].intercalate (xs :: more)) := by
  cases more with
  | nil => rwa [List.intercalate_singleton]
  | cons next more =>
    rw [List.intercalate_cons_cons, List.append_assoc]
    exact h.append hne

/-! ## Written lists

The parts of a written list have spacing of their own behind them, given by `back`.  What is read is
the values of the parts, and the spacing behind the last one is left over. -/

section

variable {write back : β → Bytes} {value : β → α} {parts : List β}
  (hskips : ∀ bs, item (skipPads bs) = item bs)
  (hback : ∀ part, Pads (back part))
  (hread : ∀ part ∈ parts, ∀ rest, Parts (!endsBare ·) rest →
    item (write part ++ (back part ++ rest)) = some (value part, back part ++ rest))

include hskips in
theorem separated_skipPads (bs : Bytes) :
    separated item capacity (skipPads bs) = separated item capacity bs :=
  separated_congr (hskips bs)

include hskips hback hread in
/-- Items with spacing and a comma behind each are read one by one, and then what there is behind
the last comma. -/
theorem separated_leading (bs : Bytes) :
    separated item capacity ((parts.flatMap fun part => write part ++ (back part ++ [44])) ++ bs) =
      (separated item (capacity - parts.length) bs).map fun (more, rest) =>
        (parts.map value ++ more, rest) := by
  induction parts generalizing capacity with
  | nil => simp
  | cons part parts ih =>
    obtain ⟨hpart, hparts⟩ := List.forall_mem_cons.mp hread
    -- without room neither side has a result
    cases capacity with
    | zero => rw [Nat.zero_sub]; rfl
    | succ capacity =>
      have hfirst :=
        hpart (44 :: ((parts.flatMap fun part => write part ++ (back part ++ [44])) ++ bs))
          (parts_cons rfl)
      rw [List.flatMap_cons, List.append_assoc, List.append_assoc, List.append_assoc,
        List.singleton_append, separated_cons (hback part) hfirst, separated_skipPads hskips,
        ih hparts, Option.map_map, List.length_cons, Nat.add_sub_add_right]
      rfl

include hskips hback hread in
/-- Items that are written with commas between them, and spacing around them, are read if there is
room for all of them.  The spacing behind the last one is left, in front of what ends the line. -/
theorem separated_written {follow : Bytes} (hne : parts ≠ [])
    (hfollow : Parts (!isLineBreak ·) follow) :
    separated item capacity
      ([44].intercalate (parts.map fun part => write part ++ back part) ++ follow) =
      if parts.length ≤ capacity then some (parts.map value, back (parts.getLast hne) ++ follow)
      else none := by
  -- no comma stands behind the last item, so it is read apart from the others
  obtain ⟨init, last, rfl⟩ : ∃ init last, parts = init ++ [last] :=
    ⟨_, _, (List.dropLast_concat_getLast hne).symm⟩
  obtain ⟨hinit, hlast⟩ := List.forall_mem_append.mp hread
  have hread := List.forall_mem_singleton.mp hlast follow (parts_of_line_end hfollow)
  have hcomma : comma (back last ++ follow) = none :=
    (comma_append (hback last) _).trans (comma_of_line_end hfollow)
  have hline : [44].intercalate ((init ++ [last]).map fun part =>
    write part ++ back part) ++ follow =
      (init.flatMap fun part => write part ++ (back part ++ [44])) ++
        (write last ++ (back last ++ follow)) := by
    simp [intercalate_concat, List.flatMap_map]
  rw [hline, separated_leading hskips hback hinit, List.length_append, List.length_singleton,
    List.getLast_concat, List.map_append, List.map_singleton]
  rcases hroom : capacity - init.length with _ | room
  · rw [if_neg (by omega)]
    rfl
  · rw [if_pos (by omega), separated_last hread hcomma]
    rfl

end

/-- Without spacing nothing is left. -/
theorem separated_intercalate {write : β → Bytes} {value : β → α} {parts : List β}
    (hne : parts ≠ []) (hskips : ∀ bs, item (skipPads bs) = item bs)
    (hread : ∀ part ∈ parts, ∀ rest, Parts (!endsBare ·) rest →
      item (write part ++ rest) = some (value part, rest)) :
    separated item capacity ([44].intercalate (parts.map write)) =
      if parts.length ≤ capacity then some (parts.map value, []) else none := by
  have hwritten : separated item capacity
    ([44].intercalate (parts.map fun part => write part ++ []) ++ []) =
      if parts.length ≤ capacity then some (parts.map value, [] ++ []) else none :=
    separated_written hskips (fun _ => pads_nil) hread hne parts_nil
  simpa using hwritten

end

/-! ## Fields

A field that begins with a quotation mark is quoted if there is a second mark, and bare otherwise.
So a bare field has to begin with another octet to be read as one, and a quoted field may hold
anything but the mark. -/

/-- Nothing is quoted that does not begin with a quotation mark. -/
theorem quoted_of_parts (h : Parts (· == quote) rest) : quoted rest = none := by
  rw [quoted, octet_of_parts h]
  rfl

/-- A bare field is read up to what ends it. -/
theorem field_bare (hpads : Parts isPad (xs ++ rest)) (hquote : Parts (· == quote) (xs ++ rest))
    (hxs : ∀ b ∈ xs, endsBare b = false) (hrest : Parts (!endsBare ·) rest) :
    field (xs ++ rest) = some (xs, rest) := by
  have hclass : ∀ b ∈ xs, (!endsBare b) = true := fun b hb => by rw [hxs b hb]; rfl
  rw [field, skipPads_parts hpads, quoted_of_parts hquote, takeWhile_stretch hclass hrest,
    dropWhile_stretch hclass hrest]
  rfl

/-- What stands between quotation marks. -/
def marked (xs : Bytes) : Bytes := quote :: (xs ++ [quote])

/-- What stands between quotation marks is read, up to the second one. -/
theorem quoted_marked (h : quote ∉ xs) (rest : Bytes) :
    quoted (marked xs ++ rest) = some (xs, rest) := by
  have hclass : ∀ b ∈ xs, (b != quote) = true := fun b hb => bne_iff_ne.mpr fun heq => h (heq ▸ hb)
  have hend : Parts (· != quote) (quote :: rest) := parts_cons rfl
  have hmarked : marked xs ++ rest = quote :: (xs ++ quote :: rest) := by simp [marked]
  simp only [hmarked, quoted, octet, if_true, Option.bind_eq_bind, Option.bind_some,
    takeWhile_stretch hclass hend, dropWhile_stretch hclass hend]
  rfl

/-- What is read in quotation marks stands between the first and the next one. -/
theorem quoted_eq_some_iff {bs inner : Bytes} :
    quoted bs = some (inner, rest) ↔ quote ∉ inner ∧ bs = marked inner ++ rest := by
  constructor
  · intro h
    simp only [quoted, Option.bind_eq_bind, Option.bind_eq_some_iff] at h
    obtain ⟨opened, hopened, closed, hclosed, hrest⟩ := h
    obtain ⟨rfl, rfl⟩ := Prod.mk.inj (Option.some.inj hrest)
    have hsplit : opened = opened.takeWhile (· != quote) ++ opened.dropWhile (· != quote) :=
      List.takeWhile_append_dropWhile.symm
    rw [octet_eq_some hclosed] at hsplit
    refine ⟨fun hmem => ?_, ?_⟩
    · have hother := List.all_eq_true.mp List.all_takeWhile _ hmem
      simp at hother
    · rw [octet_eq_some hopened, marked, List.cons_append, List.append_assoc]
      exact congrArg (quote :: ·) hsplit
  · rintro ⟨hinner, rfl⟩
    exact quoted_marked hinner rest

/-- What stands between quotation marks cannot be read in another way. -/
theorem marked_inj {inner : Bytes} (h : quote ∉ xs) (hinner : quote ∉ inner)
    (heq : marked xs = marked inner ++ rest) :
    inner = xs ∧ rest = [] := by
  have hread : quoted (marked xs ++ []) = some (xs, []) := quoted_marked h []
  rw [List.append_nil, heq, quoted_marked hinner rest] at hread
  exact Prod.mk.inj (Option.some.inj hread)

/-- What is left behind a quoted field was there before. -/
theorem quoted_rest {bs inner : Bytes} (h : quoted bs = some (inner, rest)) :
    ∀ b ∈ rest, b ∈ bs := by
  obtain ⟨-, rfl⟩ := quoted_eq_some_iff.mp h
  exact fun b hb => List.mem_append_right _ hb

/-- Whatever there is has a first field, and what is left was there before. -/
theorem exists_field (bs : Bytes) : ∃ f rest, field bs = some (f, rest) ∧ ∀ b ∈ rest, b ∈ bs := by
  have hpads : ∀ b ∈ skipPads bs, b ∈ bs := fun b hb => (List.dropWhile_sublist _).mem hb
  rw [field]
  cases hquoted : quoted (skipPads bs) with
  | none => exact ⟨_, _, rfl, fun b hb => hpads b ((List.dropWhile_sublist _).mem hb)⟩
  | some r => exact ⟨r.1, r.2, rfl, fun b hb => hpads b (quoted_rest hquoted b hb)⟩

theorem field_skipPads (bs : Bytes) : field (skipPads bs) = field bs := by
  rw [field, field, skipPads_skipPads]

theorem field_append {pads : Bytes} (hpads : Pads pads) (rest : Bytes) :
    field (pads ++ rest) = field rest := by
  rw [← field_skipPads, skipPads_append hpads, field_skipPads]

theorem fields_eq (capacity : Nat) : fields capacity = separated field capacity :=
  eq_separated (funext fun _ => rfl) (fun _ => funext fun _ => rfl) capacity

/-- A field with a comma behind it, and the fields behind that. -/
theorem fields_of_comma {capacity : Nat} {bs : Bytes} (h : field bs = some (xs, 44 :: rest)) :
    item? (fields (capacity + 1)) bs = (item? (fields capacity) (skipPads rest)).map (xs :: ·) := by
  rw [item?, item?, fields_eq, fields_eq, separated_cons pads_nil h, Option.map_map, Option.map_map]
  rfl

/-- A field with no comma behind it. -/
theorem fields_of_end {capacity : Nat} {bs : Bytes} (h : field bs = some (xs, rest))
    (hcomma : comma rest = none) :
    item? (fields (capacity + 1)) bs = some [xs] := by
  rw [item?, fields_eq, separated_last h hcomma]
  rfl

/-- The last field of a line. -/
theorem fields_last {capacity : Nat} {bs : Bytes} (h : 44 ∉ bs) :
    ∃ f, item? (fields (capacity + 1)) bs = some [f] := by
  obtain ⟨f, rest, hf, hrest⟩ := exists_field bs
  exact ⟨f, fields_of_end hf (comma_eq_none fun hmem => h (hrest _ hmem))⟩

/-- A bare field and the fields behind it. -/
theorem fields_cons {capacity : Nat} (hpads : Parts isPad xs) (hne : xs ≠ [])
    (hquote : Parts (· == quote) xs) (hxs : ∀ b ∈ xs, endsBare b = false) (rest : Bytes) :
    item? (fields (capacity + 1)) (xs ++ 44 :: rest) =
      (item? (fields capacity) (skipPads rest)).map (xs :: ·) :=
  fields_of_comma (field_bare (hpads.append hne) (hquote.append hne) hxs (parts_cons rfl))

/-- A bare field up to the end of the line. -/
theorem fields_bare {capacity : Nat} (hpads : Parts isPad xs) (hquote : Parts (· == quote) xs)
    (hxs : ∀ b ∈ xs, endsBare b = false) : item? (fields (capacity + 1)) xs = some [xs] := by
  have hfield : field (xs ++ []) = some (xs, []) :=
    field_bare (by rwa [List.append_nil]) (by rwa [List.append_nil]) hxs parts_nil
  rw [List.append_nil] at hfield
  exact fields_of_end hfield rfl

/-- A quoted field is read, whatever there is in it. -/
theorem field_marked (h : quote ∉ xs) (rest : Bytes) :
    field (marked xs ++ rest) = some (xs, rest) := by
  have hpads : Parts isPad (marked xs ++ rest) := parts_cons rfl
  rw [field, skipPads_parts hpads, quoted_marked h rest]
  rfl

/-- As many quoted fields as there are. -/
theorem fields_intercalate {capacity : Nat} {texts : List Bytes} (hne : texts ≠ [])
    (hcapacity : texts.length ≤ capacity) (h : ∀ text ∈ texts, quote ∉ text) :
    item? (fields capacity) ([44].intercalate (texts.map marked)) = some texts := by
  have hread : separated field capacity ([44].intercalate (texts.map marked)) =
      if texts.length ≤ capacity then some (texts.map id, []) else none :=
    separated_intercalate hne field_skipPads fun text htext rest _ =>
      field_marked (h text htext) rest
  rw [item?, fields_eq, hread, if_pos hcapacity, List.map_id]
  rfl

/-- The fields behind a tag that ends with a colon, and a space. -/
theorem taggedFields?_header {capacity : Nat} (hheader : Parts isPad header) (hne : header ≠ [])
    (h : Parts isPad rest) :
    taggedFields? (header ++ [58]) capacity (header ++ 58 :: 32 :: rest) =
      item? (fields capacity) rest := by
  have htag : tag (header ++ [58]) (header ++ [58] ++ 32 :: rest) = some rest :=
    tag_space (hheader.append hne) (List.append_ne_nil_of_left_ne_nil hne _) h
  rw [taggedFields?, List.append_cons header 58 (32 :: rest), htag, Option.bind_some]

/-! ## Numbers

A number is a field of digits, with quotation marks around it or without.  It is read up to the
first octet that is no digit, whatever that is, and refused if it does not fit in 32 bits. -/

theorem parts_pad_digits (n : Nat) : Parts isPad (Decimal.digits n) :=
  Decimal.parts_digits (by decide) n

theorem parts_quote_digits (n : Nat) : Parts (· == quote) (Decimal.digits n) :=
  Decimal.parts_digits (by decide) n

theorem endsBare_of_mem_digits {b : UInt8} (h : b ∈ Decimal.digits n) : endsBare b = false :=
  Decimal.forall_digit (P := fun b => endsBare b = false) (by decide)
    (Decimal.isDigit_of_mem_digits h)

/-- The octets begin with the number, in digits with or without quotation marks around them, and
spacing in front. -/
inductive LeadingNumber (n : Nat) : (bs rest : Bytes) → Prop
  | bare {pads ds rest : Bytes} (hpads : Pads pads) (hds : Decimal.Denotes ds n)
    (hrest : Parts isDigit rest) :
    LeadingNumber n (pads ++ (ds ++ rest)) rest
  | quoted {pads ds rest : Bytes} (hpads : Pads pads) (hds : Decimal.Denotes ds n) :
    LeadingNumber n (pads ++ (marked ds ++ rest)) rest

/-- Digits are no octets of a class without digits. -/
theorem parts_of_denotes {p : UInt8 → Bool} {ds : Bytes} (h : Decimal.Denotes ds n)
    (hp : ∀ n, n < 10 → p (UInt8.ofNat (48 + n)) = false) : Parts p (ds ++ rest) := by
  refine Parts.append (parts_of_forall fun b hb => ?_) h.shown
  exact Decimal.forall_digit (P := fun b => p b = false) hp (h.digits b hb)

/-- A number is looked for in quotation marks first, and then without. -/
theorem number_eq (bs : Bytes) : number bs =
    (inQuotes (Decimal.scan Decimal.word32) (skipPads bs) <|>
      Decimal.scan Decimal.word32 (skipPads bs)) := rfl

/-- What is read as a number is one that fits. -/
theorem number_eq_some_iff {bs : Bytes} :
    number bs = some (n, rest) ↔ n < Decimal.word32 ∧ LeadingNumber n bs rest := by
  have hscan : ∀ {xs rest : Bytes}, Decimal.scan Decimal.word32 xs = some (n, rest) ↔
      n < Decimal.word32 ∧ ∃ ds, Decimal.Denotes ds n ∧ Parts isDigit rest ∧ xs = ds ++ rest :=
    Decimal.scan_eq_some_iff (by decide)
  constructor
  · intro h
    obtain ⟨-, pads, hpads, hbs⟩ := skipPads_eq_iff.mp (rfl : skipPads bs = _)
    rw [number_eq, Option.orElse_eq_orElse, Option.orElse_eq_or, Option.or_eq_some_iff] at h
    rw [hbs]
    rcases h with hquoted | ⟨-, hbare⟩
    · obtain ⟨inner, hopened, hread⟩ := inQuotes_eq_some hquoted
      obtain ⟨hfits, ds, hds, -, rfl⟩ := hscan.mp hread
      have hmarked : skipPads bs = marked ds ++ rest := by
        rw [hopened]
        simp [marked]
      rw [hmarked]
      exact ⟨hfits, .quoted hpads hds⟩
    · obtain ⟨hfits, ds, hds, hrest, hskipped⟩ := hscan.mp hbare
      rw [hskipped]
      exact ⟨hfits, .bare hpads hds hrest⟩
  · rintro ⟨hfits, hleading⟩
    cases hleading with
    | @bare pads ds _ hpads hds hrest =>
      -- there are no quotation marks, so the bare alternative is taken
      have hquoted : inQuotes (Decimal.scan Decimal.word32) (ds ++ rest) = none := by
        rw [inQuotes, octet_of_parts (parts_of_denotes hds (by decide))]
        rfl
      have hskipped : skipPads (pads ++ (ds ++ rest)) = ds ++ rest :=
        skipPads_eq_iff.mpr ⟨parts_of_denotes hds (by decide), pads, hpads, rfl⟩
      rw [number_eq, hskipped, hquoted, hscan.mpr ⟨hfits, ds, hds, hrest, rfl⟩]
      rfl
    | @quoted pads ds _ hpads hds =>
      have hskipped : skipPads (pads ++ (marked ds ++ rest)) = quote :: (ds ++ quote :: rest) :=
        skipPads_eq_iff.mpr ⟨parts_cons rfl, pads, hpads, by simp [marked]⟩
      have hread : Decimal.scan Decimal.word32 (ds ++ quote :: rest) = some (n, quote :: rest) :=
        hscan.mpr ⟨hfits, ds, hds, parts_cons rfl, rfl⟩
      rw [number_eq, hskipped, inQuotes_of_item hread]
      rfl

/-- A number is read. -/
theorem number_digits (h : n < Decimal.word32) : item? number (Decimal.digits n) = some n := by
  have hleading : LeadingNumber n ([] ++ (Decimal.digits n ++ [])) [] :=
    .bare pads_nil (Decimal.denotes_digits n) parts_nil
  rw [List.nil_append, List.append_nil] at hleading
  rw [item?, number_eq_some_iff.mpr ⟨h, hleading⟩]
  rfl

/-- A number up to the end of the line. -/
theorem fields_number {capacity : Nat} (n : Nat) :
    item? (fields (capacity + 1)) (Decimal.digits n) = some [Decimal.digits n] :=
  fields_bare (parts_pad_digits n) (parts_quote_digits n) fun _ => endsBare_of_mem_digits

/-- A field that is a number, and the fields behind it. -/
theorem fields_digits {capacity : Nat} (n : Nat) (rest : Bytes) :
    item? (fields (capacity + 1)) (Decimal.digits n ++ 44 :: rest) =
      (item? (fields capacity) (skipPads rest)).map (Decimal.digits n :: ·) :=
  fields_cons (parts_pad_digits n) (Decimal.digits_ne_nil n) (parts_quote_digits n)
    (fun _ => endsBare_of_mem_digits) rest

end Cellular.Scanner
