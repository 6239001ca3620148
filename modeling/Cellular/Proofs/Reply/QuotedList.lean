import Cellular.Proofs.Reply.Support
/-!
# Quotation marks around a whole list

Quotation marks are taken off one item at a time, so there can be marks around the whole of a list
just if it has one item (`OneItem`).  Such a list is read as it is without them
(`rangeList_marked`), and any other is refused (`rangeList_marked_eq_none`).  The same goes for the
groups of a reply (`quoted_list_read_iff`).

The reason is in how marks are taken off: the reader of an item looks for one behind the item that
it has read, and finds the comma of the next item instead.  So with marks around a list, the reading
fails at its first item unless that is also its last one, and there is nothing that could be read
after that.
-/

namespace Cellular

open Bytes

/-! ## One item

Marks make no difference to an item that fills them, and nothing else is read between them. -/

namespace Scanner

/-- The octets are one number or range that fits, and nothing else. -/
def OneItem (bs : Bytes) : Prop := ∃ r, Spelled r bs ∧ r.1 < Decimal.word32 ∧ r.2 < Decimal.word32

variable {capacity : Nat} {bs : Bytes}

/-- One item is read alike with quotation marks around it. -/
theorem OneItem.range_marked (h : OneItem bs) : range (marked bs) = range bs := by
  obtain ⟨r, hspelled, hfits⟩ := h
  have hbare : range ([] ++ (bs ++ [])) = some (r, []) :=
    (range_bare pads_nil hspelled []).trans (bareRange_spelled hspelled hfits parts_nil parts_nil)
  have hmarked : range ([] ++ (marked bs ++ [])) = some (r, []) :=
    (Scanner.range_marked pads_nil bs []).trans
      (inQuotes_of_item (bareRange_spelled hspelled hfits (parts_cons rfl) (parts_cons rfl)))
  rw [List.nil_append, List.append_nil] at hbare hmarked
  rw [hmarked, hbare]

/-- Nothing else is read there. -/
theorem oneItem_of_range_marked {r : Nat × Nat} {rest : Bytes} (hbare : quote ∉ bs)
    (h : range (marked bs) = some (r, rest)) :
    OneItem bs := by
  have hmarked : range ([] ++ (marked bs ++ [])) = some (r, rest) := by
    rwa [List.nil_append, List.append_nil]
  rw [Scanner.range_marked pads_nil] at hmarked
  obtain ⟨inner, hinner, hread⟩ := inQuotes_eq_some hmarked
  obtain ⟨xs, hspelled, hstart, hend, rfl⟩ := spelled_of_bareRange hread
  have heq : marked bs = marked xs ++ rest := by simpa [marked] using hinner
  obtain ⟨rfl, -⟩ := marked_inj hbare (hspelled.not_mem (by decide) (by decide)) heq
  exact ⟨r, hspelled, hstart, hend⟩

/-- A list of one item is read alike with quotation marks around it. -/
theorem rangeList_marked (h : OneItem bs) :
    rangeList capacity (marked bs) = rangeList capacity bs :=
  rangeList_congr h.range_marked

/-- With marks around it, any other list is refused. -/
theorem rangeList_marked_eq_none (hbare : quote ∉ bs) (h : ¬ OneItem bs) :
    rangeList capacity (marked bs) = none := by
  have hrange : range (marked bs) = none :=
    Option.eq_none_iff_forall_not_mem.mpr fun (_, _) hread =>
      h (oneItem_of_range_marked hbare hread)
  exact rangeList_eq_none (ranges_eq capacity ▸ separated_eq_none hrange)

/-- So a list that is read is read alike just if it has one item. -/
theorem item?_rangeList_marked_iff (hbare : quote ∉ bs)
    (hread : (item? (rangeList capacity) bs).isSome) :
    item? (rangeList capacity) (marked bs) = item? (rangeList capacity) bs ↔ OneItem bs := by
  constructor
  · intro heq
    by_contra hmany
    rw [← heq, item?, rangeList_marked_eq_none hbare hmany] at hread
    cases hread
  · intro hone
    rw [item?, rangeList_marked hone, item?]

end Scanner

open Scanner

/-! ## Groups of replies

Both replies have their lists in groups.  Marks inside the parentheses of a group are marks around
its list, so the same equivalence holds for every group of a reply on its own, whatever the others
are. -/

/-- A reply to `+CFUN=?` with that as its first group, and anything behind it. -/
def levelsReply (group rest : Bytes) : Bytes := ofString "+CFUN: " ++ (enclosed group ++ rest)

variable {bs group : Bytes} {groups : List Bytes} {place : Nat}

/-- The levels are those of the first group. -/
theorem functionalityLevels?_levelsReply (h : 41 ∉ group) (rest : Bytes) :
    functionalityLevels? (levelsReply group rest) = supportList? group := by
  have hheader : ofString "+CFUN: " = ofString "+CFUN:" ++ [32] := by decide
  have hname : (ofString "+CFUN:").head?.all (!isPad ·) = true ∧ ofString "+CFUN:" ≠ [] := by decide
  have htag : tag (ofString "+CFUN:") (levelsReply group rest) = some (enclosed group ++ rest) := by
    rw [levelsReply, hheader, List.append_assoc]
    exact tag_space (parts_of_head hname.1) hname.2 (parts_cons rfl)
  rw [functionalityLevels?, htag, Option.bind_eq_bind, Option.bind_some, group_enclosed h]
  rfl

theorem close_not_mem_marked (h : 41 ∉ bs) : 41 ∉ marked bs := by simpa [marked, quote] using h

/-- With quotation marks around a group, the levels are read alike just if it has one item. -/
theorem functionalityLevels?_marked_iff (hbare : quote ∉ bs) (hclosed : 41 ∉ bs) (rest : Bytes)
    (hread : (functionalityLevels? (levelsReply bs rest)).isSome) :
    functionalityLevels? (levelsReply (marked bs) rest) =
      functionalityLevels? (levelsReply bs rest) ↔ OneItem bs := by
  rw [functionalityLevels?_levelsReply hclosed] at hread ⊢
  rw [functionalityLevels?_levelsReply (close_not_mem_marked hclosed)]
  exact item?_rangeList_marked_iff hbare hread

namespace MessageIndicationSupport

/-- So are the settings that a reply lists. -/
theorem read?_marked_iff (hbare : quote ∉ bs) (hclosed : ∀ group ∈ groups, 41 ∉ group)
    (hgroup : groups[place]? = some bs) (hread : (read? (settingsReply groups)).isSome) :
    read? (settingsReply (groups.set place (marked bs))) = read? (settingsReply groups) ↔
    OneItem bs := by
  have hmem : bs ∈ groups := List.mem_of_getElem? hgroup
  have hne : groups ≠ [] := List.ne_nil_of_mem hmem
  have hset : groups.set place (marked bs) ≠ [] := by simpa using hne
  have hclosed' : ∀ group ∈ groups.set place (marked bs), 41 ∉ group := fun group hgroup => by
    rcases List.mem_or_eq_of_mem_set hgroup with hold | rfl
    · exact hclosed group hold
    · exact close_not_mem_marked (hclosed bs hmem)
  obtain ⟨s, hs⟩ := Option.isSome_iff_exists.mp hread
  -- the reply is read, so there are not too many groups
  rw [hs, read?_eq, groupsOf?_settingsReply hset hclosed', List.length_set]
  rw [read?_eq, groupsOf?_settingsReply hne hclosed] at hs
  split at hs
  · rename_i hroom
    rw [Option.bind_some] at hs
    have hlisted : (supportList? bs).isSome :=
      (isSome_ofGroups?.mp (Option.isSome_of_eq_some hs)).2 bs hmem
    rw [if_pos hroom, Option.bind_some, ofGroups?_set hs hgroup]
    exact item?_rangeList_marked_iff hbare hlisted
  · cases hs

end MessageIndicationSupport

/-- **A list in quotation marks is read like the bare one just if it has one item.**  That goes for
the list itself, whatever room there is, for the levels of a reply to `+CFUN=?` and for each group
of a reply to `+CNMI=?`.  With marks around it, a list of any other form is refused. -/
theorem quoted_list_read_iff (bs : Bytes) (hbare : quote ∉ bs) :
    (∀ capacity, (item? (rangeList capacity) bs).isSome →
      (item? (rangeList capacity) (marked bs) = item? (rangeList capacity) bs ↔ OneItem bs)) ∧
    (41 ∉ bs → ∀ rest, (functionalityLevels? (levelsReply bs rest)).isSome →
      (functionalityLevels? (levelsReply (marked bs) rest) =
        functionalityLevels? (levelsReply bs rest) ↔ OneItem bs)) ∧
    (∀ (groups : List Bytes) (place : Nat), groups[place]? = some bs →
      (∀ group ∈ groups, 41 ∉ group) →
      (MessageIndicationSupport.read? (settingsReply groups)).isSome →
      (MessageIndicationSupport.read? (settingsReply (groups.set place (marked bs))) =
        MessageIndicationSupport.read? (settingsReply groups) ↔ OneItem bs)) ∧
    (¬ OneItem bs → ∀ capacity, rangeList capacity (marked bs) = none) :=
  ⟨fun _ hread => item?_rangeList_marked_iff hbare hread,
    fun hclosed rest hread => functionalityLevels?_marked_iff hbare hclosed rest hread,
    fun _ _ hgroup hclosed hread =>
      MessageIndicationSupport.read?_marked_iff hbare hclosed hgroup hread,
    fun hmany _ => rangeList_marked_eq_none hbare hmany⟩

/-- A range may have quotation marks around it. -/
theorem quoted_list_read_iff_range :
    quote ∉ ofString "2-4" ∧ item? (rangeList 16) (ofString "\"2-4\"") = some [2, 3, 4] := by
  have hone : OneItem (ofString "2-4") := ⟨(2, 4), spelled_span (2, 4), by decide, by decide⟩
  have hread : item? (rangeList 16) (ofString "2-4") = some [2, 3, 4] := by decide +kernel
  have hmarked :=
    ((quoted_list_read_iff (ofString "2-4") (by decide)).1 16 (Option.isSome_of_eq_some hread)).mpr
      hone
  exact ⟨by decide, hmarked.trans hread⟩

/-- A list of a number and a range is refused with quotation marks around it. -/
theorem quoted_list_refused :
    (item? (rangeList 16) (ofString "0,2-4") = some [0, 2, 3, 4] ∧
      item? (rangeList 16) (ofString "\"0,2-4\"") = none) ∧
    (functionalityLevels? (ofString "+CFUN: (0,2-4)") = some [0, 2, 3, 4] ∧
      functionalityLevels? (ofString "+CFUN: (\"0,2-4\")") = none) ∧
    (MessageIndicationSupport.read? (ofString "+CNMI: (0,1-2),(0),(0),(0)") =
        some { mode := [0, 1, 2], mt := [0], bm := [0], ds := [0] } ∧
      MessageIndicationSupport.read? (ofString "+CNMI: (\"0,1-2\"),(0),(0),(0)") = none) ∧
    ¬ ∀ (capacity : Nat) (bs : Bytes) (members : List Nat), quote ∉ bs →
    item? (rangeList capacity) bs = some members →
      item? (rangeList capacity) (marked bs) = some members := by
  refine ⟨by decide +kernel, by decide +kernel, by decide +kernel, fun hclaim => ?_⟩
  have hread := hclaim 16 (ofString "0,2-4") [0, 2, 3, 4] (by decide) (by decide +kernel)
  have hrefused : item? (rangeList 16) (marked (ofString "0,2-4")) = none := by decide +kernel
  rw [hrefused] at hread
  cases hread

end Cellular
