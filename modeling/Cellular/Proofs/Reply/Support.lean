import Cellular.Proofs.Grammar.RangeList
import Cellular.Reply.Support
/-!
# What a modem lists

The reply to `+CNMI=?` has a group for each field, with the numbers and ranges of numbers that the
field may be (`Offers`).  What is read are the members of them all
(`MessageIndicationSupport.mem_lists_iff`), so a reply that is read offers a number just if it is
within one of the ranges of its group.

A reply that was written as such (`written`) offers what it was written with (`offers_written`), and
it is read if it has the right number of groups, and none of them is too long
(`isSome_read?_written`).

What a reply offers is said in terms of its octets, so that it can be compared with what is read:
the group at a place, and in it the items, each a number or a range.  Reading is done in three
steps, and there is a lemma for each: groups come apart (`groupsOf?_settingsReply`), there are four
or five of them (`isSome_ofGroups?`), and the list of each is expanded (`mem_supportList?`).  A
reply with four groups leaves the fifth list empty, as if its group were there and had nothing in
it.
-/

namespace Cellular

open Bytes

/-! ## One list -/

variable {group reply : Bytes} {listed : List Nat} {n : Nat}

/-- The number is one of a group, or lies within one of its ranges. -/
def Lists (group : Bytes) (n : Nat) : Prop :=
  ∃ items rest, Scanner.ranges supportCapacity group = some (items, rest) ∧
    ∃ r ∈ items, r.1 ≤ n ∧ n ≤ r.2

/-- A list has the members of its items. -/
theorem mem_supportList? (h : supportList? group = some listed) : n ∈ listed ↔ Lists group n := by
  rw [supportList?, Scanner.item?] at h
  cases hitems : Scanner.ranges supportCapacity group with
  | none =>
    rw [Scanner.rangeList_eq_none hitems] at h
    cases h
  | some r =>
    obtain ⟨items, rest⟩ := r
    rw [Scanner.rangeList_of_ranges hitems] at h
    split at h
    · obtain rfl := Option.some.inj h
      simp [Lists, hitems, Scanner.mem_rangeMembers]
    · cases h

/-! ## The reply about new messages

The five lists are spoken of by their places, so that what is said of the group at a place is said
once and not field by field. -/

/-- The groups of a reply. -/
def groupsOf? (reply : Bytes) : Option (List Bytes) :=
  (Scanner.tag (ofString "+CNMI:") reply).bind (Scanner.item? (Scanner.groups 5))

/-- A reply with those groups. -/
def settingsReply (groups : List Bytes) : Bytes :=
  ofString "+CNMI: " ++ [44].intercalate (groups.map Scanner.enclosed)

/-- Groups are read as they are written, if there is room for all of them. -/
theorem groupsOf?_settingsReply {groups : List Bytes} (hne : groups ≠ [])
    (h : ∀ group ∈ groups, 41 ∉ group) :
    groupsOf? (settingsReply groups) = if groups.length ≤ 5 then some groups else none := by
  have hheader : ofString "+CNMI: " = ofString "+CNMI:" ++ [32] := by decide
  have hname : (ofString "+CNMI:").head?.all (!isPad ·) = true ∧ ofString "+CNMI:" ≠ [] := by decide
  have hpads : Parts isPad ([44].intercalate (groups.map Scanner.enclosed)) := by
    obtain ⟨group, more, rfl⟩ := List.exists_cons_of_ne_nil hne
    exact Scanner.parts_intercalate (parts_cons rfl) (List.cons_ne_nil _ _) _
  have htag : Scanner.tag (ofString "+CNMI:") (settingsReply groups) =
      some ([44].intercalate (groups.map Scanner.enclosed)) := by
    rw [settingsReply, hheader, List.append_assoc]
    exact Scanner.tag_space (parts_of_head hname.1) hname.2 hpads
  rw [groupsOf?, htag, Option.bind_some, Scanner.item?, Scanner.groups_enclosed hne h]
  split <;> rfl

/-- The reply has the number in the group at that place. -/
def Offers (reply : Bytes) (place n : Nat) : Prop :=
  ∃ groups group, groupsOf? reply = some groups ∧ groups[place]? = some group ∧ Lists group n

namespace MessageIndicationSupport

variable {s : MessageIndicationSupport}

/-- The lists, in the order of the fields. -/
def lists (s : MessageIndicationSupport) : List (List Nat) := [s.mode, s.mt, s.bm, s.ds, s.bfr]

/-- Where nothing was read there are no numbers. -/
theorem lists_empty (place : Nat) : ({} : MessageIndicationSupport).lists[place]?.getD [] = [] := by
  show ([[], [], [], [], []] : List (List Nat))[place]?.getD [] = []
  match place with
  | 0 | 1 | 2 | 3 | 4 => rfl
  | _ + 5 => rfl

/-- The settings of so many groups. -/
def ofGroups? : List Bytes → Option MessageIndicationSupport
  | [mode, mt, bm, ds] =>
    return { mode := ← supportList? mode, mt := ← supportList? mt, bm := ← supportList? bm,
             ds := ← supportList? ds }
  | [mode, mt, bm, ds, bfr] =>
    return { mode := ← supportList? mode, mt := ← supportList? mt, bm := ← supportList? bm,
             ds := ← supportList? ds, bfr := ← supportList? bfr }
  | _ => none

/-- A reply is read by its groups. -/
theorem read?_eq (reply : Bytes) : read? reply = (groupsOf? reply).bind ofGroups? := by
  rw [groupsOf?, Option.bind_assoc]
  refine bind_congr fun rest => ?_
  rw [Scanner.item?]
  cases Scanner.groups 5 rest <;> rfl

/-- The list of a group, which is empty where there is no such group. -/
def listOf? (group : Option Bytes) : Option (List Nat) := group.elim (some []) supportList?

/-- There are four groups or five, and each is read as the list of its field. -/
theorem ofGroups?_eq_some_iff {groups : List Bytes} : ofGroups? groups = some s ↔
    (groups.length = 4 ∨ groups.length = 5) ∧
      ∀ place < 5, listOf? groups[place]? = s.lists[place]? := by
  obtain ⟨mode, mt, bm, ds, bfr⟩ := s
  have hfive : ∀ P : Nat → Prop, (∀ place < 5, P place) ↔ P 0 ∧ P 1 ∧ P 2 ∧ P 3 ∧ P 4 := fun P => by
    simp only [Nat.forall_lt_succ_right, Nat.not_lt_zero, false_implies, implies_true,
      true_and, and_assoc]
  rw [hfive]
  -- four and five groups are read, and no other number of them
  match groups with
  | [] => simp [ofGroups?]
  | [_] => simp [ofGroups?]
  | [_, _] => simp [ofGroups?]
  | [_, _, _] => simp [ofGroups?]
  | [_, _, _, _] => simp [ofGroups?, Option.bind_eq_some_iff, listOf?, lists]
  | [_, _, _, _, _] => simp [ofGroups?, Option.bind_eq_some_iff, listOf?, lists]
  | _ :: _ :: _ :: _ :: _ :: _ :: _ => simp [ofGroups?]

/-- What is read for the field at that place. -/
def listAt (groups : List Bytes) (place : Nat) : List Nat := (listOf? groups[place]?).getD []

/-- Groups are read if there are as many as there should be, and each of them is. -/
theorem isSome_ofGroups? {groups : List Bytes} : (ofGroups? groups).isSome ↔
    (groups.length = 4 ∨ groups.length = 5) ∧ ∀ group ∈ groups, (supportList? group).isSome := by
  constructor
  · intro h
    obtain ⟨s, hs⟩ := Option.isSome_iff_exists.mp h
    obtain ⟨hlength, hlists⟩ := ofGroups?_eq_some_iff.mp hs
    refine ⟨hlength, fun group hgroup => ?_⟩
    obtain ⟨place, hplace⟩ := List.getElem?_of_mem hgroup
    obtain ⟨hbound, -⟩ := List.getElem?_eq_some_iff.mp hplace
    have hfive : place < s.lists.length :=
      Nat.lt_of_lt_of_le hbound (by show groups.length ≤ 5; omega)
    have hlist := hlists place hfive
    rw [hplace, List.getElem?_eq_getElem hfive] at hlist
    exact Option.isSome_of_eq_some hlist
  · rintro ⟨hlength, hall⟩
    -- a group that is missing counts as an empty list
    have hread : ∀ place, listOf? groups[place]? = some (listAt groups place) := fun place => by
      unfold listAt
      cases hgroup : groups[place]? with
      | none => rfl
      | some group =>
        obtain ⟨listed, hlisted⟩ :=
          Option.isSome_iff_exists.mp (hall group (List.mem_of_getElem? hgroup))
        have hlist : listOf? (some group) = some listed := hlisted
        rw [hlist, Option.getD_some]
    refine Option.isSome_iff_exists.mpr
      ⟨⟨listAt groups 0, listAt groups 1, listAt groups 2, listAt groups 3, listAt groups 4⟩,
        ofGroups?_eq_some_iff.mpr ⟨hlength, fun place hplace => ?_⟩⟩
    match place, hplace with
    | 0, _ => exact hread 0
    | 1, _ => exact hread 1
    | 2, _ => exact hread 2
    | 3, _ => exact hread 3
    | 4, _ => exact hread 4

/-- Another group in its place is read alike just if it is read as the same list. -/
theorem ofGroups?_set {groups : List Bytes} {place : Nat} (h : ofGroups? groups = some s)
    (hgroup : groups[place]? = some group) (other : Bytes) :
    ofGroups? (groups.set place other) = some s ↔ supportList? other = supportList? group := by
  obtain ⟨hlength, hlists⟩ := ofGroups?_eq_some_iff.mp h
  obtain ⟨hplace, -⟩ := List.getElem?_eq_some_iff.mp hgroup
  have hfive : place < 5 := by omega
  have hlist : supportList? group = s.lists[place]? := by
    rw [← hlists place hfive, hgroup]
    rfl
  have hother : listOf? (groups.set place other)[place]? = supportList? other := by
    rw [List.getElem?_set_self hplace]
    rfl
  rw [ofGroups?_eq_some_iff, List.length_set, hlist, ← hother]
  constructor
  · rintro ⟨-, hall⟩
    exact hall place hfive
  · intro heq
    refine ⟨hlength, fun at' hat => ?_⟩
    -- the other places have the groups that they had
    rcases eq_or_ne place at' with rfl | hne
    · exact heq
    · rw [List.getElem?_set_ne hne]
      exact hlists at' hat

/-- What is read is what the reply offers. -/
theorem mem_lists_iff (h : read? reply = some s) (place : Nat) :
    n ∈ s.lists[place]?.getD [] ↔ Offers reply place n := by
  rw [read?_eq] at h
  obtain ⟨groups, hgroups, hread⟩ := Option.bind_eq_some_iff.mp h
  obtain ⟨hlength, hlists⟩ := ofGroups?_eq_some_iff.mp hread
  have hoffers : Offers reply place n ↔ ∃ group, groups[place]? = some group ∧ Lists group n := by
    simp [Offers, hgroups]
  rw [hoffers]
  rcases Nat.lt_or_ge place 5 with hplace | hplace
  · have hlist := hlists place hplace
    cases hgroup : groups[place]? with
    | none => simp [← hlist, hgroup, listOf?]
    | some group =>
      have hlist : supportList? group = s.lists[place]? := by rw [← hlist, hgroup]; rfl
      obtain ⟨listed, hlisted⟩ : ∃ listed, s.lists[place]? = some listed :=
        ⟨_, List.getElem?_eq_getElem hplace⟩
      simp [hlisted, mem_supportList? (hlist.trans hlisted)]
  · -- there are five lists at most, and beyond them nothing is offered
    have hgroup : groups[place]? = none := List.getElem?_eq_none (by omega)
    have hlist : s.lists[place]? = none := List.getElem?_eq_none hplace
    simp [hgroup, hlist]

/-! ## Replies as they are written

A written reply is given by its ranges.  Lists with numbers that do not fit, and groups with nothing
in them, cannot be written (`Writable`); a range that runs backwards can, and is refused when it is
read. -/

/-- A reply with so many groups. -/
def written (offer : List (List (Nat × Nat))) : Bytes :=
  ofString "+CNMI: " ++ [44].intercalate (offer.map Scanner.spans)

example : written [[(0, 2)], [(0, 1)], [(0, 0), (2, 2)], [(0, 0)]] =
    ofString "+CNMI: (0-2),(0-1),(0,2),(0)" := by
  decide +kernel

/-- Groups that can be written: each has something in it, and the numbers fit. -/
def Writable (offer : List (List (Nat × Nat))) : Prop :=
  offer ≠ [] ∧ ∀ items ∈ offer, items ≠ [] ∧ ∀ r ∈ items, r.1 < Decimal.word32 ∧
    r.2 < Decimal.word32

variable {offer : List (List (Nat × Nat))}

/-- The groups of such a reply are what its ranges are written as. -/
theorem groupsOf?_written (hne : offer ≠ []) : groupsOf? (written offer) =
    if offer.length ≤ 5 then some (offer.map fun items => [44].intercalate (items.map Scanner.span))
    else none := by
  have hwritten : written offer =
      settingsReply (offer.map fun items => [44].intercalate (items.map Scanner.span)) := by
    rw [settingsReply, List.map_map]
    rfl
  have hclosed : ∀ group ∈ offer.map fun items =>
      [44].intercalate (items.map Scanner.span), 41 ∉ group := by
    intro group hgroup
    obtain ⟨items, -, rfl⟩ := List.mem_map.mp hgroup
    exact Scanner.close_not_mem_spans items
  rw [hwritten, groupsOf?_settingsReply (by simpa using hne) hclosed, List.length_map]

/-- A reply offers what lies within its ranges. -/
theorem offers_written (h : Writable offer) (hlength : offer.length ≤ 5)
    (hroom : ∀ items ∈ offer, items.length ≤ supportCapacity) (place : Nat) :
    Offers (written offer) place n ↔ ∃ items, offer[place]? = some items ∧
    ∃ r ∈ items, r.1 ≤ n ∧ n ≤ r.2 := by
  have hlists : ∀ items ∈ offer, Lists ([44].intercalate (items.map Scanner.span)) n ↔
      ∃ r ∈ items, r.1 ≤ n ∧ n ≤ r.2 := by
    intro items hitems
    obtain ⟨hne, hbounds⟩ := h.2 items hitems
    simp [Lists, Scanner.ranges_intercalate hne hbounds, hroom items hitems]
  rw [Offers, groupsOf?_written h.1, if_pos hlength]
  constructor
  · rintro ⟨groups, group, hgroups, hgroup, hlisted⟩
    obtain rfl := Option.some.inj hgroups
    rw [List.getElem?_map, Option.map_eq_some_iff] at hgroup
    obtain ⟨items, hitems, rfl⟩ := hgroup
    exact ⟨items, hitems, (hlists items (List.mem_of_getElem? hitems)).mp hlisted⟩
  · rintro ⟨items, hitems, hmem⟩
    refine ⟨_, [44].intercalate (items.map Scanner.span), rfl, ?_,
      (hlists items (List.mem_of_getElem? hitems)).mpr hmem⟩
    rw [List.getElem?_map, hitems, Option.map_some]

/-- A reply is read if it has four groups or five, and all of them can be expanded. -/
theorem isSome_read?_written (h : Writable offer) : (read? (written offer)).isSome ↔
    (offer.length = 4 ∨ offer.length = 5) ∧
    ∀ items ∈ offer, Scanner.Expandable supportCapacity items := by
  have hexpands :
    ∀ items ∈ offer, (supportList? ([44].intercalate (items.map Scanner.span))).isSome ↔
      Scanner.Expandable supportCapacity items := by
    intro items hitems
    obtain ⟨hne, hbounds⟩ := h.2 items hitems
    rw [supportList?, Scanner.rangeList_intercalate hne hbounds]
    split <;> simp_all
  rw [read?_eq, groupsOf?_written h.1]
  split
  · rw [Option.bind_some, isSome_ofGroups?, List.length_map, List.forall_mem_map]
    exact and_congr_right fun _ => forall₂_congr hexpands
  · -- more than five groups are not read at all
    rename_i hmany
    have hnone : ¬ ((none : Option (List Bytes)).bind ofGroups?).isSome := Bool.false_ne_true
    refine iff_of_false hnone fun hread => hmany ?_
    have hlength := hread.1
    omega

end MessageIndicationSupport

end Cellular
