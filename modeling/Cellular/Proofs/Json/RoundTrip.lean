import Cellular.Proofs.Json.Token
import Cellular.Proofs.Text.Listed
/-!
# A JSON value is read as it is written

`Json.text` writes a value and `Json.read?` reads it.  What is written of a value without fractions,
whose integers have 64 bits and whose strings are texts, is read as that value (`Json.read?_text`).

The reader is a machine with a stack of open containers.  `Place` is where it stands, and
`Place.Leads` says of two places that the machine gets from the one to the other in so many steps.
A value takes fewer steps than it has characters (`Reads`), which is why the machine never runs out
of them.

The structure is this.

1. Text: `Json.text` builds a string from the front, and the theory needs lists of characters.
   `toList_writeOn` says that what is written goes behind what was there, so a value has characters
   of its own (`chars`), and the equations for arrays and objects follow.
2. Values: `Exact` are the values that lose nothing in writing.  Each begins with a character that
   tells what kind of value it is.
3. The machine: a value is begun and then put where it belongs, which are two lemmas about
   `Place.Leads`; the steps add up by transitivity.
4. Containers: an array or an object is an induction on what is left of it.  Its items are read by
   hypothesis, and `leads_inside` puts each where it belongs.
-/

namespace Cellular.Json

/-! ## The text of a value

The three functions that write call one another, so what is said of the one is said of all three, by
a mutual recursion over values, items and members. -/

mutual

/-- A value is written behind what was there, and what was there makes no difference. -/
theorem toList_writeOn (out : String) :
    ∀ j, (writeOn out j).toList = out.toList ++ (writeOn "" j).toList
  | .null | .unpaired | .bool true | .bool false | .whole _ | .decimal _ | .string _ => by
    simp only [writeOn, String.toList_append, String.toList_empty, List.nil_append]
  | .array items => by
    simp only [writeOn, String.toList_append, toList_writeItems (out ++ "[") items,
      toList_writeItems ("" ++ "[") items, String.toList_empty, List.nil_append, List.append_assoc]
  | .object members => by
    simp only [writeOn, String.toList_append, toList_writeMembers (out ++ "\x7b") members,
      toList_writeMembers ("" ++ "\x7b") members, String.toList_empty, List.nil_append,
      List.append_assoc]

/-- So are items. -/
theorem toList_writeItems (out : String) :
    ∀ items, (writeItems out items).toList = out.toList ++ (writeItems "" items).toList
  | [] => by simp only [writeItems, String.toList_empty, List.append_nil]
  | [item] => toList_writeOn out item
  | item :: next :: items => by
    simp only [writeItems, String.toList_append,
      toList_writeItems (writeOn out item ++ ",") (next :: items),
      toList_writeItems (writeOn "" item ++ ",") (next :: items), toList_writeOn out item,
      List.append_assoc]

/-- So are members. -/
theorem toList_writeMembers (out : String) :
    ∀ members, (writeMembers out members).toList = out.toList ++ (writeMembers "" members).toList
  | [] => by simp only [writeMembers, String.toList_empty, List.append_nil]
  | [(name, value)] => by
    simp only [writeMembers, String.toList_append, toList_writeOn (out ++ quote name ++ ":") value,
      toList_writeOn ("" ++ quote name ++ ":") value, String.toList_empty, List.nil_append,
      List.append_assoc]
  | (name, value) :: next :: members => by
    simp only [writeMembers, String.toList_append,
      toList_writeMembers (writeOn (out ++ quote name ++ ":") value ++ ",") (next :: members),
      toList_writeMembers (writeOn ("" ++ quote name ++ ":") value ++ ",") (next :: members),
      toList_writeOn (out ++ quote name ++ ":") value,
      toList_writeOn ("" ++ quote name ++ ":") value, String.toList_empty, List.nil_append,
      List.append_assoc]

end

/-- The characters of a value. -/
def chars (j : Json) : List Char := j.text.toList

/-- The characters of a string between its marks. -/
def quoted (s : String) : List Char := '"' :: (s.toList.flatMap escaped ++ ['"'])

/-- A quoted string, taken apart at its marks. -/
theorem quoted_append (s : String) (rest : List Char) :
    quoted s ++ rest = '"' :: (s.toList.flatMap escaped ++ '"' :: rest) := by
  rw [quoted, List.cons_append, List.append_assoc, List.singleton_append]

/-- The characters of a member. -/
def memberChars (m : String × Json) : List Char := quoted m.1 ++ ':' :: chars m.2

/-- Parts with a comma before each. -/
def following (parts : List (List Char)) : List Char := parts.flatMap (',' :: ·)

theorem following_cons (part : List Char) (parts : List (List Char)) :
    following (part :: parts) = ',' :: part ++ following parts :=
  List.flatMap_cons

/-- A string has the characters between its marks, and the marks. -/
theorem toList_quote (s : String) : (quote s).toList = quoted s := String.toList_ofList

/-- Items are written with a comma before all but the first. -/
theorem chars_items (item : Json) (items : List Json) :
    (writeItems "" (item :: items)).toList = chars item ++ following (items.map chars) := by
  induction items generalizing item with
  | nil => exact (List.append_nil _).symm
  | cons next items ih =>
    have hstep : writeItems "" (item :: next :: items) =
        writeItems (writeOn "" item ++ ",") (next :: items) := rfl
    rw [hstep, toList_writeItems, ih, String.toList_append, List.map_cons, following_cons]
    simp [chars, text]

/-- An array is its items between brackets. -/
theorem chars_array (item : Json) (items : List Json) :
    chars (.array (item :: items)) =
      '[' :: (chars item ++ following (items.map chars) ++ [']']) := by
  rw [chars, text, writeOn, String.toList_append, toList_writeItems, chars_items]
  simp

theorem toList_member (m : String × Json) :
    (writeOn ("" ++ quote m.1 ++ ":") m.2).toList = memberChars m := by
  rw [toList_writeOn, String.toList_append, String.toList_append, toList_quote]
  simp [memberChars, chars, text]

/-- Members are written with a comma before all but the first. -/
theorem chars_members (m : String × Json) (members : List (String × Json)) :
    (writeMembers "" (m :: members)).toList =
      memberChars m ++ following (members.map memberChars) := by
  induction members generalizing m with
  | nil => exact (toList_member m).trans (List.append_nil _).symm
  | cons next members ih =>
    have hstep : writeMembers "" (m :: next :: members) =
        writeMembers (writeOn ("" ++ quote m.1 ++ ":") m.2 ++ ",") (next :: members) := rfl
    rw [hstep, toList_writeMembers, ih, String.toList_append, toList_member, List.map_cons,
      following_cons]
    simp

/-- An object is its members between braces. -/
theorem chars_object (m : String × Json) (members : List (String × Json)) :
    chars (.object (m :: members)) =
      '\x7b' :: (memberChars m ++ following (members.map memberChars) ++ ['\x7d']) := by
  rw [chars, text, writeOn, String.toList_append, toList_writeMembers, chars_members]
  simp

/-! ## Values that can be written

A number with a fraction and an unpaired half of a surrogate pair are written as something else than
they are, and an integer of more than 64 bits is not read.  All other values are exact, as far as
their parts are. -/

/-- A value that is written in full: its integers have 64 bits, its numbers are integers and its
strings are texts. -/
inductive Exact : Json → Prop where
  | null : Exact .null
  | bool (b : Bool) : Exact (.bool b)
  | whole {n : Int} (h : IsWord n) : Exact (.whole n)
  | string (s : String) : Exact (.string s)
  | array {items : List Json} (h : ∀ item ∈ items, Exact item) : Exact (.array items)
  | object {members : List (String × Json)} (h : ∀ m ∈ members, Exact m.2) : Exact (.object members)

/-- It begins with a character that is no white space and closes no array. -/
def Opens (cs : List Char) : Prop := ∃ c rest, cs = c :: rest ∧ isSpacing c = false ∧ c ≠ ']'

variable {j : Json} {cs rest : List Char}

theorem chars_whole (n : Int) : chars (.whole n) = (toString n).toList := by
  rw [chars, text, writeOn, String.toList_append, String.toList_empty, List.nil_append]

/-- A string has the characters that it has between marks. -/
theorem chars_string (s : String) : chars (.string s) = quoted s := by
  rw [chars, text, writeOn, String.toList_append, toList_quote, String.toList_empty,
    List.nil_append]

/-- What a number begins with begins nothing else. -/
theorem front_number {c : Char} (h : c.isDigit = true ∨ c = '-') :
    isSpacing c = false ∧ c ∉ [']', '"', '[', '\x7b', 't', 'f', 'n'] := by
  have hother : ∀ x ∈ [' ', '\t', '\n', '\r', ']', '"', '[', '\x7b', 't', 'f', 'n'], x.isDigit =
      false ∧ x ≠ '-' := by simp
  have hc : ∀ x ∈ [' ', '\t', '\n', '\r', ']', '"', '[', '\x7b', 't', 'f', 'n'], c ≠ x := by
    rintro x hx rfl
    rcases h with hdigit | hsign
    · rw [(hother c hx).1] at hdigit
      cases hdigit
    · exact (hother c hx).2 hsign
  refine ⟨?_, fun hmem => hc c (List.mem_append_right [' ', '\t', '\n', '\r'] hmem) rfl⟩
  simp only [List.forall_mem_cons] at hc
  simp [isSpacing, hc]

/-- A value that is written in full begins as a value does. -/
theorem Exact.opens (h : Exact j) : Opens (chars j) := by
  cases h with
  | null => exact ⟨'n', _, rfl, rfl, by decide⟩
  | bool b =>
    cases b with
    | true => exact ⟨'t', _, rfl, rfl, by decide⟩
    | false => exact ⟨'f', _, rfl, rfl, by decide⟩
  | @whole n h =>
    -- the only values that do not all open with one and the same character
    obtain ⟨c, cs, hcs, hfront⟩ := front_toString n
    have hc := front_number hfront
    exact ⟨c, cs, (chars_whole n).trans hcs, hc.1, fun heq => hc.2 (heq ▸ List.mem_cons_self)⟩
  | string s => exact ⟨'"', _, chars_string s, rfl, by decide⟩
  | @array items h =>
    cases items with
    | nil => exact ⟨'[', _, rfl, rfl, by decide⟩
    | cons item items => exact ⟨'[', _, chars_array item items, rfl, by decide⟩
  | @object members h =>
    cases members with
    | nil => exact ⟨'\x7b', _, rfl, rfl, by decide⟩
    | cons m members => exact ⟨'\x7b', _, chars_object m members, rfl, by decide⟩

theorem skip_cons {c : Char} (h : isSpacing c = false) : skip (c :: cs) = c :: cs :=
  List.dropWhile_cons_of_neg (by rw [h]; nofun)

/-! ## The machine

The reader makes a step for each value and for each container that it enters.  It is given as many
steps as the text has characters.  So besides what it reads it has to be counted how many steps it
takes, and every lemma of this section carries the count. -/

/-- Where the reader stands: what it has read, the containers that are open around it, and the text
that is left. -/
structure Place where
  progress : Progress
  frames : List Frame
  text : List Char

namespace Place

/-- Reading on from the one place comes down to reading on from the other, so many steps later. -/
def Leads (steps : Nat) (a b : Place) : Prop :=
  ∀ fuel, readOn? (fuel + steps) a.progress a.frames a.text =
    readOn? fuel b.progress b.frames b.text

variable {a b c : Place} {m n : Nat} {frame : Frame} {frames : List Frame} {value : Json}
  {progress : Progress}

theorem Leads.refl (a : Place) : Leads 0 a a := fun _ => rfl

theorem Leads.trans (hab : Leads m a b) (hbc : Leads n b c) : Leads (m + n) a c := by
  intro fuel
  rw [Nat.add_comm m n, ← Nat.add_assoc, hab, hbc]

/-- A value begins. -/
theorem leads_of_begin (h : begin? cs = some (progress, rest)) :
    Leads 1 ⟨.inside frame, frames, cs⟩ ⟨progress, frame :: frames, rest⟩ := by
  intro fuel
  rw [readOn?, h]

/-- A value is put where it belongs. -/
theorem leads_of_proceed (h : frame.proceed? value cs = some (progress, rest)) :
    Leads 1 ⟨.complete value, frame :: frames, cs⟩ ⟨progress, frames, rest⟩ := by
  intro fuel
  rw [readOn?, h]

end Place

/-- The text of the value is read as the value, in fewer steps than it has characters. -/
def Reads (j : Json) : Prop :=
  ∀ rest, Ends rest → ∃ progress cs, begin? (chars j ++ rest) = some (progress, cs) ∧
    ∀ frames, ∃ steps < (chars j).length, Place.Leads steps ⟨progress, frames, cs⟩
      ⟨.complete j, frames, rest⟩

/-- A value that is read at once. -/
theorem reads_of_begin (h : ∀ rest, Ends rest → begin? (chars j ++ rest) = some (.complete j, rest))
    (hne : chars j ≠ []) :
    Reads j := fun rest hrest =>
  ⟨.complete j, rest, h rest hrest, fun _ => ⟨0, List.length_pos_iff.mpr hne, Place.Leads.refl _⟩⟩

/-- A value that begins with a digit or a sign is read as a number. -/
theorem begin?_number {c : Char} {value : Json} (h : c.isDigit = true ∨ c = '-')
    (hread : number? (c :: cs) = some (value, rest)) :
    begin? (c :: cs) = some (.complete value, rest) := by
  obtain ⟨hspacing, hother⟩ := front_number h
  simp only [List.mem_cons, not_or] at hother
  simp [begin?, skip_cons hspacing, hother, hread]

/-- An integer of 64 bits is read. -/
theorem reads_whole {n : Int} (h : IsWord n) : Reads (.whole n) := by
  obtain ⟨c, cs, hcs, hfront⟩ := front_toString n
  have hchars : chars (.whole n) = c :: cs := (chars_whole n).trans hcs
  refine reads_of_begin (fun rest hrest => ?_) (by rw [hchars]; nofun)
  rw [hchars]
  refine begin?_number hfront ?_
  have hread := number?_written h hrest
  rwa [hcs] at hread

theorem reads_string (s : String) : Reads (.string s) := by
  refine reads_of_begin (fun rest _ => ?_) (by rw [chars_string]; nofun)
  simp [begin?, chars_string, quoted_append, skip_cons, isSpacing, string?_written, ofText]

/-! ## Containers

The induction is on the items that are still to be read, and the hypothesis has the items already
read as a parameter, the last one first, as the machine keeps them. -/

/-- A number ends at what follows a value in a container. -/
theorem ends_of_mem {c : Char} (h : c ∈ [',', ']', '\x7d']) : Ends (c :: rest) := by
  have hall : ∀ c ∈ [',', ']', '\x7d'], c.isDigit = false ∧ c ∉ ['.', 'e', 'E'] := by simp
  rintro _ ⟨⟩
  exact hall c h

variable {frame : Frame} {progress : Progress} {after : List Char}

/-- A value inside a container, up to where the next one follows or the container ends. -/
theorem leads_inside (h : Reads j) (hrest : Ends rest)
    (hproceed : frame.proceed? j rest = some (progress, after)) (frames : List Frame) :
    ∃ steps ≤ (chars j).length + 1,
      Place.Leads steps ⟨.inside frame, frames, chars j ++ rest⟩ ⟨progress, frames, after⟩ := by
  obtain ⟨begun, cs, hbegin, hends⟩ := h rest hrest
  obtain ⟨n, hn, hleads⟩ := hends (frame :: frames)
  exact ⟨1 + n + 1, by omega, ((Place.leads_of_begin hbegin).trans hleads).trans
    (Place.leads_of_proceed hproceed)⟩

/-- What is left of an array behind its opening mark. -/
theorem leads_items {item : Json} {items : List Json} (hitem : Reads item)
    (hitems : ∀ item ∈ items, Reads item) (before : List Json) (frames : List Frame)
    (rest : List Char) :
    ∃ steps ≤ (chars item ++ following (items.map chars)).length + 1,
      Place.Leads steps ⟨.inside (.items before), frames,
        chars item ++ (following (items.map chars) ++ ']' :: rest)⟩
        ⟨.complete (.array (before.reverse ++ item :: items)), frames, rest⟩ := by
  induction items generalizing item before with
  | nil =>
    have hproceed : (Frame.items before).proceed? item (']' :: rest) =
        some (.complete (.array (item :: before).reverse), rest) :=
      rfl
    rw [List.reverse_cons] at hproceed
    rw [List.map_nil, following, List.flatMap_nil, List.append_nil, List.nil_append]
    exact leads_inside hitem (ends_of_mem (by decide)) hproceed frames
  | cons next items ih =>
    obtain ⟨hnext, hitems⟩ := List.forall_mem_cons.mp hitems
    -- the comma is read together with the item before it, and the rest is an array with that item
    -- in it
    obtain ⟨m, hm, hgoes⟩ := ih hnext hitems (item :: before)
    have hproceed : (Frame.items before).proceed? item
      (',' :: (chars next ++ (following (items.map chars) ++ ']' :: rest))) =
      some (.inside (.items (item :: before)),
        chars next ++ (following (items.map chars) ++ ']' :: rest)) := rfl
    obtain ⟨n, hn, hcomes⟩ := leads_inside hitem (ends_of_mem (by decide)) hproceed frames
    refine ⟨n + m, ?_, ?_⟩
    · rw [List.map_cons, following_cons]
      simp only [List.length_append, List.length_cons] at hm ⊢
      omega
    · rw [List.reverse_cons, List.append_assoc] at hgoes
      rw [List.map_cons, following_cons, List.append_assoc]
      exact hcomes.trans hgoes

/-- An array is read if its items are. -/
theorem reads_array {items : List Json} (hopens : ∀ item ∈ items, Opens (chars item))
    (h : ∀ item ∈ items, Reads item) :
    Reads (.array items) := by
  cases items with
  | nil => exact reads_of_begin (fun _ _ => rfl) nofun
  | cons item items =>
    intro rest _
    obtain ⟨hitem, hitems⟩ := List.forall_mem_cons.mp h
    obtain ⟨c, cs, hcs, hspacing, hother⟩ := hopens item List.mem_cons_self
    -- the bracket is taken off, and the first item stands in front of the rest
    have hbegin : begin? (chars (.array (item :: items)) ++ rest) =
        some (.inside (.items []), chars item ++ (following (items.map chars) ++ ']' :: rest)) := by
      have htext : chars (.array (item :: items)) ++ rest =
          '[' :: (chars item ++ (following (items.map chars) ++ ']' :: rest)) := by
        rw [chars_array]
        simp
      rw [htext, begin?, skip_cons rfl, hcs]
      simp [skip_cons hspacing, hother]
    refine ⟨_, _, hbegin, fun frames => ?_⟩
    obtain ⟨steps, hsteps, hleads⟩ := leads_items hitem hitems [] frames rest
    refine ⟨steps, ?_, hleads⟩
    rw [chars_array]
    simp only [List.length_append, List.length_cons, List.length_nil] at hsteps ⊢
    omega

/-- The name of a member is read. -/
theorem name?_quoted (name : String) (rest : List Char) :
    name? (quoted name ++ ':' :: rest) = some (some name, rest) := by
  simp [name?, quoted_append, skip_cons, isSpacing, string?_written]

/-- An object is entered with the name of its first member. -/
theorem begin?_object (name : String) (rest : List Char) :
    begin? ('\x7b' :: (quoted name ++ ':' :: rest)) =
      some (.inside (.members [] (some name)), rest) := by
  have hname := name?_quoted name rest
  rw [quoted_append] at hname ⊢
  simp [begin?, skip_cons, isSpacing, hname]

theorem ofMembers_named (members : List (String × Json)) :
    ofMembers (members.map fun m => (some m.1, m.2)) = .object members := by
  have hnamed : (members.map fun m => (some m.1, m.2)).mapM
    (fun m : Option String × Json => m.1.map fun name => (name, m.2)) =
      some (members.map id) := mapM_written fun _ _ => rfl
  rw [ofMembers, hnamed, List.map_id]

/-- What is left of an object behind the name of a member. -/
theorem leads_members {m : String × Json} {members : List (String × Json)} (hm : Reads m.2)
    (hmembers : ∀ m ∈ members, Reads m.2) (before : List (Option String × Json))
    (frames : List Frame) (rest : List Char) :
    ∃ steps ≤ (chars m.2 ++ following (members.map memberChars)).length + 1,
      Place.Leads steps
        ⟨.inside (.members before (some m.1)), frames,
          chars m.2 ++ (following (members.map memberChars) ++ '\x7d' :: rest)⟩
        ⟨.complete (ofMembers (before.reverse ++ (m :: members).map fun m => (some m.1, m.2))),
          frames, rest⟩ := by
  -- one member at a time; those that were read already stand in the frame
  induction members generalizing m before with
  | nil =>
    have hproceed : (Frame.members before (some m.1)).proceed? m.2 ('\x7d' :: rest) =
        some (.complete (ofMembers ((some m.1, m.2) :: before).reverse), rest) := rfl
    rw [List.reverse_cons] at hproceed
    rw [List.map_nil, following, List.flatMap_nil, List.append_nil, List.nil_append]
    exact leads_inside hm (ends_of_mem (by decide)) hproceed frames
  | cons next members ih =>
    obtain ⟨hnext, hmembers⟩ := List.forall_mem_cons.mp hmembers
    obtain ⟨k, hk, hgoes⟩ := ih hnext hmembers ((some m.1, m.2) :: before)
    have hproceed : (Frame.members before (some m.1)).proceed? m.2
        (',' :: (memberChars next ++ (following (members.map memberChars) ++ '\x7d' :: rest))) =
      some (.inside (.members ((some m.1, m.2) :: before) (some next.1)),
        chars next.2 ++ (following (members.map memberChars) ++ '\x7d' :: rest)) := by
      simp [Frame.proceed?, skip_cons, isSpacing, memberChars, name?_quoted]
    obtain ⟨n, hn, hcomes⟩ := leads_inside hm (ends_of_mem (by decide)) hproceed frames
    refine ⟨n + k, ?_, ?_⟩
    · rw [List.map_cons, following_cons, memberChars]
      simp only [List.length_append, List.length_cons] at hk ⊢
      omega
    · rw [List.reverse_cons, List.append_assoc] at hgoes
      rw [List.map_cons, following_cons, List.append_assoc]
      exact hcomes.trans hgoes

/-- An object is read if its members are. -/
theorem reads_object {members : List (String × Json)} (h : ∀ m ∈ members, Reads m.2) :
    Reads (.object members) := by
  cases members with
  | nil => exact reads_of_begin (fun _ _ => rfl) nofun
  | cons m members =>
    intro rest _
    obtain ⟨hm, hmembers⟩ := List.forall_mem_cons.mp h
    have hbegin : begin? (chars (.object (m :: members)) ++ rest) =
        some (.inside (.members [] (some m.1)),
          chars m.2 ++ (following (members.map memberChars) ++ '\x7d' :: rest)) := by
      have htext : chars (.object (m :: members)) ++ rest =
          '\x7b' :: (quoted m.1 ++
            ':' :: (chars m.2 ++ (following (members.map memberChars) ++ '\x7d' :: rest))) := by
        rw [chars_object]
        simp [memberChars]
      rw [htext, begin?_object]
    refine ⟨_, _, hbegin, fun frames => ?_⟩
    obtain ⟨steps, hsteps, hleads⟩ := leads_members hm hmembers [] frames rest
    rw [List.reverse_nil, List.nil_append, ofMembers_named] at hleads
    refine ⟨steps, ?_, hleads⟩
    rw [chars_object, memberChars]
    simp only [List.length_append, List.length_cons, List.length_nil] at hsteps ⊢
    omega

/-- What is written of a value in full is read as the value. -/
theorem Exact.reads (h : Exact j) : Reads j := by
  -- an induction over `h`, since a value has its children in lists
  induction h with
  | null => exact reads_of_begin (fun _ _ => rfl) nofun
  | bool b => cases b <;> exact reads_of_begin (fun _ _ => rfl) nofun
  | whole h => exact reads_whole h
  | string s => exact reads_string s
  | array h ih => exact reads_array (fun item hitem => (h item hitem).opens) ih
  | object _ ih => exact reads_object ih

/-- A value is read as it is written. -/
theorem read?_text (h : Exact j) : read? j.text = some j := by
  obtain ⟨progress, cs, hbegin, hends⟩ := h.reads [] nofun
  obtain ⟨steps, hshort, hleads⟩ := hends []
  rw [List.append_nil] at hbegin
  -- one step is left for the value as a whole
  obtain ⟨fuel, hfuel⟩ : ∃ fuel, (chars j).length + 1 = fuel + 1 + steps :=
    ⟨(chars j).length - steps, by omega⟩
  have hvalue : value? (chars j) = some (j, []) := by
    rw [value?, hbegin]
    show readOn? ((chars j).length + 1) progress [] cs = some (j, [])
    rw [hfuel]
    exact hleads (fuel + 1)
  rw [read?, ← chars, hvalue]
  rfl

end Cellular.Json
