import Cellular.Proofs.Reply.LocalAddress
import Mathlib.Algebra.Order.BigOperators.Group.List
/-!
# What comes out of a reply that is read

Settings are well formed if every address in them says something and the prefix is no longer than
its family allows.  A reply can be read without that: emptiness is looked for before the blanks
around a text are taken off, and the length of a prefix is cut to 128 in both families.  `Flawed`
has the ways in which it happens, and there are no others (`wellFormed_iff`).

The theorem is an equivalence for every reply that is read, so each way to be malformed has to be
traced back to the line.  The address and the prefix come from one field, whose form tells what they
can be (`Local.Reads`).  The others are texts of fields that are not empty, and only blanks can make
nothing of such a text (`gives_empty_iff`).
-/

namespace Cellular.IpSettings

open Bytes

variable {field : List Char} {address : String} {length : Nat} {fields : List Bytes}
  {s : IpSettings}

/-- Every address says something, and the prefix is no longer than its family allows. -/
structure WellFormed (s : IpSettings) : Prop where
  address : s.address ≠ ""
  gateway : s.gateway ≠ some ""
  dns : "" ∉ s.dns
  prefixLength : s.prefixLength ≤ 128
  ipv4 : ':' ∉ s.address.toList → s.prefixLength ≤ 32

/-- A field is there that is not empty, and this is its text. -/
def Shows (field : Option Bytes) (text : List Char) : Prop :=
  ∃ f, field = some f ∧ f ≠ [] ∧ Scanner.text? f = some text

/-- The text of the field with the address and the prefix. -/
def placeOf? (fields : List Bytes) : Option (List Char) := fields[3]?.bind Scanner.text?

/-! ## What may go wrong -/

/-- What goes wrong on a line that is read. -/
inductive Flawed (fields : List Bytes) : Prop where
  /-- There is nothing in front of the slash. -/
  | nameless {n : List Char} (place : placeOf? fields = some ('/' :: n))
  /-- The prefix is too long for an address without colons. -/
  | oversized {a n : List Char} {k : Nat} (place : placeOf? fields = some (a ++ '/' :: n))
      (slash : '/' ∉ a)
      (colon : ':' ∉ a) (number : Decimal.whole? Decimal.word32 (ofChars n) = some k)
      (long : 32 < k)
  /-- The gateway or a name server is blank. -/
  | blank {i : Nat} (place : i ∈ [4, 5, 6]) (blank : Shows fields[i]? [])

/-! ## The address and the prefix

In three of the four forms nothing can go wrong: there is an octet in front of the first dot or a
colon in the text, and a mask has no more bits than an address.  Behind a slash anything may be
written, and in front of it nothing need be. -/

theorem setBits_le (n : Nat) : setBits n ≤ 8 := by
  rw [setBits]
  exact (List.length_filter_le _ _).trans_eq List.length_range

/-- A mask has at most 32 bits. -/
theorem sum_maskBits_le {parts : List (List Char)} {bits : List Nat} (hfew : parts.length ≤ 4)
    (h : parts.mapM maskBits? = some bits) : bits.foldl (· + ·) 0 ≤ 32 := by
  have hlength : bits.length ≤ 4 := length_of_mapM h ▸ hfew
  have hbits : ∀ n ∈ bits, n ≤ 8 := by
    intro n hn
    obtain ⟨part, -, hpart⟩ := (mem_of_mapM h).mp hn
    obtain ⟨k, -, rfl⟩ := Option.map_eq_some_iff.mp hpart
    exact setBits_le k
  have hsum : bits.sum ≤ bits.length * 8 := by simpa using List.sum_le_card_nsmul bits 8 hbits
  rw [← List.sum_eq_foldl]
  omega

/-- What stands in front of a slash is the address, and the number behind it the length, up to
128. -/
theorem reads_slash {a n : List Char} (h : '/' ∉ a) : Reads (a ++ '/' :: n) address length ↔
    Fits a ∧ address = String.ofList a ∧
      ∃ k, Decimal.whole? Decimal.word32 (ofChars n) = some k ∧ length = min k 128 := by
  rw [← splitLocal?_eq_some_iff, splitLocal?_slash h]
  simp only [Option.bind_eq_some_iff, Option.map_eq_some_iff, address?_eq_some, Prod.mk.injEq]
  constructor
  · rintro ⟨_, ⟨hfits, rfl⟩, k, hk, rfl, rfl⟩
    exact ⟨hfits, rfl, k, hk, rfl⟩
  · rintro ⟨hfits, rfl, k, hk, rfl⟩
    exact ⟨_, ⟨hfits, rfl⟩, k, hk, rfl, rfl⟩

/-- No prefix that is read is longer than 128. -/
theorem Reads.length_le (h : Reads field address length) : length ≤ 128 := by
  cases h with
  | prefixed => exact Nat.min_le_right _ _
  | colons => exact Nat.zero_le _
  | four => exact Nat.zero_le _
  | masked _ _ _ _ mask =>
    exact Nat.le_trans (sum_maskBits_le (List.length_take_le ..) mask) (by decide)

theorem ofList_eq_empty {cs : List Char} (h : String.ofList cs = "") : cs = [] := by
  rw [← String.toList_ofList (l := cs), h]
  rfl

/-- There is a dot between parts. -/
theorem front_ne_nil (h : 2 ≤ (splitAt '.' field).length) : front field ≠ [] := by
  obtain ⟨a, more, hsplit⟩ :=
    List.exists_cons_of_ne_nil (List.ne_nil_of_length_pos (Nat.lt_of_lt_of_le (by decide) h))
  rw [hsplit, List.length_cons] at h
  obtain ⟨b, parts, rfl⟩ :=
    List.exists_cons_of_ne_nil (List.ne_nil_of_length_pos (Nat.le_of_succ_le_succ h))
  rw [front, hsplit]
  simp [List.intercalate_cons_cons]

/-- Only in front of a slash nothing is an address. -/
theorem Reads.eq_empty_iff (h : Reads field address length) :
    address = "" ↔ ∃ n, field = '/' :: n := by
  constructor
  · intro hempty
    -- only the form with a slash can have nothing in front
    cases h with
    | prefixed =>
      obtain rfl := ofList_eq_empty hempty
      exact ⟨_, rfl⟩
    | colons _ colon =>
      obtain rfl := ofList_eq_empty hempty
      cases colon
    | four _ _ parts =>
      obtain rfl := ofList_eq_empty hempty
      cases parts
    | masked _ _ parts => exact absurd (ofList_eq_empty hempty) (front_ne_nil (by omega))
  · rintro ⟨n, rfl⟩
    obtain ⟨-, rfl, -⟩ := (reads_slash (a := []) List.not_mem_nil).mp h
    rfl

/-- Only behind a slash there is a prefix that is too long. -/
theorem Reads.oversized_iff (h : Reads field address length) :
    (':' ∉ address.toList ∧ 32 < length) ↔
    ∃ a n k, field = a ++ '/' :: n ∧ '/' ∉ a ∧ ':' ∉ a ∧
      Decimal.whole? Decimal.word32 (ofChars n) = some k ∧ 32 < k := by
  constructor
  · rintro ⟨hcolon, hlong⟩
    -- only a length that is written out can be larger
    cases h with
    | prefixed slash fits number =>
      rw [String.toList_ofList] at hcolon
      exact ⟨_, _, _, rfl, slash, hcolon, number, by omega⟩
    | colons => cases hlong
    | four => cases hlong
    | masked _ _ _ _ mask =>
      exact absurd hlong (Nat.not_lt.mpr (sum_maskBits_le (List.length_take_le ..) mask))
  · rintro ⟨a, n, k, rfl, hslash, hcolon, hk, hlong⟩
    obtain ⟨-, rfl, k', hk', rfl⟩ := (reads_slash hslash).mp h
    obtain rfl : k = k' := Option.some.inj (hk.symm.trans hk')
    rw [String.toList_ofList]
    exact ⟨hcolon, by omega⟩

/-! ## The other addresses

The gateway is the field behind the address, and the name servers are the two behind the gateway.
An empty field gives no address; one that is not empty gives its text, or the line is refused. -/

/-- An address that may be missing. -/
def optional? : Option Bytes → Option (Option String)
  | none | some [] => some none
  | some f => (Scanner.text? f).bind fun cs => (address? cs).map some

/-- The field is not empty, and its text is that address. -/
def Gives (field : Option Bytes) (address : String) : Prop :=
  ∃ cs, Shows field cs ∧ address? cs = some address

/-- The address that a field gives is its text, if there is room for it. -/
theorem gives_iff {field : Option Bytes} :
    Gives field address ↔ ∃ f, field = some f ∧ f ≠ [] ∧
      (Scanner.text? f).bind address? = some address := by
  simp only [Gives, Shows, Option.bind_eq_some_iff]
  constructor
  · rintro ⟨cs, ⟨f, rfl, hne, htext⟩, haddress⟩
    exact ⟨f, rfl, hne, cs, htext, haddress⟩
  · rintro ⟨f, rfl, hne, cs, htext, haddress⟩
    exact ⟨cs, ⟨f, rfl, hne, htext⟩, haddress⟩

/-- A field is read as the address that it gives, or as none. -/
theorem optional?_eq_some {field : Option Bytes} {found : Option String}
    (h : optional? field = some found) :
    found = some address ↔ Gives field address := by
  unfold optional? at h
  split at h
  · simp [← Option.some.inj h, Gives, Shows]
  · simp [← Option.some.inj h, Gives, Shows]
  · rename_i f hf
    obtain ⟨cs, htext, a, haddress, rfl⟩ :
        ∃ cs, Scanner.text? f = some cs ∧ ∃ a, address? cs = some a ∧ some a = found := by
      simpa [Option.bind_eq_some_iff, Option.map_eq_some_iff] using h
    have hne : f ≠ [] := fun hnil => hf hnil
    simp [gives_iff, htext, haddress, hne]

theorem ofFields?_of_drop {localField : Bytes} {rest : List Bytes}
    (h : fields.drop 3 = localField :: rest) :
    ofFields? fields = (Scanner.text? localField).bind fun cs => (splitLocal? cs).bind fun p =>
      (optional? rest.head?).bind fun gateway =>
        ((((rest.drop 1).take 2).filter (!·.isEmpty)).mapM fun f =>
          (Scanner.text? f).bind address?).bind fun dns =>
          some { address := p.1, prefixLength := p.2, gateway, dns } := by
  unfold ofFields?
  rw [h]
  refine bind_congr fun cs => bind_congr fun p => ?_
  match rest.head? with
  | none => rfl
  | some [] => rfl
  | some (_ :: _) => rfl

/-- The fields of the name servers are the two behind the gateway, as far as they are not empty. -/
theorem mem_servers_iff {rest : List Bytes} {f : Bytes} :
    f ∈ ((rest.drop 1).take 2).filter (!·.isEmpty) ↔
    (rest[1]? = some f ∨ rest[2]? = some f) ∧ f ≠ [] := by
  have htwo : f ∈ (rest.drop 1).take 2 ↔ rest[1]? = some f ∨ rest[2]? = some f := by
    match rest with
    | [] => simp
    | [_] => simp
    | [_, _] => simp [eq_comm]
    | _ :: _ :: _ :: _ => simp [eq_comm]
  rw [List.mem_filter, htwo]
  simp

/-! ## Where settings come from

From a line that is read, its settings are traced to the fields they come from, all at once.  What
is wrong with the settings is then wrong with one of the fields. -/

/-- Where the settings of a line come from. -/
structure ComeFrom (fields : List Bytes) (s : IpSettings) : Prop where
  place : ∃ field, placeOf? fields = some field ∧ Reads field s.address s.prefixLength
  gateway : ∀ address, s.gateway = some address ↔ Gives fields[4]? address
  dns : ∀ address, address ∈ s.dns ↔ Gives fields[5]? address ∨ Gives fields[6]? address

/-- The settings of a line come from its fields. -/
theorem comeFrom (h : ofFields? fields = some s) : ComeFrom fields s := by
  cases hdrop : fields.drop 3 with
  | nil =>
    unfold ofFields? at h
    rw [hdrop] at h
    cases h
  | cons localField rest =>
    -- the fields of the statement are counted from the front, those of the reader from the fourth
    -- on
    have hget : ∀ i, fields[3 + i]? = (localField :: rest)[i]? :=
      fun i => by rw [← hdrop, List.getElem?_drop]
    rw [ofFields?_of_drop hdrop] at h
    simp only [Option.bind_eq_some_iff, Option.some.injEq] at h
    obtain ⟨field, htext, ⟨place, length⟩, hlocal, gateway, hgateway, dns, hdns, rfl⟩ := h
    refine ⟨⟨field, ?_, splitLocal?_eq_some_iff.mp hlocal⟩, fun server => ?_, fun server => ?_⟩
    · rw [placeOf?, hget 0]
      exact htext
    · have hhead : fields[4]? = rest.head? := (hget 1).trans List.head?_eq_getElem?.symm
      rw [hhead]
      exact optional?_eq_some hgateway
    · have hfive : fields[5]? = rest[1]? := hget 2
      have hsix : fields[6]? = rest[2]? := hget 3
      simp only [mem_of_mapM hdns, mem_servers_iff, hfive, hsix, gives_iff, or_and_right,
        exists_or, and_assoc]

/-- The empty address is the one of an empty text. -/
theorem gives_empty_iff {field : Option Bytes} : Gives field "" ↔ Shows field [] := by
  constructor
  · rintro ⟨cs, hshows, haddress⟩
    obtain rfl := ofList_eq_empty (address?_eq_some.mp haddress).2.symm
    exact hshows
  · intro h
    exact ⟨[], h, rfl⟩

/-! ## Well-formed settings

A reply is read line by line, so its settings are well formed just if those of each line are. -/

/-- Settings are well formed just if nothing is wrong with their line. -/
theorem wellFormed_iff (h : ofFields? fields = some s) : s.WellFormed ↔ ¬ Flawed fields := by
  obtain ⟨⟨field, hplace, hreads⟩, hgateway, hdns⟩ := comeFrom h
  have hlong := hreads.oversized_iff
  have hnamed := hreads.eq_empty_iff
  constructor
  · intro hwell hflawed
    -- each flaw spoils the part of the settings that is read from its place
    cases hflawed with
    | nameless place =>
      obtain rfl := Option.some.inj (hplace.symm.trans place)
      exact hwell.address (hnamed.mpr ⟨_, rfl⟩)
    | oversized place slash colon number long =>
      obtain rfl := Option.some.inj (hplace.symm.trans place)
      obtain ⟨hfree, hmany⟩ := hlong.mpr ⟨_, _, _, rfl, slash, colon, number, long⟩
      exact absurd (hwell.ipv4 hfree) (Nat.not_le.mpr hmany)
    | blank place blank =>
      simp only [List.mem_cons, List.not_mem_nil, or_false] at place
      rcases place with rfl | rfl | rfl
      · exact hwell.gateway ((hgateway "").mpr (gives_empty_iff.mpr blank))
      · exact hwell.dns ((hdns "").mpr (.inl (gives_empty_iff.mpr blank)))
      · exact hwell.dns ((hdns "").mpr (.inr (gives_empty_iff.mpr blank)))
  · intro hsound
    -- and each part that is spoilt comes from a flaw
    refine ⟨fun hempty => ?_, fun hempty => ?_, fun hempty => ?_, hreads.length_le, fun hfree => ?_⟩
    · obtain ⟨n, rfl⟩ := hnamed.mp hempty
      exact hsound (.nameless hplace)
    · exact hsound (.blank (by decide) (gives_empty_iff.mp ((hgateway "").mp hempty)))
    · rcases (hdns "").mp hempty with hfive | hsix
      · exact hsound (.blank (by decide) (gives_empty_iff.mp hfive))
      · exact hsound (.blank (by decide) (gives_empty_iff.mp hsix))
    · refine Nat.le_of_not_lt fun hmany => ?_
      obtain ⟨a, n, k, rfl, hslash, hcolon, hk, hover⟩ := hlong.mp ⟨hfree, hmany⟩
      exact hsound (.oversized hplace hslash hcolon hk hover)

/-- The fields of a line of the reply. -/
def fieldsOf? (line : Bytes) : Option (List Bytes) :=
  Scanner.taggedFields? (ofString "+CGCONTRDP:") 8 line

section

variable {reply : Bytes} {all : List IpSettings}

/-- Every line gives settings. -/
theorem mem_readAll? (h : readAll? reply = some all) :
    (∀ s, s ∈ all ↔ ∃ line ∈ Scanner.lines reply, (fieldsOf? line).bind ofFields? = some s) ∧
      ∀ line ∈ Scanner.lines reply, ((fieldsOf? line).bind ofFields?).isSome := by
  unfold readAll? at h
  obtain ⟨found, hfound, hall⟩ := Option.bind_eq_some_iff.mp h
  split at hall
  · cases hall
  · obtain rfl := Option.some.inj hall
    exact ⟨fun s => mem_of_mapM hfound, isSome_mapM.mp (Option.isSome_of_eq_some hfound)⟩

/-- **When settings that are read are well formed.**  The settings of a reply that is read are those
of its lines, and no prefix is longer than 128.  They are well formed but for three slips: nothing
in front of the slash of an address, a prefix longer than 32 behind an address without colons, and a
gateway or a name server of blanks alone. -/
theorem read_wellFormed_iff (h : readAll? reply = some all) :
    (∀ s ∈ all, s.prefixLength ≤ 128) ∧
    (∀ s, s ∈ all ↔ ∃ line ∈ Scanner.lines reply, ∃ fields, fieldsOf? line = some fields ∧
      ofFields? fields = some s ∧
      (s.WellFormed ↔ ¬ Flawed fields)) ∧
    ((∀ s ∈ all, s.WellFormed) ↔
      ∀ line ∈ Scanner.lines reply, ∀ fields, fieldsOf? line = some fields → ¬ Flawed fields) := by
  -- all parts of the statement go by the line that the settings were read from
  have hmem : ∀ s, s ∈ all ↔ ∃ line ∈ Scanner.lines reply, ∃ fields, fieldsOf? line = some fields ∧
      ofFields? fields = some s ∧ (s.WellFormed ↔ ¬ Flawed fields) := by
    intro s
    rw [(mem_readAll? h).1 s]
    constructor
    · rintro ⟨line, hline, hread⟩
      obtain ⟨fields, hfields, hs⟩ := Option.bind_eq_some_iff.mp hread
      exact ⟨line, hline, fields, hfields, hs, wellFormed_iff hs⟩
    · rintro ⟨line, hline, fields, hfields, hs, -⟩
      exact ⟨line, hline, Option.bind_eq_some_iff.mpr ⟨fields, hfields, hs⟩⟩
  refine ⟨fun s hs => ?_, hmem, fun hwell line hline fields hfields => ?_, fun hsound s hs => ?_⟩
  · obtain ⟨_, _, fields, -, hread, -⟩ := (hmem s).mp hs
    obtain ⟨field, -, hreads⟩ := (comeFrom hread).place
    exact hreads.length_le
  · obtain ⟨s, hread⟩ := Option.isSome_iff_exists.mp ((mem_readAll? h).2 line hline)
    rw [hfields, Option.bind_some] at hread
    exact (wellFormed_iff hread).mp
      (hwell s ((hmem s).mpr ⟨line, hline, fields, hfields, hread, wellFormed_iff hread⟩))
  · obtain ⟨line, hline, fields, hfields, -, hiff⟩ := (hmem s).mp hs
    exact hiff.mpr (hsound line hline fields hfields)

end

/-- Nothing is wrong with a line in which an empty field stands for a gateway. -/
theorem read_wellFormed_iff_plain :
    readAll? (ofString "+CGCONTRDP: 1,5,\"internet\",\"10.0.0.2\",\"\",\"8.8.8.8\"") =
        some [{ address := "10.0.0.2", prefixLength := 0, gateway := none, dns := ["8.8.8.8"] }] ∧
      ∀ line ∈ Scanner.lines
        (ofString "+CGCONTRDP: 1,5,\"internet\",\"10.0.0.2\",\"\",\"8.8.8.8\""),
        ∀ fields, fieldsOf? line = some fields → ¬ Flawed fields := by
  have hread : readAll? (ofString "+CGCONTRDP: 1,5,\"internet\",\"10.0.0.2\",\"\",\"8.8.8.8\"") =
      some [{ address := "10.0.0.2", prefixLength := 0, gateway := none, dns := ["8.8.8.8"] }] := by
        decide +kernel
  exact ⟨hread, (read_wellFormed_iff hread).2.2.mp
    (List.forall_mem_singleton.mpr ⟨by decide, by decide, by decide, by decide, by decide⟩)⟩

/-- A gateway of blanks is an address of nothing, and so is what stands in front of a slash at the
beginning.  The prefix of an IPv4 address may be any that IPv6 allows. -/
theorem slips_read :
    readAll? (ofString "+CGCONTRDP: 1,5,\"internet\",\"10.0.0.2\",\" \"") =
        some [{ address := "10.0.0.2", prefixLength := 0, gateway := some "", dns := [] }] ∧
      readAll? (ofString "+CGCONTRDP: 1,5,\"internet\",\"10.0.0.2\",\"\",\" \"") =
        some [{ address := "10.0.0.2", prefixLength := 0, gateway := none, dns := [""] }] ∧
      readAll? (ofString "+CGCONTRDP: 1,5,\"internet\",\"/24\"") =
        some [{ address := "", prefixLength := 24, gateway := none, dns := [] }] ∧
      readAll? (ofString "+CGCONTRDP: 1,5,\"internet\",\"10.0.0.1/64\"") =
        some [{ address := "10.0.0.1", prefixLength := 64, gateway := none, dns := [] }] ∧
      ¬ ∀ reply all, readAll? reply = some all → ∀ s ∈ all, s.WellFormed := by
  have hgateway : readAll? (ofString "+CGCONTRDP: 1,5,\"internet\",\"10.0.0.2\",\" \"") =
      some [{ address := "10.0.0.2", prefixLength := 0, gateway := some "", dns := [] }] := by
        decide +kernel
  refine ⟨hgateway, by decide +kernel, by decide +kernel, by decide +kernel, fun h => ?_⟩
  exact (h _ _ hgateway _ List.mem_cons_self).gateway rfl

end Cellular.IpSettings
