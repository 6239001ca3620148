import Cellular.Proofs.Grammar.Listing
import Cellular.Proofs.Grammar.Scanner
import Cellular.Proofs.Text.Blank
import Cellular.Proofs.Text.Listed
import Cellular.Reply.IpSettings
/-!
# IP settings are read as they are written

`IpSettings.Entry` is what a modem has to say on one address family, and `Entry.line` is how it says
it: the context and its access point, the address with its mask or its prefix length, the gateway
and two name servers, each of which may be missing.  One or two such lines are read as the settings
that they report (`replies_come_back`).

The fields come apart because all that is not a number stands between quotation marks
(`Scanner.fields_intercalate`), and the lines because nothing in a field breaks them (`Plain`).  The
field of the address is read in `Local.splitLocal?_field`: octets are read by the first eight of
them (`splitLocal?_octets`), and a mask whose bits are set from the highest on has as many of them
as its prefix is long (`sum_maskOctets`).

In outline:

1. Dotted numbers and masks, as texts: where dots stand, the parts come apart, and the bits of a
   mask are counted octet by octet.
2. Lines: texts between quotation marks, behind two numbers.  Here nothing is known of the texts but
   that they do not break the line.
3. What a modem reports, as data with the proofs that it can be written.
4. Addresses and fields: each text is read back as what it was written from, by the form of the
   address.
5. Replies: a line gives the settings of its entry, and lines come apart.
-/

namespace Cellular.IpSettings

open Bytes

/-! ## Dotted numbers

A text with separators comes apart at them, if there is none inside its parts.  Numbers have digits
only, so dots always separate. -/

/-- Numbers with dots between them. -/
def dotted (ns : List Nat) : List Char := ['.'].intercalate (ns.map (Nat.toDigits 10))

/-- A text without the separator is one part. -/
theorem splitAt_of_not_mem {sep : Char} {p : List Char} (h : sep ∉ p) : splitAt sep p = [p] := by
  induction p with
  | nil => rfl
  | cons c p ih =>
    have hc : c ≠ sep := Ne.symm (List.ne_of_not_mem_cons h)
    have hp : sep ∉ p := List.not_mem_of_not_mem_cons h
    rw [splitAt, if_neg hc, ih hp]

/-- The first part ends at the first separator. -/
theorem splitAt_append {sep : Char} {p : List Char} (h : sep ∉ p) (rest : List Char) :
    splitAt sep (p ++ sep :: rest) = p :: splitAt sep rest := by
  induction p with
  | nil => exact if_pos rfl
  | cons c p ih =>
    have hc : c ≠ sep := Ne.symm (List.ne_of_not_mem_cons h)
    have hp : sep ∉ p := List.not_mem_of_not_mem_cons h
    rw [List.cons_append, splitAt, if_neg hc, ih hp]

/-- Parts with separators between them are told apart. -/
theorem splitAt_intercalate {sep : Char} {parts : List (List Char)} (hne : parts ≠ [])
    (h : ∀ p ∈ parts, sep ∉ p) :
    splitAt sep ([sep].intercalate parts) = parts := by
  induction parts with
  | nil => exact absurd rfl hne
  | cons p parts ih =>
    obtain ⟨hp, hparts⟩ := List.forall_mem_cons.mp h
    cases parts with
    | nil => rw [List.intercalate_singleton, splitAt_of_not_mem hp]
    | cons q parts =>
      rw [List.intercalate_cons_cons, List.append_assoc, List.singleton_append, splitAt_append hp,
        ih nofun hparts]

/-- In dotted numbers there are digits and dots. -/
theorem mem_dotted {ns : List Nat} {c : Char} (h : c ∈ dotted ns) : c = '.' ∨ c.isDigit = true := by
  rcases mem_intercalate h with hdot | ⟨part, hpart, hc⟩
  · exact .inl hdot
  · obtain ⟨n, -, rfl⟩ := List.mem_map.mp hpart
    exact .inr (Decimal.isDigit_of_mem_toDigits hc)

/-- The numbers of dotted numbers. -/
theorem splitAt_dotted {ns : List Nat} (hne : ns ≠ []) :
    splitAt '.' (dotted ns) = ns.map (Nat.toDigits 10) := by
  refine splitAt_intercalate (by simpa using hne) ?_
  rintro p hp hdot
  obtain ⟨n, -, rfl⟩ := List.mem_map.mp hp
  exact absurd (Decimal.isDigit_of_mem_toDigits hdot) (by decide)

/-! ## Masks

A prefix length stands for a mask with so many bits set from the highest on.  The reader counts bits
and does not look where they are, so what has to be shown is that the count comes out right, octet
by octet. -/

/-- The octets of a mask in which so many bits are set, from the highest on. -/
def maskOctets (length : Nat) : List Nat :=
  (List.range 4).map fun i => 255 - 255 >>> min 8 (length - 8 * i)

/-- An octet with so many bits set from the highest on has as many set bits. -/
theorem setBits_high {k : Nat} (h : k ≤ 8) : setBits (255 - 255 >>> k) = k := by
  have hall : ∀ k < 9, setBits (255 - 255 >>> k) = k := by decide
  exact hall k (by omega)

/-- The bits of a mask are as many as its prefix is long. -/
theorem sum_maskOctets {length : Nat} (h : length ≤ 32) :
    ((maskOctets length).map setBits).foldl (· + ·) 0 = length := by
  have hbits : (maskOctets length).map setBits = (List.range 4).map fun i =>
      min 8 (length - 8 * i) := by
    rw [maskOctets, List.map_map]
    exact List.map_congr_left fun i _ => setBits_high (Nat.min_le_left 8 _)
  rw [hbits]
  simp only [List.range, List.range.loop, List.map_cons, List.map_nil, List.foldl_cons,
    List.foldl_nil]
  omega

/-- A number of one octet is read as the count of its bits. -/
theorem maskBits?_toDigits {n : Nat} (h : n < 256) :
    maskBits? (Nat.toDigits 10 n) = some (setBits n) := by
  have hwhole : Decimal.whole? Decimal.octet (Decimal.digits n) = some n := Decimal.whole?_digits h
  rw [maskBits?, ← Decimal.digits, hwhole, Option.map_some]

theorem maskOctets_lt {length n : Nat} (h : n ∈ maskOctets length) : n < 256 := by
  obtain ⟨i, -, rfl⟩ := List.mem_map.mp h
  exact Nat.lt_of_le_of_lt (Nat.sub_le 255 _) (by decide)

/-! ## Lines of quoted texts

What makes a text fit for a line is that it has no quotation mark and no line break (`Plain`).  It
may have commas and spacing in it. -/

/-- Octets that can stand between quotation marks on a line. -/
def Plain (bs : Bytes) : Prop := quote ∉ bs ∧ 13 ∉ bs ∧ 10 ∉ bs

instance (bs : Bytes) : Decidable (Plain bs) := inferInstanceAs (Decidable (_ ∧ _))

/-- Quotation marks around a text do not break the line either. -/
theorem Plain.marked_unbroken {bs : Bytes} (h : Plain bs) :
    ∀ b ∈ Scanner.marked bs, isLineBreak b = false := by
  intro b hb
  refine Bool.eq_false_iff.mpr fun hbreak => ?_
  have hline : b = 13 ∨ b = 10 := by simpa [isLineBreak] using hbreak
  obtain ⟨-, hreturn, hfeed⟩ := h
  rcases hline with rfl | rfl
  · simp [Scanner.marked, hreturn, quote] at hb
  · simp [Scanner.marked, hfeed, quote] at hb

/-- A line with texts between quotation marks, behind the numbers of a context and of a bearer. -/
def written (cid bearer : Nat) (texts : List Bytes) : Bytes :=
  ofString "+CGCONTRDP" ++ 58 :: 32 :: (Decimal.digits cid ++ 44 :: (Decimal.digits bearer ++ 44 ::
    [44].intercalate (texts.map Scanner.marked)))

section

variable {cid bearer : Nat} {texts : List Bytes}

/-- Nothing breaks the line if nothing in the texts does. -/
theorem written_isLine (h : ∀ text ∈ texts, Plain text) :
    Scanner.IsLine (written cid bearer texts) := by
  -- no part of the line has a line break: header, numbers, commas, texts
  have hheader : ∀ b ∈ ofString "+CGCONTRDP" ++ [58, 32], isLineBreak b = false := by
    have hall : (ofString "+CGCONTRDP" ++ [58, 32]).all (!isLineBreak ·) = true := by decide
    intro b hb
    simpa using List.all_eq_true.mp hall b hb
  have hcomma : ∀ b ∈ ([44] : Bytes), isLineBreak b = false := List.forall_mem_singleton.mpr rfl
  have hnumber : ∀ n, ∀ b ∈ Decimal.digits n, isLineBreak b = false := fun n b hb =>
    Decimal.forall_digit (P := fun b => isLineBreak b = false) (by decide)
      (Decimal.isDigit_of_mem_digits hb)
  have htexts : ∀ b ∈ [44].intercalate (texts.map Scanner.marked), isLineBreak b = false := by
    intro b hb
    rcases mem_intercalate hb with rfl | ⟨part, hpart, hmem⟩
    · rfl
    · obtain ⟨text, htext, rfl⟩ := List.mem_map.mp hpart
      exact (h text htext).marked_unbroken b hmem
  have hjoined :
    ∀ b ∈ (ofString "+CGCONTRDP" ++ [58, 32]) ++
      (Decimal.digits cid ++ ([44] ++ (Decimal.digits bearer ++
      ([44] ++ [44].intercalate (texts.map Scanner.marked))))), isLineBreak b = false :=
    List.forall_mem_append.mpr
      ⟨hheader, List.forall_mem_append.mpr
        ⟨hnumber cid, List.forall_mem_append.mpr
          ⟨hcomma, List.forall_mem_append.mpr
            ⟨hnumber bearer, List.forall_mem_append.mpr ⟨hcomma, htexts⟩⟩⟩⟩⟩
  exact ⟨hjoined, rfl⟩

/-! ## What is read of a line

The two numbers in front are read as bare fields, and each text as a quoted one. -/

/-- The texts come apart. -/
theorem fields_written (hne : texts ≠ []) (hlength : texts.length ≤ 6)
    (h : ∀ text ∈ texts, Plain text) :
    Scanner.taggedFields? (ofString "+CGCONTRDP:") 8 (written cid bearer texts) =
      some (Decimal.digits cid :: Decimal.digits bearer :: texts) := by
  have htag : ofString "+CGCONTRDP:" = ofString "+CGCONTRDP" ++ [58] := by decide
  have hname : (ofString "+CGCONTRDP").head?.all (!isPad ·) = true ∧
      ofString "+CGCONTRDP" ≠ [] := by decide
  have htexts : Scanner.item? (Scanner.fields 6) ([44].intercalate (texts.map Scanner.marked)) =
      some texts :=
    Scanner.fields_intercalate hne hlength fun text htext => (h text htext).1
  have hmarked : Parts isPad ([44].intercalate (texts.map Scanner.marked)) := by
    obtain ⟨text, rest, rfl⟩ := List.exists_cons_of_ne_nil hne
    cases rest <;> exact parts_cons rfl
  have hbearer :
      Parts isPad (Decimal.digits bearer ++ 44 :: [44].intercalate (texts.map Scanner.marked)) :=
    (Scanner.parts_pad_digits bearer).append (Decimal.digits_ne_nil bearer)
  rw [htag, written, Scanner.taggedFields?_header (parts_of_head hname.1) hname.2
    ((Scanner.parts_pad_digits cid).append (Decimal.digits_ne_nil cid)), Scanner.fields_digits,
    Scanner.skipPads_parts hbearer, Scanner.fields_digits, Scanner.skipPads_parts hmarked, htexts]
  rfl

/-- A reply of one such line reports what its fields give. -/
theorem readAll?_written (hne : texts ≠ []) (hlength : texts.length ≤ 6)
    (h : ∀ text ∈ texts, Plain text) :
    readAll? (written cid bearer texts) =
      (ofFields? (Decimal.digits cid :: Decimal.digits bearer :: texts)).map ([·]) := by
  have hlines : Scanner.lines (lineEnd.intercalate [written cid bearer texts]) =
      [written cid bearer texts] :=
    Scanner.lines_intercalate (List.forall_mem_singleton.mpr (written_isLine h))
  rw [List.intercalate_singleton] at hlines
  rw [readAll?, hlines, List.mapM_cons, fields_written hne hlength h, Option.bind_some]
  cases ofFields? (Decimal.digits cid :: Decimal.digits bearer :: texts) <;> rfl

end

/-! ## What a modem reports

Reports are built so that only those can be written down that a modem can send: an address carries
the proof that it is plain, not blank at its ends and within the capacity, and an entry that its
access point is plain.  So the theorem about replies has no hypotheses about texts. -/

/-- A text that may stand for an address between quotation marks. -/
structure IsAddress (s : String) : Prop where
  nonempty : s.toList ≠ []
  trimmed : Text.trim s.toList = s.toList
  plain : Plain (ofString s)
  length : (ofString s).length ≤ addressCapacity

/-- An address as a modem reports it. -/
abbrev Address := { s : String // IsAddress s }

/-- An address with the size of the network around it. -/
inductive Local where
  /-- Four octets, and how many bits of the mask are set. -/
  | v4 (a b c d : UInt8) (length : Fin 33)
  | v6 (address : Address) (length : Fin 129) (colon : ':' ∈ address.val.toList)
      (slash : '/' ∉ address.val.toList)

namespace Local

/-- The text of the address. -/
def address : Local → String
  | v4 a b c d _ => String.ofList (dotted [a.toNat, b.toNat, c.toNat, d.toNat])
  | v6 address _ _ _ => address.val

/-- The size of the network, as a prefix length. -/
def prefixLength : Local → Nat
  | v4 _ _ _ _ length => length
  | v6 _ length _ _ => length

/-- Both as they are written in one field. -/
def field : Local → List Char
  | v4 a b c d length => dotted ([a.toNat, b.toNat, c.toNat, d.toNat] ++ maskOctets length)
  | v6 address length _ _ => address.val.toList ++ '/' :: Nat.toDigits 10 length

end Local

/-- What is reported on one address family. -/
structure Entry where
  cid : Nat
  bearer : Nat
  /-- The access point, in any octets that can stand between quotation marks. -/
  apn : Bytes
  apn_plain : Plain apn
  place : Local
  gateway : Option Address
  primary : Option Address
  secondary : Option Address

namespace Entry

/-- The settings that are reported. -/
def settings (e : Entry) : IpSettings where
  address := e.place.address
  prefixLength := e.place.prefixLength
  gateway := e.gateway.map (·.val)
  dns := [e.primary, e.secondary].filterMap (·.map (·.val))

/-- An address that may be missing, as it is written. -/
def octets (address : Option Address) : Bytes := (address.map fun a => ofString a.val).getD []

/-- What is written between quotation marks. -/
def texts (e : Entry) : List Bytes :=
  [e.apn, ofChars e.place.field, octets e.gateway, octets e.primary, octets e.secondary]

/-- The entry as it is written. -/
def line (e : Entry) : Bytes :=
  ofString "+CGCONTRDP" ++
    58 :: 32 :: (Decimal.digits e.cid ++ 44 :: (Decimal.digits e.bearer ++ 44 ::
    [44].intercalate (e.texts.map Scanner.marked)))

example :
    line
        { cid := 1, bearer := 5, apn := ofString "internet", apn_plain := by decide,
          place := .v4 10 0 0 2 30, gateway := none,
          primary := some ⟨"8.8.8.8", by decide, by decide, by decide, by decide⟩,
          secondary := none } =
      ofString
        "+CGCONTRDP: 1,5,\"internet\",\"10.0.0.2.255.255.255.252\",\"\",\"8.8.8.8\",\"\"" := by
  decide +kernel

end Entry

/-! ## Addresses are read

An address with its network is written in one of two ways, and which one it is shows by the slash.
Dotted octets have no slash and no colon in them, and their number tells whether a mask follows. -/

theorem address?_of_length {cs : List Char} (h : (ofChars cs).length ≤ addressCapacity) :
    address? cs = some (String.ofList cs) := if_pos h

theorem IsAddress.address? {s : String} (h : IsAddress s) : address? s.toList = some s := by
  rw [address?_of_length h.length, String.ofList_toList]

/-- The octets of an address are read as its characters. -/
theorem IsAddress.text? {s : String} (h : IsAddress s) :
    Scanner.text? (ofString s) = some s.toList := by
  rw [Scanner.text?, ofString, chars?_ofChars, Option.map_some, h.trimmed]

theorem IsAddress.octets_ne_nil {s : String} (h : IsAddress s) : ofString s ≠ [] :=
  ofChars_ne_nil h.nonempty

theorem ascii_of_isDigit {c : Char} (h : c.isDigit = true) : c.toNat ≤ 57 := by
  simp only [Char.isDigit, Bool.and_eq_true, decide_eq_true_eq] at h
  exact UInt32.le_iff_toNat_le.mp h.2

/-- Dotted octets take four characters each at most. -/
theorem length_dotted {ns : List Nat} (h : ∀ n ∈ ns, n < 256) :
    (ofChars (dotted ns)).length ≤ 4 * ns.length := by
  have hascii : ∀ x ∈ dotted ns, x.toNat ≤ 127 := by
    intro x hx
    rcases mem_dotted hx with rfl | hdigit
    · decide
    · exact Nat.le_trans (ascii_of_isDigit hdigit) (by decide)
  rw [length_ofChars hascii]
  clear hascii
  -- three digits and a full stop for each number
  induction ns with
  | nil => exact Nat.le_refl 0
  | cons n ns ih =>
    obtain ⟨hn, hns⟩ := List.forall_mem_cons.mp h
    have hthree : (Nat.toDigits 10 n).length ≤ 3 :=
      (Nat.length_toDigits_le_iff (by decide) (by decide)).mpr (Nat.lt_trans hn (by decide))
    cases ns with
    | nil =>
      have hsingle : dotted [n] = Nat.toDigits 10 n := List.intercalate_singleton
      rw [hsingle, List.length_singleton]
      omega
    | cons m ns =>
      have hrest := ih hns
      have hcons : dotted (n :: m :: ns) = Nat.toDigits 10 n ++ '.' :: dotted (m :: ns) := by
        simp [dotted, List.intercalate_cons_cons]
      rw [hcons, List.length_append, List.length_cons, List.length_cons (a := n)]
      omega

/-- Nothing but dots and digits is in dotted numbers. -/
theorem not_mem_dotted {ns : List Nat} {c : Char} (hdot : c ≠ '.') (hdigit : c.isDigit = false) :
    c ∉ dotted ns := by
  intro h
  rcases mem_dotted h with h | h
  · exact hdot h
  · rw [hdigit] at h
    cases h

theorem contains_eq_false {c : Char} {cs : List Char} (h : c ∉ cs) : cs.contains c = false := by
  rw [Bool.eq_false_iff]
  exact fun hc => h (List.contains_iff_mem.mp hc)

section

variable {field : List Char}

/-- The parts of a field in front, as an address. -/
def front (field : List Char) : List Char := ['.'].intercalate ((splitAt '.' field).take 4)

/-- The parts behind those, as a mask. -/
def maskParts (field : List Char) : List (List Char) := ((splitAt '.' field).drop 4).take 4

/-- What stands in front of a slash is an address, and what stands behind it the length of a
prefix. -/
theorem splitLocal?_slash {a n : List Char} (h : '/' ∉ a) :
    splitLocal? (a ++ '/' :: n) = (address? a).bind fun address =>
      (Decimal.whole? Decimal.word32 (ofChars n)).map fun length => (address, min length 128) := by
  have hcontains : (a ++ '/' :: n).contains '/' = true := by simp
  have hclass : ∀ c ∈ a, (c != '/') = true := fun c hc => bne_iff_ne.mpr fun heq => h (heq ▸ hc)
  have hfront : (a ++ '/' :: n).takeWhile (· != '/') = a := by
    rw [List.takeWhile_append_of_pos hclass]
    simp
  have hback : ((a ++ '/' :: n).dropWhile (· != '/')).drop 1 = n := by
    rw [List.dropWhile_append_of_pos hclass]
    simp
  rw [splitLocal?, if_pos hcontains, hfront, hback]
  cases Decimal.whole? Decimal.word32 (ofChars n) <;> rfl

/-- Eight parts, or more, are an address and a mask.  Nobody looks at the ninth. -/
theorem splitLocal?_masked (hslash : '/' ∉ field) (hcolon : ':' ∉ field)
    (h : 8 ≤ (splitAt '.' field).length) :
    splitLocal? field = (address? (front field)).bind fun address =>
      ((maskParts field).mapM maskBits?).map fun bits => (address, bits.foldl (· + ·) 0) := by
  rw [splitLocal?, contains_eq_false hslash, contains_eq_false hcolon, front, maskParts]
  match splitAt '.' field, h with
  | a :: b :: c :: d :: m :: n :: o :: p :: rest, _ =>
    have hjoined : ['.'].intercalate [a, b, c, d] = a ++ '.' :: b ++ '.' :: c ++ '.' :: d := by
      simp [List.intercalate_cons_cons]
    simp only [Bool.false_eq_true, if_false, List.take_succ_cons, List.take_zero,
      List.drop_succ_cons, List.drop_zero, hjoined]
    cases [m, n, o, p].mapM maskBits? <;> rfl

end

/-- Four octets and the octets of a mask. -/
theorem splitLocal?_octets {ns : List Nat} (h : ∀ n ∈ ns, n < 256) (hlength : 8 ≤ ns.length) :
    splitLocal? (dotted ns) =
      some (String.ofList (dotted (ns.take 4)),
        (((ns.drop 4).take 4).map setBits).foldl (· + ·) 0) := by
  have hslash : '/' ∉ dotted ns := not_mem_dotted (by decide) (by decide)
  have hcolon : ':' ∉ dotted ns := not_mem_dotted (by decide) (by decide)
  have hparts : splitAt '.' (dotted ns) = ns.map (Nat.toDigits 10) :=
    splitAt_dotted (List.ne_nil_of_length_pos (Nat.lt_of_lt_of_le (by decide) hlength))
  have hfront : front (dotted ns) = dotted (ns.take 4) := by
    rw [front, hparts, dotted, List.map_take]
  have haddress : address? (dotted (ns.take 4)) = some (String.ofList (dotted (ns.take 4))) := by
    refine address?_of_length
      (Nat.le_trans (length_dotted fun n hn => h n (List.mem_of_mem_take hn)) ?_)
    rw [List.length_take, addressCapacity]
    omega
  have hbits : (maskParts (dotted ns)).mapM maskBits? =
      some (((ns.drop 4).take 4).map setBits) := by
    rw [maskParts, hparts, ← List.map_drop, ← List.map_take]
    exact mapM_written fun n hn =>
      maskBits?_toDigits (h n (List.mem_of_mem_drop (List.mem_of_mem_take hn)))
  -- four parts for the address, the next four for the mask, and the others are dropped
  rw [splitLocal?_masked hslash hcolon (by rwa [hparts, List.length_map]), hfront, haddress, hbits]
  rfl

/-- Four octets with their mask. -/
theorem splitLocal?_v4 {a b c d length : Nat} (h : ∀ n ∈ [a, b, c, d], n < 256)
    (hlength : length ≤ 32) :
    splitLocal? (dotted ([a, b, c, d] ++ maskOctets length)) =
      some (String.ofList (dotted [a, b, c, d]), length) := by
  have hoctets : ∀ n ∈ [a, b, c, d] ++ maskOctets length, n < 256 :=
    List.forall_mem_append.mpr ⟨h, fun n => maskOctets_lt⟩
  rw [splitLocal?_octets hoctets (Nat.le_refl 8)]
  exact congrArg (fun n => some (_, n)) (sum_maskOctets hlength)

/-- A text with a prefix length. -/
theorem splitLocal?_v6 {s : String} (h : IsAddress s) (hslash : '/' ∉ s.toList) {length : Nat}
    (hlength : length ≤ 128) :
    splitLocal? (s.toList ++ '/' :: Nat.toDigits 10 length) = some (s, length) := by
  have hfits : length < Decimal.word32 := Nat.lt_of_le_of_lt hlength (by decide)
  have hwhole : Decimal.whole? Decimal.word32 (ofChars (Nat.toDigits 10 length)) = some length :=
    Decimal.whole?_digits hfits
  rw [splitLocal?_slash hslash, h.address?, hwhole, Option.bind_some, Option.map_some,
    Nat.min_eq_left hlength]

/-- The field is read as the address and the size of the network that it was written from. -/
theorem Local.splitLocal?_field (place : Local) :
    splitLocal? place.field = some (place.address, place.prefixLength) := by
  cases place with
  | v4 a b c d length =>
    refine splitLocal?_v4 ?_ (Nat.le_of_lt_succ length.isLt)
    simp only [List.forall_mem_cons]
    exact ⟨a.toNat_lt, b.toNat_lt, c.toNat_lt, d.toNat_lt, nofun⟩
  | v6 address length _ slash =>
    exact splitLocal?_v6 address.property slash (Nat.le_of_lt_succ length.isLt)

/-! ## Fields are read

Blanks are trimmed off a text before it is read, so it has to be seen that there are none at the
ends of what was written. -/

theorem isBlank_of_isDigit {c : Char} (h : c.isDigit = true) : Text.isBlank c = false := by
  have hlow : 48 ≤ c.toNat := by
    simp only [Char.isDigit, Bool.and_eq_true, decide_eq_true_eq] at h
    exact UInt32.le_iff_toNat_le.mp h.1
  have hhigh : c.toNat ≤ 57 := ascii_of_isDigit h
  simp [Text.isBlank, Text.blankRuns]
  omega

/-- What ends with a number ends with a digit. -/
theorem getLast?_toDigits {n : Nat} {c : Char} {cs : List Char}
    (h : (cs ++ Nat.toDigits 10 n).getLast? = some c) :
    c.isDigit = true := by
  obtain ⟨last, hlast⟩ : ∃ last, (Nat.toDigits 10 n).getLast? = some last :=
    ⟨_, List.getLast?_eq_some_getLast Nat.toDigits_ne_nil⟩
  rw [List.getLast?_append, hlast] at h
  obtain rfl := Option.some.inj h
  exact Decimal.isDigit_of_mem_toDigits (List.mem_of_getLast? hlast)

/-- Nothing is trimmed off numbers and dots. -/
theorem trim_dotted (ns : List Nat) : Text.trim (dotted ns) = dotted ns := by
  have hall : ∀ x ∈ dotted ns, Text.isBlank x = false := by
    intro x hx
    rcases mem_dotted hx with rfl | hdigit
    · decide
    · exact isBlank_of_isDigit hdigit
  exact Text.trim_of_ends (fun x hx => hall x (List.mem_of_mem_head? hx)) fun x hx =>
    hall x (List.mem_of_getLast? hx)

/-- Neither end of the field is blank. -/
theorem Local.trim_field (place : Local) : Text.trim place.field = place.field := by
  cases place with
  | v4 a b c d length => exact trim_dotted _
  | v6 address length _ _ =>
    -- the field begins with a trimmed address and ends in a digit
    obtain ⟨c, cs, hcs⟩ := List.exists_cons_of_ne_nil address.property.nonempty
    have htrim := address.property.trimmed
    rw [hcs] at htrim
    refine Text.trim_of_ends ?_ fun x hx => ?_
    · rw [field, hcs]
      rintro x ⟨⟩
      exact Text.isBlank_of_trim htrim
    · rw [field, List.append_cons] at hx
      exact isBlank_of_isDigit (getLast?_toDigits hx)

/-- The octets of the field are read as its characters. -/
theorem Local.text?_field (place : Local) :
    Scanner.text? (ofChars place.field) = some place.field := by
  rw [Scanner.text?, chars?_ofChars, Option.map_some, place.trim_field]

/-- An octet of ASCII that is no dot, slash or digit, nor in an address, is not in the field. -/
theorem Local.not_mem_octets {place : Local} {b : UInt8} (hb : b < 128)
    (hdot : Char.ofNat b.toNat ≠ '.') (hslash : Char.ofNat b.toNat ≠ '/')
    (hdigit : (Char.ofNat b.toNat).isDigit = false)
    (haddress : ∀ address : Address, b ∉ ofString address.val) : b ∉ ofChars place.field := by
  intro h
  cases place with
  | v4 a b c d length => exact not_mem_dotted hdot hdigit (mem_of_mem_ofChars h hb)
  | v6 address length _ _ =>
    rw [field, ofChars_append, List.mem_append] at h
    rcases h with h | h
    · exact haddress address h
    · rcases List.mem_cons.mp (mem_of_mem_ofChars h hb) with h | h
      · exact hslash h
      · rw [Decimal.isDigit_of_mem_toDigits h] at hdigit
        cases hdigit

/-- There is nothing in the field that ends a quoted field or a line. -/
theorem Local.plain (place : Local) : Plain (ofChars place.field) :=
  ⟨not_mem_octets (by decide) (by decide) (by decide) (by decide) fun address =>
    address.property.plain.1, not_mem_octets (by decide) (by decide) (by decide) (by decide)
      fun address => address.property.plain.2.1,
    not_mem_octets (by decide) (by decide) (by decide) (by decide) fun address =>
      address.property.plain.2.2⟩

namespace Entry

variable (e : Entry)

/-- An address that may be missing is plain. -/
theorem plain_octets (address : Option Address) : Plain (octets address) := by
  cases address with
  | none => exact ⟨List.not_mem_nil, List.not_mem_nil, List.not_mem_nil⟩
  | some address => exact address.property.plain

theorem plain_texts : ∀ text ∈ e.texts, Plain text := by
  simp only [texts, List.forall_mem_cons]
  exact ⟨e.apn_plain, e.place.plain, plain_octets _, plain_octets _, plain_octets _, nofun⟩

/-- Name servers that may be missing are read. -/
theorem servers_octets (addresses : List (Option Address)) :
    ((addresses.map octets).filter (!·.isEmpty)).mapM (fun f => (Scanner.text? f).bind address?) =
      some (addresses.filterMap (·.map (·.val))) := by
  induction addresses with
  | nil => rfl
  | cons address addresses ih =>
    cases address with
    -- an empty field is passed over
    | none => exact ih
    | some address =>
      have hshown : (!(octets (some address)).isEmpty) = true := by
        simpa [octets] using address.property.octets_ne_nil
      have hread : (Scanner.text? (octets (some address))).bind address? = some address.val :=
        (congrArg (Option.bind · address?) address.property.text?).trans address.property.address?
      rw [List.map_cons, List.filter_cons, if_pos hshown, List.mapM_cons, hread, ih]
      rfl

/-! ## Entries and replies

What is left is to put the parts together: the fields of a line are those of its entry, and each
line of a reply is read by itself. -/

/-- The fields of an entry are read. -/
theorem ofFields?_texts (cid bearer : Bytes) :
    ofFields? (cid :: bearer :: e.texts) = some e.settings := by
  have hservers : (([octets e.primary, octets e.secondary].take 2).filter (!·.isEmpty)).mapM
      (fun f => (Scanner.text? f).bind address?) = some e.settings.dns :=
      servers_octets [e.primary, e.secondary]
  simp only [ofFields?, texts, List.drop_succ_cons, List.drop_zero, List.head?_cons,
    e.place.text?_field, e.place.splitLocal?_field, Option.bind_eq_bind, Option.bind_some, hservers]
  cases hgateway : e.gateway with
  | none => simp [octets, settings, hgateway]
  | some address =>
    obtain ⟨b, bs, hbs⟩ := List.exists_cons_of_ne_nil address.property.octets_ne_nil
    have htext : Scanner.text? (b :: bs) = some address.val.toList := hbs ▸ address.property.text?
    have hoctets : octets (some address) = b :: bs := hbs
    simp [hoctets, htext, address.property.address?, settings, hgateway]

theorem isLine : Scanner.IsLine e.line := written_isLine e.plain_texts

theorem fields_line : Scanner.taggedFields? (ofString "+CGCONTRDP:") 8 e.line =
    some (Decimal.digits e.cid :: Decimal.digits e.bearer :: e.texts) :=
  fields_written nofun (show 5 ≤ 6 by decide) e.plain_texts

/-- An entry is read as it is written. -/
theorem read_line :
    (Scanner.taggedFields? (ofString "+CGCONTRDP:") 8 e.line).bind ofFields? = some e.settings := by
  rw [e.fields_line, Option.bind_some, e.ofFields?_texts]

end Entry

/-- A reply is read as it is written: the settings of one or two address families come back as they
were reported, in the order of the reply.  There is no room for more families, and none is not an
answer. -/
theorem replies_come_back (entries : List Entry) :
    readAll? (lineEnd.intercalate (entries.map Entry.line)) =
      if 1 ≤ entries.length ∧ entries.length ≤ 2 then some (entries.map Entry.settings)
      else none := by
  have hlines : Scanner.lines (lineEnd.intercalate (entries.map Entry.line)) =
      entries.map Entry.line := by
    refine Scanner.lines_intercalate fun line hline => ?_
    obtain ⟨e, -, rfl⟩ := List.mem_map.mp hline
    exact e.isLine
  have hread : (entries.map Entry.line).mapM
      (fun line => (Scanner.taggedFields? (ofString "+CGCONTRDP:") 8 line).bind ofFields?) =
        some (entries.map Entry.settings) :=
    mapM_written fun e _ => e.read_line
  rw [readAll?, hlines, hread]
  -- none are refused, one and two fit, and three are too many
  match entries with
  | [] => rfl
  | [_] => rfl
  | [_, _] => rfl
  | _ :: _ :: _ :: _ => simp [listCapacity]

end Cellular.IpSettings
