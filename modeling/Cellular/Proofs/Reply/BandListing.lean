import Cellular.Proofs.Grammar.Scanner
import Cellular.Proofs.Reply.BandMask
/-!
# Where a listing keeps the band mask

A `^SCFG` listing has a line for every setting of the modem.  The bands are read off the first of
them that is a line of bands (`BandLine`), whatever the others are: it has to carry a mask that
selects a band (`currentBands?_eq_some_iff`).

A line of bands carries the mask that it begins with, in decimal with or without quotation marks,
whatever stands behind (`CarriesMask`).

Both directions are needed of every lemma here, since the theorem about writing a mask asks whether
a listing is read at all, and the one about reading asks what a listing that is read looks like.  So
the forms of a line are given as a predicate on its octets and not as a writer.
-/

namespace Cellular

open Bytes Scanner

/-! ## The lines of a listing

The header, the name and the comma are taken off one after another, with the spacing around each,
and what is left is the payload.  A line without one of them gives no payload and is passed over. -/

variable {mask : Nat} {payload line reply : Bytes} {before after : List Bytes} {found : List Band}

/-- The line gives this for the bands: it has the header, the name and a comma in front of it, with
spacing at will. -/
inductive BandLine (payload : Bytes) : Bytes → Prop
  | line {front behindHeader behindName behindComma : Bytes} (hfront : Pads front)
    (hheader : Pads behindHeader)
    (hname : Pads behindName) (hcomma : Pads behindComma) (hpayload : Parts isPad payload) :
    BandLine payload (front ++ (ofString "^SCFG:" ++ (behindHeader ++
      (ofString "\"Radio/Band\"" ++ (behindName ++ 44 :: (behindComma ++ payload))))))

/-- The line gives a mask for the bands. -/
def CarriesMask (mask : Nat) (line : Bytes) : Prop :=
  ∃ payload rest, BandLine payload line ∧ LeadingNumber mask payload rest

/-- What a line gives for the bands. -/
def bandPayload? (line : Bytes) : Option Bytes := do
  let rest ← Scanner.tag (ofString "^SCFG:") line
  let rest ← dropTag? (ofString "\"Radio/Band\"") rest
  Scanner.comma rest

/-- The payload of a listing is the first one that a line gives. -/
theorem radioBandLine?_eq (reply : Bytes) :
    radioBandLine? reply = (Scanner.lines reply).findSome? bandPayload? := rfl

/-- A line gives a payload just if it is a line of bands with that behind its comma. -/
theorem bandPayload?_eq_some_iff : bandPayload? line = some payload ↔ BandLine payload line := by
  have htag : ∀ {rest}, Scanner.tag (ofString "^SCFG:") line = some rest ↔
    Parts isPad rest ∧ ∃ pads pads',
      Pads pads ∧ Pads pads' ∧ line = pads ++ (ofString "^SCFG:" ++ (pads' ++ rest)) :=
    tag_eq_some_iff (parts_of_head (by decide)) (by decide)
  simp only [bandPayload?, Option.bind_eq_bind, Option.bind_eq_some_iff, htag, dropTag?_eq_some_iff,
    comma_eq_some_iff]
  constructor
  · rintro ⟨-, ⟨-, front, behindHeader, hfront, hheader, rfl⟩, -, rfl, hpayload, behindName,
      behindComma, hname, hcomma, rfl⟩
    exact .line hfront hheader hname hcomma hpayload
  · rintro (@⟨front, behindHeader, behindName, behindComma, hfront, hheader, hname,
      hcomma, hpayload⟩)
    have hparts : Parts isPad (ofString "\"Radio/Band\"") := parts_of_head (by decide)
    exact ⟨_, ⟨hparts.append (by decide), front, behindHeader, hfront, hheader, rfl⟩, _, rfl,
      hpayload, behindName, behindComma, hname, hcomma, rfl⟩

/-- The first of the lines of bands tells, whatever there is in front of it that is none, and behind
it. -/
theorem radioBandLine?_eq_some_iff : radioBandLine? reply = some payload ↔
    ∃ before line after, Scanner.lines reply = before ++ line :: after ∧ BandLine payload line ∧
      ∀ other ∈ before, ∀ payload, ¬ BandLine payload other := by
  simp only [radioBandLine?_eq, List.findSome?_eq_some_iff, Option.eq_none_iff_forall_ne_some,
    ne_eq, bandPayload?_eq_some_iff]

/-- A listing is read if its first line of bands carries a mask that selects some. -/
theorem currentBands?_eq_some_iff : currentBands? reply = some found ↔
    ∃ before line after mask, Scanner.lines reply = before ++ line :: after ∧
      (∀ other ∈ before, ∀ payload, ¬ BandLine payload other) ∧ CarriesMask mask line ∧
      mask < Decimal.word32 ∧
      bandsOfMask mask ≠ [] ∧ found = bandsOfMask mask := by
  simp only [currentBands?, Option.bind_eq_bind, Option.bind_eq_some_iff,
    radioBandLine?_eq_some_iff, List.isEmpty_iff]
  constructor
  · rintro ⟨payload, ⟨before, line, after, hlines, hline, hbefore⟩, ⟨mask, rest⟩, hnumber, hfound⟩
    obtain ⟨hfits, hmask⟩ := number_eq_some_iff.mp hnumber
    split at hfound
    · cases hfound
    · rename_i hselects
      exact ⟨before, line, after, mask, hlines, hbefore, ⟨payload, rest, hline, hmask⟩,
        hfits, hselects, (Option.some.inj hfound).symm⟩
  · rintro ⟨before, line, after, mask, hlines, hbefore, ⟨payload, rest, hline, hmask⟩, hfits,
      hselects, rfl⟩
    exact ⟨payload, ⟨before, line, after, hlines, hline, hbefore⟩, (mask, rest),
      number_eq_some_iff.mpr ⟨hfits, hmask⟩, if_neg hselects⟩

end Cellular
