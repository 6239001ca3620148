import Cellular.Proofs.Reply.LocalAddress
import Cellular.Proofs.Vendor.Xmm
/-!
# The address of an XMM bearer

An XMM bearer takes the settings of its connection from the reply of the modem, the address as it is
written there.  An address without colons is one of IPv4, and so a long list of octets, which the
modem has for one of IPv6, is reported as the IPv4 address that it begins with
(`dotted_address_read_iff`).

The address is looked for in the reply by its form, and then the family is told by whether it has a
colon.  So the statement is about texts without a slash and without a colon, for which the form is a
matter of counting parts; what comes of the reply then depends on the families of the bearer alone
(`connection`).
-/

namespace Cellular.Xmm.Bearer

open Operation Bytes IpSettings

variable {field : List Char}

/-- What comes of a request for the settings where the modem reports one address, and that without
colons. -/
def connection (family : Family) : Option (String × Nat) → Except Error ConnectionSettings
  | none => .error (.ofLink .parse)
  | some (address, length) =>
    if family.hasIpv4 then
      .ok { ipv4 := some { address, prefixLength := if length = 0 then 8 else length,
                           gateway := none, dns := [] } }
    else .error (.parse "No IP settings for the requested family")

/-- One address without colons is one of IPv4. -/
theorem reported_singleton {s : IpSettings} (family : Family) (h : ':' ∉ s.address.toList) :
    reported family [s] = if family.hasIpv4 then .ok { ipv4 := some (withNetwork s) } else
      .error (.parse "No IP settings for the requested family") := by
  have hipv6 : isIpv6 s = false := contains_eq_false h
  cases family <;> simp [reported, settingsOf, Family.hasIpv4, Family.hasIpv6, hipv6]

/-- The settings that come of such a reply. -/
theorem outcome_written {cid bearer n : Nat} {apn text : Bytes} (family : Family)
    (hcolon : ':' ∉ field) (hapn : Plain apn) (hplain : Plain text)
    (htext : Scanner.text? text = some field) :
    ((Command.contextSettings n).outcome (.ok (written cid bearer [apn, text]))).bind
      (reported family) =
      connection family (splitLocal? field) := by
  have hplain : ∀ t ∈ [apn, text], Plain t := by simp [hapn, hplain]
  have hfields : ofFields? [Decimal.digits cid, Decimal.digits bearer, apn, text] =
      (splitLocal? field).map fun p =>
        { address := p.1, prefixLength := p.2, gateway := none, dns := [] } := by
    simp only [ofFields?, List.drop_succ_cons, List.drop_zero, htext, Option.bind_eq_bind,
      Option.bind_some]
    cases splitLocal? field <;> rfl
  have hreply : readAll? (written cid bearer [apn, text]) =
      (ofFields? [Decimal.digits cid, Decimal.digits bearer, apn, text]).map ([·]) :=
    readAll?_written (List.cons_ne_nil _ _) (show 2 ≤ 6 by decide) hplain
  have hread : (Command.contextSettings n).read = readAll? := rfl
  rw [Command.outcome, hread, hreply, hfields]
  cases hlocal : splitLocal? field with
  | none => rfl
  | some p =>
    obtain ⟨address, length⟩ := p
    -- the field has no colon, so neither has the address in it
    have hfree : ':' ∉ address.toList := (splitLocal?_eq_some_iff.mp hlocal).colon_free hcolon
    refine (reported_singleton family hfree).trans ?_
    have hnetwork : withNetwork { address, prefixLength := length, gateway := none, dns := [] } =
        { address, prefixLength := if length = 0 then 8 else length,
          gateway := none, dns := [] } := by
      unfold withNetwork
      split <;> rfl
    rw [connection, hnetwork]

/-- **Which addresses without a slash or a colon are read.**  They are those of four parts with dots
between them, and those that begin with four parts and a mask of four octets.  So one that has
neither four nor eight parts is read just if it has more than eight and begins like that, and all
octets do, as many as there are: the address is made of the first four, and the length of the prefix
of the next four.  An XMM bearer for IPv4 reports that address as its own. -/
theorem dotted_address_read_iff (hslash : '/' ∉ field) (hcolon : ':' ∉ field) (m : Bearer)
    (o : Occasion) :
    ((splitLocal? field).isSome ↔ ((splitAt '.' field).length = 4 ∧ Fits field) ∨ Masked field) ∧
    (((splitLocal? field).isSome → (splitAt '.' field).length = 4 ∨
      (splitAt '.' field).length = 8) ↔
      ¬ (9 ≤ (splitAt '.' field).length ∧ Masked field)) ∧
    (∀ ns, field = dotted ns → (∀ n ∈ ns, n < 256) → 8 ≤ ns.length → Masked field ∧
      splitLocal? field = some (String.ofList (dotted (ns.take 4)),
        (((ns.drop 4).take 4).map setBits).foldl (· + ·) 0)) ∧
    ∃ p, p.occasion = o ∧ p.before = m ∧ loadSettings.Performs p ∧ p.after = m ∧
      p.sent = ["+CGCONTRDP=" ++ m.context.repr] ∧
      ∀ cid bearer apn text, Plain apn → Plain text → Scanner.text? text = some field →
        p.answer = .ok (written cid bearer [apn, text]) →
          p.result = connection m.family (splitLocal? field) := by
  refine ⟨isSome_splitLocal? hslash hcolon, four_or_eight_iff hslash hcolon, ?_, ?_⟩
  · rintro ns rfl hoctets hlength
    exact ⟨masked_dotted hoctets hlength, splitLocal?_octets hoctets hlength⟩
  · obtain ⟨p, hoccasion, rfl, hp⟩ := exists_performs loadSettings m o
    obtain ⟨hafter, hrequests, hresult⟩ := loadSettings_performs hp
    refine ⟨p, hoccasion, rfl, hp, hafter, ?_,
      fun cid bearer apn text hapn hplain htext hanswer => ?_⟩
    · rw [Performance.sent_of_requests hrequests, ← contextSettings_body]
      rfl
    · rw [hresult, hanswer, outcome_written p.before.family hcolon hapn hplain htext]

/-- Four octets without a mask. -/
theorem dotted_address_read_iff_four :
    ('/' ∉ "10.0.0.2".toList ∧ ':' ∉ "10.0.0.2".toList) ∧ (splitLocal? "10.0.0.2".toList).isSome ∧
      ((splitAt '.' "10.0.0.2".toList).length = 4 ∨
        (splitAt '.' "10.0.0.2".toList).length = 8) := by
  have hslash : '/' ∉ "10.0.0.2".toList := by decide
  have hcolon : ':' ∉ "10.0.0.2".toList := by decide
  obtain ⟨hread, hparts, -⟩ := dotted_address_read_iff hslash hcolon ⟨1, .ipv4⟩ { bench := {} }
  have hsome := hread.mpr (.inl (by decide))
  exact ⟨⟨hslash, hcolon⟩, hsome, hparts.mpr (fun h => absurd h.1 (by decide)) hsome⟩

/-- The octets of an IPv6 address and of its mask. -/
def ipv6Octets : List Nat :=
  [32, 1, 13, 184, 0, 0, 0, 0, 0, 0, 0, 0, 0, 0, 0, 1] ++ List.replicate 8 255 ++ List.replicate 8 0

/-- An IPv6 address that is written in octets is read, and it is reported as an IPv4 address. -/
theorem ipv6_octets_taken_for_ipv4 :
    '/' ∉ dotted ipv6Octets ∧ ':' ∉ dotted ipv6Octets ∧
      (splitAt '.' (dotted ipv6Octets)).length = 32 ∧
      splitLocal? (dotted ipv6Octets) = some ("32.1.13.184", 0) ∧
      ∃ p, loadSettings.Performs p ∧ p.before = ⟨1, .ipv4⟩ ∧
        p.answer = .ok (written 1 5 [ofString "internet", ofChars (dotted ipv6Octets)]) ∧
        p.result = .ok
          { ipv4 := some { address := "32.1.13.184", prefixLength := 8, gateway := none, dns :=
            [] }, ipv6 := none } := by
  have hslash : '/' ∉ dotted ipv6Octets := not_mem_dotted (by decide) (by decide)
  have hcolon : ':' ∉ dotted ipv6Octets := not_mem_dotted (by decide) (by decide)
  have hlocal : splitLocal? (dotted ipv6Octets) = some ("32.1.13.184", 0) := by decide +kernel
  have htext : Scanner.text? (ofChars (dotted ipv6Octets)) = some (dotted ipv6Octets) := by
    rw [Scanner.text?, chars?_ofChars, Option.map_some, trim_dotted]
  have hparts : (splitAt '.' (dotted ipv6Octets)).length = 32 := by
    rw [splitAt_dotted (by decide)]
    rfl
  refine ⟨hslash, hcolon, hparts, hlocal, ?_⟩
  obtain ⟨p, hoccasion, hbefore, hp⟩ := exists_performs loadSettings ⟨1, .ipv4⟩
    { bench := { script :=
      [{ answer := .ok (written 1 5 [ofString "internet", ofChars (dotted ipv6Octets)]) }] } }
  have hanswer : p.answer =
      .ok (written 1 5 [ofString "internet", ofChars (dotted ipv6Octets)]) := by
    rw [Performance.answer, hoccasion]
    rfl
  obtain ⟨-, -, hresult⟩ := loadSettings_performs hp
  rw [hanswer, outcome_written p.before.family hcolon (by decide) (by decide +kernel) htext, hlocal,
    hbefore] at hresult
  exact ⟨p, hp, hbefore, hanswer, hresult⟩

end Cellular.Xmm.Bearer
