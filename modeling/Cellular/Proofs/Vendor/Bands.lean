import Cellular.Proofs.Procedure.Session
import Cellular.Proofs.Reply.BandListing
import Cellular.Proofs.Text.Decimal
import Cellular.Vendor.Cinterion
/-!
# The choice of bands

A Cinterion modem writes bands as a mask.  A request that has no mask is refused before anything is
sent; what has one is written with one command (`BandsChosen`).

A request that names its bands is refused if none of them has a bit.  If only some have one, the
others are left out, and nothing tells (`band_request_met_iff`).  Which bands the module supports
matters to the request for any band alone; what a list names is written whether or not it is
supported (`written_mask_acceptable`).

What a mask is and which bands it selects is the matter of the masks themselves, and nothing of it
depends on the modem.  Here it is said what a modem does with one.  Both kinds of modules write it
in the same way but for the command (`setCurrentBands_eq`), so all further lemmas are about one
kind.  There is one condition that a list cannot violate: the text of a mask has to fit, and the
mask of a list has three digits at most.
-/

namespace Cellular.Cinterion

open Operation

variable {p : Performance Cinterion Unit} {bands : List Band} {m : Cinterion}

/-! ## One choice

A choice goes in one of three ways: it is refused for its bands, it is refused for the length of its
text, or it is sent, and then the answer decides. -/

/-- The module has 2G alone. -/
def only2g (m : Cinterion) : Bool := !m.radio.contains .g3

/-- The command that writes a mask. -/
def maskCommand (m : Cinterion) (mask : Nat) : Command Unit :=
  if m.only2g then .setRadioBandQuoted mask.repr mask.repr else .setRadioBand mask 1

/-- What is sent to write a mask. -/
def maskText (m : Cinterion) (mask : Nat) : String :=
  if m.only2g then "^SCFG=\"Radio/Band\",\"" ++ mask.repr ++ "\",\"" ++ mask.repr ++ "\""
  else "^SCFG=\"Radio/Band\"," ++ mask.repr ++ ",1"

/-- The command as it goes over the line. -/
theorem maskCommand_body (m : Cinterion) (mask : Nat) :
    (m.maskCommand mask).request.body = m.maskText mask := by
  unfold maskCommand maskText
  split
  · rw [← String.toList_inj]
    simp [Command.setRadioBandQuoted, Command.joined, Request.body, Request.argumentText,
      Argument.text]
  · rw [← String.toList_inj]
    have hone : Nat.repr 1 = "1" := rfl
    simp [Command.setRadioBand, Command.joined, Request.body, Request.argumentText,
      Argument.text, hone]

/-- How a choice of bands goes. -/
inductive BandsChosen (bands : List Band) (p : Performance Cinterion Unit) : Prop
  /-- It has no mask, and nothing is sent. -/
  | refused (hmask : bandMask? bands p.before.supportedBands p.before.only2g =
      .error (refusedBands bands))
    (hresult : p.result = .error (refusedBands bands)) (hafter : p.after = p.before)
    (hsent : p.sent = [])
  /-- The mask has too many digits, and nothing is sent. -/
  | overlong (mask : Nat)
    (hmask : bandMask? bands p.before.supportedBands p.before.only2g = .ok mask)
    (hlong : 10 ^ maskCapacity ≤ mask) (hresult : p.result = .error .overflow)
    (hafter : p.after = p.before) (hsent : p.sent = [])
  /-- The mask is sent. -/
  | written (mask : Nat)
    (hmask : bandMask? bands p.before.supportedBands p.before.only2g = .ok mask)
    (hresult : p.result = (p.before.maskCommand mask).outcome p.answer)
    (hafter : p.after = p.before) (hsent : p.sent = [p.before.maskText mask])

/-- Both kinds of modules have the same done with the mask, but for the command. -/
theorem setCurrentBands_eq (bands : List Band) : setCurrentBands bands = (do
    let m ← get
    let mask ← liftExcept (bandMask? bands m.supportedBands m.only2g)
    if m.only2g = true ∧ 10 ^ maskCapacity ≤ mask then throw .overflow
    else send (m.maskCommand mask)) := by
  unfold setCurrentBands
  refine bind_congr fun m => ?_
  cases hradio : m.radio.contains .g3 with
  | true =>
    have honly : m.only2g = false := by simp [only2g, hradio]
    simp [maskCommand, honly]
  | false =>
    have honly : m.only2g = true := by simp [only2g, hradio]
    -- whether the text fits is a matter of the number
    have hroom : ∀ mask : Nat, mask.repr.utf8ByteSize ≤ maskCapacity ↔ ¬ 10 ^ maskCapacity ≤ mask :=
      fun mask => by
      rw [Decimal.utf8ByteSize_repr_le_iff (by decide), Nat.not_le]
    simp only [Bool.false_eq_true, if_false, honly, true_and, maskCommand, if_true, hroom]
    refine bind_congr fun mask => ?_
    split <;> simp_all

/-- Every choice of bands goes in one of these ways. -/
theorem setCurrentBands_performs (h : (setCurrentBands bands).Performs p) :
    BandsChosen bands p := by
  rw [setCurrentBands_eq] at h
  obtain ⟨b', hruns, hhistory⟩ := h.runs
  -- the mask is built first; only a mask that fits is sent
  rcases hruns.bind_get.bind with ⟨mask, _, _, hlift, hrest⟩ | ⟨e, hresult, hlift⟩
  · obtain ⟨hmask, rfl, rfl⟩ := hlift.liftExcept
    split at hrest
    · rename_i hlong
      obtain ⟨hresult, hafter, rfl⟩ := hrest.throw
      exact .overlong mask hmask.symm hlong.2 hresult hafter (Performance.sent_nothing hhistory rfl)
    · obtain ⟨hafter, hresult, before, hanswered⟩ := hrest.send
      have hsent : p.sent = [(p.before.maskCommand mask).request.body] :=
        Performance.sent_eq hhistory (.cons hanswered .nil)
      rw [maskCommand_body] at hsent
      exact .written mask hmask.symm hresult hafter hsent
  · obtain ⟨hmask, hafter, rfl⟩ := hlift.liftExcept
    obtain rfl := eq_refusedBands hmask.symm
    exact .refused hmask.symm hresult hafter (Performance.sent_nothing hhistory rfl)

/-- A mask that has few enough digits is sent. -/
theorem BandsChosen.of_room (h : BandsChosen bands p) (hroom : ∀ mask,
    bandMask? bands p.before.supportedBands p.before.only2g = .ok mask → mask < 10 ^ maskCapacity) :
    p.after = p.before ∧
      match bandMask? bands p.before.supportedBands p.before.only2g with
      | .ok mask =>
        p.sent = [p.before.maskText mask] ∧ p.result = (p.before.maskCommand mask).outcome p.answer
      | .error e => p.sent = [] ∧ p.result = .error e := by
  cases h with
  | refused hmask hresult hafter hsent =>
    rw [hmask]
    exact ⟨hafter, hsent, hresult⟩
  | overlong mask hmask hlong => exact absurd hlong (Nat.not_le.mpr (hroom mask hmask))
  | written mask hmask hresult hafter hsent =>
    rw [hmask]
    exact ⟨hafter, hsent, hresult⟩

/-- That is so for the mask of a list. -/
theorem BandsChosen.of_ne_any (h : BandsChosen bands p) (hany : bands ≠ [.any]) :
    p.after = p.before ∧
      match bandMask? bands p.before.supportedBands p.before.only2g with
      | .ok mask =>
        p.sent = [p.before.maskText mask] ∧ p.result = (p.before.maskCommand mask).outcome p.answer
      | .error e => p.sent = [] ∧ p.result = .error e :=
  h.of_room fun mask hmask => by
    obtain ⟨-, rfl⟩ := (bandMask?_eq_ok_iff hany).mp hmask
    exact Nat.lt_trans (maskOfBands_lt bands) (by decide)

/-- Nothing is written but the mask of the request. -/
theorem BandsChosen.of_mem_sent (h : BandsChosen bands p) {text : String} (htext : text ∈ p.sent) :
    p.sent = [text] ∧ ∃ mask, text = p.before.maskText mask ∧
      bandMask? bands p.before.supportedBands p.before.only2g = .ok mask := by
  cases h with
  | refused _ _ _ hsent => rw [hsent] at htext; cases htext
  | overlong _ _ _ _ _ hsent => rw [hsent] at htext; cases htext
  | written mask hmask _ _ hsent =>
    rw [hsent] at htext
    obtain rfl := List.mem_singleton.mp htext
    exact ⟨hsent, mask, rfl, hmask⟩

/-! ## The laws

The first law is about requests by names and what they select; the second is about every mask that
is written, and what it may contain.  Each has an input in which the case occurs that one might not
expect: a band that is left out without a word, and a band that is written though the module does
not have it. -/

/-- **When a request for bands is met in full or refused.**  A list of bands other than `[any]`
selects those of its bands that have a bit.  It is refused, before anything is sent, if none has
one, or if the module has 2G alone and does not accept the mask; otherwise the mask is written.  So
it is met in full or refused in these cases and no others: all of its bands have a bit, or it is
refused anyway. -/
theorem band_request_met_iff (hany : bands ≠ [.any]) (supported : Nat) (only2g : Bool)
    (m : Cinterion) (o : Occasion) :
    (MetOrRefused bands (bandMask? bands supported only2g) ↔
      (∀ b ∈ bands, b.HasBit) ∨ bandMask? bands supported only2g = .error (refusedBands bands)) ∧
    (bandMask? bands supported only2g = .error (refusedBands bands) ↔
      (∀ b ∈ bands, ¬ b.HasBit) ∨ (only2g = true ∧ maskOfBands bands ∉ validMasks2g)) ∧
    (∀ mask, bandMask? bands supported only2g = .ok mask → ∀ b, b ∈ bandsOfMask mask ↔
      b ∈ bands ∧ b.HasBit) ∧
    ∃ p, p.occasion = o ∧ p.before = m ∧ (setCurrentBands bands).Performs p ∧ p.after = m ∧
      match bandMask? bands m.supportedBands m.only2g with
      | .ok mask => p.sent = [m.maskText mask] ∧ p.result = (m.maskCommand mask).outcome p.answer
      | .error e => p.sent = [] ∧ p.result = .error e := by
  refine ⟨metOrRefused_iff hany supported only2g, ?_, fun mask hmask b => ?_, ?_⟩
  · rw [bandMask?_eq_error_iff hany, and_iff_left rfl, Expressible,
      Decidable.not_and_iff_not_or_not]
    simp
  · obtain ⟨-, rfl⟩ := (bandMask?_eq_ok_iff hany).mp hmask
    exact mem_bandsOfMask_maskOfBands
  · obtain ⟨p, hoccasion, rfl, hp⟩ := exists_performs (setCurrentBands bands) m o
    exact ⟨p, hoccasion, rfl, hp, (setCurrentBands_performs hp).of_ne_any hany⟩

/-- All bands of this request have a bit. -/
theorem band_request_met_iff_in_full :
    [Band.egsm, .u2100] ≠ [.any] ∧
      MetOrRefused [.egsm, .u2100] (bandMask? [.egsm, .u2100] 511 false) :=
  ⟨by decide,
    (band_request_met_iff (by decide) 511 false { radio := .g3, hasNetPort := false, timing := {} }
    { bench := {} }).1.mpr (.inl (by decide))⟩

/-- A band without a bit is left out. -/
theorem band_left_out :
    [Band.egsm, .u1800] ≠ [.any] ∧ bandMask? [.egsm, .u1800] 511 false = .ok 1 ∧
      bandsOfMask 1 = [.egsm] ∧
      ¬ MetOrRefused [.egsm, .u1800] (bandMask? [.egsm, .u1800] 511 false) := by
  refine ⟨by decide, rfl, by decide, fun h => ?_⟩
  have hrefused : bandMask? [.egsm, .u1800] 511 false = .error (refusedBands [.egsm, .u1800]) :=
    h.2 ⟨.u1800, by decide, by decide⟩
  cases hrefused

/-- **Which masks are written.**  A mask that is written is not zero.  For a request of any band it
has no bit that the supported mask has not.  For any other it selects no band that is not named, and
on a module with 2G alone it is one of the masks that such a module accepts.  It selects supported
bands alone just if any band was requested, or if the bands that are named and have a bit are
supported. -/
theorem written_mask_acceptable (bands : List Band) (supported : Nat) (only2g : Bool)
    (m : Cinterion) (o : Occasion) :
    (∀ mask, bandMask? bands supported only2g = .ok mask →
      AcceptableMask bands supported only2g mask ∧
      ((∀ b ∈ bandsOfMask mask, b ∈ bandsOfMask supported) ↔
        bands = [.any] ∨ ∀ b ∈ bands, b.HasBit → b ∈ bandsOfMask supported)) ∧
    ∃ p, p.occasion = o ∧ p.before = m ∧ (setCurrentBands bands).Performs p ∧
      ∀ text ∈ p.sent, p.sent = [text] ∧ ∃ mask, text = m.maskText mask ∧
        AcceptableMask bands m.supportedBands m.only2g mask := by
  refine ⟨fun mask hmask => ⟨acceptableMask hmask, selects_supported_iff hmask⟩, ?_⟩
  obtain ⟨p, hoccasion, rfl, hp⟩ := exists_performs (setCurrentBands bands) m o
  refine ⟨p, hoccasion, rfl, hp, fun text htext => ?_⟩
  obtain ⟨hsent, mask, hmask, hbands⟩ := (setCurrentBands_performs hp).of_mem_sent htext
  exact ⟨hsent, mask, hmask, acceptableMask hbands⟩

/-- A band that is named is written, supported or not. -/
theorem unsupported_band_written :
    ¬ ∀ bands supported only2g mask, supported ≠ 0 → bandMask? bands supported only2g = .ok mask →
      mask ≠ 0 ∧ (∀ b ∈ bandsOfMask mask, b ∈ bandsOfMask supported) ∧
      (only2g = true → mask ∈ validMasks2g) := by
  intro h
  obtain ⟨-, hsupported, -⟩ := h [.u800] 1 false 256 (by decide) rfl
  exact absurd (hsupported .u800 (by decide)) (by decide)

/-! ## What is written comes back

The command that writes a mask and the listing that reports it have the mask in the same place, so
what is written can be traced to what is read: the text of the command is, from the name on, a line
of bands. -/

/-- Behind the name the text that is written begins with the mask, and goes on with a comma. -/
theorem maskText_leads (m : Cinterion) (mask : Nat) : ∃ payload rest,
    Bytes.ofString (m.maskText mask) = Bytes.ofString "^SCFG=\"Radio/Band\"," ++ payload ∧
      Scanner.LeadingNumber mask payload (44 :: rest) := by
  have hdigits : Bytes.ofChars (Nat.toDigits 10 mask) = Decimal.digits mask := rfl
  unfold maskText
  split
  · refine ⟨[] ++ (Scanner.marked (Decimal.digits mask) ++
      44 :: Scanner.marked (Decimal.digits mask)), _, ?_,
      .quoted Scanner.pads_nil (Decimal.denotes_digits mask)⟩
    simp [Bytes.ofString, Bytes.ofChars_append, hdigits, Scanner.marked, Bytes.quote,
      String.utf8EncodeChar]
  · refine ⟨[] ++ (Decimal.digits mask ++ [44, 49]), _, ?_,
      .bare Scanner.pads_nil (Decimal.denotes_digits mask) (Bytes.parts_cons rfl)⟩
    simp [Bytes.ofString, Bytes.ofChars_append, hdigits, String.utf8EncodeChar]

/-- **A mask that is written comes back.**  A mask of 32 bits that has the bit of a band has few
enough digits, so it is sent by every request that it is the mask of, and what the modem answers
decides.  A listing whose first line of bands carries the mask, with quotation marks as a module
with 2G alone has it written or without, and whatever stands behind and around, is read as the bands
of the mask.  Those are different ones, in the order of the table, and their mask is what the table
has of it. -/
theorem written_mask_comes_back {mask : Nat} (hfits : mask < Decimal.word32)
    (hselects : ∃ e ∈ bandBits, mask.testBit e.1 = true) :
    mask.repr.utf8ByteSize ≤ maskCapacity ∧
    (∀ bands (m : Cinterion) (o : Occasion), bandMask? bands m.supportedBands m.only2g = .ok mask →
      ∃ p, p.occasion = o ∧ p.before = m ∧ (setCurrentBands bands).Performs p ∧
        p.sent = [m.maskText mask] ∧
        p.result = (m.maskCommand mask).outcome p.answer ∧ p.result ≠ .error .overflow) ∧
    (∀ m : Cinterion, ∃ payload rest,
      Bytes.ofString (m.maskText mask) = Bytes.ofString "^SCFG=\"Radio/Band\"," ++ payload ∧
        Scanner.LeadingNumber mask payload (44 :: rest) ∧ ∀ line, BandLine payload line →
        CarriesMask mask line) ∧
    (∀ line tail, Bytes.Parts Bytes.isDigit tail → (BandLine (Decimal.digits mask ++ tail) line ∨
      BandLine (Scanner.marked (Decimal.digits mask) ++ tail) line) → CarriesMask mask line) ∧
    (∀ reply before line after, Scanner.lines reply = before ++ line :: after →
      (∀ other ∈ before, ∀ payload, ¬ BandLine payload other) → CarriesMask mask line →
      currentBands? reply = some (bandsOfMask mask)) ∧
    (bandsOfMask mask).Nodup ∧ (bandsOfMask mask).Sublist (bandBits.map Prod.snd) ∧
    maskOfBands (bandsOfMask mask) = mask &&& tableMask := by
  have hroom : mask < 10 ^ maskCapacity := Nat.lt_trans hfits (by decide)
  refine ⟨(Decimal.utf8ByteSize_repr_le_iff (by decide)).mpr hroom,
    fun bands m o hmask => ?_, fun m => ?_, fun line tail htail hline => ?_,
    fun reply before line after hlines hbefore hcarries => ?_, nodup_bandsOfMask mask,
    bandsOfMask_sublist mask, maskOfBands_bandsOfMask mask⟩
  · obtain ⟨p, hoccasion, rfl, hp⟩ := exists_performs (setCurrentBands bands) m o
    have hchosen := (setCurrentBands_performs hp).of_room fun mask' hmask' => by
      obtain rfl := Except.ok.inj (hmask.symm.trans hmask')
      exact hroom
    rw [hmask] at hchosen
    obtain ⟨-, hsent, hresult⟩ := hchosen
    refine ⟨p, hoccasion, rfl, hp, hsent, hresult, fun hover => ?_⟩
    -- no answer of the modem amounts to an overflow
    obtain ⟨cause, hcause⟩ := Command.outcome_eq_error (hresult.symm.trans hover)
    cases cause <;> cases hcause
  · obtain ⟨payload, rest, htext, hleads⟩ := m.maskText_leads mask
    exact ⟨payload, rest, htext, hleads, fun line hline => ⟨payload, _, hline, hleads⟩⟩
  · rcases hline with hbare | hmarked
    · exact ⟨_, tail, hbare, .bare Scanner.pads_nil (Decimal.denotes_digits mask) htail⟩
    · exact ⟨_, tail, hmarked, .quoted Scanner.pads_nil (Decimal.denotes_digits mask)⟩
  · exact currentBands?_eq_some_iff.mpr ⟨before, line, after, mask, hlines, hbefore,
      hcarries, hfits, bandsOfMask_ne_nil_iff.mpr hselects, rfl⟩

/-- The greatest mask there is, in the second line of a listing that has two lines of bands. -/
theorem written_mask_comes_back_all :
    (4294967295 < Decimal.word32 ∧ ∃ e ∈ bandBits, Nat.testBit 4294967295 e.1 = true) ∧
    currentBands? (Bytes.ofString
      "^SCFG: \"GPIO/mode\",\"std\"\r\n^SCFG: \"Radio/Band\",\"4294967295\",\"511\"\r\n^SCFG: \"Radio/Band\",1") =
      some (bandBits.map Prod.snd) := by
  have hselects : ∃ e ∈ bandBits, Nat.testBit 4294967295 e.1 = true := by decide
  refine ⟨⟨by decide, hselects⟩, ?_⟩
  obtain ⟨-, -, -, hcarries, hread, -⟩ := written_mask_comes_back (by decide) hselects
  have hfirst : ∀ payload, ¬ BandLine payload (Bytes.ofString "^SCFG: \"GPIO/mode\",\"std\"") :=
    fun payload hline => by
    have hnone : bandPayload? (Bytes.ofString "^SCFG: \"GPIO/mode\",\"std\"") = none := by
      decide +kernel
    cases hnone.symm.trans (bandPayload?_eq_some_iff.mpr hline)
  have hsecond : BandLine (Scanner.marked (Decimal.digits 4294967295) ++ Bytes.ofString ",\"511\"")
      (Bytes.ofString "^SCFG: \"Radio/Band\",\"4294967295\",\"511\"") :=
    bandPayload?_eq_some_iff.mp (by decide +kernel)
  exact hread _ [Bytes.ofString "^SCFG: \"GPIO/mode\",\"std\""] _
    [Bytes.ofString "^SCFG: \"Radio/Band\",1"]
    (by decide +kernel) (List.forall_mem_singleton.mpr hfirst)
    (hcarries _ _ (Bytes.parts_of_head rfl) (.inr hsecond))

end Cellular.Cinterion
