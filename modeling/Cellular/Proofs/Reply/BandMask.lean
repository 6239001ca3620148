import Cellular.Reply.BandMask
/-!
# What a band mask selects

Every bit of the table is the bit of one band, so a mask made of a list of bands selects those bands
of the list that have a bit, and no others (`mem_bandsOfMask_maskOfBands`).  That is the mask of a
request other than `[any]`, unless none of its bands has a bit, or the module has 2G alone and does
not accept the mask (`bandMask?_of_ne_any`).

The other way round, the bands of a mask are those of the table whose bits are set, each once and in
the order of the table (`bandsOfMask_sublist`, `nodup_bandsOfMask`), and their mask is what the
table has of the first one (`maskOfBands_bandsOfMask`).

So such a request is met in full or refused if all of its bands have a bit, or if it has no mask
(`metOrRefused_iff`).

The table of bits is finite and small, and four facts about it are checked by evaluation: no two
bands share a bit, no band has two, all bits are below the ninth, and the table has no band twice.
Everything else is about single bits: a mask is known by which bits are set in it
(`testBit_maskOfBands`), and a list of bands only through the bits of its members.
-/

namespace Cellular

/-! ## The table of bits

The table pairs bits with bands and has no bit and no band twice.  From there on a mask and a list
of bands are compared bit by bit. -/

variable {bands : List Band} {b : Band} {mask supported : Nat} {only2g : Bool}

/-- The band has a bit in the masks. -/
def Band.HasBit (b : Band) : Prop := ∃ e ∈ bandBits, e.2 = b

instance : DecidablePred Band.HasBit :=
  fun b => inferInstanceAs (Decidable (∃ e ∈ bandBits, e.2 = b))

/-- No two bands share a bit. -/
theorem eq_of_bit_eq : ∀ e ∈ bandBits, ∀ e' ∈ bandBits, e.1 = e'.1 → e = e' := by decide

theorem bit_lt : ∀ e ∈ bandBits, e.1 < 9 := by decide

/-- A mask selects a band if a bit of the band is set in it. -/
theorem mem_bandsOfMask :
    b ∈ bandsOfMask mask ↔ ∃ bit, (bit, b) ∈ bandBits ∧ mask.testBit bit = true := by
  rw [bandsOfMask, List.mem_map]
  constructor
  · rintro ⟨⟨bit, b⟩, he, rfl⟩
    exact ⟨bit, List.mem_filter.mp he⟩
  · rintro ⟨bit, he⟩
    exact ⟨(bit, b), List.mem_filter.mpr he, rfl⟩

/-- Putting bits to a mask. -/
theorem testBit_foldl_bits (entries : List (Nat × Band)) (mask bit : Nat) :
    (entries.foldl (fun mask e => mask ||| 1 <<< e.1) mask).testBit bit = true ↔
      mask.testBit bit = true ∨ ∃ e ∈ entries, e.1 = bit := by
  induction entries generalizing mask with
  | nil => simp
  | cons e entries ih =>
    rw [List.foldl_cons, ih, Nat.testBit_or, Nat.one_shiftLeft, Nat.testBit_two_pow,
      Bool.or_eq_true, decide_eq_true_eq, or_assoc]
    simp

/-- The bits of a mask are those of the bands that it was made of. -/
theorem testBit_maskOfBands (bands : List Band) (bit : Nat) :
    (maskOfBands bands).testBit bit = true ↔ ∃ b ∈ bands, (bit, b) ∈ bandBits := by
  rw [maskOfBands, testBit_foldl_bits, Nat.zero_testBit]
  constructor
  · rintro (hzero | ⟨⟨bit, b⟩, he, rfl⟩)
    · cases hzero
    · obtain ⟨hlisted, hnamed⟩ := List.mem_filter.mp he
      exact ⟨b, List.contains_iff_mem.mp hnamed, hlisted⟩
  · rintro ⟨b, hnamed, hlisted⟩
    exact .inr ⟨(bit, b), List.mem_filter.mpr ⟨hlisted, List.contains_iff_mem.mpr hnamed⟩, rfl⟩

/-- The mask of a list selects the bands of the list that have a bit. -/
theorem mem_bandsOfMask_maskOfBands :
    b ∈ bandsOfMask (maskOfBands bands) ↔ b ∈ bands ∧ b.HasBit := by
  rw [mem_bandsOfMask]
  constructor
  · rintro ⟨bit, hlisted, hbit⟩
    obtain ⟨b', hnamed, hlisted'⟩ := (testBit_maskOfBands bands bit).mp hbit
    -- some band of the list has that bit, and it is this one
    obtain rfl : b = b' := congrArg Prod.snd (eq_of_bit_eq _ hlisted _ hlisted' rfl)
    exact ⟨hnamed, _, hlisted, rfl⟩
  · rintro ⟨hnamed, ⟨bit, b⟩, hlisted, rfl⟩
    exact ⟨bit, hlisted, (testBit_maskOfBands bands bit).mpr ⟨b, hnamed, hlisted⟩⟩

/-- A mask selects something just if one of the bands that it was made of has a bit. -/
theorem maskOfBands_ne_zero_iff : maskOfBands bands ≠ 0 ↔ ∃ b ∈ bands, b.HasBit := by
  constructor
  · intro hmask
    obtain ⟨bit, hbit⟩ := Nat.exists_testBit_of_ne_zero hmask
    obtain ⟨b, hnamed, hlisted⟩ := (testBit_maskOfBands bands bit).mp hbit
    exact ⟨b, hnamed, _, hlisted, rfl⟩
  · rintro ⟨b, hnamed, ⟨bit, b⟩, hlisted, rfl⟩ hzero
    have hbit := (testBit_maskOfBands bands bit).mpr ⟨b, hnamed, hlisted⟩
    rw [hzero, Nat.zero_testBit] at hbit
    cases hbit

theorem maskOfBands_lt (bands : List Band) : maskOfBands bands < 512 := by
  refine Nat.lt_pow_two_of_testBit (n := 9) _ fun bit hbit => Bool.eq_false_iff.mpr fun hset => ?_
  obtain ⟨b, -, hlisted⟩ := (testBit_maskOfBands bands bit).mp hset
  exact Nat.not_lt.mpr hbit (bit_lt _ hlisted)

/-! ## The bands of a mask

Bands are listed by going through the table, so their order is that of the table, and what a mask
has beyond the table is not seen. -/

/-- The mask of all bands that have a bit. -/
def tableMask : Nat := maskOfBands (bandBits.map Prod.snd)

/-- No band has two bits. -/
theorem eq_of_band_eq : ∀ e ∈ bandBits, ∀ e' ∈ bandBits, e.2 = e'.2 → e = e' := by decide

/-- The bands of a mask are listed in the order of the table. -/
theorem bandsOfMask_sublist (mask : Nat) : (bandsOfMask mask).Sublist (bandBits.map Prod.snd) :=
  List.filter_sublist.map Prod.snd

theorem nodup_bandsOfMask (mask : Nat) : (bandsOfMask mask).Nodup :=
  have hnodup : (bandBits.map Prod.snd).Nodup := by decide
  hnodup.sublist (bandsOfMask_sublist mask)

/-- A mask has a band just if it has a bit of the table. -/
theorem bandsOfMask_ne_nil_iff :
    bandsOfMask mask ≠ [] ↔ ∃ e ∈ bandBits, mask.testBit e.1 = true := by
  rw [bandsOfMask, ne_eq, List.map_eq_nil_iff, List.filter_eq_nil_iff]
  simp

/-- Bits that are no band's are lost, and no others. -/
theorem maskOfBands_bandsOfMask (mask : Nat) :
    maskOfBands (bandsOfMask mask) = mask &&& tableMask := by
  refine Nat.eq_of_testBit_eq fun bit => Bool.eq_iff_iff.mpr ?_
  rw [Nat.testBit_and, Bool.and_eq_true, tableMask, testBit_maskOfBands, testBit_maskOfBands]
  constructor
  · rintro ⟨b, hb, hlisted⟩
    obtain ⟨bit', hlisted', hbit'⟩ := mem_bandsOfMask.mp hb
    obtain rfl : bit' = bit := congrArg Prod.fst (eq_of_band_eq _ hlisted' _ hlisted rfl)
    exact ⟨hbit', b, List.mem_map_of_mem hlisted, hlisted⟩
  · rintro ⟨hbit, b, -, hlisted⟩
    exact ⟨b, mem_bandsOfMask.mpr ⟨bit, hlisted, hbit⟩, hlisted⟩

/-! ## The mask of a request

There are two kinds of request.  `[any]` asks for all that is supported, and nothing else is looked
at.  Any other list is taken at its word: its mask does not depend on what the module supports, and
on a module with 2G alone it has to be one of a few. -/

/-- The refusal of a request for bands. -/
def refusedBands (bands : List Band) : Error := .unsupported (.bands (bands.take Band.listCapacity))

/-- Asking for any band selects every supported one. -/
theorem bandMask?_any (supported : Nat) (only2g : Bool) :
    bandMask? [.any] supported only2g = if supported = 0 then .error (refusedBands [.any])
      else .ok supported := rfl

/-- A list has a mask that can be written: one of its bands has a bit, and a module with 2G alone
accepts the mask. -/
def Expressible (bands : List Band) (only2g : Bool) : Prop :=
  (∃ b ∈ bands, b.HasBit) ∧ (only2g = true → maskOfBands bands ∈ validMasks2g)

instance : Decidable (Expressible bands only2g) :=
  inferInstanceAs
    (Decidable ((∃ b ∈ bands, b.HasBit) ∧ (only2g = true → maskOfBands bands ∈ validMasks2g)))

/-- For any other request the bands that the module supports make no difference. -/
theorem bandMask?_of_ne_any (h : bands ≠ [.any]) (supported : Nat) (only2g : Bool) :
    bandMask? bands supported only2g =
      if Expressible bands only2g then .ok (maskOfBands bands)
      else .error (refusedBands bands) := by
  unfold bandMask?
  by_cases hzero : maskOfBands bands = 0
  · have hnot : ¬ Expressible bands only2g := fun hex => maskOfBands_ne_zero_iff.mpr hex.1 hzero
    simp [h, hzero, hnot, refusedBands]
  · have hsome : ∃ b ∈ bands, b.HasBit := maskOfBands_ne_zero_iff.mp hzero
    by_cases hvalid : only2g = true → maskOfBands bands ∈ validMasks2g
    · have hex : Expressible bands only2g := ⟨hsome, hvalid⟩
      simp_all
    · have hnot : ¬ Expressible bands only2g := fun hex => hvalid hex.2
      simp_all [refusedBands]

/-- A request by names has the mask of its bands, if that can be expressed. -/
theorem bandMask?_eq_ok_iff (h : bands ≠ [.any]) :
    bandMask? bands supported only2g = .ok mask ↔ Expressible bands only2g ∧
    mask = maskOfBands bands := by
  rw [bandMask?_of_ne_any h]
  by_cases hex : Expressible bands only2g
  · simp [hex, eq_comm]
  · simp [hex]

/-- A request by names is refused just if its mask cannot be expressed, and then with its names. -/
theorem bandMask?_eq_error_iff (h : bands ≠ [.any]) {e : Error} :
    bandMask? bands supported only2g = .error e ↔ ¬ Expressible bands only2g ∧
    e = refusedBands bands := by
  rw [bandMask?_of_ne_any h]
  by_cases hex : Expressible bands only2g
  · simp [hex]
  · simp [hex, eq_comm]

/-- There is one way to refuse a request. -/
theorem eq_refusedBands {e : Error} (h : bandMask? bands supported only2g = .error e) :
    e = refusedBands bands := by
  by_cases hany : bands = [.any]
  · subst hany
    rw [bandMask?_any] at h
    split at h
    · exact (Except.error.inj h).symm
    · cases h
  · exact ((bandMask?_eq_error_iff hany).mp h).2

/-! ## Requests that are met

A request that is accepted may select less than was asked for, where one of its bands has no bit.
That is the only way in which what is selected and what was asked for come apart. -/

/-- The bands of the list are selected, all of them and no others; a list with a band that has no
bit is refused. -/
def MetOrRefused (bands : List Band) (result : Except Error Nat) : Prop :=
  (∀ mask, result = .ok mask → ∀ b, b ∈ bandsOfMask mask ↔ b ∈ bands) ∧
    ((∃ b ∈ bands, ¬ b.HasBit) → result = .error (refusedBands bands))

/-- A list that has a mask, although one of its bands has no bit, is neither met nor refused. -/
theorem metOrRefused_iff (h : bands ≠ [.any]) (supported : Nat) (only2g : Bool) :
    MetOrRefused bands (bandMask? bands supported only2g) ↔
      (∀ b ∈ bands, b.HasBit) ∨ bandMask? bands supported only2g = .error (refusedBands bands) := by
  constructor
  · rintro ⟨-, hrefused⟩
    by_cases hall : ∀ b ∈ bands, b.HasBit
    · exact .inl hall
    · exact .inr (hrefused (by simpa using hall))
  · rintro (hall | hrefused)
    · refine ⟨fun mask hmask b => ?_, fun ⟨b, hnamed, hnone⟩ => absurd (hall b hnamed) hnone⟩
      obtain ⟨-, rfl⟩ := (bandMask?_eq_ok_iff h).mp hmask
      rw [mem_bandsOfMask_maskOfBands]
      exact and_iff_left_of_imp (hall b)
    · refine ⟨fun mask hmask => ?_, fun _ => hrefused⟩
      rw [hrefused] at hmask
      cases hmask

/-- What a mask that is written has to be: it selects something; of any band there is, nothing that
is not supported; of a list, nothing that is not named, and something that a module with 2G alone
accepts. -/
structure AcceptableMask (bands : List Band) (supported : Nat) (only2g : Bool)
    (mask : Nat) : Prop where
  ne_zero : mask ≠ 0
  supported : bands = [.any] → ∀ bit, mask.testBit bit = true → supported.testBit bit = true
  named : bands ≠ [.any] → ∀ b ∈ bandsOfMask mask, b ∈ bands
  valid : bands ≠ [.any] → only2g = true → mask ∈ validMasks2g

/-- A mask that a request comes to is acceptable. -/
theorem acceptableMask (h : bandMask? bands supported only2g = .ok mask) :
    AcceptableMask bands supported only2g mask := by
  by_cases hany : bands = [.any]
  · subst hany
    rw [bandMask?_any] at h
    split at h
    · cases h
    · rename_i hzero
      obtain rfl := Except.ok.inj h
      exact ⟨hzero, fun _ _ hbit => hbit, fun hne => absurd rfl hne, fun hne => absurd rfl hne⟩
  · obtain ⟨hex, rfl⟩ := (bandMask?_eq_ok_iff hany).mp h
    exact ⟨maskOfBands_ne_zero_iff.mpr hex.1, fun heq => absurd heq hany,
      fun _ b hb => (mem_bandsOfMask_maskOfBands.mp hb).1, fun _ => hex.2⟩

/-- Every band that is selected is supported if any band was asked for, or if those that are named
and have a bit are. -/
theorem selects_supported_iff (h : bandMask? bands supported only2g = .ok mask) :
    (∀ b ∈ bandsOfMask mask, b ∈ bandsOfMask supported) ↔
      bands = [.any] ∨ ∀ b ∈ bands, b.HasBit → b ∈ bandsOfMask supported := by
  by_cases hany : bands = [.any]
  · refine iff_of_true (fun b hb => ?_) (.inl hany)
    obtain ⟨bit, hlisted, hbit⟩ := mem_bandsOfMask.mp hb
    exact mem_bandsOfMask.mpr ⟨bit, hlisted, (acceptableMask h).supported hany bit hbit⟩
  · obtain ⟨-, rfl⟩ := (bandMask?_eq_ok_iff hany).mp h
    rw [or_iff_right hany]
    exact forall_congr' fun b => by rw [mem_bandsOfMask_maskOfBands, and_imp]

end Cellular
