import Cellular.Proofs.Reply.IpSettings
/-!
# What is taken for an address

A field is read as an address in one of four forms (`Reads`): with a prefix length behind a slash,
with colons, as four parts with dots between them, or as eight parts, of which the last four are a
mask.  The last form does not end with the eighth part, and so a longer list of octets is read by
its beginning.

The forms are a closed list, and the main lemma says that a field is read just if it has one of them
(`splitLocal?_eq_some_iff`).  They exclude each other: the slash is looked for first, then a colon,
and then parts are counted.  So each form says what the ones before it would have required is not
there.
-/

namespace Cellular.IpSettings

open Bytes

variable {field : List Char} {address : String} {length : Nat}

/-! ## The forms of an address

An octet is a text that is read as a number below 256, in whatever way it is written.  The length of
a prefix is read likewise, and cut to 128 where it is longer. -/

/-- There is room for so many characters in an address. -/
def Fits (cs : List Char) : Prop := (ofChars cs).length ≤ addressCapacity

instance (cs : List Char) : Decidable (Fits cs) := inferInstanceAs (Decidable (_ ≤ _))

/-- A text that stands for an octet. -/
def IsOctet (part : List Char) : Prop := (Decimal.whole? Decimal.octet (ofChars part)).isSome

instance (part : List Char) : Decidable (IsOctet part) := inferInstanceAs (Decidable (_ = _))

/-- A field is read as that address and that length of a prefix. -/
inductive Reads : List Char → String → Nat → Prop where
  /-- The length stands behind a slash. -/
  | prefixed {a n : List Char} {k : Nat} (slash : '/' ∉ a) (fits : Fits a)
      (number : Decimal.whole? Decimal.word32 (ofChars n) = some k) :
        Reads (a ++ '/' :: n) (String.ofList a) (min k 128)
  /-- There are colons and no length. -/
  | colons {field : List Char} (slash : '/' ∉ field) (colon : ':' ∈ field) (fits : Fits field) :
      Reads field (String.ofList field) 0
  /-- There are four parts and no length. -/
  | four {field : List Char} (slash : '/' ∉ field) (colon : ':' ∉ field)
      (parts : (splitAt '.' field).length = 4)
      (fits : Fits field) : Reads field (String.ofList field) 0
  /-- There is a mask, and perhaps more. -/
  | masked {field : List Char} {bits : List Nat} (slash : '/' ∉ field) (colon : ':' ∉ field)
      (parts : 8 ≤ (splitAt '.' field).length) (fits : Fits (front field))
      (mask : (maskParts field).mapM maskBits? = some bits) :
      Reads field (String.ofList (front field)) (bits.foldl (· + ·) 0)

/-- A text is an address if there is room for it, and then it is the text itself. -/
theorem address?_eq_some {cs : List Char} :
    address? cs = some address ↔ Fits cs ∧ address = String.ofList cs := by
  rw [address?, Scanner.clippedText?, Fits]
  split <;> simp_all [eq_comm]

/-- Without a slash or a colon the number of parts decides. -/
theorem splitLocal?_parts (hslash : '/' ∉ field) (hcolon : ':' ∉ field)
    (h : (splitAt '.' field).length < 8) :
    splitLocal? field = if (splitAt '.' field).length = 4 then (address? field).map (·, 0)
      else none := by
  rw [splitLocal?, contains_eq_false hslash, contains_eq_false hcolon,
    List.take_of_length_le (Nat.le_of_lt h)]
  simp only [Bool.false_eq_true, if_false]
  split
  · rename_i hparts
    rw [hparts, if_pos (by rfl)]
  · rename_i hparts
    rw [hparts] at h
    exact absurd h (Nat.lt_irrefl 8)
  · rename_i hfour _
    refine (if_neg fun hlength => ?_).symm
    obtain ⟨a, b, c, d, hparts⟩ := List.length_eq_four.mp hlength
    exact hfour a b c d hparts

/-- With a colon and no slash, the field is an address without a prefix. -/
theorem splitLocal?_colons (hslash : '/' ∉ field) (hcolon : ':' ∈ field) :
    splitLocal? field = (address? field).map (·, 0) := by
  rw [splitLocal?, contains_eq_false hslash, List.contains_iff_mem.mpr hcolon]
  rfl

/-- The forms are the forms that are read. -/
theorem splitLocal?_eq_some_iff :
    splitLocal? field = some (address, length) ↔ Reads field address length := by
  constructor
  · intro h
    by_cases hslash : '/' ∈ field
    · obtain ⟨a, n, rfl, ha⟩ := List.eq_append_cons_of_mem hslash
      simp only [splitLocal?_slash ha, Option.bind_eq_some_iff, Option.map_eq_some_iff,
        address?_eq_some, Prod.mk.injEq] at h
      obtain ⟨_, ⟨hfits, rfl⟩, k, hk, rfl, rfl⟩ := h
      exact .prefixed ha hfits hk
    · by_cases hcolon : ':' ∈ field
      · simp only [splitLocal?_colons hslash hcolon, Option.map_eq_some_iff, address?_eq_some,
          Prod.mk.injEq] at h
        obtain ⟨_, ⟨hfits, rfl⟩, rfl, rfl⟩ := h
        exact .colons hslash hcolon hfits
      · -- no slash and no colon: the number of parts decides
        rcases Nat.lt_or_ge (splitAt '.' field).length 8 with hfew | hmany
        · rw [splitLocal?_parts hslash hcolon hfew] at h
          split at h
          · rename_i hfour
            simp only [Option.map_eq_some_iff, address?_eq_some, Prod.mk.injEq] at h
            obtain ⟨_, ⟨hfits, rfl⟩, rfl, rfl⟩ := h
            exact .four hslash hcolon hfour hfits
          · cases h
        · simp only [splitLocal?_masked hslash hcolon hmany, Option.bind_eq_some_iff,
            Option.map_eq_some_iff, address?_eq_some, Prod.mk.injEq] at h
          obtain ⟨_, ⟨hfits, rfl⟩, bits, hbits, rfl, rfl⟩ := h
          exact .masked hslash hcolon hmany hfits hbits
  · intro h
    cases h with
    | prefixed slash fits number =>
      rw [splitLocal?_slash slash, address?_of_length fits, number]; rfl
    | colons slash colon fits => rw [splitLocal?_colons slash colon, address?_of_length fits]; rfl
    | four slash colon parts fits =>
      rw [splitLocal?_parts slash colon (by omega), if_pos parts, address?_of_length fits]
      rfl
    | masked slash colon parts fits mask =>
      rw [splitLocal?_masked slash colon parts, address?_of_length fits, mask]
      rfl

/-! ## What stands in an address

Only a text with colons or one in front of a slash can put a colon into an address.  That tells the
families apart. -/

/-- What is in a part was in the text. -/
theorem mem_of_mem_splitAt {sep c : Char} {cs part : List Char} (hpart : part ∈ splitAt sep cs)
    (hc : c ∈ part) : c ∈ cs := by
  induction cs generalizing part with
  | nil =>
    obtain rfl := List.mem_singleton.mp hpart
    exact hc
  | cons d ds ih =>
    unfold splitAt at hpart
    split at hpart
    · -- a separator opens an empty part in front of the others
      rcases List.mem_cons.mp hpart with rfl | hrest
      · cases hc
      · exact List.mem_cons_of_mem _ (ih hrest hc)
    · -- any other character goes to the first part
      split at hpart
      · obtain rfl := List.mem_singleton.mp hpart
        exact List.mem_cons.mpr (.inl (List.mem_singleton.mp hc))
      · rename_i p ps hsplit
        rw [hsplit] at ih
        rcases List.mem_cons.mp hpart with rfl | hrest
        · rcases List.mem_cons.mp hc with rfl | hmem
          · exact List.mem_cons_self
          · exact List.mem_cons_of_mem _ (ih List.mem_cons_self hmem)
        · exact List.mem_cons_of_mem _ (ih (List.mem_cons_of_mem _ hrest) hc)

/-- No colon comes into an address. -/
theorem Reads.colon_free (h : Reads field address length) (hcolon : ':' ∉ field) :
    ':' ∉ address.toList := by
  cases h with
  | prefixed => simp_all
  | colons _ colon => exact absurd colon hcolon
  | four => rwa [String.toList_ofList]
  | masked =>
    rw [String.toList_ofList]
    intro hmem
    rcases mem_intercalate hmem with hdot | ⟨part, hpart, hmem⟩
    · cases hdot
    · exact hcolon (mem_of_mem_splitAt (List.mem_of_mem_take hpart) hmem)

/-! ## Dotted parts

For fields with dots alone the forms come to a condition on the parts: four or eight of them, or
more than eight, of which the first eight are an address and a mask. -/

/-- A field begins with an address and a mask. -/
structure Masked (field : List Char) : Prop where
  many : 8 ≤ (splitAt '.' field).length
  fits : Fits (front field)
  octets : ∀ part ∈ maskParts field, IsOctet part

/-- The bits of a part are counted just if it is an octet. -/
theorem isSome_maskBits? {part : List Char} : (maskBits? part).isSome ↔ IsOctet part := by
  rw [maskBits?, Option.isSome_map, IsOctet]

/-- Which fields with dots alone are read. -/
theorem isSome_splitLocal? (hslash : '/' ∉ field) (hcolon : ':' ∉ field) :
    (splitLocal? field).isSome ↔ ((splitAt '.' field).length = 4 ∧ Fits field) ∨ Masked field := by
  constructor
  · intro h
    obtain ⟨⟨address, length⟩, hread⟩ := Option.isSome_iff_exists.mp h
    -- without a slash and a colon two of the four forms are left
    cases splitLocal?_eq_some_iff.mp hread with
    | prefixed => exact absurd (List.mem_append_right _ List.mem_cons_self) hslash
    | colons _ colon => exact absurd colon hcolon
    | four _ _ parts fits => exact .inl ⟨parts, fits⟩
    | masked _ _ parts fits mask =>
      have hall : ∀ part ∈ maskParts field, (maskBits? part).isSome :=
        isSome_mapM.mp (Option.isSome_of_eq_some mask)
      exact .inr ⟨parts, fits, fun part hpart => isSome_maskBits?.mp (hall part hpart)⟩
  · rintro (⟨hparts, hfits⟩ | ⟨hparts, hfits, hoctets⟩)
    · exact Option.isSome_of_eq_some
        (splitLocal?_eq_some_iff.mpr (.four hslash hcolon hparts hfits))
    · have hmask : ((maskParts field).mapM maskBits?).isSome :=
        isSome_mapM.mpr fun part hpart => isSome_maskBits?.mpr (hoctets part hpart)
      obtain ⟨bits, hbits⟩ := Option.isSome_iff_exists.mp hmask
      exact Option.isSome_of_eq_some
        (splitLocal?_eq_some_iff.mpr (.masked hslash hcolon hparts hfits hbits))

/-- Eight octets or more begin with an address and a mask. -/
theorem masked_dotted {ns : List Nat} (h : ∀ n ∈ ns, n < 256) (hlength : 8 ≤ ns.length) :
    Masked (dotted ns) := by
  have hread := Option.isSome_of_eq_some (splitLocal?_octets h hlength)
  have hparts : (splitAt '.' (dotted ns)).length = ns.length := by
    rw [splitAt_dotted (List.ne_nil_of_length_pos (Nat.lt_of_lt_of_le (by decide) hlength)),
      List.length_map]
  rcases (isSome_splitLocal? (not_mem_dotted (by decide) (by decide))
    (not_mem_dotted (by decide) (by decide))).mp hread with
    ⟨hfour, -⟩ | hmasked
  · omega
  · exact hmasked

/-- Only a longer list is read that has neither four nor eight parts. -/
theorem four_or_eight_iff (hslash : '/' ∉ field) (hcolon : ':' ∉ field) :
    ((splitLocal? field).isSome → (splitAt '.' field).length = 4 ∨ (splitAt '.' field).length = 8) ↔
      ¬ (9 ≤ (splitAt '.' field).length ∧ Masked field) := by
  rw [isSome_splitLocal? hslash hcolon]
  constructor
  · rintro h ⟨hnine, hmasked⟩
    have hparts := h (.inr hmasked)
    omega
  · rintro h (⟨hfour, -⟩ | hmasked)
    · exact .inl hfour
    · have hmany := hmasked.many
      have hfew : ¬ 9 ≤ (splitAt '.' field).length := fun hnine => h ⟨hnine, hmasked⟩
      omega

end Cellular.IpSettings
