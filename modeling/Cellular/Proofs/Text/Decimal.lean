import Cellular.Proofs.Text.Stretch
import Cellular.Text.Decimal
import Mathlib.Data.String.Basic
/-!
# Numbers are read as they are written

`Decimal.scan` undoes `Decimal.digits`, whatever follows, so long as it is no further digit.

The argument has three parts.

1. What `digits` writes are digits, at least one of them, and their value is the number
   (`value_digits`).  The induction is on the number, and goes through its last digit.
2. What `scan` reads is a stretch of digits and the value of the stretch, if that fits (`scan_eq`).
   So digits with zeros in front are read too, which is why the lemmas about reading are stated for
   all spellings of a number (`Denotes`).
3. Both together give `scan_denotes` and its converse `scan_eq_some_iff`.

Every digit takes one octet, so there is room for just those numbers that do not have more digits
than the room has octets (`Decimal.utf8ByteSize_repr_le_iff`).
-/

namespace Cellular.Decimal

open Bytes

variable {n bound : Nat} {rest : Bytes}

/-! ## What is written

The digits of a number are one octet below ten, and otherwise those of its tenth part with its last
digit behind.  All that is said of written numbers is shown along these two equations. -/

/-- A number below ten has one digit. -/
theorem digits_of_lt_ten (h : n < 10) : digits n = [UInt8.ofNat (48 + n)] := by
  have hall : ∀ n, n < 10 → digits n = [UInt8.ofNat (48 + n)] := by decide
  exact hall n h

/-- The last digit of a number stands behind the digits of its tenth part. -/
theorem digits_of_ten_le (h : 10 ≤ n) : digits n = digits (n / 10) ++ digits (n % 10) := by
  rw [digits, Nat.toDigits_of_base_le (by decide) h, ofChars_append, digits, digits,
    Nat.toDigits_of_lt_base (Nat.mod_lt n (by decide))]

theorem isDigit_of_lt_ten (h : n < 10) : isDigit (UInt8.ofNat (48 + n)) = true := by
  have hall : ∀ n, n < 10 → isDigit (UInt8.ofNat (48 + n)) = true := by decide
  exact hall n h

/-- There are ten digits. -/
theorem forall_digit {P : UInt8 → Prop} (h : ∀ n, n < 10 → P (UInt8.ofNat (48 + n))) {b : UInt8}
    (hb : isDigit b = true) :
    P b := by
  rw [isDigit, Bool.and_eq_true, decide_eq_true_eq, decide_eq_true_eq, UInt8.le_iff_toNat_le,
    UInt8.le_iff_toNat_le] at hb
  obtain ⟨hlow, hhigh⟩ := hb
  change 48 ≤ b.toNat at hlow
  change b.toNat ≤ 57 at hhigh
  have hdigit := h (b.toNat - 48) (by omega)
  rwa [show 48 + (b.toNat - 48) = b.toNat by omega, UInt8.ofNat_toNat] at hdigit

theorem isDigit_of_mem_toDigits {c : Char} (h : c ∈ Nat.toDigits 10 n) : c.isDigit = true :=
  Nat.isDigit_of_mem_toDigits (by decide) (by decide) h

/-- Every number has a digit. -/
theorem digits_ne_nil (n : Nat) : digits n ≠ [] := by
  by_cases h : n < 10
  · rw [digits_of_lt_ten h]
    nofun
  · rw [digits_of_ten_le (Nat.le_of_not_lt h), digits_of_lt_ten (Nat.mod_lt n (by decide))]
    simp

/-- A number is written in digits only. -/
theorem isDigit_of_mem_digits {b : UInt8} (h : b ∈ digits n) : isDigit b = true := by
  induction n using Nat.strongRecOn with
  | _ n ih =>
    by_cases hn : n < 10
    · rw [digits_of_lt_ten hn] at h
      obtain rfl := List.mem_singleton.mp h
      exact isDigit_of_lt_ten hn
    · rw [digits_of_ten_le (Nat.le_of_not_lt hn)] at h
      rcases List.mem_append.mp h with h | h
      · exact ih (n / 10) (by omega) h
      · exact ih (n % 10) (by omega) h

/-- The digits of a number have the number as their value. -/
theorem value_digits (n : Nat) : value (digits n) = n := by
  induction n using Nat.strongRecOn with
  | _ n ih =>
    by_cases hn : n < 10
    · have hall : ∀ n, n < 10 → value (digits n) = n := by decide
      exact hall n hn
    · have hlast : n % 10 < 10 := Nat.mod_lt n (by decide)
      -- one more digit: ten times what stands before it, and the digit
      have hone : ∀ acc d, d < 10 → valueFrom acc (digits d) = acc * 10 + d := by
        intro acc d hd
        have hvalue : digitValue (UInt8.ofNat (48 + d)) = d := by
          have hall : ∀ d, d < 10 → digitValue (UInt8.ofNat (48 + d)) = d := by decide
          exact hall d hd
        rw [digits_of_lt_ten hd, valueFrom, List.foldl_cons, List.foldl_nil, hvalue]
      calc value (digits n)
        _ = valueFrom (value (digits (n / 10))) (digits (n % 10)) := by
          rw [digits_of_ten_le (Nat.le_of_not_lt hn)]
          exact List.foldl_append
        _ = n / 10 * 10 + n % 10 := by rw [ih (n / 10) (by omega), hone _ _ hlast]
        _ = n := by omega

/-! ## What is read

A stretch of digits is read up to the first octet that is none.  The bound is the largest number
that the place has room for; a longer stretch may still be read when it has zeros in front. -/

/-- The octets are digits that stand for the number.  There may be zeros in front. -/
structure Denotes (ds : Bytes) (n : Nat) : Prop where
  shown : ds ≠ []
  digits : ∀ d ∈ ds, isDigit d = true
  value : Decimal.value ds = n

/-- The digits of a number stand for it. -/
theorem denotes_digits (n : Nat) : Denotes (digits n) n :=
  ⟨digits_ne_nil n, fun _ hb => isDigit_of_mem_digits hb, value_digits n⟩

/-- Digits are read as a number, if that fits. -/
theorem scan_eq {bs : Bytes} (hbound : 0 < bound) (hshown : bs.takeWhile isDigit ≠ []) :
    scan bound bs = if value (bs.takeWhile isDigit) < bound then
      some (value (bs.takeWhile isDigit), bs.dropWhile isDigit)
      else none := by
  rw [scan]
  split
  · rename_i hnil
    exact absurd hnil hshown
  · rw [belowFrom_eq hbound, value]
    split <;> rfl

/-- Digits that stand for a number are read as it, if it fits, and refused otherwise. -/
theorem scan_denotes {ds : Bytes} (hbound : 0 < bound) (h : Denotes ds n)
    (hrest : Parts isDigit rest) :
    scan bound (ds ++ rest) = if n < bound then some (n, rest) else none := by
  obtain ⟨hshown, hdigits, rfl⟩ := h
  have hfront : (ds ++ rest).takeWhile isDigit = ds := takeWhile_stretch hdigits hrest
  rw [scan_eq hbound (by rwa [hfront]), hfront, dropWhile_stretch hdigits hrest]

/-- What is read is a number that fits, up to the last of its digits. -/
theorem scan_eq_some_iff {bs : Bytes} (hbound : 0 < bound) :
    scan bound bs = some (n, rest) ↔ n < bound ∧ ∃ ds, Denotes ds n ∧ Parts isDigit rest ∧
    bs = ds ++ rest := by
  constructor
  · intro h
    -- a number was found, so there is a digit to begin with
    have hshown : bs.takeWhile isDigit ≠ [] := fun hnil => by
      rw [scan, hnil] at h
      cases h
    rw [scan_eq hbound hshown] at h
    split at h
    · rename_i hfits
      obtain ⟨rfl, rfl⟩ := Prod.mk.inj (Option.some.inj h)
      refine ⟨hfits, _, ⟨hshown, List.all_eq_true.mp List.all_takeWhile, rfl⟩, fun b hb => ?_,
        List.takeWhile_append_dropWhile.symm⟩
      have hnot := List.head?_dropWhile_not isDigit bs
      rw [hb] at hnot
      exact hnot
    · cases h
  · rintro ⟨hfits, ds, hds, hrest, rfl⟩
    rw [scan_denotes hbound hds hrest, if_pos hfits]

/-- A number that fits is read, up to the last of its digits. -/
theorem scan_digits (h : n < bound) (hrest : Parts isDigit rest) :
    scan bound (digits n ++ rest) = some (n, rest) :=
  (scan_eq_some_iff (Nat.lt_of_le_of_lt (Nat.zero_le n) h)).mpr ⟨h, _, denotes_digits n, hrest, rfl⟩

/-- Only zero is written with a zero in front. -/
theorem digits_front (h : 0 < n) : ∃ d ds, digits n = d :: ds ∧ isDigit d = true ∧ d ≠ 48 := by
  induction n using Nat.strongRecOn with
  | _ n ih =>
    by_cases hn : n < 10
    · have hall : ∀ n, n < 10 → 0 < n → UInt8.ofNat (48 + n) ≠ 48 := by decide
      exact ⟨_, [], digits_of_lt_ten hn, isDigit_of_lt_ten hn, hall n hn h⟩
    · obtain ⟨d, ds, hds, hd⟩ := ih (n / 10) (by omega) (by omega)
      exact ⟨d, ds ++ digits (n % 10), by rw [digits_of_ten_le (Nat.le_of_not_lt hn), hds]; rfl, hd⟩

/-- A number does not begin with an octet of a class without digits. -/
theorem parts_digits {p : UInt8 → Bool}
    (hp : ∀ n, n < 10 → p (UInt8.ofNat (48 + n)) = false) (n : Nat) :
    Parts p (digits n) :=
  parts_of_forall fun _ hb => forall_digit (P := fun b => p b = false) hp (isDigit_of_mem_digits hb)

/-- A number that fits is read as a whole. -/
theorem whole?_digits (h : n < bound) : whole? bound (digits n) = some n := by
  have hplus : dropPlus (digits n) = digits n := by
    unfold dropPlus
    split
    · rename_i rest hdigits
      have hmem : 43 ∈ digits n := by simp [hdigits]
      exact absurd (isDigit_of_mem_digits hmem) (by decide)
    · rfl
  have hscan : scan bound (digits n ++ []) = some (n, []) := scan_digits h parts_nil
  rw [List.append_nil] at hscan
  rw [whole?, hplus, hscan]

theorem isSpace_of_mem_digits {b : UInt8} (h : b ∈ digits n) : isSpace b = false :=
  forall_digit (P := fun b => isSpace b = false) (by decide) (isDigit_of_mem_digits h)

/-! ## The room that a number takes

Texts are measured in octets.  A digit takes one of them, so the room that a number takes is the
number of its digits, and that is bounded by a power of ten. -/

theorem utf8Size_of_isDigit {c : Char} (h : c.isDigit = true) : c.utf8Size = 1 := by
  simp only [Char.isDigit, Bool.and_eq_true, decide_eq_true_eq, UInt32.le_iff_toNat_le] at h
  have hlast : c.val.toNat ≤ 57 := h.2
  rw [Char.utf8Size_eq_one_iff, UInt32.le_iff_toNat_le]
  exact Nat.le_trans hlast (by decide)

theorem utf8Len_of_isDigit {cs : List Char} (h : ∀ c ∈ cs, c.isDigit = true) :
    String.utf8Len cs = cs.length := by
  induction cs with
  | nil => rfl
  | cons c cs ih =>
    obtain ⟨hc, hcs⟩ := List.forall_mem_cons.mp h
    rw [String.utf8Len_cons, ih hcs, utf8Size_of_isDigit hc, List.length_cons]

/-- There is room for just those numbers that have no more digits than the room has octets. -/
theorem utf8ByteSize_repr_le_iff {room : Nat} (h : 0 < room) :
    n.repr.utf8ByteSize ≤ room ↔ n < 10 ^ room := by
  rw [← String.utf8Len_toList, Nat.toList_repr, utf8Len_of_isDigit fun c => isDigit_of_mem_toDigits,
    Nat.length_toDigits_le_iff (by decide) h]

end Cellular.Decimal
