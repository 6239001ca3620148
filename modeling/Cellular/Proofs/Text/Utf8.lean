import Cellular.Text.Bytes
/-!
# What is written as octets is read back

`Bytes.chars?` undoes `Bytes.ofChars`, form by form: a character takes one to four octets, and the
number of the first one tells how many.  An octet below 128 in the form of a text is a character of
the text, which is what makes it safe to look for commas, quotation marks and line ends among the
octets.

The work is in the four forms.  The octets of a form are numbers in disjoint ranges (`ofNat_range`,
`not_range`), so that the reader takes the branch of the form that was written, and the six bits
that an octet of continuation carries are got back by a remainder (`low6_six`).  One lemma for each
form says that the character is read and the rest goes on; `chars?_encode` puts them together, and
`chars?_ofChars` follows by induction on the text.
-/

namespace Cellular.Bytes

/-! ## The forms of a character

Which form a character has is decided by its number alone, and the bounds of the forms are those of
the numbers with 7, 11, 16 and 21 bits.  Surrogates have numbers among those of the third form, but
are no characters; this is the only place where it matters. -/

theorem toNat_ofNat {n : Nat} (h : n < 256) : (UInt8.ofNat n).toNat = n := by
  rw [UInt8.toNat_ofNat', Nat.mod_eq_of_lt h]

/-- An octet lies in a range if its number does. -/
theorem ofNat_range {n : Nat} (low high : Nat) (h : low ≤ n) (h' : n < high) (hhigh : high < 256) :
    (UInt8.ofNat low ≤ UInt8.ofNat n && UInt8.ofNat n < UInt8.ofNat high) = true := by
  rw [Bool.and_eq_true, decide_eq_true_eq, decide_eq_true_eq, UInt8.le_iff_toNat_le,
    UInt8.lt_iff_toNat_lt, toNat_ofNat (show n < 256 by omega),
    toNat_ofNat (show low < 256 by omega), toNat_ofNat hhigh]
  exact ⟨h, h'⟩

theorem not_ascii {n : Nat} (h : 128 ≤ n) (h' : n < 256) : ¬ UInt8.ofNat n < 128 := by
  rw [UInt8.lt_iff_toNat_lt, toNat_ofNat h']
  exact Nat.not_lt.mpr h

/-- An octet does not lie in a range that ends at its number or below. -/
theorem not_range {n : Nat} (low high : Nat) (h : high ≤ n) (h' : n < 256) :
    (UInt8.ofNat low ≤ UInt8.ofNat n && UInt8.ofNat n < UInt8.ofNat high) = false := by
  have hout : ¬ UInt8.ofNat n < UInt8.ofNat high := by
    rw [UInt8.lt_iff_toNat_lt, toNat_ofNat h', toNat_ofNat (Nat.lt_of_le_of_lt h h')]
    exact Nat.not_lt.mpr h
  rw [decide_eq_false hout, Bool.and_false]

/-- Six bits, as an octet that continues a character. -/
theorem isContinuation_six (n : Nat) : isContinuation (UInt8.ofNat (n % 64 + 128)) = true :=
  ofNat_range 128 192 (Nat.le_add_left _ _) (by omega) (by decide)

/-- The six bits that an octet of continuation carries are got back. -/
theorem low6_six (n : Nat) : low6 (UInt8.ofNat (n % 64 + 128)) = n % 64 := by
  rw [low6, toNat_ofNat (by omega)]
  omega

variable {v : Nat} (rest : Bytes)

/-- A character of one octet is read. -/
theorem chars?_one (h : v ≤ 127) :
    chars? (UInt8.ofNat v :: rest) = (chars? rest).map (Char.ofNat v :: ·) := by
  have hascii : UInt8.ofNat v < 128 := by
    rw [UInt8.lt_iff_toNat_lt, toNat_ofNat (by omega)]
    exact Nat.lt_succ_of_le h
  rw [chars?.eq_def]
  dsimp only
  rw [if_pos hascii, toNat_ofNat (by omega)]

/-- A character of two octets is read. -/
theorem chars?_two (h : 127 < v) (h' : v ≤ 2047) :
    chars? (UInt8.ofNat (v / 64 % 32 + 192) :: UInt8.ofNat (v % 64 + 128) :: rest) =
      (chars? rest).map (Char.ofNat v :: ·) := by
  have hlead : (192 ≤ UInt8.ofNat (v / 64 % 32 + 192) && UInt8.ofNat (v / 64 % 32 + 192) < 224) =
      true :=
    ofNat_range 192 224 (by omega) (by omega) (by decide)
  rw [chars?.eq_def]
  dsimp only
  rw [if_neg (not_ascii (by omega) (by omega)), hlead, isContinuation_six, low6_six,
    toNat_ofNat (by omega)]
  have hv : (v / 64 % 32 + 192) % 32 * 64 + v % 64 = v := by omega
  simp only [Bool.and_self, if_true, hv]
  exact if_pos (by omega)

/-- A character of three octets is read, if it is no surrogate. -/
theorem chars?_three (h : 2047 < v) (h' : v ≤ 65535) (hchar : v < 0xD800 ∨ 0xE000 ≤ v) :
    chars? (UInt8.ofNat (v / 4096 % 16 + 224) :: UInt8.ofNat (v / 64 % 64 + 128) :: UInt8.ofNat
      (v % 64 + 128) :: rest) =
      (chars? rest).map (Char.ofNat v :: ·) := by
  have hlead : (224 ≤ UInt8.ofNat (v / 4096 % 16 + 224) && UInt8.ofNat (v / 4096 % 16 + 224) <
      240) = true :=
    ofNat_range 224 240 (by omega) (by omega) (by decide)
  have hlead' : (192 ≤ UInt8.ofNat (v / 4096 % 16 + 224) && UInt8.ofNat (v / 4096 % 16 + 224) <
      224) = false :=
    not_range 192 224 (by omega) (by omega)
  rw [chars?.eq_def]
  dsimp only
  rw [if_neg (not_ascii (by omega) (by omega)), hlead', hlead, isContinuation_six,
    isContinuation_six, low6_six, low6_six, toNat_ofNat (by omega)]
  have hv : (v / 4096 % 16 + 224) % 16 * 4096 + v / 64 % 64 * 64 + v % 64 = v := by omega
  simp only [Bool.false_and, Bool.and_self, if_true, hv]
  -- neither overlong nor a surrogate
  rw [if_neg nofun, if_pos]
  simp only [Bool.and_eq_true, Bool.not_eq_true', Bool.and_eq_false_imp, decide_eq_true_eq,
    decide_eq_false_iff_not]
  exact ⟨by omega, fun _ => by omega⟩

/-- A character of four octets is read. -/
theorem chars?_four (h : 65535 < v) (h' : v < 0x110000) :
    chars? (UInt8.ofNat (v / 262144 % 8 + 240) :: UInt8.ofNat (v / 4096 % 64 + 128) ::
        UInt8.ofNat (v / 64 % 64 + 128) :: UInt8.ofNat (v % 64 + 128) :: rest) =
      (chars? rest).map (Char.ofNat v :: ·) := by
  have hlead : (240 ≤ UInt8.ofNat (v / 262144 % 8 + 240) && UInt8.ofNat (v / 262144 % 8 + 240) <
      248) = true :=
    ofNat_range 240 248 (by omega) (by omega) (by decide)
  have hlead' : (224 ≤ UInt8.ofNat (v / 262144 % 8 + 240) && UInt8.ofNat (v / 262144 % 8 + 240) <
      240) = false :=
    not_range 224 240 (by omega) (by omega)
  have hlead'' : (192 ≤ UInt8.ofNat (v / 262144 % 8 + 240) && UInt8.ofNat (v / 262144 % 8 + 240) <
      224) = false :=
    not_range 192 224 (by omega) (by omega)
  rw [chars?.eq_def]
  dsimp only
  rw [if_neg (not_ascii (by omega) (by omega)), hlead'', hlead', hlead, isContinuation_six,
    isContinuation_six, isContinuation_six, low6_six, low6_six, low6_six, toNat_ofNat (by omega)]
  have hv : (v / 262144 % 8 + 240) % 8 * 262144 + v / 4096 % 64 * 4096 + v / 64 % 64 * 64 + v % 64 =
      v := by omega
  simp only [Bool.false_and, Bool.and_self, if_true, hv]
  -- neither overlong nor beyond the last code point
  rw [if_neg nofun, if_neg nofun, if_pos]
  simp only [Bool.and_eq_true, decide_eq_true_eq]
  exact ⟨by omega, h'⟩

/-! ## Texts

The octets of a text are those of its characters, one after another.  Reading goes through them by
induction on the text, a character at a time. -/

/-- A character is no surrogate, and there is a last one. -/
theorem char_range (c : Char) :
    c.toNat < 0xD800 ∨ (0xE000 ≤ c.toNat ∧ c.toNat < 0x110000) := c.valid

/-- A character is read in whatever form it was written, and the rest is read on. -/
theorem chars?_encode (c : Char) :
    chars? (String.utf8EncodeChar c ++ rest) = (chars? rest).map (c :: ·) := by
  have hrange := char_range c
  have hlast : c.toNat < 0x110000 := by omega
  have hread : chars? (String.utf8EncodeChar c ++ rest) =
      (chars? rest).map (Char.ofNat c.toNat :: ·) := by
    show chars? ((if c.toNat ≤ 127 then _ else _) ++ rest) = _
    -- the four lengths, in the order in which the encoder tries them
    by_cases hone : c.toNat ≤ 127
    · rw [if_pos hone]
      exact chars?_one rest hone
    · rw [if_neg hone]
      by_cases htwo : c.toNat ≤ 2047
      · rw [if_pos (show c.val.toNat ≤ 2047 from htwo)]
        exact chars?_two rest (Nat.lt_of_not_le hone) htwo
      · rw [if_neg (show ¬ c.val.toNat ≤ 2047 from htwo)]
        by_cases hthree : c.toNat ≤ 65535
        · rw [if_pos (show c.val.toNat ≤ 65535 from hthree)]
          exact chars?_three rest (Nat.lt_of_not_le htwo) hthree (hrange.imp_right And.left)
        · rw [if_neg (show ¬ c.val.toNat ≤ 65535 from hthree)]
          exact chars?_four rest (Nat.lt_of_not_le hthree) hlast
  rw [hread, Char.ofNat_toNat]

/-- A text is read back. -/
theorem chars?_ofChars (cs : List Char) : chars? (ofChars cs) = some cs := by
  induction cs with
  | nil => rfl
  | cons c cs ih => rw [ofChars_cons, chars?_encode, ih]; rfl

/-- A string is read back. -/
theorem text?_ofString (s : String) : text? (ofString s) = some s := by
  rw [text?, ofString, chars?_ofChars]
  exact congrArg some String.ofList_toList

theorem encode_ne_nil (c : Char) : String.utf8EncodeChar c ≠ [] := by
  rw [← List.length_pos_iff, String.length_utf8EncodeChar]
  exact c.utf8Size_pos

theorem ofChars_ne_nil {cs : List Char} (h : cs ≠ []) : ofChars cs ≠ [] := by
  obtain ⟨c, cs, rfl⟩ := List.exists_cons_of_ne_nil h
  rw [ofChars_cons]
  exact List.append_ne_nil_of_left_ne_nil (encode_ne_nil c) _

/-- A text begins with an octet of its first character. -/
theorem mem_encode_of_head {c : Char} {cs : List Char} {b : UInt8}
    (h : (ofChars (c :: cs)).head? = some b) :
    b ∈ String.utf8EncodeChar c := by
  obtain ⟨a, as, has⟩ := List.exists_cons_of_ne_nil (encode_ne_nil c)
  rw [ofChars_cons, has] at h
  rw [has, Option.some.inj h.symm]
  exact List.mem_cons_self

/-- An octet that is ASCII stands for a character of its own. -/
theorem mem_of_mem_encode {c : Char} {b : UInt8} (h : b ∈ String.utf8EncodeChar c)
    (hascii : b < 128) :
    c = Char.ofNat b.toNat := by
  have hascii : b.toNat < 128 := UInt8.lt_iff_toNat_lt.mp hascii
  have hval : c.val.toNat = c.toNat := rfl
  unfold String.utf8EncodeChar at h
  simp only [hval] at h
  split at h
  · obtain rfl := List.mem_singleton.mp h
    rw [toNat_ofNat (by omega), Char.ofNat_toNat]
  · -- every octet of a longer form is at least 128
    have hlong : ∀ n, 128 ≤ n → n < 256 → b ≠ UInt8.ofNat n := by
      rintro n hn hn' rfl
      rw [toNat_ofNat hn'] at hascii
      omega
    have hrange := char_range c
    split at h
    · simp only [List.mem_cons, List.not_mem_nil, or_false] at h
      rcases h with h | h <;> exact absurd h (hlong _ (by omega) (by omega))
    · split at h
      · simp only [List.mem_cons, List.not_mem_nil, or_false] at h
        rcases h with h | h | h <;> exact absurd h (hlong _ (by omega) (by omega))
      · simp only [List.mem_cons, List.not_mem_nil, or_false] at h
        rcases h with h | h | h | h <;> exact absurd h (hlong _ (by omega) (by omega))

/-- An octet below 128 in the form of a text is a character of the text. -/
theorem mem_of_mem_ofChars {cs : List Char} {b : UInt8} (h : b ∈ ofChars cs) (hascii : b < 128) :
    Char.ofNat b.toNat ∈ cs := by
  obtain ⟨c, hc, hb⟩ := List.mem_flatMap.mp h
  rwa [← mem_of_mem_encode hb hascii]

/-- An ASCII text has as many octets as characters. -/
theorem length_ofChars {cs : List Char} (h : ∀ c ∈ cs, c.toNat ≤ 127) :
    (ofChars cs).length = cs.length := by
  induction cs with
  | nil => rfl
  | cons c cs ih =>
    obtain ⟨hc, hcs⟩ := List.forall_mem_cons.mp h
    have hone : String.utf8EncodeChar c = [UInt8.ofNat c.toNat] := if_pos hc
    rw [ofChars_cons, hone, List.length_append, ih hcs, List.length_singleton,
      List.length_cons, Nat.add_comm]

end Cellular.Bytes
