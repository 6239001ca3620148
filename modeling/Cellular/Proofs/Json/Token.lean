import Cellular.Json.Reader
import Cellular.Proofs.Text.Decimal
/-!
# Strings and numbers of a text are read as they were written

A written string is read back whatever there is in it, and a number that has 64 bits is, so long as
nothing follows that would go on with it.

Both are inductions on what was written.  For a string, one character is escaped in one of three
ways, and `points?_escaped` says that each is undone; halves of surrogate pairs do not come up,
since no character is one (`whole_char`).  For a number, three things are read one after another,
and the latter two are empty here: digits, a fraction and an exponent (`Ends`).
-/

namespace Cellular.Json

variable {cs rest : List Char}

/-! ## Strings

A written string is its characters, each escaped or as it is, with a quotation mark on either side.
The reader gathers code points first and puts them together to characters afterwards, and so there
are two inductions. -/

theorem hexValue?_hexDigit {n : Nat} (h : n < 16) : hexValue? (hexDigit n) = some n := by
  have hall : ∀ n < 16, hexValue? (hexDigit n) = some n := by decide
  exact hall n h

/-- The two digits of a control character. -/
theorem hex4?_control {n : Nat} (h : n < 32) :
    hex4? '0' '0' (hexDigit (n / 16)) (hexDigit (n % 16)) = some n := by
  have hzero : hexValue? '0' = some 0 := rfl
  simp only [hex4?, hzero, hexValue?_hexDigit (show n / 16 < 16 by omega),
    hexValue?_hexDigit (show n % 16 < 16 by omega), Option.bind_eq_bind, Option.bind_some,
    Option.pure_def, Option.some.injEq]
  omega

/-- A character of a written string is read. -/
theorem points?_escaped (before : List Nat) (c : Char) (cs : List Char) :
    points? before (escaped c ++ cs) = points? (c.toNat :: before) cs := by
  unfold escaped
  -- five characters have an escape of their own, and the other control characters one of four
  -- digits
  split
  case isTrue h => rw [h]; rfl
  split
  case isTrue h => rw [h]; rfl
  split
  case isTrue h => rw [h]; rfl
  split
  case isTrue h => rw [h]; rfl
  split
  case isTrue h => rw [h]; rfl
  split
  case isTrue h => simp only [List.cons_append, List.nil_append, points?, hex4?_control h]
  case isFalse _ hback _ _ _ hcontrol => simp [points?, hback, hcontrol]

/-- The code points of a written string are those of its characters. -/
theorem points?_flatMap (before : List Nat) (cs rest : List Char) :
    points? before (cs.flatMap escaped ++ '"' :: rest) =
      some (before.reverse ++ cs.map Char.toNat, rest) := by
  induction cs generalizing before with
  | nil => simp [points?]
  | cons c cs ih =>
    rw [List.flatMap_cons, List.append_assoc, points?_escaped, ih]
    simp

/-- No character is half of a surrogate pair. -/
theorem whole_char (c : Char) : (isHighHalf c.toNat || isLowHalf c.toNat) = false := by
  have hvalid : c.toNat < 0xD800 ∨ 0xDFFF < c.toNat ∧ c.toNat < 0x110000 := c.valid
  simp only [isHighHalf, isLowHalf, Bool.or_eq_false_iff, Bool.and_eq_false_iff,
    decide_eq_false_iff_not]
  omega

/-- The code points of characters are put together to the characters. -/
theorem chars?_map (before cs : List Char) :
    chars? before (cs.map Char.toNat) = some (before.reverse ++ cs) := by
  induction cs generalizing before with
  | nil => simp [chars?]
  | cons c cs ih =>
    obtain ⟨hhigh, hlow⟩ := Bool.or_eq_false_iff.mp (whole_char c)
    -- the reader looks at two units at a time
    cases cs with
    | nil => simp [chars?, hhigh, hlow]
    | cons d cs =>
      have hstep : chars? before ((c :: d :: cs).map Char.toNat) =
          chars? (c :: before) ((d :: cs).map Char.toNat) := by
        simp [chars?, hhigh, hlow]
      rw [hstep, ih]
      simp

/-- A string is read as it is written. -/
theorem string?_written (s : String) (rest : List Char) :
    string? (s.toList.flatMap escaped ++ '"' :: rest) = some (some s, rest) := by
  simp [string?, points?_flatMap, chars?_map]

/-! ## Numbers

Where a number ends depends on what follows it.  `Ends` says of what follows that it goes on with no
digit, point or exponent, which is so of everything that may stand behind a value. -/

/-- Nothing in front that goes on with a number. -/
def Ends (rest : List Char) : Prop :=
  ∀ c, rest.head? = some c → c.isDigit = false ∧ c ∉ ['.', 'e', 'E']

/-- The digits of a number have the number as their value. -/
theorem digitsValue_toDigits (n : Nat) : digitsValue (Nat.toDigits 10 n) = n := by
  have hvalue : digitsValue (Nat.toDigits 10 n) = Nat.ofDigitChars 10 (Nat.toDigits 10 n) 0 := by
    rw [digitsValue, Nat.ofDigitChars]
    simp only [Nat.mul_comm 10]
    rfl
  rw [hvalue, Nat.ofDigitChars_ten_toDigits]

/-- The digits of a number are read up to the last one. -/
theorem digits_toDigits (n : Nat) (h : Ends rest) :
    digits (Nat.toDigits 10 n ++ rest) = (Nat.toDigits 10 n, rest) := by
  have hall : ∀ c ∈ Nat.toDigits 10 n, c.isDigit = true :=
    fun c hc => Decimal.isDigit_of_mem_toDigits hc
  rw [digits, List.takeWhile_append_of_pos hall, List.dropWhile_append_of_pos hall]
  cases rest with
  | nil => simp
  | cons c rest => simp [(h c rfl).1]

/-- There is no fraction where a number ends. -/
theorem fraction?_ends (h : Ends rest) : fraction? rest = some ([], rest) := by
  cases rest with
  | nil => rfl
  | cons c rest =>
    have hother : c ≠ '.' := fun heq => (h c rfl).2 (heq ▸ List.mem_cons_self)
    simp [fraction?, hother]

/-- There is no exponent there either. -/
theorem exponent?_ends (h : Ends rest) : exponent? rest = some ([], rest) := by
  cases rest with
  | nil => rfl
  | cons c rest =>
    have hother : c ≠ 'e' ∧ c ≠ 'E' := by
      constructor <;> rintro rfl <;> exact (h _ rfl).2 (by decide)
    simp [exponent?, hother]

theorem head?_toDigits {n : Nat} (h : 0 < n) : (Nat.toDigits 10 n).head? ≠ some '0' := by
  induction n using Nat.strongRecOn with
  | _ n ih =>
    by_cases hn : n < 10
    · have hall : ∀ n < 10, 0 < n → (Nat.toDigits 10 n).head? ≠ some '0' := by decide
      exact hall n hn h
    · rw [Nat.toDigits_of_base_le (by decide) (Nat.le_of_not_lt hn), List.head?_append]
      obtain ⟨c, hc⟩ : ∃ c, (Nat.toDigits 10 (n / 10)).head? = some c :=
        ⟨_, List.head?_eq_some_head Nat.toDigits_ne_nil⟩
      rw [hc, Option.some_or, ← hc]
      exact ih (n / 10) (by omega) (by omega)

/-- A number is written without a zero in front. -/
theorem no_leading_zero (n : Nat) :
    ((Nat.toDigits 10 n).isEmpty || (Nat.toDigits 10 n).length > 1 && (Nat.toDigits 10 n).head? =
      some '0') = false := by
  rcases Nat.eq_zero_or_pos n with rfl | hn
  · rfl
  · simp [head?_toDigits hn]

/-- The sign of a number as it is written. -/
def sign (negative : Bool) : List Char := if negative then ['-'] else []

/-- The first character of a number as it is written. -/
theorem front_written (negative : Bool) (k : Nat) :
    ∃ c cs, sign negative ++ Nat.toDigits 10 k = c :: cs ∧
      (c.isDigit = true ∧ negative = false ∨ c = '-' ∧ negative = true) := by
  cases negative with
  | true => exact ⟨'-', _, rfl, .inr ⟨rfl, rfl⟩⟩
  | false =>
    obtain ⟨c, cs, hcs⟩ := List.exists_cons_of_ne_nil (Nat.toDigits_ne_nil (b := 10) (n := k))
    exact ⟨c, cs, hcs, .inl ⟨Decimal.isDigit_of_mem_toDigits (hcs ▸ List.mem_cons_self), rfl⟩⟩

/-- Digits with a sign are read as the integer that they stand for, if that has 64 bits. -/
theorem number?_digits {negative : Bool} {k : Nat} {n : Int}
    (h : integer? negative (Nat.toDigits 10 k) = some n) (hrest : Ends rest) :
    number? (sign negative ++ Nat.toDigits 10 k ++ rest) = some (.whole n, rest) := by
  -- a minus sign stands in front just when one was written
  have hnegative : decide ((sign negative ++ Nat.toDigits 10 k ++ rest).head? = some '-') =
      negative := by
    obtain ⟨c, cs, hcs, ⟨hdigit, rfl⟩ | ⟨rfl, rfl⟩⟩ := front_written negative k
    · have hother : c ≠ '-' := by
        rintro rfl
        cases hdigit
      simp [hcs, hother]
    · rfl
  have hbody : (if negative then (sign negative ++ Nat.toDigits 10 k ++ rest).drop 1
      else sign negative ++ Nat.toDigits 10 k ++ rest) = Nat.toDigits 10 k ++ rest := by
    cases negative <;> rfl
  simp only [number?, hnegative, hbody, digits_toDigits k hrest, no_leading_zero,
    fraction?_ends hrest, exponent?_ends hrest, h, Option.bind_eq_bind, Option.bind_some]
  rfl

/-- An integer of 64 bits, with a sign if it is negative. -/
def IsWord (n : Int) : Prop := -9223372036854775808 ≤ n ∧ n < 18446744073709551616

theorem toList_ofNat (k : Nat) :
    (toString (Int.ofNat k)).toList = sign false ++ Nat.toDigits 10 k := Nat.toList_repr

theorem toList_negSucc (k : Nat) :
    (toString (Int.negSucc k)).toList = sign true ++ Nat.toDigits 10 (k + 1) := by
  show ("-" ++ Nat.repr (k + 1)).toList = ['-'] ++ Nat.toDigits 10 (k + 1)
  rw [String.toList_append, Nat.toList_repr]
  rfl

/-- A number begins with a digit or its sign. -/
theorem front_toString (n : Int) :
    ∃ c cs, (toString n).toList = c :: cs ∧ (c.isDigit = true ∨ c = '-') := by
  obtain ⟨negative, k, hn⟩ : ∃ negative k, (toString n).toList =
      sign negative ++ Nat.toDigits 10 k := by
    cases n with
    | ofNat k => exact ⟨false, k, toList_ofNat k⟩
    | negSucc k => exact ⟨true, k + 1, toList_negSucc k⟩
  obtain ⟨c, cs, hcs, hfront⟩ := front_written negative k
  exact ⟨c, cs, hn.trans hcs, hfront.imp And.left And.left⟩

/-- No number of 64 bits has more than twenty digits. -/
theorem length_toDigits {k : Nat} (h : k < 18446744073709551616) :
    ¬ 20 < (Nat.toDigits 10 k).length :=
  Nat.not_lt.mpr ((Nat.length_toDigits_le_iff (by decide) (by decide)).mpr (by omega))

/-- An integer of 64 bits is read as it is written. -/
theorem number?_written {n : Int} (h : IsWord n) (hrest : Ends rest) :
    number? ((toString n).toList ++ rest) = some (.whole n, rest) := by
  obtain ⟨hlow, hhigh⟩ := h
  cases n with
  | ofNat k =>
    have hk : k < 18446744073709551616 := by
      rw [Int.ofNat_eq_natCast] at hhigh
      omega
    have hinteger : integer? false (Nat.toDigits 10 k) = some (Int.ofNat k) := by
      simp [integer?, length_toDigits hk, digitsValue_toDigits, hk]
    rw [toList_ofNat, number?_digits hinteger hrest]
  | negSucc k =>
    have hk : ¬ 9223372036854775808 < k + 1 := by omega
    have hinteger : integer? true (Nat.toDigits 10 (k + 1)) = some (Int.negSucc k) := by
      simp [integer?, length_toDigits (show k + 1 < _ by omega), digitsValue_toDigits, hk,
        Int.negSucc_eq]
    rw [toList_negSucc, number?_digits hinteger hrest]

end Cellular.Json
