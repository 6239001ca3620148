/-!
# Bytes on the line

What a modem sends is a list of octets.  Most of it is ASCII, but names and credentials may hold
any text, and a noisy line may hold octets that are no text at all.  This module has the octet
classes that the reply grammar is written in, and the two directions between octets and characters:

* `Bytes.ofString` writes every character in its UTF-8 form, one to four octets;
* `Bytes.chars?` reads the form back, and refuses every list that is not the form of some text:
  stray or missing continuation octets, forms longer than needed, surrogates, and numbers beyond
  the last character.

Both recurse on the list, so closed instances evaluate in the kernel.
-/

namespace Cellular

/-- Octets in the order they were received. -/
abbrev Bytes := List UInt8

namespace Bytes

/-! ## Classes of octets -/

/-- The decimal digits `0` to `9`. -/
def isDigit (b : UInt8) : Bool := 48 ≤ b && b ≤ 57

/-- The number that a decimal digit stands for. -/
def digitValue (b : UInt8) : Nat := b.toNat - 48

/-- A space or a horizontal tab: the spacing allowed inside a line. -/
def isPad (b : UInt8) : Bool := b == 32 || b == 9

/-- ASCII white space: space, tab, line feed, form feed, carriage return.  The vertical tab is
not in this class. -/
def isSpace (b : UInt8) : Bool := b == 32 || b == 9 || b == 10 || b == 12 || b == 13

/-- Either half of a line ending. -/
def isLineBreak (b : UInt8) : Bool := b == 13 || b == 10

/-- The quotation mark. -/
def quote : UInt8 := 34

/-- The carriage return and line feed that frame a line. -/
def lineEnd : Bytes := [13, 10]

/-! ## Trimming -/

/-- Without the ASCII white space in front. -/
def trimLeft (bs : Bytes) : Bytes := bs.dropWhile isSpace

/-- Without the ASCII white space behind. -/
def trimRight (bs : Bytes) : Bytes := (bs.reverse.dropWhile isSpace).reverse

/-- Without the ASCII white space at either end. -/
def trim (bs : Bytes) : Bytes := trimRight (trimLeft bs)

/-! ## Octets of a text -/

/-- The UTF-8 form of a list of characters. -/
def ofChars (cs : List Char) : Bytes := cs.flatMap String.utf8EncodeChar

/-- The UTF-8 form of a string. -/
def ofString (s : String) : Bytes := ofChars s.toList

@[simp] theorem ofChars_nil : ofChars [] = [] := rfl

@[simp] theorem ofChars_cons (c : Char) (cs : List Char) :
    ofChars (c :: cs) = String.utf8EncodeChar c ++ ofChars cs := rfl

theorem ofChars_append (cs ds : List Char) : ofChars (cs ++ ds) = ofChars cs ++ ofChars ds := by
  simp [ofChars]

/-! ## Text of octets -/

/-- Octets that continue a character begun by an earlier one. -/
def isContinuation (b : UInt8) : Bool := 128 ≤ b && b < 192

/-- The six bits that a continuation octet carries. -/
def low6 (b : UInt8) : Nat := b.toNat % 64

/-- The characters whose UTF-8 form the list is, if it is one.  Each form must be the shortest
for its character, and no surrogate and nothing beyond U+10FFFF is a character. -/
def chars? : Bytes → Option (List Char)
  | [] => some []
  | a :: rest =>
    if a < 128 then
      (chars? rest).map (Char.ofNat a.toNat :: ·)
    else match rest with
      | [] => none
      | b :: rest =>
        if 192 ≤ a && a < 224 && isContinuation b then
          let v := a.toNat % 32 * 64 + low6 b
          if 0x80 ≤ v then (chars? rest).map (Char.ofNat v :: ·) else none
        else match rest with
          | [] => none
          | c :: rest =>
            if 224 ≤ a && a < 240 && isContinuation b && isContinuation c then
              let v := a.toNat % 16 * 4096 + low6 b * 64 + low6 c
              if 0x800 ≤ v && !(0xD800 ≤ v && v < 0xE000) then
                (chars? rest).map (Char.ofNat v :: ·)
              else none
            else match rest with
              | [] => none
              | d :: rest =>
                if 240 ≤ a && a < 248 && isContinuation b && isContinuation c
                    && isContinuation d then
                  let v := a.toNat % 8 * 262144 + low6 b * 4096 + low6 c * 64 + low6 d
                  if 0x10000 ≤ v && v < 0x110000 then (chars? rest).map (Char.ofNat v :: ·)
                  else none
                else none

/-- The text whose UTF-8 form the list is, if it is one. -/
def text? (bs : Bytes) : Option String := (chars? bs).map String.ofList

example : chars? (ofString "+CREG: 5") = some "+CREG: 5".toList := by decide +kernel
example : chars? (ofString "aé日😀") = some "aé日😀".toList := by decide +kernel
example : chars? [0xC0, 0x80] = none := by decide
example : chars? [0xED, 0xA0, 0x80] = none := by decide
example : chars? [0xE2, 0x82] = none := by decide

/-! ## Searching -/

/-- What follows `tag`, when the list begins with it. -/
def dropTag? : (tag : Bytes) → Bytes → Option Bytes
  | [], bs => some bs
  | _ :: _, [] => none
  | t :: tag, b :: bs => if t = b then dropTag? tag bs else none

theorem dropTag?_eq_some_iff {tag bs rest : Bytes} :
    dropTag? tag bs = some rest ↔ bs = tag ++ rest := by
  induction tag generalizing bs with
  | nil => simp [dropTag?]
  | cons t tag ih =>
    cases bs with
    | nil => simp [dropTag?]
    | cons b bs =>
      by_cases h : t = b
      · simp [dropTag?, h, ih]
      · simp [dropTag?, h, Ne.symm h]

end Bytes

end Cellular
