import Cellular.Proofs.Grammar.Positional
import Cellular.Reply.Registration
import Cellular.Registration
/-!
# Registration reports are read as they are written

A report is written with its status first and the area, the cell and the access technology behind
it, as far as they are known.  The three are written and read alike, so one lemma on values that may
be left out serves all of them.

The order of the argument is the order of a report: its status is a small number, which is read as
the code that it was written as; then come the three that may be missing, of which each is read by
`Cursor.optional_optionals`, with the others left for the next step.
-/

namespace Cellular

open Bytes

/-! ## Codes of a status

Several codes stand for one status, so a status is written as one of its own. -/

/-- A code of each status. -/
def RegistrationStatus.code : RegistrationStatus → Nat
  | notRegistering => 0
  | home => 1
  | searching => 2
  | denied => 3
  | outOfCoverage => 4
  | roaming => 5
  | none => 8

/-- The code of a status stands for it. -/
theorem RegistrationStatus.ofCode_code (s : RegistrationStatus) : ofCode s.code = s := by
  cases s <;> rfl

theorem RegistrationStatus.code_lt (s : RegistrationStatus) : s.code < 256 := by cases s <;> decide

/-! ## Hexadecimal texts

The area and the cell are texts of hexadecimal digits between quotation marks.  They are not taken
as numbers; what is asked of them is that they fit and that nothing in them could end them. -/

/-- The digits of hexadecimal numbers, small or capital. -/
def hexDigits : List Char := "0123456789ABCDEFabcdef".toList

/-- A number of at most so many hexadecimal digits. -/
structure IsHex (capacity : Nat) (s : String) : Prop where
  digits : s.toList.all hexDigits.contains = true
  length : s.toList.length ≤ capacity

namespace IsHex

variable {capacity : Nat} {s : String}

/-- All characters of such a number are hexadecimal digits. -/
theorem mem_hexDigits {c : Char} (h : IsHex capacity s) (hc : c ∈ s.toList) : c ∈ hexDigits :=
  List.contains_iff_mem.mp (List.all_eq_true.mp h.digits c hc)

/-- No other characters are in it. -/
theorem not_mem {c : Char} (h : IsHex capacity s) (hc : c ∉ hexDigits) : c ∉ s.toList :=
  fun hmem => hc (h.mem_hexDigits hmem)

/-- It has as many octets as digits, so there is room for it. -/
theorem length_octets (h : IsHex capacity s) : (ofString s).length ≤ capacity := by
  have hascii : hexDigits.all (·.toNat ≤ 127) = true := by decide
  have hchars : ∀ c ∈ s.toList, c.toNat ≤ 127 := fun c hc =>
    of_decide_eq_true (List.all_eq_true.mp hascii c (h.mem_hexDigits hc))
  rw [ofString, length_ofChars hchars]
  exact h.length

/-- Quoted or not, it has no white space in it. -/
theorem isSpace_of_mem {b : UInt8} (h : IsHex capacity s) (hb : b ∈ Cursor.inMarks s) :
    isSpace b = false := by
  rw [Bool.eq_false_iff]
  intro hspace
  have hspaces : b = 32 ∨ b = 9 ∨ b = 10 ∨ b = 12 ∨ b = 13 := by
    simpa [isSpace, or_assoc] using hspace
  obtain ⟨hquote, hascii, hnot⟩ : b ≠ quote ∧ b < 128 ∧ Char.ofNat b.toNat ∉ hexDigits := by
    rcases hspaces with rfl | rfl | rfl | rfl | rfl <;> decide
  rcases List.mem_cons.mp hb with rfl | hb
  · exact hquote rfl
  · rcases List.mem_append.mp hb with hb | hb
    · exact h.not_mem hnot (mem_of_mem_ofChars hb hascii)
    · exact hquote (List.mem_singleton.mp hb)

/-- It is read where a string is expected. -/
theorem string_append (h : IsHex capacity s) (begun : Bool) (rest : Bytes) :
    Cursor.string capacity { rest := Cursor.inMarks s ++ rest, begun } =
      some (s, { rest, begun }) :=
  Cursor.string_inMarks (h.not_mem (by decide)) (h.not_mem (by decide +kernel)) h.length_octets rest

end IsHex

/-! ## Reports

A proper report has texts that fit where it has them.  It may have a cell without an area, since
each of the three may be left out by itself. -/

namespace RegistrationReport

/-- A report as modems send it. -/
structure Proper (r : RegistrationReport) : Prop where
  stat : r.stat < 256
  lac : ∀ s, r.lac = some s → IsHex 8 s
  ci : ∀ s, r.ci = some s → IsHex 16 s
  act : ∀ n, r.act = some n → n < 256

/-- What is written behind the status. -/
def details (r : RegistrationReport) : List (Option Bytes) :=
  [r.lac.map Cursor.inMarks, r.ci.map Cursor.inMarks, r.act.map Decimal.digits]

/-- The report as it is written. -/
def text (r : RegistrationReport) : Bytes := Decimal.digits r.stat ++ Cursor.optionals r.details

example : (⟨1, some "00C3", some "0000A13F", some 7⟩ : RegistrationReport).text =
    ofString "1,\"00C3\",\"0000A13F\",7" := by
  decide

variable {r : RegistrationReport}

/-- There is no white space in a report. -/
theorem isSpace_of_mem_text (h : r.Proper) {b : UInt8} (hb : b ∈ r.text) : isSpace b = false := by
  rcases List.mem_append.mp hb with hb | hb
  · exact Decimal.isSpace_of_mem_digits hb
  · obtain rfl | ⟨bs, hbs, hb⟩ := Cursor.mem_optionals hb
    · rfl
    · simp only [details, List.mem_cons, List.not_mem_nil, or_false, eq_comm (a := some bs),
        Option.map_eq_some_iff] at hbs
      rcases hbs with ⟨s, hs, rfl⟩ | ⟨s, hs, rfl⟩ | ⟨n, hn, rfl⟩
      · exact (h.lac s hs).isSpace_of_mem hb
      · exact (h.ci s hs).isSpace_of_mem hb
      · exact Decimal.isSpace_of_mem_digits hb

/-- A report begins with the digit of its status. -/
theorem opens_text (r : RegistrationReport) : Cursor.Opens r.text :=
  (Cursor.opens_digits r.stat).append _

/-- A report is read as it was written. -/
theorem read?_text (h : r.Proper) {name : Bytes} (hhead : name.head? = some 43) (hcolon : 58 ∉ name)
    (htight : Tight (name ++ 58 :: 32 :: r.text)) :
    read? (name ++ 58 :: 32 :: r.text) = some r := by
  have hstart : Cursor.start? (name ++ 58 :: 32 :: r.text) = some { rest := r.text } :=
    Cursor.start?_header hhead hcolon htight (opens_text r)
  have hfirst : Cursor.approach false { rest := r.text } = some { rest := r.text, begun := true } :=
    Cursor.approach_first (opens_text r)
  have hstat : Cursor.octet { rest := r.text, begun := true } =
      some (r.stat, { rest := Cursor.optionals r.details, begun := true }) :=
    Cursor.octet_digits h.stat (Cursor.parts_optionals rfl r.details)
  -- each of the other values is approached and read, and leaves those behind it
  obtain ⟨lac, hlac, hlac'⟩ :=
    Cursor.optional_optionals false true [r.ci.map Cursor.inMarks, r.act.map Decimal.digits] r.lac
    (fun s _ => Cursor.opens_inMarks s) fun s hs => (h.lac s hs).string_append true _
  obtain ⟨ci, hci, hci'⟩ := Cursor.optional_optionals false true [r.act.map Decimal.digits] r.ci
    (fun s _ => Cursor.opens_inMarks s) fun s hs => (h.ci s hs).string_append true _
  obtain ⟨act, hact, hact'⟩ := Cursor.optional_optionals true true [] r.act
    (fun n _ => Cursor.opens_digits n) fun n hn => Cursor.octet_digits (h.act n hn) parts_nil
  have hend : Cursor.atEnd { rest := Cursor.optionals [], begun := true } = true := rfl
  rw [read?]
  simp only [hstart, hfirst, hstat, details, hlac, hlac', hci, hci', hact, hact', hend,
    Option.bind_eq_bind, Option.bind_some, if_true]

end RegistrationReport

end Cellular
