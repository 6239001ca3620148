import Cellular.Proofs.Text.Decimal
import Cellular.Proofs.Text.Utf8
import Cellular.Grammar.Positional
/-!
# What a cursor reads off a reply

Values that stand where they belong are read as they were written: small numbers, quoted texts, and
nothing where a value is left out.

A cursor knows whether a value has been read before, since the first value has no comma in front.
So there are two lemmas of approach, one for the first value (`approach_first`) and one for all
others (`approach_comma`).  What is common to all values is that they begin with an octet that is
neither spacing nor what tells that there is none (`Opens`); that is the hypothesis under which the
cursor sees that a value is there.

Values that may be left out are written up to the last one that is there, so that the reply may end
early.  `optional_optionals` reads one of them off and leaves the rest in the same form, which is
the step of every induction over such a list.
-/

namespace Cellular.Cursor

open Bytes

variable {name body bs rest : Bytes} {n : Nat}

/-! ## Where a value begins -/

/-- The octets of a value: it does not begin with spacing, nor with what tells that there is
none. -/
structure Opens (bs : Bytes) : Prop where
  ne_nil : bs ≠ []
  gap : Parts isGap bs
  comma : Parts (· == 44) bs
  plus : Parts (· == 43) bs

/-- What follows a value does not change that it is there. -/
theorem Opens.append (h : Opens bs) (rest : Bytes) : Opens (bs ++ rest) where
  ne_nil := List.append_ne_nil_of_left_ne_nil h.ne_nil rest
  gap := h.gap.append h.ne_nil
  comma := h.comma.append h.ne_nil
  plus := h.plus.append h.ne_nil

/-- A number is seen where it stands. -/
theorem opens_digits (n : Nat) : Opens (Decimal.digits n) where
  ne_nil := Decimal.digits_ne_nil n
  gap := Decimal.parts_digits (by decide) n
  comma := Decimal.parts_digits (by decide) n
  plus := Decimal.parts_digits (by decide) n

theorem skipGaps_parts (h : Parts isGap rest) : skipGaps rest = rest := dropWhile_parts h

/-- The values behind a header, a colon and a space. -/
theorem start?_header (hhead : name.head? = some 43) (hcolon : 58 ∉ name)
    (htight : Tight (name ++ 58 :: 32 :: body)) (hbody : Opens body) :
    start? (name ++ 58 :: 32 :: body) = some { rest := body } := by
  have hplus : (name ++ 58 :: 32 :: body).head? = some 43 := by
    rw [List.head?_append, hhead]
    rfl
  have hcontains : (name ++ 58 :: 32 :: body).contains 58 = true := by simp
  have hname : ∀ b ∈ name, (b != 58) = true :=
    fun b hb => bne_iff_ne.mpr fun heq => hcolon (heq ▸ hb)
  have hdrop : (name ++ 58 :: 32 :: body).dropWhile (· != 58) = 58 :: 32 :: body :=
    dropWhile_stretch hname (parts_cons rfl)
  have hskip : skipGaps (32 :: body) = body := skipGaps_parts hbody.gap
  rw [start?, htight.trim]
  simp only [hplus, hcontains, hdrop, and_self, if_true, List.drop_succ_cons, List.drop_zero, hskip]
  split
  · exact absurd rfl hbody.ne_nil
  · rfl

/-- The first value begins without a comma. -/
theorem approach_first {last : Bool} (h : Opens rest) :
    approach last { rest } = some { rest, begun := true } := by
  cases rest with
  | nil => exact absurd rfl h.ne_nil
  | cons b rest =>
    have hb : b ≠ 44 := by simpa using h.comma b rfl
    rw [approach, skipGaps_parts h.gap]
    split
    · rename_i hnil
      cases hnil
    · rename_i hcons
      exact absurd (List.cons.inj hcons).1 hb
    · rename_i hcons
      rw [← hcons]
      rfl

/-- A value behind a comma. -/
theorem approach_comma {last begun : Bool} (hgap : Parts isGap rest) (hne : rest ≠ []) :
    approach last { rest := 44 :: rest, begun } = some { rest, begun } := by
  have hskip : skipGaps (44 :: rest) = 44 :: rest := rfl
  rw [approach]
  simp only [hskip, skipGaps_parts hgap]

/-! ## Single values

A number ends at the first octet that is no digit, a quoted text at the first quotation mark.  Texts
without a quotation mark or a backslash are written as they are. -/

/-- A number of one octet is read. -/
theorem octet_digits {begun : Bool} (h : n < Decimal.octet) (hrest : Parts isDigit rest) :
    octet { rest := Decimal.digits n ++ rest, begun } = some (n, { rest, begun }) := by
  rcases Nat.eq_zero_or_pos n with rfl | hpos
  · rfl
  · -- a zero in front would be a number of its own
    obtain ⟨d, ds, hdigits, -, hd⟩ := Decimal.digits_front hpos
    have hscan := Decimal.scan_digits h hrest
    rw [hdigits] at hscan ⊢
    rw [octet]
    split
    · rename_i hzero
      exact absurd (List.cons.inj hzero).1 hd
    · simp only [hscan, Option.map_some]

/-- A quoted string ends at the first quotation mark, where nothing is escaped. -/
theorem closing_append {inner : Bytes} (hquote : quote ∉ inner) (hescape : 92 ∉ inner)
    (rest : Bytes) :
    closing false (inner ++ quote :: rest) = some (inner, rest) := by
  induction inner with
  | nil => rfl
  | cons b inner ih =>
    obtain ⟨hb, hinner⟩ : quote ≠ b ∧ quote ∉ inner := by
      simpa only [List.mem_cons, not_or] using hquote
    obtain ⟨hb', hinner'⟩ : 92 ≠ b ∧ 92 ∉ inner := by
      simpa only [List.mem_cons, not_or] using hescape
    have hclose : (b == quote && !false) = false := by simpa using hb.symm
    have hnext : (b == 92 && !false) = false := by simpa using hb'.symm
    rw [List.cons_append, closing, hclose, hnext, ih hinner hinner']
    rfl

/-- A text between quotation marks. -/
def inMarks (s : String) : Bytes := quote :: (ofString s ++ [quote])

theorem inMarks_append (s : String) (rest : Bytes) :
    inMarks s ++ rest = quote :: (ofString s ++ quote :: rest) := by
  simp [inMarks]

/-- A text between quotation marks is seen where it stands. -/
theorem opens_inMarks (s : String) : Opens (inMarks s) :=
  ⟨nofun, parts_cons rfl, parts_cons rfl, parts_cons rfl⟩

/-- A text between quotation marks is read. -/
theorem string_inMarks {s : String} {capacity : Nat} {begun : Bool} (hquote : '"' ∉ s.toList)
    (hescape : '\\' ∉ s.toList) (hlength : (ofString s).length ≤ capacity) (rest : Bytes) :
    string capacity { rest := inMarks s ++ rest, begun } = some (s, { rest, begun }) := by
  have hquote' : quote ∉ ofString s := fun h => hquote (mem_of_mem_ofChars h (by decide))
  have hescape' : 92 ∉ ofString s := fun h => hescape (mem_of_mem_ofChars h (by decide))
  rw [inMarks_append, string]
  simp only [beq_self_eq_true, if_true, closing_append hquote' hescape', Option.bind_eq_bind,
    Option.bind_some, text?_ofString, if_pos hlength]
  rfl

/-! ## Values that may be left out

A value that is left out shows by what stands in its place: the end of the reply or the comma of the
next value. -/

/-- A value that is there. -/
theorem optional_some {α : Type} {value : Cursor → Option (α × Cursor)} {a : α} {c c' : Cursor}
    (hopens : Opens c.rest) (h : value c = some (a, c')) :
    optional value c = some (some a, c') := by
  rw [optional]
  split
  · exact absurd ‹c.rest = []› hopens.ne_nil
  · rename_i hrest
    exact absurd (hopens.comma 44 (by rw [hrest]; rfl)) (by decide)
  · rename_i hrest
    exact absurd (hopens.plus 43 (by rw [hrest]; rfl)) (by decide)
  · rw [h]
    rfl

/-- Values that may be left out, as they are written: each behind a comma, up to the last one that
is there. -/
def optionals : List (Option Bytes) → Bytes
  | [] => []
  | v :: vs => if (v :: vs).all Option.isNone then [] else 44 :: (v.getD [] ++ optionals vs)

variable {v : Option Bytes} {vs : List (Option Bytes)}

theorem optionals_eq_nil (h : vs.all Option.isNone = true) : optionals vs = [] := by
  cases vs with
  | nil => rfl
  | cons v vs => exact if_pos h

/-- A value in front of one that is there takes its comma, whether it is there itself or not. -/
theorem optionals_cons (h : ¬(v :: vs).all Option.isNone = true) :
    optionals (v :: vs) = 44 :: (v.getD [] ++ optionals vs) :=
  if_neg h

theorem optionals_singleton (bs : Bytes) : optionals [some bs] = 44 :: bs := by
  rw [optionals_cons (by simp), Option.getD_some, optionals_eq_nil rfl, List.append_nil]

/-- They begin with a comma, if at all. -/
theorem parts_optionals {p : UInt8 → Bool} (h : p 44 = false) (vs : List (Option Bytes)) :
    Parts p (optionals vs) := by
  by_cases hvs : vs.all Option.isNone = true
  · rw [optionals_eq_nil hvs]
    exact parts_nil
  · cases vs with
    | nil => exact absurd rfl hvs
    | cons v vs =>
      rw [optionals_cons hvs]
      exact parts_cons h

/-- What is in them is in one of the values, unless it is a comma. -/
theorem mem_optionals {b : UInt8} (h : b ∈ optionals vs) :
    b = 44 ∨ ∃ bs, some bs ∈ vs ∧ b ∈ bs := by
  induction vs with
  | nil => cases h
  | cons v vs ih =>
    by_cases hnone : (v :: vs).all Option.isNone = true
    · rw [optionals_eq_nil hnone] at h
      cases h
    · rw [optionals_cons hnone, List.mem_cons, List.mem_append] at h
      rcases h with h | h | h
      · exact .inl h
      · cases v with
        | none => cases h
        | some bs => exact .inr ⟨bs, List.mem_cons_self, h⟩
      · exact (ih h).imp_right fun ⟨bs, hbs, hb⟩ => ⟨bs, List.mem_cons_of_mem _ hbs, hb⟩

/-- A value that is there or not is read so, and those behind it are left. -/
theorem optional_optionals {α : Type} {value : Cursor → Option (α × Cursor)} {write : α → Bytes}
    (last begun : Bool) (vs : List (Option Bytes)) (given : Option α)
    (hopens : ∀ a, given = some a → Opens (write a)) (hread : ∀ a, given = some a →
      value { rest := write a ++ optionals vs, begun } =
        some (a, { rest := optionals vs, begun })) :
    ∃ c, approach last { rest := optionals (given.map write :: vs), begun } = some c ∧
      optional value c = some (given, { rest := optionals vs, begun }) := by
  cases given with
  | none =>
    rw [Option.map_none]
    by_cases hvs : vs.all Option.isNone = true
    · -- nothing is written from here on
      rw [optionals_eq_nil hvs, optionals_eq_nil (by simpa using hvs)]
      exact ⟨_, rfl, rfl⟩
    · -- the comma of the next value is in sight
      have hnone : ¬(none :: vs : List (Option Bytes)).all Option.isNone = true := by
        simpa using hvs
      obtain ⟨rest, hrest⟩ : ∃ rest, optionals vs = 44 :: rest := by
        cases vs with
        | nil => exact absurd rfl hvs
        | cons v vs => exact ⟨_, optionals_cons hvs⟩
      rw [optionals_cons hnone, Option.getD_none, List.nil_append, hrest]
      exact ⟨_, approach_comma (parts_cons rfl) nofun, rfl⟩
  | some a =>
    have hfront := (hopens a rfl).append (optionals vs)
    rw [Option.map_some, optionals_cons (by simp), Option.getD_some]
    exact ⟨_, approach_comma hfront.gap hfront.ne_nil, optional_some hfront (hread a rfl)⟩

end Cellular.Cursor
