import Cellular.Text.Bytes
/-!
# Stretches of octets

Nearly all that is read off a line is a stretch: octets of some class, up to the first that is not
of the class.  The stretch comes out as it was put in when all of it is of the class and what
follows parts from it (`Bytes.Parts`).

Whether a list parts from a class depends on its first octet only, and nothing is asked of an empty
list.  So the condition is cheap to check: it holds at the end of a line, it can be computed from
one octet (`parts_cons`, `parts_of_head`), and it passes on to whatever is put behind a list that is
not empty (`Parts.append`).  Two lemmas then say what reading does with a stretch:
`takeWhile_stretch` gives the stretch, and `dropWhile_stretch` what follows it.
-/

namespace Cellular.Bytes

variable {p : UInt8 → Bool} {b : UInt8} {bs xs rest : Bytes}

/-- The list does not go on with an octet of that class. -/
def Parts (p : UInt8 → Bool) (bs : Bytes) : Prop := ∀ b, bs.head? = some b → p b = false

/-- At the end of a line every class ends. -/
theorem parts_nil : Parts p [] := nofun

/-- A list parts from a class when its first octet is not of the class. -/
theorem parts_cons (h : p b = false) : Parts p (b :: bs) := by
  rintro c ⟨⟩
  exact h

/-- Whether the list goes on so can be computed. -/
theorem parts_of_head (h : bs.head?.all (!p ·) = true) : Parts p bs := by
  intro b hb
  rw [hb] at h
  simpa using h

/-- A list without octets of a class parts from it. -/
theorem parts_of_forall (h : ∀ b ∈ bs, p b = false) : Parts p bs :=
  fun b hb => h b (List.mem_of_mem_head? hb)

theorem Parts.imp {q : UInt8 → Bool} (h : Parts p bs) (himp : ∀ b, p b = false → q b = false) :
    Parts q bs := fun b hb =>
  himp b (h b hb)

/-- What stands behind a list that is not empty does not matter. -/
theorem Parts.append (h : Parts p xs) (hne : xs ≠ []) : Parts p (xs ++ rest) := by
  cases xs with
  | nil => exact absurd rfl hne
  | cons b xs => exact parts_cons (h b rfl)

/-- The part in front may be empty when what follows parts from the class too. -/
theorem Parts.append_parts (h : Parts p xs) (hrest : Parts p rest) : Parts p (xs ++ rest) := by
  cases xs with
  | nil => exact hrest
  | cons x xs => exact parts_cons (h x rfl)

/-- Nor does it matter behind an octet that is not of the class. -/
theorem Parts.append_cons (h : Parts p xs) (hb : p b = false) : Parts p (xs ++ b :: rest) :=
  h.append_parts (parts_cons hb)

theorem takeWhile_parts (h : Parts p rest) : rest.takeWhile p = [] := by
  cases rest with
  | nil => rfl
  | cons b rest => rw [List.takeWhile_cons, h b rfl]; rfl

theorem dropWhile_parts (h : Parts p rest) : rest.dropWhile p = rest := by
  cases rest with
  | nil => rfl
  | cons b rest => rw [List.dropWhile_cons, h b rfl]; rfl

/-- Reading a stretch gives all of it, and nothing of what follows. -/
theorem takeWhile_stretch (hxs : ∀ x ∈ xs, p x = true) (h : Parts p rest) :
    (xs ++ rest).takeWhile p = xs := by
  rw [List.takeWhile_append_of_pos hxs, takeWhile_parts h, List.append_nil]

/-- Reading a stretch leaves what follows it. -/
theorem dropWhile_stretch (hxs : ∀ x ∈ xs, p x = true) (h : Parts p rest) :
    (xs ++ rest).dropWhile p = rest := by
  rw [List.dropWhile_append_of_pos hxs, dropWhile_parts h]

/-! ## Trimming

A list is tight when trimming leaves it alone.  The two ends are treated alike: the back is the
front of the reversed list, so the lemmas about `Parts` serve for both. -/

/-- Neither end of the list is ASCII white space. -/
structure Tight (bs : Bytes) : Prop where
  front : Parts isSpace bs
  back : Parts isSpace bs.reverse

/-- Nothing is trimmed off a list that is tight. -/
theorem Tight.trim (h : Tight bs) : trim bs = bs := by
  rw [Bytes.trim, trimLeft, dropWhile_parts h.front, trimRight, dropWhile_parts h.back,
    List.reverse_reverse]

/-- The end of a list is that of its last part. -/
theorem back_append (h : Parts p xs.reverse) (hne : xs ≠ []) : Parts p (bs ++ xs).reverse := by
  rw [List.reverse_append]
  exact h.append fun hnil => hne (List.reverse_eq_nil_iff.mp hnil)

/-- So it is for a part that may be empty, behind an octet of another class. -/
theorem back_cons (h : Parts p xs.reverse) (hb : p b = false) :
    Parts p (bs ++ b :: xs).reverse := by
  rw [List.reverse_append, List.reverse_cons, List.append_assoc]
  exact h.append_cons hb

/-- Two parts make a tight list when the front of the one and the back of the other are no white
space. -/
theorem tight_append (hfront : Parts isSpace xs) (hxs : xs ≠ []) (hback : Parts isSpace bs.reverse)
    (hbs : bs ≠ []) :
    Tight (xs ++ bs) := ⟨hfront.append hxs, back_append hback hbs⟩

end Cellular.Bytes
