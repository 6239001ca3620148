import Cellular.Proofs.Text.Stretch
import Cellular.Unsolicited.Digest
/-!
# Which lines the digest finds

A line that begins with the name of a code and a colon is found whole, and so is a name on its own,
whatever the stream goes on with.  No two names agree from the front, so the order in which they are
tried does not matter.

The digest tries one name after another against the front of the stream.  Against a line with
another name it has to say at once that this is no match; were it to ask for more of the stream, the
line would be held back.  That is why a mismatch is a result of its own (`expect_differs`), and why
names that agree from the front would be a problem (`names_apart`).
-/

namespace Cellular.Digest

open Bytes

variable {name line rest inner framed : Bytes} {accepts : Bytes → Bool}

/-! ## Expected stretches

What is expected is found, is found wanting, or may still come.  Once an octet differs, nothing that
follows makes up for it. -/

theorem expect_append (tag rest : Bytes) : expect tag (tag ++ rest) = .whole rest := by
  induction tag with
  | nil => rfl
  | cons t tag ih => rw [List.cons_append, expect, if_pos rfl, ih]

/-- What differs goes on differing. -/
theorem expect_differs {tag bs : Bytes} (h : expect tag bs = .differs) (rest : Bytes) :
    expect tag (bs ++ rest) = .differs := by
  induction tag generalizing bs with
  | nil => cases h
  | cons t tag ih =>
    cases bs with
    | nil => cases h
    | cons b bs =>
      rw [List.cons_append, expect]
      rw [expect] at h
      split
      · rename_i hsame
        rw [if_pos hsame] at h
        exact ih h
      · rfl

/-- A tag that differs is not taken off. -/
theorem dropTag?_differs {tag bs : Bytes} (h : expect tag bs = .differs) (rest : Bytes) :
    dropTag? tag (bs ++ rest) = none := by
  induction tag generalizing bs with
  | nil => cases h
  | cons t tag ih =>
    cases bs with
    | nil => cases h
    | cons b bs =>
      rw [List.cons_append, dropTag?]
      rw [expect] at h
      split
      · rename_i hsame
        rw [if_pos hsame] at h
        exact ih h
      · rfl

/-- A line without a carriage return ends at the first line end. -/
theorem throughLineEnd?_append (h : 13 ∉ inner) :
    throughLineEnd? (inner ++ 13 :: 10 :: rest) = some (inner, rest) := by
  induction inner with
  | nil => rw [List.nil_append, throughLineEnd?, if_pos ⟨rfl, rfl⟩]
  | cons a inner ih =>
    obtain ⟨ha, hinner⟩ : 13 ≠ a ∧ 13 ∉ inner := by simpa only [List.mem_cons, not_or] using h
    have hrest := ih hinner
    obtain ⟨b, bs, hbs⟩ : ∃ b bs, inner ++ 13 :: 10 :: rest = b :: bs := by
      cases inner <;> exact ⟨_, _, rfl⟩
    rw [List.cons_append]
    rw [hbs] at hrest ⊢
    rw [throughLineEnd?, if_neg fun hend => ha hend.1.symm, hrest]
    rfl

/-! ## One code

A line is looked at with the line break in front of it, which is where it begins, and counts when
its own line end is there as well. -/

/-- A line between line breaks, and what follows. -/
def framing (line rest : Bytes) : Bytes := lineEnd ++ line ++ lineEnd ++ rest

theorem framing_eq (line rest : Bytes) :
    framing line rest = 13 :: 10 :: (line ++ 13 :: 10 :: rest) := by
  simp [framing, lineEnd]

/-- The framing takes four octets. -/
theorem length_framing (line rest : Bytes) :
    (framing line rest).length = line.length + 4 + rest.length := by
  rw [framing_eq]
  simp only [List.length_cons, List.length_append]
  omega

theorem code_differs (h : expect name line = .differs) (rest : Bytes) (accepts : Bytes → Bool) :
    code (framing line rest) name accepts = .noMatch := by
  rw [framing_eq]
  simp only [code, lineBreak?, expect_differs h]

/-- A name, a colon, and the rest of the line. -/
theorem code_colon (hinner : 13 ∉ inner) (htight : Tight (name ++ 58 :: inner))
    (accepts : Bytes → Bool) (rest : Bytes) :
    code (framing (name ++ 58 :: inner) rest) name accepts =
      if accepts (name ++ 58 :: inner) then .line (name ++ 58 :: inner)
        ((name ++ 58 :: inner).length + 4) else .noMatch := by
  have hused : (framing (name ++ 58 :: inner) rest).length - rest.length =
      (name ++ 58 :: inner).length + 4 := by
    rw [length_framing, Nat.add_sub_cancel]
  -- the three stretches that are compared one after another
  have hframed : framing (name ++ 58 :: inner) rest =
      13 :: 10 :: (name ++ ([58] ++ (inner ++ 13 :: 10 :: rest))) := by
    rw [framing_eq]
    simp
  have hcode : code (framing (name ++ 58 :: inner) rest) name accepts =
      if accepts (Bytes.trim (name ++ 58 :: inner)) then
        .line (Bytes.trim (name ++ 58 :: inner))
          ((framing (name ++ 58 :: inner) rest).length - rest.length)
      else .noMatch := by
    rw [hframed]
    simp only [code, lineBreak?, expect_append, throughLineEnd?_append hinner]
  rw [hcode, hused, htight.trim]

/-- A name on its own. -/
theorem code_bare (htight : Tight name) (haccepts : accepts name = true) (rest : Bytes) :
    code (framing name rest) name accepts = .line name (name.length + 4) := by
  have hused : (framing name rest).length - rest.length = name.length + 4 := by
    rw [length_framing, Nat.add_sub_cancel]
  have hframed : framing name rest = 13 :: 10 :: (name ++ (lineEnd ++ rest)) := by
    rw [framing_eq]
    rfl
  have hcode : code (framing name rest) name accepts =
      if accepts (Bytes.trim name) then .line (Bytes.trim name)
        ((framing name rest).length - rest.length)
      else .noMatch := by
    rw [hframed]
    -- no colon behind the name, so the name is the whole line
    have hcolon : expect [58] (lineEnd ++ rest) = .differs := rfl
    simp only [code, lineBreak?, expect_append, hcolon]
  rw [hcode, hused, htight.trim, if_pos haccepts]

/-! ## All codes

The table is gone through from the front, and the first match is the result.  Since names are apart,
all others are known to be no match, in front of it and behind. -/

/-- No name is the beginning of another one. -/
theorem names_apart :
    (codes.map Prod.fst).Pairwise fun a b => expect a b = .differs ∧ expect b a = .differs := by
  decide

/-- The first code that matches is the only one. -/
theorem firstOf_append {stream : Bytes} {before after : List (Bytes × (Bytes → Bool))} {used : Nat}
    (hbefore : ∀ e ∈ before, code stream e.1 e.2 = .noMatch)
    (hfound : code stream name accepts = .line line used) :
    firstOf stream (before ++ (name, accepts) :: after) = .line line used := by
  induction before with
  | nil => rw [List.nil_append, firstOf, hfound]
  | cons e before ih =>
    obtain ⟨he, hrest⟩ := List.forall_mem_cons.mp hbefore
    rw [List.cons_append, firstOf, he]
    exact ih hrest

/-- Where nothing matches, nothing is found. -/
theorem firstOf_eq_noMatch {stream : Bytes} {table : List (Bytes × (Bytes → Bool))}
    (h : ∀ e ∈ table, code stream e.1 e.2 = .noMatch) : firstOf stream table = .noMatch := by
  induction table with
  | nil => rfl
  | cons e table ih =>
    obtain ⟨he, hrest⟩ := List.forall_mem_cons.mp h
    rw [firstOf, he]
    exact ih hrest

/-- Other names than that of the line are no match. -/
theorem others_differ {before after : List (Bytes × (Bytes → Bool))}
    (hsplit : codes = before ++ (name, accepts) :: after) :
    (∀ e ∈ before, expect e.1 name = .differs) ∧ ∀ e ∈ after, expect e.1 name = .differs := by
  have hapart := names_apart
  rw [hsplit, List.map_append, List.map_cons, List.pairwise_append, List.pairwise_cons] at hapart
  obtain ⟨-, ⟨hafter, -⟩, hbefore⟩ := hapart
  exact ⟨fun e he => (hbefore _ (List.mem_map_of_mem he) _ List.mem_cons_self).1,
    fun e he => (hafter _ (List.mem_map_of_mem he)).2⟩

/-- A line that begins with a name and a colon is found, if it counts. -/
theorem ofStream_colon (hmem : (name, accepts) ∈ codes) (hinner : 13 ∉ inner)
    (htight : Tight (name ++ 58 :: inner)) (haccepts : accepts (name ++ 58 :: inner) = true)
    (rest : Bytes) :
    ofStream (framing (name ++ 58 :: inner) rest) =
      .line (name ++ 58 :: inner) ((name ++ 58 :: inner).length + 4) := by
  obtain ⟨before, after, hsplit⟩ := List.append_of_mem hmem
  rw [ofStream, hsplit]
  refine firstOf_append (fun e he => ?_) ?_
  · exact code_differs (expect_differs ((others_differ hsplit).1 e he) _) rest e.2
  · rw [code_colon hinner htight, if_pos haccepts]

/-- A line that begins with a name and a colon is not found otherwise. -/
theorem ofStream_refused (hmem : (name, accepts) ∈ codes) (hinner : 13 ∉ inner)
    (htight : Tight (name ++ 58 :: inner)) (haccepts : accepts (name ++ 58 :: inner) = false)
    (rest : Bytes) :
    ofStream (framing (name ++ 58 :: inner) rest) = .noMatch := by
  obtain ⟨before, after, hsplit⟩ := List.append_of_mem hmem
  obtain ⟨hbefore, hafter⟩ := others_differ hsplit
  rw [ofStream, hsplit]
  refine firstOf_eq_noMatch fun e he => ?_
  rcases List.mem_append.mp he with he | he
  · exact code_differs (expect_differs (hbefore e he) _) rest e.2
  · rcases List.mem_cons.mp he with rfl | he
    · refine (code_colon hinner htight accepts rest).trans ?_
      rw [haccepts]
      rfl
    · exact code_differs (expect_differs (hafter e he) _) rest e.2

/-- A name on its own is found, if it counts. -/
theorem ofStream_bare (hmem : (name, accepts) ∈ codes) (htight : Tight name)
    (haccepts : accepts name = true) (rest : Bytes) :
    ofStream (framing name rest) = .line name (name.length + 4) := by
  obtain ⟨before, after, hsplit⟩ := List.append_of_mem hmem
  rw [ofStream, hsplit]
  refine firstOf_append (fun e he => ?_) (code_bare htight haccepts rest)
  exact code_differs ((others_differ hsplit).1 e he) rest e.2

end Cellular.Digest
