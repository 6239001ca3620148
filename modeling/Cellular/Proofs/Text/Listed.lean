/-!
# Lists that are written and read part by part

A list is written as its parts with a separator between any two, and read by reading every part.

The lemmas are about the two halves separately.  For writing, the parts are told apart by where the
separator stands: in front of none of them but behind all but the last (`intercalate_concat`).  For
reading, one part that cannot be read refuses the whole list, so a list is read just if all of its
parts are (`isSome_mapM`), and then part by part (`mapM_written`).
-/

namespace Cellular

variable {α β γ : Type}

/-- What stands in a list of parts with separators is a separator or stands in a part. -/
theorem mem_intercalate {sep x : α} {parts : List (List α)} (h : x ∈ [sep].intercalate parts) :
    x = sep ∨ ∃ part ∈ parts, x ∈ part := by
  induction parts with
  | nil => cases h
  | cons part parts ih =>
    cases parts with
    | nil =>
      rw [List.intercalate_singleton] at h
      exact .inr ⟨part, List.mem_singleton_self _, h⟩
    | cons next parts =>
      rw [List.intercalate_cons_cons, List.append_assoc, List.mem_append, List.singleton_append,
        List.mem_cons] at h
      rcases h with h | h | h
      · exact .inr ⟨part, List.mem_cons_self, h⟩
      · exact .inl h
      · exact (ih h).imp_right fun ⟨other, hother, hx⟩ => ⟨other, List.mem_cons_of_mem _ hother, hx⟩

/-- All parts but the last one have a separator behind them. -/
theorem intercalate_concat {sep : α} (init : List (List α)) (last : List α) :
    [sep].intercalate (init ++ [last]) = (init.flatMap fun part => part ++ [sep]) ++ last := by
  induction init with
  | nil => exact List.intercalate_singleton
  | cons part init ih =>
    rw [List.cons_append, List.intercalate_cons_of_ne_nil
      (List.append_ne_nil_of_right_ne_nil _ (List.cons_ne_nil _ _)), ih, List.flatMap_cons,
      List.append_assoc _ _ last]

/-- Parts that are all read are read one by one. -/
theorem mapM_written {write : α → β} {read? : β → Option γ} {value : α → γ} {parts : List α}
    (h : ∀ part ∈ parts, read? (write part) = some (value part)) :
    (parts.map write).mapM read? = some (parts.map value) := by
  induction parts with
  | nil => rfl
  | cons part parts ih =>
    obtain ⟨hpart, hparts⟩ := List.forall_mem_cons.mp h
    rw [List.map_cons, List.mapM_cons, hpart, ih hparts]
    rfl

section

variable {read? : β → Option γ} {part : β} {parts : List β} {value : γ} {values : List γ}

/-- A list that is read begins with a part that is read, and the rest of it is read too. -/
theorem mapM_cons_eq_some (h : (part :: parts).mapM read? = some values) :
    ∃ v vs, read? part = some v ∧ parts.mapM read? = some vs ∧ values = v :: vs := by
  simp only [List.mapM_cons, bind, pure, Option.bind_eq_some_iff, Option.some.injEq] at h
  obtain ⟨v, hv, vs, hvs, rfl⟩ := h
  exact ⟨v, vs, hv, hvs, rfl⟩

/-- Every part is read as one value. -/
theorem length_of_mapM (h : parts.mapM read? = some values) : values.length = parts.length := by
  induction parts generalizing values with
  | nil =>
    obtain rfl := Option.some.inj h
    rfl
  | cons part parts ih =>
    obtain ⟨v, vs, -, hrest, rfl⟩ := mapM_cons_eq_some h
    rw [List.length_cons, ih hrest, List.length_cons]

/-- What is read is what the parts are read as. -/
theorem mem_of_mapM (h : parts.mapM read? = some values) :
    value ∈ values ↔ ∃ part ∈ parts, read? part = some value := by
  induction parts generalizing values with
  | nil =>
    obtain rfl := Option.some.inj h
    simp
  | cons part parts ih =>
    obtain ⟨v, vs, hfront, hrest, rfl⟩ := mapM_cons_eq_some h
    simp [ih hrest, hfront, eq_comm]

/-- A list is read just if all of its parts are. -/
theorem isSome_mapM : (parts.mapM read?).isSome ↔ ∀ part ∈ parts, (read? part).isSome := by
  induction parts with
  | nil => simp
  | cons part parts ih =>
    rw [List.forall_mem_cons, ← ih, List.mapM_cons]
    cases read? part <;> cases parts.mapM read? <;> simp

end

end Cellular
