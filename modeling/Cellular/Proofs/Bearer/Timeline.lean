import Cellular.Registration
import Mathlib.Order.Bounds.Defs
/-!
# When reports call for a disconnect

A `Timeline` is the reports of one domain with their moments.  Two things call for a disconnect:
that roaming is reported where it is not allowed (`Timeline.Roams`), at once; and that registration
is lost and is not found again within a grace period (`Timeline.Lapses`), at its end.  A grace
period begins with a loss only, and not with a report that the loss goes on.

What a timeline calls for so far it calls for after any more reports, but for a grace period that a
report finds still going on (`Timeline.lapses_concat_iff`); so the first disconnect it calls for
stays the first (`Timeline.isLeast_due_concat`).

A timeline is a list that grows at its end, and the lemmas are about one more report.  For roaming
the moment of the report is the one that counts.  For a loss it is a later one, and a report that
comes before it may call it off; so `Lapses` looks at all reports up to its moment, and has two
conditions, that the report before the loss was none, and that all reports since say so again.
-/

namespace Cellular

/-- Registration is lost. -/
def RegistrationStatus.IsLost (status : RegistrationStatus) : Prop :=
  status = .none ∨ status = .notRegistering ∨ status = .denied ∨ status = .outOfCoverage

instance : DecidablePred RegistrationStatus.IsLost := fun status =>
  inferInstanceAs (Decidable
    (status = .none ∨ status = .notRegistering ∨ status = .denied ∨ status = .outOfCoverage))

/-- Who is roaming is not lost. -/
theorem RegistrationStatus.IsLost.ne_roaming {status : RegistrationStatus} (h : status.IsLost) :
    status ≠ .roaming := by
  rintro rfl
  revert h
  decide

/-- The reports of a domain and their moments, in order. -/
abbrev Timeline := List (Nat × RegistrationStatus)

namespace Timeline

/-- Roaming is reported at a moment, where it is not allowed. -/
def Roams (allowRoaming : Bool) (reports : Timeline) (moment : Nat) : Prop :=
  allowRoaming = false ∧ (moment, .roaming) ∈ reports

/-- A grace period ends at a moment: it began with a loss, and every report before that moment says
that registration is lost again. -/
def Lapses (grace : Nat) (reports : Timeline) (moment : Nat) : Prop :=
  ∃ before began status after, reports = before ++ (began, status) :: after ∧
    moment = began + grace ∧
    status.IsLost ∧ (∀ last ∈ before.getLast?, ¬ last.2.IsLost) ∧
    ∀ later ∈ after, later.1 < moment → later.2.IsLost

/-- The moments at which reports call for a disconnect. -/
def due (allowRoaming : Bool) (grace : Nat) (reports : Timeline) : Set Nat :=
  {moment | reports.Roams allowRoaming moment ∨ reports.Lapses grace moment}

variable {allowRoaming : Bool} {grace now moment : Nat} {reports : Timeline}
  {status : RegistrationStatus}

/-- One more report calls for a disconnect at its own moment, or leaves things as they are. -/
theorem roams_concat_iff :
    Roams allowRoaming (reports ++ [(now, status)]) moment ↔
      reports.Roams allowRoaming moment ∨ allowRoaming = false ∧ status = .roaming ∧
      moment = now := by
  constructor
  · rintro ⟨hr, hmem⟩
    rcases List.mem_append.mp hmem with hmem | hmem
    · exact .inl ⟨hr, hmem⟩
    · obtain ⟨rfl, rfl⟩ := Prod.mk.inj (List.mem_singleton.mp hmem)
      exact .inr ⟨hr, rfl, rfl⟩
  · rintro (⟨hr, hmem⟩ | ⟨hr, rfl, rfl⟩)
    · exact ⟨hr, List.mem_append_left _ hmem⟩
    · exact ⟨hr, List.mem_append_right _ (List.mem_singleton_self _)⟩

/-- One more report calls off a grace period that has not ended, or begins one, or leaves things as
they are. -/
theorem lapses_concat_iff :
    Lapses grace (reports ++ [(now, status)]) moment ↔
      (reports.Lapses grace moment ∧ (now < moment → status.IsLost)) ∨
      (status.IsLost ∧ (∀ last ∈ reports.getLast?, ¬ last.2.IsLost) ∧ moment = now + grace) := by
  constructor
  · rintro ⟨before, began, lost, after, heq, hmoment, hlost, hfresh, hstays⟩
    rcases List.eq_nil_or_concat after with rfl | ⟨after, last, rfl⟩
    · -- the report is the one that begins the grace period
      obtain ⟨rfl, hreport⟩ := List.append_inj' heq rfl
      obtain ⟨rfl, rfl⟩ := Prod.mk.inj (List.cons.inj hreport).1
      exact .inr ⟨hlost, hfresh, hmoment⟩
    · -- the grace period began before, and the report is the last one after that
      rw [List.concat_eq_append] at heq hstays
      rw [← List.cons_append, ← List.append_assoc] at heq
      obtain ⟨rfl, hreport⟩ := List.append_inj' heq rfl
      obtain rfl := (List.cons.inj hreport).1
      refine .inl ⟨⟨before, began, lost, after, rfl, hmoment, hlost, hfresh, ?_⟩, ?_⟩
      · intro later hlater
        exact hstays later (List.mem_append_left _ hlater)
      · exact hstays (now, status) (List.mem_append_right _ (List.mem_singleton_self _))
  · rintro (⟨⟨before, began, lost, after, rfl, hmoment, hlost, hfresh, hstays⟩, hgoes⟩ |
      ⟨hlost, hfresh, rfl⟩)
    · refine ⟨before, began, lost, after ++ [(now, status)], by simp, hmoment, hlost, hfresh, ?_⟩
      intro later hlater hbefore
      rcases List.mem_append.mp hlater with hlater | hlater
      · exact hstays later hlater hbefore
      · obtain rfl := List.mem_singleton.mp hlater
        exact hgoes hbefore
    · exact ⟨reports, now, status, [], rfl, rfl, hlost, hfresh, fun _ h =>
        absurd h List.not_mem_nil⟩

/-- A report that comes when a disconnect is called for, or later, does not change which one is the
first. -/
theorem isLeast_due_concat (h : IsLeast (due allowRoaming grace reports) moment)
    (hnow : moment ≤ now) :
    IsLeast (due allowRoaming grace (reports ++ [(now, status)])) moment := by
  obtain ⟨hdue, hfirst⟩ := h
  constructor
  · rcases hdue with hroams | hlapses
    · exact .inl (roams_concat_iff.mpr (.inl hroams))
    · exact .inr (lapses_concat_iff.mpr (.inl ⟨hlapses, fun hlt => absurd hlt (by omega)⟩))
  · -- what the new report alone makes due is due at its own moment, hence not before
    rintro other (hroams | hlapses)
    · rcases roams_concat_iff.mp hroams with hroams | ⟨-, -, rfl⟩
      · exact hfirst (.inl hroams)
      · exact hnow
    · rcases lapses_concat_iff.mp hlapses with ⟨hlapses, -⟩ | ⟨-, -, rfl⟩
      · exact hfirst (.inr hlapses)
      · omega

end Timeline

end Cellular
