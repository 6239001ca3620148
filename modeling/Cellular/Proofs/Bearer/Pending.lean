import Cellular.Proofs.Bearer.Report
import Cellular.Proofs.Bearer.Timeline
/-!
# What reports leave pending

While a bearer is up on a modem that is not mixed, what is pending because of the 3GPP domain is
what its reports call for unless more is reported (`Bearer.Heeds`).  A report of a loss begins a
grace period, unless one is going on; a report that the domain is in order calls it off
(`Heeds.lost_first`, `Heeds.lost_again`, `Heeds.found`).

The comparison is with a timeline: the reports so far, with their moments, and what they call for
(`Timeline.due`).  The bearer keeps much less, a deadline or none.  That the deadline is what the
timeline calls for next is kept by each kind of report, and there are three that do not force the
bearer down at once: found, lost for the first time, and still lost.
-/

namespace Cellular

/-- What a 3GPP report means on a modem that is not mixed. -/
theorem Tracker.take_cases {t : Tracker} (hm : t.mixed = false) (status : RegistrationStatus) :
    ((t.take (.threeGpp status)).2 = .allow ∧ ¬ status.IsLost ∧
      ¬ (t.allowRoaming = false ∧ status = .roaming)) ∨
    ((t.take (.threeGpp status)).2 = .disconnectNow ∧ t.allowRoaming = false ∧ status = .roaming) ∨
    ((t.take (.threeGpp status)).2 = .unregistered .threeGpp ∧ status.IsLost) := by
  cases status <;> cases hr : t.allowRoaming <;>
    simp [take, update3gpp, decide, reasonOf, hm, hr, RegistrationStatus.IsLost]

namespace Bearer

variable {σ : Type} {be : Backend σ} {allowRoaming : Bool} {grace : Nat} {reports : Timeline}

/-! ## What does not change

The settings of a bearer are read in several places, and nothing ever changes them. -/

/-- What a bearer was set up with. -/
structure Configured (b : Bearer σ) (allowRoaming : Bool) (grace : Nat) : Prop where
  allowRoaming : b.tracker.allowRoaming = allowRoaming
  grace : b.threeGpp.timeout = grace

/-- Connecting and disconnecting change no setting. -/
theorem Configured.leaves {b b' : Bearer σ} (h : b.Configured allowRoaming grace)
    (hb : b.Leaves b') :
    b'.Configured allowRoaming grace :=
  ⟨by rw [hb.tracker]; exact h.allowRoaming, by rw [hb.threeGpp]; exact h.grace⟩

/-- Nor does a forced disconnect. -/
theorem Configured.force {b : Bearer σ} (h : b.Configured allowRoaming grace) :
    (b.force be).1.Configured allowRoaming grace := by
  have hnote : (b.note (.asked true)).Configured allowRoaming grace := ⟨h.allowRoaming, h.grace⟩
  exact hnote.leaves (force_leaves b)

/-- Nor does the end of a grace period. -/
theorem Configured.lapse {b : Bearer σ} (h : b.Configured allowRoaming grace) (d : Domain) :
    (b.lapse d).Configured allowRoaming grace := by
  cases d <;> exact ⟨h.allowRoaming, h.grace⟩

/-- Nor does a report. -/
theorem Configured.report {b : Bearer σ} (h : b.Configured allowRoaming grace) (r : Report) :
    ((b.hear r).apply be (b.tracker.take r).2).1.Configured allowRoaming grace := by
  have ht : (b.hear r).Configured allowRoaming grace :=
    ⟨(b.tracker.take_allowRoaming r).trans h.allowRoaming, h.grace⟩
  have hoff : (b.hear r).callOff.Configured allowRoaming grace :=
    ⟨ht.allowRoaming, (Debouncer.cancel_timeout _).trans h.grace⟩
  cases (b.tracker.take r).2 with
  | allow => exact hoff
  | disconnectNow => exact hoff.force
  | unregistered d =>
    -- the only place where a deferral is armed, and arming keeps its span
    simp only [apply]
    split
    · exact ht
    · split
      · exact ht.force
      · cases d
        · exact ⟨ht.allowRoaming, (Debouncer.arm_timeout _ _).trans h.grace⟩
        · exact ⟨ht.allowRoaming, ht.grace⟩

/-! ## What is pending

A report is compared with what was pending before it.  Whether a loss is a new one depends on
whether a deadline is set, in the bearer as well as in the timeline. -/

/-- While a bearer is up: the reports so far have not called for a disconnect, what is pending is
what they call for unless more is reported, and it is not overdue. -/
structure Heeds (be : Backend σ) (b : Bearer σ) (allowRoaming : Bool) (grace : Nat)
    (reports : Timeline) :
    Prop where
  configured : b.Configured allowRoaming grace
  unroamed : ∀ moment, ¬ reports.Roams allowRoaming moment
  pending : ∀ moment, reports.Lapses grace moment ↔ b.threeGpp.deadline = some moment
  lost : b.threeGpp.isArmed = true ↔ ∃ last ∈ reports.getLast?, last.2.IsLost
  cdma : b.cdma.isArmed = false
  ahead : ∀ deadline, b.threeGpp.deadline = some deadline → be.now b.vendor ≤ deadline

/-- What reports call for is the deadline that is set. -/
theorem Heeds.mem_due_iff {b : Bearer σ} (h : b.Heeds be allowRoaming grace reports)
    {moment : Nat} :
    moment ∈ reports.due allowRoaming grace ↔ b.threeGpp.deadline = some moment := by
  rw [← h.pending]
  exact ⟨fun hdue => hdue.resolve_left (h.unroamed moment), .inr⟩

/-- The first disconnect that is called for is the one that is pending. -/
theorem Heeds.isLeast_due {b : Bearer σ} (h : b.Heeds be allowRoaming grace reports)
    {deadline : Nat} (hd : b.threeGpp.deadline = some deadline) :
    IsLeast (reports.due allowRoaming grace) deadline := by
  refine ⟨h.mem_due_iff.mpr hd, fun moment hmoment => ?_⟩
  obtain rfl : deadline = moment := Option.some.inj (hd.symm.trans (h.mem_due_iff.mp hmoment))
  exact Nat.le_refl _

/-- Time that goes on up to the deadline changes nothing. -/
theorem Heeds.drift {b : Bearer σ} (h : b.Heeds be allowRoaming grace reports) {vendor : σ}
    (hahead : ∀ deadline, b.threeGpp.deadline = some deadline → be.now vendor ≤ deadline) :
    ({ b with vendor } : Bearer σ).Heeds be allowRoaming grace reports where
  configured := ⟨h.configured.allowRoaming, h.configured.grace⟩
  unroamed := h.unroamed
  pending := h.pending
  lost := h.lost
  cdma := h.cdma
  ahead := hahead

/-- Roaming where it is not allowed calls for a disconnect at once. -/
theorem Heeds.isLeast_due_roaming {b : Bearer σ} (h : b.Heeds be allowRoaming grace reports)
    (hr : allowRoaming = false) :
    IsLeast (Timeline.due allowRoaming grace (reports ++ [(be.now b.vendor, .roaming)]))
      (be.now b.vendor) := by
  refine ⟨.inl (Timeline.roams_concat_iff.mpr (.inr ⟨hr, rfl, rfl⟩)), ?_⟩
  rintro moment (hroams | hlapses)
  · rcases Timeline.roams_concat_iff.mp hroams with hroams | ⟨-, -, rfl⟩
    · exact absurd hroams (h.unroamed moment)
    · exact Nat.le_refl _
  · rcases Timeline.lapses_concat_iff.mp hlapses with ⟨hlapses, -⟩ | ⟨hlost, -⟩
    · exact h.ahead moment ((h.pending moment).mp hlapses)
    · exact absurd rfl hlost.ne_roaming

section Report

variable {b : Bearer σ} {status : RegistrationStatus}

/-- A report of no roaming does not call for a disconnect at once. -/
theorem Heeds.still_unroamed (h : b.Heeds be allowRoaming grace reports)
    (hr : ¬ (allowRoaming = false ∧ status = .roaming)) (now moment : Nat) :
    ¬ Timeline.Roams allowRoaming (reports ++ [(now, status)]) moment := by
  intro hroams
  rcases Timeline.roams_concat_iff.mp hroams with hroams | ⟨hoff, hroaming, -⟩
  · exact h.unroamed moment hroams
  · exact hr ⟨hoff, hroaming⟩

/-- The domain is in order, so nothing is pending any more. -/
theorem Heeds.found (h : b.Heeds be allowRoaming grace reports) (hlost : ¬ status.IsLost)
    (hr : ¬ (allowRoaming = false ∧ status = .roaming))
    (hapart : b.threeGpp.deadline ≠ some (be.now b.vendor)) :
    (b.hear (.threeGpp status)).callOff.Heeds be allowRoaming grace
      (reports ++ [(be.now b.vendor, status)]) := by
  have hnone : (b.hear (.threeGpp status)).callOff.threeGpp.deadline = none :=
    Debouncer.cancel_deadline _
  exact {
    configured := ⟨(b.tracker.take_allowRoaming _).trans h.configured.allowRoaming,
      (Debouncer.cancel_timeout _).trans h.configured.grace⟩
    unroamed := h.still_unroamed hr _
    pending := by
      intro moment
      rw [hnone, Timeline.lapses_concat_iff]
      refine iff_of_false ?_ (by simp)
      rintro (⟨hlapses, hgoes⟩ | ⟨hl, -⟩)
      · -- the grace period was still going on
        have hd := (h.pending moment).mp hlapses
        have hle := h.ahead moment hd
        have hne : be.now b.vendor ≠ moment := by
          rintro rfl
          exact hapart hd
        exact hlost (hgoes (by omega))
      · exact hlost hl
    lost := by simp [Debouncer.isArmed, hnone, hlost]
    cdma := Debouncer.isArmed_cancel _
    ahead := by
      intro deadline hd
      rw [hnone] at hd
      cases hd }

/-- The domain is still lost, and the grace period goes on as it was. -/
theorem Heeds.lost_again (h : b.Heeds be allowRoaming grace reports) (hlost : status.IsLost)
    (harmed : b.threeGpp.isArmed = true) :
    (b.hear (.threeGpp status)).Heeds be allowRoaming grace
      (reports ++ [(be.now b.vendor, status)]) where
  configured :=
    ⟨(b.tracker.take_allowRoaming _).trans h.configured.allowRoaming, h.configured.grace⟩
  unroamed := h.still_unroamed (fun hr => hlost.ne_roaming hr.2) _
  pending := by
    intro moment
    rw [Timeline.lapses_concat_iff, h.pending]
    constructor
    · rintro (⟨hd, -⟩ | ⟨-, hfresh, -⟩)
      · exact hd
      · obtain ⟨last, hlast, hl⟩ := h.lost.mp harmed
        exact absurd hl (hfresh last hlast)
    · exact fun hd => .inl ⟨hd, fun _ => hlost⟩
  lost := by simpa [hlost] using harmed
  cdma := h.cdma
  ahead := h.ahead

/-- The domain is lost, and a grace period begins. -/
theorem Heeds.lost_first (h : b.Heeds be allowRoaming grace reports) (hlost : status.IsLost)
    (harmed : b.threeGpp.isArmed = false) :
    ((b.hear (.threeGpp status)).defer be .threeGpp).Heeds be allowRoaming grace
      (reports ++ [(be.now b.vendor, status)]) := by
  have hnone : b.threeGpp.deadline = none := by simpa [Debouncer.isArmed] using harmed
  have hdeadline : ((b.hear (.threeGpp status)).defer be .threeGpp).threeGpp.deadline =
      some (be.now b.vendor + grace) := by
    simp [defer, Debouncer.arm, hnone, h.configured.grace]
  -- nothing is pending, so the domain was not lost before
  have hfresh : ∀ last ∈ reports.getLast?, ¬ last.2.IsLost := by
    intro last hlast hl
    have hset := h.lost.mpr ⟨last, hlast, hl⟩
    rw [harmed] at hset
    cases hset
  exact {
    configured := ⟨(b.tracker.take_allowRoaming _).trans h.configured.allowRoaming,
      (Debouncer.arm_timeout _ _).trans h.configured.grace⟩
    unroamed := h.still_unroamed (fun hr => hlost.ne_roaming hr.2) _
    pending := by
      intro moment
      rw [hdeadline, Timeline.lapses_concat_iff, h.pending, hnone]
      constructor
      · rintro (⟨hd, -⟩ | ⟨-, -, rfl⟩)
        · cases hd
        · rfl
      · intro hd
        exact .inr ⟨hlost, hfresh, (Option.some.inj hd).symm⟩
    lost := by simp [Debouncer.isArmed, hdeadline, hlost]
    cdma := h.cdma
    ahead := by
      intro deadline hd
      obtain rfl : be.now b.vendor + grace = deadline := Option.some.inj (hdeadline.symm.trans hd)
      exact Nat.le_add_right _ _ }

end Report

variable (be) in
/-- On a modem that is not mixed, a loss that is reported again leaves the pending disconnect as it
is, and a report of anything else calls it off. -/
theorem pending_after_report {b : Bearer σ} (hm : b.tracker.mixed = false)
    (status : RegistrationStatus) :
    (status.IsLost → b.threeGpp.isArmed = true →
      (b.call be (.registered status)).1.threeGpp = b.threeGpp) ∧
    (¬ status.IsLost → (b.call be (.registered status)).1.threeGpp.deadline = none) := by
  have hb : b.call be (.registered status) = _ := b.call_report (.threeGpp status)
  rw [hb]
  rcases Tracker.take_cases hm status with ⟨hv, hlost, -⟩ | ⟨hv, -, rfl⟩ | ⟨hv, hlost⟩ <;> rw [hv]
  · exact ⟨fun h => absurd h hlost, fun _ => Debouncer.cancel_deadline _⟩
  · refine ⟨fun h => absurd rfl h.ne_roaming, fun _ => ?_⟩
    show ((b.hear (.threeGpp .roaming)).callOff.force be).1.threeGpp.deadline = none
    rw [(force_leaves _).threeGpp]
    exact Debouncer.cancel_deadline _
  · refine ⟨fun _ harmed => ?_, fun h => absurd hlost h⟩
    rw [apply_unregistered_of_armed (by rw [hear_deferral]; exact harmed)]
    rfl

end Bearer

end Cellular
