import Cellular.Proofs.Bearer.Attended
/-!
# When a bearer is disconnected because of what is reported

A bearer is up on a modem that is not mixed, nothing is pending, and then nobody connects or
disconnects it, while the 3GPP domain is reported on.  It is disconnected at the first moment at
which the reports call for that (`departs_when_due`): no sooner, no later, and once.

As long as nothing has called for a disconnect, what is pending is what the reports call for, and it
is not overdue (`Interplay.Calm`).  A move keeps that, or the bearer is disconnected in it
(`Calm.step`), and then it stays so (`Departed.step`).

So a run has two parts, and each has its invariant.  In the first nothing has called for a
disconnect, and the invariant compares what is pending with the reports so far; every move keeps it
but the one in which the disconnect begins.  That this is the moment that the reports call for has
two sides.  It is not earlier, since the party takes only a deadline that is due for its own; and it
is not later, since time does not pass the deadline and the party is polled when it is due.  In the
second part the bearer is left alone, and reports that come then do not change which moment was the
first.
-/

namespace Cellular

namespace Interplay

variable {σ : Type} {be : Backend σ}

/-! ## What every move keeps

A move is a report, a poll of the party, a poll of an action that waits, or time going on.  Reports
and polls of the party are the two that matter; the other ones change nothing but the clock. -/

/-- Nothing has called for a disconnect yet: the bearer is up, what is pending is what the reports
call for, and the party that carries it out has missed no more changes than there are reports that
it has not seen. -/
structure Calm (s : Interplay be) (allowRoaming : Bool) (grace unseen : Nat)
    (past : Timeline) : Prop where
  up : s.Settled .up
  watched : s.Watched false
  heeds : s.bearer.Heeds be allowRoaming grace past
  sleeper : ∃ threeGpp cdma changes, s.executor = .watching threeGpp cdma ∧
    threeGpp.Behind s.bearer.threeGpp changes ∧ changes ≤ unseen
  unseen : unseen < UInt32.size

/-- The bearer was disconnected at the first moment at which the reports call for that. -/
structure Departed (s : Interplay be) (allowRoaming : Bool) (grace moment : Nat)
    (past : Timeline) : Prop where
  gone : ∃ q, s.Settled q ∧ q.Gone
  watched : s.Watched false
  first : IsLeast (past.due allowRoaming grace) moment
  past : moment ≤ s.clock

section Keeps

variable {s : Interplay be} {allowRoaming : Bool} {grace unseen moment : Nat}
  {past : Timeline} {m : Move σ}

/-- A bearer that was disconnected is left alone. -/
theorem Departed.step (h : s.Departed allowRoaming grace moment past) (hm : s.Admits unseen m) :
    (s.step m).Departed allowRoaming grace moment (past ++ s.reported m) ∧
      disconnects ((s.step m).since s) = 0 := by
  obtain ⟨q, hs, hq⟩ := h.gone
  obtain ⟨es, q', ha, hh, hs'⟩ := hs.unattended_gone hq h.watched hm.handsOff
  obtain ⟨-, hq', hnone⟩ := ha.told hq
  refine ⟨⟨⟨q', hs', hq'⟩, h.watched.step m, ?_, Nat.le_trans h.past hm.forward⟩,
    by rwa [since_eq hh]⟩
  unfold reported
  split
  · exact Timeline.isLeast_due_concat h.first h.past
  · rw [List.append_nil]
    exact h.first

/-- When the party is polled, either it looks and waits on, or what is pending is due, and it forces
the bearer down. -/
theorem Calm.look (h : s.Calm allowRoaming grace unseen past) :
    (∃ threeGpp cdma cdma', s.executor = .watching threeGpp cdma ∧
      s.bearer.threeGpp.pollExpired s.clock threeGpp =
        (s.bearer.threeGpp, .pending s.bearer.threeGpp.settle) ∧
      s.executor.poll be s.bearer = (s.bearer, .watching s.bearer.threeGpp.settle cdma')) ∨
    (s.bearer.threeGpp.deadline = some s.clock ∧ ∃ es q, Parting es q ∧
      (s.executor.poll be s.bearer).1.history =
        s.bearer.history ++
          .expired .threeGpp :: .asked true :: .status .disconnecting :: .began .force :: es) := by
  have hfits := h.watched.fits
  obtain ⟨threeGpp, cdma, changes, hex, hbehind, hle⟩ := h.sleeper
  have hlt : changes < UInt32.size := Nat.lt_of_le_of_lt hle h.unseen
  rw [hex] at hfits ⊢
  rcases Executor.poll_watching be hfits.1 hfits.2 with
    ⟨threeGpp', cdma', hpending, -, hp⟩ | ⟨d, harmed, hready, hp⟩
  · obtain rfl := hbehind.pending hlt hpending
    exact .inl ⟨threeGpp, cdma, cdma', rfl, hpending, hp⟩
  · obtain rfl : d = .threeGpp := by
      cases d with
      | threeGpp => rfl
      | cdma => exact absurd harmed (by simpa [Bearer.deferral] using h.heeds.cdma)
    -- what is due is not overdue
    obtain ⟨deadline, hd, hdue⟩ := hbehind.ready hlt (hready rfl)
    obtain rfl : deadline = s.clock := Nat.le_antisymm hdue (h.heeds.ahead deadline hd)
    obtain ⟨es, q, hpart, hh⟩ := h.up.lapse_forces .threeGpp
    exact .inr ⟨hd, es, q, hpart, by rw [hp, Executor.bearer_afterForce, hh]⟩

theorem Calm.watching (h : s.Calm allowRoaming grace unseen past) : s.executor.wait? = none := by
  obtain ⟨threeGpp, cdma, changes, hex, -⟩ := h.sleeper
  rw [hex]
  rfl

/-- What is pending while nothing is left to do: the party has a timer for it, and it is not due
yet. -/
theorem Calm.at_rest (h : s.Calm allowRoaming grace unseen past) (hrest : s.AtRest) {deadline : Nat}
    (hd : s.bearer.threeGpp.deadline = some deadline) :
    deadline ∈ s.executor.timers be ∧ s.clock < deadline := by
  have hpoll := hrest h.watching
  rcases h.look with ⟨threeGpp, cdma, cdma', hex, hpending, hp⟩ | ⟨-, es, q, -, hh⟩
  · rw [hp, hex] at hpoll
    obtain ⟨rfl, rfl⟩ := Executor.watching.inj (Prod.mk.inj hpoll).2
    obtain ⟨htimer, hlt⟩ := Debouncer.settle_waits hpending hd
    exact ⟨by rw [hex]; exact List.mem_append_left _ htimer, hlt⟩
  · -- the party would force the bearer down, and that would make a difference
    rw [hpoll] at hh
    simp at hh

/-- What a move may come to while nothing has called for a disconnect: nothing has yet, or the
bearer is disconnected now. -/
def Turn (s : Interplay be) (allowRoaming : Bool) (grace : Nat) (past : Timeline) (unseen : Nat)
    (m : Move σ) :
    Prop :=
  ((s.step m).Calm allowRoaming grace (unseenAfter unseen m) (past ++ s.reported m) ∧
    disconnects ((s.step m).since s) = 0) ∨
  ((s.step m).Departed allowRoaming grace s.clock (past ++ s.reported m) ∧
    disconnects ((s.step m).since s) = 1)

/-- A move that nothing comes of. -/
theorem Calm.nothing (h : s.Calm allowRoaming grace unseen past) (hm : s.Admits unseen m)
    (hh : (s.step m).bearer.history = s.bearer.history)
    (hheeds : (s.step m).bearer.Heeds be allowRoaming grace (past ++ s.reported m))
    (hsleeper : ∃ threeGpp cdma changes, (s.step m).executor = .watching threeGpp cdma ∧
      threeGpp.Behind (s.step m).bearer.threeGpp changes ∧ changes ≤ unseenAfter unseen m) :
    s.Turn allowRoaming grace past unseen m := by
  refine .inl ⟨⟨h.up.still_up hh, h.watched.step m, hheeds, hsleeper, hm.unseen⟩, ?_⟩
  have hnone : (s.step m).since s = [] := since_eq (by rw [hh, List.append_nil])
  rw [hnone]
  rfl

/-- A move that disconnects the bearer. -/
theorem Calm.departs (h : s.Calm allowRoaming grace unseen past) (hm : s.Admits unseen m)
    {es : List BearerEvent} {q : Phase} (hh : (s.step m).bearer.history = s.bearer.history ++ es)
    (ho : Outset es q) (hes : es ≠ [])
    (hfirst : IsLeast ((past ++ s.reported m).due allowRoaming grace) s.clock) :
    s.Turn allowRoaming grace past unseen m := by
  rcases ho.began with ⟨hnil, -⟩ | ⟨hq, -, hone⟩
  · exact absurd hnil hes
  · refine .inr ⟨⟨⟨q, h.up.told hh ho.told, hq⟩, h.watched.step m, hfirst, hm.forward⟩, ?_⟩
    rwa [since_eq hh]

/-- A report changes what is pending, or calls for a disconnect at once. -/
theorem Calm.report (h : s.Calm allowRoaming grace unseen past) {status : RegistrationStatus}
    (hm : s.Admits unseen (.call (.registered status))) :
    s.Turn allowRoaming grace past unseen (.call (.registered status)) := by
  obtain ⟨threeGpp, cdma, changes, hex, hbehind, hle⟩ := h.sleeper
  have hup : s.bearer.status = .connected := h.up.inPhase.status
  have hcases := Tracker.take_cases h.watched.mixed status
  rw [h.heeds.configured.allowRoaming] at hcases
  -- what the report does to the bearer, by what it means
  have hb : (s.step (.call (.registered status))).bearer = _ := s.step_report (.threeGpp status)
  rcases hcases with ⟨hv, hlost, hr⟩ | ⟨hv, hr, rfl⟩ | ⟨hv, hlost⟩ <;> rw [hv] at hb
  · -- the domain is in order
    obtain ⟨changes', hle', hbehind'⟩ := hbehind.cancel
    refine h.nothing hm (by rw [hb]; rfl) ?_ ⟨threeGpp, cdma, changes', hex, ?_, ?_⟩
    · rw [hb]
      exact h.heeds.found hlost hr (hm.apart _ rfl)
    · rw [hb]
      exact hbehind'
    · exact Nat.le_trans hle' (Nat.succ_le_succ hle)
  · -- the bearer must not stay up
    obtain ⟨es, q, hp, hh⟩ := h.up.report_forces hv
    exact h.departs hm hh (.forced hp) (by simp) (h.heeds.isLeast_due_roaming hr)
  · -- the domain is lost, again or for the first time
    rw [Bearer.apply_unregistered_of_connected (b := s.bearer.hear _) .threeGpp hup,
      Bearer.hear_deferral] at hb
    by_cases harmed : (s.bearer.deferral .threeGpp).isArmed = true
    · rw [if_pos harmed] at hb
      refine h.nothing hm (by rw [hb]; rfl) ?_
        ⟨threeGpp, cdma, changes, hex, ?_, Nat.le_succ_of_le hle⟩
      · rw [hb]
        exact h.heeds.lost_again hlost harmed
      · rw [hb]
        exact hbehind
    · rw [if_neg harmed] at hb
      obtain ⟨changes', hle', hbehind'⟩ := hbehind.arm (be.now s.bearer.vendor)
      refine h.nothing hm (by rw [hb]; rfl) ?_ ⟨threeGpp, cdma, changes', hex, ?_, ?_⟩
      · rw [hb]
        exact h.heeds.lost_first hlost (Bool.eq_false_iff.mpr harmed)
      · rw [hb]
        exact hbehind'
      · exact Nat.le_trans hle' (Nat.succ_le_succ hle)

/-- A poll of the party finds nothing due, or the disconnect begins. -/
theorem Calm.watch (h : s.Calm allowRoaming grace unseen past) (hm : s.Admits unseen .watch) :
    s.Turn allowRoaming grace past unseen .watch := by
  have hb : (s.step .watch).bearer = (s.executor.poll be s.bearer).1 := rfl
  have hex : (s.step .watch).executor = (s.executor.poll be s.bearer).2 := rfl
  have hpast : past ++ s.reported .watch = past := List.append_nil past
  -- either nothing is due and only the sleepers change, or the grace period is over
  rcases h.look with ⟨threeGpp, cdma, cdma', -, -, hp⟩ | ⟨hd, es, q, hpart, hh⟩
  · rw [hp] at hb hex
    refine h.nothing hm (by rw [hb]) ?_ ⟨s.bearer.threeGpp.settle, cdma', 0, hex, ?_, Nat.le_refl 0⟩
    · rw [hb, hpast]
      exact h.heeds
    · rw [hb]
      exact Debouncer.settle_behind _
  · refine h.departs hm (by rw [hb, hh]) (.lapsed (d := .threeGpp) hpart) (by simp) ?_
    rw [hpast]
    exact h.heeds.isLeast_due hd

/-- **One move.**  While nothing has called for a disconnect, either nothing does yet, or one
begins, at the first moment at which one is called for. -/
theorem Calm.step (h : s.Calm allowRoaming grace unseen past) (hm : s.Admits unseen m) :
    s.Turn allowRoaming grace past unseen m := by
  cases m with
  | call action =>
    obtain ⟨status, rfl⟩ := hm.reports action rfl
    exact h.report hm
  | poll i =>
    have hb := h.up.poll_up i
    have hex : (s.step (.poll i)).executor = s.executor := by
      simp only [Interplay.step]
      split <;> rfl
    have hpast : past ++ s.reported (.poll i) = past := List.append_nil past
    refine h.nothing hm (by rw [hb]) ?_ ?_
    · rw [hb, hpast]
      exact h.heeds
    · rw [hb, hex]
      exact h.sleeper
  | watch => exact h.watch hm
  | drift vendor =>
    refine h.nothing hm rfl ?_ h.sleeper
    have hnone : past ++ s.reported (.drift vendor) = past := List.append_nil past
    rw [hnone]
    refine h.heeds.drift fun deadline hd => ?_
    -- time does not go on past the timer that the party has
    rcases Nat.lt_or_ge s.clock (s.step (.drift vendor)).clock with hlt | hge
    · have hwait := hm.unhurried hlt
      exact hwait.timers h.watching deadline (h.at_rest hwait.rest hd).1
    · exact Nat.le_trans hge (h.heeds.ahead deadline hd)

/-- What is due begins at the second poll of the party, if not at the first. -/
theorem Calm.due_now (h : s.Calm allowRoaming grace unseen past)
    (hd : s.bearer.threeGpp.deadline = some s.clock) :
    .began .force ∈ (s.run [.watch, .watch]).since s := by
  rcases h.look with ⟨threeGpp, cdma, cdma', -, -, hp⟩ | ⟨-, es, q, -, hh⟩
  · -- it has looked at the first poll, and goes on at the second
    have hgo : Executor.poll be s.bearer (.watching s.bearer.threeGpp.settle cdma') =
        Executor.afterForce be ((s.bearer.lapse .threeGpp).force be) := by
      have hready : s.bearer.threeGpp.pollExpired (be.now s.bearer.vendor)
        s.bearer.threeGpp.settle =
          ({ s.bearer.threeGpp with deadline := none }, .ready ()) :=
        (Debouncer.pollExpired_settle hd _).trans (if_pos (Nat.le_refl _))
      simp only [Executor.poll, hready]
      rfl
    obtain ⟨es, q, -, hh⟩ := h.up.lapse_forces .threeGpp
    have hb : (s.run [.watch, .watch]).bearer =
        ((s.executor.poll be s.bearer).2.poll be (s.executor.poll be s.bearer).1).1 := rfl
    rw [hp, hgo, Executor.bearer_afterForce] at hb
    rw [← hb] at hh
    rw [since_eq hh]
    simp
  · -- it has gone on at the first poll, whatever comes after
    obtain ⟨es', q', -, -, hs⟩ := h.up.run [.watch]
    obtain ⟨es'', q'', -, hh', -⟩ := hs.run [.watch]
    have hh'' : (s.run [.watch, .watch]).bearer.history =
        (s.executor.poll be s.bearer).1.history ++ es'' := hh'
    rw [hh, List.append_assoc] at hh''
    rw [since_eq hh'']
    simp

end Keeps

/-! ## Whole runs

The induction on a run splits it at the move in which the disconnect begins, if there is one. -/

section Runs

variable {allowRoaming : Bool} {grace moment : Nat} {moves : List (Move σ)}

/-- A bearer that was disconnected is left alone to the end of the run. -/
theorem Departed.run {s : Interplay be} {unseen : Nat} {past : Timeline}
    (h : s.Departed allowRoaming grace moment past) (hm : s.Attended unseen moves) :
    (s.run moves).Departed allowRoaming grace moment (past ++ s.reports moves) ∧
    s.departures moves = [] := by
  induction moves generalizing s unseen past with
  | nil => exact ⟨by rw [reports, List.append_nil]; exact h, rfl⟩
  | cons m moves ih =>
    obtain ⟨hstep, hnone⟩ := h.step hm.1
    obtain ⟨hrun, hnone'⟩ := ih hstep hm.2
    refine ⟨?_, ?_⟩
    · rw [reports, ← List.append_assoc]
      exact hrun
    · rw [departures, hnone, hnone']
      rfl

/-- **A whole run.**  Either nothing calls for a disconnect, or one begins, at the first moment at
which one is called for. -/
theorem Calm.run {s : Interplay be} {unseen : Nat} {past : Timeline}
    (h : s.Calm allowRoaming grace unseen past) (hm : s.Attended unseen moves) :
    (s.departures moves = [] ∧
      ∃ unseen', (s.run moves).Calm allowRoaming grace unseen' (past ++ s.reports moves)) ∨
    ∃ moment, s.departures moves = [moment] ∧
      (s.run moves).Departed allowRoaming grace moment (past ++ s.reports moves) := by
  induction moves generalizing s unseen past with
  | nil => exact .inl ⟨rfl, unseen, by rw [reports, List.append_nil]; exact h⟩
  | cons m moves ih =>
    rw [reports, departures, ← List.append_assoc]
    rcases h.step hm.1 with ⟨hcalm, hnone⟩ | ⟨hgone, hone⟩
    · rw [hnone]
      exact ih hcalm hm.2
    · obtain ⟨hrun, hnone⟩ := hgone.run hm.2
      refine .inr ⟨s.clock, ?_, hrun⟩
      rw [hone, hnone]
      rfl

end Runs

/-- Where nothing is pending and nothing is left to do, nothing has called for a disconnect yet. -/
theorem calm_start (be : Backend σ) (allowRoaming : Bool) (grace : Nat) (vendor : σ)
    (earlier : List (Move σ)) :
    let s := (start be allowRoaming false grace vendor).run earlier
    s.bearer.status = .connected → (∀ d, (s.bearer.deferral d).isArmed = false) → s.AtRest →
      s.Calm allowRoaming grace 0 [] := by
  intro s hup hunarmed hrest
  obtain ⟨p, hs, -⟩ := settled_run be allowRoaming false grace vendor earlier
  obtain rfl : p = .up := Phase.status_connected.mp (hs.inPhase.status.symm.trans hup)
  have hw : s.Watched false := watched_run be allowRoaming false grace vendor earlier
  have hnone : s.bearer.threeGpp.deadline = none := by
    simpa [Bearer.deferral, Debouncer.isArmed] using hunarmed .threeGpp
  have hnil : ∀ moment, ¬ Timeline.Lapses grace [] moment := by
    rintro moment ⟨before, began, status, after, heq, -⟩
    simp at heq
  refine ⟨hs, hw, ⟨configured_run be allowRoaming false grace vendor earlier, ?_, ?_, ?_,
    hunarmed .cdma, ?_⟩, ?_, by decide⟩
  · rintro moment ⟨-, hmem⟩
    cases hmem
  · intro moment
    rw [hnone]
    exact iff_of_false (hnil moment) (by simp)
  · exact iff_of_false (by simpa [Bearer.deferral] using hunarmed .threeGpp) (by simp)
  · intro deadline hd
    rw [hnone] at hd
    cases hd
  · cases hex : s.executor with
    | forcing wait =>
      -- nothing is under way that it could be waiting for
      have hwait : wait ∈ s.waits :=
        List.mem_append_right _ (by rw [hex]; exact List.mem_singleton_self wait)
      cases wait with
      | lock errand => exact absurd hwait (hs.unlocked errand)
      | vendor errand call => exact absurd (hs.errand hwait rfl) (by simp [Phase.errand?])
      | ending =>
        exact absurd (by rw [hex]; rfl) (not_ending_run be allowRoaming false grace vendor earlier)
    | watching threeGpp cdma =>
      refine ⟨threeGpp, cdma, 0, rfl, ?_, Nat.le_refl 0⟩
      have hpoll := hrest (by rw [hex]; rfl)
      have hfits := hw.fits
      rw [hex] at hpoll hfits
      rcases Executor.poll_watching be hfits.1 hfits.2 with ⟨threeGpp', cdma', hpending, -, hp⟩ |
        ⟨d, harmed, -⟩
      · rw [hp] at hpoll
        obtain rfl : threeGpp' = threeGpp := (Executor.watching.inj (Prod.mk.inj hpoll).2).1
        rw [hfits.1.at_rest hnone hpending]
        trivial
      · rw [hunarmed d] at harmed
        cases harmed

/-- **When a bearer is disconnected because of what is reported.**  A bearer is up on a modem that
is not mixed, in any state that can come of any actions, nothing is pending and nothing is left to
do.  Then nobody connects or disconnects it, the 3GPP domain is reported on, and the party that
carries pending disconnects out keeps looking.  Either one vendor's disconnect begins, at the first
moment at which the reports call for that, or none does and the bearer is up.  Then the reports call
for one at a moment yet to come, if at all, or at this one, and two polls of the party later it has
begun.

On the way a loss that is reported again does not move what is pending, and a report of anything
else takes it away. -/
theorem departs_when_due (be : Backend σ) (allowRoaming : Bool) (grace : Nat) (vendor : σ)
    (earlier moves : List (Move σ)) :
    let s := (start be allowRoaming false grace vendor).run earlier
    let t := s.run moves
    let due := (s.reports moves).due allowRoaming grace
    s.bearer.status = .connected → (∀ d, (s.bearer.deferral d).isArmed = false) → s.AtRest →
    s.Attended 0 moves →
    ((∃ moment, s.departures moves = [moment] ∧ IsLeast due moment ∧ t.bearer.status ≠ .connected) ∨
      s.departures moves = [] ∧ t.bearer.status = .connected ∧
        ∀ moment ∈ due, t.clock ≤ moment ∧
          (t.clock = moment → .began .force ∈ (t.run [.watch, .watch]).since t)) ∧
    ∀ status, let t' := t.step (.call (.registered status))
      (status.IsLost → ∀ deadline, t.bearer.threeGpp.deadline = some deadline →
        t'.bearer.threeGpp.deadline = some deadline) ∧
      (¬ status.IsLost → t'.bearer.threeGpp.deadline = none) := by
  intro s t due hup hunarmed hrest hmoves
  have hcalm : s.Calm allowRoaming grace 0 [] :=
    calm_start be allowRoaming grace vendor earlier hup hunarmed hrest
  refine ⟨?_, ?_⟩
  · -- either nothing has been due so far, or the bearer has departed at the first due moment
    rcases hcalm.run hmoves with ⟨hnone, unseen, ht⟩ | ⟨moment, hone, ht⟩
    · refine .inr ⟨hnone, ht.up.inPhase.status, fun moment hdue => ?_⟩
      have hd := ht.heeds.mem_due_iff.mp hdue
      exact ⟨ht.heeds.ahead moment hd, fun hnow => ht.due_now (hnow ▸ hd)⟩
    · obtain ⟨q, hq, hgone⟩ := ht.gone
      exact .inl ⟨moment, hone, ht.first, hq.inPhase.status ▸ hgone.not_connected⟩
  · intro status t'
    have hmixed : t.bearer.tracker.mixed = false :=
      (run_keeps (P := (Watched · false)) (fun _ m h => h.step m) hcalm.watched moves).mixed
    obtain ⟨hagain, helse⟩ := Bearer.pending_after_report be hmixed status
    refine ⟨fun hlost deadline hd => ?_, helse⟩
    have hsame : t'.bearer.threeGpp = t.bearer.threeGpp :=
      hagain hlost (by simp [Debouncer.isArmed, hd])
    rw [hsame]
    exact hd

/-! ## A loss that lasts

A grace period that was called off leaves nothing behind: the second loss has one of its own, and
the bearer is disconnected at its end. -/

/-- Time goes on for a modem without peculiarities. -/
def plainAt (now : Nat) : Mounted StandIn := { plain with bench := { now } }

/-- Registration is lost, found again and lost at once, before the first grace period is over. -/
def lostTwice : List (Move (Mounted StandIn)) :=
  [.call (.registered .denied), .watch, .drift (plainAt 4), .call (.registered .home),
    .call (.registered .denied), .watch, .drift (plainAt 13), .watch]

/-- The bearer is disconnected at the end of the second grace period. -/
theorem departs_after_second_loss :
    let s := (start StandIn.backend false false 9 plain).run [.call .connect]
    s.departures lostTwice = [13] ∧ IsLeast ((s.reports lostTwice).due false 9) 13 := by
  intro s
  -- one line for each move
  have hmoves : s.Attended 0 lostTwice :=
    ⟨.report (by decide +kernel) (by decide +kernel) (by decide +kernel),
      .look (by decide +kernel),
      .pause (by decide +kernel) (by decide +kernel) ⟨fun _ => rfl, by decide +kernel⟩,
      .report (by decide +kernel) (by decide +kernel) (by decide +kernel),
      .report (by decide +kernel) (by decide +kernel) (by decide +kernel),
      .look (by decide +kernel),
      .pause (by decide +kernel) (by decide +kernel) ⟨fun _ => rfl, by decide +kernel⟩,
      .look (by decide +kernel),
      trivial⟩
  obtain ⟨hfate, -⟩ := departs_when_due StandIn.backend false 9 plain [.call .connect] lostTwice rfl
    (by rintro (_ | _) <;> rfl) (fun _ => rfl) hmoves
  rcases hfate with ⟨moment, hone, hfirst, -⟩ | ⟨hnone, -⟩
  · obtain rfl : moment = 13 := (List.cons.inj hone).1.symm
    exact ⟨hone, hfirst⟩
  · cases hnone

end Interplay

end Cellular
