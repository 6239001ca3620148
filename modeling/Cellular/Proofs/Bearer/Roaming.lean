import Cellular.Proofs.Bearer.Unattended
/-!
# Where roaming is forbidden

A bearer must not be connected where roaming is forbidden, and must not stay up there.  Two places
see to that: a connect is refused, and a report forces the bearer down at once.  Neither of them
looks everywhere.

* A connect looks at the CDMA domain on mixed modems only, while the tracker records what is
  forbidden there on all modems (`connect_begins_iff`).
* A report forces the bearer down at once only if it is the domain that it is about that must not be
  roamed in.  On a mixed modem roaming in one domain is ignored while the other one is in order;
  when that one is lost, the report is about the loss, and the bearer gets a grace period
  (`forced_when_roaming_iff`).

For each of the two places the condition is exact, and the proof has two directions.  That a connect
goes ahead or that a bearer stays up is computed from the state and the report.  That nothing else
could have begun a vendor's connect, or brought the bearer down, has to be shown for every move; it
is the reason for the invariants of settled and of unattended interplays.
-/

namespace Cellular

/-! ## Connecting

A vendor's connect begins in one way only, by a connect that is called; neither reports nor polls
nor the party that carries pending disconnects out ever begin one. -/

namespace Bearer

variable {σ : Type} {be : Backend σ}

/-- Nothing is found to be forbidden unless it is looked at. -/
theorem roamingDomain?_eq_none_iff (b : Bearer σ) :
    b.roamingDomain? = none ↔ ∀ d, b.tracker.reason d = .roaming → d = .cdma ∧
    b.tracker.mixed = false := by
  unfold roamingDomain?
  rw [List.find?_eq_none]
  constructor
  · intro h d hd
    have hnot := h d (by cases d <;> simp)
    cases d with
    | threeGpp => simp [hd] at hnot
    | cdma => exact ⟨rfl, by simpa [hd] using hnot⟩
  · intro h d _ hd
    simp only [Bool.and_eq_true, Bool.or_eq_true, decide_eq_true_eq] at hd
    obtain ⟨rfl, hm⟩ := h d hd.2
    simp [hm] at hd

/-- A domain that is found must not be roamed in. -/
theorem roamingDomain?_eq_some {b : Bearer σ} {d : Domain} (h : b.roamingDomain? = some d) :
    b.tracker.reason d = .roaming := by
  have hfound := List.find?_some h
  simp only [Bool.and_eq_true, decide_eq_true_eq] at hfound
  exact hfound.2

theorem connect_of_roaming {b : Bearer σ} {d : Domain}
    (hs : b.status = .disconnected ∨ b.status = .connected) (hd : b.roamingDomain? = some d) :
    b.connect be = (b, .ready (.error (.forbidden d .roaming))) := by
  rcases hs with hs | hs <;> simp [connect, hs, hd]

variable (be)

/-- A connect that does anything finds the bearer down, in a domain that may be connected in. -/
theorem connect_cases (b : Bearer σ) :
    (b.connect be).1 = b ∨ b.status = .disconnected ∧ b.roamingDomain? = none := by
  -- every guard leaves the bearer as it is; what is left has passed all of them
  unfold connect
  split
  · exact .inl rfl
  · exact .inl rfl
  · rename_i hne hne'
    split
    · exact .inl rfl
    · rename_i hroam
      split
      · exact .inl rfl
      · rename_i hup
        refine .inr ⟨?_, hroam⟩
        cases hs : b.status with
        | disconnected => rfl
        | disconnecting => exact absurd hs hne'
        | connecting => exact absurd hs hne
        | connected => exact absurd hs hup

/-- A forced disconnect is asked for before anything else happens. -/
theorem force_asks (b : Bearer σ) :
    ∃ es, (b.force be).1.history = b.history ++ .asked true :: es := by
  have hleaves : (b.note (.asked true)).Leaves (b.force be).1 := force_leaves b
  obtain ⟨es, hh, -⟩ := hleaves.history
  exact ⟨es, by rw [hh]; simp⟩

/-- So is a disconnect. -/
theorem disconnect_asks (b : Bearer σ) :
    ∃ es, (b.disconnect be).1.history = b.history ++ .asked false :: es := by
  have hleaves : (b.note (.asked false)).Leaves (b.disconnect be).1 := disconnect_leaves b
  obtain ⟨es, hh, -⟩ := hleaves.history
  exact ⟨es, by rw [hh]; simp⟩

/-- A report makes nothing happen, or a forced disconnect is asked for first. -/
theorem apply_asks (b : Bearer σ) (verdict : Verdict) :
    (b.apply be verdict).1.history = b.history ∨
      ∃ es, (b.apply be verdict).1.history = b.history ++ .asked true :: es := by
  cases verdict with
  | allow => exact .inl rfl
  | disconnectNow => exact .inr (force_asks be b.callOff)
  | unregistered d =>
    simp only [apply]
    split
    · exact .inl rfl
    · split
      · exact .inr (force_asks be b)
      · cases d <;> exact .inl rfl

end Bearer

section Connecting

variable {p q : Phase} {own : Option Errand} {es : List BearerEvent}
  {out : Poll (Option Errand) (Except Error Unit)}

/-- Who has a vendor call under way asks for no disconnect. -/
theorem Stretch.not_asked (h : Stretch p own es q out) (ho : own ≠ none) : isAsked es = false := by
  induction h with
  | last hb =>
    cases hb with
    | rest | connect | ignored | cancel | cancelForced | leave | expired => exact absurd rfl ho
    | stay | connected | failed | undo | undone | left | stayed => rfl
  | more hb _ ih =>
    rw [isAsked_append]
    cases hb with
    | rest | connect | cancel | leave | expired => exact absurd rfl ho
    | stay | undo => exact ih (by simp)

/-- A vendor's connect begins for somebody who finds the bearer down, has no vendor call under way
and asks for no disconnect. -/
theorem Stretch.begins_connect (h : Stretch p own es q out) (hc : .began .connect ∈ es) :
    p = .down ∧ own = none ∧ isAsked es = false := by
  induction h with
  | last hb =>
    cases hb with
    | connect => exact ⟨rfl, rfl, rfl⟩
    | @leave forced => cases forced <;> simp [Errand.leaving] at hc
    | _ => simp at hc
  | @more p own es q own' es' r out hb hs ih =>
    rw [isAsked_append]
    rcases List.mem_append.mp hc with hc | hc
    · cases hb with
      | connect => exact ⟨rfl, rfl, hs.not_asked (by simp)⟩
      | @leave forced => cases forced <;> simp [Errand.leaving] at hc
      | _ => simp at hc
    · -- a later beat: the first one has left the phase down with nobody at work
      obtain ⟨hq, ho, ha⟩ := ih hc
      cases hb with
      | rest => exact ⟨hq, rfl, ha⟩
      | expired => exact ⟨hq, rfl, ha⟩
      | connect | cancel | leave | undo => cases hq
      | stay => cases ho

end Connecting

namespace Interplay

variable {σ : Type} {be : Backend σ}

/-- What one action does, if a vendor's connect begins, is not to ask for a disconnect. -/
theorem not_began_of_asked {b : Bearer σ} {p : Phase} {own : Option Errand} {r : Bearer.Progress be}
    (h : b.Takes p own r) {es : List BearerEvent} {forced : Bool}
    (hh : r.1.history = b.history ++ .asked forced :: es) :
    .began .connect ∉ .asked forced :: es := by
  obtain ⟨es', q, out, hs, hh', -⟩ := h
  obtain rfl : es' = .asked forced :: es := List.append_cancel_left (hh'.symm.trans hh)
  intro hc
  obtain ⟨-, -, ha⟩ := hs.begins_connect hc
  simp [isAsked, BearerEvent.isAsked] at ha

/-- Nobody who waits begins a vendor's connect. -/
theorem Settled.resume_begins {s : Interplay be} {p : Phase} (hs : s.Settled p)
    {wait : ActionWait be.Call} (hw : wait ∈ s.waits) :
    ∃ es, (s.bearer.resume be wait).1.history = s.bearer.history ++ es ∧ .began .connect ∉ es := by
  cases wait with
  | lock errand => exact absurd hw (hs.unlocked errand)
  | vendor errand call =>
    obtain ⟨es, q, out, ht, hh, -⟩ := hs.resume hw
    refine ⟨es, hh, fun hc => ?_⟩
    obtain ⟨-, ho, -⟩ := ht.begins_connect hc
    cases ho
  | ending =>
    have hsame : (s.bearer.resume be .ending).1 = s.bearer := s.bearer.awaitEnd_bearer
    exact ⟨[], by rw [hsame, List.append_nil], List.not_mem_nil⟩

/-- **Only a connect begins a vendor's connect**, and only when it is called. -/
theorem Settled.begins_connect {s : Interplay be} {p : Phase} {mixed : Bool} (hs : s.Settled p)
    (hw : s.Watched mixed) {m : Move σ} (hm : m ≠ .call .connect) :
    .began .connect ∉ (s.step m).since s := by
  suffices h : ∃ es, (s.step m).bearer.history = s.bearer.history ++ es ∧ .began .connect ∉ es by
    obtain ⟨es, hh, hes⟩ := h
    rwa [since_eq hh]
  have hp := hs.inPhase
  have hsame : (s.step m).bearer.history = s.bearer.history →
      ∃ es, (s.step m).bearer.history = s.bearer.history ++ es ∧ .began .connect ∉ es :=
    fun h => ⟨[], by rw [h, List.append_nil], List.not_mem_nil⟩
  -- a report may ask for a disconnect, and a stretch that begins so begins no connect
  have hreport : ∀ r : Report, ∃ es,
      (s.step (.call r.action)).bearer.history = s.bearer.history ++ es ∧ .began .connect ∉ es := by
    intro r
    have hb := s.step_report r
    have ht : s.bearer.Takes p none (s.bearer.call be r.action) := Bearer.call_takes be hp r.action
    rcases Bearer.apply_asks be (s.bearer.hear r) (s.bearer.tracker.take r).2 with hh | ⟨es, hh⟩
    · exact ⟨[], by rw [hb, hh, Bearer.hear_history, List.append_nil], List.not_mem_nil⟩
    · have hstep : (s.step (.call r.action)).bearer.history =
          s.bearer.history ++ .asked true :: es := by
        rw [hb, hh, Bearer.hear_history]
      exact ⟨_, hstep, not_began_of_asked ht hstep⟩
  cases m with
  | call action =>
    cases action with
    | connect => exact absurd rfl hm
    | disconnect =>
      obtain ⟨es, hh⟩ := Bearer.disconnect_asks be s.bearer
      exact ⟨_, hh, not_began_of_asked (Bearer.disconnect_takes hp) hh⟩
    | force =>
      obtain ⟨es, hh⟩ := Bearer.force_asks be s.bearer
      exact ⟨_, hh, not_began_of_asked (Bearer.force_takes hp) hh⟩
    | registered status => exact hreport (.threeGpp status)
    | registeredCdma cdma1x evdo => exact hreport (.cdma cdma1x evdo)
  | poll i =>
    rcases step_poll_cases s i with hb | ⟨wait, hwait, hb⟩
    · exact hsame (by rw [hb])
    · rw [hb]
      exact hs.resume_begins hwait
  | watch =>
    rcases hw.watch_cases with ⟨wait, hwait, hb⟩ | hb | ⟨d, hb⟩
    · rw [hb]
      exact hs.resume_begins hwait
    · exact hsame (by rw [hb])
    · -- a grace period is over, which is a forced disconnect too
      obtain ⟨es, hh⟩ := Bearer.force_asks be (s.bearer.lapse d)
      have hl : (s.bearer.lapse d).InPhase p := by
        cases d <;> exact ⟨hp.status, hp.locked, hp.cancelled⟩
      have hnot := not_began_of_asked (Bearer.force_takes hl) hh
      exact ⟨.expired d :: .asked true :: es, by rw [hb, hh]; simp, by simpa using hnot⟩
  | drift vendor => exact hsame rfl

/-- What a vendor's connect begins from. -/
theorem Settled.connect_began {s : Interplay be} {p : Phase} {mixed : Bool} (hs : s.Settled p)
    (hw : s.Watched mixed) {m : Move σ} (hbegan : .began .connect ∈ (s.step m).since s) :
    m = .call .connect ∧ s.bearer.status = .disconnected ∧ s.bearer.roamingDomain? = none := by
  by_cases hm : m = .call .connect
  · subst hm
    rcases Bearer.connect_cases be s.bearer with hb | hfree
    · have hstill : (s.step (.call .connect)).bearer.history = s.bearer.history ++ [] := by
        rw [List.append_nil]
        exact congrArg Bearer.history hb
      rw [since_eq hstill] at hbegan
      cases hbegan
    · exact ⟨rfl, hfree⟩
  · exact absurd hbegan (hs.begins_connect hw hm)

/-- A connect of a bearer that is down begins its vendor's connect, if nothing is found to be
forbidden. -/
theorem Settled.connect_goes_ahead {s : Interplay be} (hs : s.Settled .down)
    (hroam : s.bearer.roamingDomain? = none) :
    .began .connect ∈ (s.step (.call .connect)).since s := by
  obtain ⟨b, hh, es, q, out, -, hh', -⟩ := Bearer.connect_begins be hs.inPhase hroam
  have hstep : (s.step (.call .connect)).bearer.history
      = s.bearer.history ++ (.status .connecting :: .began .connect :: es) := by
    rw [hh] at hh'
    exact hh'.trans (List.append_assoc _ _ _)
  rw [since_eq hstep]
  simp

/-- A connect that is refused changes nothing else. -/
theorem step_connect_of_roaming {s : Interplay be} {d : Domain}
    (hidle : s.bearer.status = .disconnected ∨ s.bearer.status = .connected)
    (hroam : s.bearer.roamingDomain? = some d) :
    s.step (.call .connect) =
      { s with calls := s.calls ++ [(.connect, .returned (.error (.forbidden d .roaming)))] } := by
  simp only [step, Bearer.call, Bearer.connect_of_roaming hidle hroam]
  rfl

/-- **When a vendor's connect begins.**  In any state that can come of any actions, one begins
exactly if a connect is called, the bearer is down, and nothing forbids roaming, except in the CDMA
domain of a modem that is not mixed.  Where roaming is forbidden otherwise, a connect is refused
with the domain, unless another connect or disconnect is in progress. -/
theorem connect_begins_iff (be : Backend σ) (allowRoaming mixed : Bool) (grace : Nat) (vendor : σ)
    (moves : List (Move σ)) :
    let s := (start be allowRoaming mixed grace vendor).run moves
    (∀ m, .began .connect ∈ (s.step m).since s ↔
      m = .call .connect ∧ s.bearer.status = .disconnected ∧
        ∀ d, s.bearer.tracker.reason d = .roaming → d = .cdma ∧ mixed = false) ∧
    (∀ d, s.bearer.tracker.reason d = .roaming → d = .threeGpp ∨ mixed = true →
      s.bearer.status = .disconnected ∨ s.bearer.status = .connected →
        ∃ d', s.bearer.tracker.reason d' = .roaming ∧
          s.step (.call .connect) = { s with calls :=
            s.calls ++ [(.connect, .returned (.error (.forbidden d' .roaming)))] }) := by
  intro s
  obtain ⟨p, hs, -⟩ := settled_run be allowRoaming mixed grace vendor moves
  have hw : s.Watched mixed := watched_run be allowRoaming mixed grace vendor moves
  -- the CDMA domain is looked at on mixed modems only
  have hnone := Bearer.roamingDomain?_eq_none_iff s.bearer
  rw [hw.mixed] at hnone
  refine ⟨fun m => ⟨fun hbegan => ?_, ?_⟩, fun d hd hcounts hidle => ?_⟩
  · obtain ⟨hm, hdown, hroam⟩ := hs.connect_began hw hbegan
    exact ⟨hm, hdown, hnone.mp hroam⟩
  · rintro ⟨rfl, hdown, hfree⟩
    obtain rfl : p = .down := Phase.status_disconnected.mp (hs.inPhase.status.symm.trans hdown)
    exact hs.connect_goes_ahead (hnone.mpr hfree)
  · cases hroam : s.bearer.roamingDomain? with
    | none =>
      obtain ⟨rfl, hm⟩ := hnone.mp hroam d hd
      simp [hm] at hcounts
    | some d' =>
      exact ⟨d', Bearer.roamingDomain?_eq_some hroam, step_connect_of_roaming hidle hroam⟩

/-- On a modem that is not mixed, roaming is forbidden in the CDMA domain, and the bearer is
connected all the same. -/
theorem connects_in_forbidden_roaming :
    let s :=
      (start StandIn.backend false false 9 plain).run [.call (.registeredCdma .roaming .unknown)]
    let t := s.step (.call .connect)
    s.bearer.tracker.reason .cdma = .roaming ∧
    .began .connect ∈ t.since s ∧
    t.calls[1]? = some (.connect, .returned (.ok ())) ∧
    t.bearer.status = .connected := by
  exact ⟨rfl, List.mem_of_getElem? (i := 1) rfl, rfl, rfl⟩

/-! ## Staying up

The bearer is up and nobody acts on it but by reports.  Whether it is still up after a report
depends on whether it was before, and on the verdict. -/

/-- Since nobody connects or disconnects it, a bearer that was up is up exactly if no forced
disconnect has begun. -/
theorem Unattended.connected_iff {s t : Interplay be} {mixed : Bool} (h : s.Unattended t mixed) :
    t.bearer.status = .connected ↔ .began .force ∉ t.since s := by
  rcases h.stands with ⟨ht, hh⟩ | ⟨es, q, ht, hq, hh, hbegan, -⟩
  · have hnothing : t.since s = [] := since_eq (by rw [hh, List.append_nil])
    have hup : t.bearer.status = .connected := ht.inPhase.status
    rw [hnothing]
    simp [hup]
  · have hdown : t.bearer.status ≠ .connected := ht.inPhase.status ▸ hq.not_connected
    rw [since_eq hh]
    simp [hdown, hbegan]

/-- A bearer that is up stays up after a report unless that forces it down. -/
theorem Settled.connected_after_report {s : Interplay be} (hs : s.Settled .up) (r : Report) :
    (s.step (.call r.action)).bearer.status = .connected ↔
    (s.bearer.tracker.take r).2 ≠ .disconnectNow := by
  have hup : s.bearer.status = .connected := hs.inPhase.status
  rcases hs.report_up r with ⟨hv, hb⟩ | ⟨hv, -⟩ | ⟨d, hv, hb⟩
  · rw [hb, hv]
    simpa [Bearer.callOff] using hup
  · -- the forced disconnect is in the history, so the bearer is not up any more
    obtain ⟨es, q, hp, hh⟩ := hs.report_forces hv
    have hq : (s.step (.call r.action)).Settled q := hs.told hh (Outset.forced hp).told
    rw [hq.inPhase.status, hv]
    simp [hp.gone.not_connected]
  · rw [hb, hv]
    split
    · simpa using hup
    · cases d <;> simpa [Bearer.defer] using hup

/-- A domain that is lost has a grace period then, whether it is the first report of the loss or
not. -/
theorem Settled.armed_after_report {s : Interplay be} (hs : s.Settled .up) {r : Report} {d : Domain}
    (hv : (s.bearer.tracker.take r).2 = .unregistered d) :
    ((s.step (.call r.action)).bearer.deferral d).isArmed = true := by
  rcases hs.report_up r with ⟨hv', -⟩ | ⟨hv', -⟩ | ⟨d', hv', hb⟩
  · rw [hv] at hv'
    cases hv'
  · rw [hv] at hv'
    cases hv'
  · obtain rfl : d = d' := Verdict.unregistered.inj (hv.symm.trans hv')
    rw [hb]
    split
    · rename_i harmed
      cases d <;> exact harmed
    · cases d <;> exact Debouncer.isArmed_arm _ _

/-- A report after which neither domain is in order is acted upon as its own domain has it. -/
theorem verdict_of_forbidden {s : Interplay be} {r : Report}
    (hbad : ∀ d, (s.step (.call r.action)).bearer.tracker.reason d ≠ .none) :
    (s.bearer.tracker.take r).2 =
      if (s.step (.call r.action)).bearer.tracker.reason r.domain = .roaming then .disconnectNow
      else .unregistered r.domain := by
  have htracker : (s.step (.call r.action)).bearer.tracker = (s.bearer.tracker.take r).1 := by
    rw [s.step_report r, Bearer.apply_tracker, Bearer.hear_tracker]
  rw [Tracker.take_verdict, ← htracker]
  exact Tracker.decide_of_forbidden (hbad _) fun _ => hbad _

/-- So it is however many reports there were before. -/
theorem Unattended.connected_after_report {s t : Interplay be} {mixed : Bool}
    (h : s.Unattended t mixed) (r : Report) :
    (t.step (.call r.action)).bearer.status = .connected ↔
      t.bearer.status = .connected ∧ (t.bearer.tracker.take r).2 ≠ .disconnectNow := by
  rcases h.stands with ⟨ht, -⟩ | ⟨es, q, ht, hq, -⟩
  · have hup : t.bearer.status = .connected := ht.inPhase.status
    rw [ht.connected_after_report r]
    simp [hup]
  · -- forced down before, and a report does not change that
    obtain ⟨es', q', ha, -, ht'⟩ :=
      ht.unattended_gone hq h.watched (m := .call r.action) (by cases r <;> trivial)
    have hgone : t.bearer.status ≠ .connected := ht.inPhase.status ▸ hq.not_connected
    have hgone' : (t.step (.call r.action)).bearer.status ≠ .connected :=
      ht'.inPhase.status ▸ (ha.told hq).2.1.not_connected
    simp [hgone, hgone']

/-- A loss leaves a grace period, if the bearer is still up. -/
theorem Unattended.armed_after_report {s t : Interplay be} {mixed : Bool} (h : s.Unattended t mixed)
    {r : Report} {d : Domain} (hup : t.bearer.status = .connected)
    (hv : (t.bearer.tracker.take r).2 = .unregistered d) :
    ((t.step (.call r.action)).bearer.deferral d).isArmed = true := by
  rcases h.stands with ⟨ht, -⟩ | ⟨es, q, ht, hq, -⟩
  · exact ht.armed_after_report hv
  · exact absurd (ht.inPhase.status.symm.trans hup) hq.not_connected

/-- **When a bearer is forced down because of roaming.**  The modem is mixed, the bearer is up at
first, in any state that can come of any actions, and then nobody connects or disconnects it.  Let a
report come after which neither domain is in order.  A forced disconnect has begun by then exactly
if one had begun before, or the domain of the report must not be roamed in, whatever is the matter
with the other one.  The bearer is still up exactly if none has begun, and then it has a grace
period. -/
theorem forced_when_roaming_iff (be : Backend σ) (allowRoaming : Bool) (grace : Nat) (vendor : σ)
    (earlier moves : List (Move σ)) (r : Report) :
    let s := (start be allowRoaming true grace vendor).run earlier
    let t := s.run moves
    let t' := t.step (.call r.action)
    s.bearer.status = .connected → (∀ m ∈ moves, m.HandsOff) →
    (∀ d, t'.bearer.tracker.reason d ≠ .none) →
    (.began .force ∈ t'.since s ↔
      .began .force ∈ t.since s ∨ t'.bearer.tracker.reason r.domain = .roaming) ∧
    (t'.bearer.status = .connected ↔ .began .force ∉ t'.since s) ∧
    (t'.bearer.status = .connected → (t'.bearer.deferral r.domain).isArmed = true) := by
  intro s t t' hup hmoves hbad
  obtain ⟨p, hs, -⟩ := settled_run be allowRoaming true grace vendor earlier
  obtain rfl : p = .up := Phase.status_connected.mp (hs.inPhase.status.symm.trans hup)
  have hrun : s.Unattended t true :=
    hs.unattended_run (watched_run be allowRoaming true grace vendor earlier) hmoves
  have hstep : s.Unattended t' true := hrun.step (by cases r <;> trivial)
  have hverdict : (t.bearer.tracker.take r).2 =
      if t'.bearer.tracker.reason r.domain = .roaming then .disconnectNow
      else .unregistered r.domain :=
    verdict_of_forbidden hbad
  -- one more report takes the bearer down only if its own domain is roaming
  have hcases : t'.bearer.status = .connected ↔
      t.bearer.status = .connected ∧ t'.bearer.tracker.reason r.domain ≠ .roaming := by
    rw [hrun.connected_after_report r, hverdict]
    split <;> simp_all
  refine ⟨?_, hstep.connected_iff, fun hstill => ?_⟩
  · rw [← not_iff_not, not_or, ← hstep.connected_iff, ← hrun.connected_iff]
    exact hcases
  · obtain ⟨hbefore, hown⟩ := hcases.mp hstill
    rw [if_neg hown] at hverdict
    exact hrun.armed_after_report hbefore hverdict

/-- The CDMA domain is lost while the 3GPP domain is in order, then that is found roaming: the
bearer is forced down at once. -/
theorem roaming_reported_last :
    let s := (start StandIn.backend false true 9 plain).run [.call .connect]
    let t := s.run [.call (.registeredCdma .unknown .unknown)]
    let t' := t.step (.call (.registered .roaming))
    .began .force ∈ t'.since s ∧ t'.bearer.status ≠ .connected := by
  intro s t t'
  obtain ⟨hiff, hup, -⟩ := forced_when_roaming_iff StandIn.backend false 9 plain [.call .connect]
    [.call (.registeredCdma .unknown .unknown)] (.threeGpp .roaming) rfl (by simp [Move.HandsOff])
    (by rintro (_ | _) <;> decide)
  have hbegan : .began .force ∈ t'.since s := hiff.mpr (.inr rfl)
  exact ⟨hbegan, fun hstill => hup.mp hstill hbegan⟩

/-- The 3GPP domain is found roaming while the CDMA domain is in order, then that is lost: the
bearer stays up where roaming is forbidden, until the end of a grace period. -/
theorem roaming_reported_first :
    let s := (start StandIn.backend false true 9 plain).run [.call .connect]
    let t := s.run [.call (.registered .roaming), .call (.registeredCdma .unknown .unknown)]
    t.bearer.tracker.reason .threeGpp = .roaming ∧
    t.bearer.tracker.reason .cdma = .unregistered ∧
    t.since s = [] ∧
    t.bearer.status = .connected ∧
    (t.bearer.deferral .cdma).deadline = some 9 := by
  exact ⟨rfl, rfl, rfl, rfl, rfl⟩

end Interplay

end Cellular
