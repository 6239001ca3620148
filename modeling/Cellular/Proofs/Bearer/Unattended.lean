import Cellular.Proofs.Bearer.Fate
import Cellular.Proofs.Bearer.Report
/-!
# A bearer that nobody connects or disconnects

Reports keep coming, the party that carries pending disconnects out keeps watching, whatever waits
is polled and time passes, but nobody connects the bearer or disconnects it.  If it is up, it stays
up until a report or the end of a grace period forces it down (`Settled.unattended_up`), and from
then on the one vendor's disconnect that this takes is all that happens (`Settled.unattended_gone`).
So over a whole run at most one vendor's disconnect begins (`Settled.unattended_run`).

The case that gives work is a bearer that was forced down.  Its vendor's disconnect may be under way
for as long as it likes, and meanwhile reports and ends of grace periods come; they find the bearer
on its way down and do nothing.  Once it is down they find it down.  So besides the disconnect that
is under way nothing begins (`Aftermath`), and the count is one.
-/

namespace Cellular

/-! ## Moves

Where nobody connects or disconnects there are four kinds of moves left: reports, polls of the
actions that still wait, polls of the party that carries pending disconnects out, and changes on
the vendor's side. -/

/-- Nobody connects or disconnects. -/
def Move.HandsOff {σ : Type} : Move σ → Prop
  | .call .connect | .call .disconnect | .call .force => False
  | _ => True

/-- What may happen where nobody connects or disconnects. -/
theorem Move.HandsOff.cases {σ : Type} {m : Move σ} (h : m.HandsOff) :
    (∃ r : Report, m = .call r.action) ∨ (∃ i, m = .poll i) ∨ m = .watch ∨
    ∃ vendor, m = .drift vendor := by
  cases m with
  | call action =>
    cases action with
    | connect | disconnect | force => exact absurd h id
    | registered status => exact .inl ⟨.threeGpp status, rfl⟩
    | registeredCdma cdma1x evdo => exact .inl ⟨.cdma cdma1x evdo, rfl⟩
  | poll i => exact .inr (.inl ⟨i, rfl⟩)
  | watch => exact .inr (.inr (.inl rfl))
  | drift vendor => exact .inr (.inr (.inr ⟨vendor, rfl⟩))

/-! ## The phase that events lead to

What a move does is known as a list of events.  Outside a connect the phase can be read off them,
which spares to look at the bearer again. -/

namespace Phase

/-- The bearer was forced down. -/
def Gone (p : Phase) : Prop := p = .down ∨ p = .leaving true

/-- A bearer that was forced down is down or on its way there. -/
theorem Gone.status {p : Phase} (h : p.Gone) :
    p.status = .disconnected ∨ p.status = .disconnecting := by
  rcases h with rfl | rfl
  · exact .inl rfl
  · exact .inr rfl

theorem Gone.not_connected {p : Phase} (h : p.Gone) : p.status ≠ .connected := by
  rcases h.status with h | h <;> simp [h]

/-- Unless a connect is under way, a phase is known from the status and the vendor call under
way. -/
theorem eq_of_readings {p q : Phase} (hs : p.status = q.status) (he : p.errand? = q.errand?)
    (hq : q.errand? ≠ some .connect) : p = q := by
  rcases q with _ | _ | _ | _ | _ | (_ | _) <;> rcases p with _ | _ | _ | (_ | _) | _ | (_ | _) <;>
    simp_all [status, errand?, Errand.leaving]

/-- What events tell of the phase that they lead to, where that is not one of a connect. -/
structure Told (p : Phase) (es : List BearerEvent) (q : Phase) : Prop where
  status : es.foldl (fun before e => e.status?.getD before) p.status = q.status
  flight : es.foldl BearerEvent.flight p.errand? = q.errand?
  known : q.errand? ≠ some .connect

theorem Told.unchanged {p : Phase} (hp : p.errand? ≠ some .connect) : p.Told [] p := ⟨rfl, rfl, hp⟩

end Phase

theorem Parting.gone {es : List BearerEvent} {q : Phase} (h : Parting es q) : q.Gone := by
  cases h with
  | under_way => exact .inr rfl
  | finished => exact .inl rfl

/-- What may happen in one move to a bearer that was forced down. -/
inductive Aftermath : Phase → List BearerEvent → Phase → Prop
  | nothing {p} : Aftermath p [] p
  | asked {p} : Aftermath p [.asked true] p
  | lapsed {p d} : Aftermath p [.expired d, .asked true] p
  | parting {es q} (h : Parting es q) : Aftermath (.leaving true) es q

/-- What may happen in one move to a bearer that is up. -/
inductive Outset : List BearerEvent → Phase → Prop
  | nothing : Outset [] .up
  | forced {es q} (h : Parting es q) :
      Outset (.asked true :: .status .disconnecting :: .began .force :: es) q
  | lapsed {d es q} (h : Parting es q) :
      Outset (.expired d :: .asked true :: .status .disconnecting :: .began .force :: es) q

section Events

variable {p q : Phase} {es : List BearerEvent}

/-- What happens to a bearer that was forced down leaves it so, and begins no disconnect. -/
theorem Aftermath.told (h : Aftermath p es q) (hp : p.Gone) :
    p.Told es q ∧ q.Gone ∧ disconnects es = 0 := by
  have hknown : p.errand? ≠ some .connect := by
    rcases hp with rfl | rfl <;> simp [Phase.errand?, Errand.leaving]
  cases h with
  | nothing | asked | lapsed => exact ⟨⟨rfl, rfl, hknown⟩, hp, rfl⟩
  | parting h =>
    cases h with
    | under_way => exact ⟨.unchanged hknown, hp, rfl⟩
    | finished => exact ⟨⟨rfl, rfl, by simp [Phase.errand?]⟩, .inl rfl, rfl⟩

/-- What happens to a bearer that is up tells its phase. -/
theorem Outset.told (h : Outset es q) : Phase.up.Told es q := by
  cases h with
  | nothing => exact .unchanged (by simp [Phase.errand?])
  | forced h | lapsed h =>
    cases h with
    | under_way => exact ⟨rfl, rfl, by simp [Phase.errand?, Errand.leaving]⟩
    | finished => exact ⟨rfl, rfl, by simp [Phase.errand?]⟩

/-- Either nothing has happened, or the one vendor's disconnect has begun. -/
theorem Outset.began (h : Outset es q) :
    es = [] ∧ q = .up ∨ q.Gone ∧ .began .force ∈ es ∧ disconnects es = 1 := by
  cases h with
  | nothing => exact .inl ⟨rfl, rfl⟩
  | forced h | lapsed h => exact .inr ⟨h.gone, by simp, by cases h <;> rfl⟩

end Events

namespace Interplay

variable {σ : Type} {be : Backend σ}

/-- A move leads to the phase that its events tell. -/
theorem Settled.told {s : Interplay be} {p q : Phase} {m : Move σ} {es : List BearerEvent}
    (hs : s.Settled p) (hh : (s.step m).bearer.history = s.bearer.history ++ es)
    (ht : p.Told es q) : (s.step m).Settled q := by
  obtain ⟨es', q', hc, hh', hq'⟩ := hs.run [m]
  have hes : es' = es := List.append_cancel_left (hh'.symm.trans hh)
  rw [hes] at hc
  have hphase : q' = q :=
    Phase.eq_of_readings (hc.status.symm.trans ht.status) (hc.flight.symm.trans ht.flight) ht.known
  exact hphase ▸ hq'

theorem Settled.still_up {s : Interplay be} {m : Move σ} (hs : s.Settled .up)
    (hh : (s.step m).bearer.history = s.bearer.history) : (s.step m).Settled .up :=
  hs.told (by rw [hh, List.append_nil]) (.unchanged (by simp [Phase.errand?]))

/-! ## One move

There are reports, polls of actions, polls of the other party, and drifts.  A poll of an action
matters only while a vendor call is under way; the waits that are left over from earlier find
nothing to do. -/

/-- While no vendor call is under way, polling an action that waits changes nothing. -/
theorem Settled.resume_of_rest {s : Interplay be} {p : Phase} (hs : s.Settled p)
    (hp : p.errand? = none) {wait : ActionWait be.Call} (hw : wait ∈ s.waits) :
    (s.bearer.resume be wait).1 = s.bearer := by
  cases wait with
  | lock errand => exact absurd hw (hs.unlocked errand)
  | vendor errand call =>
    have hflight : p.errand? = some errand := hs.errand hw rfl
    rw [hp] at hflight
    cases hflight
  | ending => exact s.bearer.awaitEnd_bearer

/-- A poll of an action that waits may end the vendor's disconnect, and does nothing else to a
bearer that was forced down. -/
theorem Settled.resume_of_gone {s : Interplay be} {p : Phase} (hs : s.Settled p) (hp : p.Gone)
    {wait : ActionWait be.Call} (hw : wait ∈ s.waits) :
    ∃ es q, Aftermath p es q ∧ (s.bearer.resume be wait).1.history = s.bearer.history ++ es := by
  rcases hp with rfl | rfl
  · rw [hs.resume_of_rest rfl hw]
    exact ⟨[], _, .nothing, (List.append_nil _).symm⟩
  · -- what can still be waiting: the disconnect of the vendor, or a call for the end of it
    cases wait with
    | lock errand => exact absurd hw (hs.unlocked errand)
    | vendor errand call =>
      have hflight : some Errand.force = some errand := hs.errand hw rfl
      obtain rfl := Option.some.inj hflight
      obtain ⟨es, q, hes, hh⟩ := Bearer.pollDisconnect_force be s.bearer call
      exact ⟨es, q, .parting hes, hh⟩
    | ending =>
      have hsame : (s.bearer.resume be .ending).1 = s.bearer := s.bearer.awaitEnd_bearer
      exact ⟨[], _, .nothing, by rw [hsame, List.append_nil]⟩

theorem step_poll_waiting {s : Interplay be} {i : Nat} {action : Action} {wait : ActionWait be.Call}
    (hi : s.calls[i]? = some (action, .waiting wait)) :
    (s.step (.poll i)).bearer = (s.bearer.resume be wait).1 := by
  simp only [step, hi]

/-- Polling an action does to the bearer what resuming one of the waits does, or nothing. -/
theorem step_poll_cases (s : Interplay be) (i : Nat) :
    (s.step (.poll i)).bearer = s.bearer ∨
      ∃ wait ∈ s.waits, (s.step (.poll i)).bearer = (s.bearer.resume be wait).1 := by
  by_cases h : ∃ action wait, s.calls[i]? = some (action, .waiting wait)
  · obtain ⟨action, wait, hi⟩ := h
    exact .inr ⟨wait, List.mem_append_left _ (mem_waits_of_call hi), step_poll_waiting hi⟩
  · exact .inl (by rw [step_poll_of_not_waiting h])

/-- While the bearer is up no poll of an action changes it. -/
theorem Settled.poll_up {s : Interplay be} (hs : s.Settled .up) (i : Nat) :
    (s.step (.poll i)).bearer = s.bearer := by
  rcases step_poll_cases s i with h | ⟨wait, hw, h⟩
  · exact h
  · rw [h, hs.resume_of_rest rfl hw]

/-- What a poll of the party that carries pending disconnects out does to the bearer: what resuming
its wait does, or nothing, or a forced disconnect at the end of a grace period. -/
theorem Watched.watch_cases {s : Interplay be} {mixed : Bool} (hw : s.Watched mixed) :
    (∃ wait ∈ s.waits, (s.step .watch).bearer = (s.bearer.resume be wait).1) ∨
      (s.step .watch).bearer = s.bearer ∨
      ∃ d, (s.step .watch).bearer = ((s.bearer.lapse d).force be).1 := by
  have hbearer : (s.step .watch).bearer = (s.executor.poll be s.bearer).1 := rfl
  rw [hbearer]
  have hfits := hw.fits
  cases hex : s.executor with
  | forcing wait =>
    refine .inl ⟨wait, ?_, Executor.bearer_afterForce _⟩
    have hwait : wait ∈ s.executor.wait?.toList := by rw [hex]; exact List.mem_singleton_self wait
    exact List.mem_append_right _ hwait
  | watching threeGpp cdma =>
    rw [hex] at hfits
    rcases Executor.poll_watching be hfits.1 hfits.2 with ⟨_, _, _, _, hpoll⟩ | ⟨d, _, _, hpoll⟩
    · exact .inr (.inl (by rw [hpoll]))
    · exact .inr (.inr ⟨d, by rw [hpoll, Executor.bearer_afterForce]⟩)

theorem step_report (s : Interplay be) (r : Report) :
    (s.step (.call r.action)).bearer = ((s.bearer.hear r).apply be (s.bearer.tracker.take r).2).1 :=
  congrArg Prod.fst (Bearer.call_report s.bearer r)

/-- What a report does to a bearer that is up. -/
theorem Settled.report_up {s : Interplay be} (hs : s.Settled .up) (r : Report) :
    let b' := (s.step (.call r.action)).bearer
    ((s.bearer.tracker.take r).2 = .allow ∧ b' = (s.bearer.hear r).callOff) ∨
    ((s.bearer.tracker.take r).2 = .disconnectNow ∧ b' = ((s.bearer.hear r).callOff.force be).1) ∨
    ∃ d, (s.bearer.tracker.take r).2 = .unregistered d ∧
      b' = if (s.bearer.deferral d).isArmed then s.bearer.hear r
        else (s.bearer.hear r).defer be d := by
  intro b'
  have hb : b' = ((s.bearer.hear r).apply be (s.bearer.tracker.take r).2).1 := s.step_report r
  cases hv : (s.bearer.tracker.take r).2 with
  | allow => exact .inl ⟨rfl, by rw [hb, hv]; rfl⟩
  | disconnectNow => exact .inr (.inl ⟨rfl, by rw [hb, hv]; rfl⟩)
  | unregistered d =>
    refine .inr (.inr ⟨d, rfl, ?_⟩)
    rw [hb, hv, Bearer.apply_unregistered_of_connected (b := s.bearer.hear r) d hs.inPhase.status,
      Bearer.hear_deferral]

/-- A report after which it must not stay up forces a bearer down that is up. -/
theorem Settled.report_forces {s : Interplay be} (hs : s.Settled .up) {r : Report}
    (hv : (s.bearer.tracker.take r).2 = .disconnectNow) :
    ∃ es q, Parting es q ∧ (s.step (.call r.action)).bearer.history =
      s.bearer.history ++ .asked true :: .status .disconnecting :: .began .force :: es := by
  have hb := s.step_report r
  rw [hv] at hb
  rw [hb]
  exact Bearer.force_of_connected be (b := (s.bearer.hear r).callOff) hs.inPhase.status
    hs.inPhase.locked

/-- The end of a grace period forces a bearer down that is up. -/
theorem Settled.lapse_forces {s : Interplay be} (hs : s.Settled .up) (d : Domain) :
    ∃ es q, Parting es q ∧
      ((s.bearer.lapse d).force be).1.history = s.bearer.history ++
        .expired d :: .asked true :: .status .disconnecting :: .began .force :: es := by
  obtain ⟨es, q, hp, hh⟩ := Bearer.force_of_connected be (b := s.bearer.lapse d)
    ((Bearer.lapse_status _ _).trans hs.inPhase.status)
    ((Bearer.lapse_locked _ _).trans hs.inPhase.locked)
  exact ⟨es, q, hp, by rw [hh]; simp⟩

/-- **A bearer that is up stays up until it is forced down.** -/
theorem Settled.unattended_up {s : Interplay be} {mixed : Bool} (hs : s.Settled .up)
    (hw : s.Watched mixed) {m : Move σ} (hm : m.HandsOff) :
    ∃ es q, Outset es q ∧ (s.step m).bearer.history = s.bearer.history ++ es ∧
    (s.step m).Settled q := by
  -- where the bearer is settled then follows from what the move adds to the history
  suffices h : ∃ es q, Outset es q ∧ (s.step m).bearer.history = s.bearer.history ++ es by
    obtain ⟨es, q, ho, hh⟩ := h
    exact ⟨es, q, ho, hh, hs.told hh ho.told⟩
  have hsame : (s.step m).bearer.history = s.bearer.history →
      ∃ es q, Outset es q ∧ (s.step m).bearer.history = s.bearer.history ++ es :=
    fun h => ⟨[], _, .nothing, by rw [h, List.append_nil]⟩
  rcases hm.cases with ⟨r, rfl⟩ | ⟨i, rfl⟩ | rfl | ⟨vendor, rfl⟩
  · rcases hs.report_up r with ⟨-, hb⟩ | ⟨hv, -⟩ | ⟨d, -, hb⟩
    · exact hsame (by rw [hb]; rfl)
    · obtain ⟨es, q, hp, hh⟩ := hs.report_forces hv
      exact ⟨_, q, .forced hp, hh⟩
    · refine hsame ?_
      rw [hb]
      split
      · rfl
      · cases d <;> rfl
  · exact hsame (by rw [hs.poll_up i])
  · rcases hw.watch_cases with ⟨wait, hwait, hb⟩ | hb | ⟨d, hb⟩
    · exact hsame (by rw [hb, hs.resume_of_rest rfl hwait])
    · exact hsame (by rw [hb])
    · obtain ⟨es, q, hp, hh⟩ := hs.lapse_forces d
      exact ⟨_, q, .lapsed hp, by rw [hb, hh]⟩
  · exact hsame rfl

/-- **A bearer that was forced down is left alone**, apart from the end of the vendor's
disconnect. -/
theorem Settled.unattended_gone {s : Interplay be} {mixed : Bool} {p : Phase}
    (hs : s.Settled p) (hp : p.Gone) (hw : s.Watched mixed) {m : Move σ} (hm : m.HandsOff) :
    ∃ es q, Aftermath p es q ∧ (s.step m).bearer.history = s.bearer.history ++ es ∧
    (s.step m).Settled q := by
  have hidle : s.bearer.status = .disconnected ∨ s.bearer.status = .disconnecting := by
    rw [hs.inPhase.status]
    exact hp.status
  -- the new phase can be read off the events
  suffices h : ∃ es q, Aftermath p es q ∧ (s.step m).bearer.history = s.bearer.history ++ es by
    obtain ⟨es, q, ha, hh⟩ := h
    exact ⟨es, q, ha, hh, hs.told hh (ha.told hp).1⟩
  have hsame : (s.step m).bearer.history = s.bearer.history →
      ∃ es q, Aftermath p es q ∧ (s.step m).bearer.history = s.bearer.history ++ es :=
    fun h => ⟨[], _, .nothing, by rw [h, List.append_nil]⟩
  -- a report, a poll of a call, a turn of the executor, a change at the vendor
  rcases hm.cases with ⟨r, rfl⟩ | ⟨i, rfl⟩ | rfl | ⟨vendor, rfl⟩
  · have hb := s.step_report r
    rcases Bearer.apply_of_idle be (b := s.bearer.hear r) hidle
      (s.bearer.tracker.take r).2 with hh | hh
    · exact hsame (by rw [hb, hh, Bearer.hear_history])
    · exact ⟨_, _, .asked, by rw [hb, hh, Bearer.hear_history]⟩
  · rcases step_poll_cases s i with hb | ⟨wait, hwait, hb⟩
    · exact hsame (by rw [hb])
    · rw [hb]
      exact hs.resume_of_gone hp hwait
  · rcases hw.watch_cases with ⟨wait, hwait, hb⟩ | hb | ⟨d, hb⟩
    · rw [hb]
      exact hs.resume_of_gone hp hwait
    · exact hsame (by rw [hb])
    · refine ⟨_, _, .lapsed (d := d), ?_⟩
      rw [hb, Bearer.force_of_idle (by rw [Bearer.lapse_status]; exact hidle)]
      simp
  · exact hsame rfl

/-! ## A whole run

The state of a run is one of two: up and nothing has happened, or forced down with one disconnect
begun. -/

/-- What has come of a bearer that was up, since nobody connects or disconnects it: it is up and
nothing has happened, or it was forced down once. -/
structure Unattended (s t : Interplay be) (mixed : Bool) : Prop where
  watched : t.Watched mixed
  stands : (t.Settled .up ∧ t.bearer.history = s.bearer.history) ∨
    ∃ es q, t.Settled q ∧ q.Gone ∧ t.bearer.history = s.bearer.history ++ es ∧
      .began .force ∈ es ∧ disconnects es = 1

/-- Every move keeps that. -/
theorem Unattended.step {s t : Interplay be} {mixed : Bool} (h : s.Unattended t mixed) {m : Move σ}
    (hm : m.HandsOff) : s.Unattended (t.step m) mixed := by
  refine ⟨h.watched.step m, ?_⟩
  -- up without a departure so far, or gone after one
  rcases h.stands with ⟨hs, hh⟩ | ⟨es, q, hs, hq, hh, hbegan, hone⟩
  · obtain ⟨es, q, ho, hh', hs'⟩ := hs.unattended_up h.watched hm
    rw [hh] at hh'
    rcases ho.began with ⟨rfl, rfl⟩ | ⟨hq, hbegan, hone⟩
    · exact .inl ⟨hs', by rw [hh', List.append_nil]⟩
    · exact .inr ⟨es, q, hs', hq, hh', hbegan, hone⟩
  · obtain ⟨es', q', ha, hh', hs'⟩ := hs.unattended_gone hq h.watched hm
    obtain ⟨-, hq', hnone⟩ := ha.told hq
    refine .inr ⟨es ++ es', q', hs', hq', ?_, List.mem_append_left _ hbegan, ?_⟩
    · rw [hh', hh, List.append_assoc]
    · have hcount : disconnects (es ++ es') = disconnects es + disconnects es' := List.countP_append
      rw [hcount, hone, hnone]

/-- So does every list of moves. -/
theorem Settled.unattended_run {s : Interplay be} {mixed : Bool} (hs : s.Settled .up)
    (hw : s.Watched mixed) {moves : List (Move σ)} (hm : ∀ m ∈ moves, m.HandsOff) :
    s.Unattended (s.run moves) mixed := by
  suffices h : ∀ t, s.Unattended t mixed → s.Unattended (t.run moves) mixed from h s
    ⟨hw, .inl ⟨hs, rfl⟩⟩
  induction moves with
  | nil => exact fun t ht => ht
  | cons m moves ih =>
    intro t ht
    exact ih (fun m' hm' => hm m' (List.mem_cons_of_mem _ hm')) _
      (ht.step (hm m List.mem_cons_self))

end Interplay

end Cellular
