import Cellular.Bench.StandIn
import Cellular.Proofs.Bearer.Forced
import Cellular.Proofs.Bearer.Justified
/-!
# What a report does to a bearer

A report of a change of registration is judged by the tracker, and what the verdict does depends on
how far the bearer is.  One that is up is forced down at once, or gets a grace period; one that is
on its way up is to give the connect up; one that is down or on its way down is left alone.

`report_cancels_connect_iff` says when a connect in progress is given up because registration is
lost: not always, since a grace period that is left from an earlier connection is looked at first.

The verdict is about registration alone; what is done about it is decided by the status, in three
ways.  All of these are equations, since up to its first wait a report is a function of the bearer.
What comes later, and whether the bearer comes up in spite of it, is a matter of interleavings, and
is taken from what is known of connects that were cancelled.
-/

namespace Cellular

/-! ## Reports and verdicts -/

/-- A change of registration, as a modem reports it. -/
inductive Report where
  | threeGpp (status : RegistrationStatus)
  | cdma (cdma1x evdo : CdmaState)

/-- What hands a report to a bearer. -/
def Report.action : Report → Action
  | threeGpp status => .registered status
  | cdma cdma1x evdo => .registeredCdma cdma1x evdo

/-- The domain that a report is about. -/
def Report.domain : Report → Domain
  | threeGpp _ => .threeGpp
  | cdma _ _ => .cdma

namespace Tracker

/-- Take in a report. -/
def take (t : Tracker) : Report → Tracker × Verdict
  | .threeGpp status => t.update3gpp status
  | .cdma cdma1x evdo => t.updateCdma cdma1x evdo

/-- A report does not change whether roaming is allowed. -/
@[simp] theorem take_allowRoaming (t : Tracker) (r : Report) :
    (t.take r).1.allowRoaming = t.allowRoaming := by
  cases r <;> rfl

/-- The verdict is about the domain of the report, and the other one on mixed modems. -/
theorem take_verdict (t : Tracker) (r : Report) :
    (t.take r).2 = (t.take r).1.decide r.domain ((t.take r).1.reason r.domain)
      ((t.take r).1.reason r.domain.other) := by
  cases r <;> rfl

/-- A report is acted upon unless its domain is in order, or on a mixed modem the other one is. -/
theorem decide_of_forbidden {t : Tracker} {domain : Domain} {own other : ForbiddenReason}
    (hown : own ≠ .none) (hother : t.mixed = true → other ≠ .none) :
    t.decide domain own other = if own = .roaming then .disconnectNow
      else .unregistered domain := by
  have hnot : ¬ (own = .none ∨ t.mixed = true ∧ other = .none) := by
    rintro (h | ⟨hm, h⟩)
    · exact hown h
    · exact hother hm h
  unfold decide
  rw [if_neg hnot]
  cases own with
  | none => exact absurd rfl hown
  | unregistered | roaming => rfl

end Tracker

/-! ## What a forced disconnect does, by the status it meets

A bearer that is down or on its way down is left alone; one that is on its way up is told to give it
up; one that is up begins a vendor's disconnect. -/

/-- What one poll of a vendor's forced disconnect adds to the history, and the phase it leaves. -/
inductive Parting : List BearerEvent → Phase → Prop
  | under_way : Parting [] (.leaving true)
  | finished {r} : Parting [.ended .force r, .status .disconnected] .down

namespace Bearer

variable {σ : Type} {be : Backend σ}

/-- Take a report in, before anything is done about it. -/
def hear (b : Bearer σ) (r : Report) : Bearer σ := { b with tracker := (b.tracker.take r).1 }

@[simp] theorem hear_status (b : Bearer σ) (r : Report) : (b.hear r).status = b.status := rfl
@[simp] theorem hear_locked (b : Bearer σ) (r : Report) : (b.hear r).locked = b.locked := rfl
@[simp] theorem hear_cancelled (b : Bearer σ) (r : Report) :
    (b.hear r).cancelled = b.cancelled := rfl
@[simp] theorem hear_tracker (b : Bearer σ) (r : Report) :
    (b.hear r).tracker = (b.tracker.take r).1 := rfl
@[simp] theorem hear_threeGpp (b : Bearer σ) (r : Report) : (b.hear r).threeGpp = b.threeGpp := rfl
@[simp] theorem hear_vendor (b : Bearer σ) (r : Report) : (b.hear r).vendor = b.vendor := rfl
@[simp] theorem hear_history (b : Bearer σ) (r : Report) : (b.hear r).history = b.history := rfl
@[simp] theorem hear_deferral (b : Bearer σ) (r : Report) (d : Domain) :
    (b.hear r).deferral d = b.deferral d := by cases d <;> rfl

/-- A report is taken in, and then something is done about it. -/
theorem call_report (b : Bearer σ) (r : Report) :
    b.call be r.action = (b.hear r).apply be (b.tracker.take r).2 := by
  cases r <;> rfl

/-- A bearer that is down or on its way there is left alone. -/
theorem force_of_idle {b : Bearer σ} (h : b.status = .disconnected ∨ b.status = .disconnecting) :
    b.force be = (b.note (.asked true), .ready (.ok ())) := by
  rcases h with h | h <;> simp [force, h]

/-- A bearer on its way up is to give the connect up. -/
theorem force_of_connecting {b : Bearer σ} (h : b.status = .connecting) :
    b.force be = ({ b.note (.asked true) with cancelled := true }, .ready (.ok ())) := by
  simp [force, h]

variable (be) in
/-- A poll of a forced disconnect goes on or is over, and then the bearer is down. -/
theorem pollDisconnect_force (b : Bearer σ) (call : be.Call) :
    ∃ es q, Parting es q ∧ (b.pollDisconnect be .force call).1.history = b.history ++ es := by
  unfold pollDisconnect
  split
  · exact ⟨[], _, .under_way, (List.append_nil _).symm⟩
  · rename_i vendor result _
    exact ⟨_, _, .finished (r := result), by simp [afterDisconnect, finish]⟩

variable (be) in
/-- A bearer that is up begins its disconnect. -/
theorem force_of_connected {b : Bearer σ} (h : b.status = .connected) (hl : b.locked = false) :
    ∃ es q, Parting es q ∧ (b.force be).1.history =
      b.history ++ .asked true :: .status .disconnecting :: .began .force :: es := by
  have hlaunch : ∀ b' : Bearer σ, b'.locked = false → ∃ es q, Parting es q ∧
      (b'.launch be .force).1.history = b'.history ++ .began .force :: es := by
    intro b' hl'
    rw [launch, if_neg (by simp [hl'])]
    obtain ⟨es, q, hes, hh⟩ := pollDisconnect_force be
      ({ b' with locked := true }.note (.began .force)) (be.disconnect b'.vendor)
    exact ⟨es, q, hes, hh.trans (by simp)⟩
  obtain ⟨es, q, hes, hh⟩ := hlaunch ((b.note (.asked true)).setStatus .disconnecting) hl
  refine ⟨es, q, hes, ?_⟩
  have hforce : b.force be =
      ((b.note (.asked true)).setStatus .disconnecting).launch be .force := by
    simp [force, h]
  rw [hforce, hh]
  simp

variable (be) in
/-- A report leaves a bearer alone that is down, or on its way. -/
theorem apply_of_idle {b : Bearer σ} (h : b.status = .disconnected ∨ b.status = .disconnecting)
    (verdict : Verdict) :
    (b.apply be verdict).1.history = b.history ∨
      (b.apply be verdict).1.history = b.history ++ [.asked true] := by
  cases verdict with
  | allow => exact .inl rfl
  | disconnectNow =>
    refine .inr ?_
    show (b.callOff.force be).1.history = _
    rw [force_of_idle (b := b.callOff) h]
    rfl
  | unregistered d =>
    have hne : b.status ≠ .connected := by rcases h with h | h <;> simp [h]
    simp only [apply]
    split
    · exact .inl rfl
    · rw [force_of_idle h]
      exact .inr rfl

/-- While a disconnect is pending because of the domain, a loss changes nothing, whatever the status
is. -/
theorem apply_unregistered_of_armed {b : Bearer σ} {d : Domain}
    (h : (b.deferral d).isArmed = true) :
    b.apply be (.unregistered d) = (b, .ready (.ok ())) := by
  simp [apply, h]

/-- A loss gives a connect up if nothing is pending. -/
theorem apply_unregistered_of_connecting {b : Bearer σ} (d : Domain) (h : b.status = .connecting) :
    (b.apply be (.unregistered d)).1 =
      if (b.deferral d).isArmed then b else { b.note (.asked true) with cancelled := true } := by
  simp only [apply]
  split
  · rfl
  · rw [if_pos (by simp [h]), force_of_connecting h]

/-- A loss begins a grace period if nothing is pending. -/
theorem apply_unregistered_of_connected {b : Bearer σ} (d : Domain) (h : b.status = .connected) :
    (b.apply be (.unregistered d)).1 = if (b.deferral d).isArmed then b else b.defer be d := by
  simp only [apply]
  split
  · rfl
  · rw [if_neg (by simp [h])]

/-- Who waits for the end of a connect leaves the bearer alone. -/
theorem awaitEnd_bearer (b : Bearer σ) : (b.awaitEnd be).1 = b := by
  unfold awaitEnd
  split <;> rfl

/-! ## The end of a grace period -/

/-- The end of a grace period: the disconnect is not pending any more. -/
def lapse (b : Bearer σ) : Domain → Bearer σ
  | .threeGpp =>
    { b with threeGpp := { b.threeGpp with deadline := none } }.note (.expired .threeGpp)
  | .cdma => { b with cdma := { b.cdma with deadline := none } }.note (.expired .cdma)

@[simp] theorem lapse_status (b : Bearer σ) (d : Domain) : (b.lapse d).status = b.status := by
  cases d <;> rfl
@[simp] theorem lapse_locked (b : Bearer σ) (d : Domain) : (b.lapse d).locked = b.locked := by
  cases d <;> rfl
@[simp] theorem lapse_history (b : Bearer σ) (d : Domain) :
    (b.lapse d).history = b.history ++ [.expired d] := by cases d <;> rfl

end Bearer

/-- While the party that carries pending disconnects out watches, a poll leaves the bearer alone, or
the grace period of a domain is over. -/
theorem Executor.poll_watching {σ : Type} (be : Backend σ) {b : Bearer σ}
    {threeGpp cdma : Debouncer.Sleeper} (h3 : threeGpp.Fits b.threeGpp) (hc : cdma.Fits b.cdma) :
    (∃ threeGpp' cdma',
      b.threeGpp.pollExpired (be.now b.vendor) threeGpp = (b.threeGpp, .pending threeGpp') ∧
      b.cdma.pollExpired (be.now b.vendor) cdma = (b.cdma, .pending cdma') ∧
      poll be b (.watching threeGpp cdma) = (b, .watching threeGpp' cdma')) ∨
    ∃ d, (b.deferral d).isArmed = true ∧
      (d = .threeGpp →
        b.threeGpp.pollExpired (be.now b.vendor) threeGpp =
          ({ b.threeGpp with deadline := none }, .ready ())) ∧
      poll be b (.watching threeGpp cdma) = afterForce be ((b.lapse d).force be) := by
  -- the second deferral is polled only if the first has not expired
  simp only [poll]
  split
  · rename_i heq
    obtain ⟨harmed, rfl⟩ := Debouncer.pollExpired_ready h3 heq
    exact .inr ⟨.threeGpp, harmed, fun _ => heq, rfl⟩
  · rename_i heq
    obtain ⟨rfl, -⟩ := Debouncer.pollExpired_pending h3 heq
    split
    · rename_i heq'
      obtain ⟨harmed, rfl⟩ := Debouncer.pollExpired_ready hc heq'
      exact .inr ⟨.cdma, harmed, by simp, rfl⟩
    · rename_i heq'
      obtain ⟨rfl, -⟩ := Debouncer.pollExpired_pending hc heq'
      exact .inl ⟨_, _, heq, heq', rfl⟩

/-! ## A connect in progress

A loss that is reported during a connect cancels it, unless a disconnect is pending because of the
same domain; then the report is passed over before the status is looked at. -/

namespace Interplay

variable {σ : Type} {be : Backend σ}

/-- A connect in progress that was cancelled does not bring the bearer up, whatever happens then. -/
theorem Settled.never_up {s : Interplay be} {p : Phase} (hs : s.Settled p)
    (hstatus : s.bearer.status = .connecting) (hc : s.bearer.cancelled = true)
    (later : List (Move σ)) :
    .status .connected ∉ untilDown ((s.run later).since s) := by
  have hp : p.status = .connecting := hs.inPhase.status.symm.trans hstatus
  have hconnect : p.errand? = some .connect :=
    Phase.errand_connect.mpr ((Phase.status_connecting.mp hp).imp_right fun h => ⟨false, h⟩)
  have habandoned : p.isAbandoned = true := (hs.inPhase.cancelled hconnect).symm.trans hc
  obtain rfl : p = .abandoned false := by
    rcases Phase.status_connecting.mp hp with rfl | rfl
    · cases habandoned
    · rfl
  obtain ⟨es, q, hcourse, hh, -⟩ := hs.run later
  rw [since_eq hh]
  exact hcourse.sinks .abandoned

/-- **When losing registration stops a connect in progress.**  In any state that can come of any
actions, let a connect be in progress and a report come that says that a domain is not registered.
The connect has been cancelled then exactly if it was before, or no disconnect is pending because of
that domain; and one that has been cancelled does not bring the bearer up.  One that has not goes on
as if nothing had been reported. -/
theorem report_cancels_connect_iff (be : Backend σ) (allowRoaming mixed : Bool)
    (grace : Nat) (vendor : σ) (moves : List (Move σ)) (r : Report) (d : Domain) :
    let s := (start be allowRoaming mixed grace vendor).run moves
    let t := s.step (.call r.action)
    s.bearer.status = .connecting → (s.bearer.tracker.take r).2 = .unregistered d →
    (t.bearer.cancelled = true ↔ s.bearer.cancelled = true ∨
      (s.bearer.deferral d).isArmed = false) ∧
    (t.bearer.cancelled = true → ∀ later, .status .connected ∉ untilDown ((t.run later).since t)) ∧
    (t.bearer.cancelled = false → t.bearer = s.bearer.hear r) := by
  intro s t hstatus hverdict
  -- what is done about the report
  have hb : t.bearer = if (s.bearer.deferral d).isArmed then s.bearer.hear r
      else { (s.bearer.hear r).note (.asked true) with cancelled := true } := by
    show (s.bearer.call be r.action).1 = _
    rw [Bearer.call_report, hverdict, Bearer.apply_unregistered_of_connecting
      (b := s.bearer.hear r) d hstatus, Bearer.hear_deferral]
  obtain ⟨p, hs, -⟩ := settled_run be allowRoaming mixed grace vendor moves
  obtain ⟨es, q, -, -, ht⟩ := hs.run [.call r.action]
  refine ⟨?_, fun hc later => ?_, fun hc => ?_⟩
  · rw [hb]
    cases (s.bearer.deferral d).isArmed <;> simp
  · have hstill : t.bearer.status = .connecting := by
      rw [hb]
      cases (s.bearer.deferral d).isArmed <;> exact hstatus
    exact ht.never_up hstill hc later
  · rw [hb] at hc ⊢
    cases harmed : (s.bearer.deferral d).isArmed with
    | true => rfl
    | false => simp [harmed] at hc

/-- A modem without peculiarities. -/
def plain : Mounted StandIn := { bench := {}, part := {} }

/-- A modem whose connects take a moment from the second one on. -/
def tardy : Mounted StandIn :=
  { bench := {}, part := { connects := [{}, { delay := some 1 }] } }

/-- The bearer has been up, and a second connect is in progress. -/
def reconnecting : List (Move (Mounted StandIn)) :=
  [.call .connect, .call .disconnect, .call .connect]

/-- Registration is lost while nothing is pending: the connect is cancelled. -/
theorem lost_while_reconnecting :
    let s := (start StandIn.backend false false 9 tardy).run reconnecting
    s.bearer.status = .connecting ∧
    (s.bearer.tracker.take (.threeGpp .denied)).2 = .unregistered .threeGpp ∧
    (s.step (.call (.registered .denied))).bearer.cancelled = true := by
  refine ⟨rfl, rfl, ?_⟩
  obtain ⟨hiff, -, -⟩ := report_cancels_connect_iff StandIn.backend false false 9 tardy reconnecting
    (.threeGpp .denied) .threeGpp rfl rfl
  exact hiff.mpr (.inr rfl)

/-- Registration is lost while the bearer is up, and again while the second connect is in progress:
the disconnect that is pending from the first loss keeps the connect from being cancelled, and it
succeeds. -/
theorem lost_twice_not_cancelled :
    let s := (start StandIn.backend false false 9 tardy).run
      [.call .connect, .call (.registered .denied), .call .disconnect, .call .connect]
    let t := s.step (.call (.registered .denied))
    s.bearer.status = .connecting ∧
    (s.bearer.tracker.take (.threeGpp .denied)).2 = .unregistered .threeGpp ∧
    t.bearer.cancelled = false ∧
    (t.run [.drift { tardy with bench := { now := 1 } }, .poll 3]).bearer.status = .connected := by
  exact ⟨rfl, rfl, rfl, rfl⟩

end Interplay

end Cellular
