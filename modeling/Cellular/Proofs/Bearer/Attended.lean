import Cellular.Proofs.Bearer.Pending
import Cellular.Proofs.Bearer.Unattended
/-!
# A bearer whose pending disconnects are looked after

A pending disconnect is carried out in time only by a party that keeps looking.  What that means is
`Interplay.Admits`: time goes on only while another poll of the party would make no difference, and
no further than to the next of its timers; and between two polls there are fewer reports than there
are generations of a deadline.  Of a run like that one reads what is reported and when
(`Interplay.reports`), and when vendor's disconnects begin (`Interplay.departures`).

The condition on reports is needed because generations wrap around: after so many changes between
two polls the party could take a new deadline for the one that it sleeps on.  The condition on time
says no more than what a clock does for everyone who waits.  What is reported of the 3GPP domain,
and how the vendor's calls end, is left open.
-/

namespace Cellular

/-! ## The party never waits for the end of a connect

When the party forces the bearer down, it may have to wait for a vendor call, but it does not wait
for somebody else's connect to end.  So its waits are those of the vendor, and it goes back to
watching when they are over. -/

namespace Bearer

variable {σ : Type} {be : Backend σ}

/-- A vendor call that is polled does not wait for the end of another's connect. -/
theorem pollVendor_not_ending (b : Bearer σ) (errand : Errand) (call : be.Call) :
    (b.pollVendor be errand call).2.next? ≠ some .ending := by
  -- a disconnect is polled on its own and after a connect that was cancelled
  have hdisconnect : ∀ (b : Bearer σ) (errand : Errand) (call : be.Call),
      (b.pollDisconnect be errand call).2.next? ≠ some .ending := by
    intro b errand call
    unfold pollDisconnect
    split
    · simp [Poll.next?]
    · unfold afterDisconnect
      split <;> simp [finish, Poll.next?]
  unfold pollVendor
  split
  · unfold pollConnect
    split
    · simp [Poll.next?]
    · unfold afterConnect
      split
      · exact hdisconnect _ _ _
      · simp [finish, Poll.next?]
      · split
        · exact hdisconnect _ _ _
        · simp [finish, Poll.next?]
  · exact hdisconnect _ _ _

/-- Nor does one that begins. -/
theorem launch_not_ending (b : Bearer σ) (errand : Errand) :
    (b.launch be errand).2.next? ≠ some .ending := by
  unfold launch
  split
  · simp [Poll.next?]
  · exact pollVendor_not_ending _ _ _

/-- Nor does a forced disconnect. -/
theorem force_not_ending (b : Bearer σ) : (b.force be).2.next? ≠ some .ending := by
  unfold force
  dsimp only
  split
  · simp [Poll.next?]
  · simp [Poll.next?]
  · simp [Poll.next?]
  · exact launch_not_ending _ _

end Bearer

/-- So the party never comes to such a wait. -/
theorem Executor.poll_not_ending {σ : Type} {be : Backend σ} (b : Bearer σ)
    {executor : Executor be.Call} (h : executor.wait? ≠ some .ending) :
    (executor.poll be b).2.wait? ≠ some .ending := by
  cases executor with
  | forcing wait =>
    rw [poll, wait?_afterForce]
    cases wait with
    | lock errand => exact Bearer.launch_not_ending b errand
    | vendor errand call => exact Bearer.pollVendor_not_ending b errand call
    | ending => exact absurd rfl h
  | watching threeGpp cdma =>
    -- a lapsed deferral forces a disconnect, and a forced one never waits for a status
    simp only [poll]
    split
    · rw [wait?_afterForce]
      exact Bearer.force_not_ending _
    · split
      · rw [wait?_afterForce]
        exact Bearer.force_not_ending _
      · simp [wait?]

namespace Interplay

variable {σ : Type} {be : Backend σ}

/-! ## Runs in which the party keeps looking

What may happen next depends on the state and on how many reports have come since the party was
polled.  A run is attended if each of its moves may happen where it comes. -/

/-- The time. -/
def clock (s : Interplay be) : Nat := be.now s.bearer.vendor

/-- While the party that carries pending disconnects out watches, another poll of it makes no
difference. -/
def AtRest (s : Interplay be) : Prop :=
  s.executor.wait? = none → s.executor.poll be s.bearer = (s.bearer, s.executor)

/-- Time may go on up to a moment: nothing is left to do before, and while the party that carries
pending disconnects out watches, it has no timer before. -/
structure MayWait (s : Interplay be) (moment : Nat) : Prop where
  rest : s.AtRest
  timers : s.executor.wait? = none → ∀ timer ∈ s.executor.timers be, moment ≤ timer

/-- How many reports there have been since the party that carries pending disconnects out was
polled, after a move. -/
def unseenAfter (unseen : Nat) : Move σ → Nat
  | .call _ => unseen + 1
  | .watch => 0
  | .poll _ | .drift _ => unseen

/-- What may happen next, where nobody connects or disconnects and the party that carries pending
disconnects out keeps looking. -/
structure Admits (s : Interplay be) (unseen : Nat) (m : Move σ) : Prop where
  /-- Only the 3GPP domain is reported on. -/
  reports : ∀ action, m = .call action → ∃ status, action = .registered status
  /-- No report comes at the very moment at which the pending disconnect is due. -/
  apart : ∀ action, m = .call action → s.bearer.threeGpp.deadline ≠ some s.clock
  /-- Between two polls of the party there are fewer reports than generations. -/
  unseen : unseenAfter unseen m < UInt32.size
  /-- Time does not go back. -/
  forward : s.clock ≤ (s.step m).clock
  /-- Time goes on only when there is nothing to do. -/
  unhurried : s.clock < (s.step m).clock → s.MayWait (s.step m).clock

/-- All moves are ones that may happen. -/
def Attended (s : Interplay be) (unseen : Nat) : List (Move σ) → Prop
  | [] => True
  | m :: moves => s.Admits unseen m ∧ (s.step m).Attended (unseenAfter unseen m) moves

/-- What is reported on the 3GPP domain in one move, and when. -/
def reported (s : Interplay be) : Move σ → Timeline
  | .call (.registered status) => [(s.clock, status)]
  | _ => []

/-- What is reported on the 3GPP domain in a run, and when. -/
def reports (s : Interplay be) : List (Move σ) → Timeline
  | [] => []
  | m :: moves => s.reported m ++ (s.step m).reports moves

/-- The moments at which vendor's disconnects begin in a run. -/
def departures (s : Interplay be) : List (Move σ) → List Nat
  | [] => []
  | m :: moves =>
    List.replicate (disconnects ((s.step m).since s)) s.clock ++ (s.step m).departures moves

/-- Nobody connects or disconnects in such a run. -/
theorem Admits.handsOff {s : Interplay be} {unseen : Nat} {m : Move σ} (h : s.Admits unseen m) :
    m.HandsOff := by
  cases m with
  | call action =>
    obtain ⟨status, rfl⟩ := h.reports action rfl
    trivial
  | poll | watch | drift => trivial

/-- A report may come if there are generations left, and nothing is due at this moment. -/
theorem Admits.report {s : Interplay be} {unseen : Nat} {status : RegistrationStatus}
    (happart : s.bearer.threeGpp.deadline ≠ some s.clock) (hunseen : unseen + 1 < UInt32.size)
    (hclock : (s.step (.call (.registered status))).clock = s.clock) :
    s.Admits unseen (.call (.registered status)) where
  reports := by
    rintro action h
    exact ⟨status, (Move.call.inj h).symm⟩
  apart := fun _ _ => happart
  unseen := hunseen
  forward := Nat.le_of_eq hclock.symm
  unhurried := fun h => absurd h (by omega)

/-- The party may always be polled. -/
theorem Admits.look {s : Interplay be} {unseen : Nat} (hclock : (s.step .watch).clock = s.clock) :
    s.Admits unseen .watch where
  reports := by simp
  apart := by simp
  unseen := by simp [unseenAfter, UInt32.size]
  forward := Nat.le_of_eq hclock.symm
  unhurried := fun h => absurd h (by omega)

/-- Time may go on as far as the party's timer. -/
theorem Admits.pause {s : Interplay be} {unseen : Nat} {vendor : σ} (hunseen : unseen < UInt32.size)
    (hforward : s.clock ≤ be.now vendor) (hwait : s.MayWait (be.now vendor)) :
    s.Admits unseen (.drift vendor) where
  reports := by simp
  apart := by simp
  unseen := hunseen
  forward := hforward
  unhurried := fun _ => hwait

/-! ## What holds at the start

Of the state in which a run begins it is only needed what holds in every state that can come of any
moves. -/

/-- The party that carries pending disconnects out never waits for the end of a connect. -/
theorem not_ending_run (be : Backend σ) (allowRoaming mixed : Bool) (grace : Nat) (vendor : σ)
    (moves : List (Move σ)) :
    ((start be allowRoaming mixed grace vendor).run moves).executor.wait? ≠ some .ending := by
  refine run_keeps (P := fun s => s.executor.wait? ≠ some .ending) ?_
    (by simp [start, Executor.wait?]) moves
  intro s m h
  cases m with
  | call action => exact h
  | poll i =>
    simp only [step]
    split <;> exact h
  | watch => exact Executor.poll_not_ending s.bearer h
  | drift vendor => exact h

/-- Nothing changes what a bearer was set up with. -/
theorem configured_run (be : Backend σ) (allowRoaming mixed : Bool) (grace : Nat) (vendor : σ)
    (moves : List (Move σ)) :
    ((start be allowRoaming mixed grace vendor).run moves).bearer.Configured
      allowRoaming grace := by
  -- a poll of the party can only be split into cases while the bearer is watched
  suffices h : let s := (start be allowRoaming mixed grace vendor).run moves
      s.Watched mixed ∧ s.bearer.Configured allowRoaming grace from h.2
  refine run_keeps (P := fun s => s.Watched mixed ∧ s.bearer.Configured allowRoaming grace) ?_
    ⟨watched_start be allowRoaming mixed grace vendor, rfl, rfl⟩ moves
  rintro s m ⟨hw, hc⟩
  refine ⟨hw.step m, ?_⟩
  have hreport : ∀ r : Report, (s.step (.call r.action)).bearer.Configured allowRoaming grace := by
    intro r
    rw [s.step_report r]
    exact hc.report r
  cases m with
  | call action =>
    cases action with
    | connect => exact hc.leaves (Bearer.connect_leaves s.bearer)
    | disconnect =>
      have hnote : (s.bearer.note (.asked false)).Configured allowRoaming grace :=
        ⟨hc.allowRoaming, hc.grace⟩
      exact hnote.leaves (Bearer.disconnect_leaves s.bearer)
    | force => exact hc.force
    | registered status => exact hreport (.threeGpp status)
    | registeredCdma cdma1x evdo => exact hreport (.cdma cdma1x evdo)
  | poll i =>
    rcases step_poll_cases s i with hb | ⟨wait, -, hb⟩
    · rw [hb]
      exact hc
    · rw [hb]
      exact hc.leaves (Bearer.resume_leaves s.bearer wait)
  | watch =>
    rcases hw.watch_cases with ⟨wait, -, hb⟩ | hb | ⟨d, hb⟩
    · rw [hb]
      exact hc.leaves (Bearer.resume_leaves s.bearer wait)
    · rw [hb]
      exact hc
    · rw [hb]
      exact (hc.lapse d).force
  | drift vendor => exact ⟨hc.allowRoaming, hc.grace⟩

end Interplay

end Cellular
