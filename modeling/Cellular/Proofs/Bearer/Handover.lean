import Cellular.Proofs.Bearer.Played
import Cellular.Proofs.Bearer.Report
/-!
# What the tracker hears

A party reads codes and hands the registration statuses among them to the bearer
(`Listener.handed`).  That is a reading of the very recursion by which the party is polled, and it
is the right one: what the tracker of the bearer has heard after a poll is what was handed over, in
that order (`Listener.poll_tracker`).  Nothing that the bearer does on account of a report reaches
the tracker, and of what others do only reports of their own do.

Codes that are not about registration are read and passed over.  While the bearer deals with a
report, the party is suspended and hands nothing over; when it is polled then, it first resumes what
it was doing.  So what is handed over at a poll depends on where the party is, and the lemma takes
both cases together.
-/

namespace Cellular

/-! ## What reaches the tracker

The tracker of a bearer is changed by reports alone.  So what it knows after any moves is what it
has heard, in the order in which it has heard it, and the moves between the reports may be left
out. -/

/-- Take in reports of the 3GPP domain, one after another. -/
def Tracker.hear3gpp (t : Tracker) (statuses : List RegistrationStatus) : Tracker :=
  statuses.foldl (fun t status => (t.update3gpp status).1) t

/-- Only a report changes what registration forbids. -/
theorem Bearer.call_tracker {σ : Type} (be : Backend σ) (b : Bearer σ) (action : Action)
    (h : ∀ report : Report, action ≠ report.action) : (b.call be action).1.tracker = b.tracker := by
  cases action with
  | connect => exact (connect_leaves b).tracker
  | disconnect => exact (disconnect_leaves b).tracker
  | force => exact (force_leaves b).tracker
  | registered status => exact absurd rfl (h (.threeGpp status))
  | registeredCdma cdma1x evdo => exact absurd rfl (h (.cdma cdma1x evdo))

/-- The party that carries pending disconnects out does not. -/
theorem Executor.poll_tracker {σ : Type} {be : Backend σ} (executor : Executor be.Call)
    (b : Bearer σ) :
    (executor.poll be b).1.tracker = b.tracker := by
  cases executor with
  | forcing wait =>
    rw [poll, bearer_afterForce]
    exact (Bearer.resume_leaves b wait).tracker
  | watching threeGpp cdma =>
    simp only [poll]
    split
    · rw [bearer_afterForce]
      exact (Bearer.force_leaves _).tracker
    · split
      · rw [bearer_afterForce]
        exact (Bearer.force_leaves _).tracker
      · rfl

/-! ## What is handed over

The party that listens reads codes off its seat until none is left or the bearer has to wait. 
What it hands over at a poll is written as a function beside the poll; the two lemmas say that
this is what the tracker hears. -/

namespace Listener

variable {σ : Type} (be : Backend σ) (place : BoardIn σ) (ticket : Nat)

/-- The statuses that are handed over while codes are read. -/
def handedReading : Nat → Bearer σ → List RegistrationStatus
  | 0, _ => []
  | n + 1, b =>
    match (place.get b.vendor).next ticket with
    | (none, _) => []
    | (some code, board) =>
      let b := { b with vendor := place.set board b.vendor }
      match code.registration? with
      | none => handedReading n b
      | some status =>
        status :: match b.call be (.registered status) with
          | (_, .pending _) => []
          | (b, .ready _) => handedReading n b

/-- The statuses that are handed over at a poll of the party. -/
def handed (most : Bearer σ → Nat) (b : Bearer σ) : Listener be.Call → List RegistrationStatus
  | .listening => handedReading be place ticket (most b) b
  | .applying wait =>
    match b.resume be wait with
    | (_, .pending _) => []
    | (b, .ready _) => handedReading be place ticket (most b) b

/-- What is handed over is what the tracker of the bearer hears. -/
theorem read_tracker (n : Nat) (b : Bearer σ) :
    (read be place ticket n b).1.tracker =
      b.tracker.hear3gpp (handedReading be place ticket n b) := by
  induction n generalizing b with
  | zero => rfl
  | succ n ih =>
    rw [read, handedReading]
    rcases (place.get b.vendor).next ticket with ⟨_ | code, board⟩
    · rfl
    · dsimp only
      cases code.registration? with
      | none => exact ih { b with vendor := place.set board b.vendor }
      | some status =>
        -- of a report the tracker takes the status and nothing else
        have htracker :
          (Bearer.call be { b with vendor := place.set board b.vendor }
            (.registered status)).1.tracker =
            (b.tracker.update3gpp status).1 := Bearer.apply_tracker _ _
        dsimp only
        -- a call that waits ends the reading; one that returned lets it go on
        rcases hcall : Bearer.call be { b with vendor := place.set board b.vendor }
          (.registered status) with
          ⟨c, wait | result⟩ <;> rw [hcall] at htracker
        · exact htracker
        · have hrest := ih c
          rw [show c.tracker = _ from htracker] at hrest
          exact hrest

/-- What is handed over at a poll is what the tracker of the bearer hears. -/
theorem poll_tracker (most : Bearer σ → Nat) (b : Bearer σ) (listener : Listener be.Call) :
    (listener.poll be place ticket most b).1.tracker =
      b.tracker.hear3gpp (listener.handed be place ticket most b) := by
  cases listener with
  | listening => exact read_tracker be place ticket (most b) b
  | applying wait =>
    have htracker : (b.resume be wait).1.tracker = b.tracker :=
      (Bearer.resume_leaves b wait).tracker
    rw [poll, handed]
    rcases hresume : b.resume be wait with ⟨c, wait' | result⟩ <;> rw [hresume] at htracker
    · exact htracker
    · have hread := read_tracker be place ticket (most c) c
      rw [show c.tracker = _ from htracker] at hread
      exact hread

end Listener

end Cellular
