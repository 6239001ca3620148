import Cellular.Proofs.Bearer.History
import Cellular.Proofs.Bearer.Settled
import Mathlib.Data.List.Chain
/-!
# How far a bearer can be

The status of a bearer moves along a few edges only (`BearerStatus.next`), and at every wait it
tells whether a vendor call is under way: one is while the bearer is on its way up or down, and none
is, and the lock is free, while it is up or down.  So the lock serves no purpose: nobody ever waits
for it.

Both halves are read off courses.  A beat sets at most a few statuses, and each of them may follow
the one before; and the status of a phase tells whether it has a vendor call.  What is left is that
the waits of all parties are those of the phase, which is the invariant of settled interplays.
-/

namespace Cellular

/-- The statuses to which a bearer can move from a status. -/
def BearerStatus.next : BearerStatus → List BearerStatus
  | .disconnected => [.connecting]
  | .connecting => [.connected, .disconnecting, .disconnected]
  | .disconnecting => [.disconnected, .connected]
  | .connected => [.disconnecting]

/-- A status may be set where it is the status already, or one to which the bearer can move. -/
def BearerStatus.Follows (s t : BearerStatus) : Prop := t = s ∨ t ∈ s.next

/-- The statuses that a beat sets can stand before any that can follow those of the phase it
leaves. -/
theorem Beat.follows {p q : Phase} {own : Option Errand} {es : List BearerEvent}
    {out : Poll (Option Errand) (Except Error Unit)} {later : List BearerStatus}
    (h : Beat p own es q out) (hl : (q.status :: later).IsChain BearerStatus.Follows) :
    (p.status :: (statuses es ++ later)).IsChain BearerStatus.Follows := by
  cases h with
  | rest | stay | ignored | expired => exact hl
  | connect | connected | undone | leave | left | stayed =>
    refine List.isChain_cons_cons.mpr ⟨.inr ?_, hl⟩
    simp [Phase.status, BearerStatus.next]
  | failed hp =>
    -- the connect may have been cancelled before, and the status may tell
    have hdown : BearerStatus.disconnected ∈ p.status.next := by
      rcases Phase.errand_connect.mp hp with rfl | ⟨_ | _, rfl⟩ <;>
        simp [Phase.status, BearerStatus.next]
    exact List.isChain_cons_cons.mpr ⟨.inr hdown, hl⟩
  | undo hp =>
    have hfollows : p.status.Follows .disconnecting := by
      rcases Phase.errand_connect.mp hp with rfl | ⟨_ | _, rfl⟩ <;>
        simp [BearerStatus.Follows, Phase.status, BearerStatus.next]
    exact List.isChain_cons_cons.mpr ⟨hfollows, hl⟩
  | cancel hs =>
    rw [hs]
    exact List.isChain_cons_cons.mpr ⟨.inr (by simp [BearerStatus.next]), hl⟩
  | cancelForced hs => rw [hs]; exact hl

/-- Along a course the status moves along the edges. -/
theorem Course.follows {p q : Phase} {es : List BearerEvent} (h : Course p es q) :
    (p.status :: statuses es).IsChain BearerStatus.Follows := by
  induction h with
  | nil => exact .singleton _
  | cons hb _ ih => rw [statuses_append]; exact hb.follows ih

namespace Interplay

variable {σ : Type}

/-- **In every interleaving, a vendor call is under way exactly while the bearer is on its way.**
While it is up or down none is, and the lock is free; nobody ever waits for the lock; and the status
only moves along the edges. -/
theorem flight_iff_on_its_way (be : Backend σ) (allowRoaming mixed : Bool)
    (grace : Nat) (vendor : σ) (moves : List (Move σ)) :
    let s := (start be allowRoaming mixed grace vendor).run moves
    (s.flights.length = 1 ↔ s.bearer.status = .connecting ∨ s.bearer.status = .disconnecting) ∧
    (s.bearer.status = .connected ∨ s.bearer.status = .disconnected →
      s.flights = [] ∧ s.bearer.locked = false) ∧
    (s.bearer.locked = true ↔ s.flights.length = 1) ∧
    (∀ errand, .lock errand ∉ s.waits) ∧
    (.disconnected :: statuses s.bearer.history).IsChain BearerStatus.Follows ∧
    statusAfter s.bearer.history = s.bearer.status := by
  intro s
  obtain ⟨p, hs, hc⟩ := settled_run be allowRoaming mixed grace vendor moves
  have hstatus : s.bearer.status = p.status := hs.inPhase.status
  have hlocked : s.bearer.locked = p.errand?.isSome := hs.inPhase.locked
  -- the calls under way are the errand of the phase, if it has one
  have hone : s.flights.length = 1 ↔ p.errand?.isSome := by
    rw [hs.flights.length_eq]
    cases p.errand? <;> simp
  refine ⟨?_, ?_, ?_, hs.unlocked, hc.follows, ?_⟩
  · rw [hone, Phase.errand_isSome, hstatus]
  · intro hidle
    have hnone : p.errand? = none := by
      rw [hstatus] at hidle
      rcases hidle with h | h
      · rw [Phase.status_connected.mp h]; rfl
      · rw [Phase.status_disconnected.mp h]; rfl
    constructor
    · have hf := hs.flights
      rw [hnone] at hf
      exact List.perm_nil.mp hf
    · rw [hlocked, hnone]; rfl
  · rw [hone, hlocked]
  · rw [hc.statusAfter, hstatus]

end Interplay

end Cellular
