import Cellular.Proofs.Procedure.Session
/-!
# What a soft step does not put up with

A soft step puts up with every failure of its command but one, a reply that cannot be read
(`Command.Unreadable`).  So what is done as one soft step fails where its reply cannot be read, and
nowhere else (`Command.Tried`).

The line itself may fail to read a reply, as may the command.  Both count as the same failure, and
it is the only one that gets through.  Everything else, an error from the modem or no answer at all,
ends as if the command had gone well.
-/

namespace Cellular

/-! ## The failure that gets through -/

/-- The failure of a command whose reply cannot be read. -/
def Error.unreadable : Error := .parse "Couldn't parse modem reply"

/-- It is the one failure on the line that is no failure of the command. -/
theorem Error.isCommandFailure_ofLink {e : LinkError} (h : e ≠ .parse) :
    (ofLink e).isCommandFailure = true := by
  cases e <;> first | rfl | exact absurd rfl h

namespace Command

variable {α : Type} {c : Command α} {answer : Except LinkError Bytes} {r : Except Error Unit}

/-- The line cannot read the reply, or the command cannot. -/
def Unreadable (c : Command α) (answer : Except LinkError Bytes) : Prop :=
  answer = .error .parse ∨ ∃ reply, answer = .ok reply ∧ c.read reply = none

/-- What a command comes to. -/
inductive Comes (c : Command α) (answer : Except LinkError Bytes) : Except Error α → Prop
  | read {reply : Bytes} {a : α} (hanswer : answer = .ok reply) (hread : c.read reply = some a) :
      Comes c answer (.ok a)
  | unreadable (h : c.Unreadable answer) : Comes c answer (.error .unreadable)
  | failed {cause : LinkError} (hanswer : answer = .error cause) (hcause : cause ≠ .parse) :
    Comes c answer (.error (.ofLink cause))

/-- Every answer has one of these outcomes. -/
theorem comes (c : Command α) (answer : Except LinkError Bytes) :
    c.Comes answer (c.outcome answer) := by
  cases answer with
  | ok reply =>
    cases hread : c.read reply with
    | none =>
      have hout : c.outcome (.ok reply) = .error .unreadable := by
        simp [outcome, hread, Error.ofLink, Error.unreadable]
      rw [hout]
      exact .unreadable (.inr ⟨reply, rfl, hread⟩)
    | some a =>
      have hout : c.outcome (.ok reply) = .ok a := by simp [outcome, hread]
      rw [hout]
      exact .read rfl hread
  | error e =>
    by_cases he : e = .parse
    · -- the link could not read the reply: the same error as for a reply that has no reading
      subst he
      exact .unreadable (.inl rfl)
    · exact .failed rfl he

/-! ## Soft steps

A soft step makes a failure of its command a value, unless it is the one that gets through.  So
its result is decided by whether the reply can be read, whatever else goes wrong. -/

/-- What comes of a command whose failure is put up with. -/
inductive Tried (c : Command α) (answer : Except LinkError Bytes) : Except Error Unit → Prop
  | unreadable (h : c.Unreadable answer) : Tried c answer (.error .unreadable)
  | passed (h : ¬ c.Unreadable answer) : Tried c answer (.ok ())

/-- What a soft step comes to is one of these. -/
theorem tried (c : Command α) (answer : Except LinkError Bytes) :
    c.Tried answer ((Severity.soft.outcome (c.outcome answer)).map fun _ => ()) := by
  have hcomes := c.comes answer
  generalize c.outcome answer = x at hcomes
  cases hcomes with
  | read hanswer hread =>
    refine .passed ?_
    rintro (hparse | ⟨reply, hreply, hnone⟩)
    · cases hanswer.symm.trans hparse
    · obtain rfl := Except.ok.inj (hanswer.symm.trans hreply)
      cases hread.symm.trans hnone
  | unreadable h => exact .unreadable h
  | @failed cause hanswer hcause =>
    -- the command failed, but not for its reading, and a soft step passes over that
    have hout : Severity.soft.outcome (.error (.ofLink cause) : Except Error α) = .ok none := by
      simp [Severity.outcome, Error.isCommandFailure_ofLink hcause]
    rw [hout]
    refine .passed ?_
    rintro (hparse | ⟨reply, hreply, -⟩)
    · exact hcause (Except.error.inj (hanswer.symm.trans hparse))
    · cases hanswer.symm.trans hreply

theorem Tried.eq_ok_iff (h : c.Tried answer r) : r = .ok () ↔ ¬ c.Unreadable answer := by
  cases h with
  | unreadable h => exact iff_of_false nofun fun hnot => hnot h
  | passed h => exact iff_of_true rfl h

/-- There is one error that a soft step ends with. -/
theorem Tried.eq_unreadable (h : c.Tried answer r) {e : Error} (he : r = .error e) :
    e = .unreadable := by
  cases h with
  | unreadable => exact (Except.error.inj he).symm
  | passed => cases he

end Command

namespace Operation

variable {σ α : Type} {s s' : σ} {b b' : Bench} {c : Command α} {r : Except Error Unit}

/-- What is done as one soft step. -/
theorem Runs.discard_soft
    (h : (Functor.discard (Operation.step false .soft c) : Operation σ Unit).Runs s b r s' b') :
    s' = s ∧ b.Converses [(c.request, b.turn.answer)] b' ∧ c.Tried b.turn.answer r := by
  obtain ⟨_, rfl, hstep⟩ := h.discard
  obtain ⟨rfl, rfl, before, hanswered⟩ := hstep.unwatched_step
  exact ⟨rfl, .cons hanswered .nil, c.tried _⟩

end Operation

end Cellular
