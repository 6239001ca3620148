import Cellular.Proofs.Procedure.Ends
import Cellular.Procedure.Operation
import Cellular.Feature
/-!
# How operations run

An operation that is begun on a state and a bench ends with a result, and leaves a state and a bench
(`Operation.Runs`).  There is one rule for each way to build an operation; each says all that the
operation can have done.

An operation is a procedure that carries the state of a modem along, so its rules come from those of
`Procedure.Ends` by looking at what the carrying does (`run_bind` and its like).  They are all
stated from the end: given that the operation ended so, this is what happened.  Chained along the
definition of an operation they give a complete account of it, and a proof about a vendor's
operation is a row of such steps.

Most rules come in two forms, one for the operation by itself and one with something behind it
(`bind_`).  The second form is what a proof uses; it spares a case split on failures that cannot
occur.
-/

namespace Cellular

/-! ## What a command comes to

An answer is read by the command and then judged by the severity of the step.  Fatal steps fail
whenever their commands do; soft ones put up with all failures of a command except replies that
cannot be read. -/

namespace Severity

variable {α : Type} {x : Except Error α} {y : Option α} {e : Error}

/-- A fatal step fails as its command does. -/
theorem fatal_eq_error : fatal.outcome x = .error e ↔ x = .error e := by
  cases x <;> simp [outcome]

theorem fatal_eq_ok (h : fatal.outcome x = .ok y) : ∃ a, x = .ok a := by
  cases x with
  | ok a => exact ⟨a, rfl⟩
  | error e => simp [outcome] at h

/-- A soft step only fails where its command failed in a way it does not put up with. -/
theorem soft_eq_error : soft.outcome x = .error e ↔ x = .error e ∧ e.isCommandFailure = false := by
  cases x with
  | ok a => simp [outcome]
  | error e' =>
    cases h : e'.isCommandFailure
    · simp only [outcome, h, Bool.false_eq_true, and_false, if_false, Except.error.injEq]
      exact ⟨fun he => ⟨he, he ▸ h⟩, And.left⟩
    · simp only [outcome, h, and_self, if_true, reduceCtorEq, Except.error.injEq,
        false_iff, not_and]
      rintro rfl
      simp [h]

/-- A soft step goes well if its command does, or fails in a way that it puts up with. -/
theorem soft_eq_ok (h : soft.outcome x = .ok y) :
    (∃ a, x = .ok a) ∨ ∃ e, x = .error e ∧ e.isCommandFailure = true := by
  cases x with
  | ok a => exact .inl ⟨a, rfl⟩
  | error e =>
    cases hhard : e.isCommandFailure with
    | true => exact .inr ⟨e, rfl, hhard⟩
    | false => simp [outcome, hhard] at h

end Severity

/-- A command comes out well with what its reply is read as. -/
theorem Command.outcome_eq_ok_iff {α : Type} {c : Command α}
    {answer : Except LinkError Bytes} {a : α} :
    c.outcome answer = .ok a ↔ ∃ reply, answer = .ok reply ∧ c.read reply = some a := by
  cases answer with
  | error e => simp [outcome]
  | ok reply => cases hread : c.read reply <;> simp [outcome, hread]

/-- A command fails with errors of the line alone. -/
theorem Command.outcome_eq_error {α : Type} {c : Command α}
    {answer : Except LinkError Bytes} {e : Error} (h : c.outcome answer = .error e) :
    ∃ cause, e = .ofLink cause := by
  unfold Command.outcome at h
  split at h
  · exact ⟨_, (Except.error.inj h).symm⟩
  · split at h
    · cases h
    · exact ⟨_, (Except.error.inj h).symm⟩

/-! ## Operations as procedures

An operation is a procedure that hands its state on, and may end in an error.  The equations of
this section put the procedure of a compound operation together from those of its parts; all that
follows is a case of them. -/

namespace Operation

variable {σ α β : Type} {s s' : σ} {b b' : Bench}

/-- Begun on `s` and `b`, the operation ends with `result` and leaves `s'` and `b'`. -/
def Runs (op : Operation σ α) (s : σ) (b : Bench) (result : Except Error α) (s' : σ)
    (b' : Bench) : Prop :=
  (op.run.run s).Ends b (result, s') b'

/-- What follows once an operation has ended. -/
def following (f : α → Operation σ β) : Except Error α × σ → Procedure (Except Error β × σ)
  | (.ok a, s) => (f a).run.run s
  | (.error e, s) => .done (.error e, s)

/-- Two operations are the first one's procedure and what follows it. -/
theorem run_bind (op : Operation σ α) (f : α → Operation σ β) (s : σ) :
    (op >>= f).run.run s = (op.run.run s).bind (following f) := by
  show (op.run.run s).bind _ = _
  congr 1
  funext ⟨x, s⟩
  cases x <;> rfl

theorem run_require (p : Procedure (Except Error α)) (s : σ) :
    (require p : Operation σ α).run.run s = p.bind fun x => .done (x, s) := rfl

theorem run_catching (op : Operation σ α) (s : σ) :
    (catching op).run.run s = (op.run.run s).bind fun p => .done (.ok p.1, p.2) := rfl

/-- An operation whose value is dropped. -/
theorem run_discard (op : Operation σ α) (s : σ) :
    (discard op).run.run s = (op.run.run s).bind fun p => .done (p.1.map fun _ => (), p.2) := by
  show (op.run.run s).bind _ = _
  congr 1
  funext ⟨x, s⟩
  cases x <;> rfl

/-! ## One operation after another

These are read backwards in the proofs about vendors: from a run of a compound operation they give
the runs of its parts, or the error with which the first of them broke it off. -/

/-- Two operations end as the second one does after the first, or with the error of the first. -/
theorem Runs.bind {op : Operation σ α} {f : α → Operation σ β} {r : Except Error β}
    (h : (op >>= f).Runs s b r s' b') :
    (∃ a s₁ b₁, op.Runs s b (.ok a) s₁ b₁ ∧ (f a).Runs s₁ b₁ r s' b') ∨
    (∃ e, r = .error e ∧ op.Runs s b (.error e) s' b') := by
  unfold Runs at h
  rw [run_bind] at h
  obtain ⟨⟨x, s₁⟩, b₁, hop, hf⟩ := h.bind
  cases x with
  | ok a => exact .inl ⟨a, s₁, b₁, hop, hf⟩
  | error e =>
    obtain ⟨hr, rfl⟩ := hf.done
    obtain ⟨rfl, rfl⟩ := Prod.mk.inj hr
    exact .inr ⟨e, rfl, hop⟩

/-- A value is there at once. -/
theorem Runs.pure {a : α} {r : Except Error α} (h : (pure a : Operation σ α).Runs s b r s' b') :
    r = .ok a ∧ s' = s ∧ b' = b := by
  obtain ⟨hr, rfl⟩ := Procedure.Ends.done h
  obtain ⟨rfl, rfl⟩ := Prod.mk.inj hr
  exact ⟨rfl, rfl, rfl⟩

/-- An operation whose value is put differently. -/
theorem Runs.bind_pure {op : Operation σ α} {f : α → β} {r : Except Error β}
    (h : (op >>= fun a => Pure.pure (f a)).Runs s b r s' b') :
    ∃ x, r = x.map f ∧ op.Runs s b x s' b' := by
  rcases h.bind with ⟨a, _, _, hop, hpure⟩ | ⟨e, rfl, hop⟩
  · obtain ⟨rfl, rfl, rfl⟩ := hpure.pure
    exact ⟨.ok a, rfl, hop⟩
  · exact ⟨.error e, rfl, hop⟩

/-- A change to the state is all that it is. -/
theorem Runs.modify {f : σ → σ} {r : Except Error Unit}
    (h : (modify f : Operation σ Unit).Runs s b r s' b') :
    r = .ok () ∧ s' = f s ∧ b' = b := by
  obtain ⟨hr, rfl⟩ := Procedure.Ends.done h
  obtain ⟨rfl, rfl⟩ := Prod.mk.inj hr
  exact ⟨rfl, rfl, rfl⟩

theorem Runs.bind_get {f : σ → Operation σ α} {r : Except Error α}
    (h : ((MonadState.get : Operation σ σ) >>= f).Runs s b r s' b') : (f s).Runs s b r s' b' := h

theorem Runs.bind_modify {f : σ → σ} {g : Unit → Operation σ α} {r : Except Error α}
    (h : ((MonadStateOf.modifyGet fun s => ((), f s) : Operation σ Unit) >>= g).Runs s b r s' b') :
    (g ()).Runs (f s) b r s' b' := h

/-- An error is there at once. -/
theorem Runs.throw {e : Error} {r : Except Error α}
    (h : (throw e : Operation σ α).Runs s b r s' b') :
    r = .error e ∧ s' = s ∧ b' = b := by
  obtain ⟨hr, rfl⟩ := Procedure.Ends.done h
  obtain ⟨rfl, rfl⟩ := Prod.mk.inj hr
  exact ⟨rfl, rfl, rfl⟩

/-- Nothing comes after an error. -/
theorem Runs.bind_throw {e : Error} {f : β → Operation σ α} {r : Except Error α}
    (h : ((MonadExcept.throw e : Operation σ β) >>= f).Runs s b r s' b') :
    r = .error e ∧ s' = s ∧ b' = b :=
  Runs.throw h

/-- A procedure ends as it does by itself, and the state stays. -/
theorem Runs.require {p : Procedure (Except Error α)} {r : Except Error α}
    (h : (require p : Operation σ α).Runs s b r s' b') : s' = s ∧ p.Ends b r b' := by
  rw [Runs, run_require] at h
  obtain ⟨x, b₁, hp, hdone⟩ := h.bind
  obtain ⟨hr, rfl⟩ := hdone.done
  obtain ⟨rfl, rfl⟩ := Prod.mk.inj hr
  exact ⟨rfl, hp⟩

/-- The value is dropped and all else stays. -/
theorem Runs.discard {op : Operation σ α} {r : Except Error Unit}
    (h : (discard op).Runs s b r s' b') :
    ∃ x, r = x.map (fun _ => ()) ∧ op.Runs s b x s' b' := by
  rw [Runs, run_discard] at h
  obtain ⟨⟨x, s₁⟩, b₁, hop, hdone⟩ := h.bind
  obtain ⟨hr, rfl⟩ := hdone.done
  obtain ⟨rfl, rfl⟩ := Prod.mk.inj hr
  exact ⟨x, rfl, hop⟩

/-- Failure or not, there is a value, and what was done is what the operation did. -/
theorem Runs.catching {op : Operation σ α} {r : Except Error (Except Error α)}
    (h : (catching op).Runs s b r s' b') : ∃ x, r = .ok x ∧ op.Runs s b x s' b' := by
  rw [Runs, run_catching] at h
  obtain ⟨⟨x, s₁⟩, b₁, hop, hdone⟩ := h.bind
  obtain ⟨hr, rfl⟩ := hdone.done
  obtain ⟨rfl, rfl⟩ := Prod.mk.inj hr
  exact ⟨x, rfl, hop⟩

theorem Runs.liftExcept {x : Except Error α} {r : Except Error α}
    (h : (MonadExcept.ofExcept x : Operation σ α).Runs s b r s' b') : r = x ∧ s' = s ∧ b' = b := by
  cases x with
  | ok a => exact Runs.pure h
  | error e => exact Runs.throw h

/-! ## Commands

A command is answered by the next turn of the far end, so what it comes to is decided by that turn.
Rules with `timed` tell when the answer was there as well. -/

/-- A command: it is sent, and its answer decides. -/
theorem Runs.send {c : Command α} {r : Except Error α}
    (h : (send c : Operation σ α).Runs s b r s' b') :
    s' = s ∧ r = c.outcome b.turn.answer ∧
    ∃ before, b.Answered c.request before b.turn.answer [] b' := by
  obtain ⟨rfl, hp⟩ := Runs.require h
  exact ⟨rfl, hp.send_done⟩

/-- A command whose failure is a value; the answer comes when its time has come. -/
theorem Runs.attempt_timed {c : Command α} {r : Except Error (Except Error α)}
    (h : (attempt c : Operation σ _).Runs s b r s' b') :
    s' = s ∧ r = .ok (c.outcome b.turn.answer) ∧
      ∃ before, b.Answered c.request before b.turn.answer [] b' ∧ b'.now = b.now + b.delay := by
  have hattempt : (Operation.attempt c : Operation σ _).run.run s =
      Procedure.bind (.send c.request fun answer => .done (c.outcome answer)) fun x =>
        .done (.ok x, s) := rfl
  rw [Runs, hattempt] at h
  obtain ⟨x, b₁, hp, hdone⟩ := h.bind
  obtain ⟨hr, rfl⟩ := hdone.done
  obtain ⟨rfl, rfl⟩ := Prod.mk.inj hr
  obtain ⟨before, answer, b₂, hanswered, hnow, -, hdone'⟩ := hp.send
  obtain ⟨rfl, rfl⟩ := hdone'.done
  obtain rfl := hanswered.answer
  exact ⟨rfl, rfl, before, hanswered, hnow⟩

theorem Runs.attempt {c : Command α} {r : Except Error (Except Error α)}
    (h : (attempt c : Operation σ _).Runs s b r s' b') :
    s' = s ∧ r = .ok (c.outcome b.turn.answer) ∧
    ∃ before, b.Answered c.request before b.turn.answer [] b' := by
  obtain ⟨hs, hr, before, hanswered, -⟩ := h.attempt_timed
  exact ⟨hs, hr, before, hanswered⟩

/-- A command whose failure is a value, and what follows it. -/
theorem Runs.bind_attempt_timed {c : Command α} {f : Except Error α → Operation σ β}
    {r : Except Error β} (h : (Operation.attempt c >>= f).Runs s b r s' b') :
    ∃ before b₁, b.Answered c.request before b.turn.answer [] b₁ ∧ b₁.now = b.now + b.delay ∧
      (f (c.outcome b.turn.answer)).Runs s b₁ r s' b' := by
  rcases h.bind with ⟨outcome, _, b₁, hattempt, hrest⟩ | ⟨e, -, hattempt⟩
  · obtain ⟨rfl, houtcome, before, hanswered, hnow⟩ := hattempt.attempt_timed
    obtain rfl := Except.ok.inj houtcome
    exact ⟨before, b₁, hanswered, hnow, hrest⟩
  · cases hattempt.attempt.2.1

theorem Runs.bind_attempt {c : Command α} {f : Except Error α → Operation σ β} {r : Except Error β}
    (h : (Operation.attempt c >>= f).Runs s b r s' b') :
    ∃ before b₁, b.Answered c.request before b.turn.answer [] b₁ ∧
    (f (c.outcome b.turn.answer)).Runs s b₁ r s' b' := by
  obtain ⟨before, b₁, hanswered, -, hrest⟩ := h.bind_attempt_timed
  exact ⟨before, b₁, hanswered, hrest⟩

/-- A pause, and what follows it. -/
theorem Runs.bind_pause {span : Nat} {f : Unit → Operation σ β} {r : Except Error β}
    (h : (Operation.pause span >>= f).Runs s b r s' b') :
    ∃ b₁ es, b.Drifts b₁ es ∧ b₁.now = b.now + span ∧ (f ()).Runs s b₁ r s' b' :=
    Procedure.Ends.pause h

/-! ## Features -/

/-- What is known of an optional feature is kept; what is not known is asked for by a command, whose
answer decides. -/
theorem Runs.bind_resolveValue {f : Feature} {c : Command α}
    {g : Option α × Feature → Operation σ β} {r : Except Error β}
    (h : (f.resolveValue (Operation.attempt c) >>= g).Runs s b r s' b') :
    (f = .unknown ∧ ∃ before b₁, b.Answered c.request before b.turn.answer [] b₁ ∧
      (g ((c.outcome b.turn.answer).toOption, .ofQuery (c.outcome b.turn.answer))).Runs
        s b₁ r s' b') ∨
    (f ≠ .unknown ∧ (g (none, f)).Runs s b r s' b') := by
  cases f with
  | unknown =>
    simp only [Feature.resolveValue, bind_assoc, pure_bind] at h
    exact .inl ⟨rfl, h.bind_attempt⟩
  | supported => exact .inr ⟨nofun, h⟩
  | notSupported => exact .inr ⟨nofun, h⟩

theorem Runs.bind_resolve {f : Feature} {c : Command α} {g : Feature → Operation σ β}
    {r : Except Error β} (h : (f.resolve (Operation.attempt c) >>= g).Runs s b r s' b') :
    (f = .unknown ∧ ∃ before b₁, b.Answered c.request before b.turn.answer [] b₁ ∧
      (g (.ofQuery (c.outcome b.turn.answer))).Runs s b₁ r s' b') ∨
    (f ≠ .unknown ∧ (g f).Runs s b r s' b') := by
  simp only [Feature.resolve, bind_assoc, pure_bind] at h
  exact h.bind_resolveValue

/-! ## Steps and calls

A step sends at most one command, and none if it is watched and the token is set.  Its lemma gives
the exchange on the history and the outcome, with the severity applied to it. -/

/-- A step of a sequence that is not watched: its command is sent, and the answer decides. -/
theorem Runs.unwatched_step {severity : Severity} {c : Command α} {r : Except Error (Option α)}
    (h : (step false severity c : Operation σ (Option α)).Runs s b r s' b') :
    s' = s ∧ r = severity.outcome (c.outcome b.turn.answer) ∧
      ∃ before, b.Answered c.request before b.turn.answer [] b' := by
  have hstep : (Operation.step false severity c : Operation σ (Option α)) =
      Operation.require (.send c.request fun answer =>
        .done (severity.outcome (c.outcome answer))) := rfl
  rw [hstep] at h
  obtain ⟨rfl, hp⟩ := h.require
  exact ⟨rfl, hp.send_done⟩

/-- A call to the generic modem: nothing is sent. -/
theorem Runs.parent {call : ParentCall} {r : Except Error Unit}
    (h : (parent call : Operation σ Unit).Runs s b r s' b') :
    s' = s ∧ r = (b.askParent call).2 ∧ b' = (b.askParent call).1 := by
  obtain ⟨rfl, hp⟩ := Runs.require h
  obtain ⟨hr, hb⟩ := hp.parent.done
  exact ⟨rfl, hr, hb⟩

/-- The modes of the generic modem: nothing is sent. -/
theorem Runs.parentModes {r : Except Error (List ModeCombination)}
    (h : (parentModes : Operation σ _).Runs s b r s' b') :
    s' = s ∧ r = b.askParentModes.2 ∧ b' = b.askParentModes.1 := by
  obtain ⟨rfl, hp⟩ := Runs.require h
  obtain ⟨hr, hb⟩ := hp.parentModes.done
  exact ⟨rfl, hr, hb⟩

/-- A look at the token. -/
theorem Runs.checkToken {r : Except Error Unit}
    (h : (checkToken : Operation σ Unit).Runs s b r s' b') :
    s' = s ∧ b' = b.tell (.looked b.cancelled) ∧ r = if b.cancelled then .error .cancelled
      else .ok () := by
  obtain ⟨rfl, hp⟩ := Runs.require h
  obtain ⟨hr, rfl⟩ := hp.observe.done
  exact ⟨rfl, rfl, hr⟩

/-- A look at the token, and what follows it. -/
theorem Runs.bind_checkToken {f : Unit → Operation σ β} {r : Except Error β}
    (h : (Operation.checkToken >>= f).Runs s b r s' b') :
    (r = .error .cancelled ∧ s' = s ∧ b' = b.tell (.looked true)) ∨
    (b.cancelled = false ∧ (f ()).Runs s (b.tell (.looked false)) r s' b') := by
  rcases h.bind with ⟨_, s₁, b₁, hlook, hrest⟩ | ⟨e, rfl, hlook⟩
  · obtain ⟨rfl, rfl, hok⟩ := hlook.checkToken
    cases hcancelled : b.cancelled with
    | true => simp [hcancelled] at hok
    | false =>
      rw [hcancelled] at hrest
      exact .inr ⟨rfl, hrest⟩
  · obtain ⟨rfl, rfl, hfail⟩ := hlook.checkToken
    cases hcancelled : b.cancelled with
    | false => simp [hcancelled] at hfail
    | true =>
      obtain rfl : e = .cancelled := by simpa [hcancelled] using hfail
      exact .inl ⟨rfl, rfl, rfl⟩

/-- A step of a sequence that is watched: unless the token is set its command is sent, and the
answer decides. -/
theorem Runs.step {severity : Severity} {c : Command α} {r : Except Error (Option α)}
    (h : (step true severity c : Operation σ (Option α)).Runs s b r s' b') :
    s' = s ∧ ((r = .error .cancelled ∧ b' = b.tell (.looked true)) ∨
      (r = severity.outcome (c.outcome b.turn.answer) ∧ ∃ es, b.Exchanged c.request b' es)) := by
  have hstep : (Operation.step true severity c : Operation σ (Option α)) = (do
      Operation.checkToken
      Operation.require (.send c.request fun answer =>
        .done (severity.outcome (c.outcome answer)))) := rfl
  rw [hstep] at h
  rcases h.bind_checkToken with ⟨rfl, rfl, rfl⟩ | ⟨-, hsend⟩
  · exact ⟨rfl, .inl ⟨rfl, rfl⟩⟩
  · obtain ⟨rfl, hp⟩ := hsend.require
    obtain ⟨before, answer, b₂, hanswered, -, hkeeps, hdone⟩ := hp.send
    obtain ⟨rfl, rfl⟩ := hdone.done
    exact ⟨rfl, .inr ⟨by rw [hanswered.answer]; rfl, _, hanswered.exchanged hkeeps⟩⟩

/-- A watched step whose value is not looked at, and what follows it. -/
theorem Runs.bind_step {severity : Severity} {c : Command α} {f : Unit → Operation σ β}
    {r : Except Error β}
    (h : (Functor.discard (Operation.step true severity c) >>= f).Runs s b r s' b') :
    (r = .error .cancelled ∧ s' = s ∧ b' = b.tell (.looked true)) ∨
    (∃ e es, severity.outcome (c.outcome b.turn.answer) = .error e ∧ r = .error e ∧ s' = s ∧
      b.Exchanged c.request b' es) ∨
    (∃ x es b₁, severity.outcome (c.outcome b.turn.answer) = .ok x ∧ b.Exchanged c.request b₁ es ∧
      (f ()).Runs s b₁ r s' b') := by
  -- of the ways in which the step and the rest may end only three go together
  rcases h.bind with ⟨_, s₁, b₁, hstep, hrest⟩ | ⟨e, rfl, hstep⟩
  · obtain ⟨x, hx, hstep⟩ := hstep.discard
    obtain ⟨rfl, ⟨rfl, -⟩ | ⟨rfl, es, hes⟩⟩ := hstep.step
    · cases hx
    · cases hout : severity.outcome (c.outcome b.turn.answer) with
      | error e => simp [hout, Except.map] at hx
      | ok x => exact .inr (.inr ⟨x, es, b₁, rfl, hes, hrest⟩)
  · obtain ⟨x, hx, hstep⟩ := hstep.discard
    obtain ⟨rfl, ⟨rfl, rfl⟩ | ⟨rfl, es, hes⟩⟩ := hstep.step
    · obtain rfl := Except.error.inj hx
      exact .inl ⟨rfl, rfl, rfl⟩
    · cases hout : severity.outcome (c.outcome b.turn.answer) with
      | error e' =>
        rw [hout] at hx
        obtain rfl := Except.error.inj hx
        exact .inr (.inl ⟨e, es, rfl, rfl, rfl, hes⟩)
      | ok x => simp [hout, Except.map] at hx

/-! ## Joined commands and seats -/

/-- A joined command. -/
theorem Runs.join {c : Command Unit} {severity : Severity} {ticket : Nat} {wanted : Urc → Bool}
    {terms : Join.Terms} {r : Except Error (Except Error Unit × Urc)}
    (hseated : b.board.Seated ticket)
    (h : (join c severity ticket wanted terms : Operation σ _).Runs s b r s' b') :
    s' = s ∧ ∃ es, JoinedCommand.Joined
      { request := c.request,
        settle := fun answer => (severity.outcome (c.outcome answer)).map fun _ => (),
        ticket, wanted, terms } b r b' es := by
  obtain ⟨rfl, hp⟩ := Runs.require h
  obtain ⟨outcome, b₁, es, hjoined, hdone⟩ := Procedure.Ends.join (by exact hseated) hp
  obtain ⟨rfl, rfl⟩ := hdone.done
  exact ⟨rfl, es, hjoined⟩

/-- Taking a seat either fails, and nothing changes, or gives the ticket of a new one. -/
theorem Runs.takeSeat {r : Except Error Nat} (h : (takeSeat : Operation σ Nat).Runs s b r s' b') :
    s' = s ∧ ((b.board.subscribe? = none ∧ r = .error (.subscriberOverflow .subscribers) ∧ b' = b) ∨
      ∃ ticket board, b.board.subscribe? = some (ticket, board) ∧ r = .ok ticket ∧
      b' = { b with board }) := by
  obtain ⟨rfl, hp⟩ := Runs.require h
  have hp := hp.subscribe
  refine ⟨rfl, ?_⟩
  cases hseat : b.board.subscribe? with
  | none =>
    simp only [Bench.subscribe, hseat] at hp
    obtain ⟨hr, rfl⟩ := hp.done
    exact .inl ⟨rfl, hr, rfl⟩
  | some seat =>
    simp only [Bench.subscribe, hseat] at hp
    obtain ⟨hr, rfl⟩ := hp.done
    exact .inr ⟨seat.1, seat.2, rfl, hr, rfl⟩

/-- With a seat on the board, or without one because none is free. -/
theorem Runs.withSeat {inner : Nat → Operation σ α} {r : Except Error α}
    (h : (withSeat inner).Runs s b r s' b') :
    (b.board.subscribe? = none ∧ r = .error (.subscriberOverflow .subscribers) ∧ s' = s ∧ b' = b) ∨
    (∃ ticket board b₁, b.board.subscribe? = some (ticket, board) ∧
      (inner ticket).Runs s { b with board } r s' b₁ ∧ b' = b₁.unsubscribe ticket) := by
  unfold Operation.withSeat at h
  rcases h.bind with ⟨ticket, s₁, b₁, hseat, hrest⟩ | ⟨e, rfl, hseat⟩
  · obtain ⟨rfl, ⟨-, hr, -⟩ | ⟨ticket', board, hfree, hr, rfl⟩⟩ := hseat.takeSeat
    · cases hr
    · obtain rfl := Except.ok.inj hr
      -- the inner operation is caught, so the seat is given back however it ends
      rcases hrest.bind with ⟨outcome, s₂, b₂, hcatch, hleave⟩ | ⟨e, -, hcatch⟩
      · obtain ⟨x, hx, hinner⟩ := hcatch.catching
        obtain rfl := Except.ok.inj hx
        obtain ⟨rfl, hp⟩ := hleave.require
        obtain ⟨rfl, rfl⟩ := hp.unsubscribe.done
        exact .inr ⟨ticket, board, b₂, hfree, hinner, rfl⟩
      · obtain ⟨x, hx, -⟩ := hcatch.catching
        cases hx
  · obtain ⟨rfl, ⟨hfull, hr, rfl⟩ | ⟨ticket', board, -, hr, -⟩⟩ := hseat.takeSeat
    · obtain rfl := Except.error.inj hr
      exact .inl ⟨hfull, rfl, rfl, rfl⟩
    · cases hr

/-- Where a seat is free the operation is run on it, and begins with nothing to read there. -/
theorem Runs.withSeat_of_free {inner : Nat → Operation σ α} {r : Except Error α}
    (h : (Operation.withSeat inner).Runs s b r s' b')
    (hfree : b.board.seats.length < Board.seatCount) (hsound : b.board.Sound) :
    ∃ ticket board b₁, board.Seated ticket ∧ board.unread ticket = [] ∧
      (inner ticket).Runs s { b with board } r s' b₁ ∧ b' = b₁.unsubscribe ticket := by
  rcases h.withSeat with ⟨hfull, -⟩ | ⟨ticket, board, b₁, htaken, hinner, hleft⟩
  · simp [Board.subscribe?, hfree] at hfull
  · obtain ⟨hseated, hunread⟩ := Board.subscribe?_eq_some hsound htaken
    exact ⟨ticket, board, b₁, hseated, hunread, hinner, hleft⟩

end Operation

end Cellular
