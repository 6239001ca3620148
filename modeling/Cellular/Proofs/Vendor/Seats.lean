import Cellular.Proofs.Bench.Dispatch
import Cellular.Vendor.Cinterion
import Cellular.Proofs.Vendor.Samsung
/-!
# Seats are accounted for

The board has only a few seats, and everyone shares them.  Switching a module off, bringing a
context up and bringing it down each take one seat.  They do nothing at all where none is free, hold
just that one while they wait for their code, and have given it up when they are over, whatever
happened (`Accounts`).  A dial has given it up even before it asks for the cause of a failure.

All of it is read off the code of conduct that an operation abides by, and the books that go with
it: beside the seats that were taken before, those held are the last ones taken (`Books`).

The same two facts are needed of each operation: what it does when there is no free seat, and that
it abides by the code of conduct for one seat.  `Accounts.of_abides` turns them into the account of
seats, by way of the books: tickets that were there before stand in front, and those that are held
are added behind them, in the order in which they were taken.
-/

namespace Cellular

variable {σ α β : Type}

/-- Beside the seats with the tickets `before`, the seats held are the last ones taken. -/
structure Books (before held : List Nat) (board : Board Urc) : Prop where
  tickets : board.tickets = before ++ held.reverse
  sound : board.Sound
  fresh : ∀ ticket ∈ held, ticket ∉ before
  distinct : held.Nodup

/-- The books can be kept through whatever happens. -/
theorem Books.custody (before : List Nat) : Custody (Books before) where
  publish _ _ _ _ h hpublish :=
    ⟨(Board.tickets_publish hpublish).trans h.tickets, h.sound.publish hpublish,
      h.fresh, h.distinct⟩
  read codes _ h :=
    ⟨(Board.tickets_setUnread ..).trans h.tickets, h.sound.setUnread _ codes, h.fresh, h.distinct⟩
  take {held board ticket board'} h htake := by
    obtain ⟨rfl, htickets⟩ := Board.tickets_subscribe htake
    have hnew := h.sound.issued_not_mem
    rw [h.tickets, List.mem_append, List.mem_reverse, not_or] at hnew
    refine ⟨?_, h.sound.subscribe htake, ?_, List.nodup_cons.mpr ⟨hnew.2, h.distinct⟩⟩
    · rw [htickets, h.tickets, List.reverse_cons, List.append_assoc]
    · rintro t (_ | ⟨_, ht⟩)
      · exact hnew.1
      · exact h.fresh t ht
  give {held board ticket} h := by
    have hnot : ticket ∉ before := h.fresh ticket List.mem_cons_self
    have hnot' : ticket ∉ held := (List.nodup_cons.mp h.distinct).1
    refine ⟨?_, h.sound.unsubscribe ticket, fun t ht => h.fresh t (List.mem_cons_of_mem _ ht),
      (List.nodup_cons.mp h.distinct).2⟩
    rw [Board.tickets_unsubscribe, h.tickets, List.reverse_cons, ← List.append_assoc,
      List.filter_append]
    -- only one seat in the books has the ticket that is given up
    have hall : (before ++ held.reverse).filter (· ≠ ticket) = before ++ held.reverse := by
      refine List.filter_eq_self.mpr fun t ht => ?_
      simp only [decide_eq_true_eq]
      rintro rfl
      exact (List.mem_append.mp ht).elim hnot fun ht => hnot' (List.mem_reverse.mp ht)
    rw [hall]
    simp

/-! ## Without a free seat

An operation that begins with taking a seat does nothing where there is none.  It ends at its first
poll, and nothing can happen before that. -/

/-- The operation finds no free seat and does nothing. -/
def Operation.Refused (op : Operation σ α) (s : σ) (b : Bench) : Prop :=
  (op.run.run s).advance b = (b, .ready (.error (.subscriberOverflow .subscribers), s))

section

variable {s : σ} {b : Bench}

/-- What takes a seat is refused where there is none. -/
theorem Operation.refused_withSeat {inner : Nat → Operation σ α}
    (hfull : b.board.subscribe? = none) :
    (withSeat inner).Refused s b := by
  have htake : (takeSeat.run.run s).advance b =
      (b, .ready (.error (.subscriberOverflow .subscribers), s)) := by
    rw [takeSeat, run_require, Procedure.advance_bind]
    simp [Procedure.advance, Bench.subscribe, hfull, Procedure.carryOn]
  rw [Refused, withSeat, run_bind, Procedure.advance_bind, htake]
  rfl

/-- What would have followed does not happen. -/
theorem Operation.Refused.bind {op : Operation σ α} {f : α → Operation σ β} (h : op.Refused s b) :
    (op >>= f).Refused s b := by
  rw [Refused, run_bind, Procedure.advance_bind, h]
  rfl

/-- A look at the state comes before the seat and changes nothing. -/
theorem Operation.Refused.bind_get {f : σ → Operation σ α} (h : (f s).Refused s b) :
    ((MonadState.get : Operation σ σ) >>= f).Refused s b := h

/-- What is refused ends at once, with everything as it was. -/
theorem Operation.Refused.endsIn {op : Operation σ α} (h : op.Refused s b)
    (events : List (Nat × Event)) :
    Rehearsal.EndsIn b events (op.run.run s) (.error (.subscriberOverflow .subscribers), s) b := by
  have hrun : Rehearsal.run 1 b events (op.run.run s) =
      (some (.error (.subscriberOverflow .subscribers), s), b) := by
    have hpoll : (Flight.start (op.run.run s)).poll b =
        (b, .ready (.error (.subscriberOverflow .subscribers), s)) := h
    simp only [Rehearsal.run, Rehearsal.run_succ, hpoll]
    rfl
  have hends := Rehearsal.EndsIn.of_run (congrArg Prod.fst hrun)
  rwa [hrun] at hends

end

/-! ## Operations with one seat

The code of conduct tells two kinds of commands apart: those that are sent while the seat is held,
and those that are sent when it has been given up.  Only a dial has commands of the second kind. -/

/-- Commands of one kind are sent when no seat is held any more, the others while one is held. -/
def OneSeat (after : Request → Bool) (held : List Nat) (r : Request) : Prop :=
  if after r then held = [] else ∃ ticket, held = [ticket]

/-- How an operation accounts for the seat that it takes.  `after` are the commands that are sent
without it. -/
structure Accounts (after : Request → Bool) (op : Operation σ α) (s : σ) (b : Bench)
    (events : List (Nat × Event)) :
    Prop where
  /-- Without a free seat it fails, and neither the bench nor the state of the modem changes. -/
  full : Board.seatCount ≤ b.board.seats.length →
    Rehearsal.EndsIn b events (op.run.run s) (.error (.subscriberOverflow .subscribers), s) b
  /-- It comes to an end, and the seats are taken that were taken before. -/
  ends : ∃ result s' b', Rehearsal.EndsIn b events (op.run.run s) (result, s') b' ∧
    b'.board.tickets = b.board.tickets
  /-- While it waits for a code, one seat more is taken: the one that it reads from. -/
  waiting : ∀ c w k b', Rehearsal.Reaches b events (op.run.run s) (.join c w k) b' →
    b'.board.tickets = b.board.tickets ++ [c.ticket]
  /-- Each of its commands finds the seats that were taken before and, unless it is sent without it,
  one more. -/
  sending : ∀ f b', Rehearsal.Reaches b events (op.run.run s) f b' → ∀ d ∈ f.dispatches b',
    if after d.1 then d.2.board.tickets = b.board.tickets
    else ∃ ticket, d.2.board.tickets = b.board.tickets ++ [ticket]

section

variable {s : σ} {b : Bench} {events : List (Nat × Event)} {after : Request → Bool}
  {op : Operation σ α}

theorem Books.start (hsound : b.board.Sound) : Books b.board.tickets [] b.board :=
  ⟨(List.append_nil _).symm, hsound, fun _ h => (nomatch h), List.nodup_nil⟩

/-- An operation that abides by the code of conduct accounts for its seat. -/
theorem Accounts.of_abides (h : op.Abides (OneSeat after) (fun held _ _ => held = []) s [])
    (hsound : b.board.Sound) (hrefused : b.board.subscribe? = none → op.Refused s b) :
    Accounts after op s b events where
  full hfull := (hrefused (if_neg (Nat.not_lt.mpr hfull))).endsIn events
  ends := by
    obtain ⟨⟨result, s'⟩, b', hends, -⟩ := Rehearsal.exists_endsIn b events (op.run.run s)
    obtain ⟨held, rfl, hbooks⟩ := hends.abides (Books.custody b.board.tickets) h (.start hsound)
    exact ⟨result, s', b', hends, by simpa using hbooks.tickets⟩
  waiting c w k b' hreach := by
    obtain ⟨held, ⟨hticket, hseat, -⟩, hbooks⟩ :=
      hreach.abides (Books.custody b.board.tickets) h (.start hsound)
    unfold OneSeat at hseat
    split at hseat
    · -- a joined wait reads a seat, so it is not one of the times without
      rw [hseat] at hticket
      cases hticket
    · obtain ⟨ticket, rfl⟩ := hseat
      rw [List.mem_singleton.mp hticket]
      exact hbooks.tickets
  sending f b' hreach d hd := by
    obtain ⟨held, habides, hbooks⟩ :=
      hreach.abides (Books.custody b.board.tickets) h (.start hsound)
    obtain ⟨held', hseat, hbooks'⟩ := (habides.poll (Books.custody b.board.tickets) hbooks).2 d hd
    unfold OneSeat at hseat
    split at hseat
    · rename_i hafter
      rw [if_pos hafter]
      simpa [hseat] using hbooks'.tickets
    · rename_i hafter
      rw [if_neg hafter]
      obtain ⟨ticket, rfl⟩ := hseat
      exact ⟨ticket, hbooks'.tickets⟩

end

namespace Cinterion

open Operation

/-- Switching off holds its seat all along. -/
theorem powerOff_abides (m : Cinterion) :
    powerOff.Abides (OneSeat fun _ => false) (fun held _ _ => held = []) m [] := by
  refine Abides.bind_get (Abides.withSeat rfl fun ticket => Abides.discard ?_)
  exact Abides.join (List.mem_singleton.mpr rfl) ⟨ticket, rfl⟩ fun r => ⟨rfl, rfl⟩

/-- Switching off is refused without a free seat. -/
theorem powerOff_refused (m : Cinterion) {b : Bench} (hfull : b.board.subscribe? = none) :
    powerOff.Refused m b :=
  .bind_get (refused_withSeat hfull)

end Cinterion

namespace Samsung.Bearer

open Operation

/-! ## A dial and a disconnect

Three commands of a dial are sent from the seat, and the question for the cause of a failure after
it was given up.  One code of conduct says so for every command, and the dial abides by it step by
step. -/

/-- The question for the cause of a failure. -/
def asksCause (r : Request) : Bool := r = (Command.extendedError).request

theorem asksCause_extendedError : asksCause (Command.extendedError).request = true :=
  decide_eq_true rfl

theorem asksCause_configureContext (cid : Nat) (user password : String) :
    asksCause (Command.configureContext cid user password).request = false := by
  simp [asksCause, Command.configureContext, Command.extendedError, Command.set, Command.query]

theorem asksCause_setContextActivation (cid state : Nat) :
    asksCause (Command.setContextActivation cid state).request = false := by
  simp [asksCause, Command.setContextActivation, Command.extendedError, Command.set, Command.query]

/-- A command that is sent while the seat is held. -/
theorem oneSeat_of_not_asksCause {r : Request} (h : asksCause r = false) (ticket : Nat) :
    OneSeat asksCause [ticket] r := by
  rw [OneSeat, h]
  exact ⟨ticket, rfl⟩

/-- A code of conduct under which a dial may send its commands: the question for the cause without
its seat, and all others with it. -/
structure PermitsDial (p : Bearer) (sends : List Nat → Request → Prop) : Prop where
  seated : ∀ ticket, ∀ r ∈ p.commands, asksCause r = false → sends [ticket] r
  cause : sends [] (Command.extendedError).request

/-- The code of conduct for one seat permits a dial. -/
theorem permitsDial_oneSeat (p : Bearer) : p.PermitsDial (OneSeat asksCause) where
  seated ticket _ _ h := oneSeat_of_not_asksCause h ticket
  cause := by rw [OneSeat, if_pos asksCause_extendedError]

section

variable {p : Bearer} {sends : List Nat → Request → Prop}

/-- An activation abides by every code that permits a dial. -/
theorem activate_abides (h : p.PermitsDial sends) :
    activate.Abides sends (fun held _ s => held = [] ∧ s = p) p [] := by
  refine Abides.bind_get (Abides.withSeat ⟨rfl, rfl⟩ fun ticket => ?_)
  -- none of the three asks for a cause, so one seat is held while each of them is sent
  have hconfiguration : sends [ticket] p.configuration.request :=
    h.seated ticket _ (by simp [commands]) (asksCause_configureContext ..)
  have hdeactivation : sends [ticket] p.deactivation.request :=
    h.seated ticket _ (by simp [commands]) (asksCause_setContextActivation ..)
  have hactivation : sends [ticket] p.activation.request :=
    h.seated ticket _ (by simp [commands]) (asksCause_setContextActivation ..)
  refine (keeps_step hconfiguration).bind (fun _ => ⟨rfl, rfl, rfl⟩) fun _ => ?_
  refine (keeps_step hdeactivation).bind (fun _ => ⟨rfl, rfl, rfl⟩) fun _ => ?_
  refine keeps_checkToken.bind (fun _ => ⟨rfl, rfl, rfl⟩) fun _ => ?_
  refine Abides.bind (Abides.join (List.mem_singleton.mpr rfl) hactivation fun r => ?_)
  cases r with
  | ok signals => exact .ok (.pure ⟨rfl, rfl, rfl⟩)
  | error e => exact ⟨rfl, rfl, rfl⟩

/-- The state of the bearer after a dial that ended in `r`. -/
def dialled (p : Bearer) (r : Except Error Nat) : Bearer :=
  match r with
  | .ok _ => { p with cid := p.profile }
  | .error _ => p

/-- So does a dial. -/
theorem dial_abides (h : p.PermitsDial sends) :
    dial.Abides sends (fun held r s => held = [] ∧ s = p.dialled r) p [] := by
  refine Keeps.bind (activate_abides h) (fun _ => ⟨rfl, rfl⟩) fun report => ?_
  have hconnected : Operation.Abides sends (fun held r s => held = [] ∧ s = p.dialled r)
      (do modify fun b : Bearer => { b with cid := b.profile }; return (← get).cid) p [] :=
      ⟨rfl, rfl⟩
  split
  · refine Abides.bind (Abides.catching (Abides.step h.cause fun cause => ?_))
    exact .ok (.bind (.throw ⟨rfl, rfl⟩))
  · exact hconnected

end

/-- A dial asks for the cause without its seat, and does all else with it. -/
theorem dial_accounts (p : Bearer) :
    dial.Abides (OneSeat asksCause) (fun held _ _ => held = []) p [] :=
  (dial_abides p.permitsDial_oneSeat).mono fun _ _ _ h => h.1

/-- A disconnect holds its seat all along. -/
theorem disconnect_abides (p : Bearer) :
    disconnect.Abides (OneSeat asksCause) (fun held _ _ => held = []) p [] := by
  have hseat : Operation.Abides (OneSeat asksCause) (fun held _ _ => held = [])
    (withSeat fun ticket =>
      discard <| join (.setContextActivation p.cid 0) .soft ticket (reports p.cid [.deactivated])
        ⟨.awaitNotification, p.completion, "Timed out waiting for disconnection to complete"⟩) p
          [] := by
    refine Abides.withSeat rfl fun ticket => Abides.discard ?_
    exact Abides.join (List.mem_singleton.mpr rfl)
      (oneSeat_of_not_asksCause (asksCause_setContextActivation p.cid 0) ticket) fun r => ⟨rfl, rfl⟩
  refine Abides.bind_get (Abides.bind (Abides.mono ?_ hseat))
  rintro _ r s rfl
  cases r with
  | ok _ => exact .ok (.modify rfl)
  | error e => rfl

/-- A dial is refused without a free seat. -/
theorem dial_refused (p : Bearer) {b : Bench} (hfull : b.board.subscribe? = none) :
    dial.Refused p b := by
  have hactivate : activate.Refused p b := .bind_get (refused_withSeat hfull)
  exact hactivate.bind

theorem disconnect_refused (p : Bearer) {b : Bench} (hfull : b.board.subscribe? = none) :
    disconnect.Refused p b :=
  .bind_get (.bind (refused_withSeat hfull))

end Samsung.Bearer

/-! ## The law -/

/-- **Seats are accounted for.**  Whatever the modem does and whenever the token is set: switching a
module off, bringing a context up and bringing it down fail at once where no seat is free, and leave
the bench and the modem as they are.  Where a seat is free, they hold just one more than before
while they wait for their code and whenever they send a command, apart from the question for the
cause of a failed dial, which finds the seats as they were before.  When they are over, the seats
are again as they were before. -/
theorem seats_accounted (b : Bench) (events : List (Nat × Event)) (hsound : b.board.Sound) :
    (∀ m, Accounts (fun _ => false) Cinterion.powerOff m b events) ∧
    (∀ p, Accounts Samsung.Bearer.asksCause Samsung.Bearer.dial p b events) ∧
    (∀ p, Accounts Samsung.Bearer.asksCause Samsung.Bearer.disconnect p b events) :=
  ⟨fun m => .of_abides m.powerOff_abides hsound fun hfull => m.powerOff_refused hfull,
    fun p => .of_abides p.dial_accounts hsound fun hfull => p.dial_refused hfull,
    fun p => .of_abides p.disconnect_abides hsound fun hfull => p.disconnect_refused hfull⟩

/-- The first `taken` seats are taken, and an activation is refused. -/
def crowded (taken : Nat) : Bench where
  board := { issued := taken, seats := (List.range taken).map fun ticket => (ticket, []) }
  script := [{ answer := .ok [] }, { answer := .ok [] },
    { before := [Bytes.ofString "%IPDPACT:3,3"], answer := .ok [] }]

/-- Beside three seats a dial that fails leaves just those; beside four it does nothing. -/
theorem seats_accounted_crowded :
    ((crowded 3).board.Sound ∧ ∃ result p' b',
      Rehearsal.EndsIn (crowded 3) [] (Samsung.Bearer.dial.run.run Samsung.Bearer.sample)
        (result, p') b' ∧
        b'.board.tickets = [0, 1, 2]) ∧
    (crowded 4).board.Sound ∧
      Rehearsal.EndsIn (crowded 4) [] (Samsung.Bearer.dial.run.run Samsung.Bearer.sample)
        (.error (.subscriberOverflow .subscribers), Samsung.Bearer.sample) (crowded 4) := by
  have hsound : ∀ n, (crowded n).board.Sound := by
    intro n seat hseat
    obtain ⟨ticket, hticket, rfl⟩ := List.mem_map.mp hseat
    exact List.mem_range.mp hticket
  refine ⟨⟨hsound 3, ?_⟩, hsound 4, ?_⟩
  · exact ((seats_accounted (crowded 3) [] (hsound 3)).2.1 Samsung.Bearer.sample).ends
  · exact ((seats_accounted (crowded 4) [] (hsound 4)).2.1 Samsung.Bearer.sample).full (by decide)

end Cellular
