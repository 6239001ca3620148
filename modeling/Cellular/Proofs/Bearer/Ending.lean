import Cellular.Proofs.Bearer.Cancellation
import Cellular.Proofs.Bearer.Forced
import Cellular.Proofs.Bearer.Roaming
/-!
# A disconnect that waits for a connect to end

A disconnect that meets a connect cancels it and waits until the bearer is down.  It looks at the
bearer whenever it is polled, and only then.  So what counts is not that the bearer has been down,
but that it is down at a poll: a connect that is called in between, before the waiting disconnect
has had its turn, makes it wait on, and when that connect succeeds there is nothing left that
would end the wait (`disconnect_returns_iff`).

While a vendor's connect is under way, there is one call of a connect that it is made for
(`Connecting`).  That call is followed from the disconnect on; the phases tell where the bearer is
when it is over.

The statement is about a single poll, at any moment of any interleaving, and so two things have to
be known of the state at that moment: what the poll finds, and what has happened since the
disconnect was called.  The first is read off the phase.  For the second, the connect that the
disconnect met has its fate; it is over only after the bearer has been down
(`Connecting.been_down`), so whether the bearer is still down depends on connects that were called
later.
-/

namespace Cellular

/-! ## Going down, and staying there

These are facts about courses alone: a bearer that is down leaves that phase by a connect only, and
one that is on its way down gets there. -/

/-- A bearer that is down stays down while no connect begins. -/
theorem Course.stays_down {p q : Phase} {es : List BearerEvent} (h : Course p es q) (hp : p = .down)
    (hc : .began .connect ∉ es) : q = .down := by
  induction h with
  | nil => exact hp
  | cons hb _ ih =>
    rw [List.mem_append, not_or] at hc
    obtain ⟨hnot, hlater⟩ := hc
    cases hb with
    | rest | stay | ignored | expired => exact ih hp hlater
    | connect => simp at hnot
    | connected | undone | leave | left | stayed => cases hp
    | failed he | undo he => rw [hp] at he; cases he
    | cancel hs | cancelForced hs => rw [hp] at hs; cases hs

/-- A bearer on its way down is down once it has been, while no connect begins. -/
theorem Course.ends_down {p q : Phase} {es : List BearerEvent} (h : Course p es q) (hp : p.Sinking)
    (hc : .began .connect ∉ es) (hd : .status .disconnected ∈ es) : q = .down := by
  induction h with
  | nil => cases hd
  | cons hb hrest ih =>
    rw [List.mem_append, not_or] at hc
    obtain ⟨hnot, hlater⟩ := hc
    cases hb with
    | rest | stay => exact ih hp hlater hd
    | connect | connected | leave | stayed => cases hp
    -- down from this beat on
    | failed | undone | left => exact hrest.stays_down rfl hlater
    | undo => exact ih .undoing hlater (by simpa using hd)
    | ignored | expired => exact ih hp hlater (by simpa using hd)
    | cancel | cancelForced => exact ih .abandoned hlater (by simpa using hd)

/-- A vendor call that is under way was before, or has begun since. -/
theorem began_of_flight {errand : Errand} {es : List BearerEvent} {before : Option Errand}
    (h : es.foldl BearerEvent.flight before = some errand) :
    before = some errand ∨ .began errand ∈ es := by
  induction es generalizing before with
  | nil => exact .inl h
  | cons e es ih =>
    rcases ih h with hflight | hmem
    · cases e with
      | began errand' =>
        obtain rfl : errand' = errand := Option.some.inj hflight
        exact .inr List.mem_cons_self
      | ended _ _ => cases hflight
      | status _ | asked _ | expired _ => exact .inl hflight
    · exact .inr (List.mem_cons_of_mem _ hmem)

namespace Interplay

variable {σ : Type} {be : Backend σ}

/-! ## The connect that is under way

Vendor's connects are made for calls of a connect, and for each that is under way the call can be
pointed out.  This is an invariant of the interplay of its own, next to the one that says that there
is at most one vendor call. -/

/-- The action called at a position is the connect that the vendor's connect under way is made for;
`es` is what has happened since it began. -/
structure Connecting (s : Interplay be) (j : Nat) (es : List BearerEvent) (p : Phase) : Prop where
  settled : s.Settled p
  waits : ∃ call, s.calls[j]? = some (.connect, .waiting (.vendor .connect call))
  fate : Fate es p (.pending (some .connect))

theorem Connecting.follows {s : Interplay be} {j : Nat} {es : List BearerEvent} {p : Phase}
    (h : s.Connecting j es p) : s.Follows j es p := by
  obtain ⟨call, hcall⟩ := h.waits
  exact ⟨h.settled, .pending (.vendor .connect call), _, hcall, rfl, h.fate⟩

/-- What has happened since a connect began that is under way, and the vendor call of the phase. -/
theorem Connecting.quiet {s : Interplay be} {j : Nat} {es : List BearerEvent} {p : Phase}
    (h : s.Connecting j es p) : (∀ e ∈ es, e.Quiet) ∧ p.errand? = some .connect := by
  obtain ⟨hs, hwaits, hf⟩ := h
  cases hf with
  | joining hes hp _ => exact ⟨hes, hp⟩

/-- A connect that is followed is the one that is under way, if it is not over and one is. -/
theorem Follows.connecting {s : Interplay be} {j : Nat} {es : List BearerEvent} {p : Phase}
    (h : s.Follows j es p) (hp : p.errand? = some .connect)
    (hover : ∀ r, s.calls[j]? ≠ some (.connect, .returned r)) :
    s.Connecting j es p := by
  obtain ⟨hs, poll, out, hj, hstand, hf⟩ := h
  cases poll with
  | ready r => exact absurd hj (hover r)
  | pending wait =>
    obtain rfl : out = .pending wait.errand? := Poll.stand?_pending hstand
    obtain ⟨errand, he, hpe, -⟩ := hf.errand
    obtain rfl : errand = .connect := Option.some.inj (hpe.symm.trans hp)
    refine ⟨hs, ?_, he ▸ hf⟩
    -- the errand is a connect, and only a call of the vendor has one
    cases wait with
    | vendor errand call =>
      obtain rfl : errand = .connect := Option.some.inj he
      exact ⟨call, hj⟩
    | lock _ => cases he
    | ending => cases he

/-- A connect that ends leaves no vendor's connect under way. -/
theorem Connecting.not_returned {s : Interplay be} {j : Nat} {es : List BearerEvent} {p q : Phase}
    (h : s.Connecting j es p) {m : Move σ} (hq : (s.step m).Settled q)
    (he : q.errand? = some .connect) (r : Except Error Unit) :
    (s.step m).calls[j]? ≠ some (.connect, .returned r) := by
  intro hr
  obtain ⟨call, hcall⟩ := h.waits
  by_cases hm : m = .poll j
  · subst hm
    obtain ⟨es', q', out, poll, rest, ht, hstand, hj, hmoves⟩ := h.settled.poll_waiting hcall
    -- it was the only one with a vendor call, and it has none any more
    obtain rfl : poll = .ready r := by
      rw [hj] at hr
      cases poll <;> simp_all [CallState.ofPoll]
    have hbefore := hmoves.errands h.settled
    rw [h.quiet.2] at hbefore
    have hrest : rest.filterMap ActionWait.errand? = [] := by
      simpa [ActionWait.errand?] using hbefore
    have hflights := (hmoves.waits'.filterMap ActionWait.errand?).symm.trans hq.flights
    rw [he] at hflights
    simp [Poll.next?, hrest] at hflights
  · rw [step_getElem? hm hcall] at hr
    cases hr

/-- A call that is over at once adds no wait. -/
theorem waits_of_call_returned {s : Interplay be} {action : Action} {r : Except Error Unit}
    (h : (s.step (.call action)).calls[s.calls.length]? = some (action, .returned r)) :
    (s.step (.call action)).waits = s.waits := by
  have hnew : (s.step (.call action)).calls
      = s.calls ++ [(action, .ofPoll (s.bearer.call be action).2)] := rfl
  rw [hnew, List.getElem?_concat_length] at h
  have hpoll : CallState.ofPoll (s.bearer.call be action).2 = .returned r :=
    (Prod.mk.inj (Option.some.inj h)).2
  have hwaits : (s.step (.call action)).waits
      = (s.calls ++ [(action, CallState.ofPoll (s.bearer.call be action).2)]).filterMap (·.2.wait?)
        ++ s.executor.wait?.toList := rfl
  rw [hwaits, hpoll, List.filterMap_append]
  simp [waits, CallState.wait?]

/-- A connect that is called while the bearer is down is not over, if a vendor's connect is under
way then. -/
theorem Settled.connect_not_returned {s : Interplay be} {q : Phase} (hs : s.Settled .down)
    (hq : (s.step (.call .connect)).Settled q) (he : q.errand? = some .connect)
    (r : Except Error Unit) :
    (s.step (.call .connect)).calls[s.calls.length]? ≠ some (.connect, .returned r) := by
  intro hr
  have hflights := hq.flights
  rw [Interplay.flights, waits_of_call_returned hr, he] at hflights
  have hnone := hs.flights.symm.trans hflights
  simp [Phase.errand?] at hnone

/-- Whenever a vendor's connect is under way, there is the connect that it is made for. -/
structure Accounted (s : Interplay be) (mixed : Bool) : Prop where
  watched : s.Watched mixed
  connect : ∃ p, s.Settled p ∧ (p.errand? = some .connect → ∃ j es, s.Connecting j es p)

/-- **Every move keeps vendor's connects accounted for.** -/
theorem Accounted.step {s : Interplay be} {mixed : Bool} (h : s.Accounted mixed) (m : Move σ) :
    (s.step m).Accounted mixed := by
  refine ⟨h.watched.step m, ?_⟩
  obtain ⟨p, hs, hconnect⟩ := h.connect
  by_cases hp : p.errand? = some .connect
  · -- the one that was under way may still be, and no other has begun
    obtain ⟨j, es, hj⟩ := hconnect hp
    obtain ⟨es', q, -, hf⟩ := hj.follows.step m
    exact ⟨q, hf.settled, fun hq =>
      ⟨j, es ++ es', hf.connecting hq (hj.not_returned hf.settled hq)⟩⟩
  · obtain ⟨es, q, before, after, rest, hm⟩ := hs.moves m
    by_cases hq : q.errand? = some .connect
    · -- one has begun, so a connect was called
      obtain ⟨out, ht, -⟩ := hm.turn
      have hflight := ht.course.flight
      rw [hq] at hflight
      have hbegan : .began .connect ∈ (s.step m).since s := by
        rw [since_eq hm.history]
        exact (began_of_flight hflight).resolve_left hp
      obtain ⟨rfl, hdown, hroam⟩ := hs.connect_began h.watched hbegan
      obtain rfl : p = .down := Phase.status_disconnected.mp (hs.inPhase.status ▸ hdown)
      obtain ⟨es', q', -, hf⟩ := hs.follows_connect hdown hroam
      exact ⟨q', hf.settled, fun hq' =>
        ⟨s.calls.length, es', hf.connecting hq' (hs.connect_not_returned hf.settled hq')⟩⟩
    · exact ⟨q, hm.settled hs, fun hq' => absurd hq' hq⟩

/-- In every interleaving vendor's connects are accounted for. -/
theorem accounted_run (be : Backend σ) (allowRoaming mixed : Bool) (grace : Nat) (vendor : σ)
    (moves : List (Move σ)) :
    ((start be allowRoaming mixed grace vendor).run moves).Accounted mixed := by
  refine run_keeps (P := (Accounted · mixed)) (fun _ m h => h.step m) ?_ moves
  refine ⟨watched_start be allowRoaming mixed grace vendor, .down,
    settled_start allowRoaming mixed grace vendor, ?_⟩
  intro hp
  cases hp

/-- Who finds a bearer connecting finds the connect that is under way, and nobody has cancelled it
with a disconnect that waits. -/
theorem Accounted.connecting {s : Interplay be} {mixed : Bool} (h : s.Accounted mixed)
    (hs : s.bearer.status = .connecting) : ∃ j es p, s.Connecting j es p := by
  obtain ⟨p, hp, hconnect⟩ := h.connect
  have hphase : p.status = .connecting := hp.inPhase.status ▸ hs
  have herrand : p.errand? = some .connect :=
    Phase.errand_connect.mpr ((Phase.status_connecting.mp hphase).imp_right fun h => ⟨false, h⟩)
  obtain ⟨j, es, hj⟩ := hconnect herrand
  exact ⟨j, es, p, hj⟩

/-! ## The disconnect that waits for its end

The waiting disconnect holds no vendor call.  It is polled like any other action, and each poll
looks at the status once. -/

/-- A disconnect that meets a connect cancels it and begins to wait. -/
theorem step_disconnect_of_connecting {s : Interplay be} (hs : s.bearer.status = .connecting) :
    (s.step (.call .disconnect)).bearer.history
      = s.bearer.history ++ [.asked false, .status .disconnecting] ∧
    (s.step (.call .disconnect)).calls = s.calls ++ [(.disconnect, .waiting .ending)] := by
  have hcall : s.bearer.call be .disconnect
      = ({ (s.bearer.note (.asked false)).setStatus .disconnecting with cancelled := true },
          .pending .ending) := by
    simp [Bearer.call, Bearer.disconnect, Bearer.awaitEnd, hs]
  have hstep : s.step (.call .disconnect) = { s with
      bearer := { (s.bearer.note (.asked false)).setStatus .disconnecting with cancelled := true }
      calls := s.calls ++ [(.disconnect, .waiting .ending)] } := by
    simp only [step, hcall]
    rfl
  rw [hstep]
  exact ⟨by simp, rfl⟩

/-- A disconnect that waits for the end of a connect is over when it finds the bearer down, and
waits on otherwise. -/
theorem step_poll_ending {s : Interplay be} {i : Nat}
    (hi : s.calls[i]? = some (.disconnect, .waiting .ending)) :
    s.step (.poll i) = if s.bearer.status = .disconnected
      then { s with calls := s.calls.set i (.disconnect, .returned (.ok ())) } else s := by
  have hsame : s.calls.set i (.disconnect, .waiting .ending) = s.calls := by
    obtain ⟨hlt, hget⟩ := List.getElem?_eq_some_iff.mp hi
    rw [← hget]
    exact List.set_getElem_self hlt
  by_cases hdown : s.bearer.status = .disconnected
  · simp only [step, hi, Bearer.resume, Bearer.awaitEnd, hdown, if_true]
    rfl
  · simp only [step, hi, Bearer.resume, Bearer.awaitEnd, hdown, if_false, CallState.ofPoll, hsame]

/-- It never ends in any other way. -/
theorem ending_or_returned {s : Interplay be} {i : Nat}
    (hi : s.calls[i]? = some (.disconnect, .waiting .ending)) (moves : List (Move σ)) :
    (s.run moves).calls[i]? = some (.disconnect, .waiting .ending) ∨
      (s.run moves).calls[i]? = some (.disconnect, .returned (.ok ())) := by
  -- the two states together are kept: a poll may turn the first into the second
  refine run_keeps (P := fun t => t.calls[i]? = some (.disconnect, .waiting .ending) ∨
    t.calls[i]? = some (.disconnect, .returned (.ok ()))) ?_ (.inl hi) moves
  intro t m ht
  by_cases hm : m = .poll i
  · subst hm
    rcases ht with ht | ht
    · rw [step_poll_ending ht]
      by_cases hdown : t.bearer.status = .disconnected
      · rw [if_pos hdown]
        exact .inr (List.getElem?_set_self (List.getElem?_eq_some_iff.mp ht).1)
      · rw [if_neg hdown]
        exact .inl ht
    · rw [step_poll_of_not_waiting]
      · exact .inr ht
      · rintro ⟨action, wait, hwait⟩
        rw [ht] at hwait
        cases hwait
  · exact ht.imp (step_getElem? hm) (step_getElem? hm)

/-- The disconnect leaves the bearer on its way down. -/
theorem Settled.sinks_after_disconnect {s : Interplay be} {p : Phase} (hs : s.Settled p)
    (hp : p.errand? = some .connect) (hc : s.bearer.status = .connecting) :
    ∃ q, (s.step (.call .disconnect)).Settled q ∧ q.Sinking := by
  obtain ⟨es, q, before, after, rest, hm⟩ := hs.moves (.call .disconnect)
  obtain ⟨hhistory, -⟩ := step_disconnect_of_connecting hc
  obtain rfl : es = [.asked false, .status .disconnecting] :=
    List.append_cancel_left (hm.history.symm.trans hhistory)
  obtain ⟨out, ht, -⟩ := hm.turn
  have hstatus : q.status = .disconnecting := ht.course.status.symm
  have herrand : q.errand? = some .connect := by
    rw [← hp]
    exact ht.course.flight.symm
  refine ⟨q, hm.settled hs, ?_⟩
  -- still at work on the connect, but no longer with its status
  rcases Phase.errand_connect.mp herrand with rfl | ⟨told, rfl⟩
  · cases hstatus
  · exact .abandoned

/-- That poll is the last one exactly if it finds the bearer down. -/
theorem step_poll_ending_returned {s : Interplay be} {i : Nat}
    (hi : s.calls[i]? = some (.disconnect, .waiting .ending)) :
    (s.step (.poll i)).calls[i]? = some (.disconnect, .returned (.ok ())) ↔
    s.bearer.status = .disconnected := by
  rw [step_poll_ending hi]
  by_cases hd : s.bearer.status = .disconnected
  · rw [if_pos hd]
    exact iff_of_true (List.getElem?_set_self (List.getElem?_eq_some_iff.mp hi).1) hd
  · rw [if_neg hd]
    refine iff_of_false (fun hret => ?_) hd
    rw [hi] at hret
    cases hret

/-- What has happened since the disconnect was called begins with what the call itself did. -/
theorem since_disconnect {s : Interplay be} {p : Phase} (hs : s.Settled p)
    (hc : s.bearer.status = .connecting) (later : List (Move σ)) :
    ((s.step (.call .disconnect)).run later).since s =
      [.asked false, .status .disconnecting] ++
        ((s.step (.call .disconnect)).run later).since (s.step (.call .disconnect)) := by
  obtain ⟨es, q, before, after, rest, hm⟩ := hs.moves (.call .disconnect)
  obtain ⟨es₁, q₁, -, hh₁, -⟩ := (hm.settled hs).run later
  obtain ⟨hhistory, -⟩ := step_disconnect_of_connecting hc
  rw [since_eq hh₁]
  refine since_eq ?_
  rw [hh₁, hhistory, List.append_assoc]

/-- The disconnect came in time, so the connect that it meets is over only when the bearer has been
down. -/
theorem Connecting.been_down {s : Interplay be} {j : Nat} {es : List BearerEvent} {p : Phase}
    {r : Except Error Unit} (hj : s.Connecting j es p) (hc : s.bearer.status = .connecting)
    (later : List (Move σ))
    (hr : ((s.step (.call .disconnect)).run later).calls[j]? = some (.connect, .returned r)) :
    .status .disconnected ∈ ((s.step (.call .disconnect)).run later).since s := by
  obtain ⟨es', q, hh, hfollows⟩ := hj.follows.run (.call .disconnect :: later)
  have hes' : ((s.step (.call .disconnect)).run later).since s = es' := since_eq hh
  -- the call to disconnect comes while the connect is still going on
  have hasked : isAsked (whileConnecting (es ++ es')) = true := by
    rw [← hes', since_disconnect hj.settled hc, whileConnecting_quiet_append hj.quiet.1,
      isAsked_append]
    simp [whileConnecting_cons, BearerEvent.endsConnect, isAsked, BearerEvent.isAsked]
  obtain ⟨out, hfate, hout⟩ := hfollows.returned
  obtain ⟨-, hdown_iff, hnot_ok, -⟩ := hfate.cancelled hasked
  have hready : out = .ready r := (hout r).mp hr
  -- a connect that was cancelled does not return success
  have herror : ∃ e, out = .ready (.error e) := by
    cases r with
    | ok _ => exact absurd hready hnot_ok
    | error e => exact ⟨e, hready⟩
  -- the status has been down since the connect began, and not before the call
  have hmem := hdown_iff.mpr herror
  rw [hes']
  exact (List.mem_append.mp hmem).resolve_left (disconnected_not_mem_quiet hj.quiet.1)

/-- A bearer that was on its way down and has been down is up again only if a connect has begun. -/
theorem Settled.raised {s : Interplay be} {p : Phase} (hs : s.Settled p) (hp : p.Sinking)
    (later : List (Move σ)) (hdown : .status .disconnected ∈ (s.run later).since s)
    (hup : (s.run later).bearer.status ≠ .disconnected) :
    .began .connect ∈ (s.run later).since s := by
  obtain ⟨es, q, hcourse, hh, hq⟩ := hs.run later
  rw [since_eq hh] at hdown ⊢
  by_contra hnone
  obtain rfl : q = .down := hcourse.ends_down hp hnone hdown
  exact hup hq.inPhase.status

/-- **A disconnect that waits for a connect to end returns exactly if it finds the bearer down.**  A
disconnect is called, in any state that can come of any actions in which the bearer is connecting;
`later` is what happens then.  There is a connect that it waits for; it waits until a poll finds the
bearer down, and ends in nothing but success.

Once that connect has returned, the bearer has been down.  If the disconnect still waits, then its
next poll ends it exactly if the bearer is down at that moment.  Otherwise the poll does nothing,
and another connect has begun meanwhile: only a connect keeps the disconnect waiting. -/
theorem disconnect_returns_iff (be : Backend σ) (allowRoaming mixed : Bool)
    (grace : Nat) (vendor : σ) (earlier later : List (Move σ)) :
    let s := (start be allowRoaming mixed grace vendor).run earlier
    let t := (s.step (.call .disconnect)).run later
    let i := s.calls.length
    s.bearer.status = .connecting →
    (t.calls[i]? = some (.disconnect, .waiting .ending) ∨
      t.calls[i]? = some (.disconnect, .returned (.ok ()))) ∧
    ∃ j : Nat, (∃ wait, s.calls[j]? = some (.connect, .waiting wait)) ∧
      ((∃ r, t.calls[j]? = some (.connect, .returned r)) →
        .status .disconnected ∈ t.since s ∧
        (t.calls[i]? = some (.disconnect, .waiting .ending) →
          ((t.step (.poll i)).calls[i]? = some (.disconnect, .returned (.ok ())) ↔
            t.bearer.status = .disconnected) ∧
          (t.bearer.status ≠ .disconnected →
            t.step (.poll i) = t ∧ .began .connect ∈ t.since s))) := by
  intro s t i hconnecting
  have hs : s.Accounted mixed := accounted_run be allowRoaming mixed grace vendor earlier
  obtain ⟨hhistory, hcalls⟩ := step_disconnect_of_connecting hconnecting
  have hi : (s.step (.call .disconnect)).calls[i]? = some (.disconnect, .waiting .ending) := by
    rw [hcalls]
    exact List.getElem?_concat_length
  refine ⟨ending_or_returned hi later, ?_⟩
  obtain ⟨j, es, p, hj⟩ := hs.connecting hconnecting
  obtain ⟨call, hcall⟩ := hj.waits
  refine ⟨j, ⟨_, hcall⟩, ?_⟩
  rintro ⟨r, hr⟩
  have hdown : .status .disconnected ∈ t.since s := hj.been_down hconnecting later hr
  refine ⟨hdown, fun hwaiting => ⟨step_poll_ending_returned hwaiting, fun hup => ⟨?_, ?_⟩⟩⟩
  · rw [step_poll_ending hwaiting, if_neg hup]
  · -- after the disconnect the bearer sinks, so it takes a connect to raise it again
    obtain ⟨q, hq, hsinks⟩ := hj.settled.sinks_after_disconnect hj.quiet.2 hconnecting
    have hsince : t.since s =
        [.asked false, .status .disconnecting] ++ t.since (s.step (.call .disconnect)) :=
      since_disconnect hj.settled hconnecting later
    rw [hsince] at hdown ⊢
    refine List.mem_append_right _ (hq.raised hsinks later ?_ hup)
    exact (List.mem_append.mp hdown).resolve_left (by simp)

/-- The connect that takes a moment is cancelled and undone; the disconnect that waited for that is
polled next and returns. -/
theorem disconnect_returns_in_turn :
    let later := { slow with bench := { now := 1 } }
    let s := (start StandIn.backend false false 0 slow).run [.call .connect]
    let t := (s.step (.call .disconnect)).run [.drift later, .poll 0]
    s.bearer.status = .connecting ∧
    t.calls[1]? = some (.disconnect, .waiting .ending) ∧
    (t.step (.poll 1)).calls[1]? = some (.disconnect, .returned (.ok ())) := by
  intro later s t
  obtain ⟨-, j, ⟨wait, hj⟩, hended⟩ :=
    disconnect_returns_iff StandIn.backend false false 0 slow [.call .connect]
    [.drift later, .poll 0] rfl
  obtain rfl : j = 0 := Nat.lt_one_iff.mp (List.getElem?_eq_some_iff.mp hj).1
  obtain ⟨-, hpoll⟩ := hended ⟨.error .cancelled, rfl⟩
  exact ⟨rfl, rfl, (hpoll rfl).1.mpr rfl⟩

/-- The same, but another connect is called before the disconnect is polled.  The connect that was
cancelled is over and the bearer has been down, but the disconnect waits on; and since the other
connect succeeds, the bearer stays up and the disconnect is left waiting. -/
theorem disconnect_waits_past_its_connect :
    let later : Mounted StandIn := { bench := { now := 1 }, part := {} }
    let s := (start StandIn.backend false false 0 slow).run [.call .connect]
    let t := (s.step (.call .disconnect)).run [.drift later, .poll 0, .call .connect]
    s.bearer.status = .connecting ∧
    t.calls[0]? = some (.connect, .returned (.error .cancelled)) ∧
    .status .disconnected ∈ t.since s ∧
    t.calls[1]? = some (.disconnect, .waiting .ending) ∧
    (t.step (.poll 1)).calls[1]? = some (.disconnect, .waiting .ending) ∧
    (t.step (.poll 1)).bearer.status = .connected := by
  refine ⟨rfl, rfl, ?_, rfl, rfl, rfl⟩
  exact List.mem_of_getElem? (i := 6) rfl

end Interplay

end Cellular
