import Cellular.Bench.StandIn
import Cellular.Proofs.Bearer.Fate
import Cellular.Proofs.Bearer.Settled
/-!
# A connect that is cancelled

One connect is followed in any interleaving with other actions:

* if a disconnect, forced or not, is asked for while the vendor's connect is under way, then the
  bearer goes down without having been up, the connect returns an error, and a vendor's disconnect
  is made exactly if the vendor's connect succeeded or says that it was cancelled, and then once;
* if none is asked for and the vendor's connect succeeds, then the bearer is up next, and the
  connect is over.

Every move, be it the connect's own or another action's, lets its fate go on (`Follows.step`), so
every list of moves does.

What a fate is does not mention an interplay; it is about events and phases.  This file connects the
two.  A move is a stretch of one party, and the connect is either that party, in which case the
stretch is its own, or one of the others, and then the stretch is beside it; `Follows.step` is this
case distinction.  That a connect goes on when its vendor call is over is a different kind of
statement, and needs the waits to be looked at: which call the connect waits for, and what a poll of
that wait does.
-/

namespace Cellular

/-- A wait that stands for a vendor call stands for the one it waits for. -/
theorem Poll.stand?_pending {ν : Type} {w : ActionWait ν}
    {out : Poll (Option Errand) (Except Error Unit)} (h : (Poll.pending w).stand? = some out) :
    out = .pending w.errand? := by
  cases w with
  | lock errand => simp [Poll.stand?] at h
  | vendor errand call => exact (Option.some.inj h).symm
  | ending => exact (Option.some.inj h).symm

/-! ## Following a connect

A fate is about the events since a call, and the call is one of many that go on.  `Follows` keeps
the two together: the position of the call, the events, and where the call stands after them. 
What others do while the connect is in progress can at most cancel it; a poll of the connect
itself is a stretch of its own. -/

namespace Interplay

variable {σ : Type} {be : Backend σ}

/-- The interplay is settled, and the action called at a position is a connect since whose beginning
certain events have happened. -/
structure Follows (s : Interplay be) (i : Nat) (es : List BearerEvent) (p : Phase) : Prop where
  settled : s.Settled p
  fate : ∃ poll out, s.calls[i]? = some (.connect, .ofPoll poll) ∧
    poll.stand? = some out ∧ Fate es p out

/-- A wait that is not the moving party's holds the only vendor call. -/
theorem Moves.before_of_mem {s s' : Interplay be} {m : Move σ} {p q : Phase} {es : List BearerEvent}
    {before after : Option (ActionWait be.Call)} {rest : List (ActionWait be.Call)}
    (hs : s.Settled p) (h : s.Moves m s' p es q before after rest) {wait : ActionWait be.Call}
    (hw : wait ∈ rest) {errand : Errand} (he : wait.errand? = some errand) :
    before.bind ActionWait.errand? = none := by
  -- the phase has at most one vendor call, and this one is it
  have hlen := congrArg List.length (h.errands hs)
  have hmem : errand ∈ rest.filterMap ActionWait.errand? := List.mem_filterMap.mpr ⟨wait, hw, he⟩
  have hpos := List.length_pos_of_mem hmem
  have hone : p.errand?.toList.length ≤ 1 := by cases p.errand? <;> simp
  rw [List.length_append] at hlen
  cases hb : before.bind ActionWait.errand? with
  | none => rfl
  | some errand' =>
    rw [hb, Option.toList_some, List.length_singleton] at hlen
    omega

/-- **Every move lets the connect's fate go on.** -/
theorem Follows.step {s : Interplay be} {i : Nat} {es : List BearerEvent} {p : Phase}
    (h : s.Follows i es p) (m : Move σ) :
    ∃ es' q, (s.step m).bearer.history = s.bearer.history ++ es' ∧
    (s.step m).Follows i (es ++ es') q := by
  obtain ⟨hs, poll, out, hi, hstand, hf⟩ := h
  cases poll with
  | ready r =>
    -- it is over, and its place in the list stays as it is
    obtain rfl : Poll.ready r = out := Option.some.inj hstand
    obtain ⟨es', q, before, after, rest, hm⟩ := hs.moves m
    have hi' : (s.step m).calls[i]? = some (.connect, .returned r) := by
      by_cases hmi : m = .poll i
      · rw [hmi, step_poll_of_not_waiting]
        · exact hi
        · rintro ⟨action, wait, hwait⟩
          rw [hi] at hwait
          simp [CallState.ofPoll] at hwait
      · exact step_getElem? hmi hi
    exact ⟨es', q, hm.history, hm.settled hs, .ready r, .ready r, hi', rfl, hf.later⟩
  | pending wait =>
    obtain rfl : out = .pending wait.errand? := Poll.stand?_pending hstand
    by_cases hmi : m = .poll i
    · subst hmi
      obtain ⟨es', q, out', poll', rest, ht, hstand', hi', hm⟩ := hs.poll_waiting hi
      exact ⟨es', q, hm.history, hm.settled hs, poll', out', hi', hstand', hf.own ht⟩
    · -- another party moves, and it has no vendor call, since the connect has it
      obtain ⟨es', q, before, after, rest, hm⟩ := hs.moves m
      obtain ⟨out', ht, -⟩ := hm.turn
      obtain ⟨errand, he, -, -⟩ := hf.errand
      have hnone := hm.before_of_mem hs (hm.others i _ wait hmi hi) he
      exact ⟨es', q, hm.history, hm.settled hs, .pending wait, .pending wait.errand?,
        step_getElem? hmi hi, hstand, hf.beside ht hnone⟩

/-- Every list of moves lets the connect's fate go on. -/
theorem Follows.run {s : Interplay be} {i : Nat} {es : List BearerEvent} {p : Phase}
    (h : s.Follows i es p) (moves : List (Move σ)) :
    ∃ es' q, (s.run moves).bearer.history = s.bearer.history ++ es' ∧
      (s.run moves).Follows i (es ++ es') q := by
  refine run_keeps (P := fun t => ∃ es' q, t.bearer.history = s.bearer.history ++ es' ∧
    t.Follows i (es ++ es') q) ?_ ?_ moves
  · rintro t m ⟨es₁, q, hh, hq⟩
    obtain ⟨es₂, r, hh', hr⟩ := hq.step m
    refine ⟨es₁ ++ es₂, r, ?_, ?_⟩
    · rw [hh', hh, List.append_assoc]
    · rw [← List.append_assoc]
      exact hr
  · refine ⟨[], p, (List.append_nil _).symm, ?_⟩
    rw [List.append_nil]
    exact h

/-- A connect that is not refused begins its fate. -/
theorem Settled.follows_connect {s : Interplay be} {p : Phase} (hs : s.Settled p)
    (hdown : s.bearer.status = .disconnected) (hroam : s.bearer.roamingDomain? = none) :
    ∃ es q, (s.step (.call .connect)).bearer.history = s.bearer.history ++ es ∧
      (s.step (.call .connect)).Follows s.calls.length es q := by
  obtain rfl : p = .down := Phase.status_disconnected.mp (hs.inPhase.status ▸ hdown)
  obtain ⟨b₁, hb₁, es, q, out, ht, hh, hq, hout⟩ := Bearer.connect_begins be hs.inPhase hroam
  rw [hb₁, List.append_assoc] at hh
  have hm : s.Moves (.call .connect) (s.step (.call .connect)) .down _ q none _ s.waits :=
    .of_call (.more .connect ht) hh hq hout
  refine ⟨_, q, hh, hm.settled hs, _, out, ?_, hout, Fate.start.own ht⟩
  exact List.getElem?_concat_length

/-- In every interleaving, a connect that is not refused has a fate. -/
theorem fate_of_connect {s : Interplay be} {p : Phase} (hs : s.Settled p)
    (hdown : s.bearer.status = .disconnected) (hroam : s.bearer.roamingDomain? = none)
    (later : List (Move σ)) :
    ∃ q, ((s.step (.call .connect)).run later).Follows s.calls.length
      (((s.step (.call .connect)).run later).since s) q := by
  obtain ⟨es, q, hh, hf⟩ := hs.follows_connect hdown hroam
  obtain ⟨es', r, hh', hf'⟩ := hf.run later
  rw [hh, List.append_assoc] at hh'
  exact ⟨r, (since_eq hh').symm ▸ hf'⟩

/-! ## How a connect goes on

A connect whose vendor call is over goes on at its next poll: it is over, or it undoes what the
vendor did.  So after each answer of the vendor's it is one poll further. -/

/-- A disconnect that undoes a connect is over, or goes on. -/
theorem undo_goes_on (b : Bearer σ) :
    (∃ r, (b.undo be).2 = .ready r) ∨ ∃ call, (b.undo be).2 = .pending (.vendor .undo call) := by
  unfold Bearer.undo Bearer.pollDisconnect
  split
  · exact .inr ⟨_, rfl⟩
  · exact .inl ⟨_, rfl⟩

/-- Once the vendor's connect is over, so is the connect, or it is being undone. -/
theorem connect_goes_on {b : Bearer σ} {call : be.Call} {vendor : σ} {r : Except Error Unit}
    (h : be.poll b.cancelled call b.vendor = (vendor, .ready r)) :
    (∃ r, (b.pollConnect be call).2 = .ready r) ∨
      ∃ call', (b.pollConnect be call).2 = .pending (.vendor .undo call') := by
  unfold Bearer.pollConnect
  simp only [h]
  unfold Bearer.afterConnect
  split
  · exact undo_goes_on _
  · exact .inl ⟨_, rfl⟩
  · split
    · exact undo_goes_on _
    · exact .inl ⟨_, rfl⟩

/-- Once the vendor's disconnect is over, so is the connect that was to be undone. -/
theorem undo_is_over {b : Bearer σ} {call : be.Call} {vendor : σ} {r : Except Error Unit}
    (h : be.poll b.cancelled call b.vendor = (vendor, .ready r)) :
    (b.pollDisconnect be .undo call).2 = .ready (.error .cancelled) := by
  unfold Bearer.pollDisconnect
  simp only [h]
  rfl

/-- What a connect that is not over waits for, and that it goes on when that comes. -/
theorem Follows.goes_on {s : Interplay be} {i : Nat} {es : List BearerEvent} {p : Phase}
    (h : s.Follows i es p) {wait : ActionWait be.Call}
    (hi : s.calls[i]? = some (.connect, .waiting wait)) :
    ∃ errand call, wait = .vendor errand call ∧ (errand = .connect ∨ errand = .undo) ∧
      ∀ vendor r, be.poll s.bearer.cancelled call s.bearer.vendor = (vendor, .ready r) →
        (∃ r, (s.step (.poll i)).calls[i]? = some (.connect, .returned r)) ∨
        errand = .connect ∧
          ∃ call, (s.step (.poll i)).calls[i]? =
            some (.connect, .waiting (.vendor .undo call)) := by
  obtain ⟨hs, poll, out, hi', hstand, hf⟩ := h
  -- the call waits, so the last thing it answered is this wait
  obtain rfl : poll = .pending wait := by
    rw [hi] at hi'
    cases poll <;> simp_all [CallState.ofPoll]
  obtain rfl : out = .pending wait.errand? := Poll.stand?_pending hstand
  obtain ⟨errand, he, -, hor⟩ := hf.errand
  obtain ⟨call, rfl⟩ : ∃ call, wait = .vendor errand call := by
    cases wait with
    | vendor errand' call => exact ⟨call, by rw [← Option.some.inj he]⟩
    | _ => cases he
  have hlt : i < s.calls.length := (List.getElem?_eq_some_iff.mp hi).1
  -- the move polls this very call
  have hstep : (s.step (.poll i)).calls[i]? =
      some (.connect, .ofPoll (s.bearer.resume be (.vendor errand call)).2) := by
    simp only [Interplay.step, hi]
    exact List.getElem?_set_self hlt
  refine ⟨errand, call, rfl, hor, fun vendor r hr => ?_⟩
  rw [hstep]
  -- an undo is the last thing that a connect waits for; the connect itself may lead to one
  rcases hor with rfl | rfl
  · rcases connect_goes_on hr with ⟨r', h⟩ | ⟨call', h⟩
    · exact .inl ⟨r', congrArg (fun poll => some (Action.connect, CallState.ofPoll poll)) h⟩
    · exact .inr ⟨rfl, call', congrArg (fun poll => some (Action.connect, CallState.ofPoll poll)) h⟩
  · exact .inl ⟨_, congrArg (fun poll => some (Action.connect, CallState.ofPoll poll))
      (undo_is_over hr)⟩

/-- Where a connect stands tells its result. -/
theorem Follows.returned {s : Interplay be} {i : Nat} {es : List BearerEvent} {p : Phase}
    (h : s.Follows i es p) :
    ∃ out, Fate es p out ∧
      ∀ r, s.calls[i]? = some (.connect, .returned r) ↔ out = .ready r := by
  obtain ⟨-, poll, out, hi, hstand, hf⟩ := h
  refine ⟨out, hf, fun r => ?_⟩
  rw [hi]
  cases poll with
  | ready r' =>
    obtain rfl : Poll.ready r' = out := Option.some.inj hstand
    simp [CallState.ofPoll]
  | pending wait =>
    obtain rfl : out = .pending wait.errand? := Poll.stand?_pending hstand
    simp [CallState.ofPoll]

/-- A connect that was cancelled and is not over waits for a vendor call.  Once that is over, the
connect returns an error, or it waits for a vendor's disconnect from then on. -/
theorem Follows.goes_on_cancelled {s : Interplay be} {i : Nat} {es : List BearerEvent} {p : Phase}
    (h : s.Follows i es p) (ha : isAsked (whileConnecting es) = true) {wait : ActionWait be.Call}
    (hi : s.calls[i]? = some (.connect, .waiting wait)) :
    ∃ errand call, wait = .vendor errand call ∧ (errand = .connect ∨ errand = .undo) ∧
      ∀ vendor r, be.poll s.bearer.cancelled call s.bearer.vendor = (vendor, .ready r) →
        (∃ e, (s.step (.poll i)).calls[i]? = some (.connect, .returned (.error e))) ∨
        errand = .connect ∧
          ∃ call, (s.step (.poll i)).calls[i]? =
            some (.connect, .waiting (.vendor .undo call)) := by
  obtain ⟨errand, call, hwait, herrand, hgo⟩ := h.goes_on hi
  refine ⟨errand, call, hwait, herrand, fun vendor r hr => ?_⟩
  rcases hgo vendor r hr with ⟨r', hr'⟩ | hundo
  · obtain ⟨es', q, -, hf⟩ := h.step (.poll i)
    obtain ⟨out, hfate, hout⟩ := hf.returned
    obtain ⟨-, -, hok, -⟩ := hfate.cancelled (isAsked_whileConnecting_append es' ha)
    cases r' with
    | ok _ => exact absurd ((hout _).mp hr') hok
    | error e => exact .inl ⟨e, hr'⟩
  · exact .inr hundo

/-! ## The law -/

/-- **A connect that is cancelled never ends connected, and one that is not is kept.**  A connect
that is not refused is called, in any state that can come of any actions; `later` is what happens
then.

If a disconnect, forced or not, is asked for while the vendor's connect is under way, then the
bearer is not up before it is down; it is down exactly if the connect has returned an error, and the
connect never returns otherwise; and the vendor's disconnect is made once before that if the
vendor's connect succeeded or says that it was cancelled, and else not at all.  The connect does
return: it waits for a vendor call, and once that is over it returns an error or waits for one last
call, the vendor's disconnect.

If none is asked for and the vendor's connect succeeds, then the connect succeeds, with the bearer
up and no vendor's disconnect made. -/
theorem cancelled_connect_never_up (be : Backend σ) (allowRoaming mixed : Bool)
    (grace : Nat) (vendor : σ) (earlier later : List (Move σ)) :
    let s := (start be allowRoaming mixed grace vendor).run earlier
    let t := (s.step (.call .connect)).run later
    let i := s.calls.length
    s.bearer.status = .disconnected → s.bearer.roamingDomain? = none →
    (isAsked (whileConnecting (t.since s)) = true →
      .status .connected ∉ untilDown (t.since s) ∧
      (.status .disconnected ∈ t.since s ↔
        ∃ e, t.calls[i]? = some (.connect, .returned (.error e))) ∧
      t.calls[i]? ≠ some (.connect, .returned (.ok ())) ∧
      (.status .disconnected ∈ t.since s → (connectResult? (t.since s)).isSome) ∧
      disconnects (untilDown (t.since s)) = undoings (connectResult? (t.since s)) ∧
      ∀ wait, t.calls[i]? = some (.connect, .waiting wait) →
        ∃ errand call, wait = .vendor errand call ∧ (errand = .connect ∨ errand = .undo) ∧
          ∀ vendor r, be.poll t.bearer.cancelled call t.bearer.vendor = (vendor, .ready r) →
            (∃ e, (t.step (.poll i)).calls[i]? = some (.connect, .returned (.error e))) ∨
            errand = .connect ∧
              ∃ call, (t.step (.poll i)).calls[i]? =
                some (.connect, .waiting (.vendor .undo call))) ∧
    (isAsked (whileConnecting (t.since s)) = false → connectResult? (t.since s) = some (.ok ()) →
      t.calls[i]? = some (.connect, .returned (.ok ())) ∧
      disconnects (whileConnecting (t.since s)) = 0 ∧
      ∃ after, t.since s =
        whileConnecting (t.since s) ++
          .ended .connect (.ok ()) :: .status .connected :: after) := by
  intro s t i hdown hroam
  obtain ⟨p, hs, -⟩ := settled_run be allowRoaming mixed grace vendor earlier
  -- what has happened since the call is one of the fates of a connect
  obtain ⟨q, hf⟩ := fate_of_connect hs hdown hroam later
  obtain ⟨out, hfate, hout⟩ := hf.returned
  constructor
  · intro ha
    obtain ⟨hup, hiff, hok, hres, hcount⟩ := hfate.cancelled ha
    refine ⟨hup, ?_, ?_, hres, hcount, fun wait hi => hf.goes_on_cancelled ha hi⟩
    · rw [hiff]
      exact exists_congr fun e => (hout _).symm
    · intro h
      exact hok ((hout _).mp h)
  · intro ha hr
    obtain ⟨hready, hcount, hup⟩ := hfate.kept ha hr
    exact ⟨(hout _).mpr hready, hcount, hup⟩

/-- A modem that takes a moment to connect and does not look at the token. -/
def slow : Mounted StandIn :=
  { bench := {}, part := { connects := [{ delay := some 1, ignoresToken := true }] } }

/-- Its connect is undone if a disconnect was asked for in that moment, and kept if none was. -/
theorem slow_connect_undone_or_kept :
    let s := start StandIn.backend false false 0 slow
    let later := { slow with bench := { now := 1 } }
    let t := (s.step (.call .connect)).run [.call .disconnect, .drift later, .poll 0]
    let t' := (s.step (.call .connect)).run [.drift later, .poll 0]
    ((∃ e, t.calls[0]? = some (.connect, .returned (.error e))) ∧
      disconnects (untilDown (t.since s)) = 1) ∧
    t'.calls[0]? = some (.connect, .returned (.ok ())) := by
  intro s later t t'
  obtain ⟨hcancelled, -⟩ := cancelled_connect_never_up StandIn.backend false false 0 slow []
    [.call .disconnect, .drift later, .poll 0] rfl rfl
  obtain ⟨-, hkept⟩ := cancelled_connect_never_up StandIn.backend false false 0 slow []
    [.drift later, .poll 0] rfl rfl
  obtain ⟨-, hdown, -, -, hcount, -⟩ := hcancelled rfl
  have hmem : .status .disconnected ∈ t.since s := List.mem_of_getElem? (i := 8) rfl
  have hres : connectResult? (t.since s) = some (.ok ()) := rfl
  exact ⟨⟨hdown.mp hmem, hcount.trans (congrArg undoings hres)⟩, (hkept rfl rfl).1⟩

end Interplay

end Cellular
