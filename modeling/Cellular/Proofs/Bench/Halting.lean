import Cellular.Proofs.Bench.Joined
/-!
# Every rehearsal ends

A procedure is a finite tree, so it is enough that every single wait ends.  Between two polls of a
wait either something happens, of which the agenda holds only so much; or the wait itself gets on,
which it does only so often (`Flight.left`); or the clock goes to the next moment that is waited
for, and then one of the two comes to pass.  `Rehearsal.potential` puts this in one number that
every round lowers.

The number counts events that are still to happen, steps that the wait may still make, and one for
the clock unless something is due.  An event counts for two steps, since what happens may give the
wait one thing more to read (`left_le`).  What a round does is one of three things
(`Flight.Progress`): the wait is over, it has got on, or nothing was due and it is as before.  In
the last case the clock moves, and then something is due; so this can happen only once before
something else does.

That further rounds change nothing once the procedure has ended (`run_stable`) makes the end a
property of the rehearsal and not of the number of rounds, which is what `EndsIn` says.
-/

namespace Cellular

/-! ## Joined waits

The lemmas go through the stages of a joined wait.  At each the poll ends the wait, takes a signal
in, reads a code that is not wanted, or leaves everything as it was; and in the last case none of
its timers is due. -/

variable {α : Type}

namespace JoinedCommand

variable {c : JoinedCommand} {w w' : JoinedWait} {b b' : Bench}

/-- A joined wait whose timers have all been polled. -/
inductive Begun : JoinedWait → Prop where
  | both {wait : Bench.Reply} {d : Timer} (hwait : wait.timer.polled = true)
    (hd : d.polled = true) :
    Begun (Join.awaitBoth (.awaited wait) () d)
  | answered {answer : Except Error Unit} {d : Timer} (hd : d.polled = true) :
      Begun (Join.awaitNotification answer () d)
  | noticed {code : Urc} {wait : Bench.Reply} {d : Timer} (hwait : wait.timer.polled = true)
    (hd : d.polled = true) :
    Begun (Join.awaitReply code (.awaited wait) d)

/-- How often the wait can still get on: once for each signal, and once if there is anything to
read. -/
def left (c : JoinedCommand) (w : JoinedWait) (b : Bench) : Nat :=
  (if w.reply.isSome then 1 else 0) +
    if w.notification.isSome then if b.board.setUnread c.ticket [] = b.board then 1 else 2 else 0

/-- What a poll of a wait leads to: its end, or a wait that has got on, or the same wait with
nothing due. -/
inductive Progress (c : JoinedCommand) (w : JoinedWait) (b : Bench) :
    Bench × Poll JoinedWait (Join.Outcome Unit Urc) → Prop where
  | ended {b' : Bench} {outcome : Join.Outcome Unit Urc} : Progress c w b (b', .ready outcome)
  | on {b' : Bench} {w' : JoinedWait} (hbegun : Begun w') (hnow : b'.now = b.now)
    (hless : c.left w' b' < c.left w b) : Progress c w b (b', .pending w')
  | still (hearly : ∀ t ∈ timers w, b.now < t) : Progress c w b (b, .pending w)

/-- A deadline that is polled: the end, or else it goes on, and was not due if it had been polled
before. -/
theorem orExpire_cases (terms : Join.Terms) (now : Nat) (stage : Timer → JoinedWait) (d : Timer) :
    (∃ outcome, Join.orExpire terms now stage d = .ready outcome) ∨
    (Join.orExpire terms now stage d = .pending (stage { d with polled := true }) ∧
      (d.polled = true → now < d.expiresAt)) := by
  by_cases hdue : d.polled = true ∧ d.expiresAt ≤ now
  · exact .inl ⟨.error (.operationTimeout terms.message), by simp [Join.orExpire, Timer.poll, hdue]⟩
  · refine .inr ⟨by simp only [Join.orExpire, Timer.poll, hdue, if_false], fun hpolled => ?_⟩
    exact Nat.lt_of_not_le fun hle => hdue ⟨hpolled, hle⟩

theorem left_answered_search (answer : Except Error Unit) (d : Timer)
    (h : (b.board.unread c.ticket).find? c.wanted = none) :
    c.left (Join.awaitNotification answer () d) (c.search b) = 1 := by
  simp [left, Join.awaitNotification, search_of_none h, Board.setUnread_setUnread]

/-- A poll at the stage where only the code is missing. -/
theorem poll_answered (answer : Except Error Unit) (d : Timer) (b : Bench) :
    (∃ b' outcome, c.poll (Join.awaitNotification answer () d) b = (b', .ready outcome)) ∨
    ((b.board.unread c.ticket).find? c.wanted = none ∧ (d.polled = true → b.now < d.expiresAt) ∧
      c.poll (Join.awaitNotification answer () d) b =
        (c.search b, .pending (Join.awaitNotification answer () { d with polled := true }))) := by
  rw [poll, Join.poll_awaitNotification, signals_notification, pollCode_eq]
  cases hfound : (b.board.unread c.ticket).find? c.wanted with
  | some code => exact .inl ⟨_, _, rfl⟩
  | none =>
    rcases orExpire_cases c.terms b.now (Join.awaitNotification answer ()) d with
      ⟨outcome, hend⟩ | ⟨hon, hearly⟩
    · exact .inl ⟨c.search b, outcome, congrArg (Prod.mk (c.search b)) hend⟩
    · exact .inr ⟨rfl, hearly, congrArg (Prod.mk (c.search b)) hon⟩

/-- A poll at the stage where only the answer is missing. -/
theorem poll_noticed (code : Urc) {wait : Bench.Reply} (hwait : wait.timer.polled = true)
    (d : Timer) (b : Bench) :
    (∃ b' outcome, c.poll (Join.awaitReply code (.awaited wait) d) b = (b', .ready outcome)) ∨
    (b.now < wait.timer.expiresAt ∧ (d.polled = true → b.now < d.expiresAt) ∧
      c.poll (Join.awaitReply code (.awaited wait) d) b =
        (b, .pending (Join.awaitReply code (.awaited wait) { d with polled := true }))) := by
  rw [poll, Join.poll_awaitReply, signals_reply_awaited]
  by_cases hdue : wait.timer.expiresAt ≤ b.now
  · rw [Bench.pollReply_due hwait hdue]
    exact .inl ⟨_, _, rfl⟩
  · have hlate : b.now < wait.timer.expiresAt := Nat.lt_of_not_le hdue
    rw [Bench.pollReply_early hwait hlate]
    rcases orExpire_cases c.terms b.now (Join.awaitReply code (.awaited wait)) d with
      ⟨outcome, hend⟩ | ⟨hon, hearly⟩
    · exact .inl ⟨b, outcome, congrArg (Prod.mk b) hend⟩
    · exact .inr ⟨hlate, hearly, congrArg (Prod.mk b) hon⟩

/-- The rest of a poll when both are missing and the answer did not come. -/
theorem seek_cases {wait : Bench.Reply} (hwait : wait.timer.polled = true) (d : Timer) (b : Bench) :
    (∃ b' outcome, Join.seekNotification c.terms c.signals (.awaited wait) () d b =
      (b', .ready outcome)) ∨
    (∃ code, Join.seekNotification c.terms c.signals (.awaited wait) () d b =
      (c.search b, .pending (Join.awaitReply code (.awaited wait) { d with polled := true }))) ∨
    ((b.board.unread c.ticket).find? c.wanted = none ∧ (d.polled = true → b.now < d.expiresAt) ∧
      Join.seekNotification c.terms c.signals (.awaited wait) () d b =
        (c.search b, .pending (Join.awaitBoth (.awaited wait) () { d with polled := true }))) := by
  rw [Join.seekNotification, signals_notification, pollCode_eq]
  cases hfound : (b.board.unread c.ticket).find? c.wanted with
  | some code =>
    rcases c.poll_noticed code hwait d (c.search b) with hover | ⟨-, -, hpoll⟩
    · exact .inl hover
    · exact .inr (.inl ⟨code, hpoll⟩)
  | none =>
    rcases orExpire_cases c.terms b.now (Join.awaitBoth (.awaited wait) ()) d with
      ⟨outcome, hend⟩ | ⟨hon, hearly⟩
    · exact .inl ⟨c.search b, outcome, congrArg (Prod.mk (c.search b)) hend⟩
    · exact .inr (.inr ⟨rfl, hearly, congrArg (Prod.mk (c.search b)) hon⟩)

theorem polled_eq {d : Timer} (hd : d.polled = true) : { d with polled := true } = d := by
  cases d
  simp_all

/-- A search that finds nothing in nothing. -/
theorem search_still (hnone : (b.board.unread c.ticket).find? c.wanted = none)
    (hread : b.board.setUnread c.ticket [] = b.board) : c.search b = b := by
  rw [search_of_none hnone, hread]

/-- At the stage where only the code is missing. -/
theorem progress_awaitNotification (c : JoinedCommand) (answer : Except Error Unit) {d : Timer}
    (hd : d.polled = true) (b : Bench) : c.Progress (Join.awaitNotification answer () d) b
      (c.poll (Join.awaitNotification answer () d) b) := by
  rcases c.poll_answered answer d b with ⟨b', outcome, hpoll⟩ |
    ⟨hnone, hearly, hpoll⟩ <;> rw [hpoll]
  · exact .ended
  · rw [polled_eq hd]
    by_cases hread : b.board.setUnread c.ticket [] = b.board
    · rw [search_still hnone hread]
      exact .still (by simpa [timers, Join.awaitNotification] using hearly hd)
    · refine .on (.answered hd) rfl ?_
      rw [left_answered_search answer d hnone]
      simp [left, Join.awaitNotification, hread]

/-- At the stage where only the answer is missing. -/
theorem progress_awaitReply (c : JoinedCommand) (code : Urc) {wait : Bench.Reply} {d : Timer}
    (hwait : wait.timer.polled = true) (hd : d.polled = true) (b : Bench) :
    c.Progress (Join.awaitReply code (.awaited wait) d) b
      (c.poll (Join.awaitReply code (.awaited wait) d) b) := by
  rcases c.poll_noticed code hwait d b with ⟨b', outcome, hpoll⟩ |
    ⟨hlate, hearly, hpoll⟩ <;> rw [hpoll]
  · exact .ended
  · rw [polled_eq hd]
    exact .still (by simpa [timers, Join.awaitReply] using ⟨hearly hd, hlate⟩)

/-- The answer comes, and the wait gets on by that. -/
theorem progress_awaitBoth_due (c : JoinedCommand) {wait : Bench.Reply} {d : Timer}
    (hwait : wait.timer.polled = true) (hd : d.polled = true) (b : Bench)
    (hdue : wait.timer.expiresAt ≤ b.now) :
    c.Progress (Join.awaitBoth (.awaited wait) () d) b
      (c.poll (Join.awaitBoth (.awaited wait) () d) b) := by
  rw [poll, Join.poll_awaitBoth, signals_reply_awaited, Bench.pollReply_due hwait hdue]
  simp only [Poll.mapNext, Poll.map]
  cases c.terms.refuses (c.settle wait.answer) with
  | some e => exact .ended
  | none =>
    obtain ⟨-, -, -, hnow, -⟩ := b.keeps_conclude wait.after wait.answer
    -- the answer is there, so the search is looked at in the same poll
    show c.Progress _ b (c.poll (Join.awaitNotification (c.settle wait.answer) () d)
      (b.conclude wait.after wait.answer))
    rcases c.poll_answered (c.settle wait.answer) d (b.conclude wait.after wait.answer) with
      ⟨b', outcome, hpoll⟩ | ⟨hnone, -, hpoll⟩ <;> rw [hpoll]
    · exact .ended
    · rw [polled_eq hd]
      refine .on (.answered hd) hnow ?_
      rw [left_answered_search _ d hnone]
      simp only [left, Join.awaitBoth, Option.isSome_some, if_true]
      split <;> omega

/-- At the stage where both are missing, and the answer is not due. -/
theorem progress_awaitBoth_early (c : JoinedCommand) {wait : Bench.Reply} {d : Timer}
    (hwait : wait.timer.polled = true) (hd : d.polled = true) (b : Bench)
    (hlate : b.now < wait.timer.expiresAt) :
    c.Progress (Join.awaitBoth (.awaited wait) () d) b
      (c.poll (Join.awaitBoth (.awaited wait) () d) b) := by
  rw [poll, Join.poll_awaitBoth, signals_reply_awaited, Bench.pollReply_early hwait hlate]
  show c.Progress _ b (Join.seekNotification c.terms c.signals (.awaited wait) () d b)
  rcases c.seek_cases hwait d b with ⟨b', outcome, hpoll⟩ | ⟨code, hpoll⟩ |
    ⟨hnone, hearly, hpoll⟩ <;> rw [hpoll]
  · exact .ended
  · rw [polled_eq hd]
    refine .on (.noticed hwait hd) rfl ?_
    simp only [left, Join.awaitBoth, Join.awaitReply, Option.isSome_some,
      Option.isSome_none, if_true, Bool.false_eq_true, if_false]
    split <;> omega
  · rw [polled_eq hd]
    -- codes that were read and are not the wanted one are progress too
    by_cases hread : b.board.setUnread c.ticket [] = b.board
    · rw [search_still hnone hread]
      exact .still (by simpa [timers, Join.awaitBoth] using ⟨hearly hd, hlate⟩)
    · refine .on (.both hwait hd) rfl ?_
      simp [left, Join.awaitBoth, search_of_none hnone, Board.setUnread_setUnread, hread]

/-- At every stage a poll gets on or finds nothing due. -/
theorem Begun.progress (h : Begun w) (c : JoinedCommand) (b : Bench) :
    c.Progress w b (c.poll w b) := by
  cases h with
  | @answered answer d hd => exact c.progress_awaitNotification answer hd b
  | @noticed code wait d hwait hd => exact c.progress_awaitReply code hwait hd b
  | @both wait d hwait hd =>
    by_cases hdue : wait.timer.expiresAt ≤ b.now
    · exact c.progress_awaitBoth_due hwait hd b hdue
    · exact c.progress_awaitBoth_early hwait hd b (Nat.lt_of_not_le hdue)

/-- The first poll leaves a wait that is begun, if it leaves one. -/
theorem start_begun (c : JoinedCommand) (b : Bench) :
    (∃ b' outcome, c.poll (c.start b.now) b = (b', .ready outcome)) ∨
    ∃ b' w, c.poll (c.start b.now) b = (b', .pending w) ∧ Begun w := by
  have hstart : c.start b.now = Join.awaitBoth .unsent () (.after b.now c.terms.limit) := rfl
  have hreply : c.signals.reply .unsent b =
      ((b.send c.request).1, ((b.send c.request).2.mapNext .awaited).map c.settle) := rfl
  rw [poll, hstart, Join.poll_awaitBoth, hreply]
  -- either the answer is there at once or the request has been put on its way
  rcases b.send_cases c.request with ⟨before, b', hsend, -⟩ | ⟨since, b', wait, hsend, hasked, -⟩
  · rw [hsend]
    simp only [Poll.mapNext, Poll.map]
    cases c.terms.refuses (c.settle b.turn.answer) with
    | some e => exact .inl ⟨_, _, rfl⟩
    | none =>
      rcases c.poll_answered (c.settle b.turn.answer) (.after b.now c.terms.limit) b' with
        ⟨b'', outcome, hpoll⟩ | ⟨-, -, hpoll⟩
      · exact .inl ⟨b'', outcome, hpoll⟩
      · exact .inr ⟨_, _, hpoll, .answered rfl⟩
  · rw [hsend]
    have hwait : wait.timer.polled = true := by rw [hasked.timer]
    rcases c.seek_cases hwait (.after b.now c.terms.limit) b' with
      ⟨b'', outcome, hpoll⟩ | ⟨code, hpoll⟩ | ⟨-, -, hpoll⟩
    · exact .inl ⟨b'', outcome, hpoll⟩
    · exact .inr ⟨_, _, hpoll, .noticed hwait rfl⟩
    · exact .inr ⟨_, _, hpoll, .both hwait rfl⟩

end JoinedCommand

/-! ## Procedures at a wait

A poll of a wait ends it, or gets on within it, or finds nothing due.  `Progress` tells the three
apart, and says of the second that there is less to be done in this wait than before. -/

namespace Flight

variable {f f' : Flight α} {b b' : Bench}

/-- A procedure at a wait whose timers have all been polled. -/
inductive Begun : Flight α → Prop where
  | reply {wait : Bench.Reply} {k : Except LinkError Bytes → Procedure α}
    (h : wait.timer.polled = true) :
    Begun (.reply wait k)
  | pause {timer : Timer} {k : Procedure α} (h : timer.polled = true) : Begun (.pause timer k)
  | join {c : JoinedCommand} {w : JoinedWait} {k : Join.Outcome Unit Urc → Procedure α}
    (h : JoinedCommand.Begun w) : Begun (.join c w k)

/-- How often the wait can still get on. -/
def left : Flight α → Bench → Nat
  | .join c w _, b => c.left w b
  | _, _ => 0

/-- Whatever comes after the wait has a property. -/
inductive Leads (P : Procedure α → Prop) : Flight α → Prop where
  | reply {wait : Bench.Reply} {k : Except LinkError Bytes → Procedure α} (h : ∀ x, P (k x)) :
      Leads P (.reply wait k)
  | pause {timer : Timer} {k : Procedure α} (h : P k) : Leads P (.pause timer k)
  | join {c : JoinedCommand} {w : JoinedWait} {k : Join.Outcome Unit Urc → Procedure α}
    (h : ∀ x, P (k x)) :
    Leads P (.join c w k)

/-- What a poll of a wait leads to: what comes after it, or a wait that has got on, or the same wait
with nothing due. -/
inductive Progress (P : Procedure α → Prop) (f : Flight α) (b : Bench) :
    Bench × Poll (Flight α) α → Prop where
  | ended {p : Procedure α} {b' : Bench} (h : P p) : Progress P f b (p.advance b')
  | on {f' : Flight α} {b' : Bench} (hbegun : f'.Begun) (hleads : f'.Leads P)
    (hnow : b'.now = b.now) (hless : f'.left b' < f.left b) : Progress P f b (b', .pending f')
  | still (hearly : ∀ t ∈ f.timers, b.now < t) : Progress P f b (b, .pending f)

/-- A poll of a procedure that waits gets on, or finds nothing due. -/
theorem Begun.progress {P : Procedure α → Prop} (h : f.Begun) (hleads : f.Leads P) (b : Bench) :
    f.Progress P b (f.poll b) := by
  cases h with
  | @reply wait k hwait =>
    cases hleads with | reply hk => ?_
    by_cases hdue : wait.timer.expiresAt ≤ b.now
    · simp only [Flight.poll, Bench.pollReply_due hwait hdue]
      exact .ended (hk _)
    · simp only [Flight.poll, Bench.pollReply_early hwait (Nat.lt_of_not_le hdue)]
      exact .still (by simpa [Flight.timers] using hdue)
  | @pause timer k htimer =>
    cases hleads with | pause hk => ?_
    by_cases hdue : timer.expiresAt ≤ b.now
    · have hpoll : timer.poll b.now = .ready () := by simp [Timer.poll, htimer, hdue]
      simp only [Flight.poll, hpoll]
      exact .ended hk
    · have hpoll : timer.poll b.now = .pending timer := by
        simp [Timer.poll, hdue, JoinedCommand.polled_eq htimer]
      simp only [Flight.poll, hpoll]
      exact .still (by simpa [Flight.timers] using hdue)
  | @join c w k hw =>
    -- what the join gets on by is what the flight gets on by
    cases hleads with | join hk => ?_
    have hprogress := hw.progress c b
    rcases hpoll : c.poll w b with ⟨b', w' | outcome⟩ <;> rw [hpoll] at hprogress <;>
      simp only [Flight.poll, hpoll]
    · cases hprogress with
      | on hbegun hnow hless => exact .on (.join hbegun) (.join hk) hnow hless
      | still hearly => exact .still hearly
    · exact .ended (hk outcome)

/-- What happens meanwhile may give a wait one thing more to read, and the clock gives it
nothing. -/
theorem left_le (f : Flight α) (b b' : Bench) : f.left b' ≤ f.left b + 1 := by
  cases f with
  | join c w k =>
    simp only [left, JoinedCommand.left]
    by_cases hn : w.notification.isSome = true
    · simp only [hn, if_true]
      split <;> split <;> split <;> omega
    · simp [hn]
  | _ => exact Nat.zero_le _

theorem left_congr (f : Flight α) (h : b'.board = b.board) : f.left b' = f.left b := by
  cases f <;> simp [left, JoinedCommand.left, h]

end Flight

/-! ## The background

The agenda is a list of events with their moments.  An event that is due happens at the next poll;
otherwise the poll finds nothing due. -/

namespace Agenda

variable {b : Bench} {agenda : Agenda}

/-- The wait for the next event has been polled. -/
def Begun : Agenda → Prop
  | [] => True
  | (timer, _) :: _ => timer.polled = true

/-- A poll begins the wait for the next event. -/
theorem begun_poll (b : Bench) (agenda : Agenda) : (agenda.poll b).2.Begun := by
  cases agenda with
  | nil => trivial
  | cons head rest =>
    obtain ⟨timer, event⟩ := head
    by_cases hdue : timer.polled = true ∧ timer.expiresAt ≤ b.now
    · have hpoll : timer.poll b.now = .ready () := by simp [Timer.poll, hdue]
      simp only [Agenda.poll, hpoll]
      cases rest <;> trivial
    · have hpoll : timer.poll b.now = .pending { timer with polled := true } := by
        simp [Timer.poll, hdue]
      simp only [Agenda.poll, hpoll]
      rfl

/-- The background has nothing due, or an event less to come. -/
theorem Begun.poll (h : agenda.Begun) (b : Bench) :
    (agenda.poll b = (b, agenda) ∧ ∀ t ∈ agenda.timers, b.now < t) ∨
    (agenda.poll b).2.length + 1 = agenda.length := by
  cases agenda with
  | nil => exact .inl ⟨rfl, by simp [timers]⟩
  | cons head rest =>
    obtain ⟨timer, event⟩ := head
    have htimer : timer.polled = true := h
    by_cases hdue : timer.expiresAt ≤ b.now
    · have hpoll : timer.poll b.now = .ready () := by simp [Timer.poll, htimer, hdue]
      refine .inr ?_
      simp only [Agenda.poll, hpoll, List.length_cons]
      cases rest <;> rfl
    · have hpoll : timer.poll b.now = .pending timer := by
        simp [Timer.poll, hdue, JoinedCommand.polled_eq htimer]
      exact .inl ⟨by simp only [Agenda.poll, hpoll], by simpa [timers] using hdue⟩

end Agenda

/-! ## The number that every round lowers

Between two rounds an event may happen, and it may bring a code, so what is left of the wait may
grow by one; but then there is one event less.  The clock counts too: it only goes on when nothing
is due, and afterwards something is. -/

namespace Rehearsal

variable {b : Bench} {f : Flight α} {agenda : Agenda}

/-- What is left to happen: events, steps that the wait may still make, and a step of the clock
unless something is due already. -/
def potential (f : Flight α) (b : Bench) (agenda : Agenda) : Nat :=
  2 * (2 * agenda.length + f.left b) + if ∃ t ∈ f.timers ++ agenda.timers, t ≤ b.now then 0 else 1

theorem Begun.timers_ne_nil (h : f.Begun) : f.timers ≠ [] := by
  cases h <;> simp [Flight.timers]

/-- After a poll that left a wait, the run goes on from a bench on which the next event has
happened, if it was due; and if nothing has changed, then the clock has gone to where something is
due. -/
theorem rest_begun (h : f.Begun) (before : Bool × Board Urc) (b : Bench) (agenda : Agenda) :
    ∃ t, (∀ rounds, rest rounds before { bench := b, main := .pending f, agenda } =
        schedule.run rounds
          { bench := { (agenda.poll b).1 with now := t }, main := .pending f, agenda :=
            (agenda.poll b).2 }) ∧
      ((b.cancelled, b.board) ≠ before ∨ (agenda.poll b).1 ≠ b ∨
        ∃ u ∈ f.timers ++ (agenda.poll b).2.timers, u ≤ t) := by
  have hagenda : (⟨b, .pending f, agenda⟩ : Rehearsal α).pollAgenda =
      ⟨(agenda.poll b).1, .pending f, (agenda.poll b).2⟩ := rfl
  by_cases hstirred : schedule.signals (⟨b, .pending f, agenda⟩ : Rehearsal α) ≠ before ∨
      schedule.signals (⟨b, .pending f, agenda⟩ : Rehearsal α).pollAgenda ≠
        schedule.signals ⟨b, .pending f, agenda⟩
  · refine ⟨(agenda.poll b).1.now, fun rounds => by rw [rest, if_pos hstirred, hagenda], ?_⟩
    rcases hstirred with hstirred | hstirred
    · exact .inl hstirred
    · refine .inr (.inl fun hsame => hstirred ?_)
      rw [hagenda, hsame]
      rfl
  · -- nothing is stirred: the clock moves to the earliest timer, and there is one
    have hne : schedule.timers (⟨b, .pending f, agenda⟩ : Rehearsal α).pollAgenda ≠ [] :=
      List.append_ne_nil_of_left_ne_nil (Begun.timers_ne_nil h) _
    obtain ⟨moment, hmoment⟩ := Schedule.earliest?_isSome hne
    refine ⟨max (agenda.poll b).1.now moment, fun rounds => ?_,
      .inr (.inr ⟨moment, ?_, Nat.le_max_right _ _⟩)⟩
    · rw [rest, if_neg hstirred, hmoment, hagenda]
      rfl
    · exact (Schedule.earliest?_eq_some hmoment).1

/-! ## Every rehearsal ends

The number of rounds is bounded by the potential between two rounds of one wait; over the tree it is
an induction on the tree. -/

/-- The procedure has ended. -/
def Over (r : Rehearsal α) : Prop := r.main.next? = none

/-- From wherever the procedure is begun, and whatever is to happen, enough rounds see its end. -/
def Halts (p : Procedure α) : Prop :=
  ∀ b agenda before, ∃ rounds, ∀ more, (afterPoll (rounds + more) before agenda (p.advance b)).Over

/-- A wait that has got on lowers the number. -/
theorem potential_lt_of_less {f' : Flight α} {b' : Bench} (hagenda : agenda.Begun)
    (hless : f'.left b' < f.left b) (t : Nat) :
    potential f' { (agenda.poll b').1 with now := t } (agenda.poll b').2 <
      potential f b agenda := by
  have hclock : f'.left { (agenda.poll b').1 with now := t } = f'.left (agenda.poll b').1 :=
    f'.left_congr rfl
  rcases hagenda.poll b' with ⟨hpoll, -⟩ | hlength
  · rw [hpoll] at hclock ⊢
    simp only [potential, hclock]
    split <;> split <;> omega
  · have hle := f'.left_le b' (agenda.poll b').1
    simp only [potential, hclock]
    split <;> split <;> omega

/-- So does a round in which the clock goes to what is waited for. -/
theorem potential_lt_of_still (hagenda : agenda.Begun)
    (hearly : ∀ t ∈ f.timers, b.now < t) {t : Nat}
    (hdue : (agenda.poll b).1 ≠ b ∨ ∃ u ∈ f.timers ++ (agenda.poll b).2.timers, u ≤ t) :
    potential f { (agenda.poll b).1 with now := t } (agenda.poll b).2 < potential f b agenda := by
  have hclock : f.left { (agenda.poll b).1 with now := t } = f.left (agenda.poll b).1 :=
    f.left_congr rfl
  rcases hagenda.poll b with ⟨hpoll, hearly'⟩ | hlength
  · rw [hpoll] at hdue hclock ⊢
    -- the agenda is idle as well, so before the clock moved nothing was due
    have hnone : ¬ ∃ u ∈ f.timers ++ agenda.timers, u ≤ b.now := by
      rintro ⟨u, hu, hle⟩
      rcases List.mem_append.mp hu with hu | hu
      · exact absurd hle (Nat.not_le.mpr (hearly u hu))
      · exact absurd hle (Nat.not_le.mpr (hearly' u hu))
    have hsome : ∃ u ∈ f.timers ++ agenda.timers, u ≤ t := hdue.resolve_left fun h => h rfl
    simp only [potential, hclock, if_neg hnone]
    rw [if_pos hsome]
    omega
  · have hle := f.left_le b (agenda.poll b).1
    simp only [potential, hclock]
    split <;> split <;> omega

/-- Between two rounds of a wait: the number of rounds to its end is bounded by its potential. -/
theorem halts_from (hbegun : f.Begun) (hleads : f.Leads Halts) (hagenda : agenda.Begun) :
    ∃ rounds, ∀ more, (schedule.run (rounds + more) ⟨b, .pending f, agenda⟩).Over := by
  -- on the potential: every round lowers it, unless it ends the wait
  induction hm : potential f b agenda using Nat.strongRecOn generalizing f b agenda with
  | ind m ih =>
    subst hm
    have hround : ∀ rounds more, schedule.run (rounds + 1 + more) ⟨b, .pending f, agenda⟩ =
        afterPoll (rounds + more) (b.cancelled, b.board) agenda (f.poll b) := by
      intro rounds more
      rw [Nat.add_right_comm, run_succ]
    have hprogress := hbegun.progress hleads b
    generalize f.poll b = result at hprogress hround
    cases hprogress with
    | ended hp =>
      obtain ⟨rounds, hrounds⟩ := hp _ agenda (b.cancelled, b.board)
      exact ⟨rounds + 1, fun more => by rw [hround]; exact hrounds more⟩
    | @on f' b' hbegun' hleads' hnow hless =>
      obtain ⟨t, hrest, -⟩ := rest_begun hbegun' (b.cancelled, b.board) b' agenda
      obtain ⟨rounds, hrounds⟩ :=
        ih _ (potential_lt_of_less hagenda hless t) hbegun' hleads' (agenda.begun_poll b') rfl
      exact ⟨rounds + 1, fun more => by rw [hround, afterPoll, hrest]; exact hrounds more⟩
    | still hearly =>
      -- nothing was due, so the clock goes on and an event or a timer is used up
      obtain ⟨t, hrest, hdue⟩ := rest_begun hbegun (b.cancelled, b.board) b agenda
      have hlt := potential_lt_of_still hagenda hearly (hdue.resolve_left fun h => h rfl)
      obtain ⟨rounds, hrounds⟩ := ih _ hlt hbegun hleads (agenda.begun_poll b) rfl
      exact ⟨rounds + 1, fun more => by rw [hround, afterPoll, hrest]; exact hrounds more⟩

/-- After the poll that begins a wait. -/
theorem halts_begun (hbegun : f.Begun) (hleads : f.Leads Halts) (b : Bench) (agenda : Agenda)
    (before : Bool × Board Urc) :
    ∃ rounds, ∀ more, (afterPoll (rounds + more) before agenda (b, .pending f)).Over := by
  obtain ⟨t, hrest, -⟩ := rest_begun hbegun before b agenda
  obtain ⟨rounds, hrounds⟩ :=
    halts_from (b := { (agenda.poll b).1 with now := t }) hbegun hleads (agenda.begun_poll b)
  exact ⟨rounds, fun more => by rw [afterPoll, hrest]; exact hrounds more⟩

/-- Every procedure comes to its end. -/
theorem halts (p : Procedure α) : Halts p := by
  -- along the procedure: a step that waits leads to what follows, which halts
  induction p with
  | done a => exact fun b agenda before => ⟨0, fun more => rfl⟩
  | send r k ih =>
    intro b agenda before
    rcases b.send_cases r with ⟨_, b', hsend, -⟩ | ⟨_, b', wait, hsend, hasked, -⟩
    · simp only [Procedure.advance, hsend]
      exact ih _ b' agenda before
    · simp only [Procedure.advance, hsend]
      exact halts_begun (.reply (by rw [hasked.timer])) (.reply ih) b' agenda before
  | pause span k ih =>
    intro b agenda before
    simp only [Procedure.advance, Timer.poll_after]
    exact halts_begun (.pause rfl) (.pause ih) b agenda before
  | join c k ih =>
    intro b agenda before
    rcases c.start_begun b with ⟨b', outcome, hpoll⟩ | ⟨b', w, hpoll, hbegun⟩
    · simp only [Procedure.advance, hpoll]
      exact ih _ b' agenda before
    · simp only [Procedure.advance, hpoll]
      exact halts_begun (.join hbegun) (.join ih) b' agenda before
  | observe k ih => exact fun b => ih _ _
  | subscribe k ih => exact fun b => ih _ _
  | unsubscribe ticket k ih => exact fun b => ih _
  | parent call k ih => exact fun b => ih _ _
  | parentModes k ih => exact fun b => ih _ _

/-- Once the procedure has ended, further rounds change nothing. -/
theorem run_stable {rounds : Nat} (more : Nat)
    (h : (schedule.run rounds ⟨b, .pending f, agenda⟩).Over) :
    schedule.run (rounds + more) ⟨b, .pending f, agenda⟩ =
      schedule.run rounds ⟨b, .pending f, agenda⟩ := by
  induction rounds generalizing b f agenda with
  | zero => cases h
  | succ rounds ih =>
    rw [run_succ] at h
    rw [Nat.add_right_comm, run_succ, run_succ]
    rcases hpoll : f.poll b with ⟨b', f' | a⟩ <;> rw [hpoll] at h
    · obtain ⟨b₂, es, agenda₂, -, hrest | hrest⟩ := rest_cases (b.cancelled, b.board) b' f' agenda
      · simp only [afterPoll, hrest]
      · simp only [afterPoll, hrest] at h ⊢
        exact ih h
    · rfl

/-- The rehearsal ends in `a` and leaves `b'`: from some number of rounds on that is what a run
gives. -/
def EndsIn (b : Bench) (events : List (Nat × Event)) (p : Procedure α) (a : α)
    (b' : Bench) : Prop :=
  ∃ rounds, ∀ more, run (rounds + more) b events p = (some a, b')

variable {events : List (Nat × Event)} {p : Procedure α} {a a' : α} {b' b'' : Bench}

/-- A run that has come to an end ends the rehearsal. -/
theorem EndsIn.of_run {rounds : Nat} (h : (run rounds b events p).1 = some a) :
    EndsIn b events p a (run rounds b events p).2 := by
  have hover : (schedule.run rounds ⟨b, .pending (.start p), .ofList b.now events⟩).Over := by
    simp only [run] at h
    rcases hend : schedule.run rounds ⟨b, .pending (.start p), .ofList b.now events⟩ with
      ⟨b₁, f | a₁, agenda'⟩
    · rw [hend] at h
      cases h
    · rfl
  refine ⟨rounds, fun more => ?_⟩
  rw [← h, run, run_stable more hover, run]

/-- It does not end in two ways. -/
theorem EndsIn.unique (h : EndsIn b events p a b') (h' : EndsIn b events p a' b'') :
    a = a' ∧ b' = b'' := by
  obtain ⟨rounds, hrun⟩ := h
  obtain ⟨rounds', hrun'⟩ := h'
  have heq := (hrun rounds').symm.trans (Nat.add_comm rounds rounds' ▸ hrun' rounds)
  obtain ⟨ha, hb⟩ := Prod.mk.inj heq
  exact ⟨Option.some.inj ha, hb⟩

/-- Every rehearsal ends. -/
theorem exists_endsIn (b : Bench) (events : List (Nat × Event)) (p : Procedure α) :
    ∃ a b', EndsIn b events p a b' ∧ (Flight.start p).Ends b a b' := by
  obtain ⟨rounds, hrounds⟩ := halts p b (.ofList b.now events) (b.cancelled, b.board)
  have hover : (schedule.run (rounds + 1) ⟨b, .pending (.start p), .ofList b.now events⟩).Over := by
    rw [run_succ]
    exact hrounds 0
  rcases hend : schedule.run (rounds + 1) ⟨b, .pending (.start p), .ofList b.now events⟩ with
    ⟨b', f | a, agenda'⟩
  · rw [hend] at hover
    cases hover
  · have hrun : run (rounds + 1) b events p = (some a, b') := by simp only [run, hend, Poll.value?]
    have hends := EndsIn.of_run (congrArg Prod.fst hrun)
    rw [hrun] at hends
    exact ⟨a, b', hends, ends_of_run hend⟩

end Rehearsal

end Cellular
