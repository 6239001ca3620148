import Cellular.Proofs.Bench.History
import Cellular.Proofs.Wait.Schedule
/-!
# A procedure from its start to its end

What a procedure does on a bench does not depend on how it is scheduled: it is polled, then codes
may be published, the token may be set and the clock may move, and so on until a poll gives its
result.  The clock moves past no timer that the procedure waits for, and only when nothing has been
published since the last poll (`Flight.Between`).  `Flight.Ends` is that story.  Every rehearsal in
which the procedure comes to an end is one (`Rehearsal.ends_of_run`).

A rehearsal has rounds, and in each the procedure is polled, the background has its turn, and the
clock may go on.  From the point of view of the procedure that is one poll and then what may happen
between two polls, and so every run is an instance of the relation.  The rules for single nodes are
proved by induction on this relation and know of no rounds.
-/

namespace Cellular

variable {α : Type}

/-- What may happen between two polls of a procedure in flight. -/
structure Flight.Between (f : Flight α) (b b' : Bench) (es : Chronicle) : Prop where
  drifts : b.Drifts b' es
  timers : ∀ t ∈ f.timers, b.now ≤ t → b'.now ≤ t
  /-- The clock stands still as long as there is something new to read. -/
  prompt : b'.now = b.now ∨ b'.board = b.board

/-- Polled at `b` and from then on, a procedure in flight ends in `a`, and leaves the bench as
`b'`. -/
inductive Flight.Ends : Flight α → Bench → α → Bench → Prop where
  /-- This poll is the last. -/
  | ready {f : Flight α} {b b' : Bench} {a : α} (hpoll : f.poll b = (b', .ready a)) : Ends f b a b'
  /-- The procedure waits, and is polled again when something may have happened. -/
  | again {f f' : Flight α} {b b₁ b₂ b' : Bench} {a : α} {es : Chronicle}
    (hpoll : f.poll b = (b₁, .pending f')) (hbetween : f'.Between b₁ b₂ es)
    (hends : Ends f' b₂ a b') : Ends f b a b'

/-- Only the next poll counts. -/
theorem Flight.Ends.of_poll_eq {f g : Flight α} {b c b' : Bench} {a : α} (h : f.poll b = g.poll c)
    (hf : f.Ends b a b') : g.Ends c a b' := by
  cases hf with
  | ready hpoll => exact .ready (h ▸ hpoll)
  | again hpoll hbetween hends => exact .again (h ▸ hpoll) hbetween hends

/-- A procedure that waits after this poll is polled again later, when no timer of its was
passed. -/
theorem Flight.Ends.next {f f' : Flight α} {b c b' : Bench} {a : α} (h : f.Ends b a b')
    (hpoll : f.poll b = (c, .pending f')) :
    ∃ c' es, f'.Between c c' es ∧ f'.Ends c' a b' := by
  cases h with
  | ready hready => cases (Prod.mk.inj (hpoll.symm.trans hready)).2
  | again hpoll' hbetween hends =>
    obtain ⟨rfl, hpending⟩ := Prod.mk.inj (hpoll.symm.trans hpoll')
    obtain rfl := Poll.pending.inj hpending
    exact ⟨_, _, hbetween, hends⟩

/-- What holds at a poll if it holds at the next one, should there be one, holds at every poll. -/
@[elab_as_elim]
theorem Flight.Ends.poll_induction {a : α} {b' : Bench} {P : Flight α → Bench → Prop}
    (step : ∀ (f : Flight α) (b : Bench), f.Ends b a b' →
      (∀ f' c, f.poll b = (c, .pending f') →
        ∃ c' es, f'.Between c c' es ∧ P f' c') → P f b)
    {f : Flight α} {b : Bench} (h : f.Ends b a b') : P f b := by
  induction h with
  | @ready f b b' a hpoll =>
    exact step f b (.ready hpoll) fun f' c hc => nomatch (Prod.mk.inj (hc.symm.trans hpoll)).2
  | @again f f' b b₁ b₂ b' a es hpoll hbetween hends ih =>
    refine step f b (.again hpoll hbetween hends) fun g c hc => ?_
    obtain ⟨rfl, hpending⟩ := Prod.mk.inj (hc.symm.trans hpoll)
    obtain rfl := Poll.pending.inj hpending
    exact ⟨b₂, es, hbetween, ih step⟩

/-- The background lets one event happen, or none. -/
theorem Agenda.poll_drifts (b : Bench) (agenda : Agenda) :
    ∃ es, b.Drifts (agenda.poll b).1 es ∧ (agenda.poll b).1.now = b.now := by
  cases agenda with
  | nil => exact ⟨[], .refl b, rfl⟩
  | cons head rest =>
    obtain ⟨timer, event⟩ := head
    cases hpoll : timer.poll b.now with
    | pending timer => exact ⟨[], by simpa [Agenda.poll, hpoll] using Bench.Drifts.refl b,
        by simp [Agenda.poll, hpoll]⟩
    | ready =>
      obtain ⟨es, hes, hnow⟩ := b.drifts_happen event
      exact ⟨es, by simpa [Agenda.poll, hpoll] using hes, by simpa [Agenda.poll, hpoll] using hnow⟩

namespace Rehearsal

/-- The round goes on when the procedure has been polled and waits: `before` is what others could
see before that poll, and `rounds` rounds follow. -/
def rest (rounds : Nat) (before : Bool × Board Urc) (r : Rehearsal α) : Rehearsal α :=
  if schedule.signals r ≠ before ∨ schedule.signals r.pollAgenda ≠ schedule.signals r then
    schedule.run rounds r.pollAgenda
  else match Schedule.earliest? (schedule.timers r.pollAgenda) with
    | none => r.pollAgenda
    | some moment =>
      schedule.run rounds (schedule.setNow (max r.pollAgenda.bench.now moment) r.pollAgenda)

/-- A round in which the procedure goes on waiting. -/
theorem round_pending {b b' : Bench} {f f' : Flight α} (hpoll : f.poll b = (b', .pending f'))
    (agenda : Agenda) :
    schedule.round { bench := b, main := .pending f, agenda } =
      ((⟨b', .pending f', agenda⟩ : Rehearsal α).pollAgenda,
        decide ((b'.cancelled, b'.board) ≠ (b.cancelled, b.board)) ||
          decide (schedule.signals (⟨b', .pending f', agenda⟩ : Rehearsal α).pollAgenda ≠
            (b'.cancelled, b'.board))) := by
  simp [Schedule.round, Schedule.pollEach, schedule, pollMain, hpoll, pollAgenda, Poll.next?]

/-- The round goes on when the procedure has been polled. -/
def afterPoll (rounds : Nat) (before : Bool × Board Urc) (agenda : Agenda) :
    Bench × Poll (Flight α) α → Rehearsal α
  | (bench, .ready a) => { bench, main := .ready a, agenda }
  | (bench, .pending f) => rest rounds before { bench, main := .pending f, agenda }

/-- A round polls the procedure, and goes on when it waits. -/
theorem run_succ (rounds : Nat) (b : Bench) (f : Flight α) (agenda : Agenda) :
    schedule.run (rounds + 1) { bench := b, main := .pending f, agenda } =
      afterPoll rounds (b.cancelled, b.board) agenda (f.poll b) := by
  rcases hpoll : f.poll b with ⟨b', f' | a⟩
  · have hgoes : schedule.isOver (⟨b', .pending f', agenda⟩ : Rehearsal α).pollAgenda = false := rfl
    simp only [Schedule.run, round_pending hpoll, hgoes, afterPoll, rest, Bool.or_eq_true,
      decide_eq_true_eq]
    rfl
  · simp [Schedule.run, Schedule.round, Schedule.pollEach, schedule, pollMain, hpoll,
      Poll.next?, afterPoll]

/-- How a round ends for a procedure that waits: something may have happened, the clock may have
gone on, and the rounds that are left follow. -/
theorem rest_cases (before : Bool × Board Urc) (b : Bench) (f : Flight α) (agenda : Agenda) :
    ∃ b' es agenda', f.Between b b' es ∧
      ((∀ rounds, rest rounds before ⟨b, .pending f, agenda⟩ = ⟨b', .pending f, agenda'⟩) ∨
        ∀ rounds, rest rounds before ⟨b, .pending f, agenda⟩ =
          schedule.run rounds ⟨b', .pending f, agenda'⟩) := by
  obtain ⟨es, hdrifts, hnow⟩ := agenda.poll_drifts b
  have hagenda : (⟨b, .pending f, agenda⟩ : Rehearsal α).pollAgenda =
      ⟨(agenda.poll b).1, .pending f, (agenda.poll b).2⟩ := rfl
  have hstill : ∀ t ∈ f.timers, b.now ≤ t → (agenda.poll b).1.now ≤ t := fun t _ ht => hnow ▸ ht
  by_cases hstirred : schedule.signals (⟨b, .pending f, agenda⟩ : Rehearsal α) ≠ before ∨
      schedule.signals (⟨b, .pending f, agenda⟩ : Rehearsal α).pollAgenda ≠
        schedule.signals ⟨b, .pending f, agenda⟩
  · exact ⟨_, es, _, ⟨hdrifts, hstill, .inl hnow⟩, .inr fun rounds => by
      rw [rest, if_pos hstirred, hagenda]⟩
  · cases hmoment :
      Schedule.earliest? (schedule.timers (⟨b, .pending f, agenda⟩ : Rehearsal α).pollAgenda) with
    | none =>
      exact ⟨_, es, _, ⟨hdrifts, hstill, .inl hnow⟩,
        .inl fun rounds => by rw [rest, if_neg hstirred, hmoment, hagenda]⟩
    | some moment =>
      obtain ⟨-, hleast⟩ := Schedule.earliest?_eq_some hmoment
      have hmax : (agenda.poll b).1.now ≤ max (agenda.poll b).1.now moment := Nat.le_max_left _ _
      -- nothing has changed, or else the clock would not have moved
      have hboard : (agenda.poll b).1.board = b.board :=
        congrArg Prod.snd (Decidable.not_not.mp fun hne => hstirred (.inr hne))
      refine ⟨_, _, (agenda.poll b).2,
        ⟨hdrifts.trans (Bench.drifts_now hmax), fun t ht hle => ?_, .inr hboard⟩,
        .inr fun rounds => ?_⟩
      · have hmem : t ∈ schedule.timers (⟨b, .pending f, agenda⟩ : Rehearsal α).pollAgenda :=
          List.mem_append_left _ ht
        exact Nat.max_le.mpr ⟨hstill t ht hle, hleast t hmem⟩
      · rw [rest, if_neg hstirred, hmoment, hagenda]
        rfl

/-- A run that has come to an end is such a story. -/
theorem ends_of_run {rounds : Nat} {b b' : Bench} {f : Flight α} {agenda agenda' : Agenda} {a : α}
    (h : schedule.run rounds { bench := b, main := .pending f, agenda } =
      { bench := b', main := .ready a, agenda := agenda' }) :
    f.Ends b a b' := by
  induction rounds generalizing b f agenda with
  | zero => simp [Schedule.run] at h
  | succ rounds ih =>
    rw [run_succ] at h
    rcases hpoll : f.poll b with ⟨b₁, f' | a'⟩ <;> rw [hpoll] at h
    · obtain ⟨b₂, es, agenda₂, hbetween, hrest | hrest⟩ :=
        rest_cases (b.cancelled, b.board) b₁ f' agenda
      · cases (hrest rounds).symm.trans h
      · exact .again hpoll hbetween (ih ((hrest rounds).symm.trans h))
    · obtain ⟨rfl, hready, -⟩ := Rehearsal.mk.inj h
      obtain rfl := Poll.ready.inj hready
      exact .ready hpoll

end Rehearsal

end Cellular
