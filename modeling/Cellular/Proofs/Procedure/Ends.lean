import Cellular.Proofs.Bench.Joined
/-!
# How procedures end

A procedure that is begun on a bench goes through its nodes one after another.  `Procedure.Ends`
relates where it begins, what it ends in and where; there is one rule for each node, and the rule
for one procedure after another.

A procedure does not run through: it is polled again and again while the clock goes on and codes
come in, so a node that waits may be met in the middle.  The relation hides that.  For a node that
does not wait, the rule is an equation about one poll.  For one that does, the proof is an induction
on the way to the end, and its invariant says how far the wait has got: the command has been sent
and its answer is still to come (`ends_reply`), some of the span has passed (`ends_pausing`), the
wait is underway (`ends_joining`).  What the rule says is the invariant at the moment when the wait
is over.
-/

namespace Cellular

/-! ## One procedure after another

A procedure in flight with another one behind it has the timers of the first and polls like it,
until that is over.  So whatever ends as the two of them ends as the first and then as the second.
-/

variable {α β : Type} {b b' b₁ : Bench} {a : α}

namespace Flight

/-- One procedure in flight, and another after it. -/
def andThen (g : α → Procedure β) : Flight α → Flight β
  | start p => .start (p.bind g)
  | reply wait k => .reply wait fun x => (k x).bind g
  | pause timer k => .pause timer (k.bind g)
  | join c wait k => .join c wait fun x => (k x).bind g

/-- While the first is in flight its timers are all there are. -/
theorem andThen_timers (g : α → Procedure β) (f : Flight α) : (f.andThen g).timers = f.timers := by
  cases f <;> rfl

end Flight

namespace Procedure

/-- Where a procedure has got to, with another one after it. -/
def carryOn (g : α → Procedure β) : Bench × Poll (Flight α) α → Bench × Poll (Flight β) β
  | (b, .ready a) => (g a).advance b
  | (b, .pending f) => (b, .pending (f.andThen g))

/-- Two procedures go as far as the first one goes, and on from there. -/
theorem advance_bind (g : α → Procedure β) (p : Procedure α) (b : Bench) :
    (p.bind g).advance b = carryOn g (p.advance b) := by
  induction p generalizing b with
  | done a => rfl
  | send r k ih =>
    -- an answer that is there at once lets the rest run on in the same poll
    rcases hsend : b.send r with ⟨b', wait | answer⟩
    · simp [bind, advance, hsend, carryOn, Flight.andThen]
    · simp [bind, advance, hsend, ih]
  | pause span k ih =>
    cases hpoll : (Timer.after b.now span).poll b.now <;>
      simp [bind, advance, hpoll, carryOn, Flight.andThen, ih]
  | observe k ih => simp only [bind, advance, ih]
  | subscribe k ih => simp only [bind, advance, ih]
  | unsubscribe ticket k ih => simp only [bind, advance, ih]
  | join c k ih =>
    rcases hpoll : c.poll (c.start b.now) b with ⟨b', wait | outcome⟩
    · simp [bind, advance, hpoll, carryOn, Flight.andThen]
    · simp [bind, advance, hpoll, ih]
  | parent call k ih => simp only [bind, advance, ih]
  | parentModes k ih => simp only [bind, advance, ih]

/-- A poll of both is a poll of the first. -/
theorem poll_andThen (g : α → Procedure β) (f : Flight α) (b : Bench) :
    (f.andThen g).poll b = carryOn g (f.poll b) := by
  cases f with
  | start p => exact advance_bind g p b
  | reply wait k =>
    rcases hpoll : b.pollReply wait with ⟨b', wait' | answer⟩
    · simp [Flight.andThen, Flight.poll, hpoll, carryOn]
    · simp [Flight.andThen, Flight.poll, hpoll, advance_bind]
  | pause timer k =>
    cases hpoll : timer.poll b.now <;>
      simp [Flight.andThen, Flight.poll, hpoll, carryOn, advance_bind]
  | join c wait k =>
    rcases hpoll : c.poll wait b with ⟨b', wait' | outcome⟩
    · simp [Flight.andThen, Flight.poll, hpoll, carryOn]
    · simp [Flight.andThen, Flight.poll, hpoll, advance_bind]

/-- Where both have come to an end the first one has, and the second was begun there. -/
theorem ends_andThen (f : Flight α) {g : α → Procedure β} {y : β} (h : (f.andThen g).Ends b y b') :
    ∃ x b₁, f.Ends b x b₁ ∧ (Flight.start (g x)).Ends b₁ y b' := by
  generalize hfg : f.andThen g = fg at h
  revert f
  refine h.poll_induction fun fg b h ih f hfg => ?_
  subst hfg
  have hpoll := poll_andThen g f b
  rcases hf : f.poll b with ⟨c, f' | x⟩ <;> rw [hf] at hpoll
  · -- the first of the two goes on waiting
    obtain ⟨c', es, hbetween, hends⟩ := ih _ _ hpoll
    obtain ⟨x, b₁, hx, hy⟩ := hends f' rfl
    have htimers := hbetween.timers
    rw [Flight.andThen_timers] at htimers
    exact ⟨x, b₁, .again hf ⟨hbetween.drifts, htimers, hbetween.prompt⟩ hx, hy⟩
  · exact ⟨x, c, .ready hf, h.of_poll_eq hpoll⟩

/-! ## Nodes that do not wait -/

/-- Begun at `b`, the procedure ends in `a` and leaves the bench as `b'`. -/
def Ends (p : Procedure α) (b : Bench) (a : α) (b' : Bench) : Prop := (Flight.start p).Ends b a b'

/-- One procedure after another: the first comes to its end, and the second goes on from there. -/
theorem Ends.bind {p : Procedure α} {g : α → Procedure β} {y : β} (h : (p.bind g).Ends b y b') :
    ∃ x b₁, p.Ends b x b₁ ∧ (g x).Ends b₁ y b' := ends_andThen (.start p) h

/-- What is done ends at once. -/
theorem Ends.done {x : α} (h : (done x).Ends b a b') : a = x ∧ b' = b := by
  cases h with
  | ready hpoll =>
    obtain ⟨rfl, hready⟩ := Prod.mk.inj hpoll
    exact ⟨(Poll.ready.inj hready).symm, rfl⟩
  | again hpoll => cases (Prod.mk.inj hpoll).2

/-- A look at the token sees it as it is, and is written down. -/
theorem Ends.observe {k : Bool → Procedure α} (h : (observe k).Ends b a b') :
    (k b.cancelled).Ends (b.tell (.looked b.cancelled)) a b' :=
  Flight.Ends.of_poll_eq (f := .start (.observe k)) (b := b) rfl h

theorem Ends.subscribe {k : Option Nat → Procedure α} (h : (subscribe k).Ends b a b') :
    (k b.subscribe.2).Ends b.subscribe.1 a b' :=
  Flight.Ends.of_poll_eq (f := .start (.subscribe k)) (b := b) rfl h

theorem Ends.unsubscribe {ticket : Nat} {k : Procedure α} (h : (unsubscribe ticket k).Ends b a b') :
    k.Ends (b.unsubscribe ticket) a b' :=
  Flight.Ends.of_poll_eq (f := .start (.unsubscribe ticket k)) (b := b) rfl h

theorem Ends.parent {call : ParentCall} {k : Except Error Unit → Procedure α}
    (h : (parent call k).Ends b a b') :
    (k (b.askParent call).2).Ends (b.askParent call).1 a b' :=
  Flight.Ends.of_poll_eq (f := .start (.parent call k)) (b := b) rfl h

theorem Ends.parentModes {k : Except Error (List ModeCombination) → Procedure α}
    (h : (parentModes k).Ends b a b') : (k b.askParentModes.2).Ends b.askParentModes.1 a b' :=
  Flight.Ends.of_poll_eq (f := .start (.parentModes k)) (b := b) rfl h

/-! ## Nodes that wait

Each of these is two facts: what the first poll does, and how the wait ends, by induction on the
polls until then.  Meanwhile the outside may publish codes and the clock may go on, up to the
moment at which the wait is due. -/

/-- While an answer is awaited only codes come.  At the end of the wait it is there, and the clock
has gone on by its delay. -/
theorem ends_reply {r : Request} (since : Chronicle) {wait : Bench.Reply}
    {k : Except LinkError Bytes → Procedure α} {c : Bench} (hasked : b.Asked r since c wait)
    (hkeeps : b.Keeps c (b.asking r since)) (h : (Flight.reply wait k).Ends c a b') :
    ∃ before answer b₁, b.Answered r before answer [] b₁ ∧ b₁.now = b.now + b.delay ∧
      b.Keeps b₁ (b.exchange r before answer []) ∧ (k answer).Ends b₁ a b' := by
  have hpolled : wait.timer.polled = true := by rw [hasked.timer]
  -- the flight is made a variable, since the induction is on the polls of any flight
  generalize hf : Flight.reply wait k = f at h
  revert since hf
  refine h.poll_induction fun f c h ih since hasked hkeeps hf => ?_
  subst hf
  by_cases hdue : wait.timer.expiresAt ≤ c.now
  · obtain ⟨fs, -, hanswered, hnow, hnow', hkeeps'⟩ := hasked.conclude hdue
    have hall := hkeeps.trans hkeeps'
    rw [JoinedCommand.asking_append] at hall
    have hpoll : (Flight.reply wait k).poll c =
        (Flight.start (k wait.answer)).poll (c.conclude wait.after wait.answer) := by
      simp only [Flight.poll, Bench.pollReply_due hpolled hdue]
    exact ⟨since ++ fs, wait.answer, _, hanswered, hnow.trans hnow', hall, h.of_poll_eq hpoll⟩
  · have hpoll : (Flight.reply wait k).poll c = (c, .pending (.reply wait k)) := by
      simp only [Flight.poll, Bench.pollReply_early hpolled (Nat.lt_of_not_le hdue)]
    obtain ⟨c', es, ⟨hdrifts, htimers, -⟩, hends⟩ := ih _ _ hpoll
    -- the clock does not pass the timer of the reply
    have hon : c'.now ≤ b.now + b.delay := hasked.not_past (htimers _ (by simp [Flight.timers]))
    exact hends _ (hasked.drifts hdrifts hon) (hkeeps.trans hdrifts.toKeeps) rfl

/-- A command: it is sent, and then the answer comes. -/
theorem Ends.send {r : Request} {k : Except LinkError Bytes → Procedure α}
    (h : (send r k).Ends b a b') :
    ∃ before answer b₁, b.Answered r before answer [] b₁ ∧ b₁.now = b.now + b.delay ∧
      b.Keeps b₁ (b.exchange r before answer []) ∧ (k answer).Ends b₁ a b' := by
  rcases b.send_cases r with
    ⟨before, c, hsend, hanswered, hnow, hdelay, hkeeps⟩ |
      ⟨since, c, wait, hsend, hasked, hnow, hkeeps⟩
  · -- answered at once
    have hpoll : (Flight.start (.send r k)).poll b = (Flight.start (k b.turn.answer)).poll c := by
      simp [Flight.poll, advance, hsend]
    exact ⟨before, _, c, hanswered, by rw [hnow, hdelay]; rfl, hkeeps,
      Flight.Ends.of_poll_eq hpoll h⟩
  · -- on its way: the bench drifts until the reply is due
    have hpoll : (Flight.start (.send r k)).poll b = (c, .pending (.reply wait k)) := by
      simp [Flight.poll, advance, hsend]
    obtain ⟨c', es, ⟨hdrifts, htimers, -⟩, hends⟩ := Flight.Ends.next h hpoll
    have hon : c'.now ≤ b.now + b.delay := hasked.not_past (htimers _ (by simp [Flight.timers]))
    exact ends_reply _ (hasked.drifts hdrifts hon) (hkeeps.trans hdrifts.toKeeps) hends

/-- A command that is all there is to do: its answer decides. -/
theorem Ends.send_done {r : Request} {g : Except LinkError Bytes → α}
    (h : (Procedure.send r fun answer => .done (g answer)).Ends b a b') :
    a = g b.turn.answer ∧ ∃ before, b.Answered r before b.turn.answer [] b' := by
  obtain ⟨before, answer, b₁, hanswered, -, -, hdone⟩ := h.send
  obtain ⟨rfl, rfl⟩ := hdone.done
  obtain rfl := hanswered.answer
  exact ⟨rfl, before, hanswered⟩

/-- While a pause lasts only codes come.  At its end the clock has gone on by its span. -/
theorem ends_pausing {span : Nat} {timer : Timer} {k : Procedure α} {c : Bench} (es : Chronicle)
    (hpolled : timer.polled = true) (hexpires : timer.expiresAt = b.now + span)
    (hdrifts : b.Drifts c es) (hon : c.now ≤ b.now + span)
    (h : (Flight.pause timer k).Ends c a b') :
    ∃ b₁ es, b.Drifts b₁ es ∧ b₁.now = b.now + span ∧ k.Ends b₁ a b' := by
  generalize hf : Flight.pause timer k = f at h
  revert es hdrifts hon hf
  refine h.poll_induction fun f c h ih es hdrifts hon hf => ?_
  subst hf
  by_cases hdue : timer.expiresAt ≤ c.now
  · have hpoll : (Flight.pause timer k).poll c = (Flight.start k).poll c := by
      simp only [Flight.poll, Timer.poll, if_pos (And.intro hpolled hdue)]
    exact ⟨c, es, hdrifts, Nat.le_antisymm hon (hexpires ▸ hdue), h.of_poll_eq hpoll⟩
  · have htimer : timer.poll c.now = .pending timer := by
      obtain ⟨expiresAt, polled⟩ := timer
      obtain rfl : polled = true := hpolled
      exact if_neg fun hready => hdue hready.2
    have hpoll : (Flight.pause timer k).poll c = (c, .pending (.pause timer k)) := by
      simp only [Flight.poll, htimer]
    obtain ⟨c', fs, ⟨hdrifts', htimers, -⟩, hends⟩ := ih _ _ hpoll
    -- the clock does not pass the timer of the pause
    have hon' : c'.now ≤ b.now + span := by
      rw [← hexpires]
      exact htimers _ (by simp [Flight.timers]) (by rw [hexpires]; exact hon)
    exact hends _ (hdrifts.trans hdrifts') hon' rfl

/-- A pause: the clock goes on by its span, and only codes may come meanwhile. -/
theorem Ends.pause {span : Nat} {k : Procedure α} (h : (pause span k).Ends b a b') :
    ∃ b₁ es, b.Drifts b₁ es ∧ b₁.now = b.now + span ∧ k.Ends b₁ a b' := by
  have hpoll : (Flight.start (.pause span k)).poll b =
      (b, .pending (.pause { expiresAt := b.now + span, polled := true } k)) := by
    simp only [Flight.poll, advance, Timer.poll_after]
  obtain ⟨c, es, ⟨hdrifts, htimers, -⟩, hends⟩ := Flight.Ends.next h hpoll
  have hon : c.now ≤ b.now + span := htimers _ (by simp [Flight.timers]) (Nat.le_add_right _ _)
  exact ends_pausing es rfl rfl hdrifts hon hends

/-- A joined wait that is underway comes to one of its outcomes. -/
theorem ends_joining {c : JoinedCommand} {k : Join.Outcome Unit Urc → Procedure α} {b₀ : Bench}
    (w : JoinedWait) (es : Chronicle) (hunderway : c.Underway b₀ w b es)
    (hlimit : b.now ≤ c.latest b₀) (h : (Flight.join c w k).Ends b a b') :
    ∃ outcome b₁ es, c.Joined b₀ outcome b₁ es ∧ (k outcome).Ends b₁ a b' := by
  generalize hf : Flight.join c w k = f at h
  revert w es hlimit hf
  -- the stage changes from poll to poll; under way it is at each of them
  refine h.poll_induction fun f b h ih w es hunderway hlimit hf => ?_
  subst hf
  have hstep := hunderway.step hlimit
  rcases hw : c.poll w b with ⟨b₁, w' | outcome⟩ <;> rw [hw] at hstep
  · have hpoll : (Flight.join c w k).poll b = (b₁, .pending (.join c w' k)) := by
      simp only [Flight.poll, hw]
    obtain ⟨b₂, fs, ⟨hdrifts, htimers, hprompt⟩, hends⟩ := ih _ _ hpoll
    cases hstep with
    | on hunderway' hblank hnow =>
      obtain ⟨hunderway'', hlimit'⟩ :=
        hunderway'.drifts hblank hdrifts hprompt (hnow ▸ hlimit) htimers
      exact hends w' _ hunderway'' hlimit' rfl
  · have hpoll : (Flight.join c w k).poll b = (Flight.start (k outcome)).poll b₁ := by
      simp only [Flight.poll, hw]
    cases hstep with
    | ended hjoined => exact ⟨outcome, b₁, _, hjoined, h.of_poll_eq hpoll⟩

/-- A command that is joined with a code. -/
theorem Ends.join {c : JoinedCommand} {k : Join.Outcome Unit Urc → Procedure α}
    (hseated : b.board.Seated c.ticket) (h : (join c k).Ends b a b') :
    ∃ outcome b₁ es, c.Joined b outcome b₁ es ∧ (k outcome).Ends b₁ a b' := by
  have hstep := c.step_start hseated
  rcases hw : c.poll (c.start b.now) b with ⟨b₁, w | outcome⟩ <;> rw [hw] at hstep
  · have hpoll : (Flight.start (.join c k)).poll b = (b₁, .pending (.join c w k)) := by
      simp [Flight.poll, advance, hw]
    obtain ⟨b₂, fs, ⟨hdrifts, htimers, hprompt⟩, hends⟩ := Flight.Ends.next h hpoll
    cases hstep with
    | on hunderway hblank hnow =>
      have hlimit : b₁.now ≤ c.latest b := by rw [hnow]; exact Nat.le_add_right _ _
      obtain ⟨hunderway', hlimit'⟩ := hunderway.drifts hblank hdrifts hprompt hlimit htimers
      exact ends_joining w _ hunderway' hlimit' hends
  · have hpoll : (Flight.start (.join c k)).poll b = (Flight.start (k outcome)).poll b₁ := by
      simp [Flight.poll, advance, hw]
    cases hstep with
    | ended hjoined => exact ⟨outcome, b₁, _, hjoined, Flight.Ends.of_poll_eq hpoll h⟩

end Procedure

end Cellular
