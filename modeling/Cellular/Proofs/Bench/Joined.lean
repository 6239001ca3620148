import Cellular.Proofs.Bench.Waiting
import Cellular.Proofs.Wait.Join
/-!
# A command that is joined with a code

A joined command waits for its answer and for the first code that is wanted, both within a bound.
The codes are those that the holder of the ticket had not read when the wait began, and those
published since; what counts is the first of them that is wanted, whether it comes before the answer
or after it.

`JoinedCommand.Joined` is the law: how such a wait ends, and what happened until then.

There are four ways to end, and each constructor of the law has the moments and the codes that go
with it: a refusal, both signals in time, no answer in time, and no code in time.  Between two polls
the wait is at a stage, and `Underway` says what is true of each: what was sent, which code has been
noticed, and that no code that is wanted was passed over.  A poll leads from a stage to a stage or
to an end (`Underway.step`), and the clock moves only as far as the timers allow
(`Underway.drifts`).

One point is delicate: a code that is wanted has to be noticed at its own moment, or else the end
would come later than the law says.  `Fresh` carries this; between two polls either the clock stands
still or nothing new is on the board.
-/

namespace Cellular

/-! ## The law -/

namespace JoinedCommand

variable {c : JoinedCommand} {b₀ b b' : Bench} {es fs : Chronicle}

/-- What the holder of the ticket can read from `b₀` on, read or not. -/
def readable (c : JoinedCommand) (b₀ : Bench) (es : Chronicle) : List Urc :=
  b₀.board.unread c.ticket ++ es.codes.map Prod.snd

/-- The first code that is wanted. -/
def notice? (c : JoinedCommand) (b₀ : Bench) (es : Chronicle) : Option Urc :=
  (c.readable b₀ es).find? c.wanted

/-- The moment the wait is given up. -/
def latest (c : JoinedCommand) (b₀ : Bench) : Nat := b₀.now + c.terms.limit

/-- The codes that are wanted are all of this moment. -/
def Fresh (c : JoinedCommand) (b : Bench) (es : Chronicle) : Prop :=
  ∀ e ∈ es.codes, c.wanted e.2 = true → e.1 = b.now

/-- How a joined command ends that was begun at `b₀` and ends at `b`. -/
inductive Joined (c : JoinedCommand) (b₀ : Bench) :
    Join.Outcome Unit Urc → Bench → Chronicle → Prop where
  /-- A failed answer ends it at once. -/
  | refused {b : Bench} {before : Chronicle} {answer : Except LinkError Bytes} {e : Error}
    (hanswered : b₀.Answered c.request before answer [] b) (hnow : b.now = b₀.now + b₀.delay)
    (hrefused : c.terms.refuses (c.settle answer) = some e) (hlimit : b.now ≤ c.latest b₀) :
    Joined c b₀ (.error e) b (b₀.exchange c.request before answer [])
  /-- The answer came, and a code that is wanted. -/
  | joined {b : Bench} {before after : Chronicle} {answer : Except LinkError Bytes} {code : Urc}
    (hanswered : b₀.Answered c.request before answer after b)
    (htaken : c.terms.refuses (c.settle answer) = none)
    (hnotice : c.notice? b₀ (b₀.exchange c.request before answer after) = some code)
    (hlimit : b.now ≤ c.latest b₀)
    (hprompt : b.now = b₀.now + b₀.delay ∨ c.Fresh b (b₀.exchange c.request before answer after)) :
    Joined c b₀ (.ok (c.settle answer, code)) b (b₀.exchange c.request before answer after)
  /-- No answer came in time. -/
  | unanswered {b : Bench} {since : Chronicle} {wait : Bench.Reply}
    (hasked : b₀.Asked c.request since b wait) (hlate : c.terms.limit < b₀.delay)
    (hlimit : b.now = c.latest b₀) :
    Joined c b₀ (.error (.operationTimeout c.terms.message)) b (b₀.asking c.request since)
  /-- No code that is wanted came in time. -/
  | unnoticed {b : Bench} {before after : Chronicle} {answer : Except LinkError Bytes}
    (hanswered : b₀.Answered c.request before answer after b)
    (htaken : c.terms.refuses (c.settle answer) = none)
    (hnotice : c.notice? b₀ (b₀.exchange c.request before answer after) = none)
    (hlimit : b.now = c.latest b₀) :
    Joined c b₀ (.error (.operationTimeout c.terms.message)) b
      (b₀.exchange c.request before answer after)

/-- However it ends, the command was sent, and nothing else. -/
theorem Joined.sent {outcome : Join.Outcome Unit Urc} (h : c.Joined b₀ outcome b es) :
    b₀.Grows b es ∧ es.requests = [(b₀.now, c.request)] := by
  cases h with
  | refused hanswered _ _ _ => exact ⟨hanswered.grows, hanswered.requests_eq⟩
  | joined hanswered _ _ _ _ => exact ⟨hanswered.grows, hanswered.requests_eq⟩
  | unanswered hasked _ _ => exact ⟨hasked.grows, congrArg (_ :: ·) hasked.quiet.requests⟩
  | unnoticed hanswered _ _ _ => exact ⟨hanswered.grows, hanswered.requests_eq⟩

/-- The first code stays the first one. -/
theorem notice?_append {code : Urc} (h : c.notice? b₀ es = some code) (fs : Chronicle) :
    c.notice? b₀ (es ++ fs) = some code := by
  have hsplit : c.readable b₀ (es ++ fs) = c.readable b₀ es ++ fs.codes.map Prod.snd := by
    simp [readable, Chronicle.codes]
  rw [notice?, hsplit, List.find?_append, ← notice?, h]
  rfl

/-! ## Looking for the code

A poll reads the seat up to the first code that is wanted, and a search that has found nothing has
read everything.  So whatever is found at a poll came since the last one, and the clock only moves
when nothing has come. -/

/-- The holder of the ticket has so far read nothing that is wanted, and what came since the last
poll came just now. -/
structure Searching (c : JoinedCommand) (b₀ b : Bench) (es : Chronicle) : Prop where
  seated : b.board.Seated c.ticket
  unread : ∃ read, c.readable b₀ es = read ++ b.board.unread c.ticket ∧ read.find? c.wanted = none
  fresh : c.Fresh b es

theorem Searching.start (h : b₀.board.Seated c.ticket) : c.Searching b₀ b₀ [] :=
  ⟨h, ⟨[], by simp [readable, Chronicle.codes], rfl⟩, fun _ h => nomatch h⟩

/-- What comes later is looked for later. -/
theorem Searching.grow (h : c.Searching b₀ b es) (h' : b.Keeps b' fs)
    (hfresh : c.Fresh b' (es ++ fs)) :
    c.Searching b₀ b' (es ++ fs) := by
  obtain ⟨read, hread, hnone⟩ := h.unread
  refine ⟨h'.seated _ h.seated, ⟨read, ?_, hnone⟩, hfresh⟩
  rw [h'.unread _ h.seated, ← List.append_assoc, ← hread]
  simp [readable, Chronicle.codes]

/-- What is published at one moment is of that moment. -/
theorem fresh_of_still (h : b.Grows b' fs) (hnow : b'.now = b.now) : c.Fresh b' fs := by
  intro e he _
  obtain ⟨hle, hle'⟩ := h.within _ (Chronicle.mem_codes.mp he)
  exact Nat.le_antisymm hle' (hnow ▸ hle)

theorem Fresh.append (h : c.Fresh b es) (h' : c.Fresh b fs) : c.Fresh b (es ++ fs) := by
  intro e he
  rw [Chronicle.codes_append] at he
  exact (List.mem_append.mp he).elim (h e) (h' e)

theorem Searching.keeps (h : c.Searching b₀ b es) (h' : b.Keeps b' fs) (hnow : b'.now = b.now) :
    c.Searching b₀ b' (es ++ fs) := by
  have hfresh : c.Fresh b' es := fun e he hwanted => (h.fresh e he hwanted).trans hnow.symm
  exact h.grow h' (hfresh.append (fresh_of_still h'.toGrows hnow))

/-- Between two polls the clock only moves when there is nothing new to read. -/
theorem Searching.drifts (h : c.Searching b₀ b es) (hblank : c.notice? b₀ es = none)
    (h' : b.Drifts b' fs) (hprompt : b'.now = b.now ∨ b'.board = b.board) :
    c.Searching b₀ b' (es ++ fs) := by
  have hnone : c.Fresh b' es := fun e he hwanted => by
    have hmem : e.2 ∈ c.readable b₀ es := List.mem_append_right _ (List.mem_map_of_mem he)
    exact absurd hwanted (List.find?_eq_none.mp hblank _ hmem)
  refine h.grow h'.toKeeps (hnone.append ?_)
  rcases hprompt with hnow | hboard
  · exact fresh_of_still h'.toGrows hnow
  · have hunread := h'.unread _ h.seated
    rw [hboard, List.self_eq_append_right, List.map_eq_nil_iff] at hunread
    intro e he
    rw [hunread] at he
    cases he

/-- The bench after reading up to the first code that is wanted. -/
def search (c : JoinedCommand) (b : Bench) : Bench :=
  { b with board :=
    (b.board.nextMatching c.ticket fun code => if c.wanted code then some code else none).2 }

/-- A poll for the code takes the first that is wanted, and reads up to it. -/
theorem pollCode_eq (c : JoinedCommand) (b : Bench) :
    c.pollCode () b = match (b.board.unread c.ticket).find? c.wanted with
      | some code => (c.search b, .ready code)
      | none => (c.search b, .pending ()) := by
  rw [← Board.firstMatch_wanted]
  unfold pollCode search
  simp only [Board.nextMatching]
  cases (Board.firstMatch (fun code => if c.wanted code then some code else none)
    (b.board.unread c.ticket)).1 <;> rfl

/-- Who finds nothing leaves nothing. -/
theorem search_of_none (h : (b.board.unread c.ticket).find? c.wanted = none) :
    c.search b = { b with board := b.board.setUnread c.ticket [] } := by
  have hrest := Board.firstMatch_none (by rwa [Board.firstMatch_wanted])
  simp only [search, Board.nextMatching, hrest]

/-- What is found is the first code that is wanted. -/
theorem Searching.found {code : Urc} (h : c.Searching b₀ b es)
    (hfound : (b.board.unread c.ticket).find? c.wanted = some code) :
    c.notice? b₀ es = some code := by
  obtain ⟨read, hread, hnone⟩ := h.unread
  rw [notice?, hread, List.find?_append, hnone, hfound]
  rfl

/-- If nothing is found there is no such code yet. -/
theorem Searching.on (h : c.Searching b₀ b es)
    (hnone : (b.board.unread c.ticket).find? c.wanted = none) :
    c.notice? b₀ es = none ∧ c.Searching b₀ (c.search b) es := by
  obtain ⟨read, hread, hnone'⟩ := h.unread
  have hall : (c.readable b₀ es).find? c.wanted = none := by
    rw [hread, List.find?_append, hnone', hnone]
    rfl
  rw [search_of_none hnone]
  refine ⟨hall, h.seated.setUnread _ _, ⟨c.readable b₀ es, ?_, hall⟩, h.fresh⟩
  rw [Board.unread_setUnread h.seated, List.append_nil]

/-! ## The stages of the wait

The stages are those of every joined wait, with what a bench has to do with them.  The timers of a
stage bound how far the clock may go before the next poll. -/

/-- The wait was begun at `b₀`; this is its stage at `b`, between two polls. -/
inductive Underway (c : JoinedCommand) (b₀ : Bench) : JoinedWait → Bench → Chronicle → Prop where
  | both {b : Bench} {since : Chronicle} {wait : Bench.Reply}
    (hasked : b₀.Asked c.request since b wait)
    (hsearch : c.Searching b₀ b (b₀.asking c.request since)) :
    Underway c b₀ (Join.awaitBoth (.awaited wait) () ⟨c.latest b₀, true⟩) b
      (b₀.asking c.request since)
  | answered {b : Bench} {before after : Chronicle} {answer : Except LinkError Bytes}
    (hanswered : b₀.Answered c.request before answer after b)
    (htaken : c.terms.refuses (c.settle answer) = none)
    (hsearch : c.Searching b₀ b (b₀.exchange c.request before answer after)) :
    Underway c b₀ (Join.awaitNotification (c.settle answer) () ⟨c.latest b₀, true⟩) b
      (b₀.exchange c.request before answer after)
  | noticed {b : Bench} {since : Chronicle} {wait : Bench.Reply} {code : Urc}
    (hasked : b₀.Asked c.request since b wait)
    (hnotice : c.notice? b₀ (b₀.asking c.request since) = some code) :
    Underway c b₀ (Join.awaitReply code (.awaited wait) ⟨c.latest b₀, true⟩) b
      (b₀.asking c.request since)

/-- When the timers of the wait expire. -/
def timers (w : JoinedWait) : List Nat :=
  w.deadline.expiresAt :: match w.reply with
    | some (.awaited answer) => [answer.timer.expiresAt]
    | _ => []

/-- While the wait goes on, codes may be published and the clock may go on, but not past its
timers. -/
theorem Underway.drifts {w : JoinedWait} (h : c.Underway b₀ w b es)
    (hblank : w.notification.isSome → c.notice? b₀ es = none) (hdrifts : b.Drifts b' fs)
    (hprompt : b'.now = b.now ∨ b'.board = b.board) (hlimit : b.now ≤ c.latest b₀)
    (htimers : ∀ t ∈ timers w, b.now ≤ t → b'.now ≤ t) :
    c.Underway b₀ w b' (es ++ fs) ∧ b'.now ≤ c.latest b₀ := by
  -- the deadline is one of the timers, and the clock does not pass a timer
  have hlatest : b'.now ≤ c.latest b₀ := by
    have hdeadline : w.deadline.expiresAt = c.latest b₀ := by cases h <;> rfl
    rw [← hdeadline] at hlimit ⊢
    exact htimers _ List.mem_cons_self hlimit
  refine ⟨?_, hlatest⟩
  cases h with
  | @both _ since wait hasked hsearch =>
    have hwait : b'.now ≤ b₀.now + b₀.delay :=
      hasked.not_past (htimers _ (by simp [timers, Join.awaitBoth]))
    exact .both (hasked.drifts hdrifts hwait) (hsearch.drifts (hblank rfl) hdrifts hprompt)
  | @answered _ before after answer hanswered htaken hsearch =>
    have hes : b₀.exchange c.request before answer after ++ fs =
        b₀.exchange c.request before answer (after ++ fs) := by
      simp [Bench.exchange]
    have hsearch' := hsearch.drifts (hblank rfl) hdrifts hprompt
    rw [hes] at hsearch' ⊢
    exact .answered (hanswered.drifts hdrifts) htaken hsearch'
  | @noticed _ since wait code hasked hnotice =>
    have hwait : b'.now ≤ b₀.now + b₀.delay :=
      hasked.not_past (htimers _ (by simp [timers, Join.awaitReply]))
    exact .noticed (hasked.drifts hdrifts hwait) (notice?_append hnotice fs)

/-- What a poll of the wait leads to: its end, or a stage at the same moment with no code that is
wanted, if one is still awaited. -/
inductive Step (c : JoinedCommand) (b₀ : Bench) (now : Nat) :
    Bench × Poll JoinedWait (Join.Outcome Unit Urc) → Prop where
  | ended {b : Bench} {outcome : Join.Outcome Unit Urc} {es : Chronicle}
    (h : c.Joined b₀ outcome b es) :
    Step c b₀ now (b, .ready outcome)
  | on {b : Bench} {w : JoinedWait} {es : Chronicle} (h : c.Underway b₀ w b es)
    (hblank : w.notification.isSome → c.notice? b₀ es = none) (hnow : b.now = now) :
    Step c b₀ now (b, .pending w)

variable {before since after : Chronicle} {answer : Except LinkError Bytes}
  {wait : Bench.Reply} {d : Timer}
  {code : Urc}

/-- The last thing that is polled is the deadline.  When it is polled for the first time it is not
over yet. -/
theorem step_deadline {stage : Timer → JoinedWait} (hd : d.expiresAt = c.latest b₀)
    (hlimit : b.now ≤ c.latest b₀)
    (hlate : d.polled = true → b.now = c.latest b₀ →
      c.Joined b₀ (.error (.operationTimeout c.terms.message)) b es)
    (hon : c.Underway b₀ (stage ⟨c.latest b₀, true⟩) b fs)
    (hblank : (stage ⟨c.latest b₀, true⟩).notification.isSome → c.notice? b₀ fs = none) :
    c.Step b₀ b.now (b, Join.orExpire c.terms b.now stage d) := by
  obtain ⟨expiresAt, polled⟩ := d
  obtain rfl : expiresAt = c.latest b₀ := hd
  unfold Join.orExpire Timer.poll
  split
  · rename_i h
    split at h
    · rename_i hdue
      exact .ended (hlate hdue.1 (Nat.le_antisymm hlimit hdue.2))
    · cases h
  · rename_i h
    split at h
    · cases h
    · obtain rfl := Poll.pending.inj h
      exact .on hon hblank rfl

theorem signals_notification (c : JoinedCommand) (b : Bench) :
    c.signals.notification () b = c.pollCode () b := rfl

theorem signals_reply_awaited (c : JoinedCommand) (wait : Bench.Reply) (b : Bench) :
    c.signals.reply (.awaited wait) b =
      ((b.pollReply wait).1, ((b.pollReply wait).2.mapNext .awaited).map c.settle) := rfl

/-- The answer is there, and the code is looked for. -/
theorem step_answered (hanswered : b₀.Answered c.request before answer after b)
    (htaken : c.terms.refuses (c.settle answer) = none)
    (hsearch : c.Searching b₀ b (b₀.exchange c.request before answer after))
    (hd : d.expiresAt = c.latest b₀) (hlimit : b.now ≤ c.latest b₀) :
    c.Step b₀ b.now (c.poll (Join.awaitNotification (c.settle answer) () d) b) := by
  rw [poll, Join.poll_awaitNotification, signals_notification, pollCode_eq]
  cases hfound : (b.board.unread c.ticket).find? c.wanted with
  | some code => exact .ended (.joined (hanswered.board _) htaken (hsearch.found hfound) hlimit
      (.inr hsearch.fresh))
  | none =>
    obtain ⟨hnotice, hsearch'⟩ := hsearch.on hfound
    exact step_deadline (b := c.search b) hd hlimit
      (fun _ hend => .unnoticed (hanswered.board _) htaken hnotice hend)
      (.answered (hanswered.board _) htaken hsearch') fun _ => hnotice

/-- The answer is there and the code is not. -/
theorem step_reply (hanswered : b₀.Answered c.request before answer [] b)
    (hnow : b.now = b₀.now + b₀.delay)
    (hsearch : c.Searching b₀ b (b₀.exchange c.request before answer []))
    (hd : d.expiresAt = c.latest b₀) (hlimit : b.now ≤ c.latest b₀) :
    c.Step b₀ b.now (match c.terms.refuses (c.settle answer) with
      | some e => (b, .ready (.error e))
      | none => c.poll (Join.awaitNotification (c.settle answer) () d) b) := by
  cases hrefuses : c.terms.refuses (c.settle answer) with
  | some e => exact .ended (.refused hanswered hnow hrefuses hlimit)
  | none => exact step_answered hanswered hrefuses hsearch hd hlimit

/-- What happened is still the beginning of it when the answer has come. -/
theorem asking_append (b₀ : Bench) (r : Request) (since fs : Chronicle)
    (answer : Except LinkError Bytes) :
    b₀.asking r since ++ (fs ++ [(b₀.now + b₀.delay, .answered answer)]) =
      b₀.exchange r (since ++ fs) answer [] := by
  simp [Bench.asking, Bench.exchange]

/-- The code is there and the answer is not. -/
theorem step_noticed (hasked : b₀.Asked c.request since b wait)
    (hnotice : c.notice? b₀ (b₀.asking c.request since) = some code)
    (hd : d.expiresAt = c.latest b₀) (hlimit : b.now ≤ c.latest b₀) :
    c.Step b₀ b.now (c.poll (Join.awaitReply code (.awaited wait) d) b) := by
  have hpolled : wait.timer.polled = true := by rw [hasked.timer]
  rw [poll, Join.poll_awaitReply, signals_reply_awaited]
  by_cases hdue : wait.timer.expiresAt ≤ b.now
  · obtain ⟨fs, -, hanswered, hnow, hnow', -⟩ := hasked.conclude hdue
    rw [Bench.pollReply_due hpolled hdue]
    simp only [Poll.mapNext, Poll.map, Join.Terms.close]
    have hlimit' : (b.conclude wait.after wait.answer).now ≤ c.latest b₀ := hnow ▸ hlimit
    cases hrefuses : c.terms.refuses (c.settle wait.answer) with
    | some e => exact .ended (.refused hanswered (hnow.trans hnow') hrefuses hlimit')
    | none =>
      -- the code was found while the request was unanswered, so it counts for the exchange
      have hnotice' := notice?_append hnotice (fs ++ [(b₀.now + b₀.delay, .answered wait.answer)])
      rw [asking_append] at hnotice'
      exact .ended (.joined hanswered hrefuses hnotice' hlimit' (.inl (hnow.trans hnow')))
  · have hearly : b.now < wait.timer.expiresAt := Nat.lt_of_not_le hdue
    rw [Bench.pollReply_early hpolled hearly]
    refine step_deadline hd hlimit (fun _ hend => .unanswered hasked ?_ hend)
      (.noticed hasked hnotice)
      fun h => absurd h Bool.false_ne_true
    simp only [hasked.timer, hend, latest] at hearly
    omega

/-- The answer is on its way, and the code is looked for. -/
theorem step_search (hasked : b₀.Asked c.request since b wait)
    (hsearch : c.Searching b₀ b (b₀.asking c.request since)) (hd : d.expiresAt = c.latest b₀)
    (hearly : d.polled = true → b.now < b₀.now + b₀.delay) (hlimit : b.now ≤ c.latest b₀) :
    c.Step b₀ b.now (Join.seekNotification c.terms c.signals (.awaited wait) () d b) := by
  rw [Join.seekNotification, signals_notification, pollCode_eq]
  cases hfound : (b.board.unread c.ticket).find? c.wanted with
  | some code =>
    -- found: the join goes on as it does with the code in hand
    exact step_noticed (b := c.search b) (hasked.board _) (hsearch.found hfound) hd hlimit
  | none =>
    obtain ⟨hnotice, hsearch'⟩ := hsearch.on hfound
    refine step_deadline (b := c.search b) hd hlimit
      (fun hpolled hend => .unanswered (hasked.board _) ?_ hend)
      (.both (hasked.board _) hsearch') fun _ => hnotice
    have hlt := hearly hpolled
    have hend : b.now = c.latest b₀ := hend
    simp only [hend, latest] at hlt
    omega

/-- The first poll. -/
theorem step_start (hseated : b₀.board.Seated c.ticket) :
    c.Step b₀ b₀.now (c.poll (c.start b₀.now) b₀) := by
  have hlimit : b₀.now ≤ c.latest b₀ := Nat.le_add_right _ _
  have hstart : c.start b₀.now = Join.awaitBoth .unsent () (.after b₀.now c.terms.limit) := rfl
  have hreply : c.signals.reply .unsent b₀ =
      ((b₀.send c.request).1, ((b₀.send c.request).2.mapNext .awaited).map c.settle) := rfl
  rw [poll, hstart, Join.poll_awaitBoth, hreply]
  -- the answer is there at once, or the join waits for it and searches meanwhile
  rcases b₀.send_cases c.request with
    ⟨before, b, hsend, hanswered, hnow, hdelay, hkeeps⟩ |
      ⟨since, b, wait, hsend, hasked, hnow, hkeeps⟩
  · have hsearch := (Searching.start hseated).keeps hkeeps hnow
    rw [hsend, ← hnow]
    exact step_reply (d := .after b.now c.terms.limit) hanswered (by rw [hnow, hdelay]; rfl) hsearch
      (by rw [hnow]; rfl) (hnow ▸ hlimit)
  · have hsearch := (Searching.start hseated).keeps hkeeps hnow
    rw [hsend, ← hnow]
    exact step_search (d := .after b.now c.terms.limit) hasked hsearch (by rw [hnow]; rfl)
      (fun h => nomatch h)
      (hnow ▸ hlimit)

/-- A later poll. -/
theorem Underway.step {w : JoinedWait} (h : c.Underway b₀ w b es) (hlimit : b.now ≤ c.latest b₀) :
    c.Step b₀ b.now (c.poll w b) := by
  cases h with
  | answered hanswered htaken hsearch => exact step_answered hanswered htaken hsearch rfl hlimit
  | noticed hasked hnotice => exact step_noticed hasked hnotice rfl hlimit
  | @both _ since wait hasked hsearch =>
    have hpolled : wait.timer.polled = true := by rw [hasked.timer]
    rw [poll, Join.poll_awaitBoth, signals_reply_awaited]
    by_cases hdue : wait.timer.expiresAt ≤ b.now
    · -- the answer comes first, and the search is looked at after it
      obtain ⟨fs, -, hanswered, hnow, hnow', hkeeps⟩ := hasked.conclude hdue
      rw [Bench.pollReply_due hpolled hdue]
      have hsearch' := hsearch.keeps hkeeps hnow
      rw [asking_append] at hsearch'
      have hstep := step_reply (d := ⟨c.latest b₀, true⟩) hanswered
        (hnow.trans hnow') hsearch' rfl (hnow ▸ hlimit)
      rw [hnow] at hstep
      exact hstep
    · have hearly : b.now < wait.timer.expiresAt := Nat.lt_of_not_le hdue
      rw [Bench.pollReply_early hpolled hearly]
      exact step_search (d := ⟨c.latest b₀, true⟩) hasked hsearch rfl
        (fun _ => by simpa [hasked.timer] using hearly) hlimit

end JoinedCommand

end Cellular
