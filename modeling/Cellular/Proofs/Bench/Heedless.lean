import Cellular.Proofs.Bench.Dispatch
/-!
# What others have still to read

A code that is published stays on the board until everybody who was seated has read it.  A procedure
that only reads from seats that it takes itself never sees it.  All it can notice is that the room
on the board gets short: a code that finds no room is lost.

So what others have still to read, and what happened before, can be put behind a bench
(`Bench.behind`), and an action is heedless when it is the same on the bench with that past and
without it, as long as no code is lost (`Heedless`).  The codes are put in front of what the others
will read, and the history in front of what will happen: both only grow at their other end, so there
is nothing to be said about how long they are.

There is one rule for each thing that is done on a bench, and rules for one thing after another.

The definition compares an action on the bench behind which a past is put with the same action on
the bench alone.  Loss is what makes this more than an equation: with a past in the way, a code may
find no room that would have found some.  So the comparison is under the condition that no more
codes are lost with the past than were before, and `Heedless` asks of an action that it never makes
a loss good.  Under that condition the past is the only difference, and can be handed on to what
follows (`bind`).
-/

namespace Cellular

/-! ## Boards with older codes

Older codes are put in front of what each holder reads.  They take up room, and are in nobody's way
otherwise. -/

namespace Board

variable {μ β : Type} {older older' : Nat → List μ}

/-- The board when the holder of every ticket has older codes to read first. -/
def behind (older : Nat → List μ) (b : Board μ) : Board μ :=
  { b with seats := b.seats.map fun s => (s.1, older s.1 ++ s.2) }

/-- No holder has more older codes to read. -/
def Shorter (older older' : Nat → List μ) : Prop :=
  ∀ ticket, (older ticket).length ≤ (older' ticket).length

/-- No older codes make no difference. -/
theorem behind_none (b : Board μ) : b.behind (fun _ => []) = b := by
  simp [behind]

/-- The same codes in front of two boards can be taken off again. -/
theorem behind_injective {b c : Board μ} (h : b.behind older = c.behind older) : b = c := by
  obtain ⟨issued, seats⟩ := b
  obtain ⟨issued', seats'⟩ := c
  obtain ⟨hissued, hseats⟩ := Board.mk.inj h
  have hseat : ∀ s s' : Nat × List μ, (s.1, older s.1 ++ s.2) =
      (s'.1, older s'.1 ++ s'.2) → s = s' := by
    rintro ⟨t, codes⟩ ⟨t', codes'⟩ heq
    obtain ⟨rfl, hcodes⟩ := Prod.mk.inj heq
    exact congrArg (Prod.mk t) (List.append_cancel_left hcodes)
  exact congr (congrArg Board.mk hissued) ((List.map_inj_right hseat).mp hseats)

/-- There is room just if no holder has too much to read. -/
theorem backlog_le_iff {b : Board μ} {room : Nat} :
    b.backlog ≤ room ↔ ∀ seat ∈ b.seats, seat.2.length ≤ room := by
  have hmax : (0 :: b.seats.map fun s => s.2.length).max? = some b.backlog := rfl
  rw [List.max?_le_iff hmax]
  simp only [List.forall_mem_cons, Nat.zero_le, true_and, List.forall_mem_map]

/-- Where there is room beside more older codes, there is room beside fewer. -/
theorem backlog_behind_le {b : Board μ} (h : Shorter older older') :
    (b.behind older).backlog ≤ (b.behind older').backlog := by
  have hall := backlog_le_iff.mp (Nat.le_refl (b.behind older').backlog)
  refine backlog_le_iff.mpr fun seat hseat => ?_
  obtain ⟨s, hs, rfl⟩ := List.mem_map.mp hseat
  have hroom := hall _ (List.mem_map_of_mem (f := fun s => (s.1, older' s.1 ++ s.2)) hs)
  have hle := h s.1
  simp only [List.length_append] at hroom ⊢
  omega

/-- A code that can be published beside more older codes can be published beside fewer, and beside
none. -/
theorem publish?_behind {b : Board μ} {code : μ} (h : (b.behind older').publish? code ≠ none) :
    ∃ b', b.publish? code = some b' ∧
      ∀ older, Shorter older older' → (b.behind older).publish? code = some (b'.behind older) := by
  have hroom : (b.behind older').backlog < capacity :=
    Decidable.not_not.mp fun hfull => h (if_neg hfull)
  have hall : ∀ older, Shorter older older' → (b.behind older).publish? code =
      some (behind older { b with seats := b.seats.map fun s => (s.1, s.2 ++ [code]) }) := by
    intro older hle
    rw [publish?, if_pos (Nat.lt_of_le_of_lt (backlog_behind_le hle) hroom)]
    simp [behind]
  refine ⟨_, ?_, hall⟩
  have hnone := hall (fun _ => []) fun _ => Nat.zero_le _
  rwa [behind_none, behind_none] at hnone

/-- To sit down is the same with older codes and without. -/
theorem subscribe?_behind {b : Board μ} (h : older b.issued = []) :
    (b.behind older).subscribe? = b.subscribe?.map fun seat => (seat.1, seat.2.behind older) := by
  by_cases hfree : b.seats.length < seatCount
  · simp [subscribe?, behind, hfree, h]
  · simp [subscribe?, behind, hfree]

theorem unsubscribe_behind (b : Board μ) (ticket : Nat) :
    (b.behind older).unsubscribe ticket = (b.unsubscribe ticket).behind older := by
  simp only [unsubscribe, behind, List.filter_map]
  rfl

/-- Who has no older codes to read reads the same. -/
theorem nextMatching_behind {b : Board μ} {ticket : Nat} (h : older ticket = [])
    (filter : μ → Option β) :
    (b.behind older).nextMatching ticket filter =
      ((b.nextMatching ticket filter).1, (b.nextMatching ticket filter).2.behind older) := by
  -- no older codes stand before this ticket, so it reads the same
  have hunread : (b.behind older).unread ticket = b.unread ticket := by
    rw [unread, unread, behind, find?_map_codes _ _ fun s => older s.1 ++ s.2]
    cases hseat : b.seats.find? (·.1 = ticket) with
    | none => rfl
    | some seat =>
      have hticket : seat.1 = ticket := by simpa using List.find?_some hseat
      simp [hticket, h]
  have hset : ∀ codes, (b.behind older).setUnread ticket codes =
      (b.setUnread ticket codes).behind older := by
    intro codes
    simp only [setUnread, behind, List.map_map, Board.mk.injEq, true_and]
    refine List.map_congr_left fun s _ => ?_
    by_cases hs : s.1 = ticket
    · simp [hs, h]
    · simp [hs]
  simp only [nextMatching, hunread, hset]

end Board

/-! ## A past behind a bench

The past of a bench has two parts, older codes for the holders of seats and what happened before.
The log is no part of it; that is how losses are counted. -/

/-- What others have not read, and what happened before. -/
structure Past where
  /-- What the holder of each ticket has not read. -/
  unread : Nat → List Urc
  /-- What happened. -/
  history : Chronicle

namespace Past

/-- Nobody has more to read. -/
def Within (p p' : Past) : Prop := Board.Shorter p.unread p'.unread

/-- It says nothing about the tickets from `n` on. -/
def EndsBelow (p : Past) (n : Nat) : Prop := ∀ ticket, n ≤ ticket → p.unread ticket = []

theorem Within.refl (p : Past) : p.Within p := fun _ => Nat.le_refl _

/-- What is within a past says nothing about the tickets either. -/
theorem EndsBelow.within {p p' : Past} {n : Nat} (h : p'.EndsBelow n) (hle : p.Within p') :
    p.EndsBelow n := by
  intro ticket ht
  have hlength := hle ticket
  rw [h ticket ht] at hlength
  exact List.eq_nil_of_length_eq_zero (Nat.le_zero.mp hlength)

end Past

namespace Bench

/-- The bench with a past behind it. -/
def behind (b : Bench) (p : Past) : Bench :=
  { b with board := b.board.behind p.unread, history := p.history ++ b.history }

/-- How many codes were lost. -/
def losses (b : Bench) : Nat := b.log.countP fun r => r.2 = .lost

/-- What happens comes behind the past. -/
theorem tell_behind (b : Bench) (h : Happening) (p : Past) :
    (b.behind p).tell h = (b.tell h).behind p := by
  simp [behind, tell]

/-- Only a loss that is noted counts. -/
theorem losses_note (b : Bench) (r : Record) :
    (b.note r).losses = b.losses + if r = .lost then 1 else 0 := by
  by_cases h : r = .lost
  · simp [losses, note, h]
  · simp [losses, note, h]

end Bench

/-- What follows a poll, depending on how it went. -/
def Poll.either {ι α γ : Type} (pending : ι → γ) (ready : α → γ) : Poll ι α → γ
  | .pending i => pending i
  | .ready a => ready a

/-! ## Heedless actions

An action gives a bench and a value.  The rules put actions together; what an action gives may be
used by what follows, so long as it does not depend on the past. -/

variable {α β γ : Type} {n : Nat}

/-- An action that takes no notice of what the holders of tickets below `n` have not read, nor of
the history.  A past makes no difference to it, unless a code is lost. -/
structure Heedless (n : Nat) (act : Bench → Bench × β) : Prop where
  losses : ∀ b, n ≤ b.board.issued → b.losses ≤ (act b).1.losses
  issued : ∀ b, n ≤ b.board.issued → n ≤ (act b).1.board.issued
  behind : ∀ b p', n ≤ b.board.issued → p'.EndsBelow n → (act (b.behind p')).1.losses ≤ b.losses →
    ∀ p, p.Within p' → act (b.behind p) = ((act b).1.behind p, (act b).2)

namespace Heedless

variable {act act' : Bench → Bench × β}

/-- It is what an action does that counts. -/
theorem congr (h : Heedless n act) (heq : ∀ b, act' b = act b) : Heedless n act' := by
  obtain rfl : act' = act := funext heq
  exact h

/-- An action that does the same with any past. -/
theorem of_commutes (hlosses : ∀ b, n ≤ b.board.issued → b.losses ≤ (act b).1.losses)
    (hissued : ∀ b, n ≤ b.board.issued → n ≤ (act b).1.board.issued)
    (h : ∀ b p, n ≤ b.board.issued → p.EndsBelow n →
      act (b.behind p) = ((act b).1.behind p, (act b).2)) :
    Heedless n act :=
  ⟨hlosses, hissued, fun b _ hb hends _ p hle => h b p hb (hends.within hle)⟩

/-- To give something that has nothing to do with the past. -/
theorem give {f : Bench → β} (h : ∀ b p, f (b.behind p) = f b) : Heedless n fun b => (b, f b) :=
  of_commutes (fun _ _ => Nat.le_refl _) (fun _ => id) fun b p _ _ =>
    congrArg (Prod.mk (b.behind p)) (h b p)

/-- To give a value. -/
theorem pure (v : β) : Heedless n fun b => (b, v) := give fun _ _ => rfl

/-- One action after another. -/
theorem bind {k : β → Bench → Bench × γ} (h : Heedless n act)
    (hk : ∀ b, n ≤ b.board.issued → Heedless n (k (act b).2)) :
    Heedless n fun b => k (act b).2 (act b).1 where
  losses b hb := Nat.le_trans (h.losses b hb) ((hk b hb).losses _ (h.issued b hb))
  issued b hb := (hk b hb).issued _ (h.issued b hb)
  behind b p' hb hends hlossless p hle := by
    -- what is lost by the first of the two stays lost
    have hfirst : (act (b.behind p')).1.losses ≤ b.losses :=
      Nat.le_trans ((hk (b.behind p') hb).losses _ (h.issued (b.behind p') hb)) hlossless
    have hact := h.behind b p' hb hends hfirst
    have hsecond : (k (act b).2 ((act b).1.behind p')).1.losses ≤ (act b).1.losses := by
      rw [hact p' (Past.Within.refl p')] at hlossless
      exact Nat.le_trans hlossless (h.losses b hb)
    rw [hact p hle]
    exact (hk b hb).behind _ p' (h.issued b hb) hends hsecond p hle

/-- An action that gives nothing, and another one after it. -/
theorem andThen {f : Bench → Bench} {k : Bench → Bench × γ} (h : Heedless n fun b => (f b, ()))
    (hk : Heedless n k) :
    Heedless n fun b => k (f b) :=
  Heedless.bind (k := fun _ => k) h fun _ _ => hk

/-- A look at something that has nothing to do with the past, and what is decided by it. -/
theorem look {f : Bench → β} {k : β → Bench → Bench × γ} (h : ∀ b p, f (b.behind p) = f b)
    (hk : ∀ v, Heedless n (k v)) : Heedless n fun b => k (f b) b :=
  Heedless.bind (k := k) (give h) fun b _ => hk (f b)

/-- A poll, and what follows it. -/
theorem branch {ι α : Type} {act : Bench → Bench × Poll ι α} {p : ι → Bench → Bench × γ}
    {r : α → Bench → Bench × γ}
    (h : Heedless n act) (hpending : ∀ i, Heedless n (p i)) (hready : ∀ a, Heedless n (r a)) :
    Heedless n fun b => (act b).2.either p r (act b).1 := by
  refine Heedless.bind (k := Poll.either p r) h fun b _ => ?_
  cases (act b).2 with
  | pending i => exact hpending i
  | ready a => exact hready a

theorem tell (h : Happening) : Heedless n fun b => (b.tell h, ()) :=
  of_commutes (fun _ _ => Nat.le_refl _) (fun _ => id) fun b p _ _ =>
    congrArg (·, ()) (b.tell_behind h p)

/-- A line is the only thing that can be lost. -/
theorem emit (line : Bytes) : Heedless n fun b => (b.emit line, ()) := by
  cases hcode : Urc.ofSentLine? line with
  | none => exact (pure ()).congr fun b => by simp only [Bench.emit, hcode]
  | some code =>
    simp only [Bench.emit, hcode]
    refine ⟨fun b _ => ?_, fun b hb => ?_, fun b p' _ _ hlossless p hle => ?_⟩
    · cases b.board.publish? code with
      | some board => exact Nat.le_refl _
      | none => exact (b.losses_note .lost).symm ▸ Nat.le_add_right _ _
    · cases hpublish : b.board.publish? code with
      | some board => exact (Board.publish?_eq_some hpublish).symm ▸ hb
      | none => exact hb
    · -- there is room behind the longer past, hence behind the shorter one
      have hroom : (b.board.behind p'.unread).publish? code ≠ none := by
        intro hfull
        have hboard : (b.behind p').board.publish? code = none := hfull
        have hlost := (b.behind p').losses_note .lost
        simp only [hboard, hlost, if_true] at hlossless
        exact Nat.not_succ_le_self _ hlossless
      obtain ⟨board, hpublish, hbehind⟩ := Board.publish?_behind hroom
      have hboard : (b.behind p).board.publish? code = some (board.behind p.unread) :=
        hbehind p.unread hle
      simp only [hboard, hpublish]
      simp [Bench.behind, Bench.tell]

theorem emitAll (lines : List Bytes) : Heedless n fun b => (b.emitAll lines, ()) := by
  induction lines with
  | nil => exact pure ()
  | cons line lines ih => exact (emit line).andThen ih

theorem conclude (after : List Bytes) (answer : Except LinkError Bytes) :
    Heedless n fun b => (b.conclude after answer, ()) :=
  (emitAll after).andThen (tell (.answered answer))

/-- The answer comes, and is given. -/
theorem answered (after : List Bytes) (answer : Except LinkError Bytes) (v : β) :
    Heedless n fun b => (b.conclude after answer, v) :=
  (conclude after answer).andThen (pure v)

/-- A poll for an answer. -/
theorem pollReply (wait : Bench.Reply) : Heedless n fun b => b.pollReply wait := by
  have hpoll : Heedless n fun b => (b, wait.timer.poll b.now) := give fun _ _ => rfl
  refine (hpoll.branch (fun timer => pure (.pending { wait with timer })) fun _ =>
    answered wait.after wait.answer (.ready wait.answer)).congr fun b => ?_
  unfold Bench.pollReply
  cases wait.timer.poll b.now <;> rfl

/-- The far end has the command and has begun its turn. -/
theorem opened (r : Request) : Heedless n fun b => (b.opened r, b.turn) := by
  have hbegin : Heedless n fun b => ({ (b.note (.sent r)).tell (.sent r) with
      script := b.script.tail, cancelled := b.cancelled || b.turn.cancels }, b.turn) := by
    refine of_commutes (fun b _ => ?_) (fun _ => id) fun b p _ _ => ?_
    · show b.losses ≤ (b.note (.sent r)).losses
      simp [Bench.losses_note]
    · simp [Bench.behind, Bench.note, Bench.tell, Bench.turn, Bench.turnAt]
  exact Heedless.bind (k := fun turn b => (b.emitAll turn.before, turn)) hbegin fun b _ =>
    (emitAll b.turn.before).andThen (pure b.turn)

/-- A command. -/
theorem send (r : Request) : Heedless n fun b => b.send r := by
  refine (Heedless.bind (k := fun turn b =>
    turn.delay.elim (b.conclude turn.after turn.answer, .ready turn.answer)
    fun span => b.pollReply ⟨.after b.now span, turn.after, turn.answer⟩) (opened r) fun b _ =>
      ?_).congr fun b => ?_
  · cases b.turn.delay with
    | none => exact answered b.turn.after b.turn.answer _
    | some span =>
      exact look (f := Bench.now) (k := fun now b => b.pollReply ⟨.after now span, _, _⟩)
        (fun _ _ => rfl)
        fun _ => pollReply _
  · rw [b.send_eq r]
    cases b.turn.delay <;> rfl

/-- A seat that is taken has a ticket from `n` on. -/
theorem subscribe {k : Option Nat → Bench → Bench × β} (hnone : Heedless n (k none))
    (hsome : ∀ ticket, n ≤ ticket → Heedless n (k (some ticket))) :
    Heedless n fun b => k b.subscribe.2 b.subscribe.1 := by
  -- whether a seat is free does not depend on the past, and neither does its ticket
  have hseat : Heedless n Bench.subscribe := by
    refine of_commutes (fun b _ => ?_) (fun b hb => ?_) fun b p hb hends => ?_
    · unfold Bench.subscribe
      split <;> exact Nat.le_refl _
    · unfold Bench.subscribe
      split
      · rename_i ticket board htaken
        unfold Board.subscribe? at htaken
        split at htaken
        · cases htaken
          exact Nat.le_succ_of_le hb
        · cases htaken
      · exact hb
    · have hboard : (b.behind p).board.subscribe? = _ := Board.subscribe?_behind (hends _ hb)
      simp only [Bench.subscribe, hboard]
      cases b.board.subscribe? with
      | none => rfl
      | some seat => rfl
  refine hseat.bind fun b hb => ?_
  unfold Bench.subscribe
  split
  · rename_i ticket board htaken
    rw [(Board.tickets_subscribe htaken).1]
    exact hsome _ hb
  · exact hnone

/-- To give a seat up. -/
theorem unsubscribe (ticket : Nat) : Heedless n fun b => (b.unsubscribe ticket, ()) := by
  refine of_commutes (fun _ _ => Nat.le_refl _) (fun _ => id) fun b p _ _ => ?_
  simp only [Bench.unsubscribe, Bench.behind, Board.unsubscribe_behind]

theorem askParent (call : ParentCall) : Heedless n fun b => b.askParent call := by
  refine of_commutes (fun b _ => ?_) (fun _ => id) fun _ _ _ _ => rfl
  show b.losses ≤ (b.note (.parent call)).losses
  simp [Bench.losses_note]

theorem askParentModes : Heedless n fun b => b.askParentModes := by
  refine of_commutes (fun b _ => ?_) (fun _ => id) fun _ _ _ _ => rfl
  show b.losses ≤ (b.note .parentModes).losses
  simp [Bench.losses_note]

/-! ## Waits

A joined wait is heedless if the polls of its two signals are.  The stages need not be told apart
for that: a poll is passes, and each pass polls a signal and decides. -/

section

variable {ι κ ρ ν : Type} {signals : Join.Signals Bench ι κ ρ ν}

/-- The second half of a pass. -/
theorem passNotification (hnotification : ∀ i, Heedless n (signals.notification i))
    (hnow : ∀ b p, signals.now (b.behind p) = signals.now b) (terms : Join.Terms)
    (j : Join ι κ ρ ν) :
    Heedless n fun b => j.passNotification terms signals b := by
  cases hj : j.notification with
  | none =>
    refine (give (f := fun b => j.passDeadline terms (signals.now b)) fun b p => ?_).congr fun b =>
      ?_
    · rw [hnow]
    · simp only [Join.passNotification, hj]
  | some wait =>
    have hpending : ∀ wait : κ, Heedless n fun b =>
        (b, { j with notification := some wait }.passDeadline terms (signals.now b)) :=
      fun wait => give fun b p => by rw [hnow]
    refine ((hnotification wait).branch hpending fun v => pure (j.onNotification v)).congr fun b =>
      ?_
    simp only [Join.passNotification, hj]
    rcases signals.notification wait b with ⟨b', wait' | v⟩ <;> rfl

/-- One pass. -/
theorem pass (hreply : ∀ i, Heedless n (signals.reply i))
    (hnotification : ∀ i, Heedless n (signals.notification i))
    (hnow : ∀ b p, signals.now (b.behind p) = signals.now b) (terms : Join.Terms)
    (j : Join ι κ ρ ν) :
    Heedless n fun b => j.pass terms signals b := by
  cases hj : j.reply with
  | none =>
    exact (passNotification hnotification hnow terms j).congr fun b => by simp only [Join.pass, hj]
  | some wait =>
    have hpending : ∀ wait : ι, Heedless n fun b =>
        { j with reply := some wait }.passNotification terms signals b :=
      fun wait => passNotification hnotification hnow terms _
    refine ((hreply wait).branch hpending fun r => pure (j.onReply terms r)).congr fun b => ?_
    simp only [Join.pass, hj]
    rcases signals.reply wait b with ⟨b', wait' | r⟩ <;> rfl

/-- Several passes. -/
theorem passes (hreply : ∀ i, Heedless n (signals.reply i))
    (hnotification : ∀ i, Heedless n (signals.notification i))
    (hnow : ∀ b p, signals.now (b.behind p) = signals.now b) (terms : Join.Terms) (count : Nat)
    (j : Join ι κ ρ ν) :
    Heedless n fun b => Join.passes terms signals count j b := by
  induction count generalizing j with
  | zero => exact pure _
  | succ count ih =>
    refine (Heedless.bind (k := fun pass b => match pass with
      | .ended outcome => (b, .ready outcome)
      | .blocked j => (b, .pending j)
      | .again j => Join.passes terms signals count j b)
      (pass hreply hnotification hnow terms j) fun b _ => ?_).congr fun b => ?_
    · cases (j.pass terms signals b).2 with
      | ended outcome => exact pure _
      | blocked j => exact pure _
      | again j => exact ih j
    · simp only [Join.passes]
      rcases j.pass terms signals b with ⟨b', outcome | j' | j'⟩ <;> rfl

end

/-- The wait for the reply of a joined command. -/
theorem reply (c : JoinedCommand) (i : JoinedReply) : Heedless n fun b => c.signals.reply i b := by
  have hmapped : ∀ {act : Bench → Bench × Poll Bench.Reply (Except LinkError Bytes)},
    Heedless n act →
      Heedless n fun b =>
        ((act b).1, ((act b).2.mapNext JoinedReply.awaited).map c.settle) := fun h =>
    Heedless.bind (k := fun poll b => (b, (poll.mapNext JoinedReply.awaited).map c.settle)) h
      fun _ _ => pure _
  cases i with
  | unsent => exact hmapped (send c.request)
  | awaited wait => exact hmapped (pollReply wait)

/-- To read from a seat of one's own. -/
theorem notification {c : JoinedCommand} (h : n ≤ c.ticket) (i : Unit) :
    Heedless n fun b => c.signals.notification i b := by
  have hlosses : ∀ b, (c.pollCode i b).1.losses = b.losses := fun b => by
    unfold JoinedCommand.pollCode
    split <;> rfl
  have hissued : ∀ b, (c.pollCode i b).1.board.issued = b.board.issued := fun b => by
    rw [JoinedCommand.pollCode_eq]
    split <;> rfl
  refine of_commutes (fun b _ => Nat.le_of_eq (hlosses b).symm) (fun b hb => (hissued b).symm ▸ hb)
    fun b p _ hends => ?_
  show c.pollCode i (b.behind p) = ((c.pollCode i b).1.behind p, (c.pollCode i b).2)
  -- the ticket is younger than the past, so no older codes stand before it
  have hnext : (b.behind p).board.nextMatching c.ticket _ = _ :=
    Board.nextMatching_behind (hends c.ticket h) fun code =>
      if c.wanted code then some code else none
  unfold JoinedCommand.pollCode
  rw [hnext]
  rcases b.board.nextMatching c.ticket fun code => if c.wanted code then some code else none with
    ⟨_ | code, board⟩ <;> rfl

/-- A joined command that reads from a seat of its own. -/
theorem join {c : JoinedCommand} (h : n ≤ c.ticket) (w : JoinedWait) :
    Heedless n fun b => c.poll w b :=
  passes (reply c) (notification h) (fun _ _ => rfl) c.terms 3 w

end Heedless

end Cellular
