import Cellular.Proofs.Bench.Halting
import Cellular.Proofs.Procedure.Conduct
/-!
# The commands that are sent, one by one

A poll of a procedure sends some commands, and each of them finds the bench in some state
(`Procedure.dispatches`).  Those are all the commands that the history tells of.

Codes of conduct are kept on a bench.  Whoever keeps books on the board, which seats are held and
which are not, only has to follow four things: a code is published, the holder of a seat reads, a
seat is taken, and the seat that was taken last is given up (`Custody`).  Books may also tell of the
history (`Stewardship`).  A procedure that abides by a code of conduct then sends each of its
commands in keeping with the books (`Procedure.Abides.advance`), through every run to its end
(`Rehearsal.abides_run`).

The induction for codes of conduct goes through three layers.  Within a poll it is on the tree, with
the seats that are held as a parameter (`Procedure.Abides.advance`).  From poll to poll the
hypothesis is that the procedure in flight abides with the seats it holds then
(`Flight.Abides.poll`).  And over a run it is on the rounds; between two polls codes may be
published, which books allow for.  A joined command reads through its stages, and there books are
carried by what every poll of a join keeps.
-/

namespace Cellular

variable {α : Type}

/-! ## Publishing and reading

Everything that the far end and the background do comes down to publishing codes and writing down
what happened.  So a property that both keep is kept by all of it. -/

/-- What is true of a board stays true when a code is published. -/
def Board.Published (P : Board Urc → Prop) : Prop :=
  ∀ board code board', P board → board.publish? code = some board' → P board'

/-- What is true of a bench is said of its board and its history, and stays true when a code is
published, and when something happens that is no code. -/
structure Bench.Published (J : Bench → Prop) : Prop where
  frame : ∀ {b b' : Bench}, J b → b'.board = b.board → b'.history = b.history → J b'
  tell : ∀ {b : Bench} {h : Happening}, h.code? = none → J b → J (b.tell h)
  publish : ∀ {b : Bench} {code : Urc} {board : Board Urc}, J b →
    b.board.publish? code = some board →
    J ({ b with board }.tell (.published code))

namespace Bench.Published

variable {J : Bench → Prop} {b : Bench}

/-- It stays true when a line is emitted. -/
theorem emit (hJ : Published J) (hb : J b) (line : Bytes) : J (b.emit line) := by
  unfold Bench.emit
  split
  · exact hb
  · split
    · rename_i hpublish
      exact hJ.publish hb hpublish
    · exact hJ.frame hb rfl rfl

/-- So it does for several lines. -/
theorem emitAll (hJ : Published J) (hb : J b) (lines : List Bytes) : J (b.emitAll lines) := by
  induction lines generalizing b with
  | nil => exact hb
  | cons line lines ih => exact ih (hJ.emit hb line)

/-- So it does when an answer comes. -/
theorem conclude (hJ : Published J) (hb : J b) (after : List Bytes)
    (answer : Except LinkError Bytes) :
    J (b.conclude after answer) := hJ.tell rfl (hJ.emitAll hb after)

/-- So it does at a poll for an answer. -/
theorem pollReply (hJ : Published J) (hb : J b) (r : Reply) : J (b.pollReply r).1 := by
  unfold Bench.pollReply
  split
  · exact hb
  · exact hJ.conclude hb _ _

/-- So it does when a turn is opened. -/
theorem opened (hJ : Published J) (hb : J b) (r : Request) : J (b.opened r) := by
  have hnoted : J (b.note (.sent r)) := hJ.frame hb rfl rfl
  have htold : J ((b.note (.sent r)).tell (.sent r)) := hJ.tell rfl hnoted
  have hscript : J { (b.note (.sent r)).tell (.sent r) with
      script := b.script.tail, cancelled := b.cancelled || b.turn.cancels } :=
      hJ.frame htold rfl rfl
  exact hJ.emitAll hscript _

/-- So it does when a command is sent. -/
theorem send (hJ : Published J) (hb : J b) (r : Request) : J (b.send r).1 := by
  have hopened := hJ.opened hb r
  rw [send_eq]
  split
  · exact hJ.conclude hopened _ _
  · exact hJ.pollReply hopened _

/-- So it does when an event happens. -/
theorem happen (hJ : Published J) (hb : J b) (event : Event) : J (b.happen event) := by
  cases event with
  | line line => exact hJ.emit hb line
  | cancel => exact hJ.frame hb rfl rfl

/-- So it does when the background has its turn. -/
theorem agenda (hJ : Published J) (hb : J b) (agenda : Agenda) : J (agenda.poll b).1 := by
  unfold Agenda.poll
  split
  · exact hb
  · split
    · exact hb
    · exact hJ.happen hb _

/-- The holder of the ticket reads, and codes are published. -/
theorem joined (hJ : Published J) (c : JoinedCommand)
    (hread : ∀ (b : Bench) codes, J b → J { b with board := b.board.setUnread c.ticket codes })
    (hb : J b) (w : JoinedWait) :
    J (c.poll w b).1 := by
  have hcode : ∀ b : Bench, J b → J (c.signals.notification () b).1 := fun b hb => by
    rw [JoinedCommand.signals_notification, JoinedCommand.pollCode_eq]
    split <;> exact hread _ _ hb
  have hreply : ∀ i b, J b → J (c.signals.reply i b).1 := fun i b hb => by
    cases i with
    | unsent => exact hJ.send hb _
    | awaited wait => exact hJ.pollReply hb wait
  -- the rule for a join asks for each step on its own: a poll of either signal
  have hkept : Join.Kept c.signals (fun _ b => J b) (fun _ b => J b) fun b => J b := by
    refine ⟨fun _ _ h => h, fun _ _ h => h, fun {i b b' i'} h hi => ?_, fun {i b b' r} h hr => ?_,
      fun _ _ => hcode, fun _ => hcode⟩
    · have hpoll := hreply i b h
      rwa [hi] at hpoll
    · have hpoll := hreply i b h
      rwa [hr] at hpoll
  have hw : w.Holds (fun _ b => J b) (fun b => J b) b := by
    unfold Join.Holds
    split <;> exact hb
  exact hkept.over c.terms hw

end Bench.Published

/-! ## The commands of a poll

A poll may send several commands, if their answers come at once.  They are listed with the bench
that each of them finds, and compared with what the poll has written to the history. -/

namespace Procedure

/-- The commands that are sent up to the first wait that is not over, each with the bench that it
finds. -/
def dispatches : Procedure α → Bench → List (Request × Bench)
  | done _, _ => []
  | send r k, b => (r, b) :: match b.send r with
    | (b, .ready answer) => (k answer).dispatches b
    | (_, .pending _) => []
  | pause span k, b =>
    match (Timer.after b.now span).poll b.now with
    | .ready () => k.dispatches b
    | .pending _ => []
  | observe k, b => (k b.cancelled).dispatches (b.tell (.looked b.cancelled))
  | subscribe k, b => (k b.subscribe.2).dispatches b.subscribe.1
  | unsubscribe ticket k, b => k.dispatches (b.unsubscribe ticket)
  | join c k, b => (c.request, b) :: match c.poll (c.start b.now) b with
    | (b, .ready outcome) => (k outcome).dispatches b
    | (_, .pending _) => []
  | parent call k, b => (k (b.askParent call).2).dispatches (b.askParent call).1
  | parentModes k, b => (k b.askParentModes.2).dispatches b.askParentModes.1

end Procedure

/-- The commands that a poll sends, each with the bench that it finds. -/
def Flight.dispatches : Flight α → Bench → List (Request × Bench)
  | start p, b => p.dispatches b
  | reply wait k, b =>
    match b.pollReply wait with
    | (b, .ready answer) => (k answer).dispatches b
    | (_, .pending _) => []
  | pause timer k, b =>
    match timer.poll b.now with
    | .ready () => k.dispatches b
    | .pending _ => []
  | join c wait k, b =>
    match c.poll wait b with
    | (b, .ready outcome) => (k outcome).dispatches b
    | (_, .pending _) => []

/-- The history tells of these commands, and of no others. -/
def Bench.Tells (b b' : Bench) (sent : List (Request × Bench)) : Prop :=
  ∃ es : Chronicle, b'.history = b.history ++ es ∧ es.requests = sent.map fun d => (d.2.now, d.1)

namespace Bench

variable {b b₁ b' : Bench} {sent sent' : List (Request × Bench)}

theorem Tells.of_eq (h : b'.history = b.history) : b.Tells b' [] :=
  ⟨[], by rw [h, List.append_nil], rfl⟩

/-- What is told in two parts is told as a whole. -/
theorem Tells.trans (h : b.Tells b₁ sent) (h' : b₁.Tells b' sent') :
    b.Tells b' (sent ++ sent') := by
  obtain ⟨es, hes, hsent⟩ := h
  obtain ⟨fs, hfs, hsent'⟩ := h'
  refine ⟨es ++ fs, by rw [hfs, hes, List.append_assoc], ?_⟩
  rw [Chronicle.requests_append, hsent, hsent', List.map_append]

theorem Tells.of_quiet {es : Chronicle} (h : b'.history = b.history ++ es)
    (hquiet : es.requests = []) : b.Tells b' [] :=
  ⟨es, h, hquiet⟩

/-- An answer that comes tells of no command. -/
theorem tells_pollReply (b : Bench) (wait : Reply) : b.Tells (b.pollReply wait).1 [] := by
  unfold pollReply
  split
  · exact .of_eq rfl
  · obtain ⟨es, hquiet, hkeeps, -⟩ := b.keeps_conclude wait.after wait.answer
    refine .of_quiet hkeeps.history ?_
    rw [Chronicle.requests_append, hquiet.requests]
    rfl

/-- A command that is sent is told of, with the bench that it found. -/
theorem tells_send (b : Bench) (r : Request) : b.Tells (b.send r).1 [(r, b)] := by
  rcases b.send_cases r with
    ⟨before, b', hsend, hanswered, -⟩ | ⟨since, b', wait, hsend, hasked, -⟩ <;> rw [hsend]
  · exact ⟨_, hanswered.grows.history, hanswered.requests_eq⟩
  · exact ⟨_, hasked.grows.history, congrArg ((b.now, r) :: ·) hasked.quiet.requests⟩

end Bench

/-! ## Joined commands

A joined command is sent by the first poll of its wait and by no other.  So a wait that goes on is
one whose command has been asked, which is what a flight that is polled again has to know
(`Flight.HasAsked`). -/

namespace JoinedCommand

variable {c : JoinedCommand} {b b' : Bench} {sent : List (Request × Bench)}

/-- The command is sent already. -/
def Asked (i : JoinedReply) : Prop := i ≠ .unsent

/-- It is not for the wait to send the command any more. -/
def HasAsked (w : JoinedWait) : Prop := ∀ i, w.reply = some i → Asked i

theorem tells_reply (c : JoinedCommand) (wait : Bench.Reply) (b : Bench) :
    b.Tells (c.signals.reply (.awaited wait) b).1 [] := b.tells_pollReply wait

theorem tells_code (c : JoinedCommand) (b : Bench) :
    b.Tells (c.signals.notification () b).1 [] := by
  rw [signals_notification, pollCode_eq]
  split <;> exact .of_eq rfl

/-- After the first poll the command is sent. -/
theorem reply_pending {i i' : JoinedReply} (h : c.signals.reply i b = (b', .pending i')) :
    i' ≠ .unsent := by
  have hawaited : ∀ p : Poll Bench.Reply (Except LinkError Bytes),
      (p.mapNext JoinedReply.awaited).map c.settle ≠ .pending .unsent := by
    intro p
    cases p <;> simp [Poll.mapNext, Poll.map]
  rintro rfl
  cases i with
  | unsent => exact hawaited _ (congrArg Prod.snd h)
  | awaited wait => exact hawaited _ (congrArg Prod.snd h)

/-- A poll of the wait tells of the commands that its reply tells of. -/
theorem kept_tells (c : JoinedCommand) {b : Bench} {sent : List (Request × Bench)}
    {A : JoinedReply → Bench → Prop} (hA : ∀ i d, Asked i ∧ b.Tells d sent → A i d)
    (hreply : ∀ i d, A i d → b.Tells (c.signals.reply i d).1 sent) :
    Join.Kept c.signals A (fun i d => Asked i ∧ b.Tells d sent) fun d => b.Tells d sent := by
  have hcode : ∀ d, b.Tells d sent → b.Tells (c.signals.notification () d).1 sent := fun d h => by
    simpa using h.trans (c.tells_code d)
  refine ⟨hA, fun _ _ h => h.2, fun {i d d' i'} h hi => ⟨reply_pending hi, ?_⟩,
    fun {i d d' r} h hr => ?_, fun _ _ d h => ⟨h.1, hcode d h.2⟩, fun _ => hcode⟩
  · have hpoll := hreply i d h
    rwa [hi] at hpoll
  · have hpoll := hreply i d h
    rwa [hr] at hpoll

/-- A poll of a joined wait tells of the commands that its reply tells of. -/
theorem tells_poll {w : JoinedWait} {A : JoinedReply → Bench → Prop}
    (h : Join.Kept c.signals A (fun i d => Asked i ∧ b.Tells d sent) fun d => b.Tells d sent)
    (hw : w.Holds A (fun d => b.Tells d sent) b) :
    b.Tells (c.poll w b).1 sent ∧ ∀ b' w', c.poll w b = (b', .pending w') → HasAsked w' := by
  refine ⟨h.over c.terms hw, fun b' w' heq i hi => ?_⟩
  have hpoll := h.poll c.terms hw
  have heq : w.poll c.terms c.signals b = (b', .pending w') := heq
  simp only [heq, Join.Holds, hi] at hpoll
  exact hpoll.1

/-- The first poll sends the command. -/
theorem tells_start (c : JoinedCommand) (b : Bench) :
    b.Tells (c.poll (c.start b.now) b).1 [(c.request, b)] ∧
      ∀ b' w, c.poll (c.start b.now) b = (b', .pending w) → HasAsked w := by
  refine tells_poll (c.kept_tells (fun _ _ => .inr) fun i d h => ?_)
    (A := fun i d => (i = .unsent ∧ d = b) ∨ _)
    (.inl ⟨rfl, rfl⟩)
  rcases h with ⟨rfl, rfl⟩ | ⟨hasked, h⟩
  · exact d.tells_send c.request
  · cases i with
    | unsent => exact absurd rfl hasked
    | awaited wait => simpa using h.trans (c.tells_reply wait d)

/-- A later poll sends nothing. -/
theorem tells_again (c : JoinedCommand) (b : Bench) {w : JoinedWait} (hw : HasAsked w) :
    b.Tells (c.poll w b).1 [] ∧ ∀ b' w', c.poll w b = (b', .pending w') → HasAsked w' := by
  refine tells_poll (c.kept_tells (fun _ _ h => h) fun i d h => ?_) ?_
  · obtain ⟨hasked, h⟩ := h
    cases i with
    | unsent => exact absurd rfl hasked
    | awaited wait => simpa using h.trans (c.tells_reply wait d)
  · unfold Join.Holds
    split
    · rename_i i hi
      exact ⟨hw i hi, .of_eq rfl⟩
    · exact .of_eq rfl

end JoinedCommand

/-- The joined command that is waited for is sent already. -/
def Flight.HasAsked : Flight α → Prop
  | .join _ w _ => JoinedCommand.HasAsked w
  | _ => True

/-- What a procedure adds to the history up to its first wait tells of the commands that it
sends. -/
theorem Procedure.tells_advance (p : Procedure α) (b : Bench) :
    b.Tells (p.advance b).1 (p.dispatches b) ∧ ∀ b' f, p.advance b = (b', .pending f) →
    f.HasAsked := by
  -- along the procedure: a command is told of, and all other steps are quiet
  induction p generalizing b with
  | done a =>
    refine ⟨.of_eq rfl, ?_⟩
    rintro _ _ ⟨⟩
  | send r k ih =>
    have hsend := b.tells_send r
    simp only [advance, dispatches]
    rcases hpoll : b.send r with ⟨b', wait | answer⟩ <;> rw [hpoll] at hsend
    · refine ⟨hsend, ?_⟩
      rintro _ _ ⟨⟩
      trivial
    · exact ⟨hsend.trans (ih answer b').1, (ih answer b').2⟩
  | pause span k ih =>
    simp only [advance, dispatches, Timer.poll_after]
    refine ⟨.of_eq rfl, ?_⟩
    rintro _ _ ⟨⟩
    trivial
  | observe k ih =>
    have hlook : b.Tells (b.tell (.looked b.cancelled)) [] := .of_quiet rfl rfl
    exact ⟨hlook.trans (ih _ _).1, (ih _ _).2⟩
  | subscribe k ih =>
    have hseat : b.Tells b.subscribe.1 [] := by
      unfold Bench.subscribe
      split <;> exact .of_eq rfl
    exact ⟨hseat.trans (ih _ _).1, (ih _ _).2⟩
  | unsubscribe ticket k ih =>
    have hseat : b.Tells (b.unsubscribe ticket) [] := .of_eq rfl
    exact ⟨hseat.trans (ih _).1, (ih _).2⟩
  | join c k ih =>
    obtain ⟨hstart, hasked⟩ := c.tells_start b
    simp only [advance, dispatches]
    rcases hpoll : c.poll (c.start b.now) b with ⟨b', w | outcome⟩ <;> rw [hpoll] at hstart
    · refine ⟨hstart, ?_⟩
      rintro _ _ ⟨⟩
      exact hasked _ _ hpoll
    · exact ⟨hstart.trans (ih outcome b').1, (ih outcome b').2⟩
  | parent call k ih =>
    have hask : b.Tells (b.askParent call).1 [] := .of_eq rfl
    exact ⟨hask.trans (ih _ _).1, (ih _ _).2⟩
  | parentModes k ih =>
    have hask : b.Tells b.askParentModes.1 [] := .of_eq rfl
    exact ⟨hask.trans (ih _ _).1, (ih _ _).2⟩

/-- What a poll adds to the history tells of the commands that it sends. -/
theorem Flight.tells_poll {f : Flight α} (h : f.HasAsked) (b : Bench) :
    b.Tells (f.poll b).1 (f.dispatches b) ∧ ∀ b' f', f.poll b = (b', .pending f') →
    f'.HasAsked := by
  cases f with
  | start p => exact p.tells_advance b
  | reply wait k =>
    have hreply := b.tells_pollReply wait
    simp only [poll, dispatches]
    rcases hpoll : b.pollReply wait with ⟨b', wait' | answer⟩ <;> rw [hpoll] at hreply
    · refine ⟨hreply, ?_⟩
      rintro _ _ ⟨⟩
      trivial
    · exact ⟨hreply.trans ((k answer).tells_advance b').1, ((k answer).tells_advance b').2⟩
  | pause timer k =>
    simp only [poll, dispatches]
    cases timer.poll b.now with
    | pending timer' =>
      refine ⟨.of_eq rfl, ?_⟩
      rintro _ _ ⟨⟩
      trivial
    | ready => exact k.tells_advance b
  | join c w k =>
    -- the request of a join is sent by its first poll, before the flight is on its way
    obtain ⟨hwait, hasked⟩ := c.tells_again b h
    simp only [poll, dispatches]
    rcases hpoll : c.poll w b with ⟨b', w' | outcome⟩ <;> rw [hpoll] at hwait
    · refine ⟨hwait, ?_⟩
      rintro _ _ ⟨⟩
      exact hasked _ _ hpoll
    · exact ⟨hwait.trans ((k outcome).tells_advance b').1, ((k outcome).tells_advance b').2⟩

/-! ## Books on the board

Books depend on the seats that are held and on the board.  The holder is the procedure; what others
do with seats of their own does not come up here, since nobody else acts during a rehearsal but the
background. -/

/-- Books on the board: what is true of it while certain seats are held.  They have to follow what a
procedure and the far end can do. -/
structure Custody (I : List Nat → Board Urc → Prop) : Prop where
  publish : ∀ held, Board.Published (I held)
  read : ∀ {held board ticket} codes, ticket ∈ held → I held board →
    I held (board.setUnread ticket codes)
  take : ∀ {held board ticket board'}, I held board → board.subscribe? = some (ticket, board') →
    I (ticket :: held) board'
  give : ∀ {held board ticket}, I (ticket :: held) board → I held (board.unsubscribe ticket)

/-- Books about nothing. -/
theorem Custody.trivial : Custody fun _ _ => True :=
  ⟨fun _ _ _ _ _ _ => ⟨⟩, fun _ _ _ => ⟨⟩, fun _ _ => ⟨⟩, fun _ => ⟨⟩⟩

/-- A procedure in flight abides by a code of conduct. -/
def Flight.Abides (sends : List Nat → Request → Prop) (ends : List Nat → α → Prop) :
    Flight α → List Nat → Prop
  | start p, held => p.Abides sends ends held
  | reply _ k, held => ∀ answer, (k answer).Abides sends ends held
  | pause _ k, held => k.Abides sends ends held
  | join c _ k, held =>
    c.ticket ∈ held ∧ sends held c.request ∧ ∀ outcome, (k outcome).Abides sends ends held

/-- Books on a bench, its board and its history. -/
structure Stewardship (J : List Nat → Bench → Prop) : Prop where
  published : ∀ held, Bench.Published (J held)
  read : ∀ {held ticket} {b : Bench} codes, ticket ∈ held → J held b →
    J held { b with board := b.board.setUnread ticket codes }
  take : ∀ {held ticket board} {b : Bench}, J held b → b.board.subscribe? = some (ticket, board) →
    J (ticket :: held) { b with board }
  give : ∀ {held ticket} {b : Bench}, J (ticket :: held) b → J held (b.unsubscribe ticket)

/-- Books on the board alone. -/
theorem Custody.stewardship {I : List Nat → Board Urc → Prop} (hI : Custody I) :
    Stewardship fun held b => I held b.board where
  published held := ⟨fun hb hboard _ => hboard ▸ hb, fun _ hb => hb, fun hb hpublish =>
    hI.publish held _ _ _ hb hpublish⟩
  read codes hticket hb := hI.read codes hticket hb
  take hb htake := hI.take hb htake
  give hb := hI.give hb

section

variable {J : List Nat → Bench → Prop} {sends : List Nat → Request → Prop}
  {ends : List Nat → α → Prop}
  {held : List Nat} {b : Bench}

/-- What a poll leads to is in keeping with the books on the bench. -/
def Upkeep (J : List Nat → Bench → Prop) (sends : List Nat → Request → Prop)
    (ends : List Nat → α → Prop) :
    Bench × Poll (Flight α) α → Prop
  | (b, .pending f) => ∃ held, f.Abides sends ends held ∧ J held b
  | (b, .ready a) => ∃ held, ends held a ∧ J held b

/-- Up to its first wait a procedure sends its commands in keeping with the books. -/
theorem Procedure.Abides.advance {p : Procedure α} (hJ : Stewardship J)
    (h : p.Abides sends ends held) (hb : J held b) :
    Upkeep J sends ends (p.advance b) ∧ ∀ d ∈ p.dispatches b, ∃ held, sends held d.1 ∧
    J held d.2 := by
  induction p generalizing held b with
  | done a => exact ⟨⟨held, h, hb⟩, List.forall_mem_nil _⟩
  | send r k ih =>
    have hsend := (hJ.published held).send hb r
    simp only [Procedure.advance, dispatches, List.forall_mem_cons]
    rcases hpoll : b.send r with ⟨b', wait | answer⟩ <;> rw [hpoll] at hsend
    · exact ⟨⟨held, h.2, hsend⟩, ⟨held, h.1, hb⟩, List.forall_mem_nil _⟩
    · obtain ⟨hnext, hsent⟩ := ih answer (h.2 answer) hsend
      exact ⟨hnext, ⟨held, h.1, hb⟩, hsent⟩
  | pause span k ih =>
    simp only [Procedure.advance, dispatches, Timer.poll_after]
    exact ⟨⟨held, h, hb⟩, List.forall_mem_nil _⟩
  | observe k ih => exact ih _ (h _) ((hJ.published held).tell rfl hb)
  | subscribe k ih =>
    simp only [Procedure.advance, dispatches, Bench.subscribe]
    -- a seat that is taken enters the books; where there is none they stay as they are
    cases hseat : b.board.subscribe? with
    | none => exact ih none h.1 hb
    | some seat => exact ih (some seat.1) (h.2 seat.1) (hJ.take hb hseat)
  | unsubscribe ticket k ih =>
    obtain ⟨rest, rfl, hrest⟩ := h
    exact ih hrest (hJ.give hb)
  | join c k ih =>
    obtain ⟨hticket, hsends, hnext⟩ := h
    have hpoll :=
      (hJ.published held).joined c (fun _ codes => hJ.read codes hticket) hb (c.start b.now)
    simp only [Procedure.advance, dispatches, List.forall_mem_cons]
    rcases hwait : c.poll (c.start b.now) b with ⟨b', w | outcome⟩ <;> rw [hwait] at hpoll
    · exact ⟨⟨held, ⟨hticket, hsends, hnext⟩, hpoll⟩, ⟨held, hsends, hb⟩, List.forall_mem_nil _⟩
    · obtain ⟨hon, hsent⟩ := ih outcome (hnext outcome) hpoll
      exact ⟨hon, ⟨held, hsends, hb⟩, hsent⟩
  | parent call k ih => exact ih _ (h _) ((hJ.published held).frame hb rfl rfl)
  | parentModes k ih => exact ih _ (h _) ((hJ.published held).frame hb rfl rfl)

/-- So it does at every poll. -/
theorem Flight.Abides.poll_on {f : Flight α} (hJ : Stewardship J) (h : f.Abides sends ends held)
    (hb : J held b) :
    Upkeep J sends ends (f.poll b) ∧ ∀ d ∈ f.dispatches b, ∃ held, sends held d.1 ∧ J held d.2 := by
  cases f with
  | start p => exact Procedure.Abides.advance hJ h hb
  | reply wait k =>
    have hreply := (hJ.published held).pollReply hb wait
    simp only [Flight.poll, dispatches]
    rcases hpoll : b.pollReply wait with ⟨b', wait' | answer⟩ <;> rw [hpoll] at hreply
    · exact ⟨⟨held, h, hreply⟩, List.forall_mem_nil _⟩
    · exact (h answer).advance hJ hreply
  | pause timer k =>
    simp only [Flight.poll, dispatches]
    cases timer.poll b.now with
    | pending timer' => exact ⟨⟨held, h, hb⟩, List.forall_mem_nil _⟩
    | ready => exact Procedure.Abides.advance hJ h hb
  | join c w k =>
    -- a join publishes nothing but reads at its own ticket, which the flight holds
    obtain ⟨hticket, hsends, hnext⟩ := h
    have hpoll := (hJ.published held).joined c (fun _ codes => hJ.read codes hticket) hb w
    simp only [Flight.poll, dispatches]
    rcases hwait : c.poll w b with ⟨b', w' | outcome⟩ <;> rw [hwait] at hpoll
    · exact ⟨⟨held, ⟨hticket, hsends, hnext⟩, hpoll⟩, List.forall_mem_nil _⟩
    · exact (hnext outcome).advance hJ hpoll

end

/-! ## Books on the board alone -/

section

variable {I : List Nat → Board Urc → Prop} {sends : List Nat → Request → Prop}
  {ends : List Nat → α → Prop}
  {held : List Nat} {b : Bench}

/-- What a poll leads to is in keeping with the books: the procedure goes on to abide, or has ended
as it should. -/
def InKeeping (I : List Nat → Board Urc → Prop) (sends : List Nat → Request → Prop)
    (ends : List Nat → α → Prop) :
    Bench × Poll (Flight α) α → Prop
  | (b, .pending f) => ∃ held, f.Abides sends ends held ∧ I held b.board
  | (b, .ready a) => ∃ held, ends held a ∧ I held b.board

/-- A command was sent in keeping with the books. -/
def Sanctioned (I : List Nat → Board Urc → Prop) (sends : List Nat → Request → Prop)
    (d : Request × Bench) : Prop :=
  ∃ held, sends held d.1 ∧ I held d.2.board

/-- With books on the board alone it is the same. -/
theorem Flight.Abides.poll {f : Flight α} (hI : Custody I) (h : f.Abides sends ends held)
    (hb : I held b.board) :
    InKeeping I sends ends (f.poll b) ∧ ∀ d ∈ f.dispatches b, Sanctioned I sends d := by
  obtain ⟨hkept, hsent⟩ := h.poll_on hI.stewardship hb
  refine ⟨?_, hsent⟩
  rcases hpoll : f.poll b with ⟨b', f' | a⟩ <;> rw [hpoll] at hkept <;> exact hkept

end

/-! ## Runs

A run is gone through round by round.  What a command found is the bench at the beginning of its
round, after what was done in the round before the command. -/

namespace Rehearsal

variable {I : List Nat → Board Urc → Prop} {sends : List Nat → Request → Prop}
  {ends : List Nat → α → Prop}
  {b c b' : Bench} {events : List (Nat × Event)} {p : Procedure α} {f : Flight α} {a : α}

/-- In a run there is a round at whose beginning the procedure is at `f` and the bench is `c`. -/
def Passes (r : Rehearsal α) (f : Flight α) (c : Bench) : Prop :=
  ∃ rounds agenda, schedule.run rounds r = ⟨c, .pending f, agenda⟩

/-- All commands that the history of a run tells of are sent by polls of that run. -/
theorem sent_in_run (h : f.HasAsked) (rounds : Nat) (b : Bench) (agenda : Agenda) :
    ∃ es : Chronicle, (schedule.run rounds ⟨b, .pending f, agenda⟩).bench.history =
      b.history ++ es ∧
      ∀ e ∈ es.requests, ∃ g c, Passes ⟨b, .pending f, agenda⟩ g c ∧
        ∃ d ∈ g.dispatches c, e = (d.2.now, d.1) := by
  induction rounds generalizing b f agenda with
  | zero => exact ⟨[], (List.append_nil _).symm, fun _ h => nomatch h⟩
  | succ rounds ih =>
    have hhere : Passes ⟨b, .pending f, agenda⟩ f b := ⟨0, agenda, rfl⟩
    obtain ⟨⟨es, hes, hsent⟩, hasked⟩ := Flight.tells_poll h b
    -- what the first poll tells of is sent by it; everything else by the run that follows
    have hfirst : ∀ e ∈ es.requests, ∃ g c, Passes ⟨b, .pending f, agenda⟩ g c ∧
        ∃ d ∈ g.dispatches c, e = (d.2.now, d.1) := by
      rw [hsent]
      intro e he
      obtain ⟨d, hd, rfl⟩ := List.mem_map.mp he
      exact ⟨f, b, hhere, d, hd, rfl⟩
    rw [run_succ]
    rcases hpoll : f.poll b with ⟨b₁, f' | a⟩ <;> rw [hpoll] at hes
    · obtain ⟨b₂, fs, agenda₂, ⟨hdrifts, -, -⟩, hrest | hrest⟩ :=
        rest_cases (b.cancelled, b.board) b₁ f' agenda
      · rw [afterPoll, hrest]
        refine ⟨es ++ fs, by rw [hdrifts.history, hes, List.append_assoc], ?_⟩
        rw [Chronicle.requests_append, hdrifts.quiet.requests, List.append_nil]
        exact hfirst
      · rw [afterPoll, hrest]
        obtain ⟨gs, hgs, hlater⟩ := ih (hasked _ _ hpoll) b₂ agenda₂
        refine ⟨es ++ fs ++ gs, by rw [hgs, hdrifts.history, hes]; simp only [List.append_assoc],
          ?_⟩
        rw [Chronicle.requests_append, Chronicle.requests_append, hdrifts.quiet.requests,
          List.append_nil]
        intro e he
        rcases List.mem_append.mp he with he | he
        · exact hfirst e he
        · obtain ⟨g, c, ⟨n, agenda₃, hrun⟩, hd⟩ := hlater e he
          refine ⟨g, c, ⟨n + 1, agenda₃, ?_⟩, hd⟩
          rw [run_succ, hpoll, afterPoll, hrest, hrun]
    · exact ⟨es, hes, hfirst⟩

/-- In the rehearsal there is a round at whose beginning the procedure is at `f` and the bench is
`c`. -/
def Reaches (b : Bench) (events : List (Nat × Event)) (p : Procedure α) (f : Flight α)
    (c : Bench) : Prop :=
  Passes ⟨b, .pending (.start p), .ofList b.now events⟩ f c

/-- All commands that the history of a rehearsal tells of are sent by its polls. -/
theorem EndsIn.sent {es : Chronicle} (hends : EndsIn b events p a b')
    (hes : b'.history = b.history ++ es) :
    ∀ e ∈ es.requests, ∃ f c, Reaches b events p f c ∧
      ∃ d ∈ f.dispatches c, e = (d.2.now, d.1) := by
  obtain ⟨rounds, hrun⟩ := hends
  obtain ⟨fs, hfs, hsent⟩ := sent_in_run (f := .start p) trivial rounds b (.ofList b.now events)
  have hb : (schedule.run rounds ⟨b, .pending (.start p), .ofList b.now events⟩).bench = b' :=
    congrArg Prod.snd (hrun 0)
  rw [hb, hes, List.append_cancel_left_eq] at hfs
  exact hfs ▸ hsent

/-- A run keeps what is in keeping. -/
theorem abides_run (hI : Custody I) (rounds : Nat) {r : Rehearsal α}
    (h : InKeeping I sends ends (r.bench, r.main)) :
    InKeeping I sends ends ((schedule.run rounds r).bench, (schedule.run rounds r).main) := by
  -- each of the two tasks keeps it, and so does the clock
  refine Schedule.run_keeps (P := fun r : Rehearsal α => InKeeping I sends ends (r.bench, r.main))
    ?_ ?_ rounds h
  · intro task htask r hr
    obtain ⟨b, main, agenda⟩ := r
    simp only [schedule, List.mem_cons, List.not_mem_nil, or_false] at htask
    rcases htask with rfl | rfl
    · cases main with
      | ready a => exact hr
      | pending f =>
        obtain ⟨held, habides, hb⟩ := hr
        exact (habides.poll hI hb).1
    · cases main with
      | ready a =>
        obtain ⟨held, hends, hb⟩ := hr
        exact ⟨held, hends, (hI.stewardship.published held).agenda hb agenda⟩
      | pending f =>
        obtain ⟨held, habides, hb⟩ := hr
        exact ⟨held, habides, (hI.stewardship.published held).agenda hb agenda⟩
  · intro now r hr
    obtain ⟨b, main, agenda⟩ := r
    cases main <;> exact hr

variable {held : List Nat}

/-- Wherever the procedure is, it abides, and the books are right. -/
theorem Reaches.abides (hI : Custody I) (h : p.Abides sends ends held) (hb : I held b.board)
    (hreach : Reaches b events p f c) :
    ∃ held, f.Abides sends ends held ∧ I held c.board := by
  obtain ⟨rounds, agenda, hrun⟩ := hreach
  have hstart : InKeeping I sends ends (b, .pending (.start p)) := ⟨held, h, hb⟩
  have hkeeping := abides_run hI rounds (r := ⟨b, .pending (.start p), .ofList b.now events⟩) hstart
  rw [hrun] at hkeeping
  exact hkeeping

/-- Where it ends, it ends as it should, and the books are right. -/
theorem EndsIn.abides (hI : Custody I) (h : p.Abides sends ends held) (hb : I held b.board)
    (hends : EndsIn b events p a b') :
    ∃ held, ends held a ∧ I held b'.board := by
  obtain ⟨rounds, hrun⟩ := hends
  have hrun := hrun 0
  have hstart : InKeeping I sends ends (b, .pending (.start p)) := ⟨held, h, hb⟩
  have hkeeping := abides_run hI rounds (r := ⟨b, .pending (.start p), .ofList b.now events⟩) hstart
  simp only [run, Nat.add_zero, Prod.mk.injEq] at hrun
  obtain ⟨hvalue, rfl⟩ := hrun
  cases hmain :
    (schedule.run rounds (⟨b, .pending (.start p), .ofList b.now events⟩ : Rehearsal α)).main with
  | pending f => rw [hmain] at hvalue; cases hvalue
  | ready x =>
    rw [hmain] at hvalue hkeeping
    obtain rfl := Option.some.inj hvalue
    exact hkeeping

end Rehearsal

end Cellular
