import Cellular.Bench.Connection
import Cellular.Proofs.Bench.Halting
/-!
# A reader catches up

The party that hands registration codes over reads at most as many codes in a row as there may be
before time passes (`Connection.readable`): those that it has not read, and those that the script
may still bring.  That bound does not hide anything.  A command that is sent takes its lines out of
the script, and what it publishes of them is at most as much more to read; so whatever a procedure
does up to its next wait, the bound does not grow (`Connection.readable_advance`).  Each code that
is read lowers it.  Hence a poll of the party ends with nothing unread, unless it has to wait for
the bearer (`Listener.caught_up`).

The bound is a sum over what is unread and what is still in the script, so the lemmas are
inequalities, one for each thing that a procedure does on a bench.  An answer on its way needs an
account of its own: its turn has been taken from the script, but the lines behind it are still to
come (`JoinedReply.owed`).  The theorem about procedures is an induction on the tree, with what is
owed at its first wait on the left side.
-/

namespace Cellular

/-! ## What there may be to read

A code can be read if it is on the seat already, or if a line that brings it may still come: with
the answer that is awaited, or with a later turn of the script.  All these are counted together,
and no step of a procedure raises the count. -/

/-- How many lines a turn of the script may emit. -/
def Turn.lines (turn : Turn) : Nat := turn.before.length + turn.after.length

/-- How many lines the turns of a script may emit. -/
def Turn.allLines : List Turn → Nat
  | [] => 0
  | turn :: script => turn.lines + allLines script

/-- The lines of a script may be counted from any number on. -/
theorem Turn.foldl_lines (script : List Turn) (n : Nat) :
    (script.map Turn.lines).foldl (· + ·) n = n + allLines script := by
  induction script generalizing n with
  | nil => rfl
  | cons turn script ih =>
    show (script.map Turn.lines).foldl (· + ·) (n + turn.lines) = n + (turn.lines + allLines script)
    rw [ih]
    omega

/-- What the reply of a joined command may still bring. -/
def JoinedReply.owed : JoinedReply → Nat
  | .unsent => 0
  | .awaited reply => reply.after.length

/-- How many lines an answer that is on its way may still bring. -/
def Bench.owed {α : Type} : Poll Bench.Reply α → Nat
  | .pending reply => reply.after.length
  | .ready _ => 0

namespace Connection

variable {b b' : Bench} (ticket : Nat)

/-- The bound is what is unread, and what the script may bring. -/
theorem readable_eq (b : Bench) :
    readable b ticket = (b.board.unread ticket).length + Turn.allLines b.script + 1 := by
  have hlines := Turn.foldl_lines b.script 0
  rw [Nat.zero_add] at hlines
  rw [← hlines]
  rfl

theorem readable_congr (hboard : b'.board = b.board) (hscript : b'.script = b.script) :
    readable b' ticket = readable b ticket := by
  rw [readable, readable, hboard, hscript]

/-- A line adds one code at most. -/
theorem readable_emit (b : Bench) (line : Bytes) :
    readable (b.emit line) ticket ≤ readable b ticket + 1 := by
  unfold Bench.emit
  split
  · exact Nat.le_succ _
  · rename_i code _
    split
    · rename_i board hpublish
      have hunread := Board.length_unread_publish hpublish ticket
      rw [readable_eq, readable_eq]
      show (board.unread ticket).length + Turn.allLines b.script + 1 ≤ _
      omega
    · have hsame : readable (b.note .lost) ticket = readable b ticket :=
        readable_congr ticket rfl rfl
      omega

/-- Lines add one code each at most. -/
theorem readable_emitAll (b : Bench) (lines : List Bytes) :
    readable (b.emitAll lines) ticket ≤ readable b ticket + lines.length := by
  induction lines generalizing b with
  | nil => exact Nat.le_refl _
  | cons line lines ih =>
    have hfirst := readable_emit ticket b line
    have hrest := ih (b.emit line)
    show readable ((b.emit line).emitAll lines) ticket ≤ readable b ticket + (lines.length + 1)
    omega

/-- What comes with an answer adds one code for each line at most. -/
theorem readable_conclude (b : Bench) (after : List Bytes) (answer : Except LinkError Bytes) :
    readable (b.conclude after answer) ticket ≤ readable b ticket + after.length := by
  have hsame : readable (b.conclude after answer) ticket = readable (b.emitAll after) ticket :=
    readable_congr ticket rfl rfl
  rw [hsame]
  exact readable_emitAll ticket b after

/-- What an answer on its way still owes is counted until it has come. -/
theorem readable_pollReply (b : Bench) (reply : Bench.Reply) :
    readable (b.pollReply reply).1 ticket + Bench.owed (b.pollReply reply).2
      ≤ readable b ticket + reply.after.length := by
  unfold Bench.pollReply
  split
  · exact Nat.le_refl _
  · exact readable_conclude ticket b reply.after reply.answer

/-- The lines of the turn that is next are a part of those of the script. -/
theorem lines_tail (b : Bench) :
    Turn.allLines b.script.tail + b.turn.lines = Turn.allLines b.script := by
  cases hscript : b.script with
  | nil =>
    have hturn : b.turn = {} := by rw [Bench.turn, Bench.turnAt, hscript]; rfl
    rw [hturn]
    rfl
  | cons turn script =>
    have hturn : b.turn = turn := by rw [Bench.turn, Bench.turnAt, hscript]; rfl
    rw [hturn, List.tail_cons, Turn.allLines]
    omega

/-- A turn that is opened takes all its lines out of the script. -/
theorem readable_opened (b : Bench) (r : Request) :
    readable (b.opened r) ticket + b.turn.after.length ≤ readable b ticket := by
  have hemitted := readable_emitAll ticket { (b.note (.sent r)).tell (.sent r) with
    script := b.script.tail, cancelled := b.cancelled || b.turn.cancels } b.turn.before
  -- the lines of the turn are taken off what the script still owes
  have hscript : readable { (b.note (.sent r)).tell (.sent r) with
      script := b.script.tail, cancelled := b.cancelled || b.turn.cancels } ticket + b.turn.lines =
        readable b ticket := by
    have htail := lines_tail b
    rw [readable_eq, readable_eq]
    show (b.board.unread ticket).length + Turn.allLines b.script.tail + 1 + b.turn.lines = _
    omega
  have hlines : b.turn.lines = b.turn.before.length + b.turn.after.length := rfl
  have hopened : readable (b.opened r) ticket ≤ _ := hemitted
  omega

/-- A command takes its lines out of the script. -/
theorem readable_send (b : Bench) (r : Request) :
    readable (b.send r).1 ticket + Bench.owed (b.send r).2 ≤ readable b ticket := by
  have hopened := readable_opened ticket b r
  rw [Bench.send_eq]
  split
  · have hconcluded := readable_conclude ticket (b.opened r) b.turn.after b.turn.answer
    show readable ((b.opened r).conclude b.turn.after b.turn.answer) ticket + 0 ≤ readable b ticket
    omega
  · rename_i span _
    have hpolled := readable_pollReply ticket (b.opened r)
      ⟨.after (b.opened r).now span, b.turn.after, b.turn.answer⟩
    exact Nat.le_trans hpolled hopened

/-- To have less left to read never adds to it. -/
theorem readable_setUnread {holder : Nat} {codes : List Urc} (b : Bench)
    (hless : codes.length ≤ (b.board.unread holder).length) :
    readable { b with board := b.board.setUnread holder codes } ticket ≤ readable b ticket := by
  rw [readable_eq, readable_eq]
  have hunread : ((b.board.setUnread holder codes).unread ticket).length ≤
      (b.board.unread ticket).length := by
    by_cases hholder : ticket = holder
    · subst hholder
      by_cases hseated : b.board.Seated ticket
      · rw [Board.unread_setUnread hseated]
        exact hless
      · -- without a seat there is nothing to read, neither before nor after
        have hunseated : ¬ (b.board.setUnread ticket codes).Seated ticket := by
          rw [Board.Seated, Board.setUnread_seats,
            Board.find?_map_codes _ _ fun s => if s.1 = ticket then codes
              else s.2, Option.isSome_map]
          exact hseated
        rw [Board.unread_of_not_seated hunseated]
        exact Nat.zero_le _
    · exact Nat.le_of_eq (congrArg List.length (Board.unread_setUnread_of_ne _ hholder codes))
  show ((b.board.setUnread holder codes).unread ticket).length + Turn.allLines b.script + 1 ≤ _
  omega

/-! ## Procedures

Only two nodes can add to what there is to read, a command and a joined command; both take their
lines out of the script first. -/

/-- The reply of a joined command brings no more than it owes. -/
theorem readable_reply (c : JoinedCommand) (i : JoinedReply) (b : Bench) :
    readable (c.signals.reply i b).1 ticket +
      ((c.signals.reply i b).2.next?.map JoinedReply.owed).getD 0
      ≤ readable b ticket + i.owed := by
  have howed : ∀ p : Poll Bench.Reply (Except LinkError Bytes),
      ((((p.mapNext JoinedReply.awaited).map c.settle).next?).map JoinedReply.owed).getD 0 =
        Bench.owed p := by
    intro p
    cases p <;> rfl
  cases i with
  | unsent =>
    have hsend := readable_send ticket b c.request
    rw [← howed] at hsend
    exact hsend
  | awaited reply =>
    have hpoll := readable_pollReply ticket b reply
    rw [← howed] at hpoll
    exact hpoll

/-- To look for a code adds nothing. -/
theorem readable_code (c : JoinedCommand) (b : Bench) :
    readable (c.signals.notification () b).1 ticket ≤ readable b ticket := by
  have hsearch : readable (c.search b) ticket ≤ readable b ticket :=
    readable_setUnread ticket b (Board.firstMatch_length_le _ _)
  rw [JoinedCommand.signals_notification, JoinedCommand.pollCode_eq]
  split <;> exact hsearch

/-- A joined command that begins, up to its first wait. -/
theorem readable_join (c : JoinedCommand) (b : Bench) :
    readable (c.poll (c.start b.now) b).1 ticket ≤ readable b ticket := by
  -- the lines that come with the answer are owed while it is awaited, and unread afterwards
  have hkept : Join.Kept c.signals (fun i d => readable d ticket + i.owed ≤ readable b ticket)
      (fun i d => readable d ticket + i.owed ≤ readable b ticket) fun d =>
        readable d ticket ≤ readable b ticket := by
    constructor
    · intro i d h
      exact h
    · intro i d h
      omega
    · intro i d d' i' h hi
      have hreply := readable_reply ticket c i d
      rw [hi] at hreply
      exact Nat.le_trans hreply h
    · intro i d d' r h hr
      have hreply := readable_reply ticket c i d
      rw [hr] at hreply
      exact Nat.le_trans hreply h
    · intro i _ d h
      have hcode := readable_code ticket c d
      show readable (c.signals.notification () d).1 ticket + i.owed ≤ readable b ticket
      omega
    · intro _ d h
      exact Nat.le_trans (readable_code ticket c d) h
  exact hkept.over c.terms (Nat.le_refl (readable b ticket + 0))

/-- **Whatever a procedure does up to its next wait**, there is not more to read for anyone than
there might have been. -/
theorem readable_advance {α : Type} (p : Procedure α) (b : Bench) :
    readable (p.advance b).1 ticket ≤ readable b ticket := by
  induction p generalizing b with
  | done a => exact Nat.le_refl _
  | send r k ih =>
    -- what the answer still owes is dropped: the bound only has to hold of what is there
    have hsend := readable_send ticket b r
    simp only [Procedure.advance]
    rcases hpoll : b.send r with ⟨b', wait | answer⟩ <;> rw [hpoll] at hsend
    · exact Nat.le_trans (Nat.le_add_right _ _) hsend
    · exact Nat.le_trans (ih answer b') hsend
  | pause span k ih =>
    simp only [Procedure.advance, Timer.poll_after]
    exact Nat.le_refl _
  | observe k ih => exact ih b.cancelled (b.tell (.looked b.cancelled))
  | subscribe k ih =>
    refine Nat.le_trans (ih b.subscribe.2 b.subscribe.1) ?_
    unfold Bench.subscribe
    split
    · rename_i seat board hseat
      have hsame : readable { b with board } ticket = readable b ticket := by
        rw [readable_eq, readable_eq, Board.unread_subscribe hseat]
      exact Nat.le_of_eq hsame
    · exact Nat.le_refl _
  | unsubscribe holder k ih =>
    refine Nat.le_trans (ih (b.unsubscribe holder)) ?_
    by_cases hholder : ticket = holder
    · subst hholder
      have hnone : (b.unsubscribe ticket).board.unread ticket = [] :=
        b.board.unread_unsubscribe_self ticket
      rw [readable_eq, readable_eq, hnone]
      show 0 + Turn.allLines b.script + 1 ≤ _
      omega
    · have hsame : readable (b.unsubscribe holder) ticket = readable b ticket := by
        rw [readable_eq, readable_eq]
        exact congrArg (fun codes : List Urc => codes.length + Turn.allLines b.script + 1)
          (b.board.unread_unsubscribe hholder)
      exact Nat.le_of_eq hsame
  | join c k ih =>
    have hstart := readable_join ticket c b
    simp only [Procedure.advance]
    rcases hpoll : c.poll (c.start b.now) b with ⟨b', w | outcome⟩ <;> rw [hpoll] at hstart
    · exact hstart
    · exact Nat.le_trans (ih outcome b') hstart
  | parent call k ih => exact ih (b.askParent call).2 (b.askParent call).1
  | parentModes k ih => exact ih b.askParentModes.2 b.askParentModes.1

end Connection

/-! ## Reports

What a report does to a bearer comes down to its vendor's state, which it leaves alone or begins a
disconnect on.  So the bound for procedures applies to a report too. -/

namespace Bearer

variable {σ : Type} (be : Backend σ)

/-- A forced disconnect leaves the vendor's state alone, or begins a vendor's disconnect. -/
theorem force_vendor (b : Bearer σ) :
    (b.force be).1.vendor = b.vendor ∨
      (b.force be).1.vendor = (be.poll b.cancelled (be.disconnect b.vendor) b.vendor).1 := by
  have hpoll : ∀ call : be.Call, ∀ b' : Bearer σ, (b'.pollDisconnect be .force call).1.vendor =
      (be.poll b'.cancelled call b'.vendor).1 := by
    intro call b'
    unfold pollDisconnect
    split
    · rename_i heq
      rw [heq]
    · rename_i heq
      rw [heq]
      rfl
  -- three statuses leave the vendor alone, and the fourth polls its disconnect at most once
  unfold force
  dsimp only
  split
  · exact .inl rfl
  · exact .inl rfl
  · exact .inl rfl
  · unfold launch
    split
    · exact .inl rfl
    · exact .inr (hpoll _ _)

/-- So does whatever a report means. -/
theorem apply_vendor (b : Bearer σ) (verdict : Verdict) :
    (b.apply be verdict).1.vendor = b.vendor ∨
      (b.apply be verdict).1.vendor =
        (be.poll b.cancelled (be.disconnect b.vendor) b.vendor).1 := by
  cases verdict with
  | allow => exact .inl rfl
  | disconnectNow => exact force_vendor be b.callOff
  | unregistered domain =>
    simp only [apply]
    split
    · exact .inl rfl
    · split
      · exact force_vendor be b
      · cases domain <;> exact .inl rfl

end Bearer

namespace Listener

open Connection

variable {ν : Type} {connect disconnect : Operation ν Unit}

/-- So it does not grow up to the first wait of a vendor's operation. -/
theorem readable_pollFlight (ticket : Nat) (cancelled : Bool) (op : Operation ν Unit)
    (m : Mounted ν) :
    readable (Mounted.pollFlight cancelled (m.launch op) m).1.bench ticket ≤
      readable m.bench ticket := by
  have hadvance := readable_advance ticket (op.run.run m.part) { m.bench with cancelled }
  unfold Mounted.pollFlight
  split
  · rename_i heq
    have heq : (op.run.run m.part).advance { m.bench with cancelled } = _ := heq
    rw [heq] at hadvance
    exact hadvance
  · rename_i heq
    have heq : (op.run.run m.part).advance { m.bench with cancelled } = _ := heq
    rw [heq] at hadvance
    exact hadvance

/-- A report does not add to what there may be to read. -/
theorem readable_registered (connect disconnect : Operation ν Unit) (ticket : Nat)
    (b : Bearer (Mounted ν)) (status : RegistrationStatus) :
    readable (b.call (Mounted.backend connect disconnect) (.registered status)).1.vendor.bench
      ticket
      ≤ readable b.vendor.bench ticket := by
  obtain ⟨tracker, verdict, hcall⟩ : ∃ tracker verdict, b.call (Mounted.backend connect disconnect)
    (.registered status) =
      { b with tracker }.apply (Mounted.backend connect disconnect) verdict := ⟨_, _, rfl⟩
  rw [hcall]
  rcases Bearer.apply_vendor (Mounted.backend connect disconnect)
    { b with tracker } verdict with h | h
  · exact Nat.le_of_eq (congrArg (fun m : Mounted ν => readable m.bench ticket) h)
  · rw [h]
    exact readable_pollFlight ticket b.cancelled disconnect b.vendor

/-- With leave to read as many codes as there may be, the party stops only when it has to wait or
nothing is left. -/
theorem read_caught_up (ticket : Nat) {n : Nat} {b b' : Bearer (Mounted ν)}
    (henough : readable b.vendor.bench ticket ≤ n)
    (hread : read (Mounted.backend connect disconnect) Mounted.board ticket n b =
      (b', .listening)) :
    b'.vendor.bench.board.unread ticket = [] := by
  induction n generalizing b with
  | zero =>
    rw [readable_eq] at henough
    omega
  | succ n ih =>
    rw [read] at hread
    cases hunread : b.vendor.bench.board.unread ticket with
    | nil =>
      have hnext : (Mounted.board.get b.vendor).next ticket = (none, b.vendor.bench.board) :=
        Board.next_of_nil hunread
      rw [hnext] at hread
      obtain rfl : b = b' := congrArg Prod.fst hread
      exact hunread
    | cons code codes =>
      have hnext : (Mounted.board.get b.vendor).next ticket =
          (some code, b.vendor.bench.board.setUnread ticket codes) := Board.next_of_cons hunread
      -- the code that is read is one less
      have hless : readable { b.vendor.bench with
          board := b.vendor.bench.board.setUnread ticket codes } ticket ≤ n := by
        have hseated : b.vendor.bench.board.Seated ticket :=
          Board.seated_of_unread (by simp [hunread])
        rw [readable_eq, hunread, List.length_cons] at henough
        rw [readable_eq, Board.unread_setUnread hseated]
        show codes.length + Turn.allLines b.vendor.bench.script + 1 ≤ n
        omega
      rw [hnext] at hread
      simp only at hread
      split at hread
      · exact ih hless hread
      · rename_i status _
        split at hread
        · cases hread
        · rename_i c result hcall
          have hreport := readable_registered connect disconnect ticket
            { b with vendor :=
              Mounted.board.set (b.vendor.bench.board.setUnread ticket codes) b.vendor } status
          rw [hcall] at hreport
          exact ih (Nat.le_trans hreport hless) hread

/-- **A poll of the party ends with nothing unread, unless it waits for the bearer.** -/
theorem caught_up (ticket : Nat) {b b' : Bearer (Mounted ν)}
    {listener : Listener (Mounted.backend connect disconnect).Call}
    (hpoll : listener.poll (Mounted.backend connect disconnect) Mounted.board ticket
      (fun b => readable b.vendor.bench ticket) b = (b', .listening)) :
    b'.vendor.bench.board.unread ticket = [] := by
  cases listener with
  | listening => exact read_caught_up ticket (Nat.le_refl _) hpoll
  | applying wait =>
    rw [poll] at hpoll
    split at hpoll
    · cases hpoll
    · exact read_caught_up ticket (Nat.le_refl _) hpoll

end Listener

end Cellular
