import Cellular.Proofs.Bench.Heedless
/-!
# Late codes

A procedure that only uses seats that it takes itself is heedless of the past, poll by poll and
therefore through every run (`Rehearsal.heedless_run`).  In particular a code that comes before the
procedure is begun makes no difference to it (`Rehearsal.EndsIn.late_line`): it is there for those
who have a seat already, and for nobody else.

Heedlessness is proved along the tree: an exchange, a look, a seat that is taken, each is heedless,
and so is one after another.  From the tree it goes on to procedures in flight, to a round of a
rehearsal, and to a run, whose number of rounds is the induction.  A rehearsal to its end is then
compared with the one on the bench with the late code by putting that code into the past
(`emit_within`).
-/

namespace Cellular

variable {α β γ : Type} {n : Nat}

/-! ## Procedures that use their own seats

A procedure keeps to its own seats if it abides by the code of conduct with no condition on what is
sent.  Tickets that it holds are counted from `n` on, and those of the others are below. -/

/-- Beside the seats that are held, a procedure only uses seats that it takes itself. -/
def Procedure.KeepsTo (held : List Nat) (p : Procedure α) : Prop :=
  p.Abides (fun _ _ => True) (fun _ _ => True) held

/-- Beside the seats that are held, a procedure in flight only uses seats that it takes itself. -/
def Flight.KeepsTo (held : List Nat) (f : Flight α) : Prop :=
  f.Abides (fun _ _ => True) (fun _ _ => True) held

/-- A wait, and what comes after it: the wait goes on, or it is over. -/
theorem Heedless.awaiting {ι β γ : Type} {act : Bench → Bench × Poll ι β} (h : Heedless n act)
    (f : ι → Flight γ) {k : β → Procedure γ} (hk : ∀ v, Heedless n (k v).advance) :
    Heedless n fun b => match act b with
      | (b, .ready v) => (k v).advance b
      | (b, .pending i) => (b, .pending (f i)) := by
  refine (h.branch (fun i => .pure (.pending (f i))) hk).congr fun b => ?_
  rcases act b with ⟨b', i | v⟩ <;> rfl

/-- A procedure that keeps to its own seats is heedless up to its first wait. -/
theorem Procedure.KeepsTo.heedless {p : Procedure α} {held : List Nat} (h : p.KeepsTo held)
    (hheld : ∀ t ∈ held, n ≤ t) :
    Heedless n p.advance := by
  -- each step is heedless by itself, and so is what follows, for every answer to it
  induction p generalizing held with
  | done a => exact .pure _
  | send r k ih =>
    have hnext := (Heedless.send r).awaiting (.reply · k) fun answer => ih answer (h.2 answer) hheld
    refine hnext.congr fun b => ?_
    simp only [Procedure.advance]
    rcases b.send r with ⟨b', wait | answer⟩ <;> rfl
  | pause span k ih =>
    have hpause := Heedless.give (n := n)
      (f := fun b : Bench => (.pending (.pause ⟨b.now + span, true⟩ k) : Poll (Flight α) α))
      fun _ _ => rfl
    exact hpause.congr fun b => by simp only [Procedure.advance, Timer.poll_after]
  | observe k ih =>
    exact .look (f := Bench.cancelled) (k := fun cancelled b =>
      (k cancelled).advance (b.tell (.looked cancelled)))
      (fun _ _ => rfl) fun cancelled => (Heedless.tell _).andThen (ih cancelled (h cancelled) hheld)
  | subscribe k ih =>
    refine Heedless.subscribe (k := fun seat => (k seat).advance) (ih none h.1 hheld)
      fun ticket ht => ?_
    exact ih (some ticket) (h.2 ticket) (List.forall_mem_cons.mpr ⟨ht, hheld⟩)
  | unsubscribe ticket k ih =>
    obtain ⟨rest, rfl, hrest⟩ := h
    exact (Heedless.unsubscribe ticket).andThen
      (ih hrest fun t ht => hheld t (List.mem_cons_of_mem _ ht))
  | join c k ih =>
    have hnext := fun w =>
      (Heedless.join (hheld _ h.1) w).awaiting (.join c · k) fun outcome =>
        ih outcome (h.2.2 outcome) hheld
    refine (Heedless.look (f := fun b => c.start b.now) (fun _ _ => rfl) hnext).congr fun b => ?_
    simp only [Procedure.advance]
    rcases c.poll (c.start b.now) b with ⟨b', w | outcome⟩ <;> rfl
  | parent call k ih =>
    exact Heedless.bind (k := fun answer => (k answer).advance) (.askParent call) fun b _ =>
      ih _ (h _) hheld
  | parentModes k ih =>
    exact Heedless.bind (k := fun answer => (k answer).advance) .askParentModes fun b _ =>
      ih _ (h _) hheld

/-- So it is at every poll. -/
theorem Flight.KeepsTo.heedless {f : Flight α} {held : List Nat} (h : f.KeepsTo held)
    (hheld : ∀ t ∈ held, n ≤ t) :
    Heedless n f.poll := by
  cases f with
  | start p => exact Procedure.KeepsTo.heedless h hheld
  | reply wait k =>
    -- what the flight waits for is heedless, and what comes after the answer is so too
    have hnext := (Heedless.pollReply wait).awaiting (.reply · k) fun answer =>
      Procedure.KeepsTo.heedless (h answer) hheld
    refine hnext.congr fun b => ?_
    simp only [Flight.poll]
    rcases b.pollReply wait with ⟨b', wait' | answer⟩ <;> rfl
  | pause timer k =>
    have hk : Heedless n k.advance := Procedure.KeepsTo.heedless h hheld
    have hpoll := Heedless.give (n := n) (f := fun b => timer.poll b.now) fun _ _ => rfl
    have hnext := hpoll.awaiting (.pause · k) fun _ => hk
    refine hnext.congr fun b => ?_
    simp only [Flight.poll]
    cases timer.poll b.now <;> rfl
  | join c w k =>
    have hnext := (Heedless.join (hheld _ h.1) w).awaiting (.join c · k) fun outcome =>
      Procedure.KeepsTo.heedless (h.2.2 outcome) hheld
    refine hnext.congr fun b => ?_
    simp only [Flight.poll]
    rcases c.poll w b with ⟨b', w' | outcome⟩ <;> rfl

/-! ## Rounds and runs

In a round the procedure is polled, then the background, and then the clock may go on.  Whether it
goes on depends on whether something has been stirred, which heedless actions tell alike with a past
and without. -/

/-- The background: a line, or a caller who sets the token. -/
theorem Heedless.happen (event : Event) : Heedless n fun b => (b.happen event, ()) := by
  cases event with
  | line line => exact .emit line
  | cancel => exact .of_commutes (fun _ _ => Nat.le_refl _) (fun _ => id) fun _ _ _ _ => rfl

/-- The background takes no notice of what is unread. -/
theorem Heedless.agenda (agenda : Agenda) : Heedless n fun b => agenda.poll b := by
  cases agenda with
  | nil => exact .pure _
  | cons next rest =>
    obtain ⟨timer, event⟩ := next
    have hpoll : Heedless n fun b => (b, timer.poll b.now) := .give fun _ _ => rfl
    refine (hpoll.branch (fun timer => .pure ((timer, event) :: rest)) fun _ =>
      (happen event).andThen (.pure (Agenda.look rest))).congr fun b => ?_
    simp only [Agenda.poll]
    cases timer.poll b.now <;> rfl

/-- Whether an action has changed anything that another one may be waiting for. -/
theorem Heedless.stirred {act : Bench → Bench × β} (h : Heedless n act) :
    Heedless n fun b => ((act b).1, (act b).2,
      decide (((act b).1.cancelled, (act b).1.board) ≠ (b.cancelled, b.board))) where
  losses := h.losses
  issued := h.issued
  behind b p' hb hends hlossless p hle := by
    have hact := h.behind b p' hb hends hlossless p hle
    have hboard : ∀ c d : Bench, (c.behind p).board = (d.behind p).board ↔
        c.board = d.board := fun c d =>
      ⟨Board.behind_injective, fun h => congrArg (Board.behind p.unread) h⟩
    rw [hact]
    simp only [ne_eq, Prod.mk.injEq, hboard, true_and]
    rfl

/-- All tickets from now on are from `n` on, and so are those that are held. -/
theorem Custody.above (n : Nat) :
    Custody fun held board => n ≤ board.issued ∧ ∀ t ∈ held, n ≤ t where
  publish _ board code board' h hpublish := by
    rw [Board.publish?_eq_some hpublish]
    exact h
  read _ _ h := h
  take {held board ticket board'} h htake := by
    obtain ⟨hticket, hissued⟩ := Board.issued_subscribe htake
    refine ⟨by omega, List.forall_mem_cons.mpr ⟨by omega, h.2⟩⟩
  give h := ⟨h.1, fun t ht => h.2 t (List.mem_cons_of_mem _ ht)⟩

namespace Rehearsal

/-- What a rehearsal has come to, its bench first. -/
def state (r : Rehearsal α) : Bench × Poll (Flight α) α × Agenda := (r.bench, r.main, r.agenda)

/-- The rest of a round when the procedure has been polled and waits, and the background has been
polled, too: each has stirred something, or has not. -/
def close (rounds : Nat) (f : Flight α) (stirred : Bool) (background : Agenda × Bool) (b : Bench) :
    Bench × Poll (Flight α) α × Agenda :=
  if stirred || background.2 then (schedule.run rounds ⟨b, .pending f, background.1⟩).state
  else match Schedule.earliest? (f.timers ++ background.1.timers) with
    | none => (b, .pending f, background.1)
    | some moment =>
      (schedule.run rounds ⟨{ b with now := max b.now moment }, .pending f, background.1⟩).state

/-- The rest of a round, as far as it can be told. -/
theorem rest_state (rounds : Nat) (before : Bool × Board Urc) (b : Bench) (f : Flight α)
    (agenda : Agenda) :
    (rest rounds before ⟨b, .pending f, agenda⟩).state =
      close rounds f (decide ((b.cancelled, b.board) ≠ before))
      ((agenda.poll b).2,
        decide (((agenda.poll b).1.cancelled, (agenda.poll b).1.board) ≠ (b.cancelled, b.board)))
      (agenda.poll b).1 := by
  have htimers : schedule.timers (⟨b, .pending f, agenda⟩ : Rehearsal α).pollAgenda =
      f.timers ++ (agenda.poll b).2.timers := rfl
  have hbackground : schedule.signals (⟨b, .pending f, agenda⟩ : Rehearsal α).pollAgenda =
      ((agenda.poll b).1.cancelled, (agenda.poll b).1.board) := rfl
  have hsignals : schedule.signals (⟨b, .pending f, agenda⟩ : Rehearsal α) =
      (b.cancelled, b.board) := rfl
  simp only [rest, close, htimers, hbackground, hsignals, Bool.or_eq_true, decide_eq_true_eq]
  split
  · rfl
  · cases Schedule.earliest? (f.timers ++ (agenda.poll b).2.timers) <;> rfl

/-- The rest of a round is heedless if all that comes after it is. -/
theorem heedless_close {rounds : Nat} {f : Flight α}
    (h : ∀ agenda, Heedless n fun b => (schedule.run rounds ⟨b, .pending f, agenda⟩).state)
    (stirred : Bool) (background : Agenda × Bool) :
    Heedless n (close rounds f stirred background) := by
  unfold close
  split
  · exact h background.1
  · cases Schedule.earliest? (f.timers ++ background.1.timers) with
    | none => exact .pure _
    | some moment =>
      have hclock : Heedless n fun b => ({ b with now := max b.now moment }, ()) :=
        .of_commutes (fun _ _ => Nat.le_refl _) (fun _ => id) fun _ _ _ _ => rfl
      exact hclock.andThen (h background.1)

/-- A run of a procedure that keeps to its own seats. -/
theorem heedless_run {f : Flight α} {held : List Nat} (h : f.KeepsTo held)
    (hheld : ∀ t ∈ held, n ≤ t) (rounds : Nat) (agenda : Agenda) :
    Heedless n fun b => (schedule.run rounds ⟨b, .pending f, agenda⟩).state := by
  induction rounds generalizing f held agenda with
  | zero => exact .give fun _ _ => rfl
  | succ rounds ih =>
    -- one round is a poll of the flight and then a turn of the agenda, both of them heedless
    refine (Heedless.bind (k := fun polled b => match polled with
      | (.ready a, _) => (b, .ready a, agenda)
      | (.pending f, stirred) => close rounds f stirred
          ((agenda.poll b).2, decide (((agenda.poll b).1.cancelled, (agenda.poll b).1.board) ≠
            (b.cancelled, b.board)))
          (agenda.poll b).1) (h.heedless hheld).stirred fun b hb => ?_).congr fun b => ?_
    · have hkeeping := (Flight.Abides.poll (Custody.above n) h ⟨hb, hheld⟩).1
      rcases hpoll : f.poll b with ⟨b', f' | a⟩ <;> rw [hpoll] at hkeeping
      · obtain ⟨held', hkeeps, -, hheld'⟩ := hkeeping
        exact Heedless.bind (k := fun background b => close rounds f' _ background b)
          (Heedless.agenda agenda).stirred
          fun _ _ => heedless_close (fun agenda => ih hkeeps hheld' agenda) _ _
      · exact .pure _
    · rw [run_succ]
      rcases f.poll b with ⟨b', f' | a⟩
      · exact rest_state rounds (b.cancelled, b.board) b' f' agenda
      · rfl

end Rehearsal

/-! ## Late codes

The past of a bench is all that others have still to read, and all that happened before.  A late
code is put into it at once, unless it is lost. -/

namespace Bench

/-- The past of a bench: what has not been read, and what happened. -/
def past (b : Bench) : Past := ⟨b.board.unread, b.history⟩

/-- The bench as if all had been read and nothing had happened. -/
def anew (b : Bench) : Bench :=
  { b with board := { b.board with seats := b.board.seats.map fun s => (s.1, []) }, history := [] }

/-- The tickets on the seats were issued, and no two are the same. -/
structure Orderly (b : Bench) : Prop where
  sound : b.board.Sound
  distinct : b.board.tickets.Nodup

variable {b : Bench} {line : Bytes}

/-- A line leaves the tickets in order. -/
theorem Orderly.emit (h : b.Orderly) (line : Bytes) : (b.emit line).Orderly := by
  unfold Bench.emit
  split
  · exact h
  · split
    · rename_i hpublish
      exact ⟨h.sound.publish hpublish, (Board.tickets_publish hpublish).symm ▸ h.distinct⟩
    · exact ⟨h.sound, h.distinct⟩

/-- A bench is what it is anew, with its past behind it. -/
theorem anew_behind_past (h : b.Orderly) : b.anew.behind b.past = b := by
  have hseats : b.board.seats.map (fun s => (s.1, b.board.unread s.1)) = b.board.seats := by
    conv => rhs; rw [← List.map_id b.board.seats]
    refine List.map_congr_left fun seat hseat => ?_
    rw [Board.unread_of_mem h.distinct hseat]
    rfl
  have hbehind : (b.anew.behind b.past).board.seats = b.board.seats := by
    simpa [anew, behind, past, Board.behind, Function.comp_def] using hseats
  obtain ⟨now, cancelled, ⟨issued, seats⟩, script, log, fault, modes, history⟩ := b
  simp only [behind, anew, past, Board.behind] at hbehind ⊢
  rw [hbehind, List.append_nil]

/-- The past says nothing of tickets that are still to be issued. -/
theorem past_endsBelow (h : b.Orderly) : b.past.EndsBelow b.board.issued := by
  intro ticket hticket
  refine Board.unread_of_not_seated fun hseated => ?_
  have hissued := h.sound.lt_issued hseated
  omega

/-- A line that is emitted and not lost belongs to the past at once. -/
theorem emit_within (hlossless : (b.emit line).losses ≤ b.losses) :
    (b.emit line).anew = b.anew ∧ b.past.Within (b.emit line).past := by
  unfold Bench.emit at hlossless ⊢
  split
  · exact ⟨rfl, Past.Within.refl _⟩
  · rename_i code hcode
    simp only [hcode] at hlossless
    split
    · rename_i board hpublish
      refine ⟨?_, fun ticket => ?_⟩
      · rw [Board.publish?_eq_some hpublish]
        simp [anew, tell]
      · show (b.board.unread ticket).length ≤ (board.unread ticket).length
        by_cases hseated : b.board.Seated ticket
        · rw [Board.unread_publish hseated hpublish]
          simp
        · rw [Board.unread_of_not_seated hseated]
          exact Nat.zero_le _
    · -- a line that finds no room would be a loss
      rename_i hfull
      simp only [hfull, losses_note, if_true] at hlossless
      omega

end Bench

namespace Rehearsal

variable {b b' c c' : Bench} {events : List (Nat × Event)} {q : Procedure α} {a a' : α}

/-- A run to the end of a procedure that keeps to its own seats. -/
theorem heedless_rehearsal (hq : q.KeepsTo []) (rounds : Nat) (agenda : Agenda) :
    Heedless n fun b => (schedule.run rounds ⟨b, .pending (.start q), agenda⟩).state :=
  heedless_run (f := .start q) hq (fun _ h => nomatch h) rounds agenda

/-- A rehearsal that ends has a state from some round on. -/
theorem EndsIn.state (h : EndsIn b events q a c) : ∃ rounds, ∀ more, ∃ agenda,
    (schedule.run (rounds + more) ⟨b, .pending (.start q), .ofList b.now events⟩).state =
      (c, .ready a, agenda) := by
  obtain ⟨rounds, hrun⟩ := h
  refine ⟨rounds, fun more => ?_⟩
  have hrun := hrun more
  simp only [run, Prod.mk.injEq] at hrun
  rcases hend : schedule.run (rounds + more) ⟨b, .pending (.start q), .ofList b.now events⟩ with
    ⟨c', f | a', agenda⟩
  · rw [hend] at hrun
    cases hrun.1
  · rw [hend] at hrun
    obtain ⟨hvalue, rfl⟩ := hrun
    obtain rfl := Option.some.inj hvalue
    exact ⟨agenda, rfl⟩

/-- No loss is made good. -/
theorem EndsIn.losses (hq : q.KeepsTo []) (h : EndsIn b events q a c) : b.losses ≤ c.losses := by
  obtain ⟨rounds, hrun⟩ := h.state
  obtain ⟨agenda, hrun⟩ := hrun 0
  have hle := (heedless_rehearsal hq (rounds + 0) (.ofList b.now events)).losses b (Nat.le_refl _)
  rwa [hrun] at hle

/-- A procedure that keeps to its own seats does the same whatever others have still to read, as
long as nothing is lost. -/
theorem EndsIn.behind (hq : q.KeepsTo []) {p p' : Past} (hends : p'.EndsBelow b.board.issued)
    (hle : p.Within p') (hrun : EndsIn (b.behind p) events q a c)
    (hrun' : EndsIn (b.behind p') events q a' c') (hlossless : c'.losses ≤ b.losses) :
    a' = a ∧ ∃ d : Bench, c = d.behind p ∧ c' = d.behind p' := by
  obtain ⟨rounds, hrun⟩ := hrun.state
  obtain ⟨rounds', hrun'⟩ := hrun'.state
  obtain ⟨agenda, hrun⟩ := hrun rounds'
  obtain ⟨agenda', hrun'⟩ := hrun' rounds
  -- both runs are carried on to the same number of rounds
  rw [Nat.add_comm rounds' rounds] at hrun'
  have hheedless :=
    heedless_rehearsal (n := b.board.issued) hq (rounds + rounds') (.ofList b.now events)
  have hkept := Nat.le_trans (Nat.le_of_eq (congrArg (·.1.losses) hrun')) hlossless
  have hsame := hheedless.behind b p' (Nat.le_refl _) hends hkept
  have hpast := hrun.symm.trans (hsame p hle)
  have hpast' := hrun'.symm.trans (hsame p' (Past.Within.refl p'))
  obtain ⟨hc, hmain⟩ := Prod.mk.inj hpast
  obtain ⟨hc', hmain'⟩ := Prod.mk.inj hpast'
  exact ⟨Poll.ready.inj (Prod.mk.inj (hmain'.trans hmain.symm)).1, _, hc, hc'⟩

/-- A line that was emitted before a procedure was begun makes no difference to it, unless a code is
lost. -/
theorem EndsIn.late_line (hb : b.Orderly) (hq : q.KeepsTo []) (line : Bytes)
    (hrun : EndsIn b events q a c) (hrun' : EndsIn (b.emit line) events q a' c')
    (hlossless : c'.losses ≤ b.losses) :
    a' = a ∧ c'.log = c.log ∧ c'.now = c.now := by
  obtain ⟨hanew, hwithin⟩ := Bench.emit_within (Nat.le_trans (hrun'.losses hq) hlossless)
  have hends : (b.emit line).past.EndsBelow b.anew.board.issued := by
    have hissued : (b.emit line).board.issued = b.board.issued := congrArg (·.board.issued) hanew
    exact hissued ▸ Bench.past_endsBelow (hb.emit line)
  rw [← Bench.anew_behind_past hb] at hrun
  rw [← Bench.anew_behind_past (hb.emit line), hanew] at hrun'
  obtain ⟨rfl, d, rfl, rfl⟩ := EndsIn.behind hq hends hwithin hrun hrun' hlossless
  exact ⟨rfl, rfl, rfl⟩

end Rehearsal

end Cellular
