import Cellular.Proofs.Vendor.Cinterion
import Cellular.Proofs.Vendor.Seats
/-!
# Switching a module off

The reply to the command and the report that the module shuts down may come in either order, and the
reply may be a failure: all that counts is when they come (`powerOffEnding`).  The wait reads
whatever else is published and takes no notice of it.

A report that comes when the wait has been given up is there for nobody: the seat has been given up,
too.

The law follows from that of joined commands in three steps: no answer to the command is refused, so
both signals are waited for in any case; whoever has just sat down has nothing to read, so the
report that counts is the first one published since; and the end of the joined wait is then computed
from the two moments (`joined_ending`).
-/

namespace Cellular.Cinterion

open Operation

/-! ## The ending as a formula

The formula knows of the answer only when it comes, and of the report only when it is published. 
What the answer says does not enter into it. -/

/-- The moment of the first report that the module shuts down. -/
def shutdown? (es : Chronicle) : Option Nat := (es.codes.find? (·.2 = .shutdown)).map Prod.fst

/-- What switching off ends in when both the reply and the report are there by `limit`, and when
that is. -/
def powerOffEnding (limit reply : Nat) : Option Nat → Except Error Unit × Nat
  | some report =>
    if reply ≤ limit ∧ report ≤ limit then (.ok (), max reply report)
    else (.error (.operationTimeout "Power off operation timed out"), limit)
  | none => (.error (.operationTimeout "Power off operation timed out"), limit)

/-- Without the reply the report does not count. -/
theorem powerOffEnding_of_lt {limit reply : Nat} (h : limit < reply) (report : Option Nat) :
    powerOffEnding limit reply report =
      (.error (.operationTimeout "Power off operation timed out"), limit) := by
  cases report with
  | none => rfl
  | some report => exact if_neg fun hboth => Nat.not_le.mpr h hboth.1

/-! ## The wait

Switching off is a joined wait with the policy that lets no failed reply end it.  Its law has
one constructor for each ending; read for this command, three of the four endings are left, and they
are the cases of the formula. -/

variable {m m' : Cinterion} {b b' : Bench} {es : Chronicle} {result : Except Error Unit}

/-- The command that is joined with the report. -/
def switchingOff (m : Cinterion) (ticket : Nat) : JoinedCommand :=
  { request := Command.switchOff.request,
    settle := fun answer =>
      (Severity.fatal.outcome (Command.switchOff.outcome answer)).map fun _ => (),
    ticket, wanted := (· = .shutdown),
    terms := ⟨.awaitNotification, m.timing.powerOffWait, "Power off operation timed out"⟩ }

/-- No failure of the command ends the wait. -/
theorem switchingOff_refuses (m : Cinterion) (ticket : Nat) (r : Except Error Unit) :
    (m.switchingOff ticket).terms.refuses r = none := by
  cases r <;> rfl

/-- Who has just sat down notices the first report. -/
theorem switchingOff_notice? {ticket : Nat} (hunread : b.board.unread ticket = [])
    (es : Chronicle) :
    (m.switchingOff ticket).notice? b es = (es.codes.find? (·.2 = .shutdown)).map Prod.snd := by
  have hreadable : (m.switchingOff ticket).readable b es = es.codes.map Prod.snd := by
    show b.board.unread ticket ++ _ = _
    rw [hunread, List.nil_append]
  rw [JoinedCommand.notice?, hreadable, List.find?_map]
  rfl

/-- The joined wait ends as the formula says. -/
theorem joined_ending {ticket : Nat} {outcome : Join.Outcome Unit Urc}
    (hunread : b.board.unread ticket = []) (h : (m.switchingOff ticket).Joined b outcome b' es) :
    (outcome.map fun _ => (), b'.now) =
      powerOffEnding (b.now + m.timing.powerOffWait) (b.now + b.delay) (shutdown? es) := by
  have hlatest : (m.switchingOff ticket).latest b = b.now + m.timing.powerOffWait := rfl
  cases h with
  | refused _ _ hrefused _ => rw [switchingOff_refuses] at hrefused; cases hrefused
  | joined hanswered _ hnotice hlimit hprompt =>
    rw [switchingOff_notice? hunread] at hnotice
    obtain ⟨⟨report, _⟩, hfound, rfl⟩ := Option.map_eq_some_iff.mp hnotice
    have hmem := List.mem_of_find?_eq_some hfound
    have hreply := hanswered.on_time
    have hreport := (hanswered.grows.within _ (Chronicle.mem_codes.mp hmem)).2
    have hwanted := List.find?_some (p := fun e : Nat × Urc => e.2 = .shutdown) hfound
    -- the wait ends when the later of the answer and the report comes
    have hprompt : b'.now = b.now + b.delay ∨ report = b'.now :=
      hprompt.imp_right fun hfresh => hfresh _ hmem hwanted
    rw [hlatest] at hlimit
    have hmax : max (b.now + b.delay) report = b'.now := by omega
    have hboth : b.now + b.delay ≤ b.now + m.timing.powerOffWait ∧
        report ≤ b.now + m.timing.powerOffWait := by omega
    rw [shutdown?, hfound, Option.map_some, powerOffEnding, if_pos hboth, hmax]
    rfl
  | unanswered _ hlate hlimit =>
    have hlate : m.timing.powerOffWait < b.delay := hlate
    rw [powerOffEnding_of_lt (by omega), hlimit]
    rfl
  | unnoticed _ _ hnotice hlimit =>
    rw [switchingOff_notice? hunread, Option.map_eq_none_iff] at hnotice
    rw [shutdown?, hnotice, hlimit]
    rfl

/-- Switching off sends one command and ends as the formula says, if there is a free seat. -/
theorem powerOff_runs (h : powerOff.Runs m b result m' b')
    (hfree : b.board.seats.length < Board.seatCount) (hsound : b.board.Sound) :
    m' = m ∧ ∃ es : Chronicle, b'.history = b.history ++ es ∧
      es.requests = [(b.now, Command.switchOff.request)] ∧
      (result, b'.now) = powerOffEnding (b.now + m.timing.powerOffWait) (b.now + b.delay)
      (shutdown? es) := by
  unfold powerOff at h
  obtain ⟨ticket, board, b₁, hseated, hunread, hinner, rfl⟩ :=
    h.bind_get.withSeat_of_free hfree hsound
  obtain ⟨outcome, rfl, hjoin⟩ := hinner.discard
  obtain ⟨rfl, es, hjoined⟩ := hjoin.join hseated
  obtain ⟨hgrows, hrequests⟩ := hjoined.sent
  have hending : (outcome.map fun _ => (), b₁.now) = _ := joined_ending (m := m') hunread hjoined
  exact ⟨rfl, es, hgrows.history, hrequests, hending⟩

/-- The seats are afterwards as they were before. -/
theorem powerOff_orderly {events : List (Nat × Event)} {x : Except Error Unit × Cinterion}
    (hb : b.Orderly) (hends : Rehearsal.EndsIn b events (powerOff.run.run m) x b') :
    b'.Orderly := by
  obtain ⟨held, rfl, hbooks⟩ :=
    hends.abides (Books.custody b.board.tickets) m.powerOff_abides (.start hb.sound)
  refine ⟨hbooks.sound, ?_⟩
  rw [hbooks.tickets, List.reverse_nil, List.append_nil]
  exact hb.distinct

/-! ## The law -/

/-- **Switching off.**  It always ends: with success as soon as the command has been answered, in
whatever way, and the module has reported that it shuts down, if both are there by the last moment;
with a timeout at that moment if they are not.  Only the command is sent, and the modem stays what
it was.

Later on, a report that comes late, like any other line, changes no operation that is begun after
it: neither its result and the state that it leaves nor what is sent, nor when it ends, unless a
code is lost. -/
theorem power_off_outcome (m : Cinterion) (b : Bench) (events : List (Nat × Event))
    (hfree : b.board.seats.length < Board.seatCount) (hb : b.Orderly) :
    (∃ result b', ∃ es : Chronicle,
      Rehearsal.EndsIn b events (powerOff.run.run m) (result, m) b' ∧ b'.Orderly ∧
      b'.history = b.history ++ es ∧ es.requests = [(b.now, Command.switchOff.request)] ∧
      (result, b'.now) = powerOffEnding (b.now + m.timing.powerOffWait) (b.now + b.delay)
      (shutdown? es)) ∧
    ∀ {α : Type} (op : Operation Cinterion α) (s : Cinterion) (c : Bench) (line : Bytes)
      (later : List (Nat × Event)),
      IsOperation op → c.Orderly →
      ∃ x d x' d', Rehearsal.EndsIn c later (op.run.run s) x d ∧
        Rehearsal.EndsIn (c.emit line) later (op.run.run s) x' d' ∧
        (d'.losses ≤ c.losses → x' = x ∧ d'.log = d.log ∧ d'.now = d.now) := by
  refine ⟨?_, fun op s c line later hop hc => hop.modest.late_line s hc line later⟩
  obtain ⟨⟨result, m'⟩, b', hends, hruns⟩ := Rehearsal.exists_endsIn b events (powerOff.run.run m)
  obtain ⟨rfl, es, hhistory, hrequests, hending⟩ := powerOff_runs hruns hfree hb.sound
  exact ⟨result, b', es, hends, powerOff_orderly hb hends, hhistory, hrequests, hending⟩

/-- A modem that waits for 50 milliseconds. -/
def sample : Cinterion := { radio := .g2, hasNetPort := false, timing := { powerOffWait := 50 } }

/-- Somebody else has a seat, and the next command is answered so. -/
def shared (turn : Turn) : Bench :=
  { board := { issued := 1, seats := [(0, [])] }, script := [turn] }

/-- The report comes first, and then the command fails: that is a success, at the moment of the
answer.  When the report has come late instead, the command after it is not affected. -/
theorem power_off_outcome_shared :
    let failing := shared { delay := some 20, answer := .error .error }
    let quiet := shared { answer := .ok [] }
    let shutdown := Bytes.ofString "^SHUTDOWN"
    (failing.board.seats.length < Board.seatCount ∧ failing.Orderly ∧ quiet.Orderly) ∧
    (∃ b', Rehearsal.EndsIn failing [(10, .line shutdown)] (powerOff.run.run sample)
      (.ok (), sample) b' ∧
      b'.now = 20) ∧
    ∃ x d d', Rehearsal.EndsIn quiet [] (setupFlowControl.run.run sample) x d ∧
      Rehearsal.EndsIn (quiet.emit shutdown) [] (setupFlowControl.run.run sample) x d' ∧
      d'.log = d.log := by
  intro failing quiet shutdown
  have horderly : ∀ turn, (shared turn).Orderly := fun turn =>
    ⟨fun seat hseat => (List.mem_singleton.mp hseat) ▸ Nat.one_pos,
      List.nodup_cons.mpr ⟨nofun, List.nodup_nil⟩⟩
  have hfree : failing.board.seats.length < Board.seatCount := by decide
  obtain ⟨⟨result, b', es, hends, -⟩, hlate⟩ :=
    power_off_outcome sample failing [(10, .line shutdown)] hfree (horderly _)
  refine ⟨⟨hfree, horderly _, horderly _⟩, ?_, ?_⟩
  · -- an ending is unique, so the run that is computed is the one of the theorem
    have hrun : (Rehearsal.run 6 failing [(10, .line shutdown)] (powerOff.run.run sample)).1.map
      (·.1.toOption) =
        some (some ()) := by decide +kernel
    have hnow : (Rehearsal.run 6 failing [(10, .line shutdown)] (powerOff.run.run sample)).2.now =
        20 := by
      decide +kernel
    obtain ⟨⟨x, m⟩, hrun, hok⟩ := Option.map_eq_some_iff.mp hrun
    obtain ⟨hx, hb'⟩ := hends.unique (.of_run hrun)
    obtain ⟨rfl, -⟩ := Prod.mk.inj hx
    cases result with
    | ok _ => exact ⟨b', hends, hb' ▸ hnow⟩
    | error e => cases hok
  · obtain ⟨x, d, x', d', hplain, hafter, hsame⟩ :=
      hlate setupFlowControl sample quiet shutdown [] .setupFlowControl (horderly _)
    have hrun :
        (Rehearsal.run 1 (quiet.emit shutdown) [] (setupFlowControl.run.run sample)).1.isSome := by
      decide +kernel
    obtain ⟨y, hrun⟩ := Option.isSome_iff_exists.mp hrun
    obtain ⟨-, rfl⟩ := hafter.unique (.of_run hrun)
    obtain ⟨rfl, hlog, -⟩ := hsame (by decide +kernel)
    exact ⟨x', d, _, hplain, hafter, hlog⟩

end Cellular.Cinterion
