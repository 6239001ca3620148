import Cellular.Proofs.Wait.Sleeper
/-!
# A debouncer and the party that waits for it

A `Watch` is a debouncer over time, next to the party that waits for it to expire, over and over.
Arms, cancels and polls come in any order; `Watch.Attended` says what a clock has to do with them:
it goes on only while another poll of the party would make no difference, and no further than to the
party's timer, and between two polls there are fewer arms and cancels than there are generations.

What is taken down of such a run (`Watch.log`) is a walk through two states (`Walk`): nothing is
pending, or a deadline is that was set at a certain moment.  Each event is an edge.  So an arm that
takes effect is followed by nothing but arms in vain up to the cancel or the expiry that it comes
to; and an expiry comes neither early nor late, since what expires is due (`Sleeper.Behind.ready`)
and the clock does not pass a deadline that is set (`Standing.early`).

The invariant of a run is `Standing`.  It ties the debouncer to the state of the walk, and has two
parts that only a clock can keep up: the deadline has not passed by, and the party has missed fewer
changes than there are generations.  Each kind of move keeps it (`Standing.arm`, `Standing.cancel`,
`Standing.poll`, `Standing.pass`), and what is then said of a log is a matter of walks alone and
does not mention debouncers any more.
-/

namespace Cellular.Debouncer

/-! ## Single calls

Arms and cancels come in two kinds each: those that take effect and those that are in vain.  Which
one it is shows by whether a deadline is set. -/

/-- Whether a party waits on or goes on, it does nothing but disarm. -/
theorem pollExpired_cases (d : Debouncer) (now : Nat) (s : Sleeper) :
    (∃ s', d.pollExpired now s = (d, .pending s')) ∨
      d.pollExpired now s = ({ d with deadline := none }, .ready ()) := by
  cases s with
  | idle => exact .inl ⟨_, rfl⟩
  | asleep timer generation =>
    rw [pollExpired]
    split <;> split
    · exact .inr rfl
    · exact .inl ⟨_, rfl⟩
    · exact .inl ⟨_, rfl⟩
    · exact .inl ⟨_, rfl⟩

/-- An arm in vain. -/
theorem arm_of_armed {d : Debouncer} {deadline : Nat} (h : d.deadline = some deadline) (now : Nat) :
    d.arm now = (d, false) := by
  rw [arm, h]

/-- An arm that takes effect: the deadline is set, a timeout from now. -/
theorem arm_of_disarmed {d : Debouncer} (h : d.deadline = none) (now : Nat) :
    d.arm now =
      ({ d with deadline := some (now + d.timeout), generation := d.generation + 1 }, true) := by
  rw [arm, h]

theorem cancel_of_armed {d : Debouncer} {deadline : Nat} (h : d.deadline = some deadline) :
    d.cancel = ({ d with deadline := none, generation := d.generation + 1 }, true) := by
  rw [cancel, h]

/-- A cancel in vain. -/
theorem cancel_of_disarmed {d : Debouncer} (h : d.deadline = none) : d.cancel = (d, false) := by
  rw [cancel, h]

/-! ## Runs

A run is a list of moves.  What each of them does is a function of the watch, so the log of a run is
determined by its moves; the conditions on what may happen next are about the state in which a move
comes. -/

/-- A debouncer, the clock, and the party that waits for expiry. -/
structure Watch where
  now : Nat
  debouncer : Debouncer
  sleeper : Sleeper := .idle
  deriving DecidableEq, Repr

/-- What may happen. -/
inductive Move where
  | arm
  | cancel
  /-- The party is polled; once it has seen an expiry it waits for the next. -/
  | poll
  /-- Time goes on. -/
  | pass (span : Nat)
  deriving DecidableEq, Repr

/-- What is taken down. -/
inductive Event where
  | armed (effect : Bool)
  | cancelled (effect : Bool)
  | expired
  deriving DecidableEq, Repr

namespace Watch

/-- What comes of a move. -/
def step (w : Watch) : Move → Watch × Option Event
  | .arm =>
    ({ w with debouncer := (w.debouncer.arm w.now).1 }, some (.armed (w.debouncer.arm w.now).2))
  | .cancel =>
    ({ w with debouncer := w.debouncer.cancel.1 }, some (.cancelled w.debouncer.cancel.2))
  | .poll =>
    match w.debouncer.pollExpired w.now w.sleeper with
    | (debouncer, .pending sleeper) => ({ w with debouncer, sleeper }, none)
    | (debouncer, .ready ()) => ({ w with debouncer, sleeper := debouncer.settle }, some .expired)
  | .pass span => ({ w with now := w.now + span }, none)

/-- What moves lead to. -/
def run (w : Watch) (moves : List Move) : Watch := moves.foldl (fun w m => (w.step m).1) w

/-- What happens in a run, and when. -/
def log (w : Watch) : List Move → List (Nat × Event)
  | [] => []
  | m :: moves => ((w.step m).2.map (w.now, ·)).toList ++ (w.step m).1.log moves

/-- How many arms and cancels there have been since the party was polled, after a move. -/
def callsAfter (calls : Nat) : Move → Nat
  | .arm | .cancel => calls + 1
  | .poll => 0
  | .pass _ => calls

/-- How many there have been after a list of moves. -/
def callsSince (calls : Nat) (moves : List Move) : Nat := moves.foldl callsAfter calls

/-- What may happen next where a clock sees to the party. -/
structure Admits (w : Watch) (calls : Nat) (m : Move) : Prop where
  /-- Between two polls there are fewer arms and cancels than generations. -/
  calls : callsAfter calls m < UInt32.size
  /-- Time goes on only while another poll would make no difference. -/
  rest : ∀ span, m = .pass span → 0 < span →
    w.debouncer.pollExpired w.now w.sleeper = (w.debouncer, .pending w.sleeper)
  /-- It goes no further than to the next timer. -/
  timers : ∀ span, m = .pass span → ∀ timer ∈ w.sleeper.timers, w.now + span ≤ timer

/-- All moves are ones that may happen. -/
def Attended (w : Watch) (calls : Nat) : List Move → Prop
  | [] => True
  | m :: moves => w.Admits calls m ∧ (w.step m).1.Attended (callsAfter calls m) moves

variable (w : Watch) (calls : Nat) (moves more : List Move)

theorem run_append : w.run (moves ++ more) = (w.run moves).run more := List.foldl_append

theorem callsSince_append :
    callsSince calls (moves ++ more) = callsSince (callsSince calls moves) more := List.foldl_append

/-- What happens in the second list comes behind what happens in the first. -/
theorem log_append : w.log (moves ++ more) = w.log moves ++ (w.run moves).log more := by
  induction moves generalizing w with
  | nil => rfl
  | cons m moves ih => rw [List.cons_append, log, log, ih, List.append_assoc]; rfl

/-- A run is attended if both of its parts are. -/
theorem attended_append :
    w.Attended calls (moves ++ more) ↔ w.Attended calls moves ∧
    (w.run moves).Attended (callsSince calls moves) more := by
  induction moves generalizing w calls with
  | nil => exact (iff_of_eq (true_and _)).symm
  | cons m moves ih => rw [List.cons_append, Attended, Attended, ih, and_assoc]; rfl

end Watch

/-! ## The walk of a run

A walk is read off the log alone.  The state is the moment at which the pending deadline was set, or
nothing, and from every state there are edges for the events that are possible in it: so an expiry
has to come when the timeout is over, and a cancel with effect when something is pending. -/

/-- What may happen while nothing is pending, or a deadline that was set at a moment, and what is
pending then. -/
inductive Edge (timeout : Nat) : Option Nat → Nat × Event → Option Nat → Prop
  | arm (now : Nat) : Edge timeout none (now, .armed true) (some now)
  | again (began now : Nat) : Edge timeout (some began) (now, .armed false) (some began)
  | cancel (began now : Nat) (h : now ≤ began + timeout) :
      Edge timeout (some began) (now, .cancelled true) none
  | vain (now : Nat) : Edge timeout none (now, .cancelled false) none
  | expire (began : Nat) : Edge timeout (some began) (began + timeout, .expired) none

/-- Edges one after another. -/
inductive Walk (timeout : Nat) : Option Nat → List (Nat × Event) → Option Nat → Prop
  | nil (pending : Option Nat) : Walk timeout pending [] pending
  | cons {pending next last : Option Nat} {e : Nat × Event} {log : List (Nat × Event)}
      (edge : Edge timeout pending e next) (walk : Walk timeout next log last) :
        Walk timeout pending (e :: log) last

variable {timeout : Nat} {pending last : Option Nat} {before after log : List (Nat × Event)}

/-- A walk passes through some state between any two of its parts. -/
theorem Walk.split (h : Walk timeout pending (before ++ after) last) :
    ∃ next, Walk timeout pending before next ∧ Walk timeout next after last := by
  induction before generalizing pending with
  | nil => exact ⟨pending, .nil pending, h⟩
  | cons e before ih =>
    cases h with
    | cons edge walk =>
      obtain ⟨next, hbefore, hafter⟩ := ih walk
      exact ⟨next, .cons edge hbefore, hafter⟩

/-- Walks that meet make one walk. -/
theorem Walk.append {next : Option Nat} (h : Walk timeout pending before next)
    (h' : Walk timeout next after last) :
    Walk timeout pending (before ++ after) last := by
  induction h with
  | nil => exact h'
  | cons edge _ ih => exact .cons edge (ih h')

/-- Nothing but arms in vain. -/
def InVain (log : List (Nat × Event)) : Prop := ∀ e ∈ log, e.2 = .armed false

/-- A deadline that is pending at the end was set at its moment, and nothing has come of it. -/
theorem Walk.began {began : Nat} (h : Walk timeout pending log (some began)) :
    (pending = some began ∧ InVain log) ∨
    ∃ earlier between, log = earlier ++ (began, .armed true) :: between ∧ InVain between := by
  induction log generalizing pending with
  | nil =>
    cases h
    exact .inl ⟨rfl, nofun⟩
  | cons e log ih =>
    cases h with
    | cons edge walk =>
      rcases ih walk with ⟨rfl, hvain⟩ | ⟨earlier, between, rfl, hvain⟩
      · -- only an arm that took effect begins a span
        cases edge with
        | arm => exact .inr ⟨[], log, rfl, hvain⟩
        | again => exact .inl ⟨rfl, List.forall_mem_cons.mpr ⟨rfl, hvain⟩⟩
      · exact .inr ⟨e :: earlier, between, rfl, hvain⟩

/-- What comes of a deadline that is set at a moment. -/
inductive Fate (timeout began : Nat) (log : List (Nat × Event)) (last : Option Nat) : Prop
  /-- It is taken away. -/
  | cancelled (kept rest : List (Nat × Event)) (moment : Nat)
      (hlog : log = kept ++ (moment, .cancelled true) :: rest)
      (hvain : InVain kept) (hmoment : moment ≤ began + timeout)
  /-- It passes. -/
  | expired (kept rest : List (Nat × Event))
      (hlog : log = kept ++ (began + timeout, .expired) :: rest)
      (hvain : InVain kept)
  /-- It still is pending. -/
  | pending (hvain : InVain log) (hlast : last = some began)

/-- A deadline that is pending has one of these fates. -/
theorem Walk.fate {began : Nat} (h : Walk timeout (some began) log last) :
    Fate timeout began log last := by
  induction log with
  | nil =>
    cases h
    exact .pending nofun rfl
  | cons e log ih =>
    cases h with
    | cons edge walk =>
      cases edge with
      | again _ now =>
        -- an arm in vain, and then what comes of the deadline anyway
        have hagain : ∀ kept, InVain kept → InVain ((now, .armed false) :: kept) :=
          fun kept hvain =>
          List.forall_mem_cons.mpr ⟨rfl, hvain⟩
        cases ih walk with
        | cancelled kept rest moment hlog hvain hmoment =>
          exact .cancelled (_ :: kept) rest moment (by rw [hlog]; rfl) (hagain kept hvain) hmoment
        | expired kept rest hlog hvain =>
          exact .expired (_ :: kept) rest (by rw [hlog]; rfl) (hagain kept hvain)
        | pending hvain hlast => exact .pending (hagain log hvain) hlast
      | cancel _ now hnow => exact .cancelled [] log now rfl nofun hnow
      | expire => exact .expired [] log rfl nofun

/-- A deadline that passes was set so long before, and nothing but arms in vain came in between. -/
theorem Walk.expiry {moment : Nat}
    (h : Walk timeout none (before ++ (moment, .expired) :: after) last) :
    ∃ earlier began between, before = earlier ++ (began, .armed true) :: between ∧
      moment = began + timeout ∧
      InVain between := by
  obtain ⟨next, hbefore, hafter⟩ := h.split
  cases hafter with
  | cons edge _ =>
    cases edge with
    | expire began =>
      rcases hbefore.began with ⟨hnone, -⟩ | ⟨earlier, between, rfl, hvain⟩
      · cases hnone
      · exact ⟨earlier, began, between, rfl, rfl, hvain⟩

/-- An arm that takes effect comes to a cancel or to an expiry, or is pending at the end. -/
theorem Walk.armed {began : Nat}
    (h : Walk timeout pending (before ++ (began, .armed true) :: after) last) :
    Fate timeout began after last := by
  obtain ⟨next, -, hafter⟩ := h.split
  cases hafter with
  | cons edge walk =>
    cases edge with
    | arm => exact walk.fate

/-- How often something happens. -/
def times (event : Event) (log : List (Nat × Event)) : Nat := log.countP (·.2 = event)

/-- Deadlines that are set are taken away, or pass, or are pending. -/
theorem Walk.balance (h : Walk timeout pending log last) :
    times (.armed true) log + pending.toList.length =
      times .expired log + times (.cancelled true) log + last.toList.length := by
  induction h with
  | nil => simp [times]
  | cons edge _ ih =>
    cases edge <;> simp [times] at ih ⊢ <;> omega

/-! ## A run is a walk

Every move of an attended run is an edge, or no event at all, and keeps the watch standing. -/

namespace Watch

/-- How a watch stands: what is pending is the deadline that is set, it has not passed by, and the
party is not too far behind. -/
structure Standing (timeout : Nat) (w : Watch) (pending : Option Nat) (calls : Nat) : Prop where
  span : w.debouncer.timeout = timeout
  deadline : w.debouncer.deadline = pending.map (· + timeout)
  early : ∀ began, pending = some began → w.now ≤ began + timeout
  behind : ∃ changes ≤ calls, w.sleeper.Behind w.debouncer changes

variable {w : Watch} {calls : Nat}

/-- An arm is an edge, and one more call that the party has not seen. -/
theorem Standing.arm (h : w.Standing timeout pending calls) :
    ∃ next, Edge timeout pending (w.now, .armed (w.debouncer.arm w.now).2) next ∧
      (w.step .arm).1.Standing timeout next (calls + 1) := by
  obtain ⟨changes, hchanges, hbehind⟩ := h.behind
  obtain ⟨changes', hchanges', hbehind'⟩ := hbehind.arm w.now
  have hbehind'' : ∃ changes ≤ calls + 1, (w.step .arm).1.sleeper.Behind
      (w.step .arm).1.debouncer changes :=
    ⟨changes', by omega, hbehind'⟩
  have hspan : (w.step .arm).1.debouncer.timeout = timeout :=
    (arm_timeout w.debouncer w.now).trans h.span
  cases pending with
  | none =>
    have hstep := arm_of_disarmed h.deadline w.now
    refine ⟨some w.now, ?_, hspan, ?_, ?_, hbehind''⟩
    · rw [hstep]
      exact .arm w.now
    · rw [step, hstep, h.span]
      rfl
    · rintro began ⟨⟩
      exact Nat.le_add_right w.now timeout
  | some began =>
    -- armed already, so the deadline stays where it is
    have hstep := arm_of_armed h.deadline w.now
    refine ⟨some began, ?_, hspan, ?_, h.early, hbehind''⟩
    · rw [hstep]
      exact .again began w.now
    · rw [step, hstep]
      exact h.deadline

/-- So is a cancel. -/
theorem Standing.cancel (h : w.Standing timeout pending calls) :
    ∃ next, Edge timeout pending (w.now, .cancelled w.debouncer.cancel.2) next ∧
      (w.step .cancel).1.Standing timeout next (calls + 1) := by
  obtain ⟨changes, hchanges, hbehind⟩ := h.behind
  obtain ⟨changes', hchanges', hbehind'⟩ := hbehind.cancel
  have hspan : (w.step .cancel).1.debouncer.timeout = timeout :=
    (cancel_timeout w.debouncer).trans h.span
  refine ⟨none, ?_, hspan, cancel_deadline w.debouncer, nofun, changes', by omega, hbehind'⟩
  cases pending with
  | none =>
    rw [cancel_of_disarmed h.deadline]
    exact .vain w.now
  | some began =>
    rw [cancel_of_armed h.deadline]
    exact .cancel began w.now (h.early began rfl)

/-- A poll waits on, or what is pending is due and passes. -/
theorem Standing.poll (h : w.Standing timeout pending calls) (hcalls : calls < UInt32.size) :
    ((w.step .poll).2 = none ∧ (w.step .poll).1.Standing timeout pending 0) ∨
    ∃ began, pending = some began ∧ w.now = began + timeout ∧ (w.step .poll).2 = some .expired ∧
      (w.step .poll).1.Standing timeout none 0 := by
  obtain ⟨changes, hchanges, hbehind⟩ := h.behind
  -- the counter has not come round, so the sleeper sees whether anything has changed
  have hlt : changes < UInt32.size := Nat.lt_of_le_of_lt hchanges hcalls
  rcases pollExpired_cases w.debouncer w.now w.sleeper with ⟨sleeper, hpoll⟩ | hpoll
  · have hsettled : sleeper = w.debouncer.settle := hbehind.pending hlt hpoll
    left
    simp only [step, hpoll]
    refine ⟨trivial, h.span, h.deadline, h.early, 0, Nat.le_refl 0, ?_⟩
    rw [hsettled]
    exact settle_behind w.debouncer
  · obtain ⟨deadline, hdeadline, hdue⟩ := hbehind.ready hlt hpoll
    right
    rw [h.deadline] at hdeadline
    obtain ⟨began, rfl, rfl⟩ := Option.map_eq_some_iff.mp hdeadline
    have hearly : w.now ≤ began + timeout := h.early began rfl
    simp only [step, hpoll]
    exact ⟨began, rfl, Nat.le_antisymm hearly hdue, trivial, h.span, rfl, nofun, 0, Nat.le_refl 0,
      settle_behind _⟩

/-- Time does not pass a deadline that is pending. -/
theorem Standing.pass {span : Nat} (h : w.Standing timeout pending calls)
    (hadmits : w.Admits calls (.pass span)) :
    (w.step (.pass span)).1.Standing timeout pending calls := by
  refine ⟨h.span, h.deadline, ?_, h.behind⟩
  rintro began rfl
  have hearly : w.now ≤ began + timeout := h.early began rfl
  show w.now + span ≤ began + timeout
  by_cases hspan : 0 < span
  · have hrest := hadmits.rest span rfl hspan
    obtain ⟨changes, hchanges, hbehind⟩ := h.behind
    -- a party at rest sleeps on the deadline that is set
    have hsettled : w.sleeper = w.debouncer.settle :=
      hbehind.pending (Nat.lt_of_le_of_lt hchanges hadmits.calls) hrest
    have htimer : began + timeout ∈ w.sleeper.timers := by
      rw [hsettled, settle, h.deadline]
      exact List.mem_singleton_self _
    exact hadmits.timers span rfl _ htimer
  · omega

/-- Whatever may happen next is an edge, or no event. -/
theorem Standing.step {m : Move} (h : w.Standing timeout pending calls)
    (hcalls : calls < UInt32.size) (hadmits : w.Admits calls m) :
    ∃ next, Walk timeout pending ((w.step m).2.map (w.now, ·)).toList next ∧
      (w.step m).1.Standing timeout next (callsAfter calls m) := by
  cases m with
  | arm =>
    obtain ⟨next, hedge, hstanding⟩ := h.arm
    exact ⟨next, .cons hedge (.nil next), hstanding⟩
  | cancel =>
    obtain ⟨next, hedge, hstanding⟩ := h.cancel
    exact ⟨next, .cons hedge (.nil next), hstanding⟩
  | poll =>
    rcases h.poll hcalls with ⟨hnothing, hstanding⟩ | ⟨began, rfl, hnow, hexpired, hstanding⟩
    · rw [hnothing]
      exact ⟨pending, .nil pending, hstanding⟩
    · rw [hexpired, hnow]
      exact ⟨none, .cons (.expire began) (.nil none), hstanding⟩
  | pass span => exact ⟨pending, .nil pending, h.pass hadmits⟩

/-- An attended run is a walk, and the watch stands at its end. -/
theorem Standing.run {moves : List Move} (h : w.Standing timeout pending calls)
    (hcalls : calls < UInt32.size) (hattended : w.Attended calls moves) :
    ∃ next, Walk timeout pending (w.log moves) next ∧
    (w.run moves).Standing timeout next (callsSince calls moves) := by
  induction moves generalizing w pending calls with
  | nil => exact ⟨pending, .nil pending, h⟩
  | cons m moves ih =>
    obtain ⟨hadmits, hrest⟩ := hattended
    obtain ⟨next, hwalk, hstanding⟩ := h.step hcalls hadmits
    obtain ⟨last, hwalk', hstanding'⟩ := ih hstanding hadmits.calls hrest
    exact ⟨last, hwalk.append hwalk', hstanding'⟩

/-- A new debouncer, and a party that begins to wait. -/
theorem standing_start (timeout now : Nat) :
    Watch.Standing timeout { now, debouncer := { timeout } } none 0 :=
  ⟨rfl, rfl, nofun, 0, Nat.le_refl 0, trivial⟩

theorem Standing.isArmed (h : w.Standing timeout pending calls) :
    w.debouncer.isArmed = pending.isSome := by
  rw [Debouncer.isArmed, h.deadline, Option.isSome_map]

/-- A debouncer whose expiry is awaited over and over, armed and cancelled at any moments.  Every
arm that takes effect comes to one expiry, or to one cancel, or is pending at the end.  While the
debouncer is armed, an arm changes nothing.  What expires was set exactly one timeout before, and
nothing but arms in vain came in between.  An arm that takes effect is cancelled no later than one
timeout after, or expires exactly then, or the run is over before or then.  Expiry disarms. -/
theorem arms_come_to {timeout start : Nat} {moves : List Move}
    (h : Attended { now := start, debouncer := { timeout } } 0 moves) :
    let w : Watch := { now := start, debouncer := { timeout } }
    times (.armed true) (w.log moves) =
      times .expired (w.log moves) + times (.cancelled true) (w.log moves) +
        (if (w.run moves).debouncer.isArmed then 1 else 0) ∧
    (∀ before after, moves = before ++ .arm :: after → (w.run before).debouncer.isArmed = true →
      (w.run before).step .arm = (w.run before, some (.armed false))) ∧
    (∀ before moment after, w.log moves = before ++ (moment, .expired) :: after →
      ∃ earlier began between, before = earlier ++ (began, .armed true) :: between ∧
        moment = began + timeout ∧
        InVain between) ∧
    (∀ before began after, w.log moves = before ++ (began, .armed true) :: after →
      (∃ kept moment rest, after = kept ++ (moment, .cancelled true) :: rest ∧ InVain kept ∧
        moment ≤ began + timeout) ∨
      (∃ kept rest, after = kept ++ (began + timeout, .expired) :: rest ∧ InVain kept) ∨
      InVain after ∧ (w.run moves).now ≤ began + timeout) ∧
    ∀ before after, moves = before ++ .poll :: after →
      ((w.run before).step .poll).2 = some .expired →
      ((w.run before).step .poll).1.debouncer.isArmed = false := by
  intro w
  -- the log is a walk, and what is to be shown are laws of walks
  obtain ⟨last, hwalk, hstanding⟩ := (standing_start timeout start).run (by decide) h
  refine ⟨?_, ?_, ?_, ?_, ?_⟩
  · have hbalance := hwalk.balance
    rw [hstanding.isArmed]
    cases last with
    | none => exact hbalance
    | some began => exact hbalance
  · intro before after _ harmed
    obtain ⟨deadline, hdeadline⟩ := Option.isSome_iff_exists.mp harmed
    rw [step, arm_of_armed hdeadline]
  · rintro before moment after hlog
    rw [hlog] at hwalk
    exact hwalk.expiry
  · rintro before began after hlog
    rw [hlog] at hwalk
    cases hwalk.armed with
    | cancelled kept rest moment hlog hvain hmoment =>
      exact .inl ⟨kept, moment, rest, hlog, hvain, hmoment⟩
    | expired kept rest hlog hvain => exact .inr (.inl ⟨kept, rest, hlog, hvain⟩)
    | pending hvain hlast => exact .inr (.inr ⟨hvain, hstanding.early began hlast⟩)
  · intro before after _ hexpired
    rcases pollExpired_cases (w.run before).debouncer (w.run before).now (w.run before).sleeper with
      ⟨sleeper, hpoll⟩ | hpoll
    · simp [step, hpoll] at hexpired
    · simp [step, hpoll, Debouncer.isArmed]

/-- An arm in vain, a cancel and another arm: the first deadline does not pass, and the second
does. -/
theorem arms_come_to_second :
    let w : Watch := { now := 0, debouncer := { timeout := 10 } }
    let moves : List Move :=
      [.arm, .poll, .pass 3, .arm, .cancel, .arm, .poll, .pass 10, .poll, .pass 5]
    w.log moves = [(0, .armed true), (3, .armed false), (3, .cancelled true), (3, .armed true),
      (13, .expired)] ∧
    times (.armed true) (w.log moves) =
      times .expired (w.log moves) + times (.cancelled true) (w.log moves) +
        (if (w.run moves).debouncer.isArmed then 1 else 0) ∧
    ∃ earlier began between, [(0, .armed true), (3, .armed false), (3, .cancelled true),
      (3, .armed true)] =
      earlier ++ (began, .armed true) :: between ∧ 13 = began + 10 ∧ InVain between := by
  intro w moves
  have hlog : w.log moves = [(0, .armed true), (3, .armed false), (3, .cancelled true),
      (3, .armed true), (13, .expired)] := by
    decide
  -- time passes at rest, and not beyond a timer
  have hpass : ∀ {w : Watch} {span : Nat}, w.debouncer.pollExpired w.now w.sleeper =
    (w.debouncer, .pending w.sleeper) →
      (∀ timer ∈ w.sleeper.timers, w.now + span ≤ timer) → w.Admits 0 (.pass span) := by
    intro w span hrest htimers
    refine ⟨show 0 < UInt32.size by decide, fun _ _ _ => hrest, ?_⟩
    rintro _ ⟨⟩
    exact htimers
  have hattended : w.Attended 0 moves :=
    ⟨⟨by decide, nofun, nofun⟩, ⟨by decide, nofun, nofun⟩, hpass rfl (by decide),
      ⟨by decide, nofun, nofun⟩, ⟨by decide, nofun, nofun⟩, ⟨by decide, nofun, nofun⟩,
      ⟨by decide, nofun, nofun⟩, hpass rfl (by decide), ⟨by decide, nofun, nofun⟩,
      hpass rfl (by decide), trivial⟩
  obtain ⟨hbalance, -, hexpiries, -, -⟩ := arms_come_to hattended
  exact ⟨hlog, hbalance, hexpiries _ 13 [] hlog⟩

end Watch

end Cellular.Debouncer
