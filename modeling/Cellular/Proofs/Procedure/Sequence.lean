import Cellular.Proofs.Bench.Halting
import Cellular.Proofs.Procedure.Runs
import Mathlib.Order.Bounds.Defs
/-!
# Steps in a row

A sequence takes its steps one after another until one of them fails (`Operation.sequence`).  There
are two ways to fail: the step's command fails and the step does not put up with it (`Step.Stops`),
or the sequence is watched and the token is set when the command is due to be sent.  The token is
not looked at in between, so what a step gives is decided by the answer to its command alone.

A run is followed step by step (`Sequence.Course`).  How far it got, and why no further, is read off
that by induction on the steps (`Sequence.Course.law`).

The account has three layers.

1. A step: its command is sent and answered, or the token was found set before that (`step_runs`).
2. A course: steps in a row, as an inductive relation with one constructor for each way in which a
   step can leave the sequence.  Every run is one (`sequence_runs`), and courses can be put
   together.
3. The law: what can be said of a course without going through its steps, namely which commands were
   sent, what each of them gave, and what the sequence ends in, all in terms of the answers and of
   the looks at the token.  It is kept by one more step in front, which is the only induction.

Places are counted from 0.  With a step in front all places move by one, and so do the answers and
the looks; that is what the lemmas named `cons` and `succ` are about.
-/

namespace Cellular

/-- The failures of a command that a soft step puts up with. -/
inductive Error.Passable : Error → Prop where
  | transport (cause : LinkError) : Passable (.transport cause)
  | timeout : Passable .timeout
  | rejected (text : String) : Passable (.rejected text)

/-- What a soft step puts up with can be computed. -/
theorem Error.isCommandFailure_iff (e : Error) : e.isCommandFailure = true ↔ e.Passable := by
  constructor
  · intro h
    cases e with
    | transport cause => exact .transport cause
    | timeout => exact .timeout
    | rejected text => exact .rejected text
    | _ => cases h
  · rintro (_ | _ | _) <;> rfl

/-! ## Steps that stop

A step has an outcome for each answer: a value, no value if its failure is put up with, or an
error.  Where it is an error the sequence stops, so to stop is a property of the step and the
answer alone. -/

/-- A command, and what its failure does to the sequence it is a step of.  Commands that give values
of several types share the sum of them. -/
structure Step (α : Type) where
  severity : Severity
  command : Command α

namespace Step

variable {α : Type} {s : Step α} {answer : Except LinkError Bytes} {e : Error} {value : Option α}

/-- What comes of the step when its command gets that answer. -/
def outcome (s : Step α) (answer : Except LinkError Bytes) : Except Error (Option α) :=
  s.severity.outcome (s.command.outcome answer)

/-- The command fails with that answer, and the step does not put up with it. -/
def Stops (s : Step α) (answer : Except LinkError Bytes) (e : Error) : Prop :=
  s.command.outcome answer = .error e ∧ (s.severity = .fatal ∨ ¬ e.Passable)

/-- A step has an error for its outcome just if it stops with it. -/
theorem outcome_eq_error : s.outcome answer = .error e ↔ s.Stops answer e := by
  obtain ⟨severity, command⟩ := s
  cases severity with
  | fatal => simp [outcome, Stops, Severity.fatal_eq_error]
  | soft =>
    rw [outcome, Severity.soft_eq_error, ← Bool.not_eq_true, Error.isCommandFailure_iff]
    simp [Stops]

theorem outcome_of_ok {a : α} (h : s.command.outcome answer = .ok a) :
    s.outcome answer = .ok (some a) := by
  simp [outcome, h, Severity.outcome]

/-- A failure that is put up with leaves no value. -/
theorem outcome_of_passable (h : s.command.outcome answer = .error e) (hsoft : s.severity = .soft)
    (hpass : e.Passable) : s.outcome answer = .ok none := by
  simp [outcome, h, hsoft, Severity.outcome, e.isCommandFailure_iff.mpr hpass]

end Step

/-- Take steps one after another until one of them fails, and write down what each of them gives. -/
def Operation.sequence {α : Type} (watched : Bool) :
    List (Step α) → Operation (List (Option α)) Unit
  | [] => pure ()
  | s :: rest => do
    let value ← step watched s.severity s.command
    modify (· ++ [value])
    sequence watched rest

namespace Sequence

variable {α : Type} {watched : Bool} {s : Step α} {steps rest : List (Step α)} {b b' : Bench}
  {es : Chronicle}
  {values : List (Option α)} {r : Except Error Unit}

/-! ## One step

A step that is watched looks at the token first.  Where the token is set nothing is sent; and where
the step is not watched there is no look in the history. -/

/-- A command was sent and answered.  Where the sequence is watched, the token was looked at right
before that and was not set. -/
structure Dispatched (watched : Bool) (b : Bench) (request : Request) (b' : Bench)
    (es : Chronicle) : Prop where
  grows : b.Grows b' es
  requests : es.requests.map Prod.snd = [request]
  looks : es.looks.map Prod.snd = if watched then [false] else []
  watched : watched = true → es.Watched
  script : b'.script = b.script.tail

/-- Without a look at the token. -/
theorem Dispatched.unwatched {request : Request} {before : Chronicle}
    {answer : Except LinkError Bytes} (h : b.Answered request before answer [] b') :
    Dispatched false b request b' (b.exchange request before answer []) := by
  have hlooks := h.quiet.looks_around h.quiet' (b.now + b.delay) answer
  exact ⟨h.grows, congrArg (List.map Prod.snd) h.requests_eq, congrArg (List.map Prod.snd) hlooks,
    fun h => (nomatch h), h.script⟩

/-- A step: unless it is watched and the token is set, its command is sent, and the answer
decides. -/
theorem step_runs {σ : Type} {state state' : σ} {severity : Severity} {c : Command α}
    {r : Except Error (Option α)}
    (h : (Operation.step watched severity c : Operation σ (Option α)).Runs state b r state' b') :
    state' = state ∧ ((watched = true ∧ r = .error .cancelled ∧ b' = b.tell (.looked true)) ∨
      (r = severity.outcome (c.outcome b.turn.answer) ∧
        ∃ es, Dispatched watched b c.request b' es)) := by
  cases watched with
  | true =>
    obtain ⟨hstate, ⟨hr, hb⟩ | ⟨hr, es, hes⟩⟩ := h.step
    · exact ⟨hstate, .inl ⟨rfl, hr, hb⟩⟩
    · exact ⟨hstate, .inr ⟨hr, es, hes.keeps.toGrows, hes.requests, hes.looks,
        fun _ => hes.watched, hes.script⟩⟩
  | false =>
    obtain ⟨hstate, hr, before, hanswered⟩ := h.unwatched_step
    exact ⟨hstate, .inr ⟨hr, _, .unwatched hanswered⟩⟩

/-! ## All steps

The constructors of a course are the ways in which a sequence goes on or ends: no step is left, a
step gives something, a step stops, or the token is set before a step. -/

/-- How a sequence that is begun on `b` goes: what each step gives, what the sequence ends in, and
what happens. -/
inductive Course (watched : Bool) :
    List (Step α) → Bench → List (Option α) → Except Error Unit → Bench → Chronicle → Prop where
  /-- No step is left. -/
  | finished {b : Bench} : Course watched [] b [] (.ok ()) b []
  /-- The token is found set, and the command is not sent. -/
  | cancelled {s : Step α} {rest : List (Step α)} {b : Bench} (hwatched : watched = true) :
    Course watched (s :: rest) b [] (.error .cancelled) (b.tell (.looked true))
      [(b.now, .looked true)]
  /-- The command fails, and the step does not put up with it. -/
  | stopped {s : Step α} {rest : List (Step α)} {b b' : Bench} {e : Error} {es : Chronicle}
    (hsent : Dispatched watched b s.command.request b' es) (hstops : s.Stops b.turn.answer e) :
    Course watched (s :: rest) b [] (.error e) b' es
  /-- The step is done with, and the others follow. -/
  | passed {s : Step α} {rest : List (Step α)} {b b₁ b' : Bench} {value : Option α}
    {values : List (Option α)} {r : Except Error Unit} {es fs : Chronicle}
    (hsent : Dispatched watched b s.command.request b₁ es)
    (hvalue : s.outcome b.turn.answer = .ok value) (hrest : Course watched rest b₁ values r b' fs) :
    Course watched (s :: rest) b (value :: values) r b' (es ++ fs)

/-- Every run of a sequence is such a course. -/
theorem sequence_runs {given given' : List (Option α)}
    (h : (Operation.sequence watched steps).Runs given b r given' b') :
    ∃ values es, given' = given ++ values ∧ Course watched steps b values r b' es := by
  induction steps generalizing given b with
  | nil =>
    obtain ⟨rfl, rfl, rfl⟩ := Operation.Runs.pure h
    exact ⟨[], [], (List.append_nil _).symm, .finished⟩
  | cons s rest ih =>
    unfold Operation.sequence at h
    -- the step has a value and the others follow, or it ends the sequence
    rcases h.bind with ⟨value, _, b₁, hstep, hmore⟩ | ⟨e, rfl, hstep⟩
    · obtain ⟨rfl, ⟨-, hr, -⟩ | ⟨hvalue, es, hsent⟩⟩ := step_runs hstep
      · cases hr
      obtain ⟨values, fs, rfl, hcourse⟩ := ih hmore.bind_modify
      exact ⟨value :: values, es ++ fs, by simp, .passed hsent hvalue.symm hcourse⟩
    · obtain ⟨rfl, ⟨hwatched, he, rfl⟩ | ⟨he, es, hsent⟩⟩ := step_runs hstep
      · obtain rfl := Except.error.inj he
        exact ⟨[], _, (List.append_nil _).symm, .cancelled hwatched⟩
      · exact ⟨[], es, (List.append_nil _).symm, .stopped hsent (Step.outcome_eq_error.mp he.symm)⟩

/-- A sequence that gets to its end, and what comes behind it. -/
theorem Course.append {values' : List (Option α)} {b₁ : Bench} {fs : Chronicle}
    (h : Course watched steps b values (.ok ()) b₁ es)
    (h' : Course watched rest b₁ values' r b' fs) :
    Course watched (steps ++ rest) b (values ++ values') r b' (es ++ fs) := by
  generalize hok : (.ok () : Except Error Unit) = r₁ at h
  induction h with
  | finished => exact h'
  | cancelled => cases hok
  | stopped => cases hok
  | passed hsent hvalue _ ih =>
    rw [List.append_assoc]
    exact .passed hsent hvalue (ih h' hok)

/-- A sequence that fails does not get to what comes behind it. -/
theorem Course.append_of_error {e : Error} (h : Course watched steps b values (.error e) b' es)
    (rest : List (Step α)) :
    Course watched (steps ++ rest) b values (.error e) b' es := by
  generalize herror : (.error e : Except Error Unit) = r at h
  induction h with
  | finished => cases herror
  | cancelled hwatched =>
    cases herror
    exact .cancelled hwatched
  | stopped hsent hstops =>
    cases herror
    exact .stopped hsent hstops
  | passed hsent hvalue _ ih => exact .passed hsent hvalue (ih herror)

/-! ## How far a sequence gets

What keeps a sequence from sending its next command can be told from outside: one of the commands
before was answered so that its step stops, or the token was set when the command was due.  Of all
the numbers of commands that nothing keeps from being sent, the sequence sends the greatest. -/

/-- The answers to the commands to come, counted from 0. -/
def answersOf (b : Bench) (i : Nat) : Except LinkError Bytes := (b.turnAt i).answer

/-- The command of the step at that place fails, and the step does not put up with it. -/
def StopsAt (steps : List (Step α)) (answers : Nat → Except LinkError Bytes) (i : Nat)
    (e : Error) : Prop :=
  ∃ s, steps[i]? = some s ∧ s.Stops (answers i) e

/-- The token was found set when the command at that place was due to be sent. -/
def TokenSetAt (es : Chronicle) (i : Nat) : Prop := (es.looks.map Prod.snd)[i]? = some true

/-- Nothing keeps a sequence from sending its first `k` commands: none of these is due while the
token is set, and before the last of them no step stops. -/
structure Open (steps : List (Step α)) (answers : Nat → Except LinkError Bytes) (es : Chronicle)
    (k : Nat) : Prop where
  length : k ≤ steps.length
  token : ∀ i < k, ¬ TokenSetAt es i
  passed : ∀ i e, i + 1 < k → ¬ StopsAt steps answers i e

/-- The looks at the token that go with `k` commands. -/
def looksFor (watched : Bool) (k : Nat) : List Bool :=
  if watched then List.replicate k false else []

/-- Why a sequence ends after `k` commands: what it ends in, and what the looks at the token
were. -/
inductive Ending (watched : Bool) (steps : List (Step α))
    (answers : Nat → Except LinkError Bytes) (k : Nat) (r : Except Error Unit)
    (looks : List Bool) : Prop where
  | finished (hr : r = .ok ()) (hlooks : looks = looksFor watched k) (hk : k = steps.length)
    (hpassed : ∀ i e, ¬ StopsAt steps answers i e)
  | cancelled (hr : r = .error .cancelled) (hwatched : watched = true)
    (hlooks : looks = looksFor watched k ++ [true])
    (hk : k < steps.length) (hpassed : ∀ i e, i < k → ¬ StopsAt steps answers i e)
  | stopped {i : Nat} {e : Error} (hr : r = .error e) (hlooks : looks = looksFor watched k)
    (hk : k = i + 1) (hstops : StopsAt steps answers i e)

/-- What there is to say about a sequence. -/
structure Law (watched : Bool) (steps : List (Step α)) (answers : Nat → Except LinkError Bytes)
    (es : Chronicle) (values : List (Option α)) (r : Except Error Unit) : Prop where
  length : es.requests.length ≤ steps.length
  requests : es.requests.map Prod.snd = (steps.take es.requests.length).map (·.command.request)
  looked : watched = true → es.Watched
  passed : ∀ i e, i + 1 < es.requests.length → ¬ StopsAt steps answers i e
  ending : Ending watched steps answers es.requests.length r (es.looks.map Prod.snd)
  values : ∀ i s v, steps[i]? = some s → i < es.requests.length → s.outcome (answers i) = .ok v →
    values[i]? = some v

theorem stopsAt_zero {answers : Nat → Except LinkError Bytes} {e : Error} :
    StopsAt (s :: rest) answers 0 e ↔ s.Stops (answers 0) e := by
  simp [StopsAt]

/-- Who gives a value does not stop. -/
theorem not_stops_of_value {answer : Except LinkError Bytes} {value : Option α} {e : Error}
    (h : s.outcome answer = .ok value) : ¬ s.Stops answer e :=
  fun hstops => nomatch h.symm.trans (Step.outcome_eq_error.mpr hstops)

/-- Where a step is done with, it is one of the others that stops, if any. -/
theorem not_stopsAt_cons {answers : Nat → Except LinkError Bytes} {value : Option α}
    (hvalue : s.outcome (answers 0) = .ok value)
    {i : Nat} {e : Error} (hrest : ∀ j, i = j + 1 → ¬ StopsAt rest (fun i => answers (i + 1)) j e) :
    ¬ StopsAt (s :: rest) answers i e := by
  cases i with
  | zero => exact fun h => not_stops_of_value hvalue (stopsAt_zero.mp h)
  | succ j => exact hrest j rfl

theorem looksFor_succ (watched : Bool) (k : Nat) :
    looksFor watched (k + 1) = (if watched then [false] else []) ++ looksFor watched k := by
  cases watched <;> rfl

/-- A step that gives something moves the end of a sequence by one. -/
theorem Ending.cons {answers : Nat → Except LinkError Bytes} {k : Nat} {value : Option α}
    {looks : List Bool} (hvalue : s.outcome (answers 0) = .ok value)
    (h : Ending watched rest (fun i => answers (i + 1)) k r looks) :
    Ending watched (s :: rest) answers (k + 1) r ((if watched then [false] else []) ++ looks) := by
  cases h with
  | finished hr hlooks hk hpassed =>
    exact .finished hr (by rw [hlooks, looksFor_succ]) (congrArg (· + 1) hk) fun i e =>
      not_stopsAt_cons hvalue fun j _ => hpassed j e
  | cancelled hr hwatched hlooks hk hpassed =>
    refine .cancelled hr hwatched ?_ (Nat.succ_lt_succ hk) fun i e hi =>
      not_stopsAt_cons hvalue fun j hj => hpassed j e (by omega)
    rw [hlooks, looksFor_succ, List.append_assoc]
  | stopped hr hlooks hk hstops =>
    exact .stopped hr (by rw [hlooks, looksFor_succ]) (congrArg (· + 1) hk) hstops

theorem Dispatched.length {request : Request} (h : Dispatched watched b request b' es) :
    es.requests.length = 1 := by
  simpa using congrArg List.length h.requests

/-- The answers to the commands that are left. -/
theorem Dispatched.answersOf_succ {request : Request} (h : Dispatched watched b request b' es) :
    answersOf b' = fun i => answersOf b (i + 1) := by
  funext i
  have hscript : b'.script = b.script.drop 1 := by rw [h.script, List.drop_one]
  rw [answersOf, Bench.turnAt_drop hscript, Nat.add_comm]
  rfl

/-- What there is to say about a sequence, by way of its steps. -/
theorem Course.law (h : Course watched steps b values r b' es) :
    b.Grows b' es ∧ Law watched steps (answersOf b) es values r := by
  induction h with
  | @finished b =>
    refine ⟨.refl b, Nat.le_refl _, rfl, fun _ => .of_requests rfl, fun _ _ h => (nomatch h),
      .finished rfl (by cases watched <;> rfl) rfl fun _ _ ⟨_, h, _⟩ => (nomatch h),
      fun _ _ _ h => nomatch h⟩
  | @cancelled s rest b hwatched =>
    subst hwatched
    exact ⟨(Bench.keeps_tell rfl).toGrows, Nat.zero_le _, rfl, fun _ => .of_requests rfl,
      fun _ _ h => (nomatch h), .cancelled rfl rfl rfl (Nat.succ_pos _) fun _ _ h => (nomatch h),
      fun _ _ _ _ h => nomatch h⟩
  | @stopped s rest b b' e es hsent hstops =>
    have hone := hsent.length
    refine ⟨hsent.grows, ?_, ?_, hsent.watched, fun i e hi => by omega,
      .stopped rfl ?_ hone (stopsAt_zero.mpr hstops), fun i s' v hs hi hv => ?_⟩
    · rw [hone]
      exact Nat.succ_pos _
    · rw [hone]
      exact hsent.requests
    · rw [hone, hsent.looks]
      cases watched <;> rfl
    · -- only the first command was sent, and its step is the one that stops
      obtain rfl : i = 0 := by omega
      obtain rfl := Option.some.inj hs
      exact absurd hstops (not_stops_of_value hv)
  | @passed s rest b b₁ b' value values r es fs hsent hvalue hrest ih =>
    obtain ⟨hgrows, hlaw⟩ := ih
    -- the rest reads the script from its second answer on
    rw [hsent.answersOf_succ] at hlaw
    have hlength : (Chronicle.requests (es ++ fs)).length = fs.requests.length + 1 := by
      rw [Chronicle.requests_append, List.length_append, hsent.length, Nat.add_comm]
    refine ⟨hsent.grows.trans hgrows, ?_, ?_, fun hw =>
      (hsent.watched hw).append (hlaw.looked hw), ?_, ?_, ?_⟩
    · rw [hlength]
      exact Nat.succ_le_succ hlaw.length
    · rw [hlength, Chronicle.requests_append, List.map_append, hsent.requests, hlaw.requests]
      rfl
    · intro i e hi
      exact not_stopsAt_cons hvalue fun j hj => hlaw.passed j e (by omega)
    · rw [hlength, Chronicle.looks_append, List.map_append, hsent.looks]
      exact hlaw.ending.cons hvalue
    · intro i s' v hs hi hv
      cases i with
      | zero =>
        obtain rfl := Option.some.inj hs
        exact congrArg some (Except.ok.inj (hvalue.symm.trans hv))
      | succ i => exact hlaw.values i s' v hs (by omega) hv

section

variable {answers : Nat → Except LinkError Bytes}

theorem not_looksFor (watched : Bool) (k i : Nat) : (looksFor watched k)[i]? ≠ some true := by
  cases watched with
  | true => simp [looksFor, List.getElem?_replicate]
  | false => simp [looksFor]

/-- No command is answered with a cancellation. -/
theorem not_stopsAt_cancelled (steps : List (Step α))
    (answers : Nat → Except LinkError Bytes) (i : Nat) :
    ¬ StopsAt steps answers i .cancelled := by
  rintro ⟨s, -, hfails, -⟩
  obtain ⟨cause, hcause⟩ := Command.outcome_eq_error hfails
  cases cause <;> cases hcause

/-- The token was found set once at most, namely when the next command was due, and that is where
the sequence ended. -/
theorem Law.tokenSet_iff (h : Law watched steps answers es values r) (i : Nat) :
    TokenSetAt es i ↔ i = es.requests.length ∧ r = .error .cancelled := by
  rw [TokenSetAt]
  cases h.ending with
  | finished hr hlooks =>
    rw [hlooks, hr]
    exact iff_of_false (not_looksFor watched _ i) fun h => nomatch h.2
  | stopped hr hlooks hk hstops =>
    rw [hlooks, hr]
    refine iff_of_false (not_looksFor watched _ i) fun h => ?_
    obtain rfl := Except.error.inj h.2
    exact not_stopsAt_cancelled steps answers _ hstops
  | cancelled hr hwatched hlooks =>
    -- a look that finds nothing for each step that was sent, and then the one that does
    subst hwatched
    rw [hlooks, looksFor, if_pos rfl, List.getElem?_append, List.length_replicate]
    split
    · rename_i hlt
      refine iff_of_false ?_ fun h => Nat.ne_of_lt hlt h.1
      simp [List.getElem?_replicate]
    · rw [List.getElem?_singleton]
      simp only [hr, and_true]
      split <;> simp_all <;> omega

/-! ## What follows from the law

The law lists what is known of a course, part by part.  The equivalences are about its ending: the
three endings exclude each other, and each of them is told by the number of commands that were
sent and the answers to them. -/

/-- The commands that are sent are all that nothing keeps the sequence from sending. -/
theorem Law.isGreatest (h : Law watched steps answers es values r) :
    IsGreatest {k | Open steps answers es k} es.requests.length := by
  refine ⟨⟨h.length, fun i hi htoken => ?_, h.passed⟩, fun k hk => Nat.le_of_not_lt fun hlt => ?_⟩
  · exact absurd ((h.tokenSet_iff i).mp htoken).1 (Nat.ne_of_lt hi)
  · -- what ended the sequence keeps it from sending one command more
    cases h.ending with
    | finished _ _ hlength => exact absurd hk.length (by omega)
    | cancelled hr => exact hk.token _ hlt ((h.tokenSet_iff _).mpr ⟨rfl, hr⟩)
    | stopped _ _ hlength hstops => exact hk.passed _ _ (by omega) hstops

/-- Without watching there are no looks. -/
theorem Law.unwatched (h : Law watched steps answers es values r) (hwatched : watched = false) :
    es.looks = [] := by
  subst hwatched
  refine List.map_eq_nil_iff.mp (?_ : es.looks.map Prod.snd = [])
  cases h.ending with
  | finished _ hlooks => exact hlooks
  | stopped _ hlooks => exact hlooks
  | cancelled _ hwatched => cases hwatched

/-- A sequence goes well just if all commands were sent and none of the steps stops. -/
theorem Law.ok_iff (h : Law watched steps answers es values r) :
    r = .ok () ↔ es.requests.length = steps.length ∧ ∀ i e, ¬ StopsAt steps answers i e := by
  cases h.ending with
  | finished hr _ hk hpassed => exact iff_of_true hr ⟨hk, hpassed⟩
  | cancelled hr _ _ hk =>
    exact iff_of_false (fun h => nomatch hr.symm.trans h) fun h => Nat.ne_of_lt hk h.1
  | stopped hr _ _ hstops =>
    exact iff_of_false (fun h => nomatch hr.symm.trans h) fun h => h.2 _ _ hstops

/-- There is one error that a step stops with. -/
theorem StopsAt.unique {i : Nat} {e e' : Error} (h : StopsAt steps answers i e)
    (h' : StopsAt steps answers i e') :
    e = e' := by
  obtain ⟨s, hs, hfails, -⟩ := h
  obtain ⟨s', hs', hfails', -⟩ := h'
  obtain rfl := Option.some.inj (hs.symm.trans hs')
  exact Except.error.inj (hfails.symm.trans hfails')

/-- A sequence ends with an error just if its last step stops with it, or the token was found set
and the error says so. -/
theorem Law.error_iff (h : Law watched steps answers es values r) (e : Error) :
    r = .error e ↔ (∃ i, i + 1 = es.requests.length ∧ StopsAt steps answers i e) ∨
      e = .cancelled ∧ TokenSetAt es es.requests.length := by
  rw [h.tokenSet_iff, eq_self, true_and]
  cases h.ending with
  | finished hr _ _ hpassed =>
    rw [hr]
    exact iff_of_false (fun h => nomatch h) fun h =>
      h.elim (fun ⟨i, _, hstops⟩ => hpassed i e hstops) fun h => nomatch h.2
  | cancelled hr _ _ _ hpassed =>
    rw [hr]
    constructor
    · exact fun h => .inr ⟨(Except.error.inj h).symm, rfl⟩
    · rintro (⟨i, hi, hstops⟩ | ⟨rfl, -⟩)
      · exact absurd hstops (hpassed i e (by omega))
      · rfl
  | @stopped i e' hr _ hk hstops =>
    -- the step that stops the sequence is the last one that was sent
    rw [hr]
    constructor
    · exact fun h => .inl ⟨i, hk.symm, Except.error.inj h ▸ hstops⟩
    · rintro (⟨j, hj, hstops'⟩ | ⟨rfl, hcancelled⟩)
      · obtain rfl : j = i := by omega
        rw [hstops.unique hstops']
      · exact hcancelled

/-- After a step that gives something the next one has its turn. -/
theorem Law.goes_on (h : Law watched steps answers es values r) {i : Nat} {value : Option α}
    (hs : steps[i]? = some s) (hi : i < es.requests.length)
    (hvalue : s.outcome (answers i) = .ok value) (hmore : i + 1 < steps.length) :
    i + 1 < es.requests.length ∨ TokenSetAt es (i + 1) := by
  rw [h.tokenSet_iff]
  refine (Nat.lt_or_eq_of_le hi).imp_right fun hlast => ⟨hlast, ?_⟩
  cases h.ending with
  | finished _ _ hk => omega
  | cancelled hr => exact hr
  | @stopped j e _ _ hk hstops =>
    obtain rfl : j = i := by omega
    obtain ⟨s', hs', hstops⟩ := hstops
    obtain rfl := Option.some.inj (hs.symm.trans hs')
    exact absurd hstops (not_stops_of_value hvalue)

end

/-- **The law of a sequence.**  Every run of a list of steps ends.  The commands that are sent are
the longest part in front of the list such that the token is set when none of them is due and no
step before the last of them stops; where the sequence is watched, each is sent right after a look
at the token, and where it is not, nobody looks.  The run fails with the error of a step that stops,
which is the last one whose command is sent, or because the token is set when the next command is
due; otherwise it gets to the end.  A step whose command goes well gives its value.  One that puts
up with a failure gives none, and the next one has its turn.  Nothing of this depends on the token
but what it is when a command is due. -/
theorem sequence_outcome (watched : Bool) (steps : List (Step α)) (b : Bench)
    (events : List (Nat × Event)) :
    ∃ result values b', ∃ es : Chronicle,
      Rehearsal.EndsIn b events ((Operation.sequence watched steps).run.run [])
        (result, values) b' ∧
      b'.history = b.history ++ es ∧
      es.requests.map Prod.snd = (steps.take es.requests.length).map (·.command.request) ∧
      (watched = true → es.Watched) ∧ (watched = false → es.looks = []) ∧
      IsGreatest {k | Open steps (answersOf b) es k} es.requests.length ∧
      (result = .ok () ↔ es.requests.length = steps.length ∧
        ∀ i e, ¬ StopsAt steps (answersOf b) i e) ∧
      (∀ e, result = .error e ↔
        (∃ i, i + 1 = es.requests.length ∧ StopsAt steps (answersOf b) i e) ∨
        e = .cancelled ∧ TokenSetAt es es.requests.length) ∧
      ∀ i s, steps[i]? = some s → i < es.requests.length →
        (∀ a, s.command.outcome (answersOf b i) = .ok a → values[i]? = some (some a)) ∧
        ∀ e, s.command.outcome (answersOf b i) = .error e → s.severity = .soft → e.Passable →
          values[i]? = some none ∧
          (i + 1 < steps.length → i + 1 < es.requests.length ∨ TokenSetAt es (i + 1)) := by
  obtain ⟨⟨result, values⟩, b', hends, hruns⟩ :=
    Rehearsal.exists_endsIn b events ((Operation.sequence watched steps).run.run [])
  obtain ⟨values, es, rfl, hcourse⟩ := sequence_runs hruns
  obtain ⟨hgrows, hlaw⟩ := hcourse.law
  refine ⟨result, _, b', es, hends, hgrows.history, hlaw.requests, hlaw.looked, hlaw.unwatched,
    hlaw.isGreatest, hlaw.ok_iff, hlaw.error_iff, fun i s hs hi =>
      ⟨fun a ha => ?_, fun e he hsoft hpass => ⟨?_, fun hmore => ?_⟩⟩⟩
  · exact hlaw.values i s _ hs hi (Step.outcome_of_ok ha)
  · exact hlaw.values i s _ hs hi (Step.outcome_of_passable he hsoft hpass)
  · exact hlaw.goes_on hs hi (Step.outcome_of_passable he hsoft hpass) hmore

end Sequence

end Cellular
