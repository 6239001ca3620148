import Cellular.Proofs.Bench.Halting
import Cellular.Proofs.Procedure.Runs
import Cellular.Vendor.Cinterion
/-!
# Waiting for the SIM

When it has been unlocked, the SIM is not ready at once.  The modem is asked up to so many times
whether it is, and after every other answer a while is waited.  The first answer that says so ends
the wait at once; if there is none, the wait is given up after the last while, and nothing is said
about it (`sim_polled_until_ready`).

The answers do not depend on the wait.  So neither do the moments at which the modem would be asked
(`askTime`), and the wait is told by them and by how often it is (`SimPolled`).

The recursion of the program counts down from the number of tries, and the first try is the first
question.  So the induction moves everything by one: the first question is asked of the bench as it
is, and the others are asked of the bench as it is when the first wait is over, with one turn of the
script less (`askTime_succ`).
-/

namespace Cellular.Cinterion

open Operation

variable {m m' : Cinterion} {b b' c : Bench} {interval retries n i k : Nat} {es : Chronicle}
  {answer : Except LinkError Bytes}

/-- The command that asks whether the SIM is ready. -/
def simQuery : Command IndicatorState := .setIndicator "simstatus" 2

theorem simQuery_body : simQuery.request.body = "^SIND=\"simstatus\",2" := by decide

/-- The answer is that the SIM is ready. -/
def SimReady (answer : Except LinkError Bytes) : Prop :=
  ∃ reply state, answer = .ok reply ∧ IndicatorState.read? reply = some state ∧
    state.description = "simstatus" ∧
    state.value = 5

/-- Only one answer says that the SIM is ready, by its reply. -/
theorem simIsReady_iff : simIsReady (simQuery.outcome answer) = true ↔ SimReady answer := by
  unfold Command.outcome
  constructor
  · intro h
    split at h
    · cases h
    · rename_i reply
      split at h
      · rename_i state hread
        obtain ⟨hdescription, hvalue⟩ : state.description = "simstatus" ∧ state.value = 5 := by
          simpa [simIsReady] using h
        exact ⟨reply, state, rfl, hread, hdescription, hvalue⟩
      · cases h
  · rintro ⟨reply, state, rfl, hread, hdescription, hvalue⟩
    have hread' : simQuery.read reply = some state := hread
    simp [hread', simIsReady, hdescription, hvalue]

/-! ## Moments and answers

The moments of questions are computed as if all of them were asked: each comes one delay and one
interval after the one before.  Those that are really asked are an initial part. -/

/-- When the modem is asked for the time `i`, counted from 0, if it is. -/
def askTime (b : Bench) (interval : Nat) : Nat → Nat
  | 0 => b.now
  | i + 1 => askTime b interval i + (b.turnAt i).duration + interval

/-- When it answers that. -/
def answerTime (b : Bench) (interval i : Nat) : Nat := askTime b interval i + (b.turnAt i).duration

/-- The answer of time `k` is the first that says so. -/
def FirstReady (b : Bench) (k : Nat) : Prop :=
  SimReady (b.turnAt k).answer ∧ ∀ i, i < k → ¬ SimReady (b.turnAt i).answer

/-- How often the modem is asked, and when the wait is over. -/
inductive SimAwaited (b : Bench) (interval retries : Nat) : (n now : Nat) → Prop
  | ready {k : Nat} (hk : k < retries) (hready : FirstReady b k) :
      SimAwaited b interval retries (k + 1) (answerTime b interval k)
  | givenUp (hnever : ∀ i, i < retries → ¬ SimReady (b.turnAt i).answer) :
    SimAwaited b interval retries retries (askTime b interval retries)

/-- The modem was asked `n` times, and the wait was over at `now`. -/
structure SimPolled (b : Bench) (interval retries n : Nat) (es : Chronicle) (now : Nat) : Prop where
  requests : es.requests = (List.range n).map fun i => (askTime b interval i, simQuery.request)
  answers : es.answers = (List.range n).map fun i => (answerTime b interval i, (b.turnAt i).answer)
  awaited : SimAwaited b interval retries n now

/-- The wait goes on as if it were begun at the second time. -/
theorem askTime_succ (hnow : c.now = b.now + b.delay + interval)
    (hturn : ∀ i, c.turnAt i = b.turnAt (i + 1)) (i : Nat) :
    askTime b interval (i + 1) = askTime c interval i := by
  induction i with
  | zero => exact hnow.symm
  | succ i ih => rw [askTime, ih, askTime, hturn]

/-- The first answer says so. -/
theorem SimPolled.ready {before : Chronicle} {answer : Except LinkError Bytes}
    (hanswered : b.Answered simQuery.request before answer [] c) (hnow : c.now = b.now + b.delay)
    (hready : SimReady answer) :
    SimPolled b interval (retries + 1) 1 (b.exchange simQuery.request before answer []) c.now := by
  rw [hanswered.answer] at hready
  refine ⟨hanswered.requests_eq, ?_, hnow ▸ .ready (Nat.succ_pos retries) ⟨hready, nofun⟩⟩
  rw [hanswered.answers_eq, hanswered.answer]
  rfl

/-- The first answer says otherwise, and the wait goes on. -/
theorem SimPolled.next {b₁ : Bench} {before since es : Chronicle}
    {answer : Except LinkError Bytes} {now : Nat}
    (hanswered : b.Answered simQuery.request before answer [] b₁) (hnow : b₁.now = b.now + b.delay)
    (hnot : ¬ SimReady answer) (hdrifts : b₁.Drifts c since) (hnow' : c.now = b₁.now + interval)
    (h : SimPolled c interval retries n es now) :
    SimPolled b interval (retries + 1) (n + 1)
      (b.exchange simQuery.request before answer [] ++ since ++ es) now := by
  -- the rest of the wait counts its turns and its moments from the second question on
  have hturn : ∀ i, c.turnAt i = b.turnAt (i + 1) := fun i => by
    have hscript : c.script = b.script.drop 1 := by
      rw [hdrifts.script, hanswered.script, List.drop_one]
    rw [Bench.turnAt_drop hscript, Nat.add_comm]
  have hask : ∀ i, askTime b interval (i + 1) = askTime c interval i :=
    askTime_succ (by rw [hnow', hnow]) hturn
  have hanswer : ∀ i, answerTime b interval (i + 1) = answerTime c interval i := fun i => by
    rw [answerTime, answerTime, hask, hturn]
  rw [hanswered.answer] at hnot
  refine ⟨?_, ?_, ?_⟩
  · rw [Chronicle.requests_append, Chronicle.requests_append, hanswered.requests_eq,
      hdrifts.quiet.requests, h.requests, List.range_succ_eq_map, List.map_cons, List.map_map]
    simp only [Function.comp_def, Nat.succ_eq_add_one, hask]
    rfl
  · rw [Chronicle.answers_append, Chronicle.answers_append, hanswered.answers_eq, hanswered.answer,
      hdrifts.quiet.answers, h.answers, List.range_succ_eq_map, List.map_cons, List.map_map]
    simp only [Function.comp_def, Nat.succ_eq_add_one, hanswer, hturn]
    rfl
  · have hall : ∀ {k}, (∀ i, i < k → ¬ SimReady (c.turnAt i).answer) →
        ∀ i, i < k + 1 → ¬ SimReady (b.turnAt i).answer := by
      intro k hbefore i hi
      cases i with
      | zero => exact hnot
      | succ i => exact hturn i ▸ hbefore i (Nat.lt_of_succ_lt_succ hi)
    cases h.awaited with
    | ready hk hready =>
      rw [← hanswer]
      exact .ready (Nat.succ_lt_succ hk) ⟨hturn _ ▸ hready.1, hall hready.2⟩
    | givenUp hnever =>
      rw [← hask]
      exact .givenUp (hall hnever)

/-! ## The wait -/

/-- A wait asks once, and waits on if it has to. -/
theorem awaitSim_succ (interval retries : Nat) : awaitSim interval (retries + 1) = (do
    let answer ← attempt simQuery
    if simIsReady answer then pure ()
    else
      pause interval
      awaitSim interval retries) := rfl

/-- Whatever is answered, the wait ends well. -/
theorem awaitSim_runs {r : Except Error Unit} (h : (awaitSim interval retries).Runs m b r m' b') :
    r = .ok () ∧ m' = m ∧ ∃ n es, b'.history = b.history ++ es ∧
    SimPolled b interval retries n es b'.now := by
  induction retries generalizing b with
  | zero =>
    obtain ⟨hr, hm, rfl⟩ := Runs.pure h
    exact ⟨hr, hm, 0, [], (List.append_nil _).symm, rfl, rfl, .givenUp nofun⟩
  | succ retries ih =>
    rw [awaitSim_succ] at h
    obtain ⟨before, b₁, hanswered, hnow, hrest⟩ := h.bind_attempt_timed
    by_cases hready : SimReady b.turn.answer
    · -- ready: this was the last question
      rw [if_pos (simIsReady_iff.mpr hready)] at hrest
      obtain ⟨hr, hm, rfl⟩ := hrest.pure
      exact ⟨hr, hm, 1, _, hanswered.grows.history, .ready hanswered hnow hready⟩
    · -- not ready: the same again after the pause, with one retry less
      rw [if_neg fun hyes => hready (simIsReady_iff.mp hyes)] at hrest
      obtain ⟨c, since, hdrifts, hnow', hrest⟩ := hrest.bind_pause
      obtain ⟨hr, hm, n, es, hhistory, hpolled⟩ := ih hrest
      refine ⟨hr, hm, n + 1, _, ?_, .next hanswered hnow hready hdrifts hnow' hpolled⟩
      rw [hhistory, hdrifts.history, hanswered.grows.history, List.append_assoc, List.append_assoc,
        List.append_assoc]

/-! ## The law

Both cases are told by the first answer that says so, if there is one among those that would be
asked for. -/

/-- There is one first answer at most. -/
theorem FirstReady.unique {j : Nat} (h : FirstReady b j) (h' : FirstReady b k) : j = k := by
  rcases Nat.lt_trichotomy j k with hlt | heq | hgt
  · exact absurd h.1 (h'.2 j hlt)
  · exact heq
  · exact absurd h'.1 (h.2 k hgt)

/-- Where there is a first answer that says so, it is asked for up to that, if there are tries
enough. -/
theorem SimAwaited.of_first {now : Nat} (h : SimAwaited b interval retries n now)
    (hfirst : FirstReady b k) :
    n = min retries (k + 1) ∧ (k < retries → now = answerTime b interval k) := by
  cases h with
  | ready hj hready =>
    obtain rfl := hready.unique hfirst
    exact ⟨(Nat.min_eq_right hj).symm, fun _ => rfl⟩
  | givenUp hnever =>
    have hlate : retries ≤ k := Nat.le_of_not_lt fun hk => hnever k hk hfirst.1
    exact ⟨(Nat.min_eq_left (Nat.le_succ_of_le hlate)).symm, fun hk =>
      absurd hk (Nat.not_lt.mpr hlate)⟩

/-- Where there is none, all tries are used up. -/
theorem SimAwaited.of_never {now : Nat} (h : SimAwaited b interval retries n now)
    (hnever : ∀ i, i < retries → ¬ SimReady (b.turnAt i).answer) :
    n = retries ∧ now = askTime b interval retries := by
  cases h with
  | ready hk hready => exact absurd hready.1 (hnever _ hk)
  | givenUp => exact ⟨rfl, rfl⟩

/-- **The SIM is asked for until it is ready, and no longer than that.**  Whatever the modem
answers, and however long it takes for it, the wait for the SIM ends well and leaves the state as it
was.  The modem is asked one time after another, and the time between an answer and the next
question is the interval.  If answer `k`, counted from 0, is the first that says that the SIM is
ready, it is asked `k + 1` times, or as often as there are retries if these are fewer; and if they
are not, the wait is over with that answer.  If no answer within the retries says so, the modem is
asked as often as there are retries, and the wait is over one interval after the last answer. -/
theorem sim_polled_until_ready (m : Cinterion) (b : Bench) (events : List (Nat × Event)) :
    ∃ (b' : Bench) (n : Nat) (es : Chronicle),
      Rehearsal.EndsIn b events (afterSimUnlock.run.run m) (.ok (), m) b' ∧
      b'.history = b.history ++ es ∧
      es.requests.map (fun e => (e.1, e.2.body)) =
        (List.range n).map (fun i =>
          (askTime b m.timing.simReadyInterval i, "^SIND=\"simstatus\",2")) ∧
      es.answers =
        (List.range n).map (fun i =>
          (answerTime b m.timing.simReadyInterval i, (b.turnAt i).answer)) ∧
      (∀ k, FirstReady b k → n = min m.timing.simReadyRetries (k + 1) ∧
        (k < m.timing.simReadyRetries → b'.now = answerTime b m.timing.simReadyInterval k)) ∧
      ((∀ i, i < m.timing.simReadyRetries → ¬ SimReady (b.turnAt i).answer) →
        n = m.timing.simReadyRetries ∧
        b'.now = askTime b m.timing.simReadyInterval m.timing.simReadyRetries) := by
  obtain ⟨⟨r, m'⟩, b', hends, hruns⟩ := Rehearsal.exists_endsIn b events (afterSimUnlock.run.run m)
  obtain ⟨rfl, rfl, n, es, hhistory, hpolled⟩ := awaitSim_runs (Runs.bind_get hruns)
  refine ⟨b', n, es, hends, hhistory, ?_, hpolled.answers, fun k => hpolled.awaited.of_first,
    hpolled.awaited.of_never⟩
  rw [hpolled.requests, List.map_map, ← simQuery_body]
  rfl

end Cellular.Cinterion
