import Cellular.Bench.Debounce
import Cellular.Proofs.Wait.Debouncer
import Cellular.Proofs.Wait.Schedule
/-!
# A debouncer on a bench

A bench run takes steps with a debouncer while a party waits for it to expire.  It amounts to an
attended run of the debouncer (`DebounceRun.amounts_to_watch`), so the law of those holds of it: the
schedule polls the party before time goes on, and takes the clock no further than to the party's
timer.

The two are tied together by `Retells`: the moves so far have led to the debouncer, the clock and
the party of the bench, their log is what the bench has taken down, and the number of steps that are
left bounds the calls that the party has not seen.  A move is added wherever the schedule does
something that the debouncer can notice.  All that has to be shown of the schedule is that time goes
on only when the party is at rest (`Retells.at_rest`).
-/

namespace Cellular.DebounceRun

open Debouncer (Watch)

/-! ## What is taken down

The bench takes entries down, and the debouncer by itself has a log.  These functions pick out of
the entries what the log is about, so that the two can be compared. -/

/-- The debouncer with the clock and the party that waits. -/
def watch (r : DebounceRun) : Watch := ⟨r.now, r.debouncer, r.sleeper⟩

/-- What an arm or a cancel did. -/
def effect? : Debouncer.Event → Option Bool
  | .armed effect | .cancelled effect => some effect
  | .expired => none

/-- When a debouncer expired. -/
def expiries (log : List (Nat × Debouncer.Event)) : List Nat :=
  (log.filter (·.2 = .expired)).map Prod.fst

/-- When arms and cancels were made, and what they did. -/
def effects (log : List (Nat × Debouncer.Event)) : List (Nat × Bool) :=
  log.filterMap fun e => (effect? e.2).map (e.1, ·)

/-- What has been taken down of arms and cancels. -/
def taken (entries : List DebounceEntry) : List (Nat × Bool) :=
  entries.filterMap fun e => e.effect.map (e.time, ·)

/-! ## Moves that retell a run

The moves are found along the run, one for each thing that is done to the debouncer.  Beside them
a bound is kept on how many arms and cancels may still come before the party looks again, since it
tells them apart by a generation that wraps around. -/

/-- What has happened on a bench is what moves come to, and there may be so many arms and cancels
yet before the party looks. -/
structure Retells (timeout left : Nat) (moves : List Debouncer.Move) (r : DebounceRun) : Prop where
  attended : Watch.Attended { now := 0, debouncer := { timeout } } 0 moves
  watch : Watch.run { now := 0, debouncer := { timeout } } moves = r.watch
  fired : expiries (Watch.log { now := 0, debouncer := { timeout } } moves) = r.fired
  entries : effects (Watch.log { now := 0, debouncer := { timeout } } moves) = taken r.entries
  calls : Watch.callsSince 0 moves + left < UInt32.size

variable {timeout left : Nat} {moves : List Debouncer.Move} {r r' : DebounceRun}

/-- One move more. -/
theorem Retells.go {left' : Nat} (h : Retells timeout left moves r) (m : Debouncer.Move)
    (hadmits : r.watch.Admits (Watch.callsSince 0 moves) m) (hwatch : (r.watch.step m).1 = r'.watch)
    (hfired : r'.fired = r.fired ++ expiries ((r.watch.step m).2.map (r.now, ·)).toList)
    (hentries : taken r'.entries =
      taken r.entries ++ effects ((r.watch.step m).2.map (r.now, ·)).toList)
    (hcalls : Watch.callsAfter (Watch.callsSince 0 moves) m + left' < UInt32.size) :
    Retells timeout left' (moves ++ [m]) r' := by
  have hlog : Watch.log r.watch [m] = ((r.watch.step m).2.map (r.now, ·)).toList :=
    List.append_nil _
  refine ⟨?_, ?_, ?_, ?_, ?_⟩
  · rw [Watch.attended_append, h.watch]
    exact ⟨h.attended, hadmits, trivial⟩
  · rw [Watch.run_append, h.watch]
    exact hwatch
  · rw [Watch.log_append, h.watch, hlog, expiries, List.filter_append, List.map_append,
      hfired, ← h.fired]
    rfl
  · rw [Watch.log_append, h.watch, hlog, effects, List.filterMap_append, hentries, ← h.entries]
    rfl
  · rw [Watch.callsSince_append]
    exact hcalls

/-- What has happened on a bench is what some moves come to. -/
def Told (timeout left : Nat) (r : DebounceRun) : Prop := ∃ moves, Retells timeout left moves r

theorem taken_enter (r : DebounceRun) (effect : Option Bool) :
    taken (r.enter effect).entries = taken r.entries ++ (effect.map (r.now, ·)).toList := by
  rw [enter, taken, List.filterMap_append]
  cases effect <;> rfl

/-- An arm or a cancel, and what it did. -/
theorem Told.call {m : Debouncer.Move} {debouncer : Debouncer} {event : Debouncer.Event}
    {effect : Bool} (h : Told timeout (left + 1) r) (hm : m = .arm ∨ m = .cancel)
    (hstep : r.watch.step m = ({ r.watch with debouncer }, some event))
    (heffect : effect? event = some effect) :
    Told timeout left ({ r with debouncer }.enter (some effect)) := by
  obtain ⟨moves, h⟩ := h
  have hafter : Watch.callsAfter (Watch.callsSince 0 moves) m = Watch.callsSince 0 moves + 1 := by
    rcases hm with rfl | rfl <;> rfl
  have hcalls : Watch.callsSince 0 moves + 1 + left < UInt32.size := by
    have hbound := h.calls
    omega
  -- neither arm nor cancel takes time, so only the number of calls has to be in bounds
  have hadmits : r.watch.Admits (Watch.callsSince 0 moves) m := by
    refine ⟨hafter ▸ Nat.lt_of_le_of_lt (Nat.le_add_right _ left) hcalls, ?_, ?_⟩ <;>
      rintro span rfl <;> simp at hm
  refine ⟨moves ++ [m], h.go m hadmits ?_ ?_ ?_ (hafter ▸ hcalls)⟩
  · rw [hstep]
    rfl
  · rw [hstep]
    cases event with
    | expired => cases heffect
    | armed => exact (List.append_nil _).symm
    | cancelled => exact (List.append_nil _).symm
  · rw [hstep, taken_enter, effects]
    simp [heffect]

/-- Nothing that counts has changed. -/
theorem Told.still {left' : Nat} (h : Told timeout left r) (hwatch : r'.watch = r.watch)
    (hfired : r'.fired = r.fired) (hentries : taken r'.entries = taken r.entries)
    (hleft : left' ≤ left) : Told timeout left' r' := by
  obtain ⟨moves, h⟩ := h
  have hcalls := h.calls
  exact ⟨moves, h.attended, h.watch.trans hwatch.symm, h.fired.trans hfired.symm,
    h.entries.trans hentries.symm, by omega⟩

/-- Steps that are taken up to the next wait are told, one after another. -/
theorem Told.advance {steps : List DebounceStep} (h : Told timeout steps.length r) :
    Told timeout (advance steps r).steps.length (advance steps r) := by
  induction steps generalizing r with
  | nil => exact h.still rfl rfl rfl (Nat.le_refl _)
  | cons step steps ih =>
    cases step with
    | arm => exact ih (h.call (.inl rfl) rfl rfl)
    | cancel => exact ih (h.call (.inr rfl) rfl rfl)
    | wait span => exact h.still rfl rfl rfl (Nat.le_succ _)

/-- So is a poll of it. -/
theorem Told.pollSteps (h : Told timeout r.steps.length r) :
    Told timeout r.pollSteps.steps.length r.pollSteps := by
  rw [DebounceRun.pollSteps]
  split
  · exact h.advance
  · split
    · exact h.still rfl rfl rfl (Nat.le_refl _)
    · have hwaited : Told timeout r.steps.length (r.enter none) :=
        h.still rfl rfl ((taken_enter r none).trans (List.append_nil _)) (Nat.le_refl _)
      exact hwaited.advance

theorem steps_pollExpiry (r : DebounceRun) : r.pollExpiry.steps = r.steps := by
  rw [pollExpiry]
  split <;> rfl

/-- A poll of the party that waits is one move. -/
theorem Told.pollExpiry (h : Told timeout left r) : Told timeout left r.pollExpiry := by
  obtain ⟨moves, h⟩ := h
  have hcalls := h.calls
  have hleft : 0 + left < UInt32.size := by omega
  -- a poll starts the count of calls again
  have hadmits : r.watch.Admits (Watch.callsSince 0 moves) .poll :=
    ⟨show 0 < UInt32.size by decide, nofun, nofun⟩
  refine ⟨moves ++ [.poll], ?_⟩
  -- not yet: only the sleeper has changed; expired: one event
  rcases Debouncer.pollExpired_cases r.debouncer r.now r.sleeper with ⟨sleeper, hpoll⟩ | hpoll
  · have hstep : r.watch.step .poll = ({ r.watch with sleeper }, none) := by
      simp only [Watch.step, watch, hpoll]
    have hrun : r.pollExpiry = { r with sleeper } := by simp only [DebounceRun.pollExpiry, hpoll]
    rw [hrun]
    refine h.go .poll hadmits ?_ ?_ ?_ hleft
    · rw [hstep]
      rfl
    · rw [hstep]
      exact (List.append_nil _).symm
    · rw [hstep]
      exact (List.append_nil _).symm
  · have hstep : (r.watch.step .poll).2 = some .expired := by simp only [Watch.step, watch, hpoll]
    refine h.go .poll hadmits ?_ ?_ ?_ hleft
    · simp only [Watch.step, watch, DebounceRun.pollExpiry, hpoll]
    · rw [hstep]
      simp only [DebounceRun.pollExpiry, hpoll]
      rfl
    · rw [hstep]
      simp only [DebounceRun.pollExpiry, hpoll]
      exact (List.append_nil _).symm

/-- A party that has been polled without an effect is at rest until its timer. -/
theorem Retells.at_rest (h : Retells timeout left moves r)
    (hstill : schedule.signals r.pollExpiry = schedule.signals r) {moment : Nat}
    (hlater : r.pollExpiry.now < moment)
    (htimers : ∀ timer ∈ r.pollExpiry.sleeper.timers, moment ≤ timer) :
    r.pollExpiry.debouncer.pollExpired r.pollExpiry.now r.pollExpiry.sleeper =
      (r.pollExpiry.debouncer, .pending r.pollExpiry.sleeper) := by
  obtain ⟨pending, -, hstanding⟩ := (Watch.standing_start timeout 0).run (by decide) h.attended
  rw [h.watch] at hstanding
  obtain ⟨changes, hchanges, hbehind⟩ := hstanding.behind
  have hlt : changes < UInt32.size := by
    have hbound := h.calls
    omega
  rcases Debouncer.pollExpired_cases r.debouncer r.now r.sleeper with ⟨sleeper, hpoll⟩ | hpoll
  · have hsettled : sleeper = r.debouncer.settle := hbehind.pending hlt hpoll
    have hrun : r.pollExpiry = { r with sleeper := r.debouncer.settle } := by
      simp only [DebounceRun.pollExpiry, hpoll, hsettled]
    rw [hrun] at hlater htimers ⊢
    cases hdeadline : r.debouncer.deadline with
    | none =>
      have hidle : r.debouncer.settle = .idle := by rw [Debouncer.settle, hdeadline]
      simp only [hidle, Debouncer.pollExpired]
    | some deadline =>
      have hmoment : moment ≤ deadline := by
        refine htimers deadline ?_
        simp [Debouncer.settle, hdeadline, Debouncer.Sleeper.timers]
      have hnot : ¬ deadline ≤ r.now := Nat.not_le.mpr (Nat.lt_of_lt_of_le hlater hmoment)
      exact (Debouncer.pollExpired_settle hdeadline r.now).trans (if_neg hnot)
  · -- an expiry would have shown in the signals
    obtain ⟨deadline, hdeadline, -⟩ := hbehind.ready hlt hpoll
    have hrun : r.pollExpiry.debouncer.deadline = none := by
      simp only [DebounceRun.pollExpiry, hpoll]
    have hsame : r.pollExpiry.debouncer.deadline = r.debouncer.deadline := congrArg Prod.fst hstill
    rw [hrun] at hsame
    cases hsame.trans hdeadline

/-- The clock goes on to a moment, if it has not come yet. -/
theorem Told.setNow {moment : Nat} (h : Told timeout left r)
    (hadmits : r.now < moment →
      r.debouncer.pollExpired r.now r.sleeper = (r.debouncer, .pending r.sleeper) ∧
      ∀ timer ∈ r.sleeper.timers, moment ≤ timer) :
    Told timeout left { r with now := max r.now moment } := by
  -- a clock that does not move is no move of the watch
  rcases Nat.lt_or_ge r.now moment with hlater | hpast
  · obtain ⟨hrest, htimers⟩ := hadmits hlater
    obtain ⟨moves, h⟩ := h
    have hcalls := h.calls
    have hsum : r.now + (moment - r.now) = moment := by omega
    rw [Nat.max_eq_right (Nat.le_of_lt hlater)]
    refine ⟨moves ++ [.pass (moment - r.now)],
      h.go (.pass (moment - r.now)) ⟨?_, ?_, ?_⟩ ?_ ?_ ?_ hcalls⟩
    · exact Nat.lt_of_le_of_lt (Nat.le_add_right _ left) hcalls
    · exact fun _ _ _ => hrest
    · rintro span ⟨⟩ timer htimer
      show r.now + (moment - r.now) ≤ timer
      rw [hsum]
      exact htimers timer htimer
    · simp only [Watch.step, watch, hsum]
    · exact (List.append_nil _).symm
    · exact (List.append_nil _).symm
  · rw [Nat.max_eq_left hpast]
    exact h

/-! ## Rounds and runs -/

/-- A round polls the steps, and then the party unless the steps are over. -/
theorem round_cases (r : DebounceRun) :
    (schedule.round r).1 = r.pollSteps ∧ schedule.isOver r.pollSteps = true ∨
    (schedule.round r).1 = r.pollSteps.pollExpiry ∧
      ((schedule.round r).2 = false →
        schedule.signals r.pollSteps.pollExpiry = schedule.signals r.pollSteps) := by
  have htasks : schedule.round r = schedule.pollEach [pollSteps, pollExpiry] r false := rfl
  rw [htasks, Schedule.pollEach]
  cases hover : schedule.isOver r.pollSteps with
  | true => exact .inl ⟨rfl, rfl⟩
  | false =>
    right
    simp only [Bool.false_eq_true, if_false, Schedule.pollEach, ite_self]
    refine ⟨trivial, fun hstill => ?_⟩
    simpa using (Bool.or_eq_false_iff.mp hstill).2

/-- A whole run is told, by induction on its rounds. -/
theorem Told.run (h : Told timeout r.steps.length r) (rounds : Nat) :
    Told timeout 0 (schedule.run rounds r) := by
  induction rounds generalizing r with
  | zero => exact h.still rfl rfl rfl (Nat.zero_le _)
  | succ rounds ih =>
    have hsteps := h.pollSteps
    rw [Schedule.run]
    rcases round_cases r with ⟨hround, hover⟩ | ⟨hround, hstill⟩
    · simp only [hround, hover, if_true]
      exact hsteps.still rfl rfl rfl (Nat.zero_le _)
    · obtain ⟨moves, hretells⟩ := hsteps
      have hexpiry : Told timeout r.pollSteps.pollExpiry.steps.length r.pollSteps.pollExpiry := by
        rw [steps_pollExpiry]
        exact Told.pollExpiry ⟨moves, hretells⟩
      simp only [hround]
      split
      · exact hexpiry.still rfl rfl rfl (Nat.zero_le _)
      · split
        · exact ih hexpiry
        · rename_i hquiet
          split
          · exact hexpiry.still rfl rfl rfl (Nat.zero_le _)
          · rename_i moment hmoment
            refine ih (hexpiry.setNow fun hlater => ?_)
            -- the clock goes on to the least timer, and the party has none before it
            have hleast : ∀ timer ∈ r.pollSteps.pollExpiry.sleeper.timers, moment ≤ timer :=
              fun timer htimer =>
              (Schedule.earliest?_eq_some hmoment).2 timer (List.mem_append_right _ htimer)
            exact ⟨hretells.at_rest (hstill (by simpa using hquiet)) hlater hleast, hleast⟩

/-- A bench run with fewer steps than there are generations amounts to an attended run of the
debouncer: what the arms and cancels did, and when it expired, is what happened in that run. -/
theorem amounts_to_watch (rounds : Nat) {steps : List DebounceStep}
    (h : steps.length < UInt32.size) :
    ∃ moves, Watch.Attended { now := 0, debouncer := { timeout } } 0 moves ∧
      Watch.run { now := 0, debouncer := { timeout } } moves = (run rounds timeout steps).watch ∧
      expiries (Watch.log { now := 0, debouncer := { timeout } } moves) =
        (run rounds timeout steps).fired ∧
      effects (Watch.log { now := 0, debouncer := { timeout } } moves) =
        taken (run rounds timeout steps).entries := by
  let r : DebounceRun := { debouncer := { timeout }, steps }
  have hstart : Told timeout r.steps.length r :=
    ⟨[], trivial, rfl, rfl, rfl, show 0 + steps.length < UInt32.size by omega⟩
  obtain ⟨moves, hattended, hwatch, hfired, hentries, -⟩ := hstart.run rounds
  exact ⟨moves, hattended, hwatch, hfired, hentries⟩

end Cellular.DebounceRun
