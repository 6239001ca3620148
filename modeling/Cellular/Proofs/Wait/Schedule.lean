import Cellular.Wait.Schedule
/-!
# What a schedule keeps

Whatever every task and the clock keep holds at the end of every run, however long it is and
whichever task ends it.

A round polls each task in order until one of them ends the run, and then moves the clock to the
least of the moments that are waited for; so an invariant has to be kept by the single task and by
the clock, and the rest is an induction on the rounds.  The second pair of lemmas is for invariants
that are lost when the run ends: a task may then assume that the run goes on, provided that the
clock alone does not end it.
-/

namespace Cellular.Schedule

variable {σ κ : Type} [DecidableEq κ] {P : σ → Prop}

/-- The earliest moment is one of them, and none is before it. -/
theorem earliest?_eq_some {ts : List Nat} {moment : Nat} (h : earliest? ts = some moment) :
    moment ∈ ts ∧ ∀ t ∈ ts, moment ≤ t := by
  have hmin : ts.min? = some moment := by
    cases ts with
    | nil => cases h
    | cons t ts => exact h
  exact List.min?_eq_some_iff.mp hmin

theorem earliest?_isSome {ts : List Nat} (h : ts ≠ []) : ∃ moment, earliest? ts = some moment := by
  cases ts with
  | nil => exact absurd rfl h
  | cons t ts => exact ⟨_, rfl⟩

/-- A round of polls keeps what each task keeps. -/
theorem pollEach_keeps {p : Schedule σ κ} {tasks : List (σ → σ)}
    (htasks : ∀ task ∈ tasks, ∀ s, P s → P (task s)) {s : σ} (hs : P s) (stirred : Bool) :
    P (p.pollEach tasks s stirred).1 := by
  induction tasks generalizing s stirred with
  | nil => exact hs
  | cons task tasks ih =>
    have htask : P (task s) := htasks task List.mem_cons_self s hs
    simp only [pollEach]
    split
    · exact htask
    · exact ih (fun later hlater => htasks later (List.mem_cons_of_mem _ hlater)) htask _

/-- A run keeps what each task and the clock keep. -/
theorem run_keeps {p : Schedule σ κ} (htasks : ∀ task ∈ p.tasks, ∀ s, P s → P (task s))
    (hclock : ∀ now s, P s → P (p.setNow now s)) (rounds : Nat) {s : σ} (hs : P s) :
    P (p.run rounds s) := by
  induction rounds generalizing s with
  | zero => exact hs
  | succ rounds ih =>
    have hround : P (p.round s).1 := pollEach_keeps htasks hs false
    simp only [run]
    -- over, stirred again, or asleep until the next timer
    split
    · exact hround
    · split
      · exact ih hround
      · split
        · exact hround
        · exact ih (hclock _ _ hround)

/-- What a task need not keep when the run is over holds as well, if the clock does not end a
run. -/
theorem pollEach_keeps_going {p : Schedule σ κ} {tasks : List (σ → σ)}
    (htasks : ∀ task ∈ tasks, ∀ s, p.isOver s = false → P s → P (task s)) {s : σ}
    (hgoes : p.isOver s = false) (hs : P s) (stirred : Bool) :
    P (p.pollEach tasks s stirred).1 := by
  induction tasks generalizing s stirred with
  | nil => exact hs
  | cons task tasks ih =>
    have htask : P (task s) := htasks task List.mem_cons_self s hgoes hs
    simp only [pollEach]
    split
    · exact htask
    · rename_i hgoes'
      exact ih (fun later hlater => htasks later (List.mem_cons_of_mem _ hlater))
        (Bool.eq_false_iff.mpr hgoes') htask _

/-- A run keeps what each task keeps while the run goes on, and the clock always. -/
theorem run_keeps_going {p : Schedule σ κ}
    (htasks : ∀ task ∈ p.tasks, ∀ s, p.isOver s = false → P s → P (task s))
    (hclock : ∀ now s, p.isOver (p.setNow now s) = p.isOver s ∧ (P s → P (p.setNow now s)))
    (rounds : Nat) {s : σ} (hgoes : p.isOver s = false) (hs : P s) : P (p.run rounds s) := by
  induction rounds generalizing s with
  | zero => exact hs
  | succ rounds ih =>
    have hround : P (p.round s).1 := pollEach_keeps_going htasks hgoes hs false
    simp only [run]
    split
    · exact hround
    · rename_i hgoes'
      have hgoes' : p.isOver (p.round s).1 = false := Bool.eq_false_iff.mpr hgoes'
      split
      · exact ih hgoes' hround
      · split
        · exact hround
        · exact ih ((hclock _ _).1.trans hgoes') ((hclock _ _).2 hround)

end Cellular.Schedule
