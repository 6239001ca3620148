import Cellular.Proofs.Wait.Join
import Cellular.Proofs.Wait.Schedule
import Cellular.Bench.Arrival
/-!
# When a wait for two signals ends, and how

Two signals that arrive at given moments, or never, are joined from time 0 on.  `Rendezvous.ending`
says in one formula what the wait ends in and when; `run_eq_ending` says that this is what a run
comes to.

The argument follows the stages of the wait.  At every stage the clock has not passed any moment
that is still waited for (`Arrival.Awaited`), and it then goes to the earliest of them.  So each
round after the first takes in a signal, or ends with the deadline, at the very moment it is due:
with two signals that is three rounds at most.

`ending` is a case distinction on which of the signals come within the limit and on whether the
reply is refused.  The runs follow it from the back: with one signal there the rest is decided by
the other one (`resume_awaitReply`, `resume_awaitNotification`), and from the first stage it is
decided by which one comes first (`resume_awaitBoth`).  A timer that is polled for the first time is
never over, even if its span is zero; so the first poll is treated by itself (`proceed_start`).
-/

namespace Cellular

/-! ## Arrivals

An arrival is a signal with the moment at which it comes, if it comes at all.  A timer that was
never polled is not over even when it is due, which is why the first poll of an arrival is
treated by itself. -/

namespace Arrival

/-- When the signal is there, if ever. -/
def moment? : Arrival → Option Nat
  | immediate => some 0
  | timed timer => some timer.expiresAt
  | never => none

/-- The moment of the signal, if it is within a limit. -/
def within? (limit : Nat) (a : Arrival) : Option Nat := a.moment?.filter (· ≤ limit)

/-- The wait for the signal once it has been polled. -/
def begun : Arrival → Arrival
  | immediate => immediate
  | timed timer => timed { timer with polled := true }
  | never => never

/-- The wait for the signal goes on at `now`: its timer, if it has one, was not due before. -/
structure Awaited (now : Nat) (a : Arrival) : Prop where
  timers_eq : a.begun.timers = a.moment?.toList
  not_before : ∀ t, a.moment? = some t → now ≤ t

/-- A signal comes within a limit just if it comes, and no later. -/
theorem within?_eq_some {limit t : Nat} {a : Arrival} :
    a.within? limit = some t ↔ a.moment? = some t ∧ t ≤ limit := by
  simp [within?, Option.filter_eq_some_iff]

/-- The first poll may come to nothing though the signal is due: a timer's first poll is never its
last. -/
theorem poll_first {α : Type} (value : α) (a : Arrival) :
    (a.poll value 0 = .ready value ∧ a.moment? = some 0) ∨
    (a.poll value 0 = .pending a.begun ∧ a.Awaited 0) := by
  cases a with
  | immediate => exact .inl ⟨rfl, rfl⟩
  | never => exact .inr ⟨rfl, rfl, fun t _ => Nat.zero_le t⟩
  | timed timer =>
    by_cases hdue : timer.polled = true ∧ timer.expiresAt ≤ 0
    · obtain ⟨hpolled, hzero⟩ := hdue
      obtain hzero := Nat.le_zero.mp hzero
      exact .inl ⟨by simp [poll, Timer.poll, hpolled, hzero, Poll.mapNext, Poll.map],
        by simp [moment?, hzero]⟩
    · exact .inr ⟨by simp only [poll, Timer.poll, hdue, if_false, Poll.mapNext, Poll.map, begun],
        rfl, fun t _ => Nat.zero_le t⟩

/-- A signal that has been waited for is there from its moment on. -/
theorem poll_begun_due {α : Type} (value : α) {now t : Nat} {a : Arrival}
    (h : a.within? now = some t) :
    a.begun.poll value now = .ready value := by
  obtain ⟨ha, hle⟩ := within?_eq_some.mp h
  cases a with
  | immediate => rfl
  | never => cases ha
  | timed timer =>
    obtain rfl : timer.expiresAt = t := by simpa [moment?] using ha
    simp [begun, poll, Timer.poll, hle, Poll.mapNext, Poll.map]

/-- Before its moment it is not. -/
theorem poll_begun_early {α : Type} (value : α) {now : Nat} {a : Arrival}
    (h : a.within? now = none) :
    a.begun.poll value now = .pending a.begun := by
  cases a with
  | immediate => simp [within?, moment?] at h
  | never => rfl
  | timed timer =>
    have hlt : now < timer.expiresAt := by simpa [within?, moment?] using h
    simp [begun, poll, Timer.poll, Nat.not_le.mpr hlt, Poll.mapNext, Poll.map]

/-- A signal that is not due at a moment does not have that moment for its own. -/
theorem not_mem_of_not_due {t : Nat} {a : Arrival} (h : a.within? t = none) :
    t ∉ a.moment?.toList := by
  intro hmem
  have hdue : a.within? t = some t :=
    within?_eq_some.mpr ⟨Option.mem_toList.mp hmem, Nat.le_refl t⟩
  rw [h] at hdue
  cases hdue

/-- What is due at the moment is due within any limit that the clock has not passed. -/
theorem Awaited.within_limit {now limit t : Nat} {a : Arrival} (h : a.Awaited now)
    (hnow : now ≤ limit) (ha : a.within? now = some t) : t = now ∧ a.within? limit = some now := by
  obtain ⟨hmoment, hle⟩ := within?_eq_some.mp ha
  obtain rfl : t = now := Nat.le_antisymm hle (h.not_before t hmoment)
  exact ⟨rfl, within?_eq_some.mpr ⟨hmoment, hnow⟩⟩

end Arrival

/-! ## The formula

Of the many cases there are five that come up in a run, and each has a lemma that says what the
formula comes to there. -/

namespace Rendezvous

variable {ρ ν : Type}

/-- What a wait for two signals ends in, and when. -/
def ending (terms : Join.Terms) (reply : Arrival × Except Error ρ) (notification : Arrival × ν) :
    Join.Outcome ρ ν × Nat :=
  match terms.refuses reply.2, reply.1.within? terms.limit, notification.1.within? terms.limit with
  | some e, some replied, _ => (.error e, replied)
  | none, some replied, some notified => (.ok (reply.2, notification.2), max replied notified)
  | _, _, _ => (.error (.operationTimeout terms.message), terms.limit)

section Ending

variable {terms : Join.Terms} {reply : Arrival × Except Error ρ} {notification : Arrival × ν}

theorem ending_of_refused {e : Error} {t : Nat} (he : terms.refuses reply.2 = some e)
    (hr : reply.1.within? terms.limit = some t) :
    ending terms reply notification = (.error e, t) := by
  simp only [ending, he, hr]

theorem ending_of_both {t u : Nat} (he : terms.refuses reply.2 = none)
    (hr : reply.1.within? terms.limit = some t) (hn : notification.1.within? terms.limit = some u) :
    ending terms reply notification = (.ok (reply.2, notification.2), max t u) := by
  simp only [ending, he, hr, hn]

/-- Where the reply comes second, it ends the wait for better or worse. -/
theorem ending_of_close {t u : Nat} (hr : reply.1.within? terms.limit = some t)
    (hn : notification.1.within? terms.limit = some u) (hlast : u ≤ t) :
    ending terms reply notification = (terms.close notification.2 reply.2, t) := by
  cases he : terms.refuses reply.2 with
  | some e => rw [ending_of_refused he hr, Join.Terms.close, he]
  | none => rw [ending_of_both he hr hn, Join.Terms.close, he, Nat.max_eq_left hlast]

/-- Without a reply within the limit the wait ends with a timeout at the limit. -/
theorem ending_without_reply (hr : reply.1.within? terms.limit = none) :
    ending terms reply notification = (.error (.operationTimeout terms.message), terms.limit) := by
  cases he : terms.refuses reply.2 <;> simp only [ending, he, hr]

theorem ending_without_notification (he : terms.refuses reply.2 = none)
    (hn : notification.1.within? terms.limit = none) :
    ending terms reply notification = (.error (.operationTimeout terms.message), terms.limit) := by
  cases hr : reply.1.within? terms.limit <;> simp only [ending, he, hr, hn]

end Ending

/-! ## Stages of a run

Between two polls the clock goes to the least moment that is waited for.  Each stage waits for one
signal less than the one before it, so three rounds are enough; the lemmas are in the order last
stage first. -/

/-- The deadline once it has been polled. -/
def bound (terms : Join.Terms) : Timer := { expiresAt := terms.limit, polled := true }

/-- The moment the clock goes to when a poll came to nothing. -/
def wakeAt (now : Nat) (j : Join Arrival Arrival ρ ν) : Nat :=
  max now ((Schedule.earliest? (joinTimers j)).getD now)

/-- The run goes on after a poll that came to nothing. -/
def resume (terms : Join.Terms) (reply : Except Error ρ) (notification : ν) (rounds now : Nat)
    (j : Join Arrival Arrival ρ ν) : Rendezvous ρ ν :=
  (schedule terms reply notification).run rounds { now := wakeAt now j, main := .pending j }

/-- What a poll leads to: the end, or the run that goes on. -/
def proceed (terms : Join.Terms) (reply : Except Error ρ) (notification : ν) (rounds now : Nat) :
    Poll (Join Arrival Arrival ρ ν) (Join.Outcome ρ ν) → Rendezvous ρ ν
  | .ready outcome => { now, main := .ready outcome }
  | .pending j => resume terms reply notification rounds now j

/-- A round polls the wait, and the run ends there or goes on. -/
theorem run_succ (terms : Join.Terms) (reply : Except Error ρ) (notification : ν) (rounds now : Nat)
    (j : Join Arrival Arrival ρ ν) :
    (schedule terms reply notification).run (rounds + 1) { now, main := .pending j } =
      proceed terms reply notification rounds now
        (j.poll terms (signals reply notification) now).2 := by
  have hround : (schedule terms reply notification).round { now, main := .pending j } =
      ({ now, main := (j.poll terms (signals reply notification) now).2 }, false) := by
    cases hpoll : (j.poll terms (signals reply notification) now).2 <;>
      simp [Schedule.round, Schedule.pollEach, schedule, hpoll, Poll.next?]
  simp only [Schedule.run, hround]
  cases hpoll : (j.poll terms (signals reply notification) now).2 with
  | ready outcome => rfl
  | pending j' =>
    have hne : joinTimers j' ≠ [] := List.cons_ne_nil _ _
    obtain ⟨moment, hmoment⟩ := Schedule.earliest?_isSome hne
    have htimers : (schedule terms reply notification).timers { now, main := .pending j' } =
        joinTimers j' := rfl
    simp only [htimers, hmoment, proceed, resume, wakeAt, Option.getD_some]
    rfl

/-- Up to the next poll the clock passes nothing that is waited for, and then something is due. -/
theorem resume_at (terms : Join.Terms) (reply : Except Error ρ) (notification : ν)
    (rounds : Nat) {now : Nat} {j : Join Arrival Arrival ρ ν} {moments : List Nat}
    (hj : joinTimers j = moments) (hnow : ∀ t ∈ moments, now ≤ t) :
    ∃ t ∈ moments, (∀ u ∈ moments, t ≤ u) ∧ now ≤ t ∧ resume terms reply notification rounds now j =
      (schedule terms reply notification).run rounds { now := t, main := .pending j } := by
  have hne : joinTimers j ≠ [] := List.cons_ne_nil _ _
  obtain ⟨moment, hmoment⟩ := Schedule.earliest?_isSome hne
  obtain ⟨hmem, hleast⟩ := Schedule.earliest?_eq_some hmoment
  rw [hj] at hmem hleast
  have hwake : wakeAt now j = moment := by
    rw [wakeAt, hmoment, Option.getD_some, Nat.max_eq_right (hnow moment hmem)]
  exact ⟨moment, hmem, hleast, hnow moment hmem, by rw [resume, hwake]⟩

section Stages

variable {terms : Join.Terms} {reply : Arrival × Except Error ρ}
  {notification : Arrival × ν} {now : Nat}

/-- The run that is over as the formula says. -/
def concluded (terms : Join.Terms) (reply : Arrival × Except Error ρ) (notification : Arrival × ν) :
    Rendezvous ρ ν :=
  { now := (ending terms reply notification).2, main := .ready (ending terms reply notification).1 }

/-- The deadline is over at the limit and not before. -/
theorem orExpire_bound (stage : Timer → Join Arrival Arrival ρ ν) (hnow : now ≤ terms.limit) :
    Join.orExpire terms now stage (bound terms) =
      if now = terms.limit then .ready (.error (.operationTimeout terms.message))
      else .pending (stage (bound terms)) := by
  by_cases hdue : now = terms.limit
  · simp [Join.orExpire, bound, Timer.poll, hdue]
  · have hlt : now < terms.limit := Nat.lt_of_le_of_ne hnow hdue
    simp [Join.orExpire, bound, Timer.poll, hdue, Nat.not_le.mpr hlt]

/-- No signal came: right at the limit this is the end, and before it the run goes on. -/
theorem proceed_without {stage : Timer → Join Arrival Arrival ρ ν} {rounds : Nat}
    (hnow : now ≤ terms.limit) (hlate : now = terms.limit →
      ending terms reply notification = (.error (.operationTimeout terms.message), terms.limit))
    (hgo : now ≠ terms.limit →
      resume terms reply.2 notification.2 rounds now (stage (bound terms)) =
        concluded terms reply notification) :
    proceed terms reply.2 notification.2 rounds now (Join.orExpire terms now stage (bound terms)) =
      concluded terms reply notification := by
  rw [orExpire_bound stage hnow]
  by_cases hend : now = terms.limit
  · rw [if_pos hend, concluded, hlate hend, hend]
    rfl
  · rw [if_neg hend]
    exact hgo hend

/-- With the notification there, the run ends as the formula says. -/
theorem resume_awaitReply (hr : reply.1.Awaited now) (hnow : now ≤ terms.limit) {u : Nat}
    (hn : notification.1.within? terms.limit = some u) (hu : u ≤ now) (rounds : Nat) :
    resume terms reply.2 notification.2 (rounds + 1) now
      (Join.awaitReply notification.2 reply.1.begun (bound terms)) =
        concluded terms reply notification := by
  have hj :
    joinTimers (Join.awaitReply notification.2 reply.1.begun (bound terms) : Join _ Arrival ρ ν) =
      terms.limit :: reply.1.moment?.toList := by
    simp [joinTimers, Join.awaitReply, bound, hr.timers_eq]
  obtain ⟨t, hmem, hleast, hle, hrun⟩ := resume_at terms reply.2 notification.2 (rounds + 1) hj
    (List.forall_mem_cons.mpr ⟨hnow, by simpa using hr.not_before⟩)
  obtain ⟨hlimit, hr⟩ : t ≤ terms.limit ∧ reply.1.Awaited t := by
    simp only [List.forall_mem_cons, Option.mem_toList] at hleast
    exact ⟨hleast.1, hr.timers_eq, hleast.2⟩
  rw [hrun, run_succ, Join.poll_awaitReply]
  cases hdue : reply.1.within? t with
  | some t' =>
    obtain ⟨rfl, hin⟩ := hr.within_limit hlimit hdue
    simp only [signals, Arrival.poll_begun_due _ hdue, proceed, concluded,
      ending_of_close hin hn (Nat.le_trans hu hle)]
  | none =>
    -- only the deadline can be due
    have hend : t = terms.limit :=
      (List.mem_cons.mp hmem).resolve_right (Arrival.not_mem_of_not_due hdue)
    simp only [signals, Arrival.poll_begun_early _ hdue, id_eq]
    exact proceed_without hlimit (fun h => ending_without_reply (h ▸ hdue)) (fun h => absurd hend h)

/-- With the reply there, the run ends as the formula says. -/
theorem resume_awaitNotification (he : terms.refuses reply.2 = none)
    (hn : notification.1.Awaited now) (hnow : now ≤ terms.limit) {u : Nat}
    (hr : reply.1.within? terms.limit = some u) (hu : u ≤ now) (rounds : Nat) :
    resume terms reply.2 notification.2 (rounds + 1) now
      (Join.awaitNotification reply.2 notification.1.begun (bound terms)) =
        concluded terms reply notification := by
  have hj : joinTimers (Join.awaitNotification reply.2 notification.1.begun
    (bound terms) : Join Arrival _ ρ ν) =
      terms.limit :: notification.1.moment?.toList := by
    simp [joinTimers, Join.awaitNotification, bound, hn.timers_eq]
  obtain ⟨t, hmem, hleast, hle, hrun⟩ := resume_at terms reply.2 notification.2 (rounds + 1) hj
    (List.forall_mem_cons.mpr ⟨hnow, by simpa using hn.not_before⟩)
  obtain ⟨hlimit, hn⟩ : t ≤ terms.limit ∧ notification.1.Awaited t := by
    simp only [List.forall_mem_cons, Option.mem_toList] at hleast
    exact ⟨hleast.1, hn.timers_eq, hleast.2⟩
  rw [hrun, run_succ, Join.poll_awaitNotification]
  cases hdue : notification.1.within? t with
  | some t' =>
    obtain ⟨rfl, hin⟩ := hn.within_limit hlimit hdue
    simp only [signals, Arrival.poll_begun_due _ hdue, proceed, concluded, ending_of_both he hr hin,
      Nat.max_eq_right (Nat.le_trans hu hle)]
  | none =>
    -- the notification is not due, so what the run slept for is the limit
    have hend : t = terms.limit :=
      (List.mem_cons.mp hmem).resolve_right (Arrival.not_mem_of_not_due hdue)
    simp only [signals, Arrival.poll_begun_early _ hdue, id_eq]
    exact proceed_without hlimit (fun h => ending_without_notification he (h ▸ hdue))
      (fun h => absurd hend h)

/-- With neither there yet, the run ends as the formula says. -/
theorem resume_awaitBoth (hr : reply.1.Awaited now) (hn : notification.1.Awaited now)
    (hnow : now ≤ terms.limit) (rounds : Nat) :
    resume terms reply.2 notification.2 (rounds + 2) now
      (Join.awaitBoth reply.1.begun notification.1.begun (bound terms)) =
        concluded terms reply notification := by
  have hj :
    joinTimers (Join.awaitBoth reply.1.begun notification.1.begun (bound terms) : Join _ _ ρ ν) =
      terms.limit :: (reply.1.moment?.toList ++ notification.1.moment?.toList) := by
    simp [joinTimers, Join.awaitBoth, bound, hr.timers_eq, hn.timers_eq]
  -- the run sleeps until the least of three moments; which signals are due then decides
  obtain ⟨t, hmem, hleast, -, hrun⟩ := resume_at terms reply.2 notification.2 (rounds + 2) hj (by
    simp only [List.forall_mem_cons, List.forall_mem_append, Option.mem_toList]
    exact ⟨hnow, hr.not_before, hn.not_before⟩)
  obtain ⟨hlimit, hr, hn⟩ : t ≤ terms.limit ∧ reply.1.Awaited t ∧ notification.1.Awaited t := by
    simp only [List.forall_mem_cons, List.forall_mem_append, Option.mem_toList] at hleast
    exact ⟨hleast.1, ⟨hr.timers_eq, hleast.2.1⟩, hn.timers_eq, hleast.2.2⟩
  rw [hrun, run_succ, Join.poll_awaitBoth]
  cases hreply : reply.1.within? t with
  | some t' =>
    obtain ⟨rfl, hin⟩ := hr.within_limit hlimit hreply
    simp only [signals, Arrival.poll_begun_due _ hreply]
    cases he : terms.refuses reply.2 with
    | some e => simp only [proceed, concluded, ending_of_refused he hin]
    | none =>
      simp only [Join.poll_awaitNotification]
      cases hnote : notification.1.within? t' with
      | some u =>
        obtain ⟨rfl, hin'⟩ := hn.within_limit hlimit hnote
        simp only [Arrival.poll_begun_due _ hnote, proceed, concluded,
          ending_of_both he hin hin', Nat.max_self]
      | none =>
        simp only [Arrival.poll_begun_early _ hnote, id_eq]
        exact proceed_without hlimit (fun h => ending_without_notification he (h ▸ hnote))
          (fun _ => resume_awaitNotification he hn hlimit hin (Nat.le_refl _) rounds)
  | none =>
    simp only [signals, Arrival.poll_begun_early _ hreply, Join.seekNotification]
    cases hnote : notification.1.within? t with
    | some u =>
      obtain ⟨rfl, hin⟩ := hn.within_limit hlimit hnote
      simp only [Arrival.poll_begun_due _ hnote, Join.poll_awaitReply,
        Arrival.poll_begun_early _ hreply, id_eq]
      exact proceed_without hlimit (fun h => ending_without_reply (h ▸ hreply))
        (fun _ => resume_awaitReply hr hlimit hin (Nat.le_refl _) rounds)
    | none =>
      have hend : t = terms.limit := (List.mem_cons.mp hmem).resolve_right fun h =>
        (List.mem_append.mp h).elim (Arrival.not_mem_of_not_due hreply)
          (Arrival.not_mem_of_not_due hnote)
      simp only [Arrival.poll_begun_early _ hnote, id_eq]
      exact proceed_without hlimit (fun h => ending_without_reply (h ▸ hreply))
        (fun h => absurd hend h)

end Stages

/-! ## Whole runs -/

variable (terms : Join.Terms) (reply : Arrival × Except Error ρ) (notification : Arrival × ν)

theorem orExpire_start (stage : Timer → Join Arrival Arrival ρ ν) :
    Join.orExpire terms 0 stage (.after 0 terms.limit) = .pending (stage (bound terms)) := by
  simp [Join.orExpire, Timer.poll_after, bound]

/-- The first poll.  The deadline has only begun, and so has every timer: a wait that is left may be
due at once all the same. -/
theorem proceed_start (rounds : Nat) :
    proceed terms reply.2 notification.2 (rounds + 2) 0
      ((Join.start terms 0 reply.1 notification.1).poll terms
      (signals reply.2 notification.2) 0).2 = concluded terms reply notification := by
  have hstart : Join.start terms 0 reply.1 notification.1 =
      Join.awaitBoth (ρ := ρ) (ν := ν) reply.1 notification.1 (.after 0 terms.limit) := rfl
  have hlimit : 0 ≤ terms.limit := Nat.zero_le _
  rw [hstart, Join.poll_awaitBoth]
  rcases reply.1.poll_first reply.2 with ⟨hreply, hzero⟩ | ⟨hreply, hr⟩
  · have hin : reply.1.within? terms.limit = some 0 := Arrival.within?_eq_some.mpr ⟨hzero, hlimit⟩
    simp only [signals, hreply]
    cases he : terms.refuses reply.2 with
    | some e => simp only [proceed, concluded, ending_of_refused he hin]
    | none =>
      simp only [Join.poll_awaitNotification]
      rcases notification.1.poll_first notification.2 with ⟨hnote, hzero'⟩ | ⟨hnote, hn⟩
      · have hin' : notification.1.within? terms.limit = some 0 :=
          Arrival.within?_eq_some.mpr ⟨hzero', hlimit⟩
        simp only [hnote, proceed, concluded, ending_of_both he hin hin', Nat.max_self]
      · simp only [hnote, id_eq, orExpire_start, proceed]
        exact resume_awaitNotification he hn hlimit hin (Nat.le_refl 0) (rounds + 1)
  · simp only [signals, hreply, Join.seekNotification]
    rcases notification.1.poll_first notification.2 with ⟨hnote, hzero⟩ | ⟨hnote, hn⟩
    · have hin : notification.1.within? terms.limit = some 0 :=
        Arrival.within?_eq_some.mpr ⟨hzero, hlimit⟩
      simp only [hnote, Join.poll_awaitReply]
      -- the reply is polled a second time within this poll
      cases hdue : reply.1.within? 0 with
      | some t =>
        obtain ⟨rfl, hin'⟩ := hr.within_limit hlimit hdue
        simp only [Arrival.poll_begun_due _ hdue, proceed, concluded,
          ending_of_close hin' hin (Nat.le_refl 0)]
      | none =>
        simp only [Arrival.poll_begun_early _ hdue, id_eq, orExpire_start, proceed]
        exact resume_awaitReply hr hlimit hin (Nat.le_refl 0) (rounds + 1)
    · simp only [hnote, id_eq, orExpire_start, proceed]
      exact resume_awaitBoth hr hn hlimit rounds

/-- Every run of three rounds or more ends as the formula says. -/
theorem run_eq_ending (rounds : Nat) :
    run (rounds + 3) terms reply notification =
      (some (ending terms reply notification).1, (ending terms reply notification).2) := by
  simp only [run, run_succ, proceed_start, concluded, Poll.value?]

example : ending ⟨.failFast, 30, "late"⟩ (.timed (.due 20), (.error .timeout : Except Error Unit))
    (.immediate, ())
    = (.error .timeout, 20) := rfl

/-- What the wait ends in depends only on which of the signals come within the limit. -/
theorem ending_congr {terms : Join.Terms} {reply : Except Error ρ} {notification : ν}
    {r r' n n' : Arrival} (hr : (r.within? terms.limit).isSome = (r'.within? terms.limit).isSome)
    (hn : (n.within? terms.limit).isSome = (n'.within? terms.limit).isSome) :
    (ending terms (r, reply) (n, notification)).1 =
      (ending terms (r', reply) (n', notification)).1 := by
  -- the case of the formula depends on whether the signals come, not on when
  cases hri : r.within? terms.limit with
  | none =>
    have hri' : r'.within? terms.limit = none := by simpa [hri] using hr.symm
    rw [ending_without_reply hri, ending_without_reply hri']
  | some t =>
    obtain ⟨t', hri'⟩ : ∃ t', r'.within? terms.limit = some t' :=
      Option.isSome_iff_exists.mp (by rw [← hr, hri, Option.isSome_some])
    cases he : terms.refuses reply with
    | some e => rw [ending_of_refused he hri, ending_of_refused he hri']
    | none =>
      cases hni : n.within? terms.limit with
      | none =>
        have hni' : n'.within? terms.limit = none := by simpa [hni] using hn.symm
        rw [ending_without_notification he hni, ending_without_notification he hni']
      | some u =>
        obtain ⟨u', hni'⟩ : ∃ u', n'.within? terms.limit = some u' :=
          Option.isSome_iff_exists.mp (by rw [← hn, hni, Option.isSome_some])
        rw [ending_of_both he hri hni, ending_of_both he hri' hni']

/-- A wait that a failed reply would end at once does not end well with one. -/
theorem ending_ok {terms : Join.Terms} {reply : Arrival × Except Error ρ}
    {notification : Arrival × ν} {r : Except Error ρ} {n : ν} (hpolicy : terms.policy = .failFast)
    (h : (ending terms reply notification).1 = .ok (r, n)) : ∃ v, r = .ok v := by
  obtain ⟨wait, result⟩ := reply
  cases hr : wait.within? terms.limit with
  | none =>
    rw [ending_without_reply hr] at h
    cases h
  | some t =>
    cases result with
    | error e =>
      -- this policy refuses a failed reply
      have he : terms.refuses (.error e : Except Error ρ) = some e := by
        simp [Join.Terms.refuses, hpolicy]
      rw [ending_of_refused he hr] at h
      cases h
    | ok v =>
      have he : terms.refuses (.ok v : Except Error ρ) = none := rfl
      cases hn : notification.1.within? terms.limit with
      | none =>
        rw [ending_without_notification he hn] at h
        cases h
      | some u =>
        rw [ending_of_both he hr hn] at h
        exact ⟨v, (Prod.mk.inj (Except.ok.inj h)).1.symm⟩

/-- Two signals joined from time 0 on, for every pair of arrivals, every limit and both policies:
the run ends as the formula says.  The order in which the signals come makes no difference to what
it ends in, and if a failed reply is to end the wait, then a wait that ends well has a reply that
did not fail. -/
theorem run_closed_form (rounds : Nat) :
    run (rounds + 3) terms reply notification =
      (some (ending terms reply notification).1, (ending terms reply notification).2) ∧
    (∀ r n : Arrival,
      (r.within? terms.limit).isSome = (reply.1.within? terms.limit).isSome →
      (n.within? terms.limit).isSome = (notification.1.within? terms.limit).isSome →
      (run (rounds + 3) terms (r, reply.2) (n, notification.2)).1 =
        (run (rounds + 3) terms reply notification).1) ∧
    (terms.policy = .failFast → ∀ r n,
      (run (rounds + 3) terms reply notification).1 = some (.ok (r, n)) → ∃ v, r = .ok v) := by
  refine ⟨run_eq_ending terms reply notification rounds, ?_, ?_⟩
  · intro r n hr hn
    simp only [run_eq_ending, ending_congr hr hn]
  · intro hpolicy r n h
    rw [run_eq_ending] at h
    exact ending_ok hpolicy (Option.some.inj h)

end Rendezvous

end Cellular
