import Cellular.Wait.JoinGate
import Mathlib.Data.List.Induction
/-!
# What comes of a gate

A gate may be called in any order and as often as one likes.  What it holds is told by the calls so
far (`told_after`): the first reply and the first notification, until both are there or the gate is
given up, and nothing from then on.  So is what a call answers (`Told.outcome`), and hence one call
at most settles the gate: the one with which both signals are there for the first time, or the first
one that gives it up, whichever comes first.

Every fact about a gate is a fact about lists of calls.  The gate is the value of a function of the
calls so far, as long as nothing among them has settled it (`Open`), and so the proofs are
inductions from the back of the list: one more call, with all others before it.
-/

namespace Cellular.JoinGate

variable {ρ ν : Type}

/-! ## Calls and answers

A call brings a reply, brings a notification, or gives the gate up.  An answer settles the gate if
it opens it, with both signals, or says that it has been given up. -/

/-- What may be done with a gate. -/
inductive Call (ρ ν : Type) where
  | reply (r : ρ)
  | notification (n : ν)
  | tryComplete
  | expire
  deriving DecidableEq, Repr

/-- What is answered. -/
inductive Answer (ρ ν : Type) where
  | signals (opened : Option (ρ × ν))
  | expiry (gaveUp : Bool)
  deriving DecidableEq, Repr

/-- The gate opens, or is given up. -/
def Answer.settles : Answer ρ ν → Bool
  | .signals opened => opened.isSome
  | .expiry gaveUp => gaveUp

/-- Call a gate. -/
def call (g : JoinGate ρ ν) : Call ρ ν → JoinGate ρ ν × Answer ρ ν
  | .reply r => ((g.markReply r).1, .signals (g.markReply r).2)
  | .notification n => ((g.markNotification n).1, .signals (g.markNotification n).2)
  | .tryComplete => (g.tryComplete.1, .signals g.tryComplete.2)
  | .expire => (g.expire.1, .expiry g.expire.2)

/-- The gate after calls. -/
def after (g : JoinGate ρ ν) (calls : List (Call ρ ν)) : JoinGate ρ ν :=
  calls.foldl (fun g c => (g.call c).1) g

/-- What calls answer, one after another. -/
def answers (g : JoinGate ρ ν) : List (Call ρ ν) → List (Answer ρ ν)
  | [] => []
  | c :: calls => (g.call c).2 :: (g.call c).1.answers calls

theorem after_append (g : JoinGate ρ ν) (calls more : List (Call ρ ν)) :
    g.after (calls ++ more) = (g.after calls).after more := List.foldl_append

/-- The answers to the second list come behind those to the first. -/
theorem answers_append (g : JoinGate ρ ν) (calls more : List (Call ρ ν)) :
    g.answers (calls ++ more) = g.answers calls ++ (g.after calls).answers more := by
  induction calls generalizing g with
  | nil => rfl
  | cons c calls ih => exact congrArg ((g.call c).2 :: ·) (ih (g.call c).1)

/-! ## What the calls tell

First signals are found from the front, so calls at the end add a first signal only where there was
none.  An open gate has not been given up and lacks a signal. -/

/-- The reply that a call brings. -/
def Call.reply? : Call ρ ν → Option ρ
  | .reply r => some r
  | _ => none

/-- The notification that a call brings. -/
def Call.notification? : Call ρ ν → Option ν
  | .notification n => some n
  | _ => none

/-- The first reply that calls bring. -/
def firstReply? (calls : List (Call ρ ν)) : Option ρ := calls.findSome? Call.reply?

/-- The first notification that calls bring. -/
def firstNotification? (calls : List (Call ρ ν)) : Option ν := calls.findSome? Call.notification?

/-- Calls bring both signals. -/
def BringBoth (calls : List (Call ρ ν)) : Prop :=
  (firstReply? calls).isSome = true ∧ (firstNotification? calls).isSome = true

/-- Nothing among the calls has settled the gate. -/
def Open (calls : List (Call ρ ν)) : Prop := .expire ∉ calls ∧ ¬ BringBoth calls

theorem firstReply?_append (calls more : List (Call ρ ν)) :
    firstReply? (calls ++ more) = (firstReply? calls).or (firstReply? more) := List.findSome?_append

theorem firstNotification?_append (calls more : List (Call ρ ν)) :
    firstNotification? (calls ++ more) = (firstNotification? calls).or (firstNotification? more) :=
  List.findSome?_append

theorem firstReply?_concat (calls : List (Call ρ ν)) (c : Call ρ ν) :
    firstReply? (calls ++ [c]) = (firstReply? calls).or c.reply? := by
  rw [firstReply?_append]
  exact congrArg _ List.findSome?_singleton

theorem firstNotification?_concat (calls : List (Call ρ ν)) (c : Call ρ ν) :
    firstNotification? (calls ++ [c]) = (firstNotification? calls).or c.notification? := by
  rw [firstNotification?_append]
  exact congrArg _ List.findSome?_singleton

/-- A first signal stays the first one. -/
theorem BringBoth.append {calls : List (Call ρ ν)} (h : BringBoth calls) (more : List (Call ρ ν)) :
    firstReply? (calls ++ more) = firstReply? calls ∧
      firstNotification? (calls ++ more) = firstNotification? calls := by
  obtain ⟨r, hr⟩ := Option.isSome_iff_exists.mp h.1
  obtain ⟨n, hn⟩ := Option.isSome_iff_exists.mp h.2
  rw [firstReply?_append, firstNotification?_append, hr, hn]
  exact ⟨rfl, rfl⟩

/-- What is open after more calls was open before them. -/
theorem Open.of_append {calls more : List (Call ρ ν)} (h : Open (calls ++ more)) : Open calls := by
  obtain ⟨hexpire, hboth⟩ := h
  refine ⟨fun hmem => hexpire (List.mem_append_left _ hmem), fun hbring => hboth ?_⟩
  obtain ⟨hr, hn⟩ := hbring.append more
  exact ⟨by rw [hr]; exact hbring.1, by rw [hn]; exact hbring.2⟩

/-! ## What the gate holds

The invariant is `Told`: the gate is open just if the calls leave it open, and then it holds the
first signals of the calls.  There are three kinds of steps to it: calls of a gate that is shut,
calls that give it up, and calls that bring a signal. -/

/-- The gate that calls tell of. -/
structure Told (g : JoinGate ρ ν) (calls : List (Call ρ ν)) : Prop where
  /-- While it is open it holds what has come. -/
  held : Open calls → g = { reply := firstReply? calls, notification := firstNotification? calls }
  /-- Once it is settled it holds nothing. -/
  shut : ¬ Open calls → g = { consumed := true }

/-- A gate that is settled answers nothing and stays so. -/
theorem call_shut (c : Call ρ ν) : ∃ answer,
    ({ consumed := true } : JoinGate ρ ν).call c = ({ consumed := true }, answer) ∧
    answer.settles = false := by
  cases c <;> exact ⟨_, rfl, rfl⟩

variable {first : Option ρ} {second : Option ν}

/-- Giving up an open gate settles it. -/
theorem call_expire :
    ({ reply := first, notification := second } : JoinGate ρ ν).call .expire =
      ({ consumed := true }, .expiry true) := rfl

/-- Any other call of an open gate takes the signal it brings, unless there is one of its kind, and
opens the gate if both are there then. -/
theorem call_signal (hmissing : first = none ∨ second = none) {c : Call ρ ν} (hc : c ≠ .expire) :
    ({ reply := first, notification := second } : JoinGate ρ ν).call c =
      match first.or c.reply?, second.or c.notification? with
      | some r, some n => ({ consumed := true }, .signals (some (r, n)))
      | reply, notification => ({ reply, notification }, .signals none) := by
  rcases hmissing with rfl | rfl
  · cases c with
    | reply r => cases second <;> rfl
    | notification n => cases second <;> rfl
    | tryComplete => cases second <;> rfl
    | expire => exact absurd rfl hc
  · cases c with
    | reply r => cases first <;> rfl
    | notification n => cases first <;> rfl
    | tryComplete => cases first <;> rfl
    | expire => exact absurd rfl hc

/-- One of the signals of an open gate is still missing. -/
theorem Open.missing {calls : List (Call ρ ν)} (h : Open calls) :
    firstReply? calls = none ∨ firstNotification? calls = none := by
  cases hr : firstReply? calls with
  | none => exact .inl rfl
  | some r =>
    cases hn : firstNotification? calls with
    | none => exact .inr rfl
    | some n => exact absurd ⟨by rw [hr]; rfl, by rw [hn]; rfl⟩ h.2

/-- Giving a gate up brings no signal. -/
theorem Open.not_both_expire {calls : List (Call ρ ν)} (h : Open calls) :
    ¬ BringBoth (calls ++ [.expire]) := by
  have hreply : firstReply? (calls ++ [.expire]) = firstReply? calls := by
    rw [firstReply?_concat]
    exact Option.or_none
  have hnotification : firstNotification? (calls ++ [.expire]) = firstNotification? calls := by
    rw [firstNotification?_concat]
    exact Option.or_none
  rw [BringBoth, hreply, hnotification]
  exact h.2

theorem not_open_expire (calls : List (Call ρ ν)) : ¬ Open (calls ++ [.expire]) := fun h =>
  h.1 (List.mem_append_right _ (List.mem_singleton_self _))

/-- A call that does not give an open gate up leaves it open or brings the signal that was
missing. -/
theorem open_concat_iff {calls : List (Call ρ ν)} (h : Open calls) {c : Call ρ ν}
    (hc : c ≠ .expire) :
    Open (calls ++ [c]) ↔ ¬ BringBoth (calls ++ [c]) := by
  refine ⟨fun hopen => hopen.2, fun hboth => ⟨fun hmem => ?_, hboth⟩⟩
  rcases List.mem_append.mp hmem with hmem | hmem
  · exact h.1 hmem
  · exact hc (List.mem_singleton.mp hmem).symm

/-- What a call comes to, after others. -/
inductive Outcome (calls : List (Call ρ ν)) (c : Call ρ ν) : JoinGate ρ ν × Answer ρ ν → Prop where
  /-- It comes too late. -/
  | late (answer : Answer ρ ν) (hshut : ¬ Open calls) (hanswer : answer.settles = false) :
      Outcome calls c ({ consumed := true }, answer)
  /-- It gives the gate up. -/
  | givenUp (hopen : Open calls) (hc : c = .expire) :
      Outcome calls c ({ consumed := true }, .expiry true)
  /-- It opens the gate. -/
  | opened (r : ρ) (n : ν) (hopen : Open calls) (hr : firstReply? (calls ++ [c]) = some r)
      (hn : firstNotification? (calls ++ [c]) = some n) :
        Outcome calls c ({ consumed := true }, .signals (some (r, n)))
  /-- A signal is still missing. -/
  | waiting (hopen : Open (calls ++ [c])) : Outcome calls c
      ({ reply := firstReply? (calls ++ [c]), notification := firstNotification? (calls ++ [c]) },
        .signals none)

/-- What a call answers is told by the calls before it. -/
theorem Told.outcome {g : JoinGate ρ ν} {calls : List (Call ρ ν)} (h : g.Told calls)
    (c : Call ρ ν) :
    Outcome calls c (g.call c) := by
  by_cases hopen : Open calls
  · rw [h.held hopen]
    by_cases hc : c = .expire
    · rw [hc, call_expire]
      exact .givenUp hopen rfl
    · -- a signal leaves the gate open unless it is the second of the two
      have hgoes : Open (calls ++ [c]) ↔ ¬ BringBoth (calls ++ [c]) := open_concat_iff hopen hc
      rw [call_signal hopen.missing hc, ← firstReply?_concat, ← firstNotification?_concat]
      split
      · rename_i r n hr hn
        exact .opened r n hopen hr hn
      · rename_i hnot
        refine .waiting (hgoes.mpr ?_)
        rintro ⟨hr, hn⟩
        obtain ⟨r, hr⟩ := Option.isSome_iff_exists.mp hr
        obtain ⟨n, hn⟩ := Option.isSome_iff_exists.mp hn
        exact hnot r n hr hn
  · -- the gate was shut before, and nothing settles it again
    rw [h.shut hopen]
    obtain ⟨answer, hcall, hanswer⟩ : ∃ answer, ({ consumed := true } : JoinGate ρ ν).call c =
        ({ consumed := true }, answer) ∧ answer.settles = false := call_shut c
    rw [hcall]
    exact .late answer hopen hanswer

/-- Both signals are there after a call, so the gate is no longer open. -/
theorem not_open_of_both {calls : List (Call ρ ν)} {r : ρ} {n : ν} (hr : firstReply? calls = some r)
    (hn : firstNotification? calls = some n) : ¬ Open calls := fun hopen =>
  hopen.2 ⟨by rw [hr]; rfl, by rw [hn]; rfl⟩

/-- One more call keeps the invariant. -/
theorem Told.call {g : JoinGate ρ ν} {calls : List (Call ρ ν)} (h : g.Told calls) (c : Call ρ ν) :
    (g.call c).1.Told (calls ++ [c]) := by
  have hout := h.outcome c
  generalize g.call c = result at hout
  cases hout with
  | late answer hshut => exact ⟨fun hopen => absurd hopen.of_append hshut, fun _ => rfl⟩
  | givenUp hopen hc =>
    exact ⟨fun hopen => absurd (hc ▸ hopen) (not_open_expire calls), fun _ => rfl⟩
  | opened r n hopen hr hn =>
    exact ⟨fun hopen => absurd hopen (not_open_of_both hr hn), fun _ => rfl⟩
  | waiting hopen => exact ⟨fun _ => rfl, fun hshut => absurd hopen hshut⟩

/-- The gate is what the calls tell of, after any calls. -/
theorem told_after (calls : List (Call ρ ν)) : (({} : JoinGate ρ ν).after calls).Told calls := by
  induction calls using List.reverseRecOn with
  | nil => exact ⟨fun _ => rfl, fun h => absurd ⟨List.not_mem_nil, fun hboth => nomatch hboth.1⟩ h⟩
  | append_singleton calls c ih =>
    rw [after_append]
    exact ih.call c

/-! ## One call settles a gate

The gate goes from open to shut once.  The call with which it does is the first one that finds both
signals brought or that gives the gate up, so it can be told from the calls alone which one it is.
-/

/-- The call that settles a gate is the one that finds it open and leaves it shut. -/
theorem Told.settles_iff {g : JoinGate ρ ν} {calls : List (Call ρ ν)} (h : g.Told calls)
    (c : Call ρ ν) :
    (g.call c).2.settles = true ↔ Open calls ∧ ¬ Open (calls ++ [c]) := by
  have hout := h.outcome c
  generalize g.call c = result at hout
  cases hout with
  | late answer hshut hanswer => simp [hanswer, hshut]
  | givenUp hopen hc =>
    subst hc
    simp [Answer.settles, hopen, not_open_expire]
  | opened r n hopen hr hn => simp [Answer.settles, hopen, not_open_of_both hr hn]
  | waiting hopen => simp [Answer.settles, hopen]

/-- Only one call settles a gate. -/
theorem countP_settles (calls : List (Call ρ ν)) :
    (({} : JoinGate ρ ν).answers calls).countP Answer.settles ≤ 1 ∧
    (Open calls → (({} : JoinGate ρ ν).answers calls).countP Answer.settles = 0) := by
  induction calls using List.reverseRecOn with
  | nil => exact ⟨Nat.zero_le 1, fun _ => rfl⟩
  | append_singleton calls c ih =>
    obtain ⟨hone, hzero⟩ := ih
    have hsettles : ((({} : JoinGate ρ ν).after calls).call c).2.settles = true ↔
        Open calls ∧ ¬ Open (calls ++ [c]) :=
      (told_after calls).settles_iff c
    rw [answers_append, List.countP_append, answers, answers, List.countP_singleton]
    -- a call settles just when it shuts the gate, which stays shut
    by_cases hopen : Open calls
    · rw [hzero hopen]
      refine ⟨by split <;> omega, fun hstill => ?_⟩
      rw [if_neg fun h => (hsettles.mp h).2 hstill]
    · rw [if_neg fun h => hopen (hsettles.mp h).1]
      exact ⟨hone, fun hstill => absurd hstill.of_append hopen⟩

/-- Nothing comes of calls of a gate that is settled. -/
theorem shut_stays (calls : List (Call ρ ν)) :
    ({ consumed := true } : JoinGate ρ ν).after calls = { consumed := true } ∧
    ∀ answer ∈ ({ consumed := true } : JoinGate ρ ν).answers calls, answer.settles = false := by
  induction calls with
  | nil => exact ⟨rfl, fun _ h => absurd h List.not_mem_nil⟩
  | cons c calls ih =>
    obtain ⟨answer, hcall, hanswer⟩ : ∃ answer, ({ consumed := true } : JoinGate ρ ν).call c =
        ({ consumed := true }, answer) ∧ answer.settles = false := call_shut c
    rw [after, List.foldl_cons, answers, hcall]
    exact ⟨ih.1, List.forall_mem_cons.mpr ⟨hanswer, ih.2⟩⟩

/-- The call that opens a gate. -/
theorem Told.opens_iff {g : JoinGate ρ ν} {before : List (Call ρ ν)} (h : g.Told before)
    (c : Call ρ ν) (r : ρ) (n : ν) :
    (g.call c).2 = .signals (some (r, n)) ↔
      Open before ∧ firstReply? (before ++ [c]) = some r ∧
      firstNotification? (before ++ [c]) = some n := by
  have hout := h.outcome c
  generalize g.call c = result at hout
  cases hout with
  | late answer hshut hanswer =>
    constructor
    · rintro rfl
      cases hanswer
    · exact fun hopens => absurd hopens.1 hshut
  | givenUp hopen hc =>
    -- the gate was open until now, so one signal was missing when it was given up
    constructor
    · nofun
    · rintro ⟨-, hr, hn⟩
      subst hc
      exact absurd ⟨by rw [hr]; rfl, by rw [hn]; rfl⟩ hopen.not_both_expire
  | opened r' n' hopen hr hn =>
    rw [hr, hn]
    simp [hopen]
  | waiting hopen =>
    constructor
    · nofun
    · rintro ⟨-, hr, hn⟩
      exact absurd hopen (not_open_of_both hr hn)

/-- The call that gives a gate up. -/
theorem Told.givesUp_iff {g : JoinGate ρ ν} {before : List (Call ρ ν)} (h : g.Told before)
    (c : Call ρ ν) :
    (g.call c).2 = .expiry true ↔ Open before ∧ c = .expire := by
  have hout := h.outcome c
  generalize g.call c = result at hout
  cases hout with
  | late answer hshut hanswer =>
    constructor
    · rintro rfl
      cases hanswer
    · exact fun hgives => absurd hgives.1 hshut
  | givenUp hopen hc => exact ⟨fun _ => ⟨hopen, hc⟩, fun _ => rfl⟩
  | opened r n hopen hr hn =>
    constructor
    · nofun
    · rintro ⟨-, rfl⟩
      exact absurd ⟨by rw [hr]; rfl, by rw [hn]; rfl⟩ hopen.not_both_expire
  | waiting hopen =>
    -- an expiry would have shut it
    constructor
    · nofun
    · rintro ⟨-, rfl⟩
      exact absurd hopen (not_open_expire before)

/-- Of all calls of a new gate, in any order, one at most settles it: it opens the gate, or gives it
up.  The one that opens it does so with the first reply and the first notification, and is the one
that first made both present; the one that gives it up is the first to try, unless both were present
before.  Once it is settled the gate is empty, whatever is called, and nothing more comes of it. -/
theorem settles_once (calls : List (Call ρ ν)) :
    (({} : JoinGate ρ ν).answers calls).countP Answer.settles ≤ 1 ∧
    ∀ before c later, calls = before ++ c :: later →
      let answer := ((({} : JoinGate ρ ν).after before).call c).2
      (∀ r n, answer = .signals (some (r, n)) ↔ .expire ∉ before ∧ ¬ BringBoth before ∧
        BringBoth (before ++ [c]) ∧
        firstReply? calls = some r ∧ firstNotification? calls = some n) ∧
      (answer = .expiry true ↔ .expire ∉ before ∧ ¬ BringBoth before ∧ c = .expire) ∧
      (answer.settles = true →
        (∀ more, more <+: later →
          ({} : JoinGate ρ ν).after (before ++ c :: more) = { consumed := true }) ∧
        ∀ late ∈ (({} : JoinGate ρ ν).after (before ++ [c])).answers later,
        late.settles = false) := by
  refine ⟨(countP_settles calls).1, ?_⟩
  rintro before c later rfl
  have htold : (({} : JoinGate ρ ν).after before).Told before := told_after before
  rw [List.append_cons before c later]
  refine ⟨fun r n => ?_, ?_, fun hsettles => ?_⟩
  · rw [htold.opens_iff c r n]
    constructor
    · rintro ⟨hopen, hr, hn⟩
      -- first signals stay first, so later calls do not change what the gate is opened with
      have hboth : BringBoth (before ++ [c]) := ⟨by rw [hr]; rfl, by rw [hn]; rfl⟩
      obtain ⟨hr', hn'⟩ := hboth.append later
      exact ⟨hopen.1, hopen.2, hboth, hr'.trans hr, hn'.trans hn⟩
    · rintro ⟨hexpire, hnot, hboth, hr, hn⟩
      obtain ⟨hr', hn'⟩ := hboth.append later
      exact ⟨⟨hexpire, hnot⟩, hr'.symm.trans hr, hn'.symm.trans hn⟩
  · rw [htold.givesUp_iff c, Open, and_assoc]
  · have hshut : ({} : JoinGate ρ ν).after (before ++ [c]) = { consumed := true } :=
      (told_after (before ++ [c])).shut ((htold.settles_iff c).mp hsettles).2
    refine ⟨fun more _ => ?_, ?_⟩
    · rw [List.append_cons before c more, after_append, hshut]
      exact (shut_stays more).1
    · rw [hshut]
      exact (shut_stays later).2

/-- A second reply does not count, and a gate that has opened cannot be given up. -/
theorem settles_once_repeated :
    let calls : List (Call Nat Char) := [.reply 1, .reply 2, .notification 'a', .expire]
    ((({} : JoinGate Nat Char).after [.reply 1, .reply 2]).call (.notification 'a')).2 =
      .signals (some (1, 'a')) ∧
    ({} : JoinGate Nat Char).after calls = { consumed := true } ∧
    (({} : JoinGate Nat Char).answers calls).countP Answer.settles ≤ 1 := by
  obtain ⟨hone, hcalls⟩ :=
    settles_once ([.reply 1, .reply 2, .notification 'a', .expire] : List (Call Nat Char))
  obtain ⟨hopens, -, hsettles⟩ := hcalls [.reply 1, .reply 2] (.notification 'a') [.expire] rfl
  have hanswer := (hopens 1 'a').mpr ⟨by decide, nofun, ⟨rfl, rfl⟩, rfl, rfl⟩
  exact ⟨hanswer, (hsettles (by rw [hanswer]; rfl)).1 [.expire] (List.prefix_refl _), hone⟩

end Cellular.JoinGate
