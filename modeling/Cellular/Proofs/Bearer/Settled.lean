import Cellular.Proofs.Bearer.Interplay
import Cellular.Proofs.Bearer.Stretch
import Mathlib.Data.List.Perm.Basic
/-!
# What every interleaving keeps

Between two waits the bearer of an `Interplay` is in a phase, and the vendor calls that its actions
wait for are those of the phase, so there is at most one; and nobody waits for the lock.  An
interplay like that is `Settled`.  Every move keeps it settled and makes its history longer by the
events of a stretch (`Settled.step`), and hence every list of moves does (`settled_run`).

The proof goes from single parties to all of them.  What one action or the other party does in a
move is a stretch, by what is known of each (`Moves`).  A stretch accounts for the vendor call of
its own party; those of the others are the rest of the list of waits.  Since the phase has one
vendor call at most, and all waits together are those of the phase, it follows that the invariant
holds after the move (`Moves.settled`).
-/

namespace Cellular

/-! ## Where parties stand

The stretches of the actions know nothing of the list of calls.  Here their outcomes are put into
the terms in which an interplay keeps its parties: what a wait stands for, and that it is never
the lock. -/

/-- Whatever the party that carries pending disconnects out does at a poll is a stretch, given that
of its wait if it is at one. -/
theorem Executor.poll_takes {σ : Type} (be : Backend σ) {b : Bearer σ} {p : Phase}
    (hp : b.InPhase p) (executor : Executor be.Call)
    (hw : ∀ wait, executor.wait? = some wait → b.Takes p wait.errand? (b.resume be wait)) :
    ∃ r : Bearer.Progress be, b.Takes p (executor.wait?.bind ActionWait.errand?) r ∧
      (executor.poll be b).1 = r.1 ∧ (executor.poll be b).2.wait? = r.2.next? := by
  cases executor with
  | forcing wait =>
    exact ⟨b.resume be wait, hw wait rfl, bearer_afterForce _, wait?_afterForce _⟩
  | watching threeGpp cdma =>
    -- an expiry is one more beat before those of the forced disconnect
    have hexp : ∀ (b' : Bearer σ) (domain : Domain), b'.InPhase p → b'.history = b.history →
        b.Takes p none ((b'.note (.expired domain)).force be) := by
      intro b' domain hp' hh
      have hb : Beat p none [.expired domain] p (.pending none) := .expired
      exact .more hb (by simp [hh]) (Bearer.force_takes ⟨hp'.status, hp'.locked, hp'.cancelled⟩)
    simp only [poll]
    split
    · rename_i deferral _
      refine ⟨_, hexp { b with threeGpp := deferral } .threeGpp ?_ rfl, bearer_afterForce _,
        wait?_afterForce _⟩
      exact ⟨hp.status, hp.locked, hp.cancelled⟩
    · rename_i deferral _ _
      split
      · rename_i deferral' _
        refine ⟨_, hexp { b with threeGpp := deferral, cdma := deferral' } .cdma ?_ rfl,
          bearer_afterForce _, wait?_afterForce _⟩
        exact ⟨hp.status, hp.locked, hp.cancelled⟩
      · rename_i deferral' _ _
        refine ⟨({ b with threeGpp := deferral, cdma := deferral' }, .ready (.ok ())), ?_, rfl, rfl⟩
        exact .last (.rest (by simp)) (by simp) ⟨hp.status, hp.locked, hp.cancelled⟩ rfl

/-- What stands for a vendor call in a wait is what its outcome tells. -/
theorem Poll.errand_of_stand {ν : Type} {r : Poll (ActionWait ν) (Except Error Unit)}
    {out : Poll (Option Errand) (Except Error Unit)} (h : r.stand? = some out) :
    r.next?.bind ActionWait.errand? = out.next?.join := by
  rcases r with (_ | _ | _) | _ <;>
    simp only [Poll.stand?, Option.some.injEq, reduceCtorEq] at h <;>
    subst h <;> rfl

/-- What stands for a vendor call is no wait for the lock. -/
theorem Poll.not_lock_of_stand {ν : Type} {r : Poll (ActionWait ν) (Except Error Unit)}
    {out : Poll (Option Errand) (Except Error Unit)} (h : r.stand? = some out) (errand : Errand) :
    r.next? ≠ some (.lock errand) := by
  rintro hr
  rcases r with w | _
  · obtain rfl : w = .lock errand := by simpa [Poll.next?] using hr
    simp [Poll.stand?] at h
  · simp [Poll.next?] at hr

/-- An action that is not over after a poll stands at the wait of that poll. -/
@[simp] theorem CallState.wait?_ofPoll {ν : Type} (r : Poll (ActionWait ν) (Except Error Unit)) :
    (CallState.ofPoll r).wait? = r.next? := by
  cases r <;> rfl

/-- Every wait but the one for the lock stands for something. -/
theorem ActionWait.stand_of_not_lock {ν : Type} {w : ActionWait ν}
    (h : ∀ errand, w ≠ .lock errand) :
    (Poll.pending w).stand? = some (.pending w.errand?) := by
  rcases w with errand | _ | _
  · exact absurd rfl (h errand)
  · rfl
  · rfl

namespace Interplay

variable {σ : Type} {be : Backend σ}

/-! ## Waits, as parties act

The waits of all parties are a list.  When a party moves, its own wait is replaced, and the list of
the others is the same up to its order. -/

theorem mem_waits_of_call {calls : List (Action × CallState be.Call)} {i : Nat} {action : Action}
    {wait : ActionWait be.Call} (h : calls[i]? = some (action, .waiting wait)) :
    wait ∈ calls.filterMap (·.2.wait?) :=
  List.mem_filterMap.mpr ⟨_, List.mem_of_getElem? h, rfl⟩

/-- An action is called: its wait is new. -/
theorem waits_call (s : Interplay be) (action : Action) :
    (s.step (.call action)).waits.Perm ((s.bearer.call be action).2.next?.toList ++ s.waits) := by
  have hnew : [(action, CallState.ofPoll (s.bearer.call be action).2)].filterMap (·.2.wait?)
      = (s.bearer.call be action).2.next?.toList := by
    cases (s.bearer.call be action).2 <;> rfl
  simp only [step, Interplay.waits, List.filterMap_append, hnew, List.append_assoc]
  exact List.perm_append_comm_assoc _ _ _

/-- A poll of an action that waits resumes it. -/
theorem step_poll {s : Interplay be} {i : Nat} {action : Action} {wait : ActionWait be.Call}
    (hi : s.calls[i]? = some (action, .waiting wait)) :
    s.step (.poll i) = { s with
      bearer := (s.bearer.resume be wait).1
      calls := s.calls.set i (action, .ofPoll (s.bearer.resume be wait).2) } := by
  simp only [step, hi]

/-- An action that waits is polled: its wait changes, and all others stay. -/
theorem waits_poll {s : Interplay be} {i : Nat} {action : Action} {wait : ActionWait be.Call}
    (hi : s.calls[i]? = some (action, .waiting wait)) :
    ∃ rest, s.waits.Perm (wait :: rest) ∧
      (s.step (.poll i)).waits.Perm ((s.bearer.resume be wait).2.next?.toList ++ rest) ∧
      ∀ j action' wait', j ≠ i → s.calls[j]? = some (action', .waiting wait') → wait' ∈ rest := by
  obtain ⟨hlt, hget⟩ := List.getElem?_eq_some_iff.mp hi
  refine ⟨(s.calls.eraseIdx i).filterMap (·.2.wait?) ++ s.executor.wait?.toList, ?_, ?_, ?_⟩
  · have hperm := (List.getElem_cons_eraseIdx_perm hlt).symm.filterMap (·.2.wait?)
    rw [hget] at hperm
    exact hperm.append_right _
  · rw [step_poll hi]
    have hperm := (List.set_perm_cons_eraseIdx hlt
      (action, .ofPoll (s.bearer.resume be wait).2)).filterMap (·.2.wait?)
    refine (hperm.append_right _).trans ?_
    rw [List.filterMap_cons]
    simp only [CallState.wait?_ofPoll]
    cases (s.bearer.resume be wait).2 <;> rfl
  · intro j action' wait' hj h
    refine List.mem_append_left _ (List.mem_filterMap.mpr ⟨(action', .waiting wait'), ?_, rfl⟩)
    exact List.mem_eraseIdx_iff_getElem?.mpr ⟨j, hj, h⟩

/-! ## Settled interplays

There are four kinds of moves, and each is a stretch of one party or nothing at all. -/

/-- The bearer is in a phase, the vendor calls waited for are those of the phase, and nobody waits
for the lock. -/
structure Settled (s : Interplay be) (p : Phase) : Prop where
  inPhase : s.bearer.InPhase p
  flights : s.flights.Perm p.errand?.toList
  unlocked : ∀ errand, .lock errand ∉ s.waits

/-- What a move does: one party, which is at no wait or at one of those that are going on, takes a
stretch, and the waits of all others stay. -/
structure Moves (s : Interplay be) (m : Move σ) (s' : Interplay be) (p : Phase)
    (es : List BearerEvent) (q : Phase) (before after : Option (ActionWait be.Call))
    (rest : List (ActionWait be.Call)) : Prop where
  turn : ∃ out, Stretch p (before.bind ActionWait.errand?) es q out ∧
    after.bind ActionWait.errand? = out.next?.join
  history : s'.bearer.history = s.bearer.history ++ es
  inPhase : s'.bearer.InPhase q
  waits : s.waits.Perm (before.toList ++ rest)
  waits' : s'.waits.Perm (after.toList ++ rest)
  unlocked : ∀ errand, after ≠ some (.lock errand)
  others : ∀ i action wait, m ≠ .poll i → s.calls[i]? = some (action, .waiting wait) → wait ∈ rest

/-- A wait of a settled interplay is one of its phase. -/
theorem Settled.errand {s : Interplay be} {p : Phase} (hs : s.Settled p) {wait : ActionWait be.Call}
    {errand : Errand} (hw : wait ∈ s.waits) (he : wait.errand? = some errand) :
    p.errand? = some errand := by
  have hf : errand ∈ s.flights := List.mem_filterMap.mpr ⟨wait, hw, he⟩
  exact Option.mem_toList.mp (hs.flights.mem_iff.mp hf)

/-- Polling a wait of a settled interplay. -/
theorem Settled.resume {s : Interplay be} {p : Phase} (hs : s.Settled p) {wait : ActionWait be.Call}
    (hw : wait ∈ s.waits) : s.bearer.Takes p wait.errand? (s.bearer.resume be wait) := by
  refine Bearer.resume_takes hs.inPhase (ActionWait.stand_of_not_lock fun errand he => ?_) ?_
  · exact hs.unlocked errand (he ▸ hw)
  · intro errand he
    rw [he]
    exact hs.errand hw he

/-- A move that leaves the history, the phase and the waits as they are. -/
theorem Moves.quiet {s s' : Interplay be} {m : Move σ} {p : Phase}
    (hh : s'.bearer.history = s.bearer.history) (hp : s'.bearer.InPhase p)
    (hw : s'.waits = s.waits) : s.Moves m s' p [] p none none s.waits where
  turn := ⟨.ready (.ok ()), .last (.rest (by simp)), rfl⟩
  history := by simp [hh]
  inPhase := hp
  waits := .refl _
  waits' := by simp [hw]
  unlocked := by simp
  others := fun _ _ _ _ h => List.mem_append_left _ (mem_waits_of_call h)

/-- An action is called: the stretch is the action's own. -/
theorem Moves.of_call {s : Interplay be} {p : Phase} {action : Action} {es : List BearerEvent}
    {q : Phase} {out : Poll (Option Errand) (Except Error Unit)} (ht : Stretch p none es q out)
    (hh : (s.bearer.call be action).1.history = s.bearer.history ++ es)
    (hq : (s.bearer.call be action).1.InPhase q)
    (hout : (s.bearer.call be action).2.stand? = some out) :
    s.Moves (.call action) (s.step (.call action)) p es q none
      (s.bearer.call be action).2.next? s.waits where
  turn := ⟨out, ht, Poll.errand_of_stand hout⟩
  history := hh
  inPhase := hq
  waits := .refl _
  waits' := waits_call s action
  unlocked := Poll.not_lock_of_stand hout
  others := fun _ _ _ _ h => List.mem_append_left _ (mem_waits_of_call h)

/-- An action that is called takes a stretch. -/
theorem Settled.call {s : Interplay be} {p : Phase} (hs : s.Settled p) (action : Action) :
    ∃ es q before after rest, s.Moves (.call action)
      (s.step (.call action)) p es q before after rest := by
  obtain ⟨es, q, out, ht, hh, hq, hout⟩ := Bearer.call_takes be hs.inPhase action
  exact ⟨es, q, none, (s.bearer.call be action).2.next?, s.waits, Moves.of_call ht hh hq hout⟩

/-- A poll of an action that waits: the stretch is the action's own, and tells where it stands
then. -/
theorem Settled.poll_waiting {s : Interplay be} {p : Phase} (hs : s.Settled p) {i : Nat}
    {action : Action} {wait : ActionWait be.Call}
    (hi : s.calls[i]? = some (action, .waiting wait)) :
    ∃ es q out poll rest, Stretch p wait.errand? es q out ∧ poll.stand? = some out ∧
      (s.step (.poll i)).calls[i]? = some (action, .ofPoll poll) ∧
      s.Moves (.poll i) (s.step (.poll i)) p es q (some wait) poll.next? rest := by
  have hw : wait ∈ s.waits := List.mem_append_left _ (mem_waits_of_call hi)
  obtain ⟨es, q, out, ht, hh, hq, hout⟩ := hs.resume hw
  obtain ⟨rest, hwaits, hwaits', hothers⟩ := waits_poll hi
  refine ⟨es, q, out, (s.bearer.resume be wait).2, rest, ht, hout, ?_, ?_⟩
  · rw [step_poll hi]
    exact List.getElem?_set_self (List.getElem?_eq_some_iff.mp hi).1
  -- the wait of the call is exchanged for its next one, and all others stay
  exact {
    turn := ⟨out, ht, Poll.errand_of_stand hout⟩
    history := by rw [step_poll hi]; exact hh
    inPhase := by rw [step_poll hi]; exact hq
    waits := hwaits
    waits' := hwaits'
    unlocked := Poll.not_lock_of_stand hout
    others := by
      intro j action' wait' hj h
      refine hothers j action' wait' ?_ h
      rintro rfl
      exact hj rfl }

/-- A poll of an action that is over, or was never called, does nothing. -/
theorem step_poll_of_not_waiting {s : Interplay be} {i : Nat}
    (h : ¬ ∃ action wait, s.calls[i]? = some (action, .waiting wait)) : s.step (.poll i) = s := by
  simp only [step]
  split
  · rename_i action wait hi
    exact absurd ⟨action, wait, hi⟩ h
  · rfl

/-- A poll of an action is a stretch, or nothing. -/
theorem Settled.poll {s : Interplay be} {p : Phase} (hs : s.Settled p) (i : Nat) :
    ∃ es q before after rest, s.Moves (.poll i) (s.step (.poll i)) p es q before after rest := by
  by_cases h : ∃ action wait, s.calls[i]? = some (action, .waiting wait)
  · obtain ⟨action, wait, hi⟩ := h
    obtain ⟨es, q, _, poll, rest, _, _, _, hm⟩ := hs.poll_waiting hi
    exact ⟨es, q, some wait, poll.next?, rest, hm⟩
  · rw [step_poll_of_not_waiting h]
    exact ⟨[], p, none, none, s.waits, .quiet rfl hs.inPhase rfl⟩

/-- What stands in another action's place stays there. -/
theorem step_getElem? {s : Interplay be} {m : Move σ} {i : Nat} {c : Action × CallState be.Call}
    (hm : m ≠ .poll i) (hi : s.calls[i]? = some c) : (s.step m).calls[i]? = some c := by
  have hlt : i < s.calls.length := (List.getElem?_eq_some_iff.mp hi).1
  cases m with
  | call action => exact (List.getElem?_append_left hlt).trans hi
  | poll j =>
    have hji : j ≠ i := by
      rintro rfl
      exact hm rfl
    simp only [step]
    split
    · exact (List.getElem?_set_ne hji).trans hi
    · exact hi
  | watch => exact hi
  | drift vendor => exact hi

/-- A poll of the party that carries pending disconnects out is a stretch, or nothing. -/
theorem Settled.watch {s : Interplay be} {p : Phase} (hs : s.Settled p) :
    ∃ es q before after rest, s.Moves .watch (s.step .watch) p es q before after rest := by
  obtain ⟨r, ⟨es, q, out, ht, hh, hq, hout⟩, hb, hw⟩ :=
    Executor.poll_takes be hs.inPhase s.executor fun wait hwait =>
      hs.resume (List.mem_append_right _ (Option.mem_toList.mpr hwait))
  refine ⟨es, q, s.executor.wait?, r.2.next?, s.calls.filterMap (·.2.wait?), ?_⟩
  exact {
    turn := ⟨out, ht, Poll.errand_of_stand hout⟩
    history := by rw [← hh, ← hb]; rfl
    inPhase := by rw [← hb] at hq; exact hq
    waits := List.perm_append_comm
    waits' := by rw [← hw]; exact List.perm_append_comm
    unlocked := Poll.not_lock_of_stand hout
    others := fun _ _ _ _ h => mem_waits_of_call h }

/-- Every move is a stretch of one party. -/
theorem Settled.moves {s : Interplay be} {p : Phase} (hs : s.Settled p) (m : Move σ) :
    ∃ es q before after rest, s.Moves m (s.step m) p es q before after rest := by
  cases m with
  | call action => exact hs.call action
  | poll i => exact hs.poll i
  | watch => exact hs.watch
  | drift vendor =>
    refine ⟨[], p, none, none, s.waits, .quiet rfl ?_ rfl⟩
    exact ⟨hs.inPhase.status, hs.inPhase.locked, hs.inPhase.cancelled⟩

/-- What is made of at most one thing. -/
theorem filterMap_toList {α β : Type} (f : α → Option β) (o : Option α) :
    o.toList.filterMap f = (o.bind f).toList := by
  cases o with
  | none => rfl
  | some a => cases h : f a <;> simp [h]

/-- A rearrangement of at most one thing is that thing. -/
theorem eq_of_toList_perm {α : Type} {o : Option α} {l : List α} (h : l.Perm o.toList) :
    l = o.toList := by
  cases o with
  | none => exact List.perm_nil.mp h
  | some a => exact List.perm_singleton.mp h

/-- The vendor calls of a phase are those of one party and of all others. -/
theorem Moves.errands {s s' : Interplay be} {m : Move σ} {p q : Phase} {es : List BearerEvent}
    {before after : Option (ActionWait be.Call)} {rest : List (ActionWait be.Call)}
    (hs : s.Settled p) (h : s.Moves m s' p es q before after rest) :
    p.errand?.toList
      = (before.bind ActionWait.errand?).toList ++ rest.filterMap ActionWait.errand? := by
  have hperm := (h.waits.filterMap ActionWait.errand?).symm.trans hs.flights
  rw [List.filterMap_append, filterMap_toList] at hperm
  exact (eq_of_toList_perm hperm).symm

/-- **The invariant is kept by every move.** -/
theorem Moves.settled {s s' : Interplay be} {m : Move σ} {p q : Phase} {es : List BearerEvent}
    {before after : Option (ActionWait be.Call)} {rest : List (ActionWait be.Call)}
    (hs : s.Settled p) (h : s.Moves m s' p es q before after rest) : s'.Settled q := by
  obtain ⟨out, ht, hafter⟩ := h.turn
  refine ⟨h.inPhase, ?_, ?_⟩
  · -- the party's own vendor call changes as the stretch says, those of the others stay
    have hq := ht.errand (h.errands hs)
    rw [hq, ← hafter, ← filterMap_toList, ← List.filterMap_append]
    exact h.waits'.filterMap _
  · intro errand hmem
    rcases List.mem_append.mp (h.waits'.mem_iff.mp hmem) with ha | hr
    · exact h.unlocked errand (Option.mem_toList.mp ha)
    · exact hs.unlocked errand (h.waits.mem_iff.mpr (List.mem_append_right _ hr))

theorem settled_start (allowRoaming mixed : Bool) (grace : Nat) (vendor : σ) :
    (start be allowRoaming mixed grace vendor).Settled .down :=
  ⟨⟨rfl, rfl, by simp [Phase.errand?]⟩, .refl _, by simp [start, waits, Executor.wait?]⟩

/-- Any list of moves keeps the interplay settled and makes its history longer by a course. -/
theorem Settled.run {s : Interplay be} {p : Phase} (hs : s.Settled p) (moves : List (Move σ)) :
    ∃ es q, Course p es q ∧ (s.run moves).bearer.history = s.bearer.history ++ es ∧
      (s.run moves).Settled q := by
  refine run_keeps (P := fun t => ∃ es q, Course p es q ∧
    t.bearer.history = s.bearer.history ++ es ∧
    t.Settled q) ?_ ?_ moves
  · rintro t m ⟨es, q, hc, hh, hq⟩
    obtain ⟨es', r, before, after, rest, hm⟩ := hq.moves m
    obtain ⟨out, ht, -⟩ := hm.turn
    refine ⟨es ++ es', r, hc.append ht.course, ?_, hm.settled hq⟩
    rw [hm.history, hh, List.append_assoc]
  · exact ⟨[], p, .nil, (List.append_nil _).symm, hs⟩

/-- **In every interleaving the interplay is settled, and its history is a course.** -/
theorem settled_run (be : Backend σ) (allowRoaming mixed : Bool) (grace : Nat) (vendor : σ)
    (moves : List (Move σ)) :
    ∃ p, ((start be allowRoaming mixed grace vendor).run moves).Settled p ∧
      Course .down ((start be allowRoaming mixed grace vendor).run moves).bearer.history p := by
  obtain ⟨es, p, hc, hh, hp⟩ := (settled_start allowRoaming mixed grace vendor).run moves
  refine ⟨p, hp, ?_⟩
  rw [hh]
  exact hc

end Interplay

end Cellular
