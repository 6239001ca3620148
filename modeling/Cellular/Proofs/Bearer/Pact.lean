import Cellular.Proofs.Bearer.History
import Cellular.Proofs.Bearer.Settled
/-!
# What a vendor keeps up

What is true of a vendor's state may depend on what has happened to the bearer, and on whether a
vendor call is under way.  A `Backend.Pact` says what is to be true in either case.  The vendor
honours it if each poll of a call keeps it up, from the poll with which the call begins to the one
with which it ends (`Pact.Honoured`).

The bearer does its part: it begins a call only when none is under way, and goes on with the one
that is.  It does so whatever action acts, which is proved for every step of connecting and
disconnecting (`Bearer.Observes`).  So the pact is kept up in every interleaving
(`Pact.Honoured.run`).

A pact is a pair of predicates, one for the vendor's state while no call is under way and one for
the state together with a call.  What has happened to the bearer is a parameter of both, so a pact
can relate the two, for example what was sent to what was asked for.  The bearer's part is proved
once for all pacts: the lemmas named `observes` go through connecting and disconnecting step by
step, and each hands the pact on from the point where the vendor has it to the next.

Waits are kept track of by all parties together.  The call that is under way is the one wait that
waits for the vendor, wherever in the list of waits that is (`Shared`), so parties can take turns in
any order.
-/

namespace Cellular

theorem eq_of_toList_eq {α : Type} {o o' : Option α} (h : o.toList = o'.toList) : o = o' :=
  Option.ext fun a => by rw [← Option.mem_toList, ← Option.mem_toList, h]

/-! ## Pacts

A pact says what is true of the vendor's state while no call is under way, and while one is, given
what has happened to the bearer so far.  The vendor honours it if its calls keep it up, from their
beginning to their end, and if what changes on its own does not break it. -/

/-- The vendor call that is waited for and what it is for, if one is. -/
def ActionWait.call? {ν : Type} : ActionWait ν → Option (Errand × ν)
  | .vendor errand call => some (errand, call)
  | _ => none

/-- What is to be true of a vendor's state, given what has happened to the bearer. -/
structure Backend.Pact {σ : Type} (be : Backend σ) where
  /-- While no call is under way. -/
  idle : List BearerEvent → σ → Prop
  /-- While a call is under way. -/
  busy : Errand → be.Call → List BearerEvent → σ → Prop

variable {σ : Type} {be : Backend σ} {P : be.Pact} {errand : Errand}

namespace Backend.Pact

/-- What is to be true, given the call that is under way. -/
def Stands (P : be.Pact) : Option (Errand × be.Call) → List BearerEvent → σ → Prop
  | none => P.idle
  | some (errand, call) => P.busy errand call

/-- A poll of a call keeps the pact up. -/
def KeptUp (P : be.Pact) (errand : Errand) (history : List BearerEvent) :
    σ × Poll be.Call (Except Error Unit) → Prop
  | (vendor, .pending call) => P.busy errand call history vendor
  | (vendor, .ready result) => P.idle (history ++ [.ended errand result]) vendor

/-- The vendor keeps the pact up, also when its state changes on its own. -/
structure Honoured (P : be.Pact) (drifts : σ → σ → Prop) : Prop where
  aside : ∀ {call? history vendor e}, e.IsAside → P.Stands call? history vendor →
    P.Stands call? (history ++ [e]) vendor
  drift : ∀ {call? history vendor vendor'}, drifts vendor vendor' → P.Stands call? history vendor →
    P.Stands call? history vendor'
  connect : ∀ {history vendor} cancelled, P.idle history vendor →
    P.KeptUp .connect (history ++ [.began .connect]) (be.poll cancelled (be.connect vendor) vendor)
  disconnect : ∀ {errand history vendor} cancelled, errand ≠ .connect → P.idle history vendor →
    P.KeptUp errand (history ++ [.began errand]) (be.poll cancelled (be.disconnect vendor) vendor)
  poll : ∀ {errand call history vendor} cancelled, P.busy errand call history vendor →
    P.KeptUp errand history (be.poll cancelled call vendor)

end Backend.Pact

/-! ## What the bearer keeps up

The bearer calls the vendor only when no call is under way, since the lock is taken then.  So a
pact that the vendor honours call by call is kept up by the bearer, whatever the action; there is
one lemma for each step of one. -/

namespace Bearer

variable {b : Bearer σ} {call? : Option (Errand × be.Call)} {drifts : σ → σ → Prop}

/-- The pact is kept up on a bearer, whose lock tells whether a call is under way. -/
structure Upholds (P : be.Pact) (call? : Option (Errand × be.Call)) (b : Bearer σ) : Prop where
  stands : P.Stands call? b.history b.vendor
  locked : b.locked = call?.isSome

/-- What an action leads to keeps the pact up.  Beside the call that it waits for, that of another
party goes on. -/
def Observes (P : be.Pact) (others : Option (Errand × be.Call)) (r : Progress be) : Prop :=
  ∃ call?, r.1.Upholds P call? ∧
    call?.toList = (r.2.next?.bind ActionWait.call?).toList ++ others.toList

theorem Upholds.note (hP : P.Honoured drifts) {e : BearerEvent} (he : e.IsAside)
    (h : b.Upholds P call?) :
    (b.note e).Upholds P call? := ⟨hP.aside he h.stands, h.locked⟩

theorem Upholds.setStatus (hP : P.Honoured drifts) (status : BearerStatus) (h : b.Upholds P call?) :
    (b.setStatus status).Upholds P call? := ⟨hP.aside trivial h.stands, h.locked⟩

/-- An action that is over, or waits for something else than the vendor. -/
theorem Upholds.observes {r : Progress be} (h : r.1.Upholds P call?)
    (hnone : r.2.next?.bind ActionWait.call? = none) :
    Observes P call? r := ⟨call?, h, by simp [hnone]⟩

/-! ## Vendor calls, from their first poll to their end

A vendor call that is over leaves the vendor idle, and the bearer goes on from there: it is done, or
it begins to undo a connect.  A vendor call that is not over is what the action waits for. -/

/-- The end of an action keeps the pact up. -/
theorem finish_observes (hP : P.Honoured drifts) (h : P.idle b.history b.vendor)
    (status : BearerStatus) (result : Except Error Unit) :
    Observes P none (b.finish be status result) := by
  have hidle : P.Stands none b.history b.vendor := h
  exact ⟨none, ⟨hP.aside trivial hidle, rfl⟩, rfl⟩

/-- So does what follows the vendor's disconnect. -/
theorem afterDisconnect_observes (hP : P.Honoured drifts) (h : P.idle b.history b.vendor)
    (errand : Errand) (result : Except Error Unit) :
    Observes P none (b.afterDisconnect be errand result) := by
  unfold afterDisconnect
  split <;> exact finish_observes hP h _ _

/-- So does a poll of it. -/
theorem pollDisconnect_observes (hP : P.Honoured drifts) (hl : b.locked = true) {call : be.Call}
    (h : P.KeptUp errand b.history (be.poll b.cancelled call b.vendor)) :
    Observes P none (b.pollDisconnect be errand call) := by
  unfold pollDisconnect
  split
  · rename_i vendor call' hpoll
    rw [hpoll] at h
    exact ⟨some (errand, call'), ⟨h, hl⟩, rfl⟩
  · rename_i vendor result hpoll
    rw [hpoll] at h
    have hended : P.idle (b.history ++ [.ended errand result]) vendor := h
    exact afterDisconnect_observes (b := { b with vendor }.note (.ended errand result)) hP
      hended errand result

/-- So does undoing a connect. -/
theorem undo_observes (hP : P.Honoured drifts) (hl : b.locked = true)
    (h : P.idle b.history b.vendor) :
    Observes P none (b.undo be) := by
  have hidle : P.Stands none b.history b.vendor := h
  have hstatus : P.Stands none (b.setStatus .disconnecting).history b.vendor :=
    hP.aside trivial hidle
  have hundo : Errand.undo ≠ .connect := by simp
  have hbegan := hP.disconnect b.cancelled hundo hstatus
  exact pollDisconnect_observes (b := (b.setStatus .disconnecting).note (.began .undo)) hP hl hbegan

/-- So does what follows the vendor's connect. -/
theorem afterConnect_observes (hP : P.Honoured drifts) (hl : b.locked = true)
    (h : P.idle b.history b.vendor) (result : Except Error Unit) :
    Observes P none (b.afterConnect be result) := by
  unfold afterConnect
  split
  · exact undo_observes hP hl h
  · exact finish_observes hP h _ _
  · split
    · exact undo_observes hP hl h
    · exact finish_observes hP h _ _

/-- So does a poll of any vendor call. -/
theorem pollVendor_observes (hP : P.Honoured drifts) (hl : b.locked = true) {call : be.Call}
    (h : P.KeptUp errand b.history (be.poll b.cancelled call b.vendor)) :
    Observes P none (b.pollVendor be errand call) := by
  unfold pollVendor
  split
  · unfold pollConnect
    split
    · rename_i vendor call' hpoll
      rw [hpoll] at h
      exact ⟨some (.connect, call'), ⟨h, hl⟩, rfl⟩
    · rename_i vendor result hpoll
      rw [hpoll] at h
      -- the call has ended, so the vendor is idle again
      have hended : P.idle (b.history ++ [.ended .connect result]) vendor := h
      exact afterConnect_observes (b := { b with vendor }.note (.ended .connect result)) hP
        hl hended result
  · exact pollDisconnect_observes hP hl h

/-! ## Actions

An action begins a vendor call only if it finds the lock free, and then no call is under way;
otherwise it waits, or does nothing to the vendor. -/

/-- Beginning a vendor call keeps the pact up. -/
theorem launch_observes (hP : P.Honoured drifts) (h : b.Upholds P call?) (errand : Errand) :
    Observes P call? (b.launch be errand) := by
  unfold launch
  split
  · exact h.observes rfl
  · rename_i hl
    cases call? with
    -- a call in flight holds the lock
    | some flight => exact absurd h.locked hl
    | none =>
      refine pollVendor_observes (b := { b with locked := true }.note (.began errand)) hP rfl ?_
      by_cases hc : errand = .connect
      · subst hc
        exact hP.connect b.cancelled h.stands
      · simp only [hc, if_false]
        exact hP.disconnect b.cancelled hc h.stands

/-- So does waiting for the end of a connect. -/
theorem awaitEnd_observes (h : b.Upholds P call?) : Observes P call? (b.awaitEnd be) := by
  unfold awaitEnd
  split
  · exact h.observes rfl
  · exact h.observes rfl

/-- So does a connect. -/
theorem connect_observes (hP : P.Honoured drifts) (h : b.Upholds P call?) :
    Observes P call? (b.connect be) := by
  unfold connect
  split
  · exact h.observes rfl
  · exact h.observes rfl
  · split
    · exact h.observes rfl
    · split
      · exact h.observes rfl
      · have hclear : { b with cancelled := false }.Upholds P call? := ⟨h.stands, h.locked⟩
        exact launch_observes hP (hclear.setStatus hP .connecting) .connect

/-- So does a disconnect. -/
theorem disconnect_observes (hP : P.Honoured drifts) (h : b.Upholds P call?) :
    Observes P call? (b.disconnect be) := by
  have hasked : (b.note (.asked false)).Upholds P call? := h.note hP trivial
  unfold disconnect
  dsimp only
  split
  · exact hasked.observes rfl
  · exact hasked.observes rfl
  · have htold := hasked.setStatus hP .disconnecting
    exact awaitEnd_observes ⟨htold.stands, htold.locked⟩
  · exact launch_observes hP (hasked.setStatus hP .disconnecting) .disconnect

/-- So does a forced disconnect. -/
theorem force_observes (hP : P.Honoured drifts) (h : b.Upholds P call?) :
    Observes P call? (b.force be) := by
  have hasked : (b.note (.asked true)).Upholds P call? := h.note hP trivial
  unfold force
  dsimp only
  split
  · exact hasked.observes rfl
  · exact hasked.observes rfl
  · exact Upholds.observes ⟨hasked.stands, hasked.locked⟩ rfl
  · exact launch_observes hP (hasked.setStatus hP .disconnecting) .force

/-- So does a report. -/
theorem apply_observes (hP : P.Honoured drifts) (h : b.Upholds P call?) (verdict : Verdict) :
    Observes P call? (b.apply be verdict) := by
  unfold apply
  split
  · exact Upholds.observes ⟨h.stands, h.locked⟩ rfl
  · exact force_observes hP ⟨h.stands, h.locked⟩
  · rename_i domain
    split
    · exact h.observes rfl
    · split
      · exact force_observes hP h
      · refine Upholds.observes ?_ rfl
        cases domain with
        | threeGpp => exact ⟨h.stands, h.locked⟩
        | cdma => exact ⟨h.stands, h.locked⟩

/-- Whatever action is started. -/
theorem call_observes (hP : P.Honoured drifts) (h : b.Upholds P call?) (action : Action) :
    Observes P call? (b.call be action) := by
  cases action with
  | connect => exact connect_observes hP h
  | disconnect => exact disconnect_observes hP h
  | force => exact force_observes hP h
  | registered status =>
    exact apply_observes (b := { b with tracker := (b.tracker.update3gpp status).1 }) hP
      ⟨h.stands, h.locked⟩ _
  | registeredCdma cdma1x evdo =>
    exact apply_observes (b := { b with tracker := (b.tracker.updateCdma cdma1x evdo).1 }) hP
      ⟨h.stands, h.locked⟩ _

/-- Whatever an action waits for, when the vendor calls of the others are known. -/
theorem resume_observes (hP : P.Honoured drifts) (h : b.Upholds P call?) (wait : ActionWait be.Call)
    {others : Option (Errand × be.Call)}
    (hothers : call?.toList = wait.call?.toList ++ others.toList) :
    Observes P others (b.resume be wait) := by
  cases wait with
  | lock errand =>
    obtain rfl : call? = others := eq_of_toList_eq hothers
    exact launch_observes hP h errand
  | ending =>
    obtain rfl : call? = others := eq_of_toList_eq hothers
    exact awaitEnd_observes h
  | vendor errand call =>
    obtain ⟨rfl, rfl⟩ : call? = some (errand, call) ∧ others = none := by
      cases call? <;> cases others <;> simp_all [ActionWait.call?]
    exact pollVendor_observes hP h.locked (hP.poll b.cancelled h.stands)

end Bearer

/-- Whatever the party that carries pending disconnects out does at a poll. -/
theorem Executor.poll_observes {drifts : σ → σ → Prop} (hP : P.Honoured drifts) {b : Bearer σ}
    {call? others : Option (Errand × be.Call)} (h : b.Upholds P call?) (executor : Executor be.Call)
    (hothers : call?.toList = (executor.wait?.bind ActionWait.call?).toList ++ others.toList) :
    ∃ r : Bearer.Progress be, Bearer.Observes P others r ∧ (executor.poll be b).1 = r.1 ∧
      (executor.poll be b).2.wait? = r.2.next? := by
  cases executor with
  | forcing wait =>
    exact ⟨b.resume be wait, Bearer.resume_observes hP h wait hothers, bearer_afterForce _,
      wait?_afterForce _⟩
  | watching threeGpp cdma =>
    obtain rfl : call? = others := eq_of_toList_eq hothers
    -- both deferrals lapse in the same way: a note, and a forced disconnect
    have hexpired : ∀ (b' : Bearer σ) (domain : Domain), b'.Upholds P call? →
        Bearer.Observes P call? ((b'.note (.expired domain)).force be) :=
      fun b' domain h' => Bearer.force_observes hP (h'.note hP trivial)
    simp only [poll]
    split
    · rename_i deferral _
      refine ⟨_, hexpired { b with threeGpp := deferral } .threeGpp ?_, bearer_afterForce _,
        wait?_afterForce _⟩
      exact ⟨h.stands, h.locked⟩
    · -- the second deferral is only looked at when the first has not lapsed
      rename_i deferral _ _
      split
      · rename_i deferral' _
        refine ⟨_, hexpired { b with threeGpp := deferral, cdma := deferral' } .cdma ?_,
          bearer_afterForce _, wait?_afterForce _⟩
        exact ⟨h.stands, h.locked⟩
      · rename_i deferral' _ _
        refine ⟨({ b with threeGpp := deferral, cdma := deferral' }, .ready (.ok ())), ?_, rfl, rfl⟩
        exact Bearer.Upholds.observes ⟨h.stands, h.locked⟩ rfl

/-! ## Parties that take turns

The vendor call that is under way is waited for by one of the parties, and the lemmas speak of all
their waits at once, in any order.  So they may be used for the parties of an interplay, and for
others beside them. -/

namespace Bearer

/-- The pact is kept up on a bearer, and the vendor call that is under way is the one that is waited
for. -/
def Shared (P : be.Pact) (waits : List (ActionWait be.Call)) (b : Bearer σ) : Prop :=
  ∃ call?, b.Upholds P call? ∧ (waits.filterMap ActionWait.call?).Perm call?.toList

open Interplay (filterMap_toList eq_of_toList_perm)

variable {b b' : Bearer σ} {drifts : σ → σ → Prop} {waits waits' rest : List (ActionWait be.Call)}

/-- The order of the waits does not matter. -/
theorem Shared.perm (h : b.Shared P waits) (hperm : waits.Perm waits') : b.Shared P waits' := by
  obtain ⟨call?, hb, hcall⟩ := h
  exact ⟨call?, hb, (hperm.filterMap _).symm.trans hcall⟩

/-- One party takes its turn: its wait changes, and those of all others stay. -/
theorem Shared.turn (before after : Option (ActionWait be.Call))
    (h : b.Shared P (before.toList ++ rest)) (hturn : ∀ call? others, b.Upholds P call? →
      call?.toList = (before.bind ActionWait.call?).toList ++ others.toList →
      ∃ r : Progress be, Observes P others r ∧ b' = r.1 ∧ after = r.2.next?) :
    b'.Shared P (after.toList ++ rest) := by
  obtain ⟨call?, hbearer, hperm⟩ := h
  rw [List.filterMap_append, filterMap_toList] at hperm
  have hall := eq_of_toList_perm hperm
  -- at most one vendor call is left for the others
  obtain ⟨others, hothers⟩ : ∃ others : Option (Errand × be.Call), rest.filterMap ActionWait.call? =
      others.toList := by
    have hlength : (rest.filterMap ActionWait.call?).length ≤ 1 := by
      have htotal := congrArg List.length hall
      rw [List.length_append] at htotal
      have hone : call?.toList.length ≤ 1 := by cases call? <;> simp
      omega
    rcases hlist : rest.filterMap ActionWait.call? with _ | ⟨call, _ | _⟩
    · exact ⟨none, rfl⟩
    · exact ⟨some call, rfl⟩
    · simp [hlist] at hlength
  obtain ⟨r, ⟨call?', hr, hlist⟩, rfl, rfl⟩ := hturn call? others hbearer (by rw [← hothers, hall])
  refine ⟨call?', hr, ?_⟩
  rw [hlist, ← hothers, ← filterMap_toList, ← List.filterMap_append]

/-- Somebody acts on the bearer. -/
theorem Shared.call (hP : P.Honoured drifts) (h : b.Shared P waits) (action : Action) :
    (b.call be action).1.Shared P ((b.call be action).2.next?.toList ++ waits) := by
  refine Shared.turn none _ h fun call? others hb hothers => ?_
  obtain rfl := eq_of_toList_eq hothers
  exact ⟨b.call be action, call_observes hP hb action, rfl, rfl⟩

/-- Somebody who waits is polled. -/
theorem Shared.resume (hP : P.Honoured drifts) {wait : ActionWait be.Call}
    (h : b.Shared P (wait :: rest)) :
    (b.resume be wait).1.Shared P ((b.resume be wait).2.next?.toList ++ rest) :=
  Shared.turn (some wait) _ h fun _ _ hb hothers =>
    ⟨b.resume be wait, resume_observes hP hb wait hothers, rfl, rfl⟩

end Bearer

/-! ## Interplays -/

namespace Interplay

/-- The vendor's state only changes as told when it changes on its own. -/
def Drifting (drifts : σ → σ → Prop) (s : Interplay be) : List (Move σ) → Prop
  | [] => True
  | m :: moves =>
    (∀ vendor, m = .drift vendor → drifts s.bearer.vendor vendor) ∧ (s.step m).Drifting drifts moves

/-- The pact is kept up, and the vendor call that is under way is the one that is waited for. -/
def Upholds (P : be.Pact) (s : Interplay be) : Prop := s.bearer.Shared P s.waits

variable {s s' : Interplay be} {drifts : σ → σ → Prop}

/-- Every move keeps the pact up, also where others beside those of the interplay wait for the
bearer. -/
theorem shared_step (hP : P.Honoured drifts) {others : List (ActionWait be.Call)}
    (h : s.bearer.Shared P (s.waits ++ others)) (m : Move σ)
    (hdrift : ∀ vendor, m = .drift vendor → drifts s.bearer.vendor vendor) :
    (s.step m).bearer.Shared P ((s.step m).waits ++ others) := by
  cases m with
  | call action =>
    refine (h.call hP action).perm ?_
    rw [← List.append_assoc]
    exact (waits_call s action).symm.append_right others
  | poll i =>
    by_cases hwaiting : ∃ action wait, s.calls[i]? = some (action, .waiting wait)
    · obtain ⟨action, wait, hi⟩ := hwaiting
      obtain ⟨rest, hwaits, hwaits', -⟩ := waits_poll hi
      have hwait : s.bearer.Shared P (wait :: (rest ++ others)) :=
        h.perm (hwaits.append_right others)
      have hbearer : (s.step (.poll i)).bearer = (s.bearer.resume be wait).1 := by rw [step_poll hi]
      rw [hbearer]
      refine (hwait.resume hP).perm ?_
      rw [← List.append_assoc]
      exact hwaits'.symm.append_right others
    · rwa [step_poll_of_not_waiting hwaiting]
  | watch =>
    -- the wait of the party stands behind those of the calls; here it is the one that turns
    have hregroup : ∀ executor : Executor be.Call,
      (executor.wait?.toList ++ (s.calls.filterMap (·.2.wait?) ++ others)).Perm
        ((s.calls.filterMap (·.2.wait?) ++ executor.wait?.toList) ++ others) := fun executor => by
      rw [List.append_assoc]
      exact List.perm_append_comm_assoc _ _ _
    refine Bearer.Shared.perm
      (Bearer.Shared.turn s.executor.wait? (s.executor.poll be s.bearer).2.wait?
      (h.perm (hregroup s.executor).symm) fun call? others hb hothers => ?_) (hregroup _)
    obtain ⟨r, hr, hbearer, hwait⟩ := Executor.poll_observes hP hb s.executor hothers
    exact ⟨r, hr, hbearer, hwait⟩
  | drift vendor =>
    obtain ⟨call?, hb, hperm⟩ := h
    exact ⟨call?, ⟨hP.drift (hdrift vendor rfl) hb.stands, hb.locked⟩, hperm⟩

/-- **Every move keeps the pact up.** -/
theorem Upholds.step (hP : P.Honoured drifts) (h : s.Upholds P) (m : Move σ)
    (hdrift : ∀ vendor, m = .drift vendor → drifts s.bearer.vendor vendor) :
    (s.step m).Upholds P := by
  have hnobody : s.bearer.Shared P (s.waits ++ []) := h.perm (.of_eq (List.append_nil _).symm)
  exact (shared_step hP hnobody m hdrift).perm (.of_eq (List.append_nil _))

/-- Every list of moves keeps the pact up. -/
theorem Upholds.run (hP : P.Honoured drifts) (h : s.Upholds P) {moves : List (Move σ)}
    (hmoves : s.Drifting drifts moves) : (s.run moves).Upholds P := by
  induction moves generalizing s with
  | nil => exact h
  | cons m moves ih => exact ih (h.step hP m hmoves.1) hmoves.2

end Interplay

/-- **A pact that a vendor honours is kept up in every interleaving.** -/
theorem Backend.Pact.Honoured.run {drifts : σ → σ → Prop} (hP : P.Honoured drifts)
    (allowRoaming mixed : Bool) (grace : Nat) {vendor : σ} (hstart : P.idle [] vendor)
    {moves : List (Move σ)}
    (hmoves : (Interplay.start be allowRoaming mixed grace vendor).Drifting drifts moves) :
    ((Interplay.start be allowRoaming mixed grace vendor).run moves).Upholds P := by
  have hbearer : (Bearer.start allowRoaming mixed grace vendor).Upholds P none := ⟨hstart, rfl⟩
  exact Interplay.Upholds.run hP ⟨none, hbearer, .refl _⟩ hmoves

end Cellular
