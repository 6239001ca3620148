import Cellular.Bench.Connection
import Cellular.Proofs.Bearer.Interplay
import Cellular.Proofs.Wait.Schedule
import Mathlib.Data.List.Perm.Basic
/-!
# A connection on the bench is an interplay

The parties of a `Connection` act on one bearer at their moments, next to the party that carries
pending disconnects out and the one that listens to unsolicited codes.  Whatever comes of that can
come of moves of an interplay too (`Connection.run_played`), so what holds in every interleaving
holds of every run of the bench, for every vendor and every script.

A party that acts, or listens, is an action of the interplay; the clock, the lines that a modem
emits and the codes that are read are changes of the vendor's state.

The bench polls its parties in a fixed order, round after round, and moves the clock in between; an
interplay has no order at all.  So the direction that is needed is the easy one, that what the bench
does is some list of moves.  Waits are matched up to rearrangement (`Can.perm`), because the bench
keeps them by parties and the interplay by calls.
-/

namespace Cellular

/-! ## Moves that lead there

What parties on a bench do to a bearer is to be the same as some moves of an interplay.  `Can`
says that some moves lead to a bearer and to certain waits; there is one lemma for each thing that
a party may do, and each adds one move. -/

/-- The wait of a party that acts. -/
def Party.wait? {ν : Type} : Party ν → Option (ActionWait ν)
  | .acting wait => some wait
  | _ => none

/-- The wait of the party that listens, while the bearer deals with a code. -/
def Listener.wait? {ν : Type} : Listener ν → Option (ActionWait ν)
  | .applying wait => some wait
  | .listening => none

namespace Interplay

variable {σ : Type} {be : Backend σ}

/-- Some moves lead to a bearer, to where the party that carries pending disconnects out stands, and
to certain waits of actions, in any order. -/
def Can (s : Interplay be) (b : Bearer σ) (executor : Executor be.Call)
    (waits : List (ActionWait be.Call)) : Prop :=
  ∃ moves, (s.run moves).bearer = b ∧ (s.run moves).executor = executor ∧
    ((s.run moves).calls.filterMap (·.2.wait?)).Perm waits

theorem run_concat (s : Interplay be) (moves : List (Move σ)) (m : Move σ) :
    s.run (moves ++ [m]) = (s.run moves).step m := by
  simp [run]

section Can

variable {s : Interplay be} {b : Bearer σ} {executor : Executor be.Call}
  {waits : List (ActionWait be.Call)} (h : s.Can b executor waits)
include h

theorem Can.perm {waits' : List (ActionWait be.Call)} (hw : waits.Perm waits') :
    s.Can b executor waits' := by
  obtain ⟨moves, hb, he, hp⟩ := h
  exact ⟨moves, hb, he, hp.trans hw⟩

/-- The vendor's state may change. -/
theorem Can.drift (vendor : σ) : s.Can { b with vendor } executor waits := by
  obtain ⟨moves, rfl, he, hp⟩ := h
  refine ⟨moves ++ [.drift vendor], ?_, ?_, ?_⟩ <;> rw [run_concat]
  · rfl
  · exact he
  · exact hp

/-- The party that carries pending disconnects out may be polled. -/
theorem Can.watch : s.Can (executor.poll be b).1 (executor.poll be b).2 waits := by
  obtain ⟨moves, rfl, rfl, hp⟩ := h
  refine ⟨moves ++ [.watch], ?_, ?_, ?_⟩ <;> rw [run_concat]
  · rfl
  · rfl
  · exact hp

/-- An action may be called. -/
theorem Can.call (action : Action) :
    s.Can (b.call be action).1 executor ((b.call be action).2.next?.toList ++ waits) := by
  obtain ⟨moves, rfl, he, hp⟩ := h
  refine ⟨moves ++ [.call action], ?_, ?_, ?_⟩ <;> rw [run_concat]
  · rfl
  · exact he
  · have hnew : [(action, CallState.ofPoll ((s.run moves).bearer.call be action).2)].filterMap
      (·.2.wait?)
        = ((s.run moves).bearer.call be action).2.next?.toList := by
      cases ((s.run moves).bearer.call be action).2 <;> rfl
    simp only [step, List.filterMap_append, hnew]
    exact (hp.append_right _).trans List.perm_append_comm

end Can

/-- Any of the actions that wait can be polled. -/
theorem Can.poll {s : Interplay be} {b : Bearer σ} {executor : Executor be.Call}
    {wait : ActionWait be.Call} {waits : List (ActionWait be.Call)}
    (h : s.Can b executor (wait :: waits)) :
    s.Can (b.resume be wait).1 executor ((b.resume be wait).2.next?.toList ++ waits) := by
  obtain ⟨moves, rfl, he, hp⟩ := h
  generalize ht : s.run moves = t at he hp
  have hmem : wait ∈ t.calls.filterMap (·.2.wait?) := hp.mem_iff.mpr List.mem_cons_self
  obtain ⟨⟨action, state⟩, hcall, hstate⟩ := List.mem_filterMap.mp hmem
  obtain ⟨i, hi⟩ := List.getElem?_of_mem hcall
  obtain rfl : state = .waiting wait := by
    cases state <;> simp [CallState.wait?] at hstate
    rw [hstate]
  obtain ⟨hlt, hget⟩ := List.getElem?_eq_some_iff.mp hi
  have hstep : t.step (.poll i) = { t with
      bearer := (t.bearer.resume be wait).1
      calls := t.calls.set i (action, .ofPoll (t.bearer.resume be wait).2) } := by
    simp only [step, hi]
  -- the other actions' waits are what is left of the list without this one
  have hrest : ((t.calls.eraseIdx i).filterMap (·.2.wait?)).Perm waits := by
    have hold := (List.getElem_cons_eraseIdx_perm hlt).filterMap (·.2.wait?)
    rw [hget] at hold
    exact (hold.trans hp).cons_inv
  refine ⟨moves ++ [.poll i], ?_, ?_, ?_⟩ <;> rw [run_concat, ht, hstep]
  · exact he
  · have hnew := (List.set_perm_cons_eraseIdx hlt
      (action, CallState.ofPoll (t.bearer.resume be wait).2)).filterMap (·.2.wait?)
    refine hnew.trans ?_
    cases (t.bearer.resume be wait).2 with
    | pending next => exact hrest.cons next
    | ready result => exact hrest

end Interplay

/-! ## The party that listens

The party reads codes in a loop, and each registration code among them is an action that is called.
The loop ends with the codes, or with an action that has to wait. -/

/-- Reading codes is calls of actions, one for each registration code, until one has to wait. -/
theorem Listener.read_played {σ : Type} {be : Backend σ} {s : Interplay be}
    {executor : Executor be.Call} {waits : List (ActionWait be.Call)} (place : BoardIn σ)
    (ticket : Nat) (n : Nat) {b : Bearer σ} (h : s.Can b executor waits) :
    s.Can (read be place ticket n b).1 executor
      ((read be place ticket n b).2.wait?.toList ++ waits) := by
  induction n generalizing b with
  | zero => exact h
  | succ n ih =>
    simp only [read]
    split
    · exact h
    · rename_i code board _
      -- taking a code off the seat is a change of what the vendor sees, not an action
      have hread := h.drift (place.set board b.vendor)
      split
      · exact ih hread
      · rename_i status _
        have hcall := hread.call (.registered status)
        split
        · rename_i heq
          rw [heq] at hcall
          exact hcall
        · rename_i heq
          rw [heq] at hcall
          exact ih hcall

/-- A poll of the party is a poll of the action that it waits for, and then calls of actions. -/
theorem Listener.poll_played {σ : Type} {be : Backend σ} {s : Interplay be}
    {executor : Executor be.Call} {waits : List (ActionWait be.Call)} (place : BoardIn σ)
    (ticket : Nat) (most : Bearer σ → Nat) {b : Bearer σ} {listener : Listener be.Call}
    (h : s.Can b executor (listener.wait?.toList ++ waits)) :
    s.Can (listener.poll be place ticket most b).1 executor
      ((listener.poll be place ticket most b).2.wait?.toList ++ waits) := by
  cases listener with
  | listening => exact read_played place ticket _ h
  | applying wait =>
    -- the code that was being dealt with first, then those behind it
    have hpoll : s.Can _ executor _ := Interplay.Can.poll h
    simp only [poll]
    split
    · rename_i heq
      rw [heq] at hpoll
      exact hpoll
    · rename_i heq
      rw [heq] at hpoll
      exact read_played place ticket _ hpoll

/-! ## The whole bench

Each thing that the bench does in a round is some moves, or none: a party begins its deed, a party
that waits is polled, a line is emitted, the clock goes on. -/

namespace Connection

variable {ν : Type} {be : Backend (Mounted ν)}

/-- The waits of all parties, and of the one that listens. -/
def waits (c : Connection be) : List (ActionWait be.Call) :=
  (c.listener.bind (·.2.wait?)).toList ++ c.parties.toList.filterMap Party.wait?

/-- A connection that can come of moves of an interplay. -/
def Played (s : Interplay be) (c : Connection be) : Prop :=
  ∃ executor, (∀ e, c.executor = some e → executor = e) ∧ s.Can c.bearer executor c.waits

theorem Played.onBench {s : Interplay be} {c : Connection be} (h : c.Played s) (f : Bench → Bench) :
    (c.onBench f).Played s := by
  obtain ⟨executor, he, hc⟩ := h
  exact ⟨executor, he, hc.drift _⟩

/-- What a party that moves to another place leaves behind. -/
theorem waits_place {c : Connection be} {i : Nat} {old : Party be.Call}
    (hi : c.parties[i]? = some old) (party : Party be.Call) :
    ∃ rest, c.waits.Perm (old.wait?.toList ++ rest) ∧
      (c.place i party).waits.Perm (party.wait?.toList ++ rest) := by
  have hlist : c.parties.toList[i]? = some old := by simpa using hi
  obtain ⟨hlt, hget⟩ := List.getElem?_eq_some_iff.mp hlist
  have hcons : ∀ (p : Party be.Call) (l : List (Party be.Call)),
      (p :: l).filterMap Party.wait? = p.wait?.toList ++ l.filterMap Party.wait? := by
    intro p l
    cases h : p.wait? <;> simp [h]
  -- the rest is every wait but the one at this place; their order does not matter
  refine ⟨(c.listener.bind (·.2.wait?)).toList ++
    (c.parties.toList.eraseIdx i).filterMap Party.wait?, ?_, ?_⟩
  · have hold := (List.getElem_cons_eraseIdx_perm hlt).symm.filterMap Party.wait?
    rw [hget, hcons] at hold
    exact (hold.append_left _).trans (List.perm_append_comm_assoc _ _ _)
  · have hnew := (List.set_perm_cons_eraseIdx hlt party).filterMap Party.wait?
    rw [hcons] at hnew
    have hwaits : (c.place i party).waits =
        (c.listener.bind (·.2.wait?)).toList ++
          (c.parties.toList.set i party).filterMap Party.wait? := by
      simp [waits, place]
    rw [hwaits]
    exact (hnew.append_left _).trans (List.perm_append_comm_assoc _ _ _)

/-- A party that only waits for its moment, before and after. -/
theorem Played.place {s : Interplay be} {c : Connection be} (h : c.Played s) {i : Nat}
    {old : Party be.Call} (hi : c.parties[i]? = some old) (hold : old.wait? = none)
    (party : Party be.Call) (hnew : party.wait? = none) : (c.place i party).Played s := by
  obtain ⟨executor, he, hc⟩ := h
  obtain ⟨rest, hr, hr'⟩ := waits_place hi party
  rw [hold] at hr
  rw [hnew] at hr'
  exact ⟨executor, he, hc.perm (hr.trans hr'.symm)⟩

/-- What a poll of an action led to is taken in. -/
theorem Played.absorb {s : Interplay be} {c : Connection be} {i : Nat} {old : Party be.Call}
    {executor : Executor be.Call} {rest : List (ActionWait be.Call)} {r : Bearer.Progress be}
    (hi : c.parties[i]? = some old) (he : ∀ e, c.executor = some e → executor = e)
    (hw : c.waits.Perm (old.wait?.toList ++ rest))
    (hc : s.Can r.1 executor (r.2.next?.toList ++ rest)) : (c.absorb i r).Played s := by
  obtain ⟨b, poll⟩ := r
  cases poll with
  | pending wait =>
    obtain ⟨rest', hr, hr'⟩ := waits_place (c := { c with bearer := b }) hi (.acting wait)
    have hrest : rest'.Perm rest := (List.perm_append_left_iff _).mp (hr.symm.trans hw)
    exact ⟨executor, he, hc.perm ((hrest.append_left _).symm.trans hr'.symm)⟩
  | ready result =>
    obtain ⟨rest', hr, hr'⟩ := waits_place (c := { c with bearer := b }) hi .done
    have hrest : rest'.Perm rest := (List.perm_append_left_iff _).mp (hr.symm.trans hw)
    exact ⟨executor, he, hc.perm (hrest.symm.trans hr'.symm)⟩

/-- A deed that begins is an action that is called. -/
theorem Played.begin {s : Interplay be} {c : Connection be} (h : c.Played s) {i : Nat}
    {old : Party be.Call} (hi : c.parties[i]? = some old) (hold : old.wait? = none) (deed : Deed) :
    (c.begin i deed).Played s := by
  cases deed with
  | act action =>
    obtain ⟨executor, he, hc⟩ := h
    have hw : c.waits.Perm (old.wait?.toList ++ c.waits) := by rw [hold]; exact .refl _
    exact .absorb hi he hw (hc.call action)
  | line line => exact (h.onBench (·.emit line)).place hi hold .done rfl
  | look => exact h.place hi hold .done rfl

/-- Polling a party is a move, or nothing. -/
theorem Played.pollParty {s : Interplay be} {c : Connection be} (h : c.Played s) (i : Nat) :
    (c.pollParty i).Played s := by
  unfold Connection.pollParty
  split
  · rename_i timer deed hi
    split
    · exact h.place hi rfl _ rfl
    · have henter : (c.enter i).Played s := h
      exact henter.begin hi rfl deed
  · rename_i wait hi
    obtain ⟨executor, he, hc⟩ := h
    obtain ⟨rest, hr, -⟩ := waits_place hi .done
    exact .absorb hi he hr (hc.perm hr).poll
  · exact h

/-- So is polling the one that waits for the end. -/
theorem Played.pollClosing {s : Interplay be} {c : Connection be} (h : c.Played s) :
    c.pollClosing.Played s := by
  unfold Connection.pollClosing
  split <;> exact h

/-- So is polling the one that carries pending disconnects out. -/
theorem Played.pollExecutor {s : Interplay be} {c : Connection be} (h : c.Played s) :
    c.pollExecutor.Played s := by
  unfold Connection.pollExecutor
  split
  · exact h
  · rename_i executor hex
    obtain ⟨executor', he, hc⟩ := h
    obtain rfl := he executor hex
    exact ⟨_, fun e he => Option.some.inj he, hc.watch⟩

/-- So is polling the one that listens, as often as it reads a code. -/
theorem Played.pollListener {s : Interplay be} {c : Connection be} (h : c.Played s) :
    c.pollListener.Played s := by
  unfold Connection.pollListener
  split
  · exact h
  · rename_i ticket listener hl
    obtain ⟨executor, he, hc⟩ := h
    rw [waits, hl] at hc
    exact ⟨executor, he, Listener.poll_played Mounted.board ticket _ hc⟩

/-- At the beginning nothing has been done. -/
theorem played_start (be : Backend (Mounted ν)) (config : Config) (setting : Setting)
    (script : List Turn) (part : ν) :
    (start be config setting script part).Played
      (.start be config.allowRoaming config.mixed config.timing.deferredUnregistration
        (start be config setting script part).bearer.vendor) := by
  -- nobody has called yet, so nobody waits
  have hidle : (start be config setting script part).waits = [] := by
    have hparties : ∀ (deeds : List (Nat × Deed)) (f : Nat × Deed → Party be.Call),
        (∀ deed, (f deed).wait? = none) → (deeds.map f).filterMap Party.wait? = [] := by
      intro deeds f hf
      simp [hf]
    have hlistener : ∀ seat : Option Nat,
        ((seat.map fun ticket => (ticket, (Listener.listening : Listener be.Call))).bind
          (·.2.wait?)) = none := by
      intro seat
      cases seat <;> rfl
    simp only [waits, start, hlistener]
    exact hparties setting.deeds _ fun _ => rfl
  refine ⟨.watching .idle .idle, ?_, [], rfl, rfl, ?_⟩
  · intro e he
    by_cases hex : setting.executes
    · simpa [start, hex] using he
    · simp [start, hex] at he
  · rw [hidle]
    exact .refl _

/-- **Every run on the bench is one of an interplay.**  Whatever the vendor, the script and the
deeds are, the bearer, the party that carries pending disconnects out and the waits of all others
come to where some moves lead. -/
theorem run_played (rounds : Nat) (be : Backend (Mounted ν)) (config : Config) (setting : Setting)
    (script : List Turn) (part : ν) :
    (run rounds be config setting script part).Played
      (.start be config.allowRoaming config.mixed config.timing.deferredUnregistration
        (start be config setting script part).bearer.vendor) := by
  refine Schedule.run_keeps ?_ ?_ rounds ?_
  · -- each task comes down to moves of the interplay
    intro task htask c hc
    simp only [schedule, List.mem_cons, List.mem_append, List.mem_map, List.not_mem_nil, or_false]
      at htask
    rcases htask with (rfl | ⟨i, -, rfl⟩) | rfl | rfl
    · exact hc.pollClosing
    · exact hc.pollParty i
    · exact hc.pollExecutor
    · exact hc.pollListener
  · intro now c hc
    exact hc.onBench _
  · exact played_start be config setting script part

end Connection

end Cellular
