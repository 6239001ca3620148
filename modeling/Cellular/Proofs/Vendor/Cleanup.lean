import Cellular.Proofs.Vendor.Features
import Cellular.Vendor.Xmm
/-!
# Bringing a context down and the radio to sleep

Two operations make the best of it: an XMM bearer that is disconnected, and a Cinterion modem that
puts its radio to sleep.  Both end in one soft step, so the failure of its command is put up with,
and so is whatever comes of the question about the levels to sleep at.  What is not put up with is
text in a reply that should be empty (`Garbled`): with such a reply both fail, and with nothing else
(`cleanup_ok_iff`).

Each of the two operations is reduced to its last step.  A disconnect is one command; putting the
radio to sleep may ask for the levels first, but never fails over that, and then goes to the level
that was found.  What remains is the equivalence for a single soft step, which holds of any command,
and what it takes for a reply to be unreadable where none is expected.
-/

namespace Cellular

/-! ## Replies where there should be none -/

variable {answer : Except LinkError Bytes}

/-- An answer to a command without a reply that cannot be read: there is something in it. -/
def Garbled (answer : Except LinkError Bytes) : Prop :=
  answer = .error .parse ∨ ∃ reply, answer = .ok reply ∧ Bytes.trim reply ≠ []

/-- A reply that should be empty cannot be read if there is something in it but white space. -/
theorem empty?_eq_none {reply : Bytes} : empty? reply = none ↔ Bytes.trim reply ≠ [] := by
  simp [empty?]

/-- Any failure but one, and any blank reply, is no such answer. -/
theorem Command.unreadable_iff_garbled {c : Command Unit} (hread : c.read = empty?) :
    c.Unreadable answer ↔ Garbled answer := by
  rw [Unreadable, Garbled, hread]
  simp only [empty?_eq_none]

namespace Xmm.Bearer

open Operation

/-! ## The two operations

A disconnect is a single soft step, and so is going to the level to sleep at, where there is one. 
The question about the levels comes before it, and no answer to that makes the operation fail. -/

/-- The command that brings the context of a bearer down, or all contexts if it has none of its
own. -/
def deactivation (b : Bearer) : Command Unit := .setContextState 0 (namedCid b.cid)

/-- A disconnect is one soft step and leaves the bearer as it was. -/
theorem disconnect_performs {p : Performance Bearer Unit} (h : disconnect.Performs p) :
    p.after = p.before ∧ p.exchanges = [(p.before.deactivation.request, p.answer)] ∧
      p.before.deactivation.Tried p.answer p.result := by
  obtain ⟨b', hruns, hhistory⟩ := h.runs
  obtain ⟨hafter, hxs, htried⟩ := hruns.bind_get.discard_soft
  exact ⟨hafter, p.exchanges_eq hhistory hxs, htried⟩

end Xmm.Bearer

namespace Cinterion

open Operation

/-- Putting the radio to sleep finds the level out, if it is not known, and then goes to it. -/
theorem powerDown_performs {p : Performance Cinterion Unit} (h : powerDown.Performs p) :
    p.after = { p.before with sleepMode := p.before.levelFound p.answer } ∧
      ∃ xs, p.exchanges = p.before.levelExchanges p.answer ++ xs ∧
        p.sent = p.exchanges.map (·.1.body) ∧
        Sleeps p.after.sleepMode xs p.result := by
  obtain ⟨b', hruns, hhistory⟩ := h.runs
  obtain ⟨hafter, xs, hxs, hsleeps⟩ := powerDown_runs hruns
  obtain ⟨hexchanges, hsent⟩ := p.exchanged hhistory rfl hxs
  exact ⟨hafter, xs, hexchanges, hexchanges ▸ hsent, hsleeps⟩

/-- The question about the levels puts the radio to none. -/
theorem setFunctionality_not_mem_levelExchanges (m : Cinterion) (n : Nat)
    (answer answer' : Except LinkError Bytes) :
    ((Command.setFunctionality n).request, answer') ∉ m.levelExchanges answer := by
  unfold levelExchanges
  split
  · simp [Command.setFunctionality, Command.set, Command.testFunctionality, Command.query]
  · exact List.not_mem_nil

/-- It fails with the reply to the command that puts the radio to the level, if that is garbled. -/
theorem Sleeps.eq_ok_iff {mode : SleepMode} {xs : List (Request × Except LinkError Bytes)}
    {r : Except Error Unit} (h : Sleeps mode xs r) :
    r = .ok () ↔ ∀ n answer, ((Command.setFunctionality n).request, answer) ∈ xs →
    ¬ Garbled answer := by
  cases h with
  | level n htried =>
    rw [htried.eq_ok_iff, Command.unreadable_iff_garbled rfl]
    constructor
    · intro hread n' answer' hmem
      obtain ⟨-, rfl⟩ := Prod.mk.inj (List.mem_singleton.mp hmem)
      exact hread
    · exact fun hall => hall n _ (List.mem_singleton.mpr rfl)
  | stays => exact iff_of_true rfl fun _ _ hmem => nomatch hmem

/-- There is one error that putting the radio to a level ends with. -/
theorem Sleeps.eq_unreadable {mode : SleepMode} {xs : List (Request × Except LinkError Bytes)}
    {r : Except Error Unit} (h : Sleeps mode xs r) {e : Error} (he : r = .error e) :
    e = .unreadable := by
  cases h with
  | level n htried => exact htried.eq_unreadable he
  | stays => cases he

end Cinterion

open Operation

/-! ## The law

The two operations are stated together, since they fail in the same way.  The inputs that follow
show that both do fail. -/

/-- **What the best efforts fail with.**  Whatever the context of the bearer and whatever the modem
answers, a disconnect gives its one command, and it succeeds unless the reply to that is garbled.
Whatever is known of the levels to sleep at, putting the radio to sleep asks for them if need be,
gives the command for the lowest, and succeeds unless the reply to that one is garbled; how the
question is answered makes no difference to that.  Both fail with the one error of a reply that
cannot be read. -/
theorem cleanup_ok_iff (bearer : Xmm.Bearer) (m : Cinterion) (here there : Occasion) :
    (∃ p, p.occasion = here ∧ p.before = bearer ∧ Xmm.Bearer.disconnect.Performs p ∧
      p.after = bearer ∧
      p.exchanges = [(bearer.deactivation.request, p.answer)] ∧
      (p.result = .ok () ↔ ¬ Garbled p.answer) ∧ ∀ e, p.result = .error e → e = .unreadable) ∧
    ∃ q, q.occasion = there ∧ q.before = m ∧ Cinterion.powerDown.Performs q ∧
      q.after = { m with sleepMode := m.levelFound q.answer } ∧
      q.sent = (if m.sleepMode = .unknown then ["+CFUN=?"] else []) ++ q.after.sleepMode.commands ∧
      (q.result = .ok () ↔
        ∀ n answer, ((Command.setFunctionality n).request, answer) ∈ q.exchanges →
        ¬ Garbled answer) ∧
      ∀ e, q.result = .error e → e = .unreadable := by
  constructor
  · obtain ⟨p, hhere, rfl, hp⟩ := exists_performs Xmm.Bearer.disconnect bearer here
    obtain ⟨hafter, hexchanges, htried⟩ := Xmm.Bearer.disconnect_performs hp
    refine ⟨p, hhere, rfl, hp, hafter, hexchanges, ?_, fun e => htried.eq_unreadable⟩
    rw [htried.eq_ok_iff, Command.unreadable_iff_garbled rfl]
  · obtain ⟨q, hthere, rfl, hq⟩ := exists_performs Cinterion.powerDown m there
    obtain ⟨hafter, xs, hexchanges, hsent, hsleeps⟩ := Cinterion.powerDown_performs hq
    refine ⟨q, hthere, rfl, hq, hafter, ?_, ?_, fun e => hsleeps.eq_unreadable⟩
    · rw [hsent, hexchanges, List.map_append, Cinterion.levelExchanges_bodies, hsleeps.bodies]
    · rw [hsleeps.eq_ok_iff, hexchanges]
      refine forall_congr' fun n => forall_congr' fun answer => ?_
      -- the question about the level is another command
      rw [List.mem_append,
        or_iff_right (Cinterion.setFunctionality_not_mem_levelExchanges _ n _ answer)]

/-- A disconnect that is answered with text. -/
def Xmm.Bearer.disconnecting : Performance Bearer Unit where
  occasion := { bench := { script := [{ answer := .ok (Bytes.ofString "garbage") }] } }
  before := { cid := 2, family := .ipv4 }
  result := .error .unreadable
  after := { cid := 2, family := .ipv4 }
  chronicle := [(0, .sent (Command.setContextState 0 (some 2)).request),
    (0, .answered (.ok (Bytes.ofString "garbage")))]

/-- A modem that has level 4 answers with text when it is to go there. -/
def Cinterion.sleeping : Performance Cinterion Unit where
  occasion := { bench := { script := [{ answer := .ok (Bytes.ofString "+CFUN: (0,1,4)") },
    { answer := .ok (Bytes.ofString "garbage") }] } }
  before := .ofConfig .g4 {}
  result := .error .unreadable
  after := { ofConfig .g4 {} with sleepMode := .level 4 }
  chronicle := [(0, .sent Command.testFunctionality.request),
    (0, .answered (.ok (Bytes.ofString "+CFUN: (0,1,4)"))),
    (0, .sent (Command.setFunctionality 4).request),
    (0, .answered (.ok (Bytes.ofString "garbage")))]

/-- The best efforts do fail. -/
theorem cleanup_fails :
    Xmm.Bearer.disconnect.Performs Xmm.Bearer.disconnecting ∧
      Xmm.Bearer.disconnecting.result = .error .unreadable ∧
      Cinterion.powerDown.Performs Cinterion.sleeping ∧
        Cinterion.sleeping.result = .error .unreadable :=
  ⟨.of_run 1 rfl rfl, rfl, .of_run 1 rfl rfl, rfl⟩

end Cellular
