import Cellular.Feature
import Cellular.Proofs.Bench.Bystander
/-!
# Modest operations

A modest operation leaves the seats on the board alone, apart from those that it takes itself and
gives up again.  So it does not matter to it what came before it was begun, and a code that comes
late is none of its business (`Operation.Modest.late_line`).  There is one rule for each way to
build an operation; nearly all there is to say is that nothing but taking a seat has to do with
seats.

Modesty is a code of conduct too, with no condition on what is sent: it only asks that every seat
that is read from or given up is one's own, and that none is left at the end.  Late lines come to
nothing because a seat that is taken later does not see them.
-/

namespace Cellular.Operation

variable {σ α β : Type}

/-- The operation only uses seats that it takes itself, and gives all of them up again. -/
def Modest (op : Operation σ α) : Prop :=
  ∀ s held, op.Abides (fun _ _ => True) (fun now _ _ => now = held) s held

namespace Modest

/-- A modest operation keeps to seats of its own from any state on. -/
theorem keepsTo {op : Operation σ α} (h : op.Modest) (s : σ) : (op.run.run s).KeepsTo [] :=
  Procedure.Abides.mono (fun _ _ _ => trivial) (fun _ _ _ => trivial) (h s [])

/-! ## The rules -/

/-- One modest operation after another. -/
theorem bind {op : Operation σ α} {f : α → Operation σ β} (h : op.Modest) (hf : ∀ a, (f a).Modest) :
    (op >>= f).Modest := by
  intro s held
  refine Abides.bind (Abides.mono ?_ (h s held))
  rintro _ (e | a) s rfl
  · rfl
  · exact hf a s _

theorem pure (a : α) : (Pure.pure a : Operation σ α).Modest := fun _ _ => rfl

theorem throw (e : Error) : (throw e : Operation σ α).Modest := fun _ _ => rfl

theorem get : (get : Operation σ σ).Modest := fun _ _ => rfl

theorem modify (f : σ → σ) : (modify f : Operation σ Unit).Modest := fun _ _ => rfl

/-- A command takes no seat. -/
theorem attempt (c : Command α) : (attempt c : Operation σ _).Modest :=
  fun _ _ => ⟨trivial, fun _ => rfl⟩

theorem send (c : Command α) : (send c : Operation σ α).Modest := fun _ _ => ⟨trivial, fun _ => rfl⟩

/-- Neither does a step, however its failures are taken. -/
theorem step (watched : Bool) (severity : Severity) (c : Command α) :
    (step watched severity c : Operation σ _).Modest :=
  fun _ _ => Abides.step trivial fun _ => rfl

theorem pause (span : Nat) : (pause span : Operation σ Unit).Modest := fun _ _ => rfl

theorem parent (call : ParentCall) : (parent call : Operation σ Unit).Modest := fun _ _ _ => rfl

theorem parentModes : (parentModes : Operation σ _).Modest := fun _ _ _ => rfl

/-- It makes no difference that a failure is made a value. -/
theorem catching {op : Operation σ α} (h : op.Modest) : (catching op).Modest :=
  fun s held => Abides.catching (h s held)

/-- It makes no difference that a value is dropped. -/
theorem discard {op : Operation σ α} (h : op.Modest) : (discard op).Modest :=
  fun s held => Abides.discard (h s held)

/-- A value takes no seat, and neither does an error. -/
theorem liftExcept (x : Except Error α) : (MonadExcept.ofExcept x : Operation σ α).Modest := by
  intro s held
  cases x <;> rfl

/-- Finding out a feature and the value of its query is modest if the query is. -/
theorem resolveValue {query : Operation σ (Except Error α)} (h : query.Modest) (f : Feature) :
    (f.resolveValue query).Modest := by
  cases f with
  | unknown => exact h.bind fun outcome => .pure _
  | supported => exact .pure _
  | notSupported => exact .pure _

/-- Finding out a feature is modest if its query is. -/
theorem resolve {query : Operation σ (Except Error α)} (h : query.Modest) (f : Feature) :
    (f.resolve query).Modest :=
  (h.resolveValue f).bind fun _ => .pure _

end Modest

/-! ## Late lines

A board has room for so many codes that somebody has still to read.  A code that comes on top of
them is lost, and it may be the late line that took the room; so a loss has to be excluded. -/

/-- A line that was emitted before a modest operation is begun changes nothing about it, unless a
code is lost: not what it ends in, nor the state that it leaves, nor what is sent, nor when it
ends. -/
theorem Modest.late_line {op : Operation σ α} (h : op.Modest) (s : σ) {b : Bench} (hb : b.Orderly)
    (line : Bytes) (events : List (Nat × Event)) :
    ∃ x c x' c', Rehearsal.EndsIn b events (op.run.run s) x c ∧
      Rehearsal.EndsIn (b.emit line) events (op.run.run s) x' c' ∧
      (c'.losses ≤ b.losses → x' = x ∧ c'.log = c.log ∧ c'.now = c.now) := by
  obtain ⟨x, c, hends, -⟩ := Rehearsal.exists_endsIn b events (op.run.run s)
  obtain ⟨x', c', hends', -⟩ := Rehearsal.exists_endsIn (b.emit line) events (op.run.run s)
  exact ⟨x, c, x', c', hends, hends', hends.late_line hb (h.keepsTo s) line hends'⟩

end Cellular.Operation
