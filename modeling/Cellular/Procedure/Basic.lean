import Cellular.Command.Basic
import Cellular.Wait.Join
import Cellular.Unsolicited.Code
/-!
# Procedures

What a vendor's modem does for its owner is a sequence of exchanges with the modem, each decided on
by what came before.  A `Procedure` is such a sequence, written down before anything is sent: a tree
with one node for each exchange and one branch for each answer.  It has no other effects, and since
it is a tree, it ends on every line of answers.

The nodes are everything that an operation can ask of the world: a command, a pause, a look at the
cancellation token, a seat on the board of unsolicited codes, a call to the generic modem it builds
on, and a command that is joined with an unsolicited code.
-/

namespace Cellular

/-- What a vendor's modem can ask of the generic modem that it builds on. -/
inductive ParentCall where
  | enableEvents
  | disableEvents
  | setInitialBearer (apn : String)
  deriving DecidableEq, Repr

/-- A command joined with an unsolicited code. -/
structure JoinedCommand where
  request : Request
  settle : Except LinkError Bytes → Except Error Unit
  ticket : Nat
  wanted : Urc → Bool
  terms : Join.Terms

/-- A sequence of exchanges that ends in an `α`. -/
inductive Procedure (α : Type) where
  /-- The end. -/
  | done (result : α)
  /-- Send a command and wait for the reply. -/
  | send (request : Request) (next : Except LinkError Bytes → Procedure α)
  /-- Wait for a span of time, in milliseconds. -/
  | pause (span : Nat) (next : Procedure α)
  /-- Look whether the cancellation token is set. -/
  | observe (next : Bool → Procedure α)
  /-- Take a seat on the board, if one is free. -/
  | subscribe (next : Option Nat → Procedure α)
  /-- Give a seat up. -/
  | unsubscribe (ticket : Nat) (next : Procedure α)
  /-- Send a command and wait for both its reply and a code. -/
  | join (command : JoinedCommand) (next : Join.Outcome Unit Urc → Procedure α)
  /-- Ask something of the generic modem. -/
  | parent (call : ParentCall) (next : Except Error Unit → Procedure α)
  /-- Ask the generic modem for its modes. -/
  | parentModes (next : Except Error (List ModeCombination) → Procedure α)

namespace Procedure

variable {α β : Type}

/-- One procedure after another. -/
def bind : Procedure α → (α → Procedure β) → Procedure β
  | done a, f => f a
  | send r k, f => send r fun x => (k x).bind f
  | pause t k, f => pause t (k.bind f)
  | observe k, f => observe fun x => (k x).bind f
  | subscribe k, f => subscribe fun x => (k x).bind f
  | unsubscribe t k, f => unsubscribe t (k.bind f)
  | join c k, f => join c fun x => (k x).bind f
  | parent c k, f => parent c fun x => (k x).bind f
  | parentModes k, f => parentModes fun x => (k x).bind f

instance : Monad Procedure where
  pure := done
  bind := bind

theorem bind_done (p : Procedure α) : p.bind done = p := by
  induction p with
  | done => rfl
  | send _ _ ih => simp only [bind, ih]
  | pause _ _ ih => simp only [bind, ih]
  | observe _ ih => simp only [bind, ih]
  | subscribe _ ih => simp only [bind, ih]
  | unsubscribe _ _ ih => simp only [bind, ih]
  | join _ _ ih => simp only [bind, ih]
  | parent _ _ ih => simp only [bind, ih]
  | parentModes _ ih => simp only [bind, ih]

theorem bind_assoc {γ : Type} (p : Procedure α) (f : α → Procedure β) (g : β → Procedure γ) :
    (p.bind f).bind g = p.bind fun a => (f a).bind g := by
  induction p with
  | done => rfl
  | send _ _ ih => simp only [bind, ih]
  | pause _ _ ih => simp only [bind, ih]
  | observe _ ih => simp only [bind, ih]
  | subscribe _ ih => simp only [bind, ih]
  | unsubscribe _ _ ih => simp only [bind, ih]
  | join _ _ ih => simp only [bind, ih]
  | parent _ _ ih => simp only [bind, ih]
  | parentModes _ ih => simp only [bind, ih]

instance : LawfulMonad Procedure :=
  LawfulMonad.mk' Procedure (fun p => bind_done p) (fun _ _ => rfl) (fun p f g => bind_assoc p f g)

end Procedure

end Cellular
