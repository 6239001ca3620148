import Cellular.Proofs.Procedure.Runs
/-!
# Codes of conduct

Which commands an operation may send can depend on the seats that it holds, and seats are given up
in the opposite order in which they were taken.  A code of conduct says which commands may be sent
while which seats are held, and in what an operation may end.  A procedure abides by it if it does
on every line of answers (`Procedure.Abides`), which is read off the tree: nothing is run.  There is
one rule for each way to build an operation (`Operation.Abides`).

Seats that are held are listed newest first.

A code of conduct is what the accounting of seats and the pacts of several parties have in common:
it is a fact about the tree of an operation alone, and whoever keeps books on a bench can then keep
them through the operation, wherever it is suspended and whatever happens meanwhile.  That step is
taken elsewhere; here it is only shown how abiding is put together.

The rule for one operation after another is the only one with an argument.  An operation may end
with seats that it did not begin with, so what follows has to abide with the seats that are held
then, and the state that is found then (`Continues`).
-/

namespace Cellular

/-! ## Procedures

The definition follows the tree.  A branch is there for every answer, so all answers have to be
allowed for; taking a seat has a branch with a ticket and one without. -/

variable {σ α β : Type} {sends : List Nat → Request → Prop} {held : List Nat}

namespace Procedure

/-- With `held` seats, the procedure only sends what `sends` allows, only reads from and gives up
seats of its own, and ends as `ends` says. -/
def Abides (sends : List Nat → Request → Prop) (ends : List Nat → α → Prop) :
    Procedure α → List Nat → Prop
  | done a, held => ends held a
  | send r k, held => sends held r ∧ ∀ answer, (k answer).Abides sends ends held
  | pause _ k, held => k.Abides sends ends held
  | observe k, held => ∀ cancelled, (k cancelled).Abides sends ends held
  | subscribe k, held =>
    (k none).Abides sends ends held ∧ ∀ ticket, (k (some ticket)).Abides sends ends (ticket :: held)
  | unsubscribe ticket k, held => ∃ rest, held = ticket :: rest ∧ k.Abides sends ends rest
  | join c k, held =>
    c.ticket ∈ held ∧ sends held c.request ∧ ∀ outcome, (k outcome).Abides sends ends held
  | parent _ k, held => ∀ answer, (k answer).Abides sends ends held
  | parentModes k, held => ∀ answer, (k answer).Abides sends ends held

/-- What is allowed may be said more broadly. -/
theorem Abides.mono {sends' : List Nat → Request → Prop} {ends ends' : List Nat → α → Prop}
    {p : Procedure α} (hsends : ∀ held r, sends held r → sends' held r)
    (hends : ∀ held a, ends held a → ends' held a) (h : p.Abides sends ends held) :
    p.Abides sends' ends' held := by
  induction p generalizing held with
  | done a => exact hends _ _ h
  | send r k ih => exact ⟨hsends _ _ h.1, fun x => ih x (h.2 x)⟩
  | pause _ k ih => exact ih h
  | observe k ih => exact fun x => ih x (h x)
  | subscribe k ih => exact ⟨ih _ h.1, fun t => ih _ (h.2 t)⟩
  | unsubscribe t k ih =>
    obtain ⟨rest, rfl, h⟩ := h
    exact ⟨rest, rfl, ih h⟩
  | join c k ih => exact ⟨h.1, hsends _ _ h.2.1, fun x => ih x (h.2.2 x)⟩
  | parent _ k ih => exact fun x => ih x (h x)
  | parentModes k ih => exact fun x => ih x (h x)

/-- One procedure after another. -/
theorem Abides.bind {ends : List Nat → β → Prop} {p : Procedure α} {f : α → Procedure β}
    (h : p.Abides sends (fun held a => (f a).Abides sends ends held) held) :
    (p.bind f).Abides sends ends held := by
  induction p generalizing held with
  | done a => exact h
  | send r k ih => exact ⟨h.1, fun x => ih x (h.2 x)⟩
  | pause _ k ih => exact ih h
  | observe k ih => exact fun x => ih x (h x)
  | subscribe k ih => exact ⟨ih _ h.1, fun t => ih _ (h.2 t)⟩
  | unsubscribe t k ih =>
    obtain ⟨rest, rfl, h⟩ := h
    exact ⟨rest, rfl, ih h⟩
  | join c k ih => exact ⟨h.1, h.2.1, fun x => ih x (h.2.2 x)⟩
  | parent _ k ih => exact fun x => ih x (h x)
  | parentModes k ih => exact fun x => ih x (h x)

end Procedure

/-! ## Operations

The rules for single operations take the rest of the code of conduct as a hypothesis about
what they end in.  That is how conditions are handed on from the front of an operation to its
end. -/

namespace Operation

variable {s : σ} {ends : List Nat → Except Error α → σ → Prop}

/-- The operation abides by a code of conduct when it is begun on `s` with `held` seats. -/
def Abides (sends : List Nat → Request → Prop) (ends : List Nat → Except Error α → σ → Prop)
    (op : Operation σ α) (s : σ) (held : List Nat) : Prop :=
  (op.run.run s).Abides sends (fun held r => ends held r.1 r.2) held

/-- What remains to be shown of an operation once another one before it has ended. -/
def Continues (sends : List Nat → Request → Prop) (ends : List Nat → Except Error β → σ → Prop)
    (f : α → Operation σ β) (held : List Nat) : Except Error α → σ → Prop
  | .ok a, s => (f a).Abides sends ends s held
  | .error e, s => ends held (.error e) s

/-- After a value it is what follows that has to abide. -/
theorem Continues.ok {ends : List Nat → Except Error β → σ → Prop} {f : α → Operation σ β} {a : α}
    (h : (f a).Abides sends ends s held) : Continues sends ends f held (.ok a) s := h

/-- One operation after another. -/
theorem Abides.bind {ends : List Nat → Except Error β → σ → Prop} {op : Operation σ α}
    {f : α → Operation σ β} (h : op.Abides sends (Continues sends ends f) s held) :
    (op >>= f).Abides sends ends s held := by
  rw [Abides, run_bind]
  refine .bind (h.mono (fun _ _ => id) fun held r hr => ?_)
  obtain ⟨a | e, s⟩ := r
  · exact hr
  · exact hr

/-- What an operation may end in may be said more broadly. -/
theorem Abides.mono {ends' : List Nat → Except Error α → σ → Prop} {op : Operation σ α}
    (hends : ∀ held r s, ends held r s → ends' held r s) (h : op.Abides sends ends s held) :
    op.Abides sends ends' s held :=
  Procedure.Abides.mono (fun _ _ => id) (fun held r => hends held r.1 r.2) h

theorem Abides.pure {a : α} (h : ends held (.ok a) s) :
    (pure a : Operation σ α).Abides sends ends s held := h

theorem Abides.throw {e : Error} (h : ends held (.error e) s) :
    (throw e : Operation σ α).Abides sends ends s held := h

theorem Abides.get {ends : List Nat → Except Error σ → σ → Prop} (h : ends held (.ok s) s) :
    (get : Operation σ σ).Abides sends ends s held := h

/-- What follows a look at the state has to abide on the state that it saw. -/
theorem Abides.bind_get {f : σ → Operation σ α} (h : (f s).Abides sends ends s held) :
    ((MonadState.get : Operation σ σ) >>= f).Abides sends ends s held := h

/-- A change to the state sends nothing. -/
theorem Abides.modify {f : σ → σ} {ends : List Nat → Except Error Unit → σ → Prop}
    (h : ends held (.ok ()) (f s)) :
    (modify f : Operation σ Unit).Abides sends ends s held := h

/-- A procedure abides as an operation if it does by itself. -/
theorem Abides.require {p : Procedure (Except Error α)}
    (h : p.Abides sends (fun held r => ends held r s) held) :
    (require p : Operation σ α).Abides sends ends s held := by
  rw [Abides, run_require]
  exact .bind h

/-- It makes no difference that a value is dropped. -/
theorem Abides.discard {op : Operation σ α} {ends : List Nat → Except Error Unit → σ → Prop}
    (h : op.Abides sends (fun held r s => ends held (r.map fun _ => ()) s) s held) :
    (discard op).Abides sends ends s held := by
  rw [Abides, run_discard]
  exact .bind h

/-- It makes no difference that a failure is made a value. -/
theorem Abides.catching {op : Operation σ α}
    {ends : List Nat → Except Error (Except Error α) → σ → Prop}
    (h : op.Abides sends (fun held r s => ends held (.ok r) s) s held) :
    (catching op).Abides sends ends s held := by
  rw [Abides, run_catching]
  exact .bind h

/-- A look at the token sends nothing, whatever it finds. -/
theorem Abides.checkToken {ends : List Nat → Except Error Unit → σ → Prop}
    (hset : ends held (.error .cancelled) s) (hclear : ends held (.ok ()) s) :
    (checkToken : Operation σ Unit).Abides sends ends s held := by
  refine .require fun cancelled => ?_
  cases cancelled
  · exact hclear
  · exact hset

/-- A step, watched or not. -/
theorem Abides.step {watched : Bool} {severity : Severity} {c : Command α}
    {ends : List Nat → Except Error (Option α) → σ → Prop} (hsends : sends held c.request)
    (hends : ∀ r, ends held r s) :
    (step watched severity c : Operation σ (Option α)).Abides sends ends s held := by
  have hsend :
    (Operation.require (.send c.request fun answer => .done (severity.outcome (c.outcome answer))) :
      Operation σ (Option α)).Abides sends ends s held := .require ⟨hsends, fun _ => hends _⟩
  cases watched with
  | false => exact hsend
  | true =>
    have hlook : (Operation.checkToken : Operation σ Unit).Abides sends
        (Continues sends ends fun _ => Operation.require
          (.send c.request fun answer => .done (severity.outcome (c.outcome answer)))) s held :=
      .checkToken (hends _) hsend
    exact hlook.bind

/-- A joined command is sent while the seat that it reads from is held. -/
theorem Abides.join {c : Command Unit} {severity : Severity} {ticket : Nat} {wanted : Urc → Bool}
    {terms : Join.Terms} {ends : List Nat → Except Error (Except Error Unit × Urc) → σ → Prop}
    (hticket : ticket ∈ held) (hsends : sends held c.request) (hends : ∀ r, ends held r s) :
    (join c severity ticket wanted terms : Operation σ _).Abides sends ends s held :=
  .require ⟨hticket, hsends, fun _ => hends _⟩

/-! ## Operations that keep everything

Many operations neither take a seat nor touch what is remembered.  For these the code of conduct
asks nothing but that what they send is permitted, and they may be put in front of any other
operation. -/

/-- The operation leaves the seats and the state of the modem as they are. -/
def Keeps (sends : List Nat → Request → Prop) (op : Operation σ α) (s : σ)
    (held : List Nat) : Prop :=
  op.Abides sends (fun now _ s' => now = held ∧ s' = s) s held

/-- An operation that leaves everything as it is, and another one after it. -/
theorem Keeps.bind {ends : List Nat → Except Error β → σ → Prop} {op : Operation σ α}
    {f : α → Operation σ β} (h : op.Keeps sends s held) (herror : ∀ e, ends held (.error e) s)
    (hrest : ∀ a, (f a).Abides sends ends s held) :
    (op >>= f).Abides sends ends s held := by
  refine Abides.bind (Abides.mono ?_ h)
  rintro _ r _ ⟨rfl, rfl⟩
  cases r with
  | ok a => exact hrest a
  | error e => exact herror e

/-- A look at the token leaves everything as it is. -/
theorem keeps_checkToken : (checkToken : Operation σ Unit).Keeps sends s held :=
  .checkToken ⟨rfl, rfl⟩ ⟨rfl, rfl⟩

theorem keeps_step {watched : Bool} {severity : Severity} {c : Command α}
    (hsends : sends held c.request) :
    (Functor.discard (step watched severity c) : Operation σ Unit).Keeps sends s held :=
  .discard (.step hsends fun _ => ⟨rfl, rfl⟩)

/-- With a seat on the board, or without one because none is free. -/
theorem Abides.withSeat {inner : Nat → Operation σ α}
    (hfull : ends held (.error (.subscriberOverflow .subscribers)) s) (hinner : ∀ ticket,
      (inner ticket).Abides sends (fun now r s => now = ticket :: held ∧ ends held r s) s
      (ticket :: held)) :
    (withSeat inner).Abides sends ends s held := by
  have hrest : ∀ ticket, Abides sends ends (do
      let outcome ← Operation.catching (inner ticket)
      Operation.require (.unsubscribe ticket (.done outcome))) s (ticket :: held) := by
    intro ticket
    refine Abides.bind (Abides.catching ((hinner ticket).mono ?_))
    rintro _ r s ⟨rfl, hends⟩
    exact Abides.require ⟨held, rfl, hends⟩
  exact Abides.bind (Abides.require ⟨hfull, hrest⟩)

end Operation

end Cellular
