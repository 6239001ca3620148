import Cellular.Proofs.Procedure.Session
/-!
# Operations that keep to a part of the state

Much of what a modem is asked for has nothing to do with a given feature: it sends none of the
feature's commands, and leaves what is known of the feature as it is.  Such an operation is
confined, to commands of a kind and to what a view of the state does not show
(`Operation.Confined`).  There is one rule for each way to build an operation, and how a confined
operation goes shows it (`Operation.Confined.performs`).

The view is any function of the state.  For a feature it is what is known of the feature, and the
commands of the kind are all that are not its query.  So one definition serves for all features, and
the rules below are used once for every operation that a vendor has, by way of its definition.
-/

namespace Cellular.Operation

variable {σ τ α β : Type} {sends : Request → Prop} {view : σ → τ}

/-- The operation sends only commands of that kind, and it neither changes what is seen of the state
nor keeps a seat. -/
def Confined (sends : Request → Prop) (view : σ → τ) (op : Operation σ α) : Prop :=
  ∀ s held, op.Abides (fun _ => sends) (fun now _ s' => now = held ∧ view s' = view s) s held

/-! ## The rules

All rules are of one form: an operation is confined if the operations that it is made of are.
Commands and changes of the state are where something has to be checked. -/

namespace Confined

/-- One confined operation after another. -/
theorem bind {op : Operation σ α} {f : α → Operation σ β} (h : op.Confined sends view)
    (hf : ∀ a, (f a).Confined sends view) : (op >>= f).Confined sends view := by
  intro s held
  refine Abides.bind (Abides.mono ?_ (h s held))
  rintro _ (e | a) s' ⟨rfl, hview⟩
  · exact ⟨rfl, hview⟩
  · refine Continues.ok (Abides.mono ?_ (hf a s' _))
    rintro _ _ _ ⟨rfl, hview'⟩
    exact ⟨rfl, hview'.trans hview⟩

theorem pure (a : α) : (Pure.pure a : Operation σ α).Confined sends view := fun _ _ => ⟨rfl, rfl⟩

theorem throw (e : Error) : (throw e : Operation σ α).Confined sends view := fun _ _ => ⟨rfl, rfl⟩

theorem get : (get : Operation σ σ).Confined sends view := fun _ _ => ⟨rfl, rfl⟩

/-- What follows a look at the state may make use of what it saw. -/
theorem bind_get {f : σ → Operation σ α}
    (h : ∀ s held, (f s).Abides (fun _ => sends)
      (fun now _ s' => now = held ∧ view s' = view s) s held) :
    (MonadState.get >>= f).Confined sends view := h

/-- A change to the state that the view does not show. -/
theorem modify {f : σ → σ} (h : ∀ s, view (f s) = view s) :
    (modify f : Operation σ Unit).Confined sends view :=
  fun s _ => ⟨rfl, h s⟩

/-- A command of the kind, whose failure is a value. -/
theorem attempt {c : Command α} (h : sends c.request) :
    (attempt c : Operation σ _).Confined sends view :=
  fun _ _ => ⟨h, fun _ => ⟨rfl, rfl⟩⟩

/-- A command of the kind. -/
theorem send {c : Command α} (h : sends c.request) : (send c : Operation σ α).Confined sends view :=
  fun _ _ => ⟨h, fun _ => ⟨rfl, rfl⟩⟩

/-- A pause sends nothing. -/
theorem pause (span : Nat) : (pause span : Operation σ Unit).Confined sends view :=
  fun _ _ => ⟨rfl, rfl⟩

/-- A step of a sequence that is not watched. -/
theorem step {c : Command α} (h : sends c.request) (severity : Severity) :
    (step false severity c : Operation σ _).Confined sends view :=
    fun _ _ => ⟨h, fun _ => ⟨rfl, rfl⟩⟩

/-- A call to the generic modem sends nothing on this port. -/
theorem parent (call : ParentCall) : (parent call : Operation σ Unit).Confined sends view :=
  fun _ _ _ => ⟨rfl, rfl⟩

theorem parentModes : (parentModes : Operation σ _).Confined sends view := fun _ _ _ => ⟨rfl, rfl⟩

/-- What follows a value has to be confined for the value alone. -/
theorem bind_liftExcept {x : Except Error α} {f : α → Operation σ β}
    (h : ∀ a, x = .ok a → (f a).Confined sends view) :
    (MonadExcept.ofExcept x >>= f : Operation σ β).Confined sends view := by
  cases x with
  | ok a => exact h a rfl
  | error e => exact fun _ _ => ⟨rfl, rfl⟩

/-- A command that is joined with a code, on a seat of its own. -/
theorem joined {c : Command Unit} (h : sends c.request) (severity : Severity) (wanted : Urc → Bool)
    (terms : Join.Terms) :
    (withSeat fun ticket =>
      discard (join c severity ticket wanted terms) : Operation σ Unit).Confined sends view := by
  refine fun s held => Abides.withSeat ⟨rfl, rfl⟩ fun ticket => Abides.discard ?_
  exact Abides.join List.mem_cons_self h fun _ => ⟨rfl, rfl, rfl⟩

/-- It makes no difference that a value is dropped. -/
theorem discard {op : Operation σ α} (h : op.Confined sends view) :
    (discard op).Confined sends view :=
  fun s held => Abides.discard (h s held)

/-- How a confined operation goes. -/
theorem performs {op : Operation σ α} {p : Performance σ α} (h : op.Confined sends view)
    (hp : op.Performs p) :
    (∀ e ∈ p.chronicle.requests, sends e.2) ∧ view p.after = view p.before := by
  obtain ⟨b', hends, hhistory⟩ := hp
  constructor
  · intro e he
    obtain ⟨f, c, hreaches, d, hd, rfl⟩ := hends.sent hhistory e he
    obtain ⟨held, habides, -⟩ := hreaches.abides Custody.trivial (h p.before []) ⟨⟩
    obtain ⟨_, hsends, -⟩ := (habides.poll (b := c) Custody.trivial ⟨⟩).2 d hd
    exact hsends
  · obtain ⟨_, ⟨-, hview⟩, -⟩ := hends.abides Custody.trivial (h p.before []) ⟨⟩
    exact hview

end Confined

end Cellular.Operation
