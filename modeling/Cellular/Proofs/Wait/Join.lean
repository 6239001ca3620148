import Cellular.Wait.Join
/-!
# The stages of a joined wait

A wait for a reply and a notification is at one of three stages: both are awaited, or one is there
and the other is awaited.  What a poll does is said stage by stage (`poll_awaitBoth`,
`poll_awaitNotification`, `poll_awaitReply`).  No stage looks back: a poll that takes in the first
of the two signals goes on as a poll of the stage after it.  A signal that is there comes before the
deadline.

A poll consists of passes, and each pass polls the signals in order until one is there, and the
deadline last.  A pass that takes in a signal without ending the wait is followed by another, so
three passes are always enough.  The lemmas below reduce passes to stages, and from then on nobody
needs to know of them.

Two facts about all stages follow.  A wait fails only by its deadline or by a reply that it refuses
(`poll_fails`).  And whatever is true of the surroundings, and follows the reply from poll to poll,
is kept by every poll of the wait (`Kept.poll`); procedures that keep books are carried through a
joined command by that.
-/

namespace Cellular.Join

variable {σ ι κ ρ ν : Type}

/-- Both signals are awaited. -/
def awaitBoth (reply : ι) (notification : κ) (deadline : Timer) : Join ι κ ρ ν :=
  { reply := some reply, notification := some notification, deadline }

/-- The reply is there. -/
def awaitNotification (reply : Except Error ρ) (notification : κ) (deadline : Timer) :
    Join ι κ ρ ν :=
  { reply := none, notification := some notification, deadline, gate := { reply := some reply } }

/-- The notification is there. -/
def awaitReply (notification : ν) (reply : ι) (deadline : Timer) : Join ι κ ρ ν :=
  { reply := some reply, notification := none, deadline, gate :=
    { notification := some notification } }

/-- The error of a reply that ends the wait at once. -/
def Terms.refuses (terms : Terms) : Except Error ρ → Option Error
  | .error e => if terms.policy = .failFast then some e else none
  | .ok _ => none

/-- What the wait ends in when the reply comes second. -/
def Terms.close (terms : Terms) (n : ν) (r : Except Error ρ) : Outcome ρ ν :=
  match terms.refuses r with
  | some e => .error e
  | none => .ok (r, n)

/-- What is left when no signal came: the deadline, or the wait as it stands. -/
def orExpire (terms : Terms) (now : Nat) (stage : Timer → Join ι κ ρ ν) (deadline : Timer) :
    Poll (Join ι κ ρ ν) (Outcome ρ ν) :=
  match deadline.poll now with
  | .ready () => .ready (.error (.operationTimeout terms.message))
  | .pending deadline => .pending (stage deadline)

/-- The rest of a poll at the first stage, when the reply did not come. -/
def seekNotification (terms : Terms) (signals : Signals σ ι κ ρ ν) (i : ι) (k : κ)
    (d : Timer) (s : σ) :
    σ × Poll (Join ι κ ρ ν) (Outcome ρ ν) :=
  match signals.notification k s with
  | (s, .ready n) => (awaitReply n i d).poll terms signals s
  | (s, .pending k) => (s, orExpire terms (signals.now s) (awaitBoth i k) d)

/-! ## Taking in a signal

A reply may be refused: a failed one is, where the wait is not to go on without it.  A reply that is
not refused is kept if it is the first signal, and ends the wait if it is the second. -/

/-- A reply that is refused ends the wait with its error. -/
theorem onReply_of_refused {terms : Terms} {j : Join ι κ ρ ν} {r : Except Error ρ} {e : Error}
    (h : terms.refuses r = some e) : j.onReply terms r = .ended (.error e) := by
  cases r with
  | ok v => cases h
  | error e' =>
    simp only [Terms.refuses, Option.ite_none_right_eq_some, Option.some.injEq] at h
    obtain ⟨hp, rfl⟩ := h
    simp [onReply, hp]

/-- A failed reply is taken only where the wait goes on without a good one. -/
theorem policy_of_taken {terms : Terms} {e : Error}
    (h : terms.refuses (.error e : Except Error ρ) = none) : terms.policy = .awaitNotification := by
  cases hp : terms.policy with
  | failFast => simp [Terms.refuses, hp] at h
  | awaitNotification => rfl

/-- A reply that comes first is kept, and the notification awaited. -/
theorem onReply_first {terms : Terms} {j : Join ι κ ρ ν} {r : Except Error ρ}
    (h : terms.refuses r = none) (hgate : j.gate = {}) :
    j.onReply terms r = .again { j with reply := none, gate := { reply := some r } } := by
  cases r with
  | ok v =>
    cases hp : terms.policy <;> simp [onReply, hp, hgate, JoinGate.markReply, JoinGate.tryComplete]
  | error e => simp [onReply, policy_of_taken h, hgate, JoinGate.markReply, JoinGate.tryComplete]

/-- A reply that comes second ends the wait. -/
theorem onReply_second {terms : Terms} {j : Join ι κ ρ ν} {n : ν}
    (hgate : j.gate = { notification := some n }) (r : Except Error ρ) :
    j.onReply terms r = .ended (terms.close n r) := by
  cases hr : terms.refuses r with
  | some e => rw [onReply_of_refused hr, Terms.close, hr]
  | none =>
    rw [Terms.close, hr]
    cases r with
    | ok v => cases hp : terms.policy <;> simp [onReply, hp, hgate, JoinGate.markReply,
        JoinGate.tryComplete]
    | error e => simp [onReply, policy_of_taken hr, hgate, JoinGate.markReply, JoinGate.tryComplete]

/-! ## The stages

A poll goes through as many stages as there are signals at hand.  The lemmas are in the order in
which they are used: the last stages first, since the first stage leads to them. -/

theorem passes_eq_of_again {terms : Terms} {signals : Signals σ ι κ ρ ν}
    {j j' : Join ι κ ρ ν} {s s' : σ} (h : j.pass terms signals s = (s', .again j')) (more : Nat) :
    passes terms signals (more + 1) j s = passes terms signals more j' s' := by
  simp [passes, h]

theorem passes_awaitReply (terms : Terms) (signals : Signals σ ι κ ρ ν) (n : ν) (i : ι)
    (d : Timer) (s : σ) (more : Nat) :
    passes terms signals (more + 1) (awaitReply n i d) s = match signals.reply i s with
      | (s, .ready r) => (s, .ready (terms.close n r))
      | (s, .pending i) => (s, orExpire terms (signals.now s) (awaitReply n i) d) := by
  rcases hreply : signals.reply i s with ⟨s', i' | r⟩
  · cases hd : d.poll (signals.now s') <;>
      simp [passes, pass, awaitReply, hreply, passNotification, passDeadline, orExpire, hd]
  · simp [passes, pass, awaitReply, hreply, onReply_second]

theorem passes_awaitNotification (terms : Terms) (signals : Signals σ ι κ ρ ν)
    (r : Except Error ρ) (k : κ) (d : Timer) (s : σ) (more : Nat) :
    passes terms signals (more + 1) (awaitNotification r k d) s =
      match signals.notification k s with
      | (s, .ready n) => (s, .ready (.ok (r, n)))
      | (s, .pending k) => (s, orExpire terms (signals.now s) (awaitNotification r k) d) := by
  rcases hnote : signals.notification k s with ⟨s', k' | n⟩
  · cases hd : d.poll (signals.now s') <;>
      simp [passes, pass, awaitNotification, hnote, passNotification, passDeadline, orExpire, hd]
  · simp [passes, pass, awaitNotification, hnote, passNotification, onNotification,
      JoinGate.markNotification, JoinGate.tryComplete]

/-- The last stage, with the notification there: the reply ends the wait, or the deadline does. -/
theorem poll_awaitReply (terms : Terms) (signals : Signals σ ι κ ρ ν) (n : ν) (i : ι)
    (d : Timer) (s : σ) :
    (awaitReply n i d).poll terms signals s = match signals.reply i s with
      | (s, .ready r) => (s, .ready (terms.close n r))
      | (s, .pending i) => (s, orExpire terms (signals.now s) (awaitReply n i) d) :=
  passes_awaitReply terms signals n i d s 2

/-- The last stage, with the reply there: the notification ends the wait, or the deadline does. -/
theorem poll_awaitNotification (terms : Terms) (signals : Signals σ ι κ ρ ν)
    (r : Except Error ρ) (k : κ) (d : Timer) (s : σ) :
    (awaitNotification r k d).poll terms signals s = match signals.notification k s with
      | (s, .ready n) => (s, .ready (.ok (r, n)))
      | (s, .pending k) => (s, orExpire terms (signals.now s) (awaitNotification r k) d) :=
  passes_awaitNotification terms signals r k d s 2

/-- The first stage: a reply that is there is refused or leads to the second stage at once, and
without one the notification is looked for. -/
theorem poll_awaitBoth (terms : Terms) (signals : Signals σ ι κ ρ ν) (i : ι) (k : κ)
    (d : Timer) (s : σ) :
    (awaitBoth i k d).poll terms signals s = match signals.reply i s with
      | (s, .ready r) => match terms.refuses r with
        | some e => (s, .ready (.error e))
        | none => (awaitNotification r k d).poll terms signals s
      | (s, .pending i) => seekNotification terms signals i k d s := by
  show passes terms signals 3 (awaitBoth i k d) s = _
  -- one pass of the three takes in the first signal, and either later stage needs but one
  rcases hreply : signals.reply i s with ⟨s', i' | r⟩
  · rcases hnote : signals.notification k s' with ⟨t, k' | n⟩
    · cases hd : d.poll (signals.now t) <;>
        simp [passes, pass, awaitBoth, hreply, hnote, passNotification, passDeadline,
          seekNotification, orExpire, hd]
    · have hpass : (awaitBoth i k d).pass terms signals s = (t, .again (awaitReply n i' d)) := by
        simp [pass, awaitBoth, hreply, passNotification, hnote, onNotification,
          JoinGate.markNotification, JoinGate.tryComplete, awaitReply]
      rw [passes_eq_of_again hpass, passes_awaitReply]
      simp only [seekNotification, hnote, poll_awaitReply]
  · cases hr : terms.refuses r with
    | some e =>
      have hpass : (awaitBoth i k d).pass terms signals s = (s', .ended (.error e)) := by
        simp [pass, awaitBoth, hreply, onReply_of_refused hr]
      simp only [passes, hpass, hr]
    | none =>
      have hpass : (awaitBoth i k d).pass terms signals s =
          (s', .again (awaitNotification r k d)) := by
        simp [pass, awaitBoth, hreply, onReply_first hr, awaitNotification]
      rw [passes_eq_of_again hpass, passes_awaitNotification]
      simp only [hr, poll_awaitNotification]

/-! ## How a poll fails

The lemmas go from the inside of a poll to the outside: what takes in a signal, what ends with the
deadline, a pass, and all passes of a poll. -/

section

variable {terms : Terms} {signals : Signals σ ι κ ρ ν} {j : Join ι κ ρ ν} {s s' : σ} {e : Error}

/-- Taking in a reply fails just if it is refused. -/
theorem onReply_fails {r : Except Error ρ} (h : j.onReply terms r = .ended (.error e)) :
    terms.refuses r = some e := by
  cases hr : terms.refuses r with
  | some e' =>
    rw [onReply_of_refused hr] at h
    cases h
    rfl
  | none =>
    unfold onReply at h
    split at h
    · rename_i hpolicy
      simp [Terms.refuses, hpolicy] at hr
    · split at h <;> cases h

theorem not_onNotification_fails {n : ν} : j.onNotification n ≠ .ended (.error e) := by
  unfold onNotification
  split <;> simp

/-- A deadline that is over is a timeout. -/
theorem passDeadline_fails {now : Nat} (h : j.passDeadline terms now = .ended (.error e)) :
    e = .operationTimeout terms.message := by
  unfold passDeadline at h
  split at h
  · cases h
    rfl
  · cases h

theorem passNotification_fails (h : j.passNotification terms signals s = (s', .ended (.error e))) :
    e = .operationTimeout terms.message := by
  unfold passNotification at h
  split at h
  · exact passDeadline_fails (congrArg Prod.snd h)
  · split at h
    · exact absurd (congrArg Prod.snd h) not_onNotification_fails
    · exact passDeadline_fails (congrArg Prod.snd h)

/-- A pass fails with a timeout, or with a reply that is refused. -/
theorem pass_fails (h : j.pass terms signals s = (s', .ended (.error e))) :
    e = .operationTimeout terms.message ∨ ∃ r : Except Error ρ, terms.refuses r = some e := by
  unfold pass at h
  split at h
  · exact .inl (passNotification_fails h)
  · split at h
    · rename_i r _
      exact .inr ⟨r, onReply_fails (congrArg Prod.snd h)⟩
    · exact .inl (passNotification_fails h)

/-- A wait only fails because its bound has passed or because it refuses a reply. -/
theorem poll_fails (h : j.poll terms signals s = (s', .ready (.error e))) :
    e = .operationTimeout terms.message ∨ ∃ r : Except Error ρ, terms.refuses r = some e := by
  -- for any number of passes; a poll makes three
  have hpasses : ∀ n (j : Join ι κ ρ ν) (s : σ), passes terms signals n j s =
    (s', .ready (.error e)) →
      e = .operationTimeout terms.message ∨ ∃ r : Except Error ρ, terms.refuses r = some e := by
    intro n
    induction n with
    | zero => exact fun _ _ h => nomatch h
    | succ n ih =>
      intro j s h
      unfold passes at h
      split at h
      · rename_i outcome hpass
        cases h
        exact pass_fails hpass
      · cases h
      · exact ih _ _ h
  exact hpasses 3 j s h

end

/-! ## What a poll keeps

The property has three forms: one while the reply is awaited, one right after it was polled for, and
one when it has come.  The notification and the deadline leave all three alone. -/

/-- What holds of a wait and its surroundings: `A` while the reply is awaited, `Z` when it has
come. -/
def Holds (A : ι → σ → Prop) (Z : σ → Prop) (j : Join ι κ ρ ν) (s : σ) : Prop :=
  match j.reply with
  | some i => A i s
  | none => Z s

/-- A property of the surroundings that follows the reply from one poll to the next, that the
notification does not affect, and that does not get lost when the wait is over.  `B` is what is left
of `A` when the reply was polled and did not come. -/
structure Kept (signals : Signals σ ι κ ρ ν) (A B : ι → σ → Prop) (Z : σ → Prop) : Prop where
  again : ∀ i s, B i s → A i s
  finished : ∀ i s, B i s → Z s
  pending : ∀ {i s s' i'}, A i s → signals.reply i s = (s', .pending i') → B i' s'
  ready : ∀ {i s s' r}, A i s → signals.reply i s = (s', .ready r) → Z s'
  awaiting : ∀ i k s, B i s → B i (signals.notification k s).1
  replied : ∀ k s, Z s → Z (signals.notification k s).1

section

variable {terms : Terms} {signals : Signals σ ι κ ρ ν} {A B : ι → σ → Prop} {Z : σ → Prop}
  {j : Join ι κ ρ ν} {s : σ}

/-- A reply that was polled for is still awaited. -/
theorem Kept.holds_again (h : Kept signals A B Z) (hj : j.Holds B Z s) : j.Holds A Z s := by
  unfold Holds at hj ⊢
  split at hj
  · exact h.again _ _ hj
  · exact hj

/-- Whichever form the property has, it has the last one when the wait is over. -/
theorem Kept.holds_over (h : Kept signals A B Z) (hj : j.Holds B Z s) : Z s := by
  unfold Holds at hj
  split at hj
  · exact h.finished _ _ hj
  · exact hj

/-- What a pass leads to still has the property. -/
def Pass.Holds (B : ι → σ → Prop) (Z : σ → Prop) (s : σ) : Pass ι κ ρ ν → Prop
  | .ended _ => Z s
  | .again j => j.Holds B Z s
  | .blocked j => j.Holds B Z s

/-- The deadline does not touch it. -/
theorem Kept.passDeadline (h : Kept signals A B Z) (hj : j.Holds B Z s) (now : Nat) :
    (j.passDeadline terms now).Holds B Z s := by
  unfold Join.passDeadline
  split
  · exact h.holds_over hj
  · exact hj

/-- Nor does taking in a notification. -/
theorem Kept.onNotification (h : Kept signals A B Z) (hj : j.Holds B Z s) (n : ν) :
    (j.onNotification n).Holds B Z s := by
  unfold Join.onNotification
  split
  · exact h.holds_over hj
  · exact hj

/-- Nor does polling for one. -/
theorem Kept.notified (h : Kept signals A B Z) (hj : j.Holds B Z s) (k : κ) :
    j.Holds B Z (signals.notification k s).1 := by
  unfold Holds at hj ⊢
  split at hj
  · exact h.awaiting _ k _ hj
  · exact h.replied k _ hj

theorem Kept.passNotification (h : Kept signals A B Z) (hj : j.Holds B Z s) :
    (j.passNotification terms signals s).2.Holds B Z (j.passNotification terms signals s).1 := by
  unfold Join.passNotification
  split
  · exact h.passDeadline hj _
  · rename_i k _
    have hk := h.notified hj k
    split
    · rename_i s' n hpoll
      rw [hpoll] at hk
      exact h.onNotification hk n
    · rename_i s' k' hpoll
      rw [hpoll] at hk
      exact h.passDeadline (by exact hk) _

/-- A reply that is taken in leaves the last form. -/
theorem holds_onReply (hz : Z s) (r : Except Error ρ) : (j.onReply terms r).Holds B Z s := by
  unfold Join.onReply
  split
  · exact hz
  · split
    · exact hz
    · exact hz

/-- One pass keeps the property. -/
theorem Kept.pass (h : Kept signals A B Z) (terms : Terms) (hj : j.Holds A Z s) :
    (j.pass terms signals s).2.Holds B Z (j.pass terms signals s).1 := by
  unfold Join.pass
  split
  · rename_i hnone
    have hz : Z s := by simpa [Holds, hnone] using hj
    exact h.passNotification (by simpa [Holds, hnone] using hz)
  · rename_i i hi
    have hi' : A i s := by simpa [Holds, hi] using hj
    split
    · rename_i s' r hpoll
      exact holds_onReply (h.ready hi' hpoll) r
    · rename_i s' i' hpoll
      exact h.passNotification (h.pending hi' hpoll)

/-- So do several. -/
theorem Kept.passes (h : Kept signals A B Z) (terms : Terms) (n : Nat) (hj : j.Holds A Z s) :
    match passes terms signals (n + 1) j s with
    | (s', .pending j') => j'.Holds B Z s'
    | (s', .ready _) => Z s' := by
  induction n generalizing j s with
  | zero =>
    have hpass := h.pass terms hj
    unfold Join.passes
    rcases hp : j.pass terms signals s with ⟨s', outcome | j' | j'⟩ <;>
      rw [hp] at hpass <;> exact hpass
  | succ n ih =>
    have hpass := h.pass terms hj
    unfold Join.passes
    rcases hp : j.pass terms signals s with ⟨s', outcome | j' | j'⟩ <;> rw [hp] at hpass
    · exact hpass
    · exact ih (h.holds_again hpass)
    · exact hpass

/-- What a poll leads to still has the property. -/
theorem Kept.poll (h : Kept signals A B Z) (terms : Terms) (hj : j.Holds A Z s) :
    match j.poll terms signals s with
    | (s', .pending j') => j'.Holds B Z s'
    | (s', .ready _) => Z s' := h.passes terms 2 hj

/-- Whatever a poll leads to, the property is not lost. -/
theorem Kept.over (h : Kept signals A B Z) (terms : Terms) (hj : j.Holds A Z s) :
    Z (j.poll terms signals s).1 := by
  have hpoll := h.poll terms hj
  split at hpoll
  · rename_i heq
    rw [heq]
    exact h.holds_over hpoll
  · rename_i heq
    rw [heq]
    exact hpoll

end

end Cellular.Join
