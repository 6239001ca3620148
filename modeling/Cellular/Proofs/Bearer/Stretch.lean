import Cellular.Proofs.Bearer.Phase
/-!
# Whatever an action does is a stretch

In whatever phase an action finds the bearer, what it does up to its first wait
(`Bearer.call_takes`) and at each of its polls (`Bearer.resume_takes`) is a stretch.  One lemma for
each step of an action leads there; the vendor's answers are taken as they come.

`Takes` says that the outcome of a poll is that of some stretch: it tells what was added to the
history, the phase that is left, and what the party waits for then.  A step that ends at a wait is
the last beat (`Takes.last`), and one that goes on is a beat before others (`Takes.more`).  Nothing
is assumed of the vendor: its answer to a poll is looked at, and every answer leads to a beat.
-/

namespace Cellular

/-! ## Phases of a bearer -/

/-- Where an action stands, as far as other actions are concerned; an action that waits for the lock
does not stand anywhere, since none ever does. -/
def Poll.stand? {ν : Type} :
    Poll (ActionWait ν) (Except Error Unit) → Option (Poll (Option Errand) (Except Error Unit))
  | .ready result => some (.ready result)
  | .pending (.vendor errand _) => some (.pending (some errand))
  | .pending .ending => some (.pending none)
  | .pending (.lock _) => none

namespace Bearer

variable {σ : Type} {be : Backend σ}

@[simp] theorem note_status (b : Bearer σ) (e : BearerEvent) : (b.note e).status = b.status := rfl
@[simp] theorem note_locked (b : Bearer σ) (e : BearerEvent) : (b.note e).locked = b.locked := rfl
@[simp] theorem note_cancelled (b : Bearer σ) (e : BearerEvent) :
    (b.note e).cancelled = b.cancelled := rfl
@[simp] theorem note_history (b : Bearer σ) (e : BearerEvent) :
    (b.note e).history = b.history ++ [e] := rfl
@[simp] theorem setStatus_status (b : Bearer σ) (s : BearerStatus) :
    (b.setStatus s).status = s := rfl
@[simp] theorem setStatus_locked (b : Bearer σ) (s : BearerStatus) :
    (b.setStatus s).locked = b.locked := rfl
@[simp] theorem setStatus_cancelled (b : Bearer σ) (s : BearerStatus) :
    (b.setStatus s).cancelled = b.cancelled := rfl
@[simp] theorem setStatus_history (b : Bearer σ) (s : BearerStatus) :
    (b.setStatus s).history = b.history ++ [.status s] := rfl

/-- The bearer is in a phase. -/
structure InPhase (b : Bearer σ) (p : Phase) : Prop where
  status : b.status = p.status
  locked : b.locked = p.errand?.isSome
  cancelled : p.errand? = some .connect → b.cancelled = p.isAbandoned

/-- The outcome of a poll is that of a stretch. -/
def Takes (b : Bearer σ) (p : Phase) (own : Option Errand) (r : Progress be) : Prop :=
  ∃ es q out, Stretch p own es q out ∧ r.1.history = b.history ++ es ∧ r.1.InPhase q ∧
    r.2.stand? = some out

/-- A beat, and what comes after it in the same poll. -/
theorem Takes.more {b b' : Bearer σ} {p q : Phase} {own own' : Option Errand}
    {es : List BearerEvent} {r : Progress be} (hb : Beat p own es q (.pending own'))
    (hh : b'.history = b.history ++ es) (h : b'.Takes q own' r) : b.Takes p own r := by
  obtain ⟨es', q', out, ht, hh', hq, hout⟩ := h
  exact ⟨es ++ es', q', out, .more hb ht, by rw [hh', hh, List.append_assoc], hq, hout⟩

/-- A beat with which a poll ends. -/
theorem Takes.last {b : Bearer σ} {p q : Phase} {own : Option Errand} {es : List BearerEvent}
    {out : Poll (Option Errand) (Except Error Unit)} {r : Progress be} (hb : Beat p own es q out)
    (hh : r.1.history = b.history ++ es) (hq : r.1.InPhase q) (hout : r.2.stand? = some out) :
    b.Takes p own r :=
  ⟨es, q, out, .last hb, hh, hq, hout⟩

/-! ## Polls of vendor calls

The vendor may answer or not, and with success or not, so each lemma splits on the answer.  A
connect that is over may begin its undoing within the same poll, which makes a stretch of two
beats. -/

/-- A vendor's disconnect that is polled goes on or is over. -/
theorem pollDisconnect_takes {b : Bearer σ} {p : Phase} {errand : Errand} (hp : b.InPhase p)
    (he : p.errand? = some errand) (hc : errand ≠ .connect) (call : be.Call) :
    b.Takes p (some errand) (b.pollDisconnect be errand call) := by
  unfold pollDisconnect
  split
  · exact .last (.stay he) (by simp) ⟨hp.status, hp.locked, hp.cancelled⟩ rfl
  · rename_i vendor result _
    cases p with
    | down => simp [Phase.errand?] at he
    | up => simp [Phase.errand?] at he
    | joining => exact absurd (Option.some.inj he).symm hc
    | abandoned told => exact absurd (Option.some.inj he).symm hc
    | undoing =>
      -- whatever the vendor says, the bearer is down
      obtain rfl := Option.some.inj he
      exact .last (.undone (r := result)) (by simp [afterDisconnect, finish])
        ⟨rfl, rfl, by simp [Phase.errand?]⟩ rfl
    | leaving forced =>
      obtain rfl := Option.some.inj he
      cases forced with
      | true =>
        exact .last (.left (r := result) (.inl rfl))
          (by simp [afterDisconnect, finish, Errand.leaving])
          ⟨rfl, rfl, by simp [Phase.errand?]⟩ rfl
      | false =>
        cases result with
        | ok _ =>
          exact .last (.left (r := .ok ()) (.inr rfl))
            (by simp [afterDisconnect, finish, Errand.leaving])
            ⟨rfl, rfl, by simp [Phase.errand?]⟩ rfl
        | error e =>
          -- only here is the bearer up again
          exact .last (.stayed (e := e)) (by simp [afterDisconnect, finish, Errand.leaving])
            ⟨rfl, rfl, by simp [Phase.errand?]⟩ rfl

/-- A connect that is given up is undone at once, as far as the vendor goes without waiting. -/
theorem undo_takes {b : Bearer σ} {p : Phase} {r : Except Error Unit} {b₀ : Bearer σ}
    (hp : p.errand? = some .connect) (hr : r = .error .cancelled ∨ (r = .ok () ∧ p.isAbandoned))
    (hh : b.history = b₀.history ++ [.ended .connect r]) (hl : b.locked = true) :
    b₀.Takes p (some .connect) (b.undo be) := by
  have hu : ((b.setStatus .disconnecting).note (.began .undo)).InPhase .undoing :=
    ⟨rfl, hl, by simp [Phase.errand?]⟩
  exact .more (.undo hp hr) (by simp [hh]) (pollDisconnect_takes hu rfl (by simp) _)

/-- A vendor's connect that is polled goes on, or is over, or is undone. -/
theorem pollConnect_takes {b : Bearer σ} {p : Phase} (hp : b.InPhase p)
    (he : p.errand? = some .connect) (call : be.Call) :
    b.Takes p (some .connect) (b.pollConnect be call) := by
  have hl : b.locked = true := by rw [hp.locked, he]; rfl
  have hc := hp.cancelled he
  unfold pollConnect
  split
  · exact .last (.stay he) (by simp) ⟨hp.status, hp.locked, hp.cancelled⟩ rfl
  · rename_i vendor result _
    unfold afterConnect
    split
    · exact undo_takes he (.inl rfl) rfl hl
    · rename_i e hne _
      exact .last (.failed he hne) (by simp [finish]) ⟨rfl, rfl, by simp [Phase.errand?]⟩ rfl
    · -- the vendor's connect succeeded: the token decides
      split
      · rename_i hb
        have ha : p.isAbandoned := by rw [← hc]; exact hb
        exact undo_takes he (.inr ⟨rfl, ha⟩) rfl hl
      · rename_i hb
        have hj : p = .joining := by
          rcases Phase.errand_connect.mp he with rfl | ⟨told, rfl⟩
          · rfl
          · exact absurd hc hb
        subst hj
        exact .last .connected (by simp [finish]) ⟨rfl, rfl, by simp [Phase.errand?]⟩ rfl

/-- An action that waits for a vendor call polls it, whatever it is for. -/
theorem pollVendor_takes {b : Bearer σ} {p : Phase} {errand : Errand} (hp : b.InPhase p)
    (he : p.errand? = some errand) (call : be.Call) :
    b.Takes p (some errand) (b.pollVendor be errand call) := by
  cases errand with
  | connect => exact pollConnect_takes hp he call
  | undo | disconnect | force => exact pollDisconnect_takes hp he (by simp) call

/-! ## Actions from their start

An action looks at the status first, and the phase has the status; so the phase decides what it
does.  Only a connect and a disconnect, forced or not, begin a vendor call, and then no other is
under way. -/

/-- A vendor call that begins is the only one, so the lock is free. -/
theorem launch_takes {b b₀ : Bearer σ} {p q : Phase} {errand : Errand} (es : List BearerEvent)
    (hb : Beat p none (es ++ [.began errand]) q (.pending (some errand)))
    (he : q.errand? = some errand) (hh : b.history = b₀.history ++ es) (hs : b.status = q.status)
    (hl : b.locked = false) (hc : errand = .connect → b.cancelled = q.isAbandoned) :
    b₀.Takes p none (b.launch be errand) := by
  have hq : ({ b with locked := true }.note (.began errand)).InPhase q :=
    ⟨hs, by rw [he]; rfl, fun h => hc (Option.some.inj (he.symm.trans h))⟩
  unfold launch
  rw [if_neg (by simp [hl])]
  exact .more hb (by simp [hh]) (pollVendor_takes hq he _)

variable (be) in
/-- A connect that is not refused begins its vendor call, and goes on from there. -/
theorem connect_begins {b : Bearer σ} (hp : b.InPhase .down) (hroam : b.roamingDomain? = none) :
    ∃ b₁ : Bearer σ, b₁.history = b.history ++ [.status .connecting, .began .connect] ∧
      b₁.Takes .joining (some .connect) (b.connect be) := by
  have hs : b.status = .disconnected := hp.status
  have hl : b.locked = false := hp.locked
  refine ⟨{ { b with cancelled := false }.setStatus .connecting with locked := true }.note
    (.began .connect), by simp, ?_⟩
  unfold connect
  simp only [hs, hroam]
  rw [if_neg (by simp)]
  unfold launch
  rw [if_neg (by simp [hl])]
  exact pollVendor_takes ⟨rfl, rfl, fun _ => rfl⟩ rfl _

/-- A connect begins its vendor call or is refused. -/
theorem connect_takes {b : Bearer σ} {p : Phase} (hp : b.InPhase p) :
    b.Takes p none (b.connect be) := by
  unfold connect
  split
  · exact .last (.rest (by simp)) (by simp) hp rfl
  · exact .last (.rest (by simp)) (by simp) hp rfl
  · split
    · exact .last (.rest (by simp)) (by simp) hp rfl
    · split
      · exact .last (.rest (by simp)) (by simp) hp rfl
      · rename_i hup
        -- neither on its way nor up, so it is down
        have hdown : p = .down := by
          rw [← Phase.status_disconnected, ← hp.status]
          cases hs : b.status <;> simp_all
        subst hdown
        exact launch_takes [.status .connecting] .connect rfl (by simp) rfl hp.locked (fun _ => rfl)

/-- A disconnect that has nothing to do. -/
theorem Takes.ignored {b : Bearer σ} {p : Phase} {forced : Bool} {r : Progress be}
    {result : Except Error Unit} (h : p.status = .disconnected ∨ p.status = .disconnecting)
    (hh : r.1.history = b.history ++ [.asked forced]) (hp : r.1.InPhase p)
    (hr : r.2 = .ready result) : b.Takes p none r :=
  .last (.ignored h) hh hp (by rw [hr]; rfl)

/-- A disconnect begins its vendor call, or meets a connect, or has nothing to do. -/
theorem disconnect_takes {b : Bearer σ} {p : Phase} (hp : b.InPhase p) :
    b.Takes p none (b.disconnect be) := by
  have hs : (b.note (.asked false)).status = p.status := hp.status
  -- one branch for each status: down, on the way down, on the way up, up
  unfold disconnect
  dsimp only
  split
  · rename_i h
    exact .ignored (.inl (hs ▸ h)) rfl ⟨hs, hp.locked, hp.cancelled⟩ rfl
  · rename_i h
    exact .ignored (.inr (hs ▸ h)) rfl ⟨hs, hp.locked, hp.cancelled⟩ rfl
  · rename_i h
    have hc : p.status = .connecting := hs ▸ h
    have hl : b.locked = true := by
      rw [hp.locked]; exact Phase.errand_isSome.mpr (.inl hc)
    unfold awaitEnd
    rw [if_neg (by simp)]
    exact .last (.cancel hc) (by simp) ⟨rfl, hl, fun _ => rfl⟩ rfl
  · rename_i h
    obtain rfl : p = .up := Phase.status_connected.mp (hs ▸ h)
    exact launch_takes [.asked false, .status .disconnecting] .leave rfl (by simp)
      rfl hp.locked (by simp)

/-- So it is with a forced disconnect. -/
theorem force_takes {b : Bearer σ} {p : Phase} (hp : b.InPhase p) :
    b.Takes p none (b.force be) := by
  have hs : (b.note (.asked true)).status = p.status := hp.status
  unfold force
  dsimp only
  -- one case per status: down, going down, connecting, up
  split
  · rename_i h
    exact .ignored (.inl (hs ▸ h)) rfl ⟨hs, hp.locked, hp.cancelled⟩ rfl
  · rename_i h
    exact .ignored (.inr (hs ▸ h)) rfl ⟨hs, hp.locked, hp.cancelled⟩ rfl
  · rename_i h
    have hc : p.status = .connecting := hs ▸ h
    have hl : b.locked = true := by
      rw [hp.locked]; exact Phase.errand_isSome.mpr (.inl hc)
    exact .last (.cancelForced hc) (by simp) ⟨h, hl, fun _ => rfl⟩ rfl
  · rename_i h
    obtain rfl : p = .up := Phase.status_connected.mp (hs ▸ h)
    exact launch_takes [.asked true, .status .disconnecting] .leave rfl (by simp)
      rfl hp.locked (by simp)

/-- A stretch depends on the bearer it starts from by the history only. -/
theorem Takes.of_history {b b' : Bearer σ} {p : Phase} {own : Option Errand} {r : Progress be}
    (hh : b'.history = b.history) (h : b'.Takes p own r) : b.Takes p own r := by
  obtain ⟨es, q, out, ht, hes, hq, hout⟩ := h
  exact ⟨es, q, out, ht, by rw [hes, hh], hq, hout⟩

/-- A report forces the bearer down, or leaves its phase alone. -/
theorem apply_takes {b : Bearer σ} {p : Phase} (hp : b.InPhase p) (verdict : Verdict) :
    b.Takes p none (b.apply be verdict) := by
  have hoff : b.callOff.InPhase p := ⟨hp.status, hp.locked, hp.cancelled⟩
  cases verdict with
  | allow => exact .last (.rest (by simp)) (by simp [apply, callOff]) hoff rfl
  | disconnectNow => exact .of_history rfl (force_takes hoff)
  | unregistered domain =>
    simp only [apply]
    split
    · exact .last (.rest (by simp)) (by simp) hp rfl
    · split
      · exact force_takes hp
      · have hd : (b.defer be domain).InPhase p ∧ (b.defer be domain).history = b.history := by
          cases domain <;> exact ⟨⟨hp.status, hp.locked, hp.cancelled⟩, rfl⟩
        exact .last (.rest (by simp)) (by simp [hd.2]) hd.1 rfl

variable (be) in
/-- Whatever an action does up to its first wait is a stretch. -/
theorem call_takes {b : Bearer σ} {p : Phase} (hp : b.InPhase p) (action : Action) :
    b.Takes p none (b.call be action) := by
  cases action with
  | connect => exact connect_takes hp
  | disconnect => exact disconnect_takes hp
  | force => exact force_takes hp
  | registered status =>
    have ht : { b with tracker := (b.tracker.update3gpp status).1 }.InPhase p :=
      ⟨hp.status, hp.locked, hp.cancelled⟩
    exact .of_history rfl (apply_takes ht _)
  | registeredCdma cdma1x evdo =>
    have ht : { b with tracker := (b.tracker.updateCdma cdma1x evdo).1 }.InPhase p :=
      ⟨hp.status, hp.locked, hp.cancelled⟩
    exact .of_history rfl (apply_takes ht _)

/-- Whatever an action does at a poll is a stretch. -/
theorem resume_takes {b : Bearer σ} {p : Phase} {wait : ActionWait be.Call}
    {own : Option Errand} (hp : b.InPhase p)
    (hw : (Poll.pending wait).stand? = some (.pending own))
    (ho : ∀ errand, own = some errand → p.errand? = own) :
    b.Takes p own (b.resume be wait) := by
  cases wait with
  | lock errand => simp [Poll.stand?] at hw
  | vendor errand call =>
    obtain rfl : some errand = own := by simpa [Poll.stand?] using hw
    exact pollVendor_takes hp (ho errand rfl) call
  | ending =>
    obtain rfl : none = own := by simpa [Poll.stand?] using hw
    show b.Takes p none (b.awaitEnd be)
    unfold awaitEnd
    split
    · exact .last (.rest (by simp)) (by simp) hp rfl
    · exact .last (.rest (by simp)) (by simp) hp rfl

end Bearer

end Cellular
