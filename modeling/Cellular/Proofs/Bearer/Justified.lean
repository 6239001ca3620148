import Cellular.Proofs.Bearer.Frame
import Cellular.Proofs.Bearer.Interplay
import Cellular.Proofs.Wait.Sleeper
/-!
# Pending disconnects are justified

A disconnect is pending because of a domain only while that domain is unregistered, and on a mixed
modem only while neither domain is in order (`Bearer.Justified`).  Reports are what makes and calls
off pending disconnects: `Bearer.apply_justified` is the one place where the two timers, the two
reasons and the rule of mixed modems meet.  Connecting and disconnecting leave all of them alone,
and expiry takes a pending disconnect away.

Hence a disconnect that is forced because a grace period is over is forced at a moment at which the
domain is still unregistered: the party that waits for the end of the grace period may sleep on a
deadline that was called off since, but then it does not take it for its own.

The two domains are treated alike throughout, with `Domain.other` for the one that a report is not
about.  On a modem that is not mixed each domain is judged by itself; on a mixed one a domain is in
order for both.  That is why a report of the one domain may have to call off what is pending because
of the other, and why the lemma about a report has to speak of both domains at once.
-/

namespace Cellular

/-- The other domain. -/
def Domain.other : Domain → Domain
  | .threeGpp => .cdma
  | .cdma => .threeGpp

theorem Domain.eq_or_eq_other (d d' : Domain) : d' = d ∨ d' = d.other := by
  cases d <;> cases d' <;> simp [Domain.other]

/-- A report leads to a grace period only for its own domain, which is unregistered then, and on a
mixed modem only if the other domain is not in order either. -/
theorem Tracker.decide_unregistered {t : Tracker} {domain d : Domain} {own other : ForbiddenReason}
    (h : t.decide domain own other = .unregistered d) :
    d = domain ∧ own = .unregistered ∧ (t.mixed = true → other ≠ .none) := by
  unfold Tracker.decide at h
  split at h
  · cases h
  · rename_i hnot
    cases own with
    | none => exact absurd (.inl rfl) hnot
    | roaming => cases h
    | unregistered =>
      exact ⟨(Verdict.unregistered.inj h).symm, rfl, fun hm ho => hnot (.inr ⟨hm, ho⟩)⟩

/-! ## What an action does to what is pending

Of all actions only a report changes what is pending.  It is judged with the tracker after the
report, so what has to be shown is that a verdict which puts a disconnect off, or leaves one
pending, is one that the tracker's reasons bear out. -/

namespace Bearer

variable {σ : Type} {be : Backend σ}

/-- Whatever is pending is justified. -/
structure Justified (b : Bearer σ) : Prop where
  /-- A domain because of which a disconnect is pending is unregistered. -/
  own : ∀ d, (b.deferral d).isArmed = true → b.tracker.reason d = .unregistered
  /-- On a mixed modem, no domain is in order while a disconnect is pending. -/
  mixed : b.tracker.mixed = true → ∀ d d', (b.deferral d).isArmed = true →
    b.tracker.reason d' ≠ .none

/-- Connecting and disconnecting leave what is pending alone. -/
theorem Leaves.deferral {b b' : Bearer σ} (h : b.Leaves b') (d : Domain) :
    b'.deferral d = b.deferral d := by
  cases d
  · exact h.threeGpp
  · exact h.cdma

/-- So it stays justified. -/
theorem Justified.leaves {b b' : Bearer σ} (hb : b.Justified) (h : b.Leaves b') : b'.Justified := by
  constructor
  · intro d hd
    rw [h.deferral] at hd
    rw [h.tracker]
    exact hb.own d hd
  · intro hm d d' hd
    rw [h.deferral] at hd
    rw [h.tracker] at hm ⊢
    exact hb.mixed hm d d' hd

/-- Nothing is pending, so nothing needs a reason. -/
theorem callOff_justified (b : Bearer σ) : b.callOff.Justified := by
  have hoff : ∀ d, (b.callOff.deferral d).isArmed = false := by
    intro d
    cases d <;> exact Debouncer.isArmed_cancel _
  constructor
  · intro d hd
    rw [hoff] at hd
    cases hd
  · intro _ d _ hd
    rw [hoff] at hd
    cases hd

/-- Only the domain that a disconnect is put off for may be pending then and not before. -/
theorem isArmed_defer {b : Bearer σ} {domain d : Domain}
    (h : ((b.defer be domain).deferral d).isArmed = true) :
    d = domain ∨ (b.deferral d).isArmed = true := by
  cases domain <;> cases d
  · exact .inl rfl
  · exact .inr h
  · exact .inr h
  · exact .inl rfl

@[simp] theorem defer_tracker (b : Bearer σ) (domain : Domain) :
    (b.defer be domain).tracker = b.tracker := by
  cases domain <;> rfl

/-- A report about a domain, once it is taken in, leaves everything that is pending justified, if
the other domain was unregistered in case something is pending because of it. -/
theorem apply_justified {b : Bearer σ} (domain : Domain) {verdict : Verdict}
    (hv : b.tracker.decide domain (b.tracker.reason domain) (b.tracker.reason domain.other) =
      verdict)
    (hother : (b.deferral domain.other).isArmed = true →
      b.tracker.reason domain.other = .unregistered) :
    (b.apply be verdict).1.Justified := by
  cases verdict with
  | allow => exact callOff_justified b
  | disconnectNow =>
    -- called off first, so nothing is pending while the bearer is forced down
    have hoff : (b.callOff.note (.asked true)).Justified :=
      ⟨(callOff_justified b).own, (callOff_justified b).mixed⟩
    exact hoff.leaves (force_leaves _)
  | unregistered d =>
    obtain ⟨rfl, hreason, hmixed⟩ := Tracker.decide_unregistered hv
    -- the two halves of the invariant, for this domain and for the other one, pending or not
    have hown : ∀ d', d' = d ∨ (b.deferral d').isArmed = true →
        b.tracker.reason d' = .unregistered := by
      intro d' hd'
      rcases Domain.eq_or_eq_other d d' with rfl | hne
      · exact hreason
      · rcases hd' with rfl | harmed
        · exact hreason
        · rw [hne] at harmed ⊢
          exact hother harmed
    have hall : b.tracker.mixed = true → ∀ d', b.tracker.reason d' ≠ .none := by
      intro hm d'
      rcases Domain.eq_or_eq_other d d' with rfl | rfl
      · rw [hreason]; simp
      · exact hmixed hm
    have hb : b.Justified := ⟨fun d' h => hown d' (.inr h), fun hm _ d' _ => hall hm d'⟩
    simp only [apply]
    split
    · exact hb
    · split
      · have hnote : (b.note (.asked true)).Justified := ⟨hb.own, hb.mixed⟩
        exact hnote.leaves (force_leaves _)
      · constructor
        · intro d' hd'
          rw [defer_tracker]
          exact hown d' (isArmed_defer hd')
        · intro hm _ d' _
          rw [defer_tracker] at hm ⊢
          exact hall hm d'

/-- Whatever an action does up to its first wait leaves what is pending justified. -/
theorem Justified.call {b : Bearer σ} (hb : b.Justified) (action : Action) :
    (b.call be action).1.Justified := by
  cases action with
  | connect => exact hb.leaves (connect_leaves b)
  | disconnect =>
    have hnote : (b.note (.asked false)).Justified := ⟨hb.own, hb.mixed⟩
    exact hnote.leaves (disconnect_leaves b)
  | force =>
    have hnote : (b.note (.asked true)).Justified := ⟨hb.own, hb.mixed⟩
    exact hnote.leaves (force_leaves b)
  | registered status =>
    -- the report is about the other domain, so this deferral and its reason stay
    have hcdma : (b.deferral .cdma).isArmed = true →
        b.tracker.reason .cdma = .unregistered := hb.own .cdma
    exact apply_justified (b := { b with tracker := (b.tracker.update3gpp status).1 })
      .threeGpp rfl hcdma
  | registeredCdma cdma1x evdo =>
    have h3gpp : (b.deferral .threeGpp).isArmed = true →
        b.tracker.reason .threeGpp = .unregistered :=
      hb.own .threeGpp
    exact apply_justified (b := { b with tracker := (b.tracker.updateCdma cdma1x evdo).1 })
      .cdma rfl h3gpp

/-- An action does not change whether the modem is mixed. -/
theorem apply_tracker (b : Bearer σ) (verdict : Verdict) :
    (b.apply be verdict).1.tracker = b.tracker := by
  cases verdict with
  | allow => rfl
  | disconnectNow => exact (force_leaves b.callOff).tracker
  | unregistered d =>
    simp only [apply]
    split
    · rfl
    · split
      · exact (force_leaves b).tracker
      · exact defer_tracker b d

/-- No action changes whether the modem is mixed. -/
theorem call_mixed (b : Bearer σ) (action : Action) :
    (b.call be action).1.tracker.mixed = b.tracker.mixed := by
  cases action with
  | connect => rw [call, (connect_leaves b).tracker]
  | disconnect => rw [call, (disconnect_leaves b).tracker]; rfl
  | force => rw [call, (force_leaves b).tracker]; rfl
  | registered status =>
    show (({ b with tracker := (b.tracker.update3gpp status).1 } : Bearer σ).apply be
      _).1.tracker.mixed = _
    rw [apply_tracker]
    rfl
  | registeredCdma cdma1x evdo =>
    show (({ b with tracker := (b.tracker.updateCdma cdma1x evdo).1 } : Bearer σ).apply be
      _).1.tracker.mixed = _
    rw [apply_tracker]
    rfl

/-! ## The end of a grace period -/

/-- The end of a grace period: the disconnect is not pending any more, and is asked for. -/
def expire (b : Bearer σ) : Domain → Bearer σ
  | .threeGpp =>
    ({ b with threeGpp := { b.threeGpp with deadline := none } }.note (.expired .threeGpp)).note
      (.asked true)
  | .cdma =>
    ({ b with cdma := { b.cdma with deadline := none } }.note (.expired .cdma)).note (.asked true)

/-- What is pending after the end of a grace period was pending before. -/
theorem isArmed_expire {b : Bearer σ} {domain d : Domain}
    (h : ((b.expire domain).deferral d).isArmed = true) : (b.deferral d).isArmed = true := by
  cases domain <;> cases d
  · cases h
  · exact h
  · exact h
  · cases h

theorem expire_tracker (b : Bearer σ) (domain : Domain) :
    (b.expire domain).tracker = b.tracker := by
  cases domain <;> rfl

/-- What is still pending after it is justified. -/
theorem Justified.expire {b : Bearer σ} (hb : b.Justified) (domain : Domain) :
    (b.expire domain).Justified := by
  constructor
  · intro d hd
    rw [expire_tracker]
    exact hb.own d (isArmed_expire hd)
  · intro hm d d' hd
    rw [expire_tracker] at hm ⊢
    exact hb.mixed hm d d' (isArmed_expire hd)

end Bearer

/-! ## The party that carries pending disconnects out

The party sleeps on a deadline and remembers its generation.  It is not misled as long as it takes a
deadline for its own only where one is set; everything that may happen to the bearer keeps that. -/

/-- What that party takes for granted of the bearer. -/
def Executor.Fits {σ ν : Type} (b : Bearer σ) : Executor ν → Prop
  | .watching threeGpp cdma => threeGpp.Fits b.threeGpp ∧ cdma.Fits b.cdma
  | .forcing _ => True

namespace Executor

variable {σ : Type} {be : Backend σ}

/-- Connecting and disconnecting do not mislead it. -/
theorem Fits.leaves {b b' : Bearer σ} {executor : Executor be.Call} (h : executor.Fits b)
    (hb : b.Leaves b') : executor.Fits b' := by
  cases executor with
  | forcing _ => trivial
  | watching threeGpp cdma =>
    obtain ⟨h3, hc⟩ := h
    exact ⟨hb.threeGpp ▸ h3, hb.cdma ▸ hc⟩

/-- Nor does calling off what is pending. -/
theorem Fits.callOff {b : Bearer σ} {executor : Executor be.Call} (h : executor.Fits b) :
    executor.Fits b.callOff := by
  cases executor with
  | forcing _ => trivial
  | watching threeGpp cdma => exact ⟨h.1.cancel, h.2.cancel⟩

/-- Nor does putting a disconnect off. -/
theorem Fits.defer {b : Bearer σ} {executor : Executor be.Call} (h : executor.Fits b)
    (domain : Domain) :
    executor.Fits (b.defer be domain) := by
  cases executor with
  | forcing _ => trivial
  | watching threeGpp cdma =>
    cases domain with
    | threeGpp => exact ⟨h.1.arm _, h.2⟩
    | cdma => exact ⟨h.1, h.2.arm _⟩

/-- Nor does a report. -/
theorem Fits.apply {b : Bearer σ} {executor : Executor be.Call} (h : executor.Fits b)
    (verdict : Verdict) :
    executor.Fits (b.apply be verdict).1 := by
  have hforce : ∀ b' : Bearer σ, executor.Fits b' → executor.Fits (b'.force be).1 := by
    intro b' h'
    have hnote : executor.Fits (b'.note (.asked true)) := by cases executor <;> exact h'
    exact hnote.leaves (Bearer.force_leaves b')
  cases verdict with
  | allow => exact h.callOff
  | disconnectNow => exact hforce _ h.callOff
  | unregistered d =>
    simp only [Bearer.apply]
    split
    · exact h
    · split
      · exact hforce _ h
      · exact h.defer d

/-- Whatever an action does up to its first wait, the party that watches is not misled. -/
theorem Fits.call {b : Bearer σ} {executor : Executor be.Call} (h : executor.Fits b)
    (action : Action) :
    executor.Fits (b.call be action).1 := by
  have hnote : ∀ forced, executor.Fits (b.note (.asked forced)) := by
    intro forced
    cases executor <;> exact h
  have htracker : ∀ tracker, executor.Fits { b with tracker } := by
    intro tracker
    cases executor <;> exact h
  cases action with
  | connect => exact h.leaves (Bearer.connect_leaves b)
  | disconnect => exact (hnote false).leaves (Bearer.disconnect_leaves b)
  | force => exact (hnote true).leaves (Bearer.force_leaves b)
  | registered status => exact (htracker _).apply _
  | registeredCdma cdma1x evdo => exact (htracker _).apply _

/-- After a forced disconnect it begins to watch anew. -/
theorem afterForce_fits (r : Bearer.Progress be) :
    (afterForce be r).2.Fits (afterForce be r).1 := by
  rcases r with ⟨b, _ | _⟩
  · trivial
  · exact ⟨Debouncer.settle_fits _, Debouncer.settle_fits _⟩

/-- **What the party does at a poll.**  Either it leaves everything alone, or the grace period of a
domain is over because of which a disconnect is pending, and it forces the bearer down. -/
theorem poll_cases {b : Bearer σ} {executor : Executor be.Call} (h : executor.Fits b) :
    (executor.poll be b).2.Fits (executor.poll be b).1 ∧
      (b.Leaves (executor.poll be b).1 ∨
        ∃ domain, (b.deferral domain).isArmed = true ∧
        (b.expire domain).Leaves (executor.poll be b).1) := by
  cases executor with
  | forcing wait =>
    refine ⟨afterForce_fits _, .inl ?_⟩
    rw [poll, bearer_afterForce]
    exact Bearer.resume_leaves b wait
  | watching threeGpp cdma =>
    obtain ⟨h3, hc⟩ := h
    simp only [poll]
    split
    · rename_i heq
      obtain ⟨harmed, rfl⟩ := Debouncer.pollExpired_ready h3 heq
      refine ⟨afterForce_fits _, .inr ⟨.threeGpp, harmed, ?_⟩⟩
      rw [bearer_afterForce]
      exact Bearer.force_leaves _
    · -- nothing is due in the 3GPP domain; the other one is looked at
      rename_i heq
      obtain ⟨rfl, h3'⟩ := Debouncer.pollExpired_pending h3 heq
      split
      · rename_i heq'
        obtain ⟨harmed, rfl⟩ := Debouncer.pollExpired_ready hc heq'
        refine ⟨afterForce_fits _, .inr ⟨.cdma, harmed, ?_⟩⟩
        rw [bearer_afterForce]
        exact Bearer.force_leaves _
      · rename_i heq'
        obtain ⟨rfl, hc'⟩ := Debouncer.pollExpired_pending hc heq'
        exact ⟨⟨h3', hc'⟩, .inl (.refl b)⟩

end Executor

/-! ## What every interleaving keeps

Two invariants are kept together, since the second is needed at the end of a grace period for the
first: that what expires was really pending. -/

namespace Interplay

variable {σ : Type} {be : Backend σ}

/-- Whatever is pending is justified, and the party that carries it out is not misled. -/
structure Watched (s : Interplay be) (mixed : Bool) : Prop where
  mixed : s.bearer.tracker.mixed = mixed
  justified : s.bearer.Justified
  fits : s.executor.Fits s.bearer

/-- Connecting and disconnecting keep both. -/
theorem Watched.leaves {s : Interplay be} {mixed : Bool} (h : s.Watched mixed) {b : Bearer σ}
    (hb : s.bearer.Leaves b) (calls : List (Action × CallState be.Call)) :
    { s with bearer := b, calls }.Watched mixed where
  mixed := by rw [← h.mixed, hb.tracker]
  justified := h.justified.leaves hb
  fits := h.fits.leaves hb

/-- **Every move keeps what is pending justified.** -/
theorem Watched.step {s : Interplay be} {mixed : Bool} (h : s.Watched mixed) (m : Move σ) :
    (s.step m).Watched mixed := by
  cases m with
  | call action =>
    exact ⟨(Bearer.call_mixed s.bearer action).trans h.mixed, h.justified.call action,
      h.fits.call action⟩
  | poll i =>
    simp only [Interplay.step]
    split
    · rename_i wait _
      exact h.leaves (Bearer.resume_leaves s.bearer wait) _
    · exact h
  | watch =>
    -- either no deferral has lapsed, or one has and a forced disconnect follows
    obtain ⟨hfits, hcases⟩ := Executor.poll_cases h.fits
    rcases hcases with hl | ⟨domain, _, hl⟩
    · exact ⟨(congrArg Tracker.mixed hl.tracker).trans h.mixed, h.justified.leaves hl, hfits⟩
    · refine ⟨?_, (h.justified.expire domain).leaves hl, hfits⟩
      show (s.executor.poll be s.bearer).1.tracker.mixed = mixed
      rw [hl.tracker, Bearer.expire_tracker]
      exact h.mixed
  | drift vendor =>
    have hquiet : s.bearer.Leaves { s.bearer with vendor } := .quiet rfl rfl rfl rfl
    exact h.leaves hquiet s.calls

/-- At the beginning nothing is pending. -/
theorem watched_start (be : Backend σ) (allowRoaming mixed : Bool) (grace : Nat) (vendor : σ) :
    (start be allowRoaming mixed grace vendor).Watched mixed := by
  have hnone : ∀ d, ((Bearer.start allowRoaming mixed grace vendor).deferral d).isArmed =
      false := by
    intro d
    cases d <;> rfl
  refine ⟨rfl, ⟨?_, ?_⟩, trivial, trivial⟩
  · intro d hd
    rw [start, hnone] at hd
    cases hd
  · intro _ d _ hd
    rw [start, hnone] at hd
    cases hd

/-- Both hold in every interleaving. -/
theorem watched_run (be : Backend σ) (allowRoaming mixed : Bool) (grace : Nat) (vendor : σ)
    (moves : List (Move σ)) :
    ((start be allowRoaming mixed grace vendor).run moves).Watched mixed :=
  run_keeps (P := (Watched · mixed)) (fun _ m h => h.step m)
    (watched_start be allowRoaming mixed grace vendor) moves

/-- **A pending disconnect is justified, in every interleaving.**  A domain because of which one is
pending is unregistered, and on a mixed modem neither domain is in order then.  Hence, if the party
that carries pending disconnects out asks for one at its next poll, then what is asked for is one
forced disconnect, it is the first thing that happens after the end of the grace period of a domain,
and at that moment the domain is unregistered and on a mixed modem the other one is not in order. -/
theorem pending_disconnect_justified (be : Backend σ) (allowRoaming mixed : Bool)
    (grace : Nat) (vendor : σ) (moves : List (Move σ)) :
    let s := (start be allowRoaming mixed grace vendor).run moves
    let t := s.step .watch
    (∀ d, (s.bearer.deferral d).isArmed = true → s.bearer.tracker.reason d = .unregistered) ∧
    (mixed = true → ∀ d d', (s.bearer.deferral d).isArmed = true →
      s.bearer.tracker.reason d' ≠ .none) ∧
    (isAsked (t.since s) = true →
      ∃ d later, t.since s = .expired d :: .asked true :: later ∧ isAsked later = false ∧
        t.bearer.tracker = s.bearer.tracker ∧ s.bearer.tracker.reason d = .unregistered ∧
        (mixed = true → s.bearer.tracker.reason d.other ≠ .none)) := by
  intro s t
  have hs : s.Watched mixed :=
    run_keeps (P := (Watched · mixed)) (fun _ m h => h.step m)
      (watched_start be allowRoaming mixed grace vendor) moves
  have hmixed := hs.justified.mixed
  rw [hs.mixed] at hmixed
  refine ⟨hs.justified.own, hmixed, fun hasked => ?_⟩
  -- only a lapsed deferral asks for a disconnect
  rcases (Executor.poll_cases hs.fits).2 with hl | ⟨d, harmed, hl⟩
  · obtain ⟨es, hh, hes⟩ := hl.history
    rw [since_eq hh, hes] at hasked
    cases hasked
  · obtain ⟨es, hh, hes⟩ := hl.history
    have hexp : (s.bearer.expire d).history = s.bearer.history ++ [.expired d, .asked true] := by
      cases d <;> simp [Bearer.expire, Bearer.note]
    rw [hexp, List.append_assoc] at hh
    exact ⟨d, es, since_eq hh, hes, hl.tracker.trans (Bearer.expire_tracker _ _),
      hs.justified.own d harmed, fun hm => hmixed hm d d.other harmed⟩

end Interplay

end Cellular
