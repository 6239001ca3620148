import Cellular.Bench.StandIn
import Cellular.Proofs.Bearer.History
import Cellular.Proofs.Bearer.Settled
/-!
# When a forced disconnect is lost

Whoever forces a bearer down that is not down already wants it not to be up before it is down.  A
forced disconnect that meets a connect or finds the bearer up sees to that.  One that meets another
disconnect leaves the work to it, and that one may fail: then the bearer is up again, and the forced
disconnect is lost.  This is the only way (`forced_disconnect_lost_iff`).

The phases in which that cannot happen are those that are `Sinking`.

The argument is about courses.  A course that begins at the moment of the forced disconnect begins
in some phase.  If the phase is sinking, the bearer goes down next whatever the vendor answers
(`Course.sinks`).  The only other phase in which somebody may ask for a disconnect of a bearer that
is not down is a plain disconnect under way, and that is left by its answer, one way or the other
(`Course.leaves`).
-/

namespace Cellular

/-! ## The phases that a forced disconnect can leave behind

In a sinking phase no answer of the vendor's leads back up: a forced disconnect brings the bearer
down even if it fails, and so does a connect that was cancelled. -/

/-- Whatever the vendor answers, the bearer goes down next. -/
inductive Phase.Sinking : Phase → Prop
  /-- A connect is under way that was cancelled. -/
  | abandoned {told} : Sinking (.abandoned told)
  /-- A connect is being undone. -/
  | undoing : Sinking .undoing
  /-- A disconnect is under way that may not fail. -/
  | leaving : Sinking (.leaving true)

/-- A bearer that is sinking is down before it is up. -/
theorem Course.sinks {p q : Phase} {es : List BearerEvent} (h : Course p es q) (hp : p.Sinking) :
    .status .connected ∉ untilDown es := by
  induction h with
  | nil => simp [untilDown]
  | cons hb _ ih =>
    -- a beat leaves the phase a sinking one, or brings the bearer down
    cases hb with
    | rest | stay => exact ih hp
    | connect | connected | leave => cases hp
    | stayed => cases hp
    | failed | undone | left => simp [untilDown_cons, BearerEvent.status?]
    | undo => simpa [untilDown_cons, BearerEvent.status?] using ih .undoing
    | ignored | expired => simpa [untilDown_cons, BearerEvent.status?] using ih hp
    | cancel | cancelForced => simpa [untilDown_cons, BearerEvent.status?] using ih .abandoned

/-- A disconnect that may fail is followed by the bearer being up before it is down exactly if it
fails. -/
theorem Course.leaves {p q : Phase} {es : List BearerEvent} (h : Course p es q)
    (hp : p = .leaving false) :
    .status .connected ∈ untilDown es ↔ ∃ e, .ended .disconnect (.error e) ∈ untilDown es := by
  induction h with
  | nil => simp [untilDown]
  | cons hb _ ih =>
    cases hb with
    | rest | stay => exact ih hp
    | connect | connected | leave | undone => cases hp
    | failed hc | undo hc => rw [hp] at hc; cases hc
    | cancel hs | cancelForced hs => rw [hp] at hs; cases hs
    | ignored | expired => simpa [untilDown_cons, BearerEvent.status?] using ih hp
    | @left forced r hr =>
      -- the vendor is done: down, before any status connected
      obtain rfl : forced = false := by injection hp
      obtain rfl : r = .ok () := hr.resolve_left Bool.false_ne_true
      simp [untilDown_cons, BearerEvent.status?]
    | @stayed e =>
      -- the vendor failed: this event is the failure, and connected again is its status
      have hfails : ∃ e', Except.error (α := Unit) e' = .error e := ⟨e, rfl⟩
      simp [untilDown_cons, BearerEvent.status?]

/-! ## The moment at which a disconnect is asked for

A forced disconnect has its entry in the history.  The history up to that entry leads to a phase,
and what comes behind it is a course from there. -/

/-- A disconnect is asked for at the beginning of a beat. -/
theorem Beat.asked_first {p q : Phase} {own : Option Errand} {es before after : List BearerEvent}
    {forced : Bool} {out : Poll (Option Errand) (Except Error Unit)} (h : Beat p own es q out)
    (hes : es = before ++ .asked forced :: after) : before = [] := by
  cases before with
  | nil => rfl
  | cons e before =>
    have hmem : .asked forced ∈ es.tail := by simp [hes]
    cases h <;> simp at hmem

/-- A course splits at the moment at which a disconnect is asked for. -/
theorem Course.split_asked {p r : Phase} {es before after : List BearerEvent} {forced : Bool}
    (h : Course p es r) (hes : es = before ++ .asked forced :: after) :
    ∃ q own es' q' out after', Course p before q ∧ Beat q own (.asked forced :: es') q' out ∧
      Course q' after' r ∧ after = es' ++ after' := by
  induction h generalizing before with
  | nil => simp at hes
  | @cons p own es₁ q out es₂ r hb hc ih =>
    -- the moment is after this beat, or right at its end, or within it
    rcases List.append_eq_append_iff.mp hes with ⟨l, rfl, hl⟩ | ⟨l, hl, hl'⟩
    · obtain ⟨q', own', es', q'', out', after', hc', hb', hc'', hafter⟩ := ih hl
      exact ⟨q', own', es', q'', out', after', .cons hb hc', hb', hc'', hafter⟩
    · cases l with
      | nil =>
        rw [List.append_nil] at hl
        have hnil : es₂ = [] ++ .asked forced :: after := hl'.symm
        obtain ⟨q', own', es', q'', out', after', hc', hb', hc'', hafter⟩ := ih hnil
        refine ⟨q', own', es', q'', out', after', ?_, hb', hc'', hafter⟩
        have hcons := Course.cons hb hc'
        rwa [List.append_nil, hl] at hcons
      | cons e l =>
        obtain ⟨rfl, hafter⟩ := List.cons.inj hl'
        obtain rfl := hb.asked_first hl
        rw [hl] at hb
        exact ⟨p, own, l, q, out, es₂, .nil, hb, hc, hafter⟩

/-- What a course that begins with a forced disconnect, of a bearer that is not down, has come
to. -/
theorem Course.forced {p q : Phase} {own : Option Errand} {es after : List BearerEvent} {q' : Phase}
    {out : Poll (Option Errand) (Except Error Unit)} (hb : Beat p own (.asked true :: es) q' out)
    (hc : Course q' after q) (hp : p ≠ .down) :
    .status .connected ∈ untilDown (es ++ after) ↔
      p.errand? = some .disconnect ∧
        ∃ e, .ended .disconnect (.error e) ∈ untilDown (es ++ after) := by
  cases hb with
  | ignored hs =>
    -- another disconnect is under way, or a connect that was cancelled
    rcases p with _ | _ | _ | (_ | _) | _ | (_ | _) <;> simp [Phase.status] at hs hp
    · simpa [Phase.errand?] using hc.sinks .abandoned
    · simpa [Phase.errand?] using hc.sinks .undoing
    · simpa [Phase.errand?, Errand.leaving] using hc.leaves rfl
    · simpa [Phase.errand?, Errand.leaving] using hc.sinks .leaving
  | cancelForced hs =>
    have hconnect : p.errand? = some .connect :=
      Phase.errand_connect.mpr ((Phase.status_connecting.mp hs).imp_right fun h => ⟨false, h⟩)
    simpa [hconnect] using hc.sinks .abandoned
  | leave => simpa [Phase.errand?, untilDown_cons, BearerEvent.status?] using hc.sinks .leaving

/-! ## Forced disconnects in an interleaving

The theorem speaks of every history that can come of any moves, so of a forced disconnect at any
moment.  The example that follows is a bearer that stays up where roaming is forbidden. -/

namespace Interplay

variable {σ : Type}

/-- **When a forced disconnect is lost.**  In any interleaving, let a forced disconnect be asked for
at a moment at which the bearer is not down; `before` and `after` are what happened until then and
since.  The bearer is up before it is down next exactly if a disconnect that may fail was under way,
and fails. -/
theorem forced_disconnect_lost_iff (be : Backend σ) (allowRoaming mixed : Bool)
    (grace : Nat) (vendor : σ) (moves : List (Move σ)) (before after : List BearerEvent)
    (h : ((start be allowRoaming mixed grace vendor).run moves).bearer.history =
      before ++ .asked true :: after)
    (hup : statusAfter before ≠ .disconnected) :
    .status .connected ∈ untilDown after ↔
      flightAfter before = some .disconnect ∧
        ∃ e, .ended .disconnect (.error e) ∈ untilDown after := by
  obtain ⟨p, -, hc⟩ := settled_run be allowRoaming mixed grace vendor moves
  obtain ⟨q, own, es, q', out, after', hbefore, hb, hafter, rfl⟩ := hc.split_asked h
  have hq : q ≠ .down := by
    rintro rfl
    exact hup hbefore.statusAfter
  rw [hbefore.flightAfter]
  exact hafter.forced hb hq

/-- A modem whose first disconnect takes a moment and fails. -/
def reluctant : Mounted StandIn :=
  { bench := {}, part := { disconnects := [{ delay := some 1, fault := some .timeout }] } }

/-- The bearer is up, a disconnect is under way, then the modem reports that it roams where that is
not allowed, and the disconnect fails. -/
def roamWhileLeaving : List (Move (Mounted StandIn)) :=
  [.call .connect, .call .disconnect, .call (.registered .roaming),
    .drift { reluctant with bench := { now := 1 } }, .poll 1]

/-- What has happened by then, before and after the forced disconnect was asked for. -/
def lostHistory : List BearerEvent × List BearerEvent :=
  ([.status .connecting, .began .connect, .ended .connect (.ok ()),
    .status .connected, .asked false,
      .status .disconnecting, .began .disconnect],
    [.ended .disconnect (.error .timeout), .status .connected])

/-- The disconnect that was under way fails, so the forced one is lost. -/
theorem lost_while_leaving :
    .status .connected ∈ untilDown lostHistory.2 ↔
      flightAfter lostHistory.1 = some .disconnect ∧
        ∃ e, .ended .disconnect (.error e) ∈ untilDown lostHistory.2 :=
  forced_disconnect_lost_iff StandIn.backend false false 0 reluctant roamWhileLeaving lostHistory.1
    lostHistory.2 rfl (by decide)

/-- The bearer is not down when it is forced down, and then it is up, in a network in which it must
not be, without having been down. -/
theorem roaming_bearer_stays_up :
    let s := (start StandIn.backend false false 0 reluctant).run roamWhileLeaving
    s.bearer.history = lostHistory.1 ++ .asked true :: lostHistory.2 ∧
    statusAfter lostHistory.1 = .disconnecting ∧
    .status .connected ∈ untilDown lostHistory.2 ∧
    s.bearer.status = .connected ∧
    s.bearer.roamingDomain? = some .threeGpp := by
  refine ⟨rfl, rfl, ?_, rfl, rfl⟩
  exact List.mem_cons_of_mem _ List.mem_cons_self

end Interplay

end Cellular
