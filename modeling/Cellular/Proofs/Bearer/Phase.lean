import Cellular.Bearer.Basic
/-!
# The phases of a bearer

However many actions are waiting around a bearer, its own business is always in one of a few phases,
and goes from one to the next in beats.  A `Beat` says what one action does in one go without asking
the vendor anything on the way; a `Stretch` is what it does in one poll, a few beats in a row if the
vendor answers at once; a `Course` is what happens to the bearer, beat after beat, whoever acts.

`Stretch.errand` is what keeps vendor calls apart: a stretch accounts for those of the acting party,
and leaves those of all others as they were.

The phases are finer than the statuses: a connect that was cancelled has the status of one that was
not, and a disconnect that may fail that of one that brings the bearer down in any case.  They are
coarser than the bearer, since they say nothing of what registration forbids, of what is pending and
of the vendor's state; beats are possible that no bearer with these would take.  For what is claimed
of all interleavings that does no harm.
-/

namespace Cellular

/-! ## Phases

A phase tells apart what the status leaves open: whether a connect that is in progress has been
cancelled, whether the call under way is its undoing, and whether a disconnect is forced. -/

/-- What a bearer's business is. -/
inductive Phase where
  /-- None, and it is down. -/
  | down
  /-- None, and it is up. -/
  | up
  /-- A vendor's connect is under way that nobody has cancelled. -/
  | joining
  /-- A vendor's connect is under way that was cancelled; the status may tell already. -/
  | abandoned (told : Bool)
  /-- A connect that was cancelled is being undone. -/
  | undoing
  /-- A vendor's disconnect is under way. -/
  | leaving (forced : Bool)
  deriving DecidableEq

/-- What a disconnect makes a vendor call for. -/
def Errand.leaving (forced : Bool) : Errand := if forced then .force else .disconnect

namespace Phase

/-- The status of a bearer in a phase. -/
def status : Phase → BearerStatus
  | down => .disconnected
  | up => .connected
  | joining | abandoned false => .connecting
  | abandoned true | undoing | leaving _ => .disconnecting

/-- What the vendor call is for that is under way in a phase. -/
def errand? : Phase → Option Errand
  | down | up => none
  | joining | abandoned _ => some .connect
  | undoing => some .undo
  | leaving forced => some (.leaving forced)

/-- Whether the connect that is under way was cancelled. -/
def isAbandoned : Phase → Bool
  | abandoned _ => true
  | _ => false

/-- A bearer is connecting in two phases, both with the vendor's connect under way. -/
theorem status_connecting {p : Phase} :
    p.status = .connecting ↔ p = joining ∨ p = abandoned false := by
  rcases p with _ | _ | _ | (_ | _) | _ | _ <;> simp [status]

theorem status_disconnected {p : Phase} : p.status = .disconnected ↔ p = down := by
  rcases p with _ | _ | _ | (_ | _) | _ | _ <;> simp [status]

theorem status_connected {p : Phase} : p.status = .connected ↔ p = up := by
  rcases p with _ | _ | _ | (_ | _) | _ | _ <;> simp [status]

/-- A vendor's connect is under way until it is over, whether or not it was cancelled. -/
theorem errand_connect {p : Phase} :
    p.errand? = some .connect ↔ p = joining ∨ ∃ told, p = abandoned told := by
  rcases p with _ | _ | _ | _ | _ | (_ | _) <;> simp [errand?, Errand.leaving]

/-- A vendor call is under way exactly while the bearer is on its way up or down. -/
theorem errand_isSome {p : Phase} :
    p.errand?.isSome ↔ p.status = .connecting ∨ p.status = .disconnecting := by
  rcases p with _ | _ | _ | (_ | _) | _ | _ <;> simp [errand?, status]

end Phase

/-! ## Beats, stretches and courses

A beat is one step of one action, as far as it can be told from outside; a stretch is what one
poll comes to, and a course is what happens between two phases, whoever acts.  The constructors of
`Beat` are all that can ever happen, so a fact about histories is proved once for each of them. -/

/-- What one action does in one go: the phase it finds, what its vendor call is for if it has one
under way, what happens, the phase it leaves, and where it stands then.  It waits for a vendor call,
or for the end of a connect, or is over. -/
inductive Beat :
    Phase → Option Errand → List BearerEvent → Phase →
    Poll (Option Errand) (Except Error Unit) → Prop
  /-- An action is refused, or has nothing to do, or waits for the end of a connect. -/
  | rest {p out} (h : ∀ errand, out ≠ .pending (some errand)) : Beat p none [] p out
  /-- A vendor call takes its time. -/
  | stay {p errand} (h : p.errand? = some errand) :
      Beat p (some errand) [] p (.pending (some errand))
  /-- A connect begins. -/
  | connect : Beat .down none [.status .connecting, .began .connect] .joining
      (.pending (some .connect))
  /-- A connect succeeds. -/
  | connected : Beat .joining (some .connect) [.ended .connect (.ok ()), .status .connected] .up
      (.ready (.ok ()))
  /-- A connect fails. -/
  | failed {p e} (hp : p.errand? = some .connect) (he : e ≠ .cancelled) :
      Beat p (some .connect) [.ended .connect (.error e), .status .disconnected] .down
        (.ready (.error e))
  /-- A connect that was cancelled, or says so, is to be undone. -/
  | undo {p r} (hp : p.errand? = some .connect)
      (hr : r = .error .cancelled ∨ (r = .ok () ∧ p.isAbandoned)) :
      Beat p (some .connect) [.ended .connect r, .status .disconnecting, .began .undo] .undoing
        (.pending (some .undo))
  /-- A connect that was cancelled is undone. -/
  | undone {r} : Beat .undoing (some .undo) [.ended .undo r, .status .disconnected] .down
      (.ready (.error .cancelled))
  /-- A disconnect has nothing to do, or leaves it to another. -/
  | ignored {p forced r} (h : p.status = .disconnected ∨ p.status = .disconnecting) :
      Beat p none [.asked forced] p (.ready r)
  /-- A disconnect meets a connect. -/
  | cancel {p} (h : p.status = .connecting) :
      Beat p none [.asked false, .status .disconnecting] (.abandoned true) (.pending none)
  /-- A forced disconnect meets a connect. -/
  | cancelForced {p} (h : p.status = .connecting) :
      Beat p none [.asked true] (.abandoned false) (.ready (.ok ()))
  /-- A disconnect begins. -/
  | leave {forced} :
      Beat .up none [.asked forced, .status .disconnecting, .began (.leaving forced)]
        (.leaving forced)
        (.pending (some (.leaving forced)))
  /-- A disconnect succeeds, or is forced and does not care. -/
  | left {forced r} (h : forced = true ∨ r = .ok ()) :
      Beat (.leaving forced) (some (.leaving forced))
        [.ended (.leaving forced) r, .status .disconnected] .down (.ready (.ok ()))
  /-- A disconnect fails. -/
  | stayed {e} : Beat (.leaving false) (some .disconnect)
      [.ended .disconnect (.error e), .status .connected]
      .up (.ready (.error e))
  /-- A grace period is over. -/
  | expired {p domain} : Beat p none [.expired domain] p (.pending none)

/-- What one action does in one poll: one beat, or several if the vendor answers at once. -/
inductive Stretch :
    Phase → Option Errand → List BearerEvent → Phase →
    Poll (Option Errand) (Except Error Unit) → Prop
  /-- The last beat. -/
  | last {p own es q out} : Beat p own es q out → Stretch p own es q out
  /-- A beat after which the action goes on. -/
  | more {p own es q own' es' r out} : Beat p own es q (.pending own') → Stretch q own' es' r out →
      Stretch p own (es ++ es') r out

/-- What happens to a bearer between two phases, beat after beat. -/
inductive Course : Phase → List BearerEvent → Phase → Prop
  /-- Nothing. -/
  | nil {p} : Course p [] p
  /-- A beat and what comes after it. -/
  | cons {p own es q out es' r} : Beat p own es q out → Course q es' r → Course p (es ++ es') r

/-- Courses that meet make one course. -/
theorem Course.append {p q r : Phase} {es es' : List BearerEvent} (h : Course p es q)
    (h' : Course q es' r) : Course p (es ++ es') r := by
  induction h with
  | nil => exact h'
  | cons hb _ ih => rw [List.append_assoc]; exact .cons hb (ih h')

/-- A stretch is a short course. -/
theorem Stretch.course {p q : Phase} {own : Option Errand} {es : List BearerEvent}
    {out : Poll (Option Errand) (Except Error Unit)} (h : Stretch p own es q out) :
    Course p es q := by
  induction h with
  | @last p own es q out hb => rw [← List.append_nil es]; exact .cons hb .nil
  | more hb _ ih => exact .cons hb ih

/-- Vendor calls are accounted for: those of the other actions are what they were, and of its own
the acting one has what it stands at. -/
theorem Beat.errand {p q : Phase} {own : Option Errand} {es : List BearerEvent}
    {out : Poll (Option Errand) (Except Error Unit)} {others : List Errand}
    (h : Beat p own es q out) (hp : p.errand?.toList = own.toList ++ others) :
    q.errand?.toList = out.next?.join.toList ++ others := by
  cases h with
  | rest hout =>
    -- it had no vendor call, and whatever it waits for is none
    have hnone : out.next?.join = none := by
      rcases out with (_ | errand) | r
      · rfl
      · exact absurd rfl (hout errand)
      · rfl
    rw [hnone, hp]
  | stay => exact hp
  | connected | undone | left => simpa [Phase.errand?, Poll.next?] using hp
  | stayed => simpa [Phase.errand?, Poll.next?, Errand.leaving] using hp
  | failed hc | undo hc => rw [hc] at hp; simpa [Phase.errand?, Poll.next?] using hp
  | cancel hs | cancelForced hs =>
    rcases Phase.status_connecting.mp hs with rfl | rfl <;> exact hp
  | ignored | expired | connect | leave => simpa [Phase.errand?, Poll.next?] using hp

/-- A stretch accounts for the vendor calls of its own party and leaves those of the others. -/
theorem Stretch.errand {p q : Phase} {own : Option Errand} {es : List BearerEvent}
    {out : Poll (Option Errand) (Except Error Unit)} {others : List Errand}
    (h : Stretch p own es q out) (hp : p.errand?.toList = own.toList ++ others) :
    q.errand?.toList = out.next?.join.toList ++ others := by
  induction h with
  | last hb => exact hb.errand hp
  | more hb _ ih => exact ih (hb.errand hp)

end Cellular
