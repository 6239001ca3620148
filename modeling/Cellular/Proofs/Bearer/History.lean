import Cellular.Proofs.Bearer.Phase
/-!
# Reading a history

What a bearer's history tells: which statuses were set (`statuses`), hence how far the bearer is
(`statusAfter`), and what the vendor call is for that is under way (`flightAfter`).  Along a course
these readings are what the phases say (`Course.status`, `Course.flight`).

A reading is a fold over the events or a filter of them, so it is known of a history that is put
together from two.  Each is compared with the phases beat by beat; for a course it follows by
induction, since a course is beats one after another.
-/

namespace Cellular

/-! ## Readings

A reading goes along the events of a history and keeps one thing in mind: the last status, the
errand of the vendor call under way, or whether a disconnect was asked for.  Each of them splits
at any point of the history, which is what the lemmas of this section are for. -/

/-- The status that an event sets, if it sets one. -/
def BearerEvent.status? : BearerEvent → Option BearerStatus
  | .status s => some s
  | _ => none

/-- What the vendor call is for that is under way after an event, given what it was before. -/
def BearerEvent.flight (before : Option Errand) : BearerEvent → Option Errand
  | .began errand => some errand
  | .ended _ _ => none
  | _ => before

/-- Whether an event is that a disconnect is asked for. -/
def BearerEvent.isAsked : BearerEvent → Bool
  | .asked _ => true
  | _ => false

/-- No vendor call begins or ends. -/
def BearerEvent.IsAside : BearerEvent → Prop
  | .began _ | .ended _ _ => False
  | .status _ | .asked _ | .expired _ => True

/-- The statuses that are set, in order. -/
def statuses (es : List BearerEvent) : List BearerStatus := es.filterMap BearerEvent.status?

/-- How far a bearer is that was down at first. -/
def statusAfter (es : List BearerEvent) : BearerStatus :=
  es.foldl (fun before e => e.status?.getD before) .disconnected

/-- What the vendor call is for that is under way, when none was at first. -/
def flightAfter (es : List BearerEvent) : Option Errand := es.foldl BearerEvent.flight none

/-- Whether a disconnect is asked for. -/
def isAsked (es : List BearerEvent) : Bool := es.any BearerEvent.isAsked

/-- What happens until the bearer is down. -/
def untilDown (es : List BearerEvent) : List BearerEvent :=
  es.takeWhile fun e => e.status? ≠ some .disconnected

/-- It ends where the bearer is down. -/
theorem untilDown_cons (e : BearerEvent) (es : List BearerEvent) :
    untilDown (e :: es) = if e.status? = some .disconnected then [] else e :: untilDown es := by
  by_cases he : e.status? = some .disconnected
  · simp [untilDown, he]
  · simp [untilDown, he]

theorem isAsked_append (es es' : List BearerEvent) :
    isAsked (es ++ es') = (isAsked es || isAsked es') :=
  List.any_append

/-- The statuses of two parts are those of the one and those of the other. -/
theorem statuses_append (es es' : List BearerEvent) :
    statuses (es ++ es') = statuses es ++ statuses es' := List.filterMap_append

/-! ## What the phases say

A phase says how far the bearer is and what its vendor call is for; so do the readings of the
history.  Beat for beat, and hence along every course, they say the same. -/

/-- The events of a beat lead to the status of the phase that it leaves. -/
theorem Beat.status {p q : Phase} {own : Option Errand} {es : List BearerEvent}
    {out : Poll (Option Errand) (Except Error Unit)} (h : Beat p own es q out) :
    es.foldl (fun before e => e.status?.getD before) p.status = q.status := by
  cases h with
  | cancelForced hs =>
    rcases Phase.status_connecting.mp hs with rfl | rfl <;> rfl
  | _ => rfl

/-- They tell of the vendor call of that phase. -/
theorem Beat.flight {p q : Phase} {own : Option Errand} {es : List BearerEvent}
    {out : Poll (Option Errand) (Except Error Unit)} (h : Beat p own es q out) :
    es.foldl BearerEvent.flight p.errand? = q.errand? := by
  cases h with
  | cancel hs | cancelForced hs =>
    rcases Phase.status_connecting.mp hs with rfl | rfl <;> rfl
  | _ => rfl

/-- So it is along a course. -/
theorem Course.status {p q : Phase} {es : List BearerEvent} (h : Course p es q) :
    es.foldl (fun before e => e.status?.getD before) p.status = q.status := by
  induction h with
  | nil => rfl
  | cons hb _ ih => rw [List.foldl_append, hb.status, ih]

/-- So it is with the vendor call. -/
theorem Course.flight {p q : Phase} {es : List BearerEvent} (h : Course p es q) :
    es.foldl BearerEvent.flight p.errand? = q.errand? := by
  induction h with
  | nil => rfl
  | cons hb _ ih => rw [List.foldl_append, hb.flight, ih]

/-- A course that begins with a bearer that is down ends with the status that its events tell. -/
theorem Course.statusAfter {q : Phase} {es : List BearerEvent} (h : Course .down es q) :
    statusAfter es = q.status := h.status

theorem Course.flightAfter {q : Phase} {es : List BearerEvent} (h : Course .down es q) :
    flightAfter es = q.errand? := h.flight

end Cellular
