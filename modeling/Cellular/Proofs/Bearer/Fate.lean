import Cellular.Proofs.Bearer.History
/-!
# The fate of a connect

A connect cannot be stopped while its vendor call is under way; it can only be told to undo what
comes of it.  What has happened since a connect began, and where it stands, is its `Fate`.  Beats of
its own and of others keep it one (`Fate.own`, `Fate.beside`), whoever may be acting, and from it
the history is read (`Fate.cancelled`, `Fate.kept`).

A fate is an inductive relation between what has happened since the connect began, the phase of the
bearer and where the connect stands.  It has a constructor for each stage: the vendor's connect is
under way, cancelled or not; the connect is being undone; it is over.  What happens is divided into
what the connect does and what others do beside it, and in both cases the beats that are possible
are few, given the stage.  What the history of a fate says is then a matter of reading lists of
events.
-/

namespace Cellular

/-! ## Reading what happens after a connect began

While the vendor's connect is under way, the events are quiet: others may ask for a disconnect, and
nothing else happens.  Each reading passes over quiet events, so it sees what comes after them. -/

/-- What happens that neither ends a vendor call, nor begins a disconnect, nor brings the bearer up
or down. -/
def BearerEvent.Quiet : BearerEvent → Prop
  | .status s => s = .connecting ∨ s = .disconnecting
  | .began errand => errand = .connect
  | .ended _ _ => False
  | .asked _ | .expired _ => True

/-- Whether an event is the end of a vendor's connect. -/
def BearerEvent.endsConnect : BearerEvent → Bool
  | .ended .connect _ => true
  | _ => false

/-- Whether an event is that a vendor's disconnect begins. -/
def BearerEvent.beginsDisconnect : BearerEvent → Bool
  | .began errand => errand ≠ .connect
  | _ => false

/-- What came of the vendor's connect, if an event is its end. -/
def BearerEvent.connectResult? : BearerEvent → Option (Except Error Unit)
  | .ended .connect r => some r
  | _ => none

/-- What happens until the vendor's connect is over. -/
def whileConnecting (es : List BearerEvent) : List BearerEvent := es.takeWhile (!·.endsConnect)

/-- What came of the first vendor's connect that is over. -/
def connectResult? (es : List BearerEvent) : Option (Except Error Unit) :=
  es.findSome? BearerEvent.connectResult?

/-- How many vendor's disconnects begin. -/
def disconnects (es : List BearerEvent) : Nat := es.countP BearerEvent.beginsDisconnect

/-- How many vendor's disconnects a connect that was cancelled takes, given what came of the
vendor's connect so far. -/
def undoings : Option (Except Error Unit) → Nat
  | some (.ok ()) | some (.error .cancelled) => 1
  | _ => 0

/-- It ends with the end of the vendor's connect. -/
theorem whileConnecting_cons (e : BearerEvent) (es : List BearerEvent) :
    whileConnecting (e :: es) = if e.endsConnect then [] else e :: whileConnecting es := by
  cases he : e.endsConnect <;> simp [whileConnecting, he]

theorem connectResult?_cons (e : BearerEvent) (es : List BearerEvent) :
    connectResult? (e :: es) = e.connectResult?.or (connectResult? es) := by
  cases he : e.connectResult? <;> simp [connectResult?, he]

theorem disconnects_nil : disconnects [] = 0 := rfl

theorem disconnects_cons (e : BearerEvent) (es : List BearerEvent) :
    disconnects (e :: es) = disconnects es + if e.beginsDisconnect then 1 else 0 := List.countP_cons

/-- A disconnect that was asked for in time stays so. -/
theorem isAsked_whileConnecting_append {es : List BearerEvent} (later : List BearerEvent)
    (h : isAsked (whileConnecting es) = true) : isAsked (whileConnecting (es ++ later)) = true := by
  induction es with
  | nil => cases h
  | cons e es ih =>
    rw [List.cons_append, whileConnecting_cons]
    rw [whileConnecting_cons] at h
    -- while nothing has ended the connect, later events only lengthen this part
    cases he : e.endsConnect with
    | true => rw [he] at h; cases h
    | false =>
      rw [he] at h
      rcases Bool.or_eq_true_iff.mp h with ha | ha
      · exact Bool.or_eq_true_iff.mpr (.inl ha)
      · exact Bool.or_eq_true_iff.mpr (.inr (ih ha))

section Quiet

variable {es : List BearerEvent} (hes : ∀ e ∈ es, e.Quiet)
include hes

/-- Quiet events come before the end of the vendor's connect. -/
theorem whileConnecting_quiet_append (later : List BearerEvent) :
    whileConnecting (es ++ later) = es ++ whileConnecting later := by
  refine List.takeWhile_append_of_pos fun e he => ?_
  have hq := hes e he
  cases e with
  | ended errand r => exact absurd hq id
  | _ => rfl

/-- Quiet events are no end of a vendor's connect. -/
theorem connectResult?_quiet : connectResult? es = none := by
  refine List.findSome?_eq_none_iff.mpr fun e he => ?_
  have hq := hes e he
  cases e with
  | ended errand r => exact absurd hq id
  | _ => rfl

/-- So they are passed over in looking for it. -/
theorem connectResult?_quiet_append (later : List BearerEvent) :
    connectResult? (es ++ later) = connectResult? later := by
  have hnone : es.findSome? BearerEvent.connectResult? = none := connectResult?_quiet hes
  rw [connectResult?, List.findSome?_append, hnone]
  rfl

/-- Quiet events do not bring the bearer up. -/
theorem connected_not_mem_quiet : .status .connected ∉ es := by
  intro h
  rcases hes _ h with h | h <;> cases h

/-- Nor do they bring it down. -/
theorem disconnected_not_mem_quiet : .status .disconnected ∉ es := by
  intro h
  rcases hes _ h with h | h <;> cases h

/-- So they come before the bearer is down. -/
theorem untilDown_quiet_append (later : List BearerEvent) :
    untilDown (es ++ later) = es ++ untilDown later := by
  refine List.takeWhile_append_of_pos fun e he => ?_
  cases e with
  | status s => rcases hes _ he with rfl | rfl <;> rfl
  | _ => rfl

/-- Among quiet events the bearer is never down. -/
theorem untilDown_quiet : untilDown es = es := by
  have h := untilDown_quiet_append hes []
  rw [List.append_nil] at h
  rw [h]
  exact List.append_nil es

/-- With quiet events no disconnect begins. -/
theorem disconnects_quiet : disconnects es = 0 := by
  refine List.countP_eq_zero.mpr fun e he => ?_
  cases e with
  | began errand =>
    obtain rfl : errand = .connect := hes _ he
    simp [BearerEvent.beginsDisconnect]
  | _ => simp [BearerEvent.beginsDisconnect]

/-- So they are passed over in counting. -/
theorem disconnects_quiet_append (later : List BearerEvent) :
    disconnects (es ++ later) = disconnects later := by
  have hnone : es.countP BearerEvent.beginsDisconnect = 0 := disconnects_quiet hes
  rw [disconnects, List.countP_append, hnone, Nat.zero_add]
  rfl

end Quiet

/-! ## The fate of a connect

The stages are gone through in one direction only, so the relation needs no measure; a stage may be
left by a beat of the connect, and between two of its beats others may do whatever the phase allows
them. -/

/-- What has happened since a connect began, the bearer's phase, and where the connect stands. -/
inductive Fate : List BearerEvent → Phase → Poll (Option Errand) (Except Error Unit) → Prop
  /-- The vendor's connect is under way. -/
  | joining {es p} (hes : ∀ e ∈ es, e.Quiet) (hp : p.errand? = some .connect)
      (ha : p.isAbandoned = isAsked es) : Fate es p (.pending (some .connect))
  /-- It is being undone. -/
  | undoing {es r es'} (hes : ∀ e ∈ es, e.Quiet) (hes' : ∀ e ∈ es', e.Quiet)
      (hr : r = .error .cancelled ∨ (r = .ok () ∧ isAsked es)) :
      Fate (es ++ .ended .connect r :: .status .disconnecting :: .began .undo :: es') .undoing
        (.pending (some .undo))
  /-- It succeeded. -/
  | connected {es later q} (hes : ∀ e ∈ es, e.Quiet) (ha : isAsked es = false) :
      Fate (es ++ .ended .connect (.ok ()) :: .status .connected :: later) q (.ready (.ok ()))
  /-- It failed. -/
  | failed {es e later q} (hes : ∀ e ∈ es, e.Quiet) (he : e ≠ .cancelled) :
      Fate (es ++ .ended .connect (.error e) :: .status .disconnected :: later) q
        (.ready (.error e))
  /-- It was undone. -/
  | undone {es r es' r' later q} (hes : ∀ e ∈ es, e.Quiet) (hes' : ∀ e ∈ es', e.Quiet)
      (hr : r = .error .cancelled ∨ (r = .ok () ∧ isAsked es)) :
      Fate (es ++ .ended .connect r :: .status .disconnecting :: .began .undo ::
        (es' ++ .ended .undo r' :: .status .disconnected :: later)) q (.ready (.error .cancelled))

theorem Fate.start :
    Fate [.status .connecting, .began .connect] .joining (.pending (some .connect)) :=
  .joining (by simp [BearerEvent.Quiet]) rfl rfl

/-- What happens after a connect is over does not touch its fate. -/
theorem Fate.later {es es' : List BearerEvent} {p q : Phase} {r : Except Error Unit}
    (h : Fate es p (.ready r)) : Fate (es ++ es') q (.ready r) := by
  cases h with
  | connected hes ha => rw [List.append_assoc]; exact .connected hes ha
  | failed hes he => rw [List.append_assoc]; exact .failed hes he
  | undone hes hes' hr =>
    simp only [List.append_assoc, List.cons_append]
    exact .undone hes hes' hr

/-- A beat of the connect itself. -/
theorem Fate.own_beat {es es' : List BearerEvent} {p q : Phase} {own : Option Errand}
    {out : Poll (Option Errand) (Except Error Unit)} (h : Fate es p (.pending own))
    (hb : Beat p own es' q out) : Fate (es ++ es') q out := by
  generalize hout : Poll.pending own = o at h
  cases h with
  | joining hes hp ha =>
    -- the beats of an action with a vendor's connect under way
    obtain rfl : own = some .connect := by simpa using hout
    generalize ho : some Errand.connect = own at hb
    cases hb with
    | rest | connect | ignored | cancel | cancelForced | leave | expired => cases ho
    | stay =>
      rw [List.append_nil, ← ho]
      exact .joining hes hp ha
    | connected => exact .connected hes ha.symm
    | failed _ he => exact .failed hes he
    | undo _ hr => exact .undoing hes (by simp) (ha ▸ hr)
    | undone => cases ho
    | @left forced => cases forced <;> cases ho
    | stayed => cases ho
  | undoing hes hes' hr =>
    -- there is only one way on from here: the vendor's disconnect ends
    obtain rfl : own = some .undo := by simpa using hout
    generalize ho : some Errand.undo = own at hb
    generalize hp : Phase.undoing = p at hb
    cases hb with
    | rest | connect | ignored | cancel | cancelForced | leave | expired => cases ho
    | stay =>
      rw [List.append_nil, ← ho, ← hp]
      exact .undoing hes hes' hr
    | undone =>
      simp only [List.append_assoc, List.cons_append]
      exact .undone hes hes' hr
    | connected | failed | undo | stayed => cases ho
    | left => cases hp
  | _ => cases hout

/-- A beat of another action while the vendor's connect is under way: it may cancel the connect, and
the phase tells so. -/
theorem Beat.beside_connect {es : List BearerEvent} {p q : Phase}
    {out : Poll (Option Errand) (Except Error Unit)} (hb : Beat p none es q out)
    (hp : p.errand? = some .connect) :
    (∀ e ∈ es, e.Quiet) ∧ q.errand? = some .connect ∧
      q.isAbandoned = (p.isAbandoned || isAsked es) ∧
      ∀ errand, out ≠ .pending (some errand) := by
  cases hb with
  | rest hout => exact ⟨by simp, hp, by simp [isAsked], hout⟩
  | connect | leave => cases hp
  | ignored hs =>
    -- it found the bearer on its way down already, so somebody cancelled the connect before
    have ha : p.isAbandoned = true := by
      rcases Phase.errand_connect.mp hp with rfl | ⟨told, rfl⟩
      · simp [Phase.status] at hs
      · rfl
    exact ⟨by simp [BearerEvent.Quiet], hp, by simp [ha], by simp⟩
  | cancel | cancelForced =>
    exact ⟨by simp [BearerEvent.Quiet], rfl,
      by simp [Phase.isAbandoned, isAsked, BearerEvent.isAsked], by simp⟩
  | expired =>
    exact ⟨by simp [BearerEvent.Quiet], hp, by simp [isAsked, BearerEvent.isAsked], by simp⟩

/-- A beat of another action while a connect is being undone changes nothing. -/
theorem Beat.beside_undo {es : List BearerEvent} {q : Phase}
    {out : Poll (Option Errand) (Except Error Unit)} (hb : Beat .undoing none es q out) :
    (∀ e ∈ es, e.Quiet) ∧ q = .undoing ∧ ∀ errand, out ≠ .pending (some errand) := by
  cases hb with
  | rest hout => exact ⟨by simp, rfl, hout⟩
  | ignored | expired => exact ⟨by simp [BearerEvent.Quiet], rfl, by simp⟩
  | cancel hs | cancelForced hs => cases hs

/-- A beat of another action, while the connect is waiting for its vendor call. -/
theorem Fate.beside_beat {es es' : List BearerEvent} {p q : Phase} {own : Option Errand}
    {out : Poll (Option Errand) (Except Error Unit)} (h : Fate es p (.pending own))
    (hb : Beat p none es' q out) :
    Fate (es ++ es') q (.pending own) ∧ ∀ errand, out ≠ .pending (some errand) := by
  generalize hout : Poll.pending own = o at h
  cases h with
  | joining hes hp ha =>
    obtain ⟨hes', hq, hqa, ho⟩ := hb.beside_connect hp
    refine ⟨.joining ?_ hq ?_, ho⟩
    · intro e he
      exact (List.mem_append.mp he).elim (hes e) (hes' e)
    · rw [hqa, ha, isAsked_append]
  | @undoing es₁ r es₂ hes hes₂ hr =>
    obtain ⟨hes', rfl, ho⟩ := hb.beside_undo
    refine ⟨?_, ho⟩
    simp only [List.append_assoc, List.cons_append]
    refine .undoing hes ?_ hr
    intro e he
    exact (List.mem_append.mp he).elim (hes₂ e) (hes' e)
  | _ => cases hout

/-- A stretch of the connect itself. -/
theorem Fate.own {es es' : List BearerEvent} {p q : Phase} {own : Option Errand}
    {out : Poll (Option Errand) (Except Error Unit)} (h : Fate es p (.pending own))
    (ht : Stretch p own es' q out) : Fate (es ++ es') q out := by
  induction ht generalizing es with
  | last hb => exact h.own_beat hb
  | more hb _ ih =>
    rw [← List.append_assoc]
    exact ih (h.own_beat hb)

/-- A stretch of another action, while the connect is waiting for its vendor call. -/
theorem Fate.beside {es es' : List BearerEvent} {p q : Phase} {own other : Option Errand}
    {out : Poll (Option Errand) (Except Error Unit)} (h : Fate es p (.pending own))
    (ht : Stretch p other es' q out) (ho : other = none) : Fate (es ++ es') q (.pending own) := by
  induction ht generalizing es with
  | last hb => subst ho; exact (h.beside_beat hb).1
  | @more _ _ _ _ other' _ _ _ hb _ ih =>
    subst ho
    obtain ⟨hf, hout⟩ := h.beside_beat hb
    rw [← List.append_assoc]
    refine ih hf ?_
    cases other' with
    | none => rfl
    | some errand => exact absurd rfl (hout errand)

/-- A connect that is not over waits for the vendor call of the phase. -/
theorem Fate.errand {es : List BearerEvent} {p : Phase} {own : Option Errand}
    (h : Fate es p (.pending own)) :
    ∃ errand, own = some errand ∧ p.errand? = some errand ∧
    (errand = .connect ∨ errand = .undo) := by
  generalize hout : Poll.pending own = o at h
  cases h with
  | joining _ hp _ => exact ⟨.connect, by simpa using hout, hp, .inl rfl⟩
  | undoing => exact ⟨.undo, by simpa using hout, rfl, .inr rfl⟩
  | _ => cases hout

/-- A connect that was cancelled, as its history tells. -/
theorem Fate.cancelled {es : List BearerEvent} {p : Phase}
    {out : Poll (Option Errand) (Except Error Unit)} (h : Fate es p out)
    (ha : isAsked (whileConnecting es) = true) :
    .status .connected ∉ untilDown es ∧
    (.status .disconnected ∈ es ↔ ∃ e, out = .ready (.error e)) ∧
    out ≠ .ready (.ok ()) ∧
    (.status .disconnected ∈ es → (connectResult? es).isSome) ∧
    disconnects (untilDown es) = undoings (connectResult? es) := by
  cases h with
  | joining hes _ _ =>
    have hdown := disconnected_not_mem_quiet hes
    rw [untilDown_quiet hes, disconnects_quiet hes, connectResult?_quiet hes]
    exact ⟨connected_not_mem_quiet hes, by simp [hdown], by simp, fun h => absurd h hdown, rfl⟩
  | @undoing es₁ r es₂ hes hes₂ hr =>
    have hdown : .status .disconnected ∉
        es₁ ++ .ended .connect r :: .status .disconnecting :: .began .undo :: es₂ := by
      simp [disconnected_not_mem_quiet hes, disconnected_not_mem_quiet hes₂]
    have hone : undoings (some r) = 1 := by
      rcases hr with rfl | ⟨rfl, _⟩ <;> rfl
    have huntil :
      untilDown (es₁ ++ .ended .connect r :: .status .disconnecting :: .began .undo :: es₂) =
        es₁ ++ .ended .connect r :: .status .disconnecting :: .began .undo :: es₂ := by
      simp [untilDown_quiet_append hes, untilDown_cons, BearerEvent.status?, untilDown_quiet hes₂]
    refine ⟨?_, by simp [hdown], by simp, fun h => absurd h hdown, ?_⟩
    · rw [huntil]
      simp [connected_not_mem_quiet hes, connected_not_mem_quiet hes₂]
    · rw [huntil, connectResult?_quiet_append hes, connectResult?_cons]
      simp [disconnects_quiet_append hes, disconnects_cons, disconnects_quiet hes₂,
        BearerEvent.beginsDisconnect, BearerEvent.connectResult?, hone]
  | @connected es₁ later _ hes hna =>
    -- nobody asked in time, against what is assumed
    rw [whileConnecting_quiet_append hes, whileConnecting_cons] at ha
    simp [BearerEvent.endsConnect, hna] at ha
  | @failed es₁ e later _ hes he =>
    have huntil : untilDown (es₁ ++ .ended .connect (.error e) :: .status .disconnected :: later) =
        es₁ ++ [.ended .connect (.error e)] := by
      simp [untilDown_quiet_append hes, untilDown_cons, BearerEvent.status?]
    have hnone : undoings (some (.error e)) = 0 := by
      cases e with
      | cancelled => exact absurd rfl he
      | _ => rfl
    refine ⟨?_, by simp, by simp, fun _ => ?_, ?_⟩
    · rw [huntil]
      simp [connected_not_mem_quiet hes]
    · rw [connectResult?_quiet_append hes, connectResult?_cons]
      rfl
    · rw [huntil, connectResult?_quiet_append hes, connectResult?_cons]
      simp [disconnects_quiet_append hes, disconnects_cons, disconnects_nil,
        BearerEvent.beginsDisconnect, BearerEvent.connectResult?, hnone]
  | @undone es₁ r es₂ r' later _ hes hes₂ hr =>
    have hone : undoings (some r) = 1 := by
      rcases hr with rfl | ⟨rfl, _⟩ <;> rfl
    have huntil : untilDown (es₁ ++ .ended .connect r :: .status .disconnecting :: .began .undo ::
        (es₂ ++ .ended .undo r' :: .status .disconnected :: later)) =
        es₁ ++ .ended .connect r :: .status .disconnecting :: .began .undo ::
          (es₂ ++ [.ended .undo r']) := by
      simp [untilDown_quiet_append hes, untilDown_cons, BearerEvent.status?,
        untilDown_quiet_append hes₂]
    refine ⟨?_, by simp, by simp, fun _ => ?_, ?_⟩
    · rw [huntil]
      simp [connected_not_mem_quiet hes, connected_not_mem_quiet hes₂]
    · rw [connectResult?_quiet_append hes, connectResult?_cons]
      rfl
    · rw [huntil, connectResult?_quiet_append hes, connectResult?_cons]
      simp [disconnects_quiet_append hes, disconnects_cons, disconnects_quiet_append hes₂,
        disconnects_nil, BearerEvent.beginsDisconnect, BearerEvent.connectResult?, hone]

/-- A connect that was not cancelled and succeeded, as its history tells. -/
theorem Fate.kept {es : List BearerEvent} {p : Phase}
    {out : Poll (Option Errand) (Except Error Unit)} (h : Fate es p out)
    (ha : isAsked (whileConnecting es) = false) (hr : connectResult? es = some (.ok ())) :
    out = .ready (.ok ()) ∧ disconnects (whileConnecting es) = 0 ∧
    ∃ later, es =
      whileConnecting es ++ .ended .connect (.ok ()) :: .status .connected :: later := by
  cases h with
  | joining hes _ _ => simp [connectResult?_quiet hes] at hr
  | @undoing es₁ r es₂ hes _ hor | @undone es₁ r es₂ _ _ _ hes _ hor =>
    rw [connectResult?_quiet_append hes, connectResult?_cons] at hr
    -- a connect that succeeded is undone only if somebody asked in time
    obtain rfl : r = .ok () := Option.some.inj hr
    rw [whileConnecting_quiet_append hes, whileConnecting_cons] at ha
    simp [BearerEvent.endsConnect] at ha
    simp [ha] at hor
  | @connected es₁ later _ hes _ =>
    have hwhile : whileConnecting (es₁ ++ .ended .connect (.ok ()) :: .status .connected :: later) =
        es₁ := by
      simp [whileConnecting_quiet_append hes, whileConnecting_cons, BearerEvent.endsConnect]
    rw [hwhile]
    exact ⟨rfl, disconnects_quiet hes, later, rfl⟩
  | failed hes _ =>
    rw [connectResult?_quiet_append hes, connectResult?_cons] at hr
    simp [BearerEvent.connectResult?] at hr

end Cellular
