import Cellular.Proofs.Bench.Halting
import Cellular.Proofs.Procedure.Runs
import Cellular.Vendor.Samsung
/-!
# What comes of a dial

A dial takes a seat on the board, sends at most four commands and waits for a report on its context.
Its course is read off the bench's history: what was sent, every look at the token, and the codes
that were published since it sat down.  Together with the answers in the script they decide what it
ends in: either the context is up (`Bearer.Reported`), or there is a reason for the failure
(`Bearer.Fails`).

The commands go out one after another (`Bearer.Sent`).  With the third of them the wait for the
report begins (`Bearer.Passed`), whose end is the law of joined commands, read for the codes since
the seat was taken (`Bearer.Passed.joined`).

The account is built up in the order in which a dial does things, and at each point it is said what
has been sent, what the looks at the token were, and what is known of reports: `Sent` for the
commands so far, `Passed` when the activation is due, `Decided` when a report has come.  Beside
that, a dial may fail at every point, and `Failed` says what it then leaves behind.  Each lemma goes
from one of these to the next, or to a failure.

Who gives up the seat, and when, makes no difference to any of it.  So the account is first given
for what is done on the seat, and the lemmas named `unseated` take it to the bench that the dial was
begun on.
-/

namespace Cellular.Samsung.Bearer

open Operation

/-! ## Commands and reports

What a dial ends in is said in terms of the history alone.  Reports count from the beginning of the
dial, since the seat is taken before anything is sent; that an activation was taken in time is a
condition on its answer and the moment of that. -/

/-- `%IPDPCFG`. -/
def configuration (p : Bearer) : Command Unit := .configureContext p.profile p.user p.password

/-- `%IPDPACT` with 0. -/
def deactivation (p : Bearer) : Command Unit := .setContextActivation p.profile 0

/-- `%IPDPACT` with 1. -/
def activation (p : Bearer) : Command Unit := .setContextActivation p.profile 1

/-- The commands of a dial, in their order. -/
def commands (p : Bearer) : List Request :=
  [p.configuration.request, p.deactivation.request, p.activation.request,
    (Command.extendedError).request]

/-- Whether a code reports on an activation of the context. -/
def isReport (p : Bearer) : Urc → Bool := reports p.profile [.activated, .activationFailed]

/-- The first report on an activation of the context. -/
def report? (p : Bearer) (es : Chronicle) : Option (Nat × Urc) :=
  es.codes.find? fun c => p.isReport c.2

/-- What the modem names as the cause of a failed activation, if it is asked and can be understood.
`turns` is what the far end does on the commands of the dial. -/
def cause (turns : Nat → Turn) (es : Chronicle) : EquipmentError :=
  match (es.looks.map Prod.snd)[3]?, (Command.extendedError).outcome (turns 3).answer with
  | some false, .ok cause => activationError cause
  | _, _ => .callSetupFailed

/-- The activation command was sent, at `sent`. -/
structure Activating (p : Bearer) (turns : Nat → Turn) (es : Chronicle) (sent : Nat) : Prop where
  /-- The token was not set when the first three commands were due to be sent. -/
  looks : (es.looks.map Prod.snd).take 3 = [false, false, false]
  configured : p.configuration.outcome (turns 0).answer = .ok ()
  /-- A context that was not active need not be deactivated. -/
  deactivated : p.deactivation.outcome (turns 1).answer = .ok () ∨
    ∃ e, p.deactivation.outcome (turns 1).answer = .error e ∧ e.isCommandFailure = true
  request : es.requests[2]? = some (sent, p.activation.request)

/-- It was taken in time, and the first report on the context came in time and says `state`. -/
structure Reported (p : Bearer) (turns : Nat → Turn) (es : Chronicle) (sent : Nat)
    (state : ContextState) : Prop
    extends Activating p turns es sent where
  activated : p.activation.outcome (turns 2).answer = .ok ()
  answered : (turns 2).duration ≤ p.completion
  reported : ∃ t, p.report? es = some (t, .context p.profile state) ∧ t ≤ sent + p.completion

/-- Why a dial that has ended at `now` failed. -/
inductive Fails (p : Bearer) (turns : Nat → Turn) (es : Chronicle) (now : Nat) : Error → Prop where
  /-- The token was set when one of the first three commands was due to be sent. -/
  | cancelled (k : Nat) (hk : k < 3) (hlooks : es.looks.map Prod.snd =
      List.replicate k false ++ [true])
    (hsent : es.requests.length = k) : Fails p turns es now .cancelled
  | unconfigured {e : Error} (h : p.configuration.outcome (turns 0).answer = .error e)
    (hsent : es.requests.length = 1) : Fails p turns es now e
  | undeactivated {e : Error} (h : p.deactivation.outcome (turns 1).answer = .error e)
    (hhard : e.isCommandFailure = false) (hsent : es.requests.length = 2) : Fails p turns es now e
  | unactivated {e : Error} {sent : Nat} (hsent : p.Activating turns es sent)
    (h : p.activation.outcome (turns 2).answer = .error e)
    (hanswered : (turns 2).duration ≤ p.completion)
    (hnow : now = sent + (turns 2).duration) : Fails p turns es now e
  /-- The bound was reached without an answer or without a report. -/
  | timedOut {sent : Nat} (hsent : p.Activating turns es sent)
    (hmissing : p.completion < (turns 2).duration ∨ p.report? es = none)
    (hnow : now = sent + p.completion) :
    Fails p turns es now (.operationTimeout "Timed out waiting for connection to complete")
  /-- The modem reported that the activation failed. -/
  | refused {sent : Nat} (h : p.Reported turns es sent .activationFailed) :
    Fails p turns es now (.equipment (cause turns es))

variable {p p' : Bearer} {turns : Nat → Turn} {b b' b₁ b₂ : Bench} {es fs : Chronicle} {sent : Nat}
  {state : ContextState}

/-- A report says that the context is up, or that the activation failed. -/
theorem isReport_eq_true {code : Urc} (h : p.isReport code = true) :
    code = .context p.profile .activated ∨ code = .context p.profile .activationFailed := by
  cases code with
  | context cid state =>
    simp only [isReport, reports, Bool.and_eq_true, decide_eq_true_eq, List.contains_eq_mem,
      List.mem_cons, List.not_mem_nil, or_false] at h
    obtain ⟨rfl, rfl | rfl⟩ := h
    · exact .inl rfl
    · exact .inr rfl
  | _ => simp [isReport, reports] at h

theorem report?_append (es fs : Chronicle) :
    p.report? (es ++ fs) = (p.report? es).or (p.report? fs) := by
  rw [report?, Chronicle.codes_append, List.find?_append]
  rfl

theorem report?_append_of_some {r : Nat × Urc} (h : p.report? es = some r) (fs : Chronicle) :
    p.report? (es ++ fs) = some r := by
  rw [report?_append, h]
  rfl

/-- What happens afterwards makes no difference. -/
theorem Activating.append (h : p.Activating turns es sent) (fs : Chronicle) :
    p.Activating turns (es ++ fs) sent := by
  refine ⟨?_, h.configured, h.deactivated, ?_⟩
  · have hlen : 3 ≤ (es.looks.map Prod.snd).length := by
      have := congrArg List.length h.looks
      simp only [List.length_take, List.length_cons, List.length_nil] at this
      omega
    rw [Chronicle.looks_append, List.map_append, List.take_append_of_le_length hlen, h.looks]
  · rw [Chronicle.requests_append, List.getElem?_append_left
      (List.getElem?_eq_some_iff.mp h.request).1, h.request]

/-- What happens afterwards makes no difference to a report. -/
theorem Reported.append (h : p.Reported turns es sent state) (fs : Chronicle) :
    p.Reported turns (es ++ fs) sent state := by
  obtain ⟨t, hreport, ht⟩ := h.reported
  exact ⟨h.toActivating.append fs, h.activated, h.answered, t,
    report?_append_of_some hreport fs, ht⟩

/-- There is one first report. -/
theorem report_unique {t t' : Nat} {state' : ContextState}
    (h : p.report? es = some (t, .context p.profile state))
    (h' : p.report? es = some (t', .context p.profile state')) : state = state' := by
  have heq := Option.some.inj (h.symm.trans h')
  simp only [Prod.mk.injEq, Urc.context.injEq, true_and] at heq
  exact heq.2

/-- A first report says one thing. -/
theorem Reported.state_unique {sent' : Nat} {state' : ContextState}
    (h : p.Reported turns es sent state) (h' : p.Reported turns es sent' state') :
    state = state' := by
  obtain ⟨t, hreport, -⟩ := h.reported
  obtain ⟨t', hreport', -⟩ := h'.reported
  exact report_unique hreport hreport'

/-- A dial that failed although its activation was taken in time and there was a report on the
context failed because of what the report says. -/
theorem Fails.of_report {now t : Nat} {e : Error} (h : p.Fails turns es now e)
    (hthree : 2 < es.requests.length) (hactivated : p.activation.outcome (turns 2).answer = .ok ())
    (hanswered : (turns 2).duration ≤ p.completion)
    (hreport : p.report? es = some (t, .context p.profile state)) :
    state = .activationFailed ∧ e = .equipment (cause turns es) := by
  -- three requests and their answers rule out the failures before the report
  cases h with
  | cancelled k hk _ hsent => omega
  | unconfigured _ hsent => omega
  | undeactivated _ _ hsent => omega
  | unactivated _ h => cases h.symm.trans hactivated
  | timedOut _ hmissing =>
    rcases hmissing with hlate | hnone
    · exact absurd hanswered (Nat.not_le.mpr hlate)
    · cases hnone.symm.trans hreport
  | refused h =>
    obtain ⟨t', hreport', -⟩ := h.reported
    exact ⟨report_unique hreport hreport', rfl⟩

/-- A dial that failed in spite of a report failed because the report says so. -/
theorem Fails.of_reported {now : Nat} {e : Error} (h : p.Fails turns es now e)
    (hreported : p.Reported turns es sent state) :
    state = .activationFailed ∧ e = .equipment (cause turns es) := by
  obtain ⟨t, hreport, -⟩ := hreported.reported
  exact h.of_report (List.getElem?_eq_some_iff.mp hreported.request).1 hreported.activated
    hreported.answered hreport

/-! ## The first two commands

The context is configured, and what may be left of an earlier connection is taken down.  Both are
watched steps: the token is looked at before each, and the second is soft. -/

/-- What a dial that has failed left behind. -/
structure Failed (p : Bearer) (b b' : Bench) (es : Chronicle) (e : Error) : Prop where
  grows : b.Grows b' es
  requests : es.requests.map Prod.snd <+: p.commands
  watched : es.Watched
  fails : p.Fails b.turnAt es b'.now e

/-- The first `k` commands of a dial have been sent and answered. -/
structure Sent (p : Bearer) (b b' : Bench) (es : Chronicle) (k : Nat) : Prop where
  grows : b.Grows b' es
  requests : es.requests.map Prod.snd = p.commands.take k
  looks : es.looks.map Prod.snd = List.replicate k false
  watched : es.Watched
  script : b'.script = b.script.drop k

/-- At the beginning nothing has been sent. -/
theorem Sent.none (p : Bearer) (b : Bench) : p.Sent b b [] 0 :=
  ⟨.refl b, rfl, rfl, .of_requests rfl, rfl⟩

section

variable {k : Nat}

/-- One more command has been sent and answered. -/
theorem Sent.next {r : Request} (h : p.Sent b b₁ es k) (hr : p.commands[k]? = some r)
    (hfs : b₁.Exchanged r b₂ fs) :
    p.Sent b b₂ (es ++ fs) (k + 1) := by
  refine ⟨h.grows.trans hfs.keeps.toGrows, ?_, ?_, h.watched.append hfs.watched, ?_⟩
  · rw [Chronicle.requests_append, List.map_append, h.requests, hfs.requests, List.take_add_one, hr]
    rfl
  · rw [Chronicle.looks_append, List.map_append, h.looks, hfs.looks, List.replicate_succ']
  · rw [hfs.script, h.script, List.tail_drop]

/-- What the far end does on the next command. -/
theorem Sent.turn (h : p.Sent b b' es k) : b'.turn = b.turnAt k := Bench.turnAt_drop h.script 0

theorem Sent.length (h : p.Sent b b' es k) (hk : k ≤ 4) : es.requests.length = k := by
  have hlength := congrArg List.length h.requests
  rw [List.length_map, List.length_take] at hlength
  exact hlength.trans (Nat.min_eq_left hk)

theorem Sent.failed {e : Error} (h : p.Sent b b' es k) (hfails : p.Fails b.turnAt es b'.now e) :
    p.Failed b b' es e :=
  ⟨h.grows, h.requests ▸ List.take_prefix k p.commands, h.watched, hfails⟩

/-- The token is found set when the next command is due to be sent. -/
theorem Sent.looked (h : p.Sent b b' es k) :
    b.Grows (b'.tell (.looked true)) (es ++ [(b'.now, .looked true)]) ∧
      Chronicle.requests (es ++ [(b'.now, .looked true)]) = es.requests ∧
      Chronicle.Watched (es ++ [(b'.now, .looked true)]) ∧
      (Chronicle.looks (es ++ [(b'.now, .looked true)])).map Prod.snd =
        List.replicate k false ++ [true] := by
  refine ⟨h.grows.trans (Bench.keeps_tell rfl).toGrows, ?_, h.watched.append (.of_requests rfl), ?_⟩
  · rw [Chronicle.requests_append]
    exact List.append_nil _
  · rw [Chronicle.looks_append, List.map_append, h.looks]
    rfl

/-- A dial that is cancelled leaves behind what was sent so far, and the look at the token. -/
theorem Sent.cancelled (h : p.Sent b b' es k) (hk : k < 3) :
    p.Failed b (b'.tell (.looked true)) (es ++ [(b'.now, .looked true)]) .cancelled := by
  obtain ⟨hgrows, hrequests, hwatched, hlooks⟩ := h.looked
  refine ⟨hgrows, ?_, hwatched, .cancelled k hk hlooks ?_⟩
  · rw [hrequests, h.requests]
    exact List.take_prefix k p.commands
  · rw [hrequests, h.length (by omega)]

end

/-- The commands before the activation are done with, and the token is still not set. -/
structure Passed (p : Bearer) (b b' : Bench) (es : Chronicle) : Prop where
  keeps : b.Keeps b' es
  requests : es.requests.map Prod.snd = p.commands.take 2
  looks : es.looks.map Prod.snd = [false, false, false]
  watched : ∃ before : Chronicle, es = before ++ [(b'.now, .looked false)] ∧ before.Watched
  script : b'.script = b.script.drop 2
  configured : p.configuration.outcome (b.turnAt 0).answer = .ok ()
  deactivated : p.deactivation.outcome (b.turnAt 1).answer = .ok () ∨
    ∃ e, p.deactivation.outcome (b.turnAt 1).answer = .error e ∧ e.isCommandFailure = true

/-- The activation and the report on it. -/
def reportOf (p : Bearer) (ticket : Nat) : Operation Bearer Urc := do
  let (_, report) ← join p.activation .fatal ticket p.isReport
    ⟨.failFast, p.completion, "Timed out waiting for connection to complete"⟩
  return report

/-- What is done on the seat with the ticket. -/
def seated (p : Bearer) (ticket : Nat) : Operation Bearer Urc := do
  discard <| step true .fatal p.configuration
  discard <| step true .soft p.deactivation
  checkToken
  p.reportOf ticket

theorem activate_eq : activate = (do withSeat (← get).seated) := rfl

/-- The commands before the activation: either one of them fails, or the activation follows. -/
theorem seated_runs {ticket : Nat} {s s' : Bearer} {r : Except Error Urc}
    (h : (p.seated ticket).Runs s b r s' b') :
    (∃ e es, r = .error e ∧ s' = s ∧ p.Failed b b' es e) ∨
    ∃ es b₁, p.Passed b b₁ es ∧ (p.reportOf ticket).Runs s b₁ r s' b' := by
  unfold seated at h
  -- after each command: the token is set, or the command fails, or the next one is due
  have hnone := Sent.none p b
  rcases h.bind_step with ⟨rfl, rfl, rfl⟩ | ⟨e, es, he, rfl, rfl, hes⟩ |
    ⟨_, es, b₁, hconfigured, hes, h⟩
  · exact .inl ⟨_, _, rfl, rfl, hnone.cancelled (by decide)⟩
  · have hone := hnone.next rfl hes
    exact .inl ⟨e, _, rfl, rfl,
      hone.failed (.unconfigured (Severity.fatal_eq_error.mp he) (hone.length (by decide)))⟩
  have hone := hnone.next rfl hes
  obtain ⟨_, hconfigured⟩ := Severity.fatal_eq_ok hconfigured
  rcases h.bind_step with ⟨rfl, rfl, rfl⟩ | ⟨e, fs, he, rfl, rfl, hfs⟩ |
    ⟨_, fs, b₂, hdeactivated, hfs, h⟩
  · exact .inl ⟨_, _, rfl, rfl, hone.cancelled (by decide)⟩
  · have htwo := hone.next rfl hfs
    rw [hone.turn] at he
    obtain ⟨he, hhard⟩ := Severity.soft_eq_error.mp he
    exact .inl ⟨e, _, rfl, rfl, htwo.failed (.undeactivated he hhard (htwo.length (by decide)))⟩
  have htwo := hone.next rfl hfs
  rw [hone.turn] at hdeactivated
  rcases h.bind_checkToken with ⟨rfl, rfl, rfl⟩ | ⟨-, h⟩
  · exact .inl ⟨_, _, rfl, rfl, htwo.cancelled (by decide)⟩
  · have hkeeps := (hes.keeps.trans hfs.keeps).trans (Bench.keeps_tell (h := .looked false) rfl)
    refine .inr ⟨_, _, ⟨hkeeps, ?_, ?_, ⟨_, rfl, htwo.watched⟩, htwo.script, hconfigured, ?_⟩, h⟩
    · rw [Chronicle.requests_append, List.map_append]
      exact (List.append_nil _).trans htwo.requests
    · rw [Chronicle.looks_append, List.map_append]
      exact congrArg (· ++ [false]) htwo.looks
    · exact (Severity.soft_eq_ok hdeactivated).imp_left fun ⟨_, h⟩ => h

/-! ## The activation

The activation command is joined with the report.  An answer that refuses the activation ends the
wait at once; otherwise the wait goes on until the report has come, or the time is over. -/

/-- The activation command, which is joined with the report on it. -/
def joining (p : Bearer) (ticket : Nat) : JoinedCommand where
  request := p.activation.request
  settle answer := (Severity.fatal.outcome (p.activation.outcome answer)).map fun _ => ()
  ticket
  wanted := p.isReport
  terms := ⟨.failFast, p.completion, "Timed out waiting for connection to complete"⟩

/-- What ends the wait is the error of the command. -/
theorem refuses_eq_some {ticket : Nat} {answer : Except LinkError Bytes} {e : Error}
    (h : (p.joining ticket).terms.refuses ((p.joining ticket).settle answer) = some e) :
    p.activation.outcome answer = .error e := by
  cases hout : p.activation.outcome answer with
  | ok _ => simp [joining, hout, Severity.outcome, Except.map, Join.Terms.refuses] at h
  | error e' => simpa [joining, hout, Severity.outcome, Except.map, Join.Terms.refuses] using h

/-- Where the wait goes on the command succeeded. -/
theorem refuses_eq_none {ticket : Nat} {answer : Except LinkError Bytes}
    (h : (p.joining ticket).terms.refuses ((p.joining ticket).settle answer) = none) :
    p.activation.outcome answer = .ok () := by
  cases hout : p.activation.outcome answer with
  | ok _ => rfl
  | error e' => simp [joining, hout, Severity.outcome, Except.map, Join.Terms.refuses] at h

/-- What the wait looks for is the first report since the seat was taken. -/
theorem Passed.notice?_eq {ticket : Nat} (h : p.Passed b b₁ es) (hseated : b.board.Seated ticket)
    (hunread : b.board.unread ticket = []) (fs : Chronicle) :
    (p.joining ticket).notice? b₁ fs = (p.report? (es ++ fs)).map Prod.snd := by
  -- the seat was taken at `b` and nothing has been read from it
  have hread : b₁.board.unread ticket = es.codes.map Prod.snd := by
    rw [h.keeps.unread ticket hseated, hunread, List.nil_append]
  rw [JoinedCommand.notice?, JoinedCommand.readable, show (p.joining ticket).ticket =
    ticket from rfl, hread, ← List.map_append, ← Chronicle.codes_append, List.find?_map]
  rfl

theorem Passed.turn (h : p.Passed b b₁ es) : b₁.turn = b.turnAt 2 := Bench.turnAt_drop h.script 0

theorem Passed.delay (h : p.Passed b b₁ es) : b₁.delay = (b.turnAt 2).duration := by
  rw [Bench.delay, h.turn]

/-- The activation command is sent. -/
theorem Passed.next {rest : Chronicle} (h : p.Passed b b₁ es)
    (hgrows : b₁.Grows b₂ ((b₁.now, .sent p.activation.request) :: rest))
    (hrequests : rest.requests = []) (hlooks : rest.looks = [])
    (hscript : b₂.script = b₁.script.tail) :
    p.Sent b b₂ (es ++ (b₁.now, .sent p.activation.request) :: rest) 3 ∧
      p.Activating b.turnAt (es ++ (b₁.now, .sent p.activation.request) :: rest) b₁.now := by
  -- two commands were sent before, so the activation is the third
  have hall : Chronicle.requests (es ++ (b₁.now, .sent p.activation.request) :: rest) =
      es.requests ++ [(b₁.now, p.activation.request)] := by
    rw [Chronicle.requests_append, Chronicle.requests_sent, hrequests]
  have hlooked :
    (Chronicle.looks (es ++ (b₁.now, .sent p.activation.request) :: rest)).map Prod.snd =
      [false, false, false] := by
    rw [Chronicle.looks_append, Chronicle.looks_sent, hlooks, List.append_nil, h.looks]
  have hlen : es.requests.length = 2 := by
    have := congrArg List.length h.requests
    rwa [List.length_map] at this
  refine ⟨⟨h.keeps.toGrows.trans hgrows, ?_, hlooked, ?_,
    by rw [hscript, h.script, List.tail_drop]⟩, by rw [hlooked]; rfl, h.configured,
    h.deactivated, ?_⟩
  · rw [hall, List.map_append, h.requests]
    rfl
  · obtain ⟨before, rfl, hwatched⟩ := h.watched
    rw [List.append_assoc]
    exact hwatched.append (.dispatch _ _ hrequests)
  · rw [hall, List.getElem?_append_right (Nat.le_of_eq hlen), hlen]
    rfl

/-- While its answer is still to come, three commands have been sent. -/
theorem Passed.asked {since : Chronicle} {wait : Bench.Reply} (h : p.Passed b b₁ es)
    (hasked : b₁.Asked p.activation.request since b₂ wait) :
    p.Sent b b₂ (es ++ b₁.asking p.activation.request since) 3 ∧
      p.Activating b.turnAt (es ++ b₁.asking p.activation.request since) b₁.now :=
  h.next hasked.grows hasked.quiet.requests hasked.quiet.looks hasked.script

/-- So it is when the answer has come. -/
theorem Passed.answered {before after : Chronicle} {answer : Except LinkError Bytes}
    (h : p.Passed b b₁ es) (hanswered : b₁.Answered p.activation.request before answer after b₂) :
    p.Sent b b₂ (es ++ b₁.exchange p.activation.request before answer after) 3 ∧
      p.Activating b.turnAt (es ++ b₁.exchange p.activation.request before answer after) b₁.now :=
  h.next hanswered.grows (hanswered.quiet.requests_around hanswered.quiet' _ _)
    (hanswered.quiet.looks_around hanswered.quiet' _ _) hanswered.script

/-- A report was published before the end, and says one of two things. -/
theorem report?_eq_some {r : Nat × Urc} (hgrows : b.Grows b' es) (h : p.report? es = some r) :
    r.1 ≤ b'.now ∧ ∃ state, r.2 = .context p.profile state ∧
    (state = .activated ∨ state = .activationFailed) := by
  have hreports : p.isReport r.2 = true := by simpa using List.find?_some h
  have hmem := Chronicle.mem_codes.mp (List.mem_of_find?_eq_some h)
  refine ⟨(hgrows.within _ hmem).2, ?_⟩
  rcases isReport_eq_true hreports with hup | hfailed
  · exact ⟨_, hup, .inl rfl⟩
  · exact ⟨_, hfailed, .inr rfl⟩

/-- What has been done when the report on the activation came and was taken. -/
structure Decided (p : Bearer) (b b' : Bench) (es : Chronicle) (sent : Nat)
    (state : ContextState) : Prop
    extends Sent p b b' es 3 where
  reported : p.Reported b.turnAt es sent state
  status : state = .activated ∨ state = .activationFailed

/-- How the wait for the report ends. -/
theorem Passed.joined {ticket : Nat} {outcome : Join.Outcome Unit Urc} (h : p.Passed b b₁ es)
    (hseated : b.board.Seated ticket) (hunread : b.board.unread ticket = [])
    (hjoined : (p.joining ticket).Joined b₁ outcome b₂ fs) :
    (∃ reply state sent, outcome = .ok (reply, .context p.profile state) ∧
      p.Decided b b₂ (es ++ fs) sent state) ∨
    ∃ e, outcome = .error e ∧ p.Failed b b₂ (es ++ fs) e := by
  -- the four endings of a joined wait: three are failures of the dial
  cases hjoined with
  | @refused _ before answer e hanswered hnow hrefused hlimit =>
    obtain ⟨hsent, hactivating⟩ := h.answered hanswered
    rw [hanswered.answer, h.turn] at hrefused
    refine .inr ⟨e, rfl, hsent.failed (.unactivated hactivating (refuses_eq_some hrefused) ?_ ?_)⟩
    · rw [hnow, h.delay] at hlimit
      exact Nat.le_of_add_le_add_left hlimit
    · rw [hnow, h.delay]
  | @joined _ before after answer code hanswered htaken hnotice hlimit =>
    obtain ⟨hsent, hactivating⟩ := h.answered hanswered
    rw [h.notice?_eq hseated hunread, Option.map_eq_some_iff] at hnotice
    obtain ⟨⟨t, code'⟩, hreport, rfl⟩ := hnotice
    obtain ⟨ht, state, rfl, hstate⟩ := report?_eq_some hsent.grows hreport
    rw [hanswered.answer, h.turn] at htaken
    have hontime := hanswered.on_time
    rw [h.delay] at hontime
    have hdelay : (b.turnAt 2).duration ≤ p.completion :=
      Nat.le_of_add_le_add_left (Nat.le_trans hontime hlimit)
    exact .inl ⟨_, state, b₁.now, rfl, hsent,
      ⟨hactivating, refuses_eq_none htaken, hdelay, t, hreport, Nat.le_trans ht hlimit⟩, hstate⟩
  | @unanswered _ since wait hasked hlate hlimit =>
    obtain ⟨hsent, hactivating⟩ := h.asked hasked
    rw [h.delay] at hlate
    exact .inr ⟨_, rfl, hsent.failed (.timedOut hactivating (.inl hlate) hlimit)⟩
  | @unnoticed _ before after answer hanswered htaken hnotice hlimit =>
    obtain ⟨hsent, hactivating⟩ := h.answered hanswered
    rw [h.notice?_eq hseated hunread, Option.map_eq_none_iff] at hnotice
    exact .inr ⟨_, rfl, hsent.failed (.timedOut hactivating (.inr hnotice) hlimit)⟩

/-- The wait for the report is a joined wait. -/
theorem reportOf_runs {ticket : Nat} {s s' : Bearer} {r : Except Error Urc}
    (h : (p.reportOf ticket).Runs s b r s' b') (hseated : b.board.Seated ticket) :
    s' = s ∧ ∃ outcome es, (p.joining ticket).Joined b outcome b' es ∧
    r = outcome.map Prod.snd := by
  rcases h.bind with ⟨a, s₁, b₁, hjoin, hpure⟩ | ⟨e, rfl, hjoin⟩
  · obtain ⟨rfl, rfl, rfl⟩ := hpure.pure
    obtain ⟨rfl, es, hjoined⟩ := hjoin.join hseated
    exact ⟨rfl, _, es, hjoined, rfl⟩
  · obtain ⟨rfl, es, hjoined⟩ := hjoin.join hseated
    exact ⟨rfl, _, es, hjoined, rfl⟩

/-! ## From the seat to the bench

An activation is done on a seat that is given up at its end, however it ends.  To give it up adds
nothing to the history, so what is known at the end of the wait is known of the activation as a
whole. -/

section

variable {board : Board Urc} {ticket : Nat}

theorem grows_unseated (h : Bench.Grows { b with board } b' es) :
    b.Grows (b'.unsubscribe ticket) es :=
  ⟨h.history, h.now, h.within⟩

/-- A failure leaves the same behind when the seat has been given up. -/
theorem Failed.unseated {e : Error} (h : p.Failed { b with board } b' es e) :
    p.Failed b (b'.unsubscribe ticket) es e :=
  ⟨grows_unseated h.grows, h.requests, h.watched, h.fails⟩

/-- A decision is the same when the seat has been given up. -/
theorem Decided.unseated (h : p.Decided { b with board } b' es sent state) :
    p.Decided b (b'.unsubscribe ticket) es sent state :=
  ⟨⟨grows_unseated h.grows, h.requests, h.looks, h.watched, h.script⟩, h.reported, h.status⟩

end

/-- What comes of an activation. -/
theorem activate_runs {r : Except Error Urc} (h : activate.Runs p b r p' b')
    (hfree : b.board.seats.length < Board.seatCount) (hsound : b.board.Sound) :
    p' = p ∧ ∃ es, (∃ state sent, r = .ok (.context p.profile state) ∧
      p.Decided b b' es sent state) ∨
      ∃ e, r = .error e ∧ p.Failed b b' es e := by
  rw [activate_eq] at h
  obtain ⟨ticket, board, b₁, hseated, hunread, hinner, rfl⟩ :=
    h.bind_get.withSeat_of_free hfree hsound
  rcases seated_runs hinner with ⟨e, es, rfl, rfl, hfailed⟩ | ⟨es, b₂, hpassed, hreport⟩
  · exact ⟨rfl, es, .inr ⟨e, rfl, hfailed.unseated⟩⟩
  obtain ⟨rfl, outcome, fs, hjoined, rfl⟩ :=
    reportOf_runs hreport (hpassed.keeps.seated _ hseated)
  rcases hpassed.joined hseated hunread hjoined with ⟨reply, state, sent, rfl, hdecided⟩ |
    ⟨e, rfl, hfailed⟩
  · exact ⟨rfl, es ++ fs, .inl ⟨state, sent, rfl, hdecided.unseated⟩⟩
  · exact ⟨rfl, es ++ fs, .inr ⟨e, rfl, hfailed.unseated⟩⟩

/-- A dial that succeeds remembers its context and gives it. -/
theorem connected_runs {r : Except Error Nat}
    (h : Runs (do modify fun b : Bearer => { b with cid := b.profile }; return (← get).cid)
      p b r p' b') :
    r = .ok p.profile ∧ p' = { p with cid := p.profile } ∧ b' = b :=
  h.bind_modify.bind_get.pure

/-- The query for the cause of a failed activation. -/
theorem Decided.explained {answer : Except Error (Option Nat)}
    (h : p.Decided b b₁ es sent .activationFailed)
    (hquery : (catching (step true .fatal .extendedError)).Runs p b₁ (.ok answer) p' b') :
    p' = p ∧ ∃ fs, p.Failed b b' (es ++ fs) (.equipment (failureOf answer)) := by
  obtain ⟨x, hx, hstep⟩ := hquery.catching
  obtain rfl := Except.ok.inj hx
  obtain ⟨rfl, ⟨rfl, rfl⟩ | ⟨rfl, fs, hfs⟩⟩ := hstep.step
  · -- cancelled at the look before the question: three requests, and the cause is not known
    obtain ⟨hgrows, hrequests, hwatched, hlooks⟩ := h.looked
    have hcause : failureOf (.error .cancelled) =
        cause b.turnAt (es ++ [(b₁.now, .looked true)]) := by
      rw [cause, hlooks]
      rfl
    refine ⟨rfl, _, hgrows, ?_, hwatched, hcause ▸ .refused (h.reported.append _)⟩
    rw [hrequests, h.requests]
    exact List.take_prefix 3 _
  · -- the question is the fourth request
    have hfour := h.toSent.next rfl hfs
    have hcause :
      failureOf (Severity.fatal.outcome (Command.extendedError.outcome b₁.turn.answer)) =
        cause b.turnAt (es ++ fs) := by
      rw [cause, hfour.looks, h.turn]
      cases (Command.extendedError).outcome (b.turnAt 3).answer <;> rfl
    exact ⟨rfl, fs, hcause ▸ hfour.failed (.refused (h.reported.append fs))⟩

/-! ## The law -/

/-- What comes of a dial. -/
theorem dial_runs {r : Except Error Nat} (h : dial.Runs p b r p' b')
    (hfree : b.board.seats.length < Board.seatCount) (hsound : b.board.Sound) :
    ∃ es, (r = .ok p.profile ∧ p' = { p with cid := p.profile } ∧
      ∃ sent, p.Decided b b' es sent .activated) ∨
      ∃ e, r = .error e ∧ p' = p ∧ p.Failed b b' es e := by
  unfold dial at h
  rcases h.bind with ⟨report, p₁, b₁, hactivate, hrest⟩ | ⟨e, rfl, hactivate⟩
  · obtain ⟨rfl, es, ⟨state, sent, hreport, hdecided⟩ | ⟨e, herror, -⟩⟩ :=
      activate_runs hactivate hfree hsound
    · obtain rfl := Except.ok.inj hreport
      -- what is reported is that the context is activated, or that this failed
      rcases hdecided.status with rfl | rfl
      · rw [show isFailure (.context p₁.profile .activated) = false from rfl,
          if_neg Bool.false_ne_true] at hrest
        obtain ⟨rfl, rfl, rfl⟩ := connected_runs hrest
        exact ⟨es, .inl ⟨rfl, rfl, sent, hdecided⟩⟩
      · rw [show isFailure (.context p₁.profile .activationFailed) = true from rfl, if_pos rfl]
          at hrest
        rcases hrest.bind with ⟨answer, p₂, b₂, hquery, hthrow⟩ | ⟨e, -, hquery⟩
        · obtain ⟨rfl, fs, hfailed⟩ := hdecided.explained hquery
          obtain ⟨rfl, rfl, rfl⟩ := hthrow.bind_throw
          exact ⟨es ++ fs, .inr ⟨_, rfl, rfl, hfailed⟩⟩
        · obtain ⟨x, hx, -⟩ := hquery.catching
          cases hx
    · cases herror
  · obtain ⟨rfl, es, ⟨state, sent, hreport, -⟩ | ⟨e', herror, hfailed⟩⟩ :=
      activate_runs hactivate hfree hsound
    · cases hreport
    · obtain rfl := Except.error.inj herror
      exact ⟨es, .inr ⟨e, rfl, rfl, hfailed⟩⟩

/-- **The law of a dial.**  Every dial that finds a seat ends.  It sends its commands in their order
and stops after some of them; each is sent right after a look at the token that found it not set.
It returns the context exactly when the activation was taken and the first report on the context
says that it is up, both in time; when that report says that the activation failed, it fails with
the cause that the modem names.  Every failure has one of the reasons of `Fails`.  The bearer has
the context that was returned; a dial that failed leaves it as it was. -/
theorem dial_outcome (p : Bearer) (b : Bench) (events : List (Nat × Event))
    (hfree : b.board.seats.length < Board.seatCount) (hsound : b.board.Sound) :
    ∃ result p' b', ∃ es : Chronicle, Rehearsal.EndsIn b events (dial.run.run p) (result, p') b' ∧
      b'.history = b.history ++ es ∧ es.requests.map Prod.snd <+: p.commands ∧ es.Watched ∧
      (∀ cid, result = .ok cid ↔ cid = p.profile ∧ ∃ sent, p.Reported b.turnAt es sent .activated) ∧
      (∀ sent, p.Reported b.turnAt es sent .activationFailed →
        result = .error (.equipment (cause b.turnAt es))) ∧
      (∀ e, result = .error e → p.Fails b.turnAt es b'.now e) ∧
      p' = { p with cid := match result with | .ok cid => cid | .error _ => p.cid } := by
  obtain ⟨⟨result, p'⟩, b', hends, hruns⟩ := Rehearsal.exists_endsIn b events (dial.run.run p)
  obtain ⟨es, ⟨rfl, rfl, sent, hup⟩ | ⟨e, rfl, rfl, hfailed⟩⟩ := dial_runs hruns hfree hsound
  · refine ⟨_, _, b', es, hends, hup.grows.history,
      hup.requests ▸ List.take_prefix 3 _, hup.watched, fun cid => ?_, fun sent hfailed => ?_,
      fun e he => (nomatch he), rfl⟩
    · simp only [Except.ok.injEq]
      exact ⟨fun h => ⟨h.symm, sent, hup.reported⟩, fun h => h.1.symm⟩
    · cases hup.reported.state_unique hfailed
  · refine ⟨_, _, b', es, hends, hfailed.grows.history, hfailed.requests, hfailed.watched,
      fun cid => ?_, fun sent hreported => ?_,
      fun e' he => Except.error.inj he ▸ hfailed.fails, rfl⟩
    · exact ⟨fun h => (nomatch h), fun ⟨_, _, hup⟩ => nomatch (hfailed.fails.of_reported hup).1⟩
    · rw [(hfailed.fails.of_reported hreported).2]

/-- A bearer over the context 3. -/
def sample : Bearer := { profile := 3, user := "", password := "", completion := 50 }

/-- There was nothing to deactivate, and the answer to the activation takes a while: the report
comes before it, and another context's before that. -/
theorem dial_outcome_up :
    let b : Bench := { script := [{ answer := .ok [] }, { answer := .error .error },
      { before := [Bytes.ofString "%IPDPACT:1,3", Bytes.ofString "%IPDPACT:3,1"], delay :=
        some 20, answer := .ok [] }] }
    b.board.seats.length < Board.seatCount ∧ b.board.Sound ∧
      ∃ p' b', ∃ es : Chronicle,
        Rehearsal.EndsIn b [] (dial.run.run sample) (.ok 3, p') b' ∧ p'.cid = 3 ∧
        es.requests.map Prod.snd <+: sample.commands ∧
        ∃ sent, sample.Reported b.turnAt es sent .activated := by
  intro b
  obtain ⟨result, p', b', es, hends, -, hrequests, -, hok, -, -, rfl⟩ :=
    dial_outcome sample b [] (by decide) Board.sound_empty
  have hrun : (Rehearsal.run 3 b [] (dial.run.run sample)).1.map (·.1.toOption) =
      some (some 3) := by decide +kernel
  obtain ⟨⟨result', q⟩, hrun, hthree⟩ := Option.map_eq_some_iff.mp hrun
  obtain ⟨rfl, -⟩ := Prod.mk.inj (hends.unique (.of_run hrun)).1
  cases result with
  | error e => cases hthree
  | ok cid =>
    obtain rfl : cid = 3 := Option.some.inj hthree
    obtain ⟨-, hreported⟩ := (hok 3).mp rfl
    exact ⟨by decide, Board.sound_empty, _, b', es, hends, rfl, hrequests, hreported⟩

end Cellular.Samsung.Bearer
