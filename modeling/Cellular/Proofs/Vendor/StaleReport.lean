import Cellular.Proofs.Vendor.Samsung
/-!
# Reports from before the activation

A dial takes its seat on the board before it sends anything, and a seat keeps every code that is
published.  So a report on the context that is published while the first two commands are still
under way, say a late one on an earlier dial, is read when the dial waits for the outcome of its own
activation, and is taken for it (`stale_report_decides`).  Only where there is no such report is the
outcome a report that was published after the activation command was sent.

The activation command can be found in the history, as the third of the commands (`three_sent`), and
so it can be said what was published before it and what after.  The law of a dial does not know of
this difference; it takes the first report since the seat was taken.  What is shown here is when
that is one of those that were published after the activation command, and what a dial comes to when
it is not.
-/

namespace Cellular.Samsung.Bearer

open Operation

/-! ## Before the activation and after it -/

variable {p : Bearer} {b b' : Bench} {es before after : Chronicle} {sent t : Nat}
  {state : ContextState}

/-- The activation command differs from the two before it. -/
theorem activation_request_ne (p : Bearer) :
    p.configuration.request ≠ p.activation.request ∧
      p.deactivation.request ≠ p.activation.request := by
  simp [configuration, deactivation, activation, Command.configureContext,
    Command.setContextActivation, Command.set]

/-- Where the activation command was sent, it was the third. -/
theorem three_sent (hrequests : es.requests.map Prod.snd <+: p.commands)
    (hes : es = before ++ (sent, .sent p.activation.request) :: after) :
    2 < es.requests.length := by
  obtain ⟨hconfiguration, hdeactivation⟩ := p.activation_request_ne
  have hsplit : es.requests =
      before.requests ++ (sent, p.activation.request) :: after.requests := by
    rw [hes, Chronicle.requests_append, Chronicle.requests_sent]
  have hat : p.commands[before.requests.length]? = some p.activation.request := by
    have hat' : (es.requests.map Prod.snd)[before.requests.length]? =
        some p.activation.request := by simp [hsplit]
    obtain ⟨rest, hcommands⟩ := hrequests
    rw [← hcommands, List.getElem?_append_left (List.getElem?_eq_some_iff.mp hat').1, hat']
  have hlength : es.requests.length = before.requests.length + (after.requests.length + 1) := by
    simp [hsplit]
  -- it is neither the first of the commands nor the second
  match hk : before.requests.length with
  | 0 =>
    rw [hk] at hat
    exact absurd (Option.some.inj hat) hconfiguration
  | 1 =>
    rw [hk] at hat
    exact absurd (Option.some.inj hat) hdeactivation
  | k + 2 => omega

/-- Where no report was published before the activation command, the first report was published
after it. -/
theorem fresh_report (hes : es = before ++ (sent, .sent p.activation.request) :: after)
    (hnone : p.report? before = none)
    (hreport : p.report? es = some (t, .context p.profile state)) :
    (t, .published (.context p.profile state)) ∈ after := by
  rw [hes, report?_append, hnone] at hreport
  exact Chronicle.mem_codes.mp (List.mem_of_find?_eq_some hreport)

/-! ## The law

The equivalence is in terms of the history.  Two dials follow, in both of which the modem reports
while the context is still being configured. -/

/-- **What an old report does.**  Where no report on the context was published before the activation
command was sent, a dial that returns the context was told so after that.  Where there was one, it
alone decides once the command is answered in time, whatever is published later. -/
theorem stale_report_decides (p : Bearer) (b : Bench) (events : List (Nat × Event))
    (hfree : b.board.seats.length < Board.seatCount) (hsound : b.board.Sound) :
    ∃ result p' b', ∃ es : Chronicle, Rehearsal.EndsIn b events (dial.run.run p) (result, p') b' ∧
      b'.history = b.history ++ es ∧
      (∀ cid, result = .ok cid →
        ∃ before sent after, es = before ++ (sent, .sent p.activation.request) :: after) ∧
      ∀ (before after : Chronicle) sent, es =
        before ++ (sent, .sent p.activation.request) :: after →
        (p.report? before = none →
          ∀ cid, result = .ok cid → ∃ t, (t, .published (.context cid .activated)) ∈ after) ∧
        ∀ t state, p.report? before = some (t, .context p.profile state) →
          (result = .ok p.profile ↔ state = .activated ∧
            p.activation.outcome (b.turnAt 2).answer = .ok () ∧
            (b.turnAt 2).duration ≤ p.completion) ∧
          (state = .activationFailed → p.activation.outcome (b.turnAt 2).answer = .ok () →
            (b.turnAt 2).duration ≤ p.completion →
              result = .error (.equipment (cause b.turnAt es))) := by
  obtain ⟨⟨result, p'⟩, b', hends, hruns⟩ := Rehearsal.exists_endsIn b events (dial.run.run p)
  obtain ⟨es, ⟨rfl, rfl, sent, hup⟩ | ⟨e, rfl, rfl, hfailed⟩⟩ := dial_runs hruns hfree hsound
  · obtain ⟨t, hreport, -⟩ := hup.reported.reported
    refine ⟨_, _, b', es, hends, hup.grows.history, fun _ _ => ?_,
      fun before after sent' hes => ⟨?_, ?_⟩⟩
    · obtain ⟨before, after, hes⟩ := Chronicle.exists_sent hup.reported.request
      exact ⟨before, sent, after, hes⟩
    · intro hnone cid hcid
      obtain rfl := Except.ok.inj hcid
      exact ⟨t, fresh_report hes hnone hreport⟩
    · intro t' state hstale
      -- the first report of the context stays the first, however the history goes on
      have hstale' : p.report? es = some (t', .context p.profile state) :=
        hes ▸ report?_append_of_some hstale _
      obtain rfl : state = .activated := report_unique hstale' hreport
      exact ⟨iff_of_true rfl ⟨rfl, hup.reported.activated, hup.reported.answered⟩,
        fun h => nomatch h⟩
  · refine ⟨_, _, b', es, hends, hfailed.grows.history, fun _ h => (nomatch h),
      fun before after sent' hes => ⟨?_, ?_⟩⟩
    · exact fun _ _ h => nomatch h
    · intro t' state hstale
      have hstale' : p'.report? es = some (t', .context p'.profile state) :=
        hes ▸ report?_append_of_some hstale _
      have hthree := three_sent hfailed.requests hes
      refine ⟨iff_of_false (fun h => nomatch h) ?_, fun hstate hactivated hanswered => ?_⟩
      · rintro ⟨rfl, hactivated, hanswered⟩
        cases (hfailed.fails.of_report hthree hactivated hanswered hstale').1
      · rw [(hfailed.fails.of_report hthree hactivated hanswered hstale').2]

/-- What happens while the bearer over the context 3 dials and the modem takes no time to answer. -/
def course (b : Bench) : Chronicle := (Rehearsal.run 1 b [] (dial.run.run sample)).2.history

/-- The modem says that the context is up while it is being configured, and after the activation
command that this failed. -/
def overtaken : Bench where
  script := [{ before := [Bytes.ofString "%IPDPACT:3,1"], answer := .ok [] }, { answer := .ok [] },
    { before := [Bytes.ofString "%IPDPACT:3,3"], answer := .ok [] }]

/-- The report before the activation command decides. -/
theorem stale_report_decides_overtaken :
    overtaken.board.seats.length < Board.seatCount ∧ overtaken.board.Sound ∧
      ∃ p' b', Rehearsal.EndsIn overtaken [] (dial.run.run sample) (.ok 3, p') b' ∧
        ∃ before after, b'.history = before ++ (0, .sent sample.activation.request) :: after ∧
          sample.report? before = some (0, .context 3 .activated) ∧
          sample.report? after = some (0, .context 3 .activationFailed) := by
  obtain ⟨result, p', b', es, hends, hhistory, -, hdecides⟩ :=
    stale_report_decides sample overtaken [] (by decide) Board.sound_empty
  have hrun : (Rehearsal.run 1 overtaken [] (dial.run.run sample)).1 =
      some (.ok 3, { sample with cid := 3 }) := rfl
  obtain ⟨-, rfl⟩ := hends.unique (.of_run hrun)
  obtain rfl : course overtaken = es := hhistory
  obtain ⟨hok, -⟩ :=
    (hdecides ((course overtaken).take 8) ((course overtaken).drop 9) 0 rfl).2 0 .activated rfl
  obtain rfl := hok.mpr ⟨rfl, rfl, by decide⟩
  exact ⟨by decide, Board.sound_empty, _, _, hends, (course overtaken).take 8,
    (course overtaken).drop 9, rfl, rfl, rfl⟩

/-- The modem says that the context is up while it is being configured, and nothing after that. -/
def outdated : Bench where
  script := [{ before := [Bytes.ofString "%IPDPACT:3,1"], answer := .ok [] }, { answer := .ok [] },
    { answer := .ok [] }]

/-- The dial returns the context, although after the activation command nobody has said that it is
up. -/
theorem dial_takes_outdated_report :
    ∃ p' b', Rehearsal.EndsIn outdated [] (dial.run.run sample) (.ok 3, p') b' ∧
      ∃ before after, b'.history = before ++ (0, .sent sample.activation.request) :: after ∧
        ∀ t, (t, .published (.context 3 .activated)) ∉ after := by
  have hrun : (Rehearsal.run 1 outdated [] (dial.run.run sample)).1 =
      some (.ok 3, { sample with cid := 3 }) := rfl
  refine ⟨_, _, .of_run hrun, (course outdated).take 8, (course outdated).drop 9, rfl,
    fun t ht => ?_⟩
  have hnone : Chronicle.codes ((course outdated).drop 9) = [] := rfl
  cases hnone ▸ Chronicle.mem_codes.mpr ht

end Cellular.Samsung.Bearer
