import Cellular.Proofs.Procedure.Session
import Cellular.Vendor.Simcom
import Mathlib.Tactic.SplitIfs
/-!
# What is written is read back

A SIMCom modem keeps the modes in two settings, the preference `+CNMP` and the acquisition order
`+CNAOP`.  Choosing modes writes both, asking for the modes reads both, and there is a table for
either direction (`settingsOf`, `modesOf`).

Suppose that the modem keeps what was last written to a setting and reports it when it is asked
(`Reports`).  Then the modes that were chosen are the ones that are found again.  There are two
exceptions.  2G and 3G without a preference are written like no restriction at all, and found as
that.  2G and 3G with 2G preferred are written with an order that is never read back, and cannot be
found again.

There are two tables, one from modes to settings and one back, and the theorem is a fact about their
composition (`modesOf_settingsOf`).  All else is to see that what is composed is what happens: that
a choice that succeeds has written both settings, the order after the preference (`written_of_ok`),
and that whoever asks for both is told the numbers that were written.
-/

namespace Cellular

/-! ## Settings that are kept

Nothing is assumed of the modem but that it keeps a number that a successful command wrote to a
setting.  What it reports of a setting that was never written is left open. -/

/-- The number that a command writes to a setting, if that is what it does. -/
def Request.writes? (setting : String) (r : Request) : Option Nat :=
  match r.arguments with
  | [some (.number n)] => if r.name = setting then some n else none
  | _ => none

/-- What a setting holds after these commands, if one of them has written it: a command that fails
writes nothing. -/
def stored? (setting : String) (exchanges : List (Request × Except LinkError Bytes)) : Option Nat :=
  (exchanges.filterMap fun
    | (r, .ok _) => r.writes? setting
    | (_, .error _) => none).getLast?

/-- Whoever asks for a setting that was written before is told what it holds. -/
def Reports (written asked : List (Request × Except LinkError Bytes)) : Prop :=
  ∀ setting n r answer, stored? setting written = some n → (r, answer) ∈ asked →
    r.body = setting ++ "?" →
    answer = .ok (Bytes.ofString (setting ++ ": " ++ n.repr))

/-- Only an answer that is no error can be read. -/
theorem Command.answer_of_ok {α : Type} {c : Command α} {answer : Except LinkError Bytes} {a : α}
    (h : c.outcome answer = .ok a) : ∃ reply, answer = .ok reply := by
  obtain ⟨reply, hanswer, -⟩ := outcome_eq_ok_iff.mp h
  exact ⟨reply, hanswer⟩

namespace Simcom

open Operation

variable {mode : ModeCombination} {preference order : Nat}

/-! ## The two tables

The tables are finite, and their composition is computed combination by combination. -/

/-- Nothing but what stands in the table can be written. -/
theorem settingsOf_eq_ok (h : settingsOf mode = .ok (preference, order)) :
    (mode, preference, order) ∈ [(.only .any, 2, 0), (.only .g2, 13, 0), (.only .g3, 14, 0),
      (⟨g2g3, .g2⟩, 2, 3), (⟨g2g3, .g3⟩, 2, 2), (.only g2g3, 2, 0)] := by
  unfold settingsOf at h
  split_ifs at h with hany hg2 hg3 hprefer2 hprefer3 hboth
  all_goals
    obtain ⟨rfl, rfl⟩ := Prod.mk.inj (Except.ok.inj h)
    subst mode
    decide

/-- What is found again of modes that were written. -/
def found (mode : ModeCombination) : Except Error ModeCombination :=
  if mode = ⟨g2g3, .g2⟩ then .error (.parse "Unknown acquisition order preference")
  else if mode = .only g2g3 then .ok (.only .any)
  else .ok mode

/-- From one table to the other. -/
theorem modesOf_settingsOf (h : settingsOf mode = .ok (preference, order)) :
    modesOf preference order = found mode := by
  have hmem := settingsOf_eq_ok h
  simp only [List.mem_cons, Prod.mk.injEq, List.not_mem_nil, or_false] at hmem
  rcases hmem with ⟨rfl, rfl, rfl⟩ | ⟨rfl, rfl, rfl⟩ | ⟨rfl, rfl, rfl⟩ | ⟨rfl, rfl, rfl⟩ |
    ⟨rfl, rfl, rfl⟩ | ⟨rfl, rfl, rfl⟩
  all_goals rfl

/-- A setting that was written is read as the same number. -/
theorem outcome_of_settings (h : settingsOf mode = .ok (preference, order)) :
    Command.acquisitionOrder.outcome (.ok (Bytes.ofString ("+CNAOP" ++ ": " ++ order.repr))) =
      .ok order ∧
      Command.modePreference.outcome (.ok (Bytes.ofString ("+CNMP" ++ ": " ++ preference.repr))) =
        .ok preference := by
  have hmem := settingsOf_eq_ok h
  simp only [List.mem_cons, Prod.mk.injEq, List.not_mem_nil, or_false] at hmem
  rcases hmem with ⟨-, rfl, rfl⟩ | ⟨-, rfl, rfl⟩ | ⟨-, rfl, rfl⟩ | ⟨-, rfl, rfl⟩ |
    ⟨-, rfl, rfl⟩ | ⟨-, rfl, rfl⟩
  all_goals exact ⟨rfl, rfl⟩

/-! ## One call

A call is told by its exchanges: which commands it sent, with which answers.  A choice that
succeeded sent both of its commands, and both succeeded. -/

section

variable {α : Type} {p : Performance Simcom Unit} {q : Performance Simcom ModeCombination}

/-- A step whose failure would end the operation, in an operation that succeeds: its command was
answered with a reply. -/
theorem replied_of_fatal {c : Command α} {m m' : Simcom} {b b' : Bench}
    (h : (discard (step false .fatal c) : Operation Simcom Unit).Runs m b (.ok ()) m' b') :
    m' = m ∧ (∃ reply, b.turn.answer = .ok reply) ∧
      ∃ before, b.Answered c.request before b.turn.answer [] b' := by
  obtain ⟨x, hx, hstep⟩ := h.discard
  obtain ⟨rfl, hresult, hanswered⟩ := hstep.unwatched_step
  refine ⟨rfl, ?_, hanswered⟩
  cases x with
  | error e => cases hx
  | ok value =>
    obtain ⟨a, houtcome⟩ := Severity.fatal_eq_ok hresult.symm
    exact Command.answer_of_ok houtcome

/-- Modes that were chosen are written to both settings, the order last. -/
theorem written_of_ok (h : (setCurrentModes mode).Performs p) (hok : p.result = .ok ()) :
    ∃ preference order reply reply', settingsOf mode = .ok (preference, order) ∧
      p.exchanges = [((Command.setModePreference preference).request, .ok reply),
        ((Command.setAcquisitionOrder order).request, .ok reply')] := by
  obtain ⟨b', hruns, hhistory⟩ := h.runs
  rw [hok] at hruns
  rcases hruns.bind with ⟨⟨preference, order⟩, _, _, hlift, hwrite⟩ | ⟨e, he, -⟩
  · obtain ⟨hsettings, rfl, rfl⟩ := hlift.liftExcept
    rcases hwrite.bind with ⟨_, _, b₁, hfirst, hsecond⟩ | ⟨e, he, -⟩
    · obtain ⟨rfl, ⟨reply, hreply⟩, before, hanswered⟩ := replied_of_fatal hfirst
      obtain ⟨-, ⟨reply', hreply'⟩, before', hanswered'⟩ := replied_of_fatal hsecond
      have hexchanges := Performance.exchanges_eq hhistory (.cons hanswered (.cons hanswered' .nil))
      rw [hreply, hreply'] at hexchanges
      exact ⟨preference, order, reply, reply', hsettings.symm, hexchanges⟩
    · cases he
  · cases he

/-- How asking for the modes goes. -/
inductive Asked (q : Performance Simcom ModeCombination) : Prop
  /-- The order cannot be read, and the preference is not asked for. -/
  | first (answer : Except LinkError Bytes) (e : Error)
    (hexchanges : q.exchanges = [(Command.acquisitionOrder.request, answer)])
    (hfails : Command.acquisitionOrder.outcome answer = .error e) (hresult : q.result = .error e)
  /-- Both are asked for. -/
  | both (order : Nat) (answer answer' : Except LinkError Bytes)
    (hexchanges : q.exchanges =
      [(Command.acquisitionOrder.request, answer), (Command.modePreference.request, answer')])
    (horder : Command.acquisitionOrder.outcome answer = .ok order)
    (hresult : q.result = (Command.modePreference.outcome answer').bind (modesOf · order))

/-- Asking for the modes goes in one of these ways. -/
theorem loadCurrentModes_performs (h : loadCurrentModes.Performs q) : Asked q := by
  obtain ⟨b', hruns, hhistory⟩ := h.runs
  -- the second question is asked when the first one has its answer
  rcases hruns.bind with ⟨order, _, b₁, hfirst, hrest⟩ | ⟨e, hresult, hfirst⟩
  · obtain ⟨rfl, horder, before, hanswered⟩ := hfirst.send
    rcases hrest.bind with ⟨preference, _, b₂, hsecond, hmodes⟩ | ⟨e, hresult, hsecond⟩
    · obtain ⟨rfl, hpreference, before', hanswered'⟩ := hsecond.send
      obtain ⟨hresult, -, rfl⟩ := hmodes.liftExcept
      have hexchanges := Performance.exchanges_eq hhistory (.cons hanswered (.cons hanswered' .nil))
      refine .both order _ _ hexchanges horder.symm ?_
      rw [hresult, ← hpreference]
      rfl
    · obtain ⟨-, hpreference, before', hanswered'⟩ := hsecond.send
      have hexchanges := Performance.exchanges_eq hhistory (.cons hanswered (.cons hanswered' .nil))
      refine .both order _ _ hexchanges horder.symm ?_
      rw [hresult, ← hpreference]
      rfl
  · obtain ⟨-, horder, before, hanswered⟩ := hfirst.send
    have hexchanges := Performance.exchanges_eq hhistory (.cons hanswered .nil)
    exact .first _ e hexchanges horder.symm hresult

end

/-! ## One call after the other

The answers to the second call are not free but told by the first one; that is the only link between
the two. -/

/-- What the two settings hold after they were written. -/
theorem stored_of_written (preference order : Nat) (reply reply' : Bytes) :
    stored? "+CNAOP" [((Command.setModePreference preference).request, .ok reply),
        ((Command.setAcquisitionOrder order).request, .ok reply')] = some order ∧
      stored? "+CNMP" [((Command.setModePreference preference).request, .ok reply),
        ((Command.setAcquisitionOrder order).request, .ok reply')] = some preference :=
  ⟨rfl, rfl⟩

/-- What is found is what the table has for the modes that were chosen. -/
theorem found_of_reports {p : Performance Simcom Unit} {q : Performance Simcom ModeCombination}
    (hp : (setCurrentModes mode).Performs p) (hq : loadCurrentModes.Performs q)
    (hok : p.result = .ok ()) (hreports : Reports p.exchanges q.exchanges) :
    q.result = found mode := by
  obtain ⟨preference, order, reply, reply', hsettings, hwritten⟩ := written_of_ok hp hok
  obtain ⟨horder, hpreference⟩ := stored_of_written preference order reply reply'
  obtain ⟨hreadOrder, hreadPreference⟩ := outcome_of_settings hsettings
  rw [← hwritten] at horder hpreference
  cases loadCurrentModes_performs hq with
  | first answer e hexchanges hfails =>
    -- the modem reports what was written, so this query does not fail
    have hanswer :=
      hreports _ _ Command.acquisitionOrder.request answer horder (by simp [hexchanges]) rfl
    rw [hanswer, hreadOrder] at hfails
    cases hfails
  | both order' answer answer' hexchanges hread hresult =>
    have hanswer :=
      hreports _ _ Command.acquisitionOrder.request answer horder (by simp [hexchanges]) rfl
    have hanswer' :=
      hreports _ _ Command.modePreference.request answer' hpreference (by simp [hexchanges]) rfl
    have hsame : order' = order := by
      rw [hanswer, hreadOrder] at hread
      exact (Except.ok.inj hread).symm
    rw [hresult, hanswer', hreadPreference, hsame]
    show modesOf preference order = found mode
    exact modesOf_settingsOf hsettings

/-- **What is written is read back.**  Whenever modes were chosen and the modem reports what was
written, the modes that are found are those that were chosen; but 2G and 3G without a preference are
found as no restriction at all, and 2G and 3G with 2G preferred as an order that is not known. -/
theorem modes_read_back (m : Simcom) (mode : ModeCombination) (here there : Occasion) :
    ∃ p q, p.occasion = here ∧ p.before = m ∧ (setCurrentModes mode).Performs p ∧
      q.occasion = there ∧ q.before = p.after ∧ loadCurrentModes.Performs q ∧
      (p.result = .ok () → Reports p.exchanges q.exchanges →
        (mode ≠ .only g2g3 → mode ≠ ⟨g2g3, .g2⟩ → q.result = .ok mode) ∧
        (mode = .only g2g3 → q.result = .ok (.only .any)) ∧
        (mode = ⟨g2g3, .g2⟩ →
          q.result = .error (.parse "Unknown acquisition order preference"))) := by
  obtain ⟨p, hhere, hbefore, hp⟩ := exists_performs (setCurrentModes mode) m here
  obtain ⟨q, hthere, hafter, hq⟩ := exists_performs loadCurrentModes p.after there
  refine ⟨p, q, hhere, hbefore, hp, hthere, hafter, hq, fun hok hreports => ?_⟩
  have hfound := found_of_reports hp hq hok hreports
  refine ⟨fun hboth hprefer => ?_, ?_, ?_⟩
  · rw [hfound, found, if_neg hprefer, if_neg hboth]
  · rintro rfl
    rw [hfound]
    rfl
  · rintro rfl
    rw [hfound]
    rfl

/-- 2G and 3G with 2G preferred are chosen, and the modem takes it. -/
def preferring : Performance Simcom Unit where
  occasion := { bench := { script := [{ answer := .ok [] }, { answer := .ok [] }] } }
  before := {}
  result := .ok ()
  after := {}
  chronicle := [(0, .sent (Command.setModePreference 2).request), (0, .answered (.ok [])),
    (0, .sent (Command.setAcquisitionOrder 3).request), (0, .answered (.ok []))]

/-- The modem reports just that. -/
def asking : Performance Simcom ModeCombination where
  occasion := { bench := { script := [{ answer := .ok (Bytes.ofString "+CNAOP: 3") },
    { answer := .ok (Bytes.ofString "+CNMP: 2") }] } }
  before := {}
  result := .error (.parse "Unknown acquisition order preference")
  after := {}
  chronicle :=
    [(0, .sent Command.acquisitionOrder.request), (0, .answered (.ok (Bytes.ofString "+CNAOP: 3"))),
      (0, .sent Command.modePreference.request), (0, .answered (.ok (Bytes.ofString "+CNMP: 2")))]

theorem reports_preferring : Reports preferring.exchanges asking.exchanges := by
  have hasked : asking.exchanges =
    [(Command.acquisitionOrder.request, .ok (Bytes.ofString "+CNAOP: 3")),
      (Command.modePreference.request, .ok (Bytes.ofString "+CNMP: 2"))] := rfl
  intro setting n r answer hstored hmem hbody
  rw [hasked] at hmem
  -- two questions, each about a setting that was written
  rcases List.mem_cons.mp hmem with hfirst | hmem
  · obtain ⟨rfl, rfl⟩ := Prod.mk.inj hfirst
    have hsetting : setting = "+CNAOP" := (String.append_left_inj "?").mp hbody.symm
    subst hsetting
    have hthree : stored? "+CNAOP" preferring.exchanges = some 3 := rfl
    obtain rfl := Option.some.inj (hthree.symm.trans hstored)
    rfl
  · obtain ⟨rfl, rfl⟩ := Prod.mk.inj (List.mem_singleton.mp hmem)
    have hsetting : setting = "+CNMP" := (String.append_left_inj "?").mp hbody.symm
    subst hsetting
    have htwo : stored? "+CNMP" preferring.exchanges = some 2 := rfl
    obtain rfl := Option.some.inj (htwo.symm.trans hstored)
    rfl

/-- Modes that were chosen, and are reported as they were written, are not found again. -/
theorem preferred_2g_not_found :
    (setCurrentModes ⟨g2g3, .g2⟩).Performs preferring ∧ preferring.result = .ok () ∧
      asking.before = preferring.after ∧ loadCurrentModes.Performs asking ∧
      Reports preferring.exchanges asking.exchanges ∧
      asking.result = .error (.parse "Unknown acquisition order preference") := by
  have hp : (setCurrentModes ⟨g2g3, .g2⟩).Performs preferring := Performs.of_run 1 rfl rfl
  have hq : loadCurrentModes.Performs asking := Performs.of_run 1 rfl rfl
  exact ⟨hp, rfl, rfl, hq, reports_preferring, rfl⟩

end Simcom

end Cellular
