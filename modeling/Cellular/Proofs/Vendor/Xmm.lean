import Cellular.Proofs.Procedure.Sequence
import Cellular.Proofs.Vendor.Cleanup
/-!
# What an XMM bearer sends

A dial is two sequences of watched steps in a row, soft ones and then fatal ones, and so it is one
sequence (`Bearer.agenda`) that follows the law of all sequences.  Which commands there are depends
on the context and the address families; `Bearer.lines` has them as they go over the line.

Wherever a context is named it is the one under which the bearer's context is addressed, and that is
below 31 (`normalizeCid_lt`).

That a dial is one sequence makes its law an instance: which commands are sent, what the last of
them did, and what the looks at the token were.  What is added is how the steps look for this
bearer: which ones are soft (all but the last two), at which one a dial breaks off (`BreaksOffAt`),
and what is on the line.  The other two operations send one command each, and are told directly.
-/

namespace Cellular

/-- The number at that place among the arguments. -/
def Request.numberAt? (r : Request) (place : Nat) : Option Nat :=
  match r.arguments[place]? with
  | some (some (.number n)) => some n
  | _ => none

namespace Xmm

/-- The context that a command names. -/
def contextOf? (r : Request) : Option Nat :=
  match r.name with
  | "+CGACT" | "+CGDATA" => r.numberAt? 1
  | "+XDNS" | "+CGCONTRDP" | "+xdatachannel=1,1,\"/PCIE/IOSM/CTRL/1\",\"/PCIE/IOSM/IPS/0\",2," =>
    r.numberAt? 0
  | _ => none

theorem normalizeCid_lt (cid : Nat) : normalizeCid cid < 31 := by
  unfold normalizeCid cidBound
  split <;> omega

namespace Bearer

open Operation

variable {m m' : Bearer} {b b' : Bench} {r : Except Error Unit} {severity : Severity}
  {cs : List (Command Unit)}

/-! ## A dial is a sequence

The soft half comes first, so a dial that gets to its second half has put up with all failures
before. -/

/-- The context under which the bearer's is addressed. -/
def context (m : Bearer) : Nat := normalizeCid m.cid

/-- The commands of a dial. -/
def commands (m : Bearer) : List (Command Unit) :=
  preparations m.context m.family ++ essentials m.context

/-- The commands of a dial as they go over the line. -/
def lines (m : Bearer) : List String :=
  (if m.context = 0 then []
    else (if m.family.hasIpv4 then ["+XDNS=" ++ m.context.repr ++ ",1"] else [])
      ++ (if m.family.hasIpv6 then ["+XDNS=" ++ m.context.repr ++ ",2", "+CGPIAF=1,1,0,1"] else [])
      ++ ["+CGACT=1," ++ m.context.repr])
  ++ ["+xdatachannel=1,1,\"/PCIE/IOSM/CTRL/1\",\"/PCIE/IOSM/IPS/0\",2," ++ m.context.repr,
    "+CGDATA=\"M-RAW_IP\"," ++ m.context.repr]

/-- The steps of a dial. -/
def agenda (m : Bearer) : List (Step Unit) :=
  (preparations m.context m.family).map (Step.mk .soft) ++
    (essentials m.context).map (Step.mk .fatal)

/-- Steps of one severity, one after another. -/
theorem runSteps_runs (h : (runSteps severity cs).Runs m b r m' b') :
    m' = m ∧ ∃ values es, Sequence.Course true (cs.map (Step.mk severity)) b values r b' es := by
  induction cs generalizing b with
  | nil =>
    obtain ⟨rfl, rfl, rfl⟩ := h.pure
    exact ⟨rfl, [], [], .finished⟩
  | cons c cs ih =>
    unfold runSteps at h
    -- a step has a value, or it ends the sequence: stopped or cancelled
    rcases h.bind with ⟨_, _, b₁, hstep, hrest⟩ | ⟨e, rfl, hstep⟩
    · obtain ⟨x, hx, hstep⟩ := hstep.discard
      cases x with
      | error e => cases hx
      | ok value =>
        obtain ⟨rfl, ⟨-, hcancelled, -⟩ | ⟨hvalue, es, hsent⟩⟩ := Sequence.step_runs hstep
        · cases hcancelled
        · obtain ⟨rfl, values, fs, hcourse⟩ := ih hrest
          exact ⟨rfl, value :: values, es ++ fs,
            .passed (s := ⟨severity, c⟩) hsent hvalue.symm hcourse⟩
    · obtain ⟨x, hx, hstep⟩ := hstep.discard
      cases x with
      | ok value => cases hx
      | error e' =>
        obtain rfl := Except.error.inj hx
        obtain ⟨rfl, ⟨hwatched, hcancelled, rfl⟩ | ⟨herror, es, hsent⟩⟩ := Sequence.step_runs hstep
        · obtain rfl := Except.error.inj hcancelled
          exact ⟨rfl, [], _, .cancelled hwatched⟩
        · exact ⟨rfl, [], es, .stopped (s := ⟨severity, c⟩) hsent
            (Step.outcome_eq_error.mp herror.symm)⟩

/-- The two halves of a dial are one sequence. -/
theorem dial_runs (h : dial.Runs m b r m' b') :
    m' = m ∧ ∃ values es, Sequence.Course true m.agenda b values r b' es := by
  rcases h.bind_get.bind with ⟨_, _, b₁, hsoft, hfatal⟩ | ⟨e, rfl, hsoft⟩
  · obtain ⟨rfl, values, es, hcourse⟩ := runSteps_runs hsoft
    obtain ⟨rfl, values', fs, hcourse'⟩ := runSteps_runs hfatal
    exact ⟨rfl, _, _, hcourse.append hcourse'⟩
  · obtain ⟨rfl, values, es, hcourse⟩ := runSteps_runs hsoft
    exact ⟨rfl, _, _, hcourse.append_of_error _⟩

/-! ## Its commands

A bearer without a context of its own sends the last two commands only.  With one, the families
decide which commands for name servers are sent, and all others are sent in any case. -/

theorem agenda_commands (m : Bearer) : m.agenda.map (·.command) = m.commands := by
  simp [agenda, commands, Function.comp_def]

/-- The command that asks for name servers, as it goes over the line. -/
theorem requestDns_body (cid family : Nat) :
    (Command.requestDns cid family).request.body = "+XDNS=" ++ cid.repr ++ "," ++ family.repr := by
  rw [← String.toList_inj]
  simp [Command.requestDns, Command.set, Request.body, Request.argumentText, Argument.text]

/-- The command that activates the context. -/
theorem activation_body (cid : Nat) :
    (Command.setContextState 1 (some cid)).request.body = "+CGACT=1," ++ cid.repr := by
  have hone : Nat.repr 1 = "1" := rfl
  rw [← String.toList_inj]
  simp [Command.setContextState, Command.set, Request.body, Request.argumentText,
    Argument.text, hone]

theorem enterDataState_body (cid : Nat) :
    (Command.enterDataState "M-RAW_IP" cid).request.body = "+CGDATA=\"M-RAW_IP\"," ++ cid.repr := by
  rw [← String.toList_inj]
  simp [Command.enterDataState, Command.set, Request.body, Request.argumentText, Argument.text]

/-- The commands as they go over the line. -/
theorem commands_bodies (m : Bearer) : m.commands.map (·.request.body) = m.lines := by
  have hone : "," ++ Nat.repr 1 = ",1" := rfl
  have htwo : "," ++ Nat.repr 2 = ",2" := rfl
  have hformat : Command.setIpv6Format.request.body = "+CGPIAF=1,1,0,1" := rfl
  have hchannel : (Command.setDataChannel m.context).request.body =
    "+xdatachannel=1,1,\"/PCIE/IOSM/CTRL/1\",\"/PCIE/IOSM/IPS/0\",2," ++ m.context.repr := rfl
  rw [commands, lines, preparations, essentials]
  split
  · simp [hchannel, enterDataState_body]
  · cases m.family <;>
      simp [Family.hasIpv4, Family.hasIpv6, requestDns_body, activation_body, hchannel,
        enterDataState_body, hformat, String.append_assoc, hone, htwo]

/-- A command of a dial names the context of the bearer, or none. -/
theorem contextOf?_command {c : Command Unit} (h : c ∈ m.commands) :
    contextOf? c.request = none ∨ contextOf? c.request = some m.context := by
  simp only [commands, preparations, essentials, List.mem_append, List.mem_ite_nil_left,
    List.mem_ite_nil_right, List.mem_cons, List.not_mem_nil, or_false] at h
  rcases h with ⟨-, (⟨-, rfl⟩ | ⟨-, rfl | rfl⟩) | rfl⟩ | rfl | rfl
  · exact .inr rfl
  · exact .inr rfl
  · exact .inl rfl
  · exact .inr rfl
  · exact .inr rfl
  · exact .inr rfl

/-! ## Where a dial breaks off

A soft step breaks a dial off only with a reply that cannot be read, a fatal one with any failure.
Places count the steps of this bearer, so the last two are counted from the end. -/

variable {answers : Nat → Except LinkError Bytes} {i : Nat} {e : Error}

/-- The command at that place fails, and that is not put up with: it is one of the last two, or the
failure is not one of those that are put up with. -/
def BreaksOffAt (m : Bearer) (answers : Nat → Except LinkError Bytes) (i : Nat)
    (e : Error) : Prop :=
  ∃ c, m.commands[i]? = some c ∧ c.outcome (answers i) = .error e ∧
    (m.commands.length ≤ i + 2 ∨ ¬ e.Passable)

/-- All steps but the last two are soft. -/
theorem agenda_getElem? (m : Bearer) (i : Nat) :
    m.agenda[i]? =
      m.commands[i]?.map (Step.mk (if m.commands.length ≤ i + 2 then .fatal else .soft)) := by
  have hlength : m.commands.length = (preparations m.context m.family).length + 2 :=
    List.length_append
  rw [hlength, agenda, commands, List.getElem?_append, List.getElem?_append, List.length_map]
  split
  · rw [List.getElem?_map, if_neg (by omega)]
  · rw [List.getElem?_map, if_pos (by omega)]

/-- A step stops just if it is one that breaks the dial off. -/
theorem stopsAt_agenda : Sequence.StopsAt m.agenda answers i e ↔ m.BreaksOffAt answers i e := by
  have hfatal : (if m.commands.length ≤ i + 2 then Severity.fatal else .soft) = .fatal ↔
      m.commands.length ≤ i + 2 := by
    simp
  constructor
  · rintro ⟨s, hs, hfails, hstops⟩
    rw [agenda_getElem?] at hs
    obtain ⟨c, hc, rfl⟩ := Option.map_eq_some_iff.mp hs
    exact ⟨c, hc, hfails, hstops.imp_left hfatal.mp⟩
  · rintro ⟨c, hc, hfails, hbreaks⟩
    refine ⟨_, by rw [agenda_getElem?, hc]; rfl, hfails, hbreaks.imp_left hfatal.mpr⟩

/-! ## What is sent

The context is an argument of some of the commands, at a place that depends on the command.
`NamesLow` looks at that place in everything that is sent. -/

/-- No command names a context of 31 or more. -/
def NamesLow (es : Chronicle) : Prop := ∀ r ∈ es.requests, ∀ n, contextOf? r.2 = some n → n < 31

/-- What names the context of the bearer, or none, names a low one. -/
theorem namesLow_of_requests (m : Bearer) {es : Chronicle} {rs : List Request}
    (hrequests : es.requests.map Prod.snd = rs)
    (h : ∀ r ∈ rs, contextOf? r = none ∨ contextOf? r = some m.context) : NamesLow es := by
  intro r hr n hn
  have hmem : r.2 ∈ rs := hrequests ▸ List.mem_map_of_mem hr
  rcases h _ hmem with hnone | hown
  · rw [hnone] at hn
    cases hn
  · rw [hown] at hn
    obtain rfl := Option.some.inj hn
    exact normalizeCid_lt m.cid

/-- A dial follows the law of sequences and leaves the bearer as it was. -/
theorem dial_performs {p : Performance Bearer Unit} (h : dial.Performs p) :
    p.after = p.before ∧
      ∃ values, Sequence.Law true p.before.agenda (Sequence.answersOf p.occasion.bench) p.chronicle
        values p.result := by
  obtain ⟨b', hruns, hhistory⟩ := h.runs
  obtain ⟨hafter, values, es, hcourse⟩ := dial_runs hruns
  obtain ⟨hgrows, hlaw⟩ := hcourse.law
  obtain rfl : p.chronicle = es := List.append_cancel_left (hhistory.symm.trans hgrows.history)
  exact ⟨hafter, values, hlaw⟩

/-- The commands that a dial sends are the first ones of its list. -/
theorem sent_of_law {p : Performance Bearer Unit} {answers : Nat → Except LinkError Bytes}
    {values : List (Option Unit)}
    (h : Sequence.Law true m.agenda answers p.chronicle values p.result) :
    p.sent = m.lines.take p.sent.length ∧ m.agenda.length = m.lines.length ∧
      p.chronicle.requests.length = p.sent.length ∧ NamesLow p.chronicle := by
  have hcommands : ∀ k, (m.agenda.take k).map (·.command.request) =
      (m.commands.take k).map (·.request) := fun k => by
    rw [← agenda_commands, ← List.map_take, List.map_map]
    rfl
  have hsent := Performance.sent_of_requests h.requests
  have hlength : p.chronicle.requests.length = p.sent.length := (List.length_map ..).symm
  rw [hcommands, List.map_map] at hsent
  refine ⟨?_, ?_, hlength, namesLow_of_requests m h.requests fun r hr => ?_⟩
  · rw [← commands_bodies, ← List.map_take, ← hlength]
    exact hsent
  · rw [← commands_bodies, List.length_map, ← agenda_commands, List.length_map]
  · rw [hcommands] at hr
    obtain ⟨c, hc, rfl⟩ := List.mem_map.mp hr
    exact contextOf?_command (List.mem_of_mem_take hc)

/-! ## The other operations

A disconnect with no context of its own takes all contexts down, and so names none. -/

/-- The settings of a connection, unless there are none for its families. -/
def reported (family : Family) (all : List IpSettings) : Except Error ConnectionSettings :=
  if (settingsOf family all).ipv4.isNone && (settingsOf family all).ipv6.isNone then
    .error (.parse "No IP settings for the requested family")
  else .ok (settingsOf family all)

/-- The command that takes contexts down, as it goes over the line. -/
theorem deactivation_body (m : Bearer) :
    m.deactivation.request.body = "+CGACT=0" ++ if m.context = 0 then ""
      else "," ++ m.context.repr := by
  have hzero : Nat.repr 0 = "0" := rfl
  rw [← String.toList_inj]
  by_cases h : m.context = 0
  · have hnamed : namedCid m.cid = none := if_pos h
    simp [deactivation, hnamed, h, Command.setContextState, Command.set, Request.body,
      Request.argumentText, Argument.text, hzero]
  · have hnamed : namedCid m.cid = some m.context := if_neg h
    simp [deactivation, hnamed, h, Command.setContextState, Command.set, Request.body,
      Request.argumentText, Argument.text, hzero]

/-- It names the context of the bearer, or none. -/
theorem contextOf?_deactivation (m : Bearer) :
    contextOf? m.deactivation.request = none ∨
      contextOf? m.deactivation.request = some m.context := by
  by_cases h : m.context = 0
  · have hnamed : namedCid m.cid = none := if_pos h
    rw [deactivation, hnamed]
    exact .inl rfl
  · have hnamed : namedCid m.cid = some m.context := if_neg h
    rw [deactivation, hnamed]
    exact .inr rfl

/-- A disconnect sends one command, and that names a low context. -/
theorem disconnect_sends {p : Performance Bearer Unit} (h : disconnect.Performs p) :
    p.sent = ["+CGACT=0" ++ if p.before.context = 0 then "" else "," ++ p.before.context.repr] ∧
      NamesLow p.chronicle := by
  obtain ⟨b', hruns, hhistory⟩ := h.runs
  obtain ⟨-, hxs, -⟩ := hruns.bind_get.discard_soft
  have hrequests := (p.recorded hhistory rfl hxs).2
  refine ⟨?_, namesLow_of_requests p.before hrequests
    (List.forall_mem_singleton.mpr (contextOf?_deactivation p.before))⟩
  rw [Performance.sent_of_requests hrequests, ← deactivation_body]
  rfl

/-- The command that asks for the settings, as it goes over the line. -/
theorem contextSettings_body (cid : Nat) :
    (Command.contextSettings cid).request.body = "+CGCONTRDP=" ++ cid.repr := rfl

/-- Asking for the settings is one command and a choice from its reply. -/
theorem loadSettings_eq : loadSettings = (do
    let m ← get
    let all ← send (.contextSettings m.context)
    liftExcept (reported m.family all)) := by
  refine bind_congr fun m => bind_congr fun all => ?_
  unfold reported
  dsimp only
  split <;> rfl

/-- Asking for the settings sends one command, and its reply decides. -/
theorem loadSettings_performs {p : Performance Bearer ConnectionSettings}
    (h : loadSettings.Performs p) :
    p.after = p.before ∧
      p.chronicle.requests.map Prod.snd = [(Command.contextSettings p.before.context).request] ∧
      p.result = ((Command.contextSettings p.before.context).outcome p.answer).bind
        (reported p.before.family) := by
  rw [loadSettings_eq] at h
  obtain ⟨b', hruns, hhistory⟩ := h.runs
  rcases hruns.bind_get.bind with ⟨all, _, b₁, hsend, hrest⟩ | ⟨e, hresult, hsend⟩
  · obtain ⟨rfl, houtcome, before, hanswered⟩ := hsend.send
    obtain ⟨hresult, hafter, rfl⟩ := hrest.liftExcept
    refine ⟨hafter, (p.recorded hhistory rfl (.cons hanswered .nil)).2, ?_⟩
    rw [Performance.answer, ← houtcome]
    exact hresult
  · obtain ⟨hafter, houtcome, before, hanswered⟩ := hsend.send
    refine ⟨hafter, (p.recorded hhistory rfl (.cons hanswered .nil)).2, ?_⟩
    rw [Performance.answer, ← houtcome]
    exact hresult

/-! ## The law -/

/-- **The law of a dial.**  Every dial ends.  What it sends is the beginning of its list of
commands, each sent right after a look at the token that found it not set.  It succeeds just if the
whole list was sent, no command but the last two failed in a way that is not put up with, and the
last two did not fail at all.  Otherwise it ends with the first command that did, and with its
error, or right before the first one that was due while the token was set, and then it is cancelled.
A dial, a disconnect, which has one command, and a request for the settings, which has one too, name
no context of 31 or more. -/
theorem data_channel_outcome (m : Bearer) (here there elsewhere : Occasion) :
    (∃ p, p.occasion = here ∧ p.before = m ∧ dial.Performs p ∧ p.after = m ∧
      p.sent <+: m.lines ∧ p.chronicle.Watched ∧
      (∀ i < p.sent.length, ¬ Sequence.TokenSetAt p.chronicle i) ∧
      (∀ i e, i + 1 < p.sent.length → ¬ m.BreaksOffAt (Sequence.answersOf here.bench) i e) ∧
      (p.result = .ok () ↔ p.sent = m.lines ∧
        ∀ i e, ¬ m.BreaksOffAt (Sequence.answersOf here.bench) i e) ∧
      (∀ e, p.result = .error e ↔
        (∃ i, i + 1 = p.sent.length ∧ m.BreaksOffAt (Sequence.answersOf here.bench) i e) ∨
          e = .cancelled ∧ Sequence.TokenSetAt p.chronicle p.sent.length) ∧
      NamesLow p.chronicle) ∧
    (∃ p, p.occasion = there ∧ p.before = m ∧ disconnect.Performs p ∧
      p.sent = ["+CGACT=0" ++ if m.context = 0 then "" else "," ++ m.context.repr] ∧
      NamesLow p.chronicle) ∧
    ∃ p, p.occasion = elsewhere ∧ p.before = m ∧ loadSettings.Performs p ∧
      p.sent = ["+CGCONTRDP=" ++ m.context.repr] ∧ NamesLow p.chronicle := by
  refine ⟨?_, ?_, ?_⟩
  · obtain ⟨p, rfl, rfl, hp⟩ := exists_performs dial m here
    obtain ⟨hafter, values, hlaw⟩ := dial_performs hp
    obtain ⟨hsent, hlines, hlength, hlow⟩ := sent_of_law hlaw
    refine ⟨p, rfl, rfl, hp, hafter, hsent ▸ List.take_prefix _ _, hlaw.looked rfl,
      fun i hi htoken => ?_, fun i e hi hbreaks => ?_, ?_, fun e => ?_, hlow⟩
    · rw [hlaw.tokenSet_iff] at htoken
      omega
    · exact hlaw.passed i e (by omega) (stopsAt_agenda.mpr hbreaks)
    · -- what was sent is a prefix of the lines, so its length tells whether it is all of them
      have hall : p.sent.length = p.before.lines.length ↔ p.sent = p.before.lines :=
        ⟨fun h => by rw [hsent, h, List.take_length], fun h => by rw [h]⟩
      rw [hlaw.ok_iff, hlength, hlines, hall]
      simp only [stopsAt_agenda]
    · rw [hlaw.error_iff, hlength]
      simp only [stopsAt_agenda]
  · obtain ⟨p, hoccasion, rfl, hp⟩ := exists_performs disconnect m there
    exact ⟨p, hoccasion, rfl, hp, disconnect_sends hp⟩
  · obtain ⟨p, hoccasion, rfl, hp⟩ := exists_performs loadSettings m elsewhere
    obtain ⟨-, hrequests, -⟩ := loadSettings_performs hp
    refine ⟨p, hoccasion, rfl, hp, ?_,
      namesLow_of_requests p.before hrequests (List.forall_mem_singleton.mpr (.inr rfl))⟩
    rw [Performance.sent_of_requests hrequests, ← contextSettings_body]
    rfl

end Bearer

end Xmm

end Cellular
