import Cellular.Proofs.Procedure.Session
import Cellular.Vendor.Cinterion
/-!
# The choice of modes and of an operator

A Cinterion module has one command for both: `+COPS` registers with an operator, or automatically,
and it can also force a single access technology.  So whoever chooses modes that are not forced has
to give the command that the module was last given, and whoever forgot it would change the operator.

There are three ways for a choice of modes to go (`Chosen`) and three for a registration
(`Registered`); each says what is sent and what is remembered afterwards.  In a session of both the
modem remembers the operator of the last registration that succeeded (`lastAccepted`), and nothing
but such a registration changes that.

The combinations of modes that are listed and those that are forced agree as far as the radio has
the technology.  What is not listed is not refused for that: only a preference is.

The invariant of a session is that the modem remembers the operator of the last registration that
succeeded (`Remembers`).  A registration that fails, and one whose operator has too long a number to
be sent, leave it alone; so does every choice of modes, whichever command it sends.  What is
restored by a choice that is not forced is then what the invariant says.

The second law compares two functions of the modem that do not call each other, what it lists and
what it takes.  Neither is a part of the other.
-/

namespace Cellular

/-- There is one set of modes without any. -/
theorem Modes.isNone_iff {a : Modes} : a.isNone = true ↔ a = .none := by
  obtain ⟨bits⟩ := a
  simp [isNone, none]

/-- As long as the vendor's list is short enough, nothing falls off the end of what is listed. -/
theorem ModeCombination.mem_filterSupported {generic vendor : List ModeCombination}
    (hshort : vendor.length ≤ listCapacity) {c : ModeCombination} :
    c ∈ filterSupported generic vendor ↔ c ∈ vendor ∧
    ∃ g ∈ generic, g.allowed.contains c.allowed = true := by
  have hfits :=
    Nat.le_trans (List.length_filter_le (fun m => generic.any (·.allowed.contains m.allowed))
      vendor) hshort
  rw [filterSupported, List.take_of_length_le hfits, List.mem_filter, List.any_eq_true]

namespace Cinterion

open Operation

/-! ## What is sent

Commands are compared as texts, since a choice of modes restores the operator by the very command
with which it was registered. -/

/-- The command that chooses an operator, or leaves the choice to the modem. -/
def restoring : Option String → String
  | some operator => "+COPS=1,2,\"" ++ operator ++ "\""
  | none => "+COPS=0"

/-- The command that registers is the one that restores. -/
theorem selection_body (operator : Option String) :
    (selection operator).request.body = restoring operator := by
  cases operator with
  | none => rfl
  | some operator =>
    have htext : (selection (some operator)).request.argumentText = "\"" ++ operator ++ "\"" := by
      simp [selection, Command.manualOperator, Command.joined, Request.argumentText, Argument.text]
    have hname : "+COPS=1,2," ++ "\"" = "+COPS=1,2,\"" := rfl
    calc (selection (some operator)).request.body
      _ = "+COPS=1,2," ++ (selection (some operator)).request.argumentText := rfl
      _ = "+COPS=1,2," ++ "\"" ++ operator ++ "\"" := by rw [htext]; simp only [String.append_assoc]
      _ = restoring (some operator) := by rw [hname]; rfl

theorem operatorTechnology_body (act : Nat) :
    (Command.operatorTechnology act).request.body = "+COPS=,,," ++ act.repr := by
  simp [Command.operatorTechnology, Command.joined, Request.body, Request.argumentText,
    Argument.text]

/-! ## One call

Both calls are told by what is sent, what comes of it, and what is remembered afterwards.  A
technology is forced if it is the only one of the combination and the radio has it. -/

variable {p : Performance Cinterion Unit} {operator : Option String} {mode : ModeCombination}

/-- How a registration goes. -/
inductive Registered (operator : Option String) (p : Performance Cinterion Unit) : Prop
  /-- The operator's number is too long, and nothing is sent. -/
  | overlong (id : String) (hid : operator = some id)
    (hlong : Command.operatorCapacity < id.utf8ByteSize)
    (hresult : p.result = .error .overflow) (hafter : p.after = p.before) (hsent : p.sent = [])
  /-- The modem does not take it. -/
  | refused (hshort : ∀ id, operator = some id → id.utf8ByteSize ≤ Command.operatorCapacity)
    (hsent : p.sent = [restoring operator]) (e : Error) (hresult : p.result = .error e)
    (hafter : p.after = p.before)
  /-- The modem takes it, and it is remembered. -/
  | accepted (hshort : ∀ id, operator = some id → id.utf8ByteSize ≤ Command.operatorCapacity)
    (hsent : p.sent = [restoring operator])
    (hanswer : (selection operator).outcome p.answer = .ok ())
    (hresult : p.result = .ok ()) (hafter : p.after = { p.before with operator })

/-- How a choice of modes goes. -/
inductive Chosen (mode : ModeCombination) (p : Performance Cinterion Unit) : Prop
  /-- A mode is preferred, and nothing is sent. -/
  | preferring (hpreferred : mode.preferred ≠ .none)
    (hresult : p.result = .error (.unsupported (.modes mode)))
    (hafter : p.after = p.before) (hsent : p.sent = [])
  /-- A single technology that the radio has is forced. -/
  | forced (act : Nat) (hlisted : (mode.allowed, act) ∈ forcedTechnologies)
    (hradio : p.before.radio.contains mode.allowed = true) (hpreferred : mode.preferred = .none)
    (hresult : p.result = (Command.operatorTechnology act).outcome p.answer)
    (hafter : p.after = p.before) (hsent : p.sent = ["+COPS=,,," ++ act.repr])
  /-- The last choice of an operator is restored. -/
  | restored (hnot : ∀ act, (mode.allowed, act) ∈ forcedTechnologies →
      p.before.radio.contains mode.allowed = false)
    (hpreferred : mode.preferred = .none)
    (hresult : p.result = (selection p.before.operator).outcome p.answer)
    (hafter : p.after = p.before) (hsent : p.sent = [restoring p.before.operator])

/-- Once it is known that the operator's number is short enough. -/
theorem register_runs {m m' : Cinterion} {b b' : Bench} {r : Except Error Unit}
    (h : (do send (selection operator); modify fun m => { m with
      operator } : Operation Cinterion Unit).Runs m b r m' b') :
    (∃ before, b.Answered (selection operator).request before b.turn.answer [] b') ∧
      r = (selection operator).outcome b.turn.answer ∧
      ((∃ e, r = .error e ∧ m' = m) ∨ (r = .ok () ∧ m' = { m with operator })) := by
  rcases h.bind with ⟨_, m₁, b₁, hsend, hmodify⟩ | ⟨e, rfl, hsend⟩
  · obtain ⟨rfl, hresult, hanswered⟩ := hsend.send
    obtain ⟨rfl, rfl, rfl⟩ := hmodify.modify
    exact ⟨hanswered, hresult, .inr ⟨rfl, rfl⟩⟩
  · obtain ⟨rfl, hresult, hanswered⟩ := hsend.send
    exact ⟨hanswered, hresult, .inl ⟨e, rfl, rfl⟩⟩

/-- Every registration goes in one of these ways. -/
theorem registerInNetwork_performs (h : (registerInNetwork operator).Performs p) :
    Registered operator p := by
  obtain ⟨b', hruns, hhistory⟩ := h.runs
  unfold registerInNetwork at hruns
  -- an id that is too long is refused before anything is sent
  split at hruns
  · rename_i hlong
    obtain ⟨id, rfl, hid⟩ : ∃ id, operator = some id ∧
        Command.operatorCapacity < id.utf8ByteSize := by
      simpa [Option.any_eq_true] using hlong
    obtain ⟨hresult, hafter, rfl⟩ := hruns.bind_throw
    exact .overlong id rfl hid hresult hafter (Performance.sent_nothing hhistory rfl)
  · rename_i hlong
    have hshort : ∀ id, operator = some id → id.utf8ByteSize ≤ Command.operatorCapacity := by
      rintro id rfl
      simpa using hlong
    obtain ⟨⟨before, hanswered⟩, hresult, hends⟩ := register_runs hruns
    have hsent : p.sent = [(selection operator).request.body] :=
      Performance.sent_eq hhistory (.cons hanswered .nil)
    rw [selection_body] at hsent
    rcases hends with ⟨e, hr, hafter⟩ | ⟨hr, hafter⟩
    · exact .refused hshort hsent e hr hafter
    · exact .accepted hshort hsent (hresult.symm.trans hr) hr hafter

/-- Every choice of modes goes in one of these ways. -/
theorem setCurrentModes_performs (h : (setCurrentModes mode).Performs p) : Chosen mode p := by
  obtain ⟨b', hruns, hhistory⟩ := h.runs
  unfold setCurrentModes at hruns
  split at hruns
  · rename_i hpreferred
    obtain ⟨hresult, hafter, rfl⟩ := hruns.bind_throw
    refine .preferring (fun hnone => ?_) hresult hafter (Performance.sent_nothing hhistory rfl)
    rw [Modes.isNone_iff.mpr hnone] at hpreferred
    cases hpreferred
  · rename_i hpreferred
    have hnone : mode.preferred = .none := Modes.isNone_iff.mp (by simpa using hpreferred)
    have hsend := hruns.bind_get
    split at hsend
    · rename_i t act hfind
      -- the entry that is found has the technology of the choice, and the radio has it too
      have hforced := List.find?_some hfind
      simp only [Bool.and_eq_true, decide_eq_true_eq] at hforced
      obtain ⟨rfl, hradio⟩ := hforced
      obtain ⟨hafter, hresult, before, hanswered⟩ := hsend.send
      have hsent : p.sent = [(Command.operatorTechnology act).request.body] :=
        Performance.sent_eq hhistory (.cons hanswered .nil)
      rw [operatorTechnology_body] at hsent
      exact .forced act (List.mem_of_find?_eq_some hfind) hradio hnone hresult hafter hsent
    · rename_i hfind
      obtain ⟨hafter, hresult, before, hanswered⟩ := hsend.send
      have hsent : p.sent = [(selection p.before.operator).request.body] :=
        Performance.sent_eq hhistory (.cons hanswered .nil)
      rw [selection_body] at hsent
      refine .restored (fun act hact => ?_) hnone hresult hafter hsent
      simpa using List.find?_eq_none.mp hfind _ hact

/-! ## A session

The last operator that was accepted is found by looking back through the calls.  No registration at
all and an automatic one are the same: there is no operator to restore. -/

/-- What a session is made of. -/
inductive Choice where
  /-- Register with an operator, or automatically. -/
  | register (operator : Option String)
  /-- Choose modes. -/
  | modes (mode : ModeCombination)

namespace Choice

/-- What is done about it. -/
def perform : Choice → Operation Cinterion Unit
  | register operator => registerInNetwork operator
  | modes mode => setCurrentModes mode

/-- The operator that was chosen, if the call was a registration and succeeded. -/
def accepted? : Choice × Performance Cinterion Unit → Option (Option String)
  | (register operator, p) =>
    match p.result with
    | .ok () => some operator
    | .error _ => none
  | (modes _, _) => none

end Choice

/-- The operator of the last registration that succeeded; there is none if that was automatic or if
none has. -/
def lastAccepted (past : List (Choice × Performance Cinterion Unit)) : Option String :=
  (past.filterMap Choice.accepted?).getLast?.join

variable {past : List (Choice × Performance Cinterion Unit)} {radio : Modes}

/-- One more call counts if it is a registration that succeeded. -/
theorem lastAccepted_append (past : List (Choice × Performance Cinterion Unit))
    (e : Choice × Performance Cinterion Unit) :
    lastAccepted (past ++ [e]) = (Choice.accepted? e).getD (lastAccepted past) := by
  rw [lastAccepted, List.filterMap_append]
  cases h : Choice.accepted? e with
  | none => simp [h, lastAccepted]
  | some operator => simp [h]

/-- What is remembered during a session. -/
structure Remembers (radio : Modes) (past : List (Choice × Performance Cinterion Unit))
    (m : Cinterion) : Prop where
  operator : m.operator = lastAccepted past
  radio : m.radio = radio

/-- A registration is remembered if it succeeds, and nothing else changes what is remembered. -/
theorem Remembers.step {call : Choice} (hp : call.perform.Performs p)
    (h : Remembers radio past p.before) :
    Remembers radio (past ++ [(call, p)]) p.after := by
  -- a choice that was not accepted leaves the modem and the memory as they are
  have hsame : p.after = p.before → Choice.accepted? (call, p) = none →
      Remembers radio (past ++ [(call, p)]) p.after :=
    fun hafter hnone => by
      rw [hafter]
      exact ⟨by rw [lastAccepted_append, hnone]; exact h.operator, h.radio⟩
  cases call with
  | register operator =>
    cases registerInNetwork_performs hp with
    | overlong id hid hlong hresult hafter =>
      exact hsame hafter (by simp only [Choice.accepted?, hresult])
    | refused hshort hsent e hresult hafter =>
      exact hsame hafter (by simp only [Choice.accepted?, hresult])
    | accepted hshort hsent hanswer hresult hafter =>
      have haccepted : Choice.accepted? (.register operator, p) = some operator := by
        simp only [Choice.accepted?, hresult]
      exact ⟨by rw [lastAccepted_append, haccepted, hafter]; rfl, by rw [hafter]; exact h.radio⟩
  | modes mode =>
    cases setCurrentModes_performs hp with
    | preferring _ _ hafter => exact hsame hafter rfl
    | forced _ _ _ _ _ hafter => exact hsame hafter rfl
    | restored _ _ _ hafter => exact hsame hafter rfl

/-- The modes are a single technology that the radio has. -/
def Forces (radio : Modes) (mode : ModeCombination) : Prop :=
  (mode.allowed = .g4 ∨ mode.allowed = .g3 ∨ mode.allowed = .g2) ∧
    radio.contains mode.allowed = true

/-- A technology of the table that the radio has is forced. -/
theorem forces_of_listed {act : Nat} (hlisted : (mode.allowed, act) ∈ forcedTechnologies)
    (hradio : radio.contains mode.allowed = true) : Forces radio mode := by
  refine ⟨?_, hradio⟩
  simp only [forcedTechnologies, List.mem_cons, Prod.mk.injEq, List.not_mem_nil, or_false]
    at hlisted
  exact hlisted.imp And.left (Or.imp And.left And.left)

/-- **The choice of an operator sticks.**  In every session a choice of modes that neither prefers
one nor forces a technology gives the command for the operator of the last registration that
succeeded.  A registration that the modem rejects, or whose operator's number is too long to be
sent, changes nothing about that, and neither does a choice of modes. -/
theorem selection_sticks (radio : Modes) (config : Config) (calls : List (Choice × Occasion)) :
    ∃ entries, Session Choice.perform (ofConfig radio config) entries ∧
      entries.map (fun e => (e.1, e.2.occasion)) = calls ∧
      ∀ past call p later, entries = past ++ (call, p) :: later →
        p.before.operator = lastAccepted past ∧
        (∀ mode, call = .modes mode →
          p.after.operator = p.before.operator ∧
          (mode.preferred = .none → ¬ Forces radio mode →
            p.sent = [restoring (lastAccepted past)])) ∧
        (∀ operator, call = .register operator →
          (∀ cause, p.answer = .error cause → ∃ e, p.result = .error e) ∧
          (∀ e, p.result = .error e → p.after.operator = p.before.operator) ∧
          (∀ id, operator = some id → 8 < id.utf8ByteSize → p.result = .error .overflow ∧
            p.sent = [])) := by
  obtain ⟨entries, hsession, hcalls⟩ := exists_session Choice.perform (ofConfig radio config) calls
  refine ⟨entries, hsession, hcalls, fun past call p later hsplit => ?_⟩
  -- the invariant: what is remembered is the last choice that was accepted
  obtain ⟨hp, hoperator, hradio⟩ := hsession.invariant (I := Remembers radio) ⟨rfl, rfl⟩
    (fun past call p hp h => h.step hp) past call p later hsplit
  refine ⟨hoperator, ?_, ?_⟩
  · rintro mode rfl
    cases setCurrentModes_performs hp with
    | preferring hpreferred _ hafter => exact ⟨by rw [hafter], fun hnone => absurd hnone hpreferred⟩
    | forced act hlisted hcontains _ _ hafter =>
      exact ⟨by rw [hafter], fun _ hnot =>
        absurd (forces_of_listed hlisted (hradio ▸ hcontains)) hnot⟩
    | restored _ _ _ hafter hsent => exact ⟨by rw [hafter], fun _ _ => by rw [hsent, hoperator]⟩
  · rintro operator rfl
    cases registerInNetwork_performs hp with
    | overlong id hid hlong hresult hafter hsent =>
      exact ⟨fun _ _ => ⟨_, hresult⟩, fun _ _ => by rw [hafter], fun _ _ _ => ⟨hresult, hsent⟩⟩
    | refused hshort hsent e hresult hafter =>
      refine ⟨fun _ _ => ⟨e, hresult⟩, fun _ _ => by rw [hafter], fun id hid hlong => ?_⟩
      exact absurd (hshort id hid) (Nat.not_le.mpr hlong)
    | accepted hshort hsent hanswer hresult hafter =>
      refine ⟨fun cause hcause => ?_, fun e he => ?_, fun id hid hlong => ?_⟩
      · rw [hcause] at hanswer
        cases hanswer
      · rw [hresult] at he
        cases he
      · exact absurd (hshort id hid) (Nat.not_le.mpr hlong)

/-! ## What is listed

A radio has a list of combinations of its own, and what is listed is as much of it as the generic
modem reports as well.  The lists are short enough that nothing is cut off. -/

/-- Nothing is sent, and what is listed is what the module has within what the generic modem
reports. -/
theorem loadSupportedModes_performs {p : Performance Cinterion (List ModeCombination)}
    (h : loadSupportedModes.Performs p) :
    p.after = p.before ∧ p.sent = [] ∧
      p.result =
        p.occasion.bench.askParentModes.2.map
          (ModeCombination.filterSupported · (combinations p.before.radio)) := by
  obtain ⟨b', hruns, hhistory⟩ := h.runs
  unfold loadSupportedModes at hruns
  rcases hruns.bind with ⟨generic, m, b₁, hparent, hrest⟩ | ⟨e, hresult, hparent⟩
  · obtain ⟨rfl, hgeneric, rfl⟩ := hparent.parentModes
    obtain ⟨hresult, hafter, rfl⟩ := hrest.bind_get.pure
    exact ⟨hafter, Performance.sent_nothing hhistory rfl, by rw [hresult, ← hgeneric]; rfl⟩
  · obtain ⟨hafter, hfault, rfl⟩ := hparent.parentModes
    exact ⟨hafter, Performance.sent_nothing hhistory rfl, by rw [hresult, ← hfault]; rfl⟩

theorem length_combinations (radio : Modes) :
    (combinations radio).length ≤ ModeCombination.listCapacity := by
  unfold combinations
  split <;> decide

/-- No combination with a preference is listed. -/
theorem preferred_of_listed {c : ModeCombination} (h : c ∈ combinations radio) :
    c.preferred = .none := by
  unfold combinations at h
  split at h <;> simp only [List.cons_append, List.nil_append, List.mem_cons, List.not_mem_nil,
    or_false] at h
  · rcases h with rfl | rfl | rfl | rfl <;> rfl
  · rcases h with rfl | rfl | rfl <;> rfl

/-- Every technology that is forced is listed by itself. -/
theorem listed_of_forces (hforces : Forces radio mode) (hpreferred : mode.preferred = .none) :
    mode ∈ combinations radio := by
  obtain ⟨allowed, preferred⟩ := mode
  obtain rfl : preferred = .none := hpreferred
  obtain ⟨rfl | rfl | rfl, hradio⟩ := hforces
  · unfold combinations
    rw [if_pos hradio]
    exact List.mem_append_right _ List.mem_cons_self
  · exact List.mem_append_left _ (List.mem_cons_of_mem _ List.mem_cons_self)
  · exact List.mem_append_left _ List.mem_cons_self

/-- A technology is forced in one way. -/
theorem act_unique {allowed : Modes} {act act' : Nat} (h : (allowed, act) ∈ forcedTechnologies)
    (h' : (allowed, act') ∈ forcedTechnologies) : act = act' := by
  simp only [forcedTechnologies, List.mem_cons, Prod.mk.injEq, List.not_mem_nil, or_false] at h h'
  rcases h with ⟨rfl, rfl⟩ | ⟨rfl, rfl⟩ | ⟨rfl, rfl⟩ <;>
    exact Eq.symm (by simpa [Modes.g4, Modes.g3, Modes.g2] using h')

/-- **What is listed and what is chosen.**  The combinations that are listed are those that the
module has for its radio and that lie within one of the generic modem's.  Whichever of them allows
just one technology that the radio has is chosen by forcing that technology.  A combination with a
preference is refused, and nothing is sent.  One without, that the module does not have, is none the
less taken: the last choice of an operator is restored. -/
theorem listed_modes_chosen (m : Cinterion) (mode : ModeCombination) (here there : Occasion) :
    ∃ p q, p.occasion = here ∧ p.before = m ∧ loadSupportedModes.Performs p ∧
      q.occasion = there ∧ q.before = p.after ∧ (setCurrentModes mode).Performs q ∧
      (here.bench.parentFault = none → ∃ listed, p.result = .ok listed ∧
        (∀ c, c ∈ listed ↔ c ∈ combinations m.radio ∧
          ∃ g ∈ here.bench.parentModes.take ModeCombination.listCapacity,
          g.allowed.contains c.allowed = true) ∧
        ∀ act, mode ∈ listed → (mode.allowed, act) ∈ [(.g4, 7), (.g3, 2), (.g2, 0)] →
          m.radio.contains mode.allowed = true → q.sent = ["+COPS=,,," ++ act.repr]) ∧
      (mode.preferred ≠ .none → q.result = .error (.unsupported (.modes mode)) ∧ q.sent = []) ∧
      (mode ∉ combinations m.radio → mode.preferred = .none → q.sent = [restoring m.operator]) := by
  obtain ⟨p, hhere, rfl, hp⟩ := exists_performs loadSupportedModes m here
  obtain ⟨q, hthere, hbefore, hq⟩ := exists_performs (setCurrentModes mode) p.after there
  obtain ⟨hsame, -, hresult⟩ := loadSupportedModes_performs hp
  rw [hsame] at hbefore
  have hchosen := setCurrentModes_performs hq
  refine ⟨p, q, hhere, rfl, hp, hthere, by rw [hbefore, hsame], hq, fun hfault => ?_,
    fun hpreferred => ?_, fun hunlisted hnone => ?_⟩
  · have hok : p.result = .ok (ModeCombination.filterSupported
        (here.bench.parentModes.take ModeCombination.listCapacity)
        (combinations p.before.radio)) := by
      rw [hresult, hhere, Bench.askParentModes, hfault]
      rfl
    refine ⟨_, hok, fun c => ModeCombination.mem_filterSupported (length_combinations _),
      fun act hlisted hact hradio => ?_⟩
    -- nothing that is listed has a preference, so the choice is not refused
    have hnone := preferred_of_listed
      ((ModeCombination.mem_filterSupported (length_combinations _)).mp hlisted).1
    cases hchosen with
    | preferring hpreferred => exact absurd hnone hpreferred
    | forced act' hact' _ _ _ _ hsent => rw [hsent, act_unique hact' hact]
    | restored hnot =>
      have hlacks := hnot act hact
      rw [hbefore, hradio] at hlacks
      cases hlacks
  · cases hchosen with
    | preferring _ hrefused _ hsent => exact ⟨hrefused, hsent⟩
    | forced _ _ _ hnone => exact absurd hnone hpreferred
    | restored _ hnone => exact absurd hnone hpreferred
  · cases hchosen with
    | preferring hpreferred => exact absurd hnone hpreferred
    | forced act hact hradio =>
      rw [hbefore] at hradio
      exact absurd (listed_of_forces (forces_of_listed hact hradio) hnone) hunlisted
    | restored _ _ _ _ hsent => rw [hsent, hbefore]

/-- The module answers a command with `OK`, and the generic modem reports any mode at all. -/
def obliging : Occasion where
  bench := { script := [{ answer := .ok [] }], parentModes := [.only .any] }

/-- What is listed and what is taken differ both ways.  A module with 2G, 3G and 4G takes 5G alone,
which it does not list; a module with only 2G lists 3G alone, and does not force it. -/
theorem list_and_choice_differ :
    (∃ q, q.occasion = obliging ∧ q.before = ofConfig (.g2 ||| .g3 ||| .g4) {} ∧
      (setCurrentModes (.only .g5)).Performs q ∧ ModeCombination.only .g5 ≠ .only .any ∧
      ModeCombination.only .g5 ∉ combinations (.g2 ||| .g3 ||| .g4) ∧ q.result = .ok () ∧
      q.sent = ["+COPS=0"]) ∧
    (∃ p q, p.occasion = obliging ∧ p.before = ofConfig .g2 {} ∧ loadSupportedModes.Performs p ∧
      p.result = .ok [.only .g2, .only .g3, .only (.g2 ||| .g3)] ∧
      q.occasion = obliging ∧ q.before = p.after ∧ (setCurrentModes (.only .g3)).Performs q ∧
      q.sent = ["+COPS=0"]) := by
  constructor
  · -- not listed and yet taken: the last selection is restored
    obtain ⟨q, hoccasion, hbefore, hq⟩ :=
      exists_performs (setCurrentModes (.only .g5)) (ofConfig (.g2 ||| .g3 ||| .g4) {}) obliging
    refine ⟨q, hoccasion, hbefore, hq, by decide, by decide, ?_⟩
    cases setCurrentModes_performs hq with
    | preferring hpreferred => exact absurd rfl hpreferred
    | forced act hlisted => simp [forcedTechnologies, ModeCombination.only, Modes.g5, Modes.g4,
        Modes.g3, Modes.g2] at hlisted
    | restored _ _ hresult _ hsent =>
      rw [Performance.answer, hoccasion, hbefore] at hresult
      rw [hbefore] at hsent
      exact ⟨hresult, hsent⟩
  · -- listed and not forced: the radio lacks it
    obtain ⟨p, hhere, hbefore, hp⟩ := exists_performs loadSupportedModes (ofConfig .g2 {}) obliging
    obtain ⟨q, hthere, hafter, hq⟩ := exists_performs (setCurrentModes (.only .g3)) p.after obliging
    obtain ⟨hsame, -, hresult⟩ := loadSupportedModes_performs hp
    rw [hhere, hbefore] at hresult
    refine ⟨p, q, hhere, hbefore, hp, hresult, hthere, hafter, hq, ?_⟩
    rw [hsame, hbefore] at hafter
    cases setCurrentModes_performs hq with
    | preferring hpreferred => exact absurd rfl hpreferred
    | forced _ _ hradio =>
      rw [hafter] at hradio
      exact absurd hradio (by decide)
    | restored _ _ _ _ hsent => rw [hsent, hafter]; rfl

end Cinterion

end Cellular
