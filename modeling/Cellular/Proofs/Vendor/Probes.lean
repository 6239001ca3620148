import Cellular.Proofs.Vendor.Features
/-!
# Features are found out once

In every session of a Cinterion modem, whatever is asked of it and whatever it answers, the question
about a feature is put at most once, and the answer to it stays.  There is one invariant for each
feature.  `KnowsLevel` and `KnowsWwan` say that all that was done agrees with what is known now.
The one for the reports reads what is known off the session: it is the answer to the first command
that switched them on (`psinfoAfter`).

Each invariant is kept by every task (`KnowsLevel.step` and its like), and for most tasks that is
because they neither send a command of the feature nor change what is known of it.  `Goes.topic` and
`Goes.keeps` say so once for all three features: which task may send commands of which topic, and
which may change what is known.  What remains for a step is the one task that is about the feature.
-/

namespace Cellular.Cinterion

open Operation

variable {p : Performance Cinterion Value} {m : Cinterion} {task : Task}

/-! ## What a task has to do with a feature

The topic of a task is how its commands begin.  No two topics are the same, and so a task that is
about one feature is known not to be about the others by its name alone. -/

/-- What a task's commands are about, if they are about a feature: how they begin. -/
def Task.topic? : Task → Option String
  | .powerDown => some "+CFUN"
  | .createBearer => some "^SWWAN"
  | .enableEvents => some "^SIND=\"psinfo\""
  | .disableEvents => some "^SIND=\"psinfo\""
  | _ => none

theorem eq_powerDown (h : task.topic? = some "+CFUN") : task = .powerDown := by
  cases task <;> simp_all [Task.topic?]

theorem eq_createBearer (h : task.topic? = some "^SWWAN") : task = .createBearer := by
  cases task <;> simp_all [Task.topic?]

theorem eq_events (h : task.topic? = some "^SIND=\"psinfo\"") :
    task = .enableEvents ∨ task = .disableEvents := by
  cases task <;> simp_all [Task.topic?]

/-- No two features are asked about in the same way. -/
theorem topic_unique {start start' body : String} (h : start ∈ featureCommands)
    (h' : start' ∈ featureCommands) (hbody : start.toList <+: body.toList)
    (hbody' : start'.toList <+: body.toList) : start = start' := by
  have hapart : ∀ s ∈ featureCommands, ∀ t ∈ featureCommands, s.toList <+: t.toList ∨
      t.toList <+: s.toList → s = t := by
    decide
  exact hapart _ h _ h' (List.prefix_or_prefix_of_prefix hbody hbody')

/-- A command about a feature is only sent by a task that is about it. -/
theorem Goes.topic (h : Goes p task) {body : String} (start : String) (hbody : body ∈ p.sent)
    (hstart : start ∈ featureCommands) (hbegins : start.toList <+: body.toList) :
    task.topic? = some start := by
  -- no command begins with two of the topics, so it is enough that the task sends one of its own
  have hone : ∀ topic ∈ featureCommands, topic.toList <+: body.toList → some topic = some start :=
    fun topic htopic htext =>
    congrArg some (topic_unique htopic hstart htext hbegins)
  cases h with
  | powerDown hfinds =>
    refine hone "+CFUN" (by decide) ?_
    rw [hfinds.sent] at hbody
    rcases List.mem_append.mp hbody with hasked | hlevel
    · split at hasked
      · obtain rfl := List.mem_singleton.mp hasked
        decide
      · cases hasked
    · exact SleepMode.commands_prefix hlevel
  | createBearer hfinds =>
    refine hone "^SWWAN" (by decide) ?_
    rw [hfinds.sent] at hbody
    split at hbody
    · obtain rfl := List.mem_singleton.mp hbody
      decide
    · cases hbody
  | enableEvents hfeatures hexchanges hsent =>
    refine hone "^SIND=\"psinfo\"" (by decide) ?_
    rw [hsent, hexchanges] at hbody
    split at hbody
    · cases hbody
    · obtain rfl := List.mem_singleton.mp hbody
      show _ <+: (Command.setIndicator "psinfo" 1).request.body.toList
      decide
  | disableEvents hafter hsent =>
    refine hone "^SIND=\"psinfo\"" (by decide) ?_
    rw [hsent] at hbody
    split at hbody
    · obtain rfl := List.mem_singleton.mp hbody
      decide
    · cases hbody
  | reported hfeatures hsupported hresult hsent =>
    rw [hsent] at hbody
    cases hbody
  | polled hfeatures hother hsent =>
    rw [hsent] at hbody
    obtain rfl := List.mem_singleton.mp hbody
    exact absurd hbegins ((by decide : Aside "^SMONG") start hstart)
  | aside hconcerned hfeatures hsent => exact absurd hbegins (hsent body hbody start hstart)

/-- Which task may change what is known of which feature. -/
structure Keeps (task : Task) (known known' : Features) : Prop where
  hasNetPort : known'.hasNetPort = known.hasNetPort
  sleepMode : task ≠ .powerDown → known'.sleepMode = known.sleepMode
  wwan : task ≠ .createBearer → known'.wwan = known.wwan
  psinfo : task ≠ .enableEvents → known'.psinfo = known.psinfo

/-- What is known of a feature is changed by its own task alone. -/
theorem Goes.keeps (h : Goes p task) : Keeps task p.before.features p.after.features := by
  have hsame : p.after.features = p.before.features →
      Keeps task p.before.features p.after.features := fun hfeatures => by
    rw [hfeatures]
    exact ⟨rfl, fun _ => rfl, fun _ => rfl, fun _ => rfl⟩
  -- an operation touches one feature at most
  cases h with
  | powerDown hfinds =>
    rw [hfinds.rest]
    exact ⟨rfl, fun h => absurd rfl h, fun _ => rfl, fun _ => rfl⟩
  | createBearer hfinds =>
    rw [hfinds.rest]
    exact ⟨rfl, fun _ => rfl, fun h => absurd rfl h, fun _ => rfl⟩
  | enableEvents hfeatures =>
    rw [hfeatures]
    exact ⟨rfl, fun _ => rfl, fun _ => rfl, fun h => absurd rfl h⟩
  | disableEvents hafter => exact hsame (congrArg features hafter)
  | reported hfeatures => exact hsame hfeatures
  | polled hfeatures => exact hsame hfeatures
  | aside hconcerned hfeatures => exact hsame hfeatures

/-- Putting the radio to sleep finds the level out. -/
theorem Goes.findsLevel (h : Goes p .powerDown) : FindsLevel p.before p.after p.sent := by
  cases h with
  | powerDown hfinds => exact hfinds
  | aside hconcerned => exact absurd trivial hconcerned

/-- Creating a bearer finds out whether there are network connections. -/
theorem Goes.findsWwan (h : Goes p .createBearer) :
    FindsWwan p.before p.after (p.before.wwan = .unknown ∧ p.before.hasNetPort = true) p.sent ∧
      p.result = .ok (.kind p.after.wwan.bearerKind) := by
  cases h with
  | createBearer hfinds hresult => exact ⟨hfinds, hresult⟩
  | aside hconcerned => exact absurd trivial hconcerned

/-! ## A session

Counting is done over the texts of all commands that were sent in the course of a session, so a
command counts whoever sent it. -/

/-- Calls that were made, and how each of them went. -/
abbrev Course := List (Task × Performance Cinterion Value)

/-- Everything that was sent in the course of a session. -/
def Course.sent (past : Course) : List String := past.flatMap (·.2.sent)

/-- Everything that was sent in the course of a session, each with its answer. -/
def Course.exchanges (past : Course) : List (Request × Except LinkError Bytes) :=
  past.flatMap (·.2.exchanges)

variable {past : Course}

theorem Course.sent_append (past : Course) (e : Task × Performance Cinterion Value) :
    Course.sent (past ++ [e]) = past.sent ++ e.2.sent := Session.sent_append past e

theorem Course.exchanges_append (past : Course) (e : Task × Performance Cinterion Value) :
    Course.exchanges (past ++ [e]) = past.exchanges ++ e.2.exchanges :=
    Session.exchanges_append past e

/-! ### The level to sleep at

The question for the levels differs from every command that goes to a level, though they begin
alike.  So its count is that of the calls that found the level out. -/

/-- The levels were asked for if the level to sleep at is known, and then it is the one that was
gone to. -/
structure KnowsLevel (past : Course) (m : Cinterion) : Prop where
  level : m.sleepMode = .unknown ∨ m.sleepMode ∈ sleepModes
  asked : past.sent.count "+CFUN=?" = if m.sleepMode = .unknown then 0 else 1
  same : ∀ e ∈ past, e.1 = .powerDown →
    m.sleepMode ≠ .unknown ∧ e.2.sent.filter (· ≠ "+CFUN=?") = m.sleepMode.commands

/-- A mode that was found out is not the unknown one. -/
theorem known_of_mem {mode : SleepMode} (h : mode ∈ sleepModes) : mode ≠ .unknown := by
  rintro rfl
  exact absurd h (by decide)

/-- Going to a level does not put the question. -/
theorem not_asked_by_level {mode : SleepMode} (h : mode ∈ sleepModes) :
    "+CFUN=?" ∉ mode.commands := by
  have hall : ∀ mode ∈ sleepModes, "+CFUN=?" ∉ mode.commands := by decide
  exact hall mode h

/-- Every task keeps the invariant. -/
theorem KnowsLevel.step (hgoes : Goes p task) (h : KnowsLevel past p.before) :
    KnowsLevel (past ++ [(task, p)]) p.after := by
  by_cases hdown : task = .powerDown
  · subst hdown
    -- the level is asked for here unless it is known
    have hfinds := hgoes.findsLevel
    have hlevel := hfinds.known h.level
    have hcommands := not_asked_by_level hlevel
    have hsame : p.sent.filter (· ≠ "+CFUN=?") = p.after.sleepMode.commands := by
      have hkept : p.after.sleepMode.commands.filter (· ≠ "+CFUN=?") = p.after.sleepMode.commands :=
        List.filter_eq_self.mpr fun body hbody => decide_eq_true fun heq => hcommands (heq ▸ hbody)
      rw [hfinds.sent, List.filter_append, hkept]
      split <;> rfl
    refine ⟨.inr hlevel, ?_, Session.forall_append (fun e he htask => ?_) fun _ =>
      ⟨known_of_mem hlevel, hsame⟩⟩
    · rw [Course.sent_append, List.count_append, h.asked, hfinds.sent, List.count_append,
        List.count_eq_zero.mpr hcommands, if_neg (known_of_mem hlevel)]
      split <;> rfl
    · obtain ⟨hknown, hpast⟩ := h.same e he htask
      rw [hfinds.kept hknown]
      exact ⟨hknown, hpast⟩
  · -- no other operation asks for the level or changes it
    have hmode : p.after.sleepMode = p.before.sleepMode := hgoes.keeps.sleepMode hdown
    have hnone : "+CFUN=?" ∉ p.sent := fun hasked =>
      hdown (eq_powerDown (hgoes.topic "+CFUN" hasked (by decide) (by decide)))
    refine ⟨hmode ▸ h.level, ?_, ?_⟩
    · rw [Course.sent_append, List.count_append, List.count_eq_zero.mpr hnone, hmode]
      exact h.asked
    · rw [hmode]
      exact Session.forall_append h.same fun htask => absurd htask hdown

/-! ### Network connections

The kind of a bearer is that which goes with what is known when it is created.  Since that does not
change once it is known, all bearers are of one kind. -/

/-- The modem was asked for network connections if it is known whether it has them, and that only
where there is a port; then every bearer was of the kind that follows. -/
structure KnowsWwan (past : Course) (m : Cinterion) : Prop where
  asked : past.sent.count "^SWWAN=?" = if m.wwan ≠ .unknown ∧ m.hasNetPort = true then 1 else 0
  same : ∀ e ∈ past, e.1 = .createBearer → m.wwan ≠ .unknown ∧
    e.2.result = .ok (.kind m.wwan.bearerKind)

/-- Every task keeps the invariant. -/
theorem KnowsWwan.step (hgoes : Goes p task) (h : KnowsWwan past p.before) :
    KnowsWwan (past ++ [(task, p)]) p.after := by
  have hport : p.after.hasNetPort = p.before.hasNetPort := hgoes.keeps.hasNetPort
  by_cases hcreate : task = .createBearer
  · subst hcreate
    obtain ⟨hfinds, hresult⟩ := hgoes.findsWwan
    refine ⟨?_, Session.forall_append (fun e he htask => ?_) fun _ => ⟨hfinds.known, hresult⟩⟩
    · rw [Course.sent_append, List.count_append, h.asked, hfinds.sent, hport]
      by_cases hunknown : p.before.wwan = .unknown <;> cases p.before.hasNetPort <;>
        simp [hunknown, hfinds.known]
    · obtain ⟨hknown, hpast⟩ := h.same e he htask
      rw [hfinds.kept hknown]
      exact ⟨hknown, hpast⟩
  · -- no other operation asks for the port or changes what is known of it
    have hwwan : p.after.wwan = p.before.wwan := hgoes.keeps.wwan hcreate
    have hnone : "^SWWAN=?" ∉ p.sent := fun hasked =>
      hcreate (eq_createBearer (hgoes.topic "^SWWAN" hasked (by decide) (by decide)))
    refine ⟨?_, ?_⟩
    · rw [Course.sent_append, List.count_append, List.count_eq_zero.mpr hnone, hwwan, hport]
      exact h.asked
    · rw [hwwan]
      exact Session.forall_append h.same fun htask => absurd htask hcreate

/-! ### The `psinfo` indicator

Here there is no question that is put once.  What is known is what the first command said that
switched the reports on, and all later commands are sent or not by that. -/

/-- What the first command that switches on the reports of `psinfo` was answered. -/
def firstPsinfo? (xs : List (Request × Except LinkError Bytes)) :
    Option (Except Error IndicatorState) :=
  (xs.find? fun x => x.1.body = "^SIND=\"psinfo\",1").map fun x =>
    (Command.setIndicator "psinfo" 1).outcome x.2

/-- What that says about the indicator. -/
def psinfoAfter (xs : List (Request × Except LinkError Bytes)) : Feature :=
  (firstPsinfo? xs).elim .unknown .ofQuery

/-- The first answer counts. -/
theorem psinfoAfter_append (xs ys : List (Request × Except LinkError Bytes)) :
    psinfoAfter (xs ++ ys) = if psinfoAfter xs = .unknown then psinfoAfter ys
      else psinfoAfter xs := by
  unfold psinfoAfter firstPsinfo?
  rw [List.find?_append]
  cases xs.find? fun x => x.1.body = "^SIND=\"psinfo\",1" with
  | none => rfl
  | some x => exact (if_neg (Feature.ofQuery_known _)).symm

/-- The indicator is not there if the first command failed. -/
theorem psinfoAfter_eq_notSupported {xs : List (Request × Except LinkError Bytes)} :
    psinfoAfter xs = .notSupported ↔ ∃ e, firstPsinfo? xs = some (.error e) := by
  unfold psinfoAfter
  rcases firstPsinfo? xs with _ | e | state <;> simp [Feature.ofQuery]

theorem psinfoAfter_eq_supported {xs : List (Request × Except LinkError Bytes)} :
    psinfoAfter xs = .supported ↔ ∃ state, firstPsinfo? xs = some (.ok state) := by
  unfold psinfoAfter
  rcases firstPsinfo? xs with _ | e | state <;> simp [Feature.ofQuery]

/-- The command that switches the reports on, as it goes over the line. -/
theorem enablePsinfo_body : enablePsinfo.body = "^SIND=\"psinfo\",1" := by decide

/-- What enabling the reports sends, and what is known of the indicator afterwards. -/
theorem Goes.enables (h : Goes p .enableEvents) :
    p.after.psinfo = (if p.before.psinfo = .unknown then psinfoOf p.answer else p.before.psinfo) ∧
      p.exchanges = (if p.before.psinfo = .notSupported then [] else [(enablePsinfo, p.answer)]) ∧
      p.sent = p.exchanges.map (·.1.body) := by
  cases h with
  | enableEvents hfeatures hexchanges hsent =>
    exact ⟨congrArg Features.psinfo hfeatures, hexchanges, hsent⟩
  | aside hconcerned => exact absurd trivial hconcerned

/-- Switching reports off sends a command about the indicator only where it is there. -/
theorem Goes.disables (h : Goes p .disableEvents) :
    p.sent = if p.before.psinfo = .supported then ["^SIND=\"psinfo\",0"] else [] := by
  cases h with
  | disableEvents hafter hsent => exact hsent
  | aside hconcerned => exact absurd trivial hconcerned

/-- The access technology is asked for just where the indicator does not report it. -/
theorem Goes.polls (h : Goes p .loadTechnology) :
    (p.before.psinfo = .supported → p.result = .error needless ∧ p.sent = []) ∧
      (p.before.psinfo ≠ .supported → p.sent = ["^SMONG"]) := by
  cases h with
  | reported hfeatures hsupported hresult hsent =>
    exact ⟨fun _ => ⟨hresult, hsent⟩, fun h => absurd hsupported h⟩
  | polled hfeatures hother hsent => exact ⟨fun h => absurd h hother, fun _ => hsent⟩
  | aside hconcerned => exact absurd trivial hconcerned

/-- Only the two tasks for reports of events send commands about the indicator, one at most, and
none where it is not there. -/
theorem Goes.psinfo_commands (h : Goes p task) :
    (∀ body ∈ p.sent, ¬ "^SIND=\"psinfo\"".toList <+: body.toList) ∨
    (p.before.psinfo ≠ .notSupported ∧ p.sent.length ≤ 1) := by
  by_cases htopic : task.topic? = some "^SIND=\"psinfo\""
  · obtain rfl | rfl := eq_events htopic
    · obtain ⟨-, hexchanges, hsent⟩ := h.enables
      rw [hsent, hexchanges]
      split
      · exact .inl nofun
      · exact .inr ⟨by assumption, Nat.le_refl 1⟩
    · rw [h.disables]
      split
      · rename_i hsupported
        exact .inr ⟨by rw [hsupported]; nofun, Nat.le_refl 1⟩
      · exact .inl nofun
  · exact .inl fun body hbody hbegins => htopic (h.topic _ hbody (by decide) hbegins)

/-- Other tasks do not switch the reports on. -/
theorem Goes.not_enabled (h : Goes p task) (hother : task ≠ .enableEvents) :
    "^SIND=\"psinfo\",1" ∉ p.sent := by
  intro hasked
  obtain rfl | rfl := eq_events (h.topic "^SIND=\"psinfo\"" hasked (by decide) (by decide))
  · exact hother rfl
  · rw [h.disables] at hasked
    split at hasked
    · exact absurd (List.mem_singleton.mp hasked) (by decide)
    · cases hasked

/-- What is known of the indicator is what the session tells. -/
theorem psinfo_step (hgoes : Goes p task) (h : p.before.psinfo = psinfoAfter past.exchanges) :
    p.after.psinfo = psinfoAfter (Course.exchanges (past ++ [(task, p)])) := by
  rw [Course.exchanges_append, psinfoAfter_append, ← h]
  by_cases henable : task = .enableEvents
  · subst henable
    obtain ⟨hpsinfo, hexchanges, -⟩ := hgoes.enables
    rw [hpsinfo]
    split
    · rename_i hunknown
      rw [hexchanges, if_neg (by rw [hunknown]; nofun)]
      simp [psinfoAfter, firstPsinfo?, enablePsinfo_body, psinfoOf]
    · rfl
  · have hkept : p.after.psinfo = p.before.psinfo := hgoes.keeps.psinfo henable
    -- none of the exchanges is about this indicator
    have hnone : psinfoAfter p.exchanges = .unknown := by
      have hfind : p.exchanges.find? (fun x => x.1.body = "^SIND=\"psinfo\",1") = none :=
        List.find?_eq_none.mpr fun x hx hbody =>
          hgoes.not_enabled henable (of_decide_eq_true hbody ▸ p.body_mem_sent hx)
      rw [psinfoAfter, firstPsinfo?, hfind]
      rfl
    rw [hnone, hkept]
    split
    · assumption
    · rfl

/-! ### All of them

The three invariants are put together to one of the session. -/

/-- What is known during a session. -/
structure KnowsFeatures (config : Config) (past : Course) (m : Cinterion) : Prop where
  hasNetPort : m.hasNetPort = config.hasNetPort
  level : KnowsLevel past m
  wwan : KnowsWwan past m
  psinfo : m.psinfo = psinfoAfter past.exchanges

/-- At the beginning nothing is known and nothing was asked. -/
theorem KnowsFeatures.start (radio : Modes) (config : Config) :
    KnowsFeatures config [] (ofConfig radio config) :=
  ⟨rfl, ⟨.inl rfl, rfl, List.forall_mem_nil _⟩, ⟨rfl, List.forall_mem_nil _⟩, rfl⟩

/-- Every task keeps all of it. -/
theorem KnowsFeatures.step {config : Config} (hgoes : Goes p task)
    (h : KnowsFeatures config past p.before) :
    KnowsFeatures config (past ++ [(task, p)]) p.after :=
  ⟨hgoes.keeps.hasNetPort.trans h.hasNetPort, h.level.step hgoes, h.wwan.step hgoes,
    psinfo_step hgoes h.psinfo⟩

/-- **Features are found out once.**  In every session of a Cinterion modem the levels of
functionality and the network connections are asked for at most once, the latter only where there is
a port for them.  All bearers are of the same kind, and the radio is always put to the same level,
if to any.  If the first command that switches on the reports of `psinfo` failed, no command about
it is sent again.  If it succeeded, the access technology is not asked for; otherwise it is. -/
theorem features_found_out_once (radio : Modes) (config : Config) (calls : List (Task × Occasion)) :
    ∃ entries : Course, Session perform (ofConfig radio config) entries ∧
      entries.map (fun e => (e.1, e.2.occasion)) = calls ∧
      entries.sent.count "+CFUN=?" ≤ 1 ∧ entries.sent.count "^SWWAN=?" ≤ 1 ∧
      (config.hasNetPort = false → "^SWWAN=?" ∉ entries.sent) ∧
      (∃ kind, ∀ e ∈ entries, e.1 = .createBearer → e.2.result = .ok (.kind kind)) ∧
      (∃ level ∈ [[], ["+CFUN=4"], ["+CFUN=7"]], ∀ e ∈ entries, e.1 = .powerDown →
        e.2.sent.filter (· ≠ "+CFUN=?") = level) ∧
      ∀ past task p later, entries = past ++ (task, p) :: later →
        (p.sent.filter (·.startsWith "^SIND=\"psinfo\"")).length ≤ 1 ∧
        ((∃ e, firstPsinfo? (Course.exchanges past) = some (.error e)) →
          ∀ body ∈ p.sent, body.startsWith "^SIND=\"psinfo\"" = false) ∧
        (task = .loadTechnology →
          ((∃ state, firstPsinfo? (Course.exchanges past) = some (.ok state)) →
            p.result = .error (.unsupported (.operation "No need to poll access technologies")) ∧
            p.sent = []) ∧
          ((¬ ∃ state, firstPsinfo? (Course.exchanges past) = some (.ok state)) →
            p.sent = ["^SMONG"])) := by
  obtain ⟨entries, hsession, hcalls⟩ := exists_session perform (ofConfig radio config) calls
  -- the counts are about the whole session, so they are read off what is known at its end
  obtain ⟨m, hend⟩ := hsession.invariant_end (I := KnowsFeatures config) (.start radio config)
    fun past call p hp h => h.step (goes hp)
  have hcfun := hend.level.asked
  have hswwan := hend.wwan.asked
  rw [hend.hasNetPort] at hswwan
  refine ⟨entries, hsession, hcalls, ?_, ?_, fun hport => ?_, ⟨m.wwan.bearerKind, ?_⟩,
    ⟨m.sleepMode.commands, ?_, ?_⟩, fun past task p later hsplit => ?_⟩
  · rw [hcfun]
    split <;> decide
  · rw [hswwan]
    split <;> decide
  · rw [if_neg (by rw [hport]; nofun)] at hswwan
    exact List.count_eq_zero.mp hswwan
  · exact fun e he hcreate => (hend.wwan.same e he hcreate).2
  · rcases hend.level.level with hunknown | hmem
    · rw [hunknown]
      decide
    · exact (by decide : ∀ mode ∈ sleepModes, mode.commands ∈ [[], ["+CFUN=4"], ["+CFUN=7"]]) _ hmem
  · exact fun e he hdown => (hend.level.same e he hdown).2
  · -- what a single call sends depends on what was known before it
    obtain ⟨hp, hknows⟩ := hsession.invariant (I := KnowsFeatures config) (.start radio config)
      (fun past call p hp h => h.step (goes hp)) past task p later hsplit
    have hgoes := goes hp
    rw [← psinfoAfter_eq_notSupported, ← psinfoAfter_eq_supported, ← hknows.psinfo]
    refine ⟨?_, fun hfailed body hbody => ?_, ?_⟩
    · rcases hgoes.psinfo_commands with hnone | ⟨-, hone⟩
      · rw [List.filter_eq_nil_iff.mpr fun body hbody => by simpa using hnone body hbody]
        exact Nat.zero_le 1
      · exact Nat.le_trans (List.length_filter_le _ _) hone
    · rcases hgoes.psinfo_commands with hnone | ⟨hthere, -⟩
      · simpa using hnone body hbody
      · exact absurd hfailed hthere
    · rintro rfl
      exact hgoes.polls

end Cellular.Cinterion
