import Cellular.Proofs.Feature
import Cellular.Proofs.Procedure.Soft
import Cellular.Proofs.Vendor.Unconcerned
/-!
# How a Cinterion modem finds out what it has

Five tasks have to do with the features of a Cinterion modem.  Putting the radio to sleep asks for
the levels there are, creating a bearer asks for network connections, and both remember what they
found (`FindsLevel`, `FindsWwan`).  Reporting events is itself the question about the `psinfo`
indicator.  Switching the reports off and asking for the access technology only make use of what is
known.  How each of them goes, and that the others are unconcerned, is `goes`.

The accounts are exact: for each task, what was exchanged and what is known afterwards, by what was
known before and what was answered.  They are given as structures with the commands as a list of
texts, so that what follows from them can be decided by comparing texts.  Nothing is said here about
more than one task; sessions are a matter of their own.
-/

namespace Cellular

/-- The commands that put the radio to a level. -/
def SleepMode.commands : SleepMode → List String
  | .level n => ["+CFUN=" ++ n.repr]
  | _ => []

/-- Whatever puts the radio to a level begins with the name of the command for levels. -/
theorem SleepMode.commands_prefix {mode : SleepMode} {body : String} (h : body ∈ mode.commands) :
    "+CFUN".toList <+: body.toList := by
  cases mode with
  | level n =>
    obtain rfl := List.mem_singleton.mp h
    rw [String.toList_append]
    exact List.IsPrefix.trans (by decide) (List.prefix_append _ _)
  | unknown => cases h
  | none => cases h

namespace Cinterion

open Operation

variable {p : Performance Cinterion Value} {m m' : Cinterion} {b b' : Bench}

/-! ## How the tasks go that have to do with the features

The level to sleep at is put together from two commands, the question for the levels and the command
that goes to one.  Both begin with the same name, which is why commands are told apart by their
whole text. -/

theorem setFunctionality_body (n : Nat) :
    (Command.setFunctionality n).request.body = "+CFUN=" ++ n.repr := by
  simp [Command.setFunctionality, Command.set, Request.body, Request.argumentText, Argument.text]

/-- How the radio is put to a level: what is exchanged for it, and what comes of it. -/
inductive Sleeps : SleepMode → List (Request × Except LinkError Bytes) → Except Error Unit → Prop
  | level (n : Nat) {answer : Except LinkError Bytes} {r : Except Error Unit}
    (htried : (Command.setFunctionality n).Tried answer r) :
    Sleeps (.level n) [((Command.setFunctionality n).request, answer)] r
  | stays {mode : SleepMode} (hnone : ∀ n, mode ≠ .level n) : Sleeps mode [] (.ok ())

/-- What is sent to go to a level depends on the level alone. -/
theorem Sleeps.bodies {mode : SleepMode} {xs : List (Request × Except LinkError Bytes)}
    {r : Except Error Unit} (h : Sleeps mode xs r) : xs.map (·.1.body) = mode.commands := by
  cases h with
  | level n => exact congrArg ([·]) (setFunctionality_body n)
  | stays hnone =>
    cases mode with
    | level n => exact absurd rfl (hnone n)
    | unknown => rfl
    | none => rfl

/-- Going to the level that is known sends its commands and leaves the modem as it is. -/
theorem sleep_runs {r : Except Error Unit} (h : (do
    match (← MonadState.get).sleepMode with
    | .level n => Functor.discard <| step false .soft (.setFunctionality n)
    | _ => Pure.pure () : Operation Cinterion Unit).Runs m b r m' b') :
    m' = m ∧ ∃ xs, b.Converses xs b' ∧ Sleeps m.sleepMode xs r := by
  have h := h.bind_get
  split at h
  · rename_i n hlevel
    obtain ⟨rfl, hxs, htried⟩ := h.discard_soft
    exact ⟨rfl, _, hxs, hlevel ▸ .level n htried⟩
  · rename_i hnone
    obtain ⟨rfl, rfl, rfl⟩ := h.pure
    exact ⟨rfl, [], .nil, .stays hnone⟩

/-- What can be found out about the level to sleep at. -/
def sleepModes : List SleepMode := [.none, .level 4, .level 7]

/-- What is found out is one of two things: a level, or that there is none to go to. -/
theorem sleepModeOf_mem (levels : Except Error (List Nat)) : sleepModeOf levels ∈ sleepModes := by
  unfold sleepModeOf
  split
  · split
    · decide
    · split <;> decide
  · decide

/-! ## The level to sleep at

The level is found out by one question and then remembered.  `FindsLevel` says what an operation
does about it: nothing if it is known, and otherwise the question, whose answer decides. -/

/-- The level to sleep at is known afterwards, and it was asked for if it was not known before. -/
structure FindsLevel (m m' : Cinterion) (sent : List String) : Prop where
  known : m.sleepMode = .unknown ∨ m.sleepMode ∈ sleepModes → m'.sleepMode ∈ sleepModes
  kept : m.sleepMode ≠ .unknown → m'.sleepMode = m.sleepMode
  rest : m'.features = { m.features with sleepMode := m'.sleepMode }
  sent : sent = (if m.sleepMode = .unknown then ["+CFUN=?"] else []) ++ m'.sleepMode.commands

/-- What is exchanged to find the level out. -/
def levelExchanges (m : Cinterion) (answer : Except LinkError Bytes) :
    List (Request × Except LinkError Bytes) :=
  if m.sleepMode = .unknown then [(Command.testFunctionality.request, answer)] else []

/-- The question is put if the level is not known. -/
theorem levelExchanges_bodies (m : Cinterion) (answer : Except LinkError Bytes) :
    (m.levelExchanges answer).map (·.1.body) = if m.sleepMode = .unknown then
      ["+CFUN=?"] else [] := by
  unfold levelExchanges
  split <;> rfl

/-- What is known of the level once that was answered. -/
def levelFound (m : Cinterion) (answer : Except LinkError Bytes) : SleepMode :=
  if m.sleepMode = .unknown then sleepModeOf (Command.testFunctionality.outcome answer)
  else m.sleepMode

/-- Putting the radio to sleep finds the level out and goes to it. -/
theorem powerDown_runs {r : Except Error Unit} (h : powerDown.Runs m b r m' b') :
    m' = { m with sleepMode := m.levelFound b.turn.answer } ∧
      ∃ xs, b.Converses (m.levelExchanges b.turn.answer ++ xs) b' ∧ Sleeps m'.sleepMode xs r := by
  have h := h.bind_get
  split at h
  · rename_i hunknown
    obtain ⟨before, b₁, hanswered, hrest⟩ := h.bind_attempt
    obtain ⟨rfl, xs, hxs, hsleeps⟩ := sleep_runs hrest.bind_modify
    rw [levelExchanges, levelFound, if_pos hunknown, if_pos hunknown]
    exact ⟨rfl, xs, .cons hanswered hxs, hsleeps⟩
  · rename_i hknown
    obtain ⟨rfl, xs, hxs, hsleeps⟩ := sleep_runs h
    rw [levelExchanges, levelFound, if_neg hknown, if_neg hknown]
    exact ⟨rfl, xs, hxs, hsleeps⟩

/-- Putting the radio to sleep finds the level out. -/
theorem FindsLevel.of_sleeps {answer : Except LinkError Bytes}
    {xs : List (Request × Except LinkError Bytes)} {r : Except Error Unit}
    (hafter : m' = { m with sleepMode := m.levelFound answer }) (h : Sleeps m'.sleepMode xs r) :
    FindsLevel m m' ((m.levelExchanges answer ++ xs).map (·.1.body)) := by
  have hfound : m'.sleepMode = m.levelFound answer := by rw [hafter]
  refine ⟨fun hknown => ?_, fun hknown => ?_, by rw [hafter]; rfl, ?_⟩
  · rw [hfound, levelFound]
    split
    · exact sleepModeOf_mem _
    · rename_i hnot
      exact hknown.resolve_left hnot
  · rw [hfound, levelFound, if_neg hknown]
  · rw [List.map_append, levelExchanges_bodies, h.bodies]

/-! ## Network connections

Here the question is only put where there is a port for network connections.  Without one it is
known that there are none, and nothing is sent. -/

/-- It is known afterwards whether there are network connections, and it was asked for if
`asking`. -/
structure FindsWwan (m m' : Cinterion) (asking : Prop) [Decidable asking]
    (sent : List String) : Prop where
  known : m'.wwan ≠ .unknown
  kept : m.wwan ≠ .unknown → m'.wwan = m.wwan
  rest : m'.features = { m.features with wwan := m'.wwan }
  sent : sent = if asking then ["^SWWAN=?"] else []

/-- Once it is known that there is a port. -/
theorem resolveWwan_runs {r : Except Error BearerKind} (h : (do
    let wwan ← (← MonadState.get).wwan.resolve (attempt .testWwan)
    modify fun m => { m with wwan }
    return wwan.bearerKind : Operation Cinterion BearerKind).Runs m b r m' b') :
    r = .ok m'.wwan.bearerKind ∧
      ∃ xs, b.Converses xs b' ∧ FindsWwan m m' (m.wwan = .unknown) (xs.map (·.1.body)) := by
  rcases h.bind_get.bind_resolve with ⟨hunknown, before, b₁, hanswered, hrest⟩ | ⟨hknown, hrest⟩
  · obtain ⟨rfl, rfl, rfl⟩ := hrest.bind_modify.pure
    refine ⟨rfl, _, .cons hanswered .nil, Feature.ofQuery_known _,
      fun hknown => absurd hunknown hknown, rfl, ?_⟩
    rw [if_pos hunknown]
    rfl
  · obtain ⟨rfl, rfl, rfl⟩ := hrest.bind_modify.pure
    exact ⟨rfl, [], .nil, hknown, fun _ => rfl, rfl, by rw [if_neg hknown]; rfl⟩

/-- Creating a bearer finds out whether there are network connections, and gives the kind that goes
with it. -/
theorem createBearer_runs {r : Except Error BearerKind} (h : createBearer.Runs m b r m' b') :
    r = .ok m'.wwan.bearerKind ∧
      ∃ xs, b.Converses xs b' ∧
        FindsWwan m m' (m.wwan = .unknown ∧ m.hasNetPort = true) (xs.map (·.1.body)) := by
  have h := h.bind_get.bind_get
  split at h
  · rename_i hportless
    -- nothing is known and there is no port: settled without a question
    obtain ⟨hunknown, hport⟩ := hportless
    obtain ⟨hresult, xs, hxs, hfinds⟩ := resolveWwan_runs h.bind_modify
    have hresolved : m.wwan.resolveWithoutPort = .notSupported := by rw [hunknown]; rfl
    have hsent := hfinds.sent
    rw [if_neg (by rw [hresolved]; nofun)] at hsent
    refine ⟨hresult, xs, hxs, hfinds.known, fun hknown => absurd hunknown hknown, hfinds.rest,
      hsent.trans ?_⟩
    rw [if_neg (by simpa using fun _ => hport)]
  · rename_i hnot
    obtain ⟨hresult, xs, hxs, hfinds⟩ := resolveWwan_runs h
    refine ⟨hresult, xs, hxs, hfinds.known, hfinds.kept, hfinds.rest, hfinds.sent.trans ?_⟩
    by_cases hunknown : m.wwan = .unknown
    · have hport : m.hasNetPort = true := by simpa [hunknown] using hnot
      rw [if_pos hunknown, if_pos ⟨hunknown, hport⟩]
    · rw [if_neg hunknown, if_neg fun h => hunknown h.1]

/-- A call to the generic modem sends nothing and changes nothing. -/
theorem parentIgnored_runs {call : ParentCall} {r : Except Error Unit}
    (h : (parentIgnored call).Runs m b r m' b') :
    r = .ok () ∧ m' = m ∧ b'.history = b.history ∧ b'.turn = b.turn := by
  obtain ⟨x, rfl, hcatch⟩ := h.discard
  obtain ⟨y, rfl, hparent⟩ := hcatch.catching
  obtain ⟨rfl, -, rfl⟩ := hparent.parent
  exact ⟨rfl, rfl, rfl, rfl⟩

/-- Only the access technology may have changed. -/
theorem takeTechnology_runs (state : Option IndicatorState) {r : Except Error Unit}
    (h : (match state with
    | some state => modify fun m => { m with technology := technologyOfPsinfo state.value }
    | none => Pure.pure () : Operation Cinterion Unit).Runs m b r m' b') :
        m'.features = m.features ∧ b' = b := by
  cases state with
  | none =>
    obtain ⟨-, rfl, rfl⟩ := Runs.pure h
    exact ⟨rfl, rfl⟩
  | some state =>
    obtain ⟨-, rfl, rfl⟩ := Runs.modify h
    exact ⟨rfl, rfl⟩

/-! ## Reports of events

Whether the indicator is there is found out by switching its reports on.  So there is no question
apart from the command itself, and it is put again whenever reports are switched on, unless the
answer was no. -/

/-- Reports through the indicator are switched on. -/
def enablePsinfo : Request := (Command.setIndicator "psinfo" 1).request

/-- What the answer to that says about the indicator. -/
def psinfoOf (answer : Except LinkError Bytes) : Feature :=
  .ofQuery ((Command.setIndicator "psinfo" 1).outcome answer)

/-- Switching reports on tells whether the indicator is there, if that is not known. -/
theorem enableEvents_runs {r : Except Error Unit} (h : enableEvents.Runs m b r m' b') :
    m'.features = { m.features with psinfo :=
      if m.psinfo = .unknown then psinfoOf b.turn.answer else m.psinfo } ∧
      ∃ b₁ : Bench, b₁.history = b.history ∧
        b₁.Converses (if m.psinfo = .notSupported then []
          else [(enablePsinfo, b.turn.answer)]) b' := by
  rcases h.bind with ⟨_, m₁, b₁, hparent, hrest⟩ | ⟨_, -, hparent⟩
  · obtain ⟨-, rfl, hhistory, hturn⟩ := parentIgnored_runs hparent
    rw [← hturn]
    have hrest := hrest.bind_get
    split at hrest
    · -- the indicator is known not to be there: nothing is sent
      rename_i hpsinfo
      obtain ⟨hfeatures, rfl⟩ := takeTechnology_runs none hrest
      refine ⟨?_, b', hhistory, ?_⟩
      · rw [hfeatures, hpsinfo, if_neg nofun, ← hpsinfo]
        rfl
      · rw [hpsinfo, if_pos rfl]
        exact .nil
    · -- nothing is known yet: the command itself is the query
      rename_i hpsinfo
      rcases hrest.bind_get.bind_resolveValue with ⟨-, before, b₂, hanswered, hrest⟩ | ⟨hknown, -⟩
      · obtain ⟨hfeatures, rfl⟩ := takeTechnology_runs _ hrest.bind_modify
        refine ⟨?_, b₁, hhistory, ?_⟩
        · rw [hfeatures, hpsinfo, if_pos rfl]
          rfl
        · rw [hpsinfo, if_neg nofun]
          exact .cons hanswered .nil
      · exact absurd hpsinfo hknown
    · -- it is known to be there: the command is sent, and teaches nothing
      rename_i hpsinfo
      obtain ⟨before, b₂, hanswered, hrest⟩ := hrest.bind_attempt
      obtain ⟨hfeatures, rfl⟩ := takeTechnology_runs _ hrest
      refine ⟨?_, b₁, hhistory, ?_⟩
      · rw [hfeatures, hpsinfo, if_neg nofun, ← hpsinfo]
        rfl
      · rw [hpsinfo, if_neg nofun]
        exact .cons hanswered .nil
  · cases (parentIgnored_runs hparent).1

/-- The command that switches the reports of the indicator off, as it goes over the line. -/
theorem disablePsinfo_body :
    (Command.setIndicator "psinfo" 0).request.body = "^SIND=\"psinfo\",0" := by decide

/-- Switching reports off sends a command about the indicator only if it is there. -/
theorem disableEvents_runs {r : Except Error Unit} (h : disableEvents.Runs m b r m' b') :
    m' = m ∧ ∃ b₁ xs, b.Converses xs b₁ ∧ b'.history = b₁.history ∧
      xs.map (·.1.body) = if m.psinfo = .supported then ["^SIND=\"psinfo\",0"] else [] := by
  have h := h.bind_get
  split at h
  · rename_i hsupported
    have hsupported : m.psinfo = .supported := by simpa [Feature.isSupported] using hsupported
    rcases h.bind with ⟨_, m₁, b₁, hdisable, hrest⟩ | ⟨_, -, hdisable⟩
    · obtain ⟨_, -, hattempt⟩ := hdisable.discard
      obtain ⟨rfl, -, before, hanswered⟩ := hattempt.attempt
      obtain ⟨-, rfl, hhistory, -⟩ := parentIgnored_runs hrest
      refine ⟨rfl, b₁, _, .cons hanswered .nil, hhistory, ?_⟩
      rw [if_pos hsupported]
      exact congrArg ([·]) disablePsinfo_body
    · -- an attempt never fails
      obtain ⟨x, hx, hattempt⟩ := hdisable.discard
      rw [hattempt.attempt.2.1] at hx
      cases hx
  · rename_i hnot
    obtain ⟨-, rfl, hhistory, -⟩ := parentIgnored_runs h
    exact ⟨rfl, b, [], .nil, hhistory, by rw [if_neg fun h => hnot (by rw [h]; rfl)]; rfl⟩

/-- Why the access technology is not asked for where it is reported. -/
def needless : Error := .unsupported (.operation "No need to poll access technologies")

/-- The access technology is asked for unless the indicator reports it. -/
theorem loadTechnology_runs {r : Except Error AccessTechnology}
    (h : loadTechnology.Runs m b r m' b') :
    m'.features = m.features ∧
      ((m.psinfo = .supported ∧ r = .error needless ∧ b' = b) ∨
        (m.psinfo ≠ .supported ∧ ∃ xs, b.Converses xs b' ∧ xs.map (·.1.body) = ["^SMONG"])) := by
  have h := h.bind_get
  split at h
  · rename_i hsupported
    have hsupported : m.psinfo = .supported := by simpa [Feature.isSupported] using hsupported
    obtain ⟨rfl, rfl, rfl⟩ := h.bind_throw
    exact ⟨rfl, .inl ⟨hsupported, rfl, rfl⟩⟩
  · rename_i hnot
    have hother : m.psinfo ≠ .supported := fun h => hnot (by rw [h]; rfl)
    rcases h.bind with ⟨technology, _, _, hsend, hrest⟩ | ⟨_, -, hsend⟩
    · obtain ⟨rfl, -, before, hanswered⟩ := hsend.send
      obtain ⟨-, rfl, rfl⟩ := hrest.bind_modify.pure
      exact ⟨rfl, .inr ⟨hother, _, .cons hanswered .nil, rfl⟩⟩
    · obtain ⟨rfl, -, before, hanswered⟩ := hsend.send
      exact ⟨rfl, .inr ⟨hother, _, .cons hanswered .nil, rfl⟩⟩

/-! ## What each task leaves behind

Five tasks have to do with a feature, each in its own way and the last of them in two; all others go
aside. -/

/-- How a task goes, as far as the features are concerned. -/
inductive Goes (p : Performance Cinterion Value) : Task → Prop
  | powerDown (hfinds : FindsLevel p.before p.after p.sent) : Goes p .powerDown
  | createBearer (hfinds : FindsWwan p.before p.after
      (p.before.wwan = .unknown ∧ p.before.hasNetPort = true) p.sent)
    (hresult : p.result = .ok (.kind p.after.wwan.bearerKind)) : Goes p .createBearer
  | enableEvents (hfeatures : p.after.features = { p.before.features with
      psinfo := if p.before.psinfo = .unknown then psinfoOf p.answer else p.before.psinfo })
    (hexchanges : p.exchanges = if p.before.psinfo = .notSupported then []
      else [(enablePsinfo, p.answer)])
    (hsent : p.sent = p.exchanges.map (·.1.body)) : Goes p .enableEvents
  | disableEvents (hafter : p.after = p.before)
    (hsent : p.sent = if p.before.psinfo = .supported then ["^SIND=\"psinfo\",0"] else []) :
      Goes p .disableEvents
  | reported (hfeatures : p.after.features = p.before.features)
    (hsupported : p.before.psinfo = .supported)
    (hresult : p.result = .error needless) (hsent : p.sent = []) : Goes p .loadTechnology
  | polled (hfeatures : p.after.features = p.before.features)
    (hother : p.before.psinfo ≠ .supported) (hsent : p.sent = ["^SMONG"]) : Goes p .loadTechnology
  | aside {task : Task} (hconcerned : ¬ task.Concerned)
    (hfeatures : p.after.features = p.before.features)
    (hsent : ∀ body ∈ p.sent, Aside body) : Goes p task

variable {task : Task}

/-- Every task goes in one of these ways. -/
theorem goes (hp : (perform task).Performs p) : Goes p task := by
  by_cases hconcerned : task.Concerned
  · obtain ⟨b', hruns, hhistory⟩ := hp.runs
    cases task with
    | powerDown =>
      obtain ⟨_, -, hruns⟩ := hruns.bind_pure
      obtain ⟨hafter, xs, hxs, hsleeps⟩ := powerDown_runs hruns
      have hsent := p.sent_eq hhistory hxs
      exact .powerDown (hsent ▸ .of_sleeps hafter hsleeps)
    | createBearer =>
      obtain ⟨_, hresult, hruns⟩ := hruns.bind_pure
      obtain ⟨rfl, xs, hxs, hfinds⟩ := createBearer_runs hruns
      have hsent := p.sent_eq hhistory hxs
      exact .createBearer (hsent ▸ hfinds) hresult
    | enableEvents =>
      obtain ⟨_, -, hruns⟩ := hruns.bind_pure
      obtain ⟨hfeatures, b₁, hsame, hxs⟩ := enableEvents_runs hruns
      obtain ⟨hexchanges, hsent⟩ := p.exchanged hhistory hsame hxs
      exact .enableEvents hfeatures hexchanges (hexchanges ▸ hsent)
    | disableEvents =>
      obtain ⟨_, -, hruns⟩ := hruns.bind_pure
      obtain ⟨hafter, b₁, xs, hxs, hsame, hbodies⟩ := disableEvents_runs hruns
      obtain ⟨-, hsent⟩ := p.exchanged (hsame ▸ hhistory) rfl hxs
      exact .disableEvents hafter (hsent.trans hbodies)
    | loadTechnology =>
      obtain ⟨_, hresult, hruns⟩ := hruns.bind_pure
      obtain ⟨hfeatures, ⟨hsupported, rfl, rfl⟩ | ⟨hother, xs, hxs, hbodies⟩⟩ :=
        loadTechnology_runs hruns
      · exact .reported hfeatures hsupported hresult (p.sent_nothing hhistory rfl)
      · have hsent := p.sent_eq hhistory hxs
        exact .polled hfeatures hother (hsent.trans hbodies)
    | _ => exact hconcerned.elim
  · -- the other operations send none of these commands
    obtain ⟨hsent, hfeatures⟩ := (perform_unconcerned hconcerned).performs hp
    refine .aside hconcerned hfeatures fun body hbody => ?_
    obtain ⟨e, he, rfl⟩ := List.mem_map.mp hbody
    exact hsent e he

end Cinterion

end Cellular
