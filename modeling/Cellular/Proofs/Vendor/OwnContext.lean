import Cellular.Proofs.Bearer.Pact
import Cellular.Proofs.Bearer.Standing
import Cellular.Proofs.Vendor.Seats
import Cellular.Bench.Mounted
/-!
# Which context a bearer addresses

A bearer is for one context, and a dial names no other.  A disconnect names the context that is
connected, and where none is it names context 0, which is nobody's.  The bearer above the modem
mostly takes down what stands, but it also undoes a connect that the modem gave up, and then nothing
stands.

That is a pact on the modem (`Bearer.pact`): while no call is under way the context is known as the
connected one just if a connect has succeeded since the last disconnect that did, and every command
so far was one of the dial's or went astray together with a call of the history.  The modem honours
it (`Bearer.pact_honoured`).

The structure follows the life of a call.

1. The pact: what is true while no call is under way (`Idle`), and what is true of a call on its way
   (`Busy`).  The modem's part of it is a condition on what has been sent (`Addresses`).
2. Connecting keeps it up: a dial sends only commands that name its own context, wherever it is
   interrupted, since it abides by a code of conduct.
3. Disconnecting keeps it up: its one command is sent at the first poll, and names the connected
   context, or context 0.
4. Whole runs: by the pact, a command that names another context was sent by a call that goes
   astray, and conversely.
-/

namespace Cellular

/-- Without the vendor's doing: time passes, the modem speaks, others take seats and give them up,
but no command is sent and the vendor's own state stays as it is. -/
structure Mounted.Background {ν : Type} (m m' : Mounted ν) : Prop where
  part : m'.part = m.part
  quiet : m.bench.Tells m'.bench []

namespace Samsung.Bearer

open Operation

variable {p : Bearer} {b b₁ b' : Bench} {es : List BearerEvent} {m m' : Mounted Bearer}
  {errand : Errand}
  {sent : List (Request × Bench)}

/-- A command about a context names this one. -/
def NamesContext (cid : Nat) (r : Request) : Prop :=
  r.name = "%IPDPCFG" ∨ r.name = "%IPDPACT" → r.arguments.head? = some (some (.number cid))

/-- The deactivation of context 0. -/
def straying : Request := (Command.setContextActivation 0 0).request

/-- The commands of a dial name its own context. -/
theorem namesContext_of_mem_commands {r : Request} (h : r ∈ p.commands) :
    NamesContext p.profile r := by
  intro hname
  simp only [commands, List.mem_cons, List.not_mem_nil, or_false] at h
  rcases h with rfl | rfl | rfl | rfl
  · rfl
  · rfl
  · rfl
  · simp [Command.extendedError, Command.query] at hname

/-- The deactivation of context 0 names the own context only if that is 0. -/
theorem namesContext_straying {cid : Nat} : NamesContext cid straying ↔ cid = 0 := by
  constructor
  · intro h
    have hhead : some (some (Argument.number 0)) = some (some (.number cid)) := h (.inr rfl)
    simpa using hhead.symm
  · rintro rfl _
    rfl

/-! ## The pact

A history strays if a call was begun to bring down what does not stand.  On the side of the modem
this has one trace, a deactivation of context 0; the pact says that the trace is there just if the
history strays. -/

/-- The bearer's state, given whether its context is connected. -/
def given (p : Bearer) (standing : Bool) : Bearer :=
  { p with cid := if standing then p.profile else 0 }

/-- The commands that may have been sent: those of the dial, and one that goes astray if a call
did. -/
def Permits (p : Bearer) (es : List BearerEvent) (r : Request) : Prop :=
  r ∈ p.commands ∨ (Strays es ∧ r = straying)

/-- What was sent since `b`: nothing that may not be, and one command that goes astray if a call
did. -/
def Addresses (p : Bearer) (b : Bench) (es : List BearerEvent) (b' : Bench) : Prop :=
  ∃ fs : Chronicle, b'.history = b.history ++ fs ∧ (∀ r ∈ fs.requests, p.Permits es r.2) ∧
    (Strays es → ∃ t, (t, straying) ∈ fs.requests)

/-- What is true of the modem while no call is under way. -/
structure Idle (p : Bearer) (b : Bench) (es : List BearerEvent) (m : Mounted Bearer) : Prop where
  part : m.part = p.given (isStanding es)
  addresses : p.Addresses b es m.bench

/-- The command that is joined with the report on the end of the connected context. -/
def leaving (p : Bearer) (ticket : Nat) : JoinedCommand where
  request := (Command.setContextActivation p.cid 0).request
  settle answer :=
    (Severity.soft.outcome ((Command.setContextActivation p.cid 0).outcome answer)).map fun _ => ()
  ticket
  wanted := reports p.cid [.deactivated]
  terms := ⟨.awaitNotification, p.completion, "Timed out waiting for disconnection to complete"⟩

/-- What a disconnect ends in, given how its wait ended. -/
def ending (p : Bearer) : Join.Outcome Unit Urc → Except Error Unit × Bearer
  | .ok _ => (.ok (), { p with cid := 0 })
  | .error e => (.error e, p)

/-- What a disconnect does after its wait. -/
def afterwards (p : Bearer) (ticket : Nat) (outcome : Join.Outcome Unit Urc) :
    Procedure (Except Error Unit × Bearer) :=
  .unsubscribe ticket (.done (p.ending outcome))

/-- A dial on its way: it sends nothing but its own commands, and in the end the context is known as
connected if the dial has succeeded, and otherwise just if it was before. -/
structure Dialling (p : Bearer) (standing : Bool)
    (f : Flight (Except Error Unit × Bearer)) : Prop where
  asked : f.HasAsked
  abides : ∃ held, f.Abides (fun _ r => r ∈ p.commands)
    (fun _ a => a.2 = p.given ((BearerEvent.ended .connect a.1).standing standing)) held

/-- A call under way: a dial, or a disconnect whose command is sent. -/
inductive Busy (p : Bearer) (es : List BearerEvent) (part : Bearer) :
    Errand → Flight (Except Error Unit × Bearer) → Prop where
  | dialling {f : Flight (Except Error Unit × Bearer)} (h : p.Dialling (isStanding es) f) :
      Busy p es part .connect f
  | leaving {errand : Errand} {ticket : Nat} {w : JoinedWait} (hne : errand ≠ .connect)
      (hasked : JoinedCommand.HasAsked w) :
      Busy p es part errand (.join (part.leaving ticket) w (part.afterwards ticket))

/-- What is true of the modem, while a call is under way and while none is. -/
def pact (p : Bearer) (b : Bench) : backend.Pact where
  idle es m := p.Idle b es m
  busy errand f es m := p.Idle b es m ∧ p.Busy es m.part errand f

/-- What is sent is accounted for if it is permitted, and a deactivation of context 0 comes with a
call that goes astray. -/
theorem Addresses.tells {es' : List BearerEvent} (h : p.Addresses b es b₁)
    (htells : b₁.Tells b' sent) (hsent : ∀ d ∈ sent, p.Permits es' d.1)
    (hstrays : Strays es → Strays es')
    (hnew : Strays es' → Strays es ∨ ∃ d ∈ sent, d.1 = straying) : p.Addresses b es' b' := by
  obtain ⟨fs, hfs, hpermits, hstraying⟩ := h
  obtain ⟨gs, hgs, hrequests⟩ := htells
  refine ⟨fs ++ gs, by rw [hgs, hfs, List.append_assoc], ?_, fun hs => ?_⟩
  · intro r hr
    rw [Chronicle.requests_append, List.mem_append] at hr
    -- sent before, or by this move
    rcases hr with hr | hr
    · exact (hpermits r hr).imp_right fun ⟨hs, hr⟩ => ⟨hstrays hs, hr⟩
    · rw [hrequests] at hr
      obtain ⟨d, hd, rfl⟩ := List.mem_map.mp hr
      exact hsent d hd
  · rw [Chronicle.requests_append, hrequests]
    rcases hnew hs with hs | ⟨d, hd, hstray⟩
    · obtain ⟨t, ht⟩ := hstraying hs
      exact ⟨t, List.mem_append_left _ ht⟩
    · exact ⟨d.2.now, List.mem_append_right _ (List.mem_map.mpr ⟨d, hd, by rw [hstray]⟩)⟩

/-- Nothing is sent, and no call goes astray. -/
theorem Addresses.quiet {es' : List BearerEvent} (h : p.Addresses b es b₁) (hquiet : b₁.Tells b' [])
    (hstrays : Strays es ↔ Strays es') : p.Addresses b es' b' :=
  h.tells hquiet (fun _ h => nomatch h) hstrays.mp fun hs => .inl (hstrays.mpr hs)

/-- What happens aside leaves an idle modem idle. -/
theorem Idle.aside {e : BearerEvent} (h : p.Idle b es m) (he : e.IsAside) :
    p.Idle b (es ++ [e]) m :=
  ⟨by rw [isStanding_aside he, h.part], h.addresses.quiet (.of_eq rfl) (strays_aside he).symm⟩

/-- And it leaves a busy one busy. -/
theorem Busy.aside {part : Bearer} {e : BearerEvent} {f : Flight (Except Error Unit × Bearer)}
    (h : p.Busy es part errand f) (hstanding : isStanding (es ++ [e]) = isStanding es) :
    p.Busy (es ++ [e]) part errand f := by
  cases h with
  | dialling h => exact .dialling (by rwa [hstanding])
  | leaving hne hasked => exact .leaving hne hasked

theorem Idle.background (h : p.Idle b es m) (hm : m.Background m') : p.Idle b es m' :=
  ⟨hm.part.trans h.part, h.addresses.quiet hm.quiet .rfl⟩

/-! ## Connecting

A dial is a long operation and may be suspended at any of its waits.  Nothing needs to be known of
where it is: that it abides by its code of conduct is handed on from poll to poll. -/

/-- A dial that has begun keeps the pact up at each poll. -/
theorem Dialling.keptUp {f : Flight (Except Error Unit × Bearer)}
    (hf : p.Dialling (isStanding es) f) (h : p.Idle b es m) (cancelled : Bool) :
    (p.pact b).KeptUp .connect es (Mounted.pollFlight cancelled f m) := by
  obtain ⟨hasked, held, habides⟩ := hf
  obtain ⟨htells, hpending⟩ := Flight.tells_poll hasked { m.bench with cancelled }
  obtain ⟨hkeeping, hsanctioned⟩ :=
    habides.poll (b := { m.bench with cancelled }) Custody.trivial ⟨⟩
  -- a dial sends its own commands and nothing else
  have hsent : ∀ d ∈ f.dispatches { m.bench with cancelled }, p.Permits es d.1 := by
    intro d hd
    obtain ⟨-, hmem, -⟩ := hsanctioned d hd
    exact .inl hmem
  have haddresses := h.addresses.tells htells hsent id .inl
  unfold Mounted.pollFlight
  rcases hpoll : f.poll { m.bench with cancelled } with ⟨b', f' | ⟨result, part⟩⟩ <;>
    rw [hpoll] at haddresses hkeeping
  · obtain ⟨held', habides', -⟩ := hkeeping
    exact ⟨⟨h.part, haddresses⟩, .dialling ⟨hpending b' f' hpoll, held', habides'⟩⟩
  · obtain ⟨-, hpart, -⟩ := hkeeping
    refine ⟨?_, haddresses.quiet (.of_eq rfl) (strays_ended_iff fun h => absurd rfl h).symm⟩
    rw [isStanding_append]
    exact hpart

theorem permitsDial_commands (p : Bearer) : p.PermitsDial fun _ r => r ∈ p.commands where
  seated _ _ h _ := h
  cause := by simp [commands]

/-- A dial that is begun is on its way. -/
theorem dialling_launch (h : p.Idle b es m) :
    p.Dialling (isStanding es) (m.launch (Functor.discard dial)) := by
  have hdial : (Functor.discard dial : Operation Bearer Unit).Abides (fun _ r => r ∈ p.commands)
      (fun _ result part =>
        part = p.given ((BearerEvent.ended .connect result).standing (isStanding es)))
      (p.given (isStanding es)) [] := by
    refine Abides.discard ((dial_abides (permitsDial_commands (p.given (isStanding es)))).mono ?_)
    rintro held (e | cid) part ⟨-, rfl⟩
    · rfl
    · rfl
  refine ⟨trivial, [], ?_⟩
  rw [Mounted.launch, h.part]
  exact hdial

/-- The first poll of a dial keeps the pact up. -/
theorem connect_keptUp (h : p.Idle b es m) (cancelled : Bool) :
    (p.pact b).KeptUp .connect (es ++ [.began .connect])
      (backend.poll cancelled (backend.connect m) m) := by
  have hbegan : p.Idle b (es ++ [.began .connect]) m :=
    ⟨by rw [isStanding_began, h.part], h.addresses.quiet (.of_eq rfl) strays_began_connect.symm⟩
  exact (dialling_launch hbegan).keptUp hbegan cancelled

/-! ## Disconnecting

A disconnect is one joined command.  Without a free seat nothing is sent at all, which is why a
refused call does not count as astray. -/

/-- A disconnect takes a seat, and then is one joined wait. -/
theorem run_disconnect (p : Bearer) :
    disconnect.run.run p = .subscribe fun
      | none => .done (.error (.subscriberOverflow .subscribers), p)
      | some ticket => .join (p.leaving ticket) (p.afterwards ticket) := by
  show Procedure.subscribe _ = _
  congr 1
  funext seat
  cases seat with
  | none => rfl
  | some ticket =>
    show Procedure.join _ _ = _
    congr 1
    funext outcome
    cases outcome <;> rfl

/-- The wait for the report on the end only fails because its bound has passed. -/
theorem leaving_fails {ticket : Nat} {w : JoinedWait} {e : Error}
    (h : (p.leaving ticket).poll w b = (b', .ready (.error e))) :
    e = .operationTimeout "Timed out waiting for disconnection to complete" := by
  rcases Join.poll_fails h with h | ⟨r, hr⟩
  · exact h
  · cases r <;> simp [leaving, Join.Terms.refuses] at hr

/-- When its wait is over, a disconnect is over, and not like one that was refused. -/
theorem leaving_ended {ticket : Nat} {w : JoinedWait} {outcome : Join.Outcome Unit Urc}
    (hne : errand ≠ .connect) (hpart : m.part = p.given (isStanding es))
    (hpoll : (m.part.leaving ticket).poll w b₁ = (b', .ready outcome))
    (haddresses : p.Addresses b es b') :
    p.Idle b (es ++ [.ended errand (m.part.ending outcome).1])
      ⟨b'.unsubscribe ticket, (m.part.ending outcome).2⟩ := by
  cases outcome with
  | ok signals =>
    -- the context is given up, and nothing stands any more
    have hdown : isStanding (es ++ [.ended errand (.ok ())]) = false := by
      rw [isStanding_append]
      exact decide_eq_false hne
    have hstrays : Strays (es ++ [.ended errand (.ok ())]) ↔ Strays es := strays_ended_iff (by simp)
    refine ⟨?_, haddresses.quiet (.of_eq rfl) hstrays.symm⟩
    show { m.part with cid := 0 } = p.given (isStanding (es ++ [.ended errand (.ok ())]))
    rw [hdown, hpart]
    rfl
  | error e =>
    -- a wait that was begun has its seat, so the board was not full
    have hseated : e ≠ .subscriberOverflow .subscribers := by simp [leaving_fails hpoll]
    refine ⟨?_, haddresses.quiet (.of_eq rfl) (strays_ended_iff fun _ h =>
      hseated (Except.error.inj h)).symm⟩
    show m.part = _
    rw [isStanding_append]
    exact hpart

/-- A disconnect whose wait goes on or is over keeps the pact up. -/
theorem leaving_keptUp {ticket : Nat} {w : JoinedWait} (hne : errand ≠ .connect)
    (hpart : m.part = p.given (isStanding es))
    (haddresses : p.Addresses b es ((m.part.leaving ticket).poll w b₁).1)
    (hasked : ∀ b' w', (m.part.leaving ticket).poll w b₁ = (b', .pending w') →
      JoinedCommand.HasAsked w') {r : Mounted Bearer × Poll backend.Call (Except Error Unit)}
    (hr : r = match (m.part.leaving ticket).poll w b₁ with
      | (b', .pending w') =>
        (⟨b', m.part⟩, .pending (.join (m.part.leaving ticket) w' (m.part.afterwards ticket)))
      | (b', .ready outcome) =>
        (⟨b'.unsubscribe ticket, (m.part.ending outcome).2⟩, .ready (m.part.ending outcome).1)) :
    (p.pact b).KeptUp errand es r := by
  rcases hpoll : (m.part.leaving ticket).poll w b₁ with ⟨b', w' | outcome⟩ <;>
    rw [hpoll] at hr haddresses <;> subst hr
  · exact ⟨⟨hpart, haddresses⟩, .leaving hne (hasked b' w' hpoll)⟩
  · exact leaving_ended hne hpart hpoll haddresses

/-- Later polls of a disconnect send nothing. -/
theorem leaving_keptUp_again {ticket : Nat} {w : JoinedWait} (hne : errand ≠ .connect)
    (h : p.Idle b es m) (hasked : JoinedCommand.HasAsked w) (cancelled : Bool) :
    (p.pact b).KeptUp errand es
      (Mounted.pollFlight cancelled
        (.join (m.part.leaving ticket) w (m.part.afterwards ticket)) m) := by
  obtain ⟨htells, hpending⟩ := (m.part.leaving ticket).tells_again { m.bench with cancelled } hasked
  refine leaving_keptUp hne h.part (h.addresses.quiet htells .rfl) hpending ?_
  simp only [Mounted.pollFlight, Flight.poll]
  rcases (m.part.leaving ticket).poll w { m.bench with cancelled } with ⟨b', w' | outcome⟩ <;> rfl

/-- A disconnect is refused without a free seat. -/
theorem disconnect_keptUp_full (h : p.Idle b es m) {cancelled : Bool}
    (hfull : m.bench.board.subscribe? = none) :
    (p.pact b).KeptUp errand (es ++ [.began errand])
      (backend.poll cancelled (backend.disconnect m) m) := by
  have hrefused : (Flight.start (disconnect.run.run m.part)).poll { m.bench with cancelled } =
      ({ m.bench with cancelled }, .ready (.error (.subscriberOverflow .subscribers), m.part)) :=
    m.part.disconnect_refused hfull
  show (p.pact b).KeptUp errand _
    (Mounted.pollFlight cancelled (.start (disconnect.run.run m.part)) m)
  rw [Mounted.pollFlight, hrefused]
  have htwo : es ++ [.began errand] ++ [.refusal errand] =
      es ++ [.began errand, .refusal errand] := by simp
  have hstrays : Strays (es ++ [.began errand] ++ [.refusal errand]) ↔ Strays es := by
    rw [htwo]
    exact ⟨Strays.of_refused, fun h => h.append (by simp [BearerEvent.refusal])⟩
  refine ⟨?_, h.addresses.quiet (.of_eq rfl) hstrays.symm⟩
  show m.part = p.given (isStanding (es ++ [.began errand] ++ [.refusal errand]))
  rw [isStanding_append, isStanding_began, h.part]
  rfl

/-- The command of a disconnect names the own context if it is connected, and goes astray if it is
not. -/
theorem leaving_request (h : m.part = p.given (isStanding es)) (ticket : Nat) :
    (m.part.leaving ticket).request = if isStanding es then p.deactivation.request
      else straying := by
  rw [h]
  cases isStanding es <;> rfl

/-- The command of a disconnect is accounted for. -/
theorem Addresses.disconnect (h : p.Addresses b es b₁) (hne : errand ≠ .connect)
    (hpart : m.part = p.given (isStanding es)) {ticket : Nat} {c : Bench}
    (htells : b₁.Tells b' [((m.part.leaving ticket).request, c)]) :
    p.Addresses b (es ++ [.began errand]) b' := by
  have hmono : Strays es → Strays (es ++ [.began errand]) :=
    fun h => h.append (by simp [BearerEvent.refusal])
  rw [leaving_request hpart] at htells
  cases hstanding : isStanding es with
  | true =>
    rw [hstanding] at htells
    refine h.tells htells (fun d hd => ?_) hmono fun hs => ?_
    · rw [List.mem_singleton.mp hd]
      exact .inl (by simp [commands])
    · rcases hs.cases_concat with hs | ⟨-, -, -, hdown⟩
      · exact .inl hs
      · rw [hstanding] at hdown
        cases hdown
  | false =>
    rw [hstanding] at htells
    -- nothing stands: the request names context 0 and strays
    have hstrays := strays_began hne hstanding
    refine h.tells htells (fun d hd => ?_) hmono fun _ => .inr ⟨_, List.mem_singleton_self _, rfl⟩
    rw [List.mem_singleton.mp hd]
    exact .inr ⟨hstrays, rfl⟩

/-- A disconnect with a seat sends its command at once. -/
theorem disconnect_keptUp_seated (hne : errand ≠ .connect) (h : p.Idle b es m) {cancelled : Bool}
    {ticket : Nat} {board : Board Urc} (hseat : m.bench.board.subscribe? = some (ticket, board)) :
    (p.pact b).KeptUp errand (es ++ [.began errand])
      (backend.poll cancelled (backend.disconnect m) m) := by
  have hpart : m.part = p.given (isStanding (es ++ [.began errand])) := by
    rw [isStanding_began, h.part]
  obtain ⟨htells, hpending⟩ := (m.part.leaving ticket).tells_start { m.bench with cancelled, board }
  refine leaving_keptUp hne hpart (h.addresses.disconnect hne h.part htells) hpending ?_
  show Mounted.pollFlight cancelled (.start (disconnect.run.run m.part)) m = _
  simp only [Mounted.pollFlight, Flight.poll, run_disconnect, Procedure.advance,
    Bench.subscribe, hseat]
  rcases (m.part.leaving ticket).poll ((m.part.leaving ticket).start m.bench.now)
    { m.bench with cancelled, board } with
    ⟨b', w' | outcome⟩ <;> rfl

/-- The first poll of a disconnect keeps the pact up. -/
theorem disconnect_keptUp (hne : errand ≠ .connect) (h : p.Idle b es m) (cancelled : Bool) :
    (p.pact b).KeptUp errand (es ++ [.began errand])
      (backend.poll cancelled (backend.disconnect m) m) := by
  cases hseat : m.bench.board.subscribe? with
  | none => exact disconnect_keptUp_full h hseat
  | some seat => exact disconnect_keptUp_seated hne h hseat

/-- The modem honours the pact. -/
theorem pact_honoured (p : Bearer) (b : Bench) : (p.pact b).Honoured Mounted.Background where
  aside {call? es m e} he h := by
    cases call? with
    | none => exact Idle.aside h he
    | some call => exact ⟨h.1.aside he, h.2.aside (isStanding_aside he)⟩
  drift {call? es m m'} hm h := by
    cases call? with
    | none => exact Idle.background h hm
    | some call => exact ⟨h.1.background hm, hm.part ▸ h.2⟩
  connect cancelled h := connect_keptUp h cancelled
  disconnect cancelled hne h := disconnect_keptUp hne h cancelled
  poll {errand f es m} cancelled h := by
    obtain ⟨hidle, hbusy⟩ := h
    cases hbusy with
    | dialling hf => exact hf.keptUp hidle cancelled
    | leaving hne hasked => exact leaving_keptUp_again hne hidle hasked cancelled

/-! ## Whole runs

The theorem speaks of every list of moves, with anything in the background that does not send
commands itself. -/

/-- **A bearer addresses its own context, unless it undoes a connect that came to nothing.**
Whatever is done to the bearer and whatever the modem does, it sends nothing but the commands of a
dial, which name its own context, and the deactivation of context 0.  Just if a vendor call goes
astray, not all of its commands about contexts name its own; and only the undoing of a connect that
the dial gave up can go astray. -/
theorem own_context_unless_stray (profile : Nat) (config : Config)
    (allowRoaming mixed : Bool) (grace : Nat) (b : Bench) (moves : List (Move (Mounted Bearer)))
    (hmoves : (Interplay.start backend allowRoaming mixed grace
      ⟨b, ofConfig profile config⟩).Drifting
      Mounted.Background moves) :
    let bearer :=
      ((Interplay.start backend allowRoaming mixed grace ⟨b, ofConfig profile config⟩).run
        moves).bearer
    ∃ fs : Chronicle, bearer.vendor.bench.history = b.history ++ fs ∧
      (∀ r ∈ fs.requests, r.2 ∈ (ofConfig profile config).commands ∨ r.2 = straying) ∧
      ((∀ r ∈ fs.requests, NamesContext profile r.2) ↔ profile = 0 ∨ ¬ Strays bearer.history) ∧
      Excused bearer.history := by
  intro bearer
  have hidle : ∀ {call? es m}, ((ofConfig profile config).pact b).Stands call? es m →
      (ofConfig profile config).Idle b es m := by
    intro call? es m h
    cases call? with
    | none => exact h
    | some call => exact h.1
  have hstart : (ofConfig profile config).Idle b [] ⟨b, ofConfig profile config⟩ := by
    have hnone : ¬ Strays [] := by
      rintro ⟨before, errand, after, heq, -⟩
      simp at heq
    exact ⟨rfl, [], (List.append_nil _).symm, fun _ h => (nomatch h), fun h => absurd h hnone⟩
  -- the pact holds in every interleaving, and says what has been sent so far
  obtain ⟨call?, hbearer, -⟩ :=
    (pact_honoured (ofConfig profile config) b).run allowRoaming mixed grace hstart hmoves
  obtain ⟨fs, hhistory, hpermits, hstraying⟩ := (hidle hbearer.stands).addresses
  obtain ⟨phase, -, hcourse⟩ :=
    Interplay.settled_run backend allowRoaming mixed grace ⟨b, ofConfig profile config⟩ moves
  refine ⟨fs, hhistory, fun r hr => (hpermits r hr).imp_right And.right,
    ⟨fun hnames => ?_, fun hown r hr => ?_⟩, hcourse.excused_start⟩
  · by_cases hstrays : Strays bearer.history
    · obtain ⟨t, ht⟩ := hstraying hstrays
      exact .inl (namesContext_straying.mp (hnames _ ht))
    · exact .inr hstrays
  · rcases hpermits r hr with hcommand | ⟨hstrays, hr⟩
    · exact namesContext_of_mem_commands hcommand
    · rw [hr]
      exact namesContext_straying.mpr (hown.resolve_right (not_not_intro hstrays))

/-- The modem takes its time to configure the context. -/
def slow : Bench where
  script := [{ delay := some 10, answer := .ok [] }, { answer := .ok [] }]

def brief : Config := { timing := { dialCompletion := 50 } }

/-- The bearer over context 3 is connected and disconnected while the context is being
configured. -/
def hurried : Interplay backend :=
  (Interplay.start backend true false 0 ⟨slow, ofConfig 3 brief⟩).run
    [.call .connect, .call .disconnect]

/-- When the context is configured, the connect goes on. -/
def givingUp : List (Move (Mounted Bearer)) :=
  [.call .connect, .call .disconnect,
    .drift ⟨{ hurried.bearer.vendor.bench with now := 10 }, ofConfig 3 brief⟩, .poll 0]

def givenUp : Interplay backend :=
  (Interplay.start backend true false 0 ⟨slow, ofConfig 3 brief⟩).run givingUp

theorem own_context_unless_stray_given_up :
    (Interplay.start backend true false 0 ⟨slow, ofConfig 3 brief⟩).Drifting
      Mounted.Background givingUp ∧
      Strays givenUp.bearer.history ∧
      ∃ fs : Chronicle, givenUp.bearer.vendor.bench.history = fs ∧
      ¬ ∀ r ∈ fs.requests, NamesContext 3 r.2 := by
  have hmoves :
      (Interplay.start backend true false 0 ⟨slow, ofConfig 3 brief⟩).Drifting Mounted.Background
        givingUp := by
    refine ⟨fun _ h => (nomatch h), fun _ h => (nomatch h), ?_, fun _ h => (nomatch h), trivial⟩
    rintro _ ⟨⟩
    exact ⟨rfl, .of_eq rfl⟩
  -- the undo begins while nothing stands
  have hstrays : Strays givenUp.bearer.history :=
    ⟨givenUp.bearer.history.take 6, .undo, [], rfl, by decide, rfl, by simp⟩
  obtain ⟨fs, hhistory, -, hnames, -⟩ :=
    own_context_unless_stray 3 brief true false 0 slow givingUp hmoves
  refine ⟨hmoves, hstrays, fs, hhistory, fun h => ?_⟩
  rcases hnames.mp h with hzero | hnone
  · cases hzero
  · exact hnone hstrays

/-- The connect is cancelled before the context is active, and what is deactivated then is not the
context of the bearer. -/
theorem undo_deactivates_context_zero :
    givenUp.bearer.history.getLast? = some (.began .undo) ∧
      Chronicle.requests givenUp.bearer.vendor.bench.history =
        [(0, (Command.configureContext 3 "" "").request),
          (10, (Command.setContextActivation 0 0).request)] ∧
      ¬ ∀ r ∈ Chronicle.requests givenUp.bearer.vendor.bench.history, NamesContext 3 r.2 := by
  refine ⟨rfl, rfl, fun h => ?_⟩
  have hundo : NamesContext 3 straying := h (10, straying) (.tail _ (.head _))
  cases namesContext_straying.mp hundo

end Samsung.Bearer

end Cellular
