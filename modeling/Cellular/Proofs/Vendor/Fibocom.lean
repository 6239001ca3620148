import Cellular.Proofs.Feature
import Cellular.Proofs.Procedure.Confined
import Cellular.Vendor.Fibocom
/-!
# The data path of a Fibocom modem

Whether a Fibocom modem has a network interface is found out when the first bearer is created: by a
question where there is a port for network traffic, and without one where there is none
(`FindsPath`).  What else the modem is asked for has nothing to do with it (`goes`).  So in every
session the question is put at most once, and all bearers are of one kind (`KnowsPath`).

The invariant of a session has four parts, which depend on one another: whether the path is known,
that the question was put if it is and there is a port, that it was put once at most, and that all
bearers so far are of the kind that goes with what is known.  A task that is unconcerned keeps it
trivially (`KnowsPath.keep`); a task that learns something does so from nothing known, and the
invariant holds with what it learned (`KnowsPath.learn`).
-/

namespace Cellular.Fibocom

open Operation

variable {p : Performance Fibocom Value} {m m' : Fibocom} {b b' : Bench} {task : Task}

/-! ## How the tasks go

A bearer is the only task that looks for the path.  Of all others it is enough to know that they do
not send the question. -/

/-- The question whether there is a network interface. -/
def question : Request := Command.testRndis.request

theorem question_body : question.body = "+GTRNDIS=?" := by decide

/-- Any reply to it says that there is one. -/
theorem outcome_testRndis (answer : Except LinkError Bytes) :
    Feature.ofQuery (Command.testRndis.outcome answer) = .supported ↔
    ∃ reply, answer = .ok reply := by
  cases answer with
  | ok reply => exact iff_of_true rfl ⟨reply, rfl⟩
  | error e => exact iff_of_false nofun nofun

/-- How it is found out whether there is a network interface, and what is exchanged for that. -/
inductive FindsPath (m m' : Fibocom) (exchanges : List (Request × Except LinkError Bytes)) : Prop
  | known (hknown : m.rndis ≠ .unknown) (hsame : m'.rndis = m.rndis) (hnone : exchanges = [])
  | portless (hunknown : m.rndis = .unknown) (hport : m.hasNetPort = false)
    (hnot : m'.rndis = .notSupported) (hnone : exchanges = [])
  | asked (answer : Except LinkError Bytes) (hunknown : m.rndis = .unknown)
    (hport : m.hasNetPort = true) (hfound : m'.rndis = .ofQuery (Command.testRndis.outcome answer))
    (hone : exchanges = [(question, answer)])

/-- Once a missing port has been taken into account. -/
theorem resolveRndis_runs {r : Except Error BearerKind} (h : (do
    let rndis ← (← MonadState.get).rndis.resolve (attempt .testRndis)
    modify fun m => { m with rndis }
    return rndis.bearerKind : Operation Fibocom BearerKind).Runs m b r m' b') :
    r = .ok m'.rndis.bearerKind ∧ m'.hasNetPort = m.hasNetPort ∧
      ((m.rndis = .unknown ∧ ∃ answer, b.Converses [(question, answer)] b' ∧
          m'.rndis = .ofQuery (Command.testRndis.outcome answer)) ∨
        (m.rndis ≠ .unknown ∧ b' = b ∧ m'.rndis = m.rndis)) := by
  rcases h.bind_get.bind_resolve with ⟨hunknown, before, b₁, hanswered, hrest⟩ | ⟨hknown, hrest⟩
  · obtain ⟨rfl, rfl, rfl⟩ := hrest.bind_modify.pure
    exact ⟨rfl, rfl, .inl ⟨hunknown, _, .cons hanswered .nil, rfl⟩⟩
  · obtain ⟨rfl, rfl, rfl⟩ := hrest.bind_modify.pure
    exact ⟨rfl, rfl, .inr ⟨hknown, rfl, rfl⟩⟩

/-- Creating a bearer finds the path out, and gives the kind that goes with it. -/
theorem createBearer_runs {r : Except Error BearerKind} (h : createBearer.Runs m b r m' b') :
    r = .ok m'.rndis.bearerKind ∧ m'.hasNetPort = m.hasNetPort ∧ ∃ xs, b.Converses xs b' ∧
    FindsPath m m' xs := by
  have h := h.bind_get
  split at h
  · rename_i hport
    have hport : m.hasNetPort = false := by simpa using hport
    obtain ⟨hresult, hsame, ⟨hunknown, -⟩ | ⟨-, rfl, hrndis⟩⟩ := resolveRndis_runs h.bind_modify
    · -- without a port the path has just been settled
      cases hm : m.rndis <;> simp [hm, Feature.resolveWithoutPort] at hunknown
    · refine ⟨hresult, hsame, [], .nil, ?_⟩
      by_cases hunknown : m.rndis = .unknown
      · exact .portless hunknown hport (by rw [hrndis, hunknown]; rfl) rfl
      · refine .known hunknown (hrndis.trans ?_) rfl
        cases hm : m.rndis <;> simp_all [Feature.resolveWithoutPort]
  · rename_i hport
    have hport : m.hasNetPort = true := by simpa using hport
    obtain ⟨hresult, hsame, ⟨hunknown, answer, hxs, hfound⟩ | ⟨hknown, rfl, hrndis⟩⟩ :=
      resolveRndis_runs h
    · exact ⟨hresult, hsame, _, hxs, .asked answer hunknown hport hfound rfl⟩
    · exact ⟨hresult, hsame, [], .nil, .known hknown hrndis rfl⟩

/-- What is known of the data path. -/
def path (m : Fibocom) : Bool × Feature := (m.hasNetPort, m.rndis)

/-- The question is not put, and nothing is learned about the data path. -/
abbrev Unconcerned {α : Type} (op : Operation Fibocom α) : Prop :=
  op.Confined (·.body ≠ "+GTRNDIS=?") path

/-- A command for a level is not the question. -/
theorem setFunctionality_ne (level : Nat) :
    (Command.setFunctionality level).request.body ≠ "+GTRNDIS=?" := by
  intro h
  have hfirst := congrArg (fun s : String => s.toList.take 2) h
  simp [Command.setFunctionality, Command.set, Request.body] at hfirst

/-- Setting the access point has nothing to do with the path. -/
theorem setInitialBearer_unconcerned (apn : String) : Unconcerned (setInitialBearer apn) := by
  have hlevel : ∀ level, Unconcerned (discard (step false .fatal (.setFunctionality level))) :=
    fun level =>
    .discard (.step (setFunctionality_ne level) _)
  refine Confined.get.bind fun m => ?_
  split
  · exact (hlevel 4).bind fun _ => (Confined.parent _).bind fun _ => hlevel 1
  · exact .parent _

theorem reset_unconcerned : Unconcerned reset := .send (by decide)

/-- How a task goes, as far as the data path is concerned. -/
inductive Goes (p : Performance Fibocom Value) : Task → Prop
  | createBearer (hfinds : FindsPath p.before p.after p.exchanges)
    (hport : p.after.hasNetPort = p.before.hasNetPort) (hsent : p.sent = p.exchanges.map (·.1.body))
    (hresult : p.result = .ok (.kind p.after.rndis.bearerKind)) :
    Goes p .createBearer
  | aside {task : Task} (hother : task ≠ .createBearer) (hpath : p.after.path = p.before.path)
    (hsent : "+GTRNDIS=?" ∉ p.sent) : Goes p task

/-- A task that is unconcerned goes as such. -/
theorem goes_aside (h : Unconcerned (perform task)) (hother : task ≠ .createBearer)
    (hp : (perform task).Performs p) :
    Goes p task := by
  obtain ⟨hsent, hpath⟩ := h.performs hp
  refine .aside hother hpath fun hasked => ?_
  obtain ⟨e, he, hbody⟩ := List.mem_map.mp hasked
  exact hsent e he hbody

/-- Every task goes in one of these ways. -/
theorem goes (hp : (perform task).Performs p) : Goes p task := by
  cases task with
  | createBearer =>
    obtain ⟨b', hruns, hhistory⟩ := hp.runs
    obtain ⟨_, hresult, hruns⟩ := hruns.bind_pure
    obtain ⟨rfl, hport, xs, hxs, hfinds⟩ := createBearer_runs hruns
    obtain ⟨hexchanges, hsent⟩ := p.exchanged hhistory rfl hxs
    exact .createBearer (hexchanges ▸ hfinds) hport (hexchanges ▸ hsent) hresult
  | reset => exact goes_aside (reset_unconcerned.bind fun _ => .pure _) nofun hp
  | setInitialBearer apn =>
    exact goes_aside ((setInitialBearer_unconcerned apn).bind fun _ => .pure _) nofun hp

/-! ## A session

What is asserted of a session is asserted of its beginning and kept by each task, so it holds
however long the session is. -/

variable {past : List (Task × Performance Fibocom Value)} {config : Config}

/-- The question was put if it is known whether there is a network interface, and that only where
there is a port; then every bearer was of the kind that follows. -/
structure KnowsPath (config : Config) (past : List (Task × Performance Fibocom Value))
    (m : Fibocom) : Prop where
  hasNetPort : m.hasNetPort = config.hasNetPort
  asked : (Session.sent past).count "+GTRNDIS=?" = if m.rndis ≠ .unknown ∧
    m.hasNetPort = true then 1 else 0
  found : m.rndis = .supported ↔ ∃ reply, (question, .ok reply) ∈ Session.exchanges past
  same : ∀ e ∈ past, e.1 = .createBearer → m.rndis ≠ .unknown ∧
    e.2.result = .ok (.kind m.rndis.bearerKind)

theorem KnowsPath.start (config : Config) : KnowsPath config [] (ofConfig config) :=
  ⟨rfl, rfl, by simp [ofConfig, Session.exchanges], List.forall_mem_nil _⟩

/-- Where nothing is learned, what was known before is known after. -/
theorem KnowsPath.keep (h : KnowsPath config past p.before) (hpath : p.after.path = p.before.path)
    (hsent : "+GTRNDIS=?" ∉ p.sent)
    (hresult : task = .createBearer → p.before.rndis ≠ .unknown ∧
      p.result = .ok (.kind p.before.rndis.bearerKind)) :
    KnowsPath config (past ++ [(task, p)]) p.after := by
  obtain ⟨hport, hrndis⟩ := Prod.mk.inj hpath
  have hexchanges : ∀ reply, (question, .ok reply) ∉ p.exchanges := fun reply hmem =>
    hsent (question_body ▸ p.body_mem_sent hmem)
  refine ⟨hport.trans h.hasNetPort, ?_, ?_, ?_⟩
  · rw [Session.sent_append, List.count_append, List.count_eq_zero.mpr hsent, hrndis, hport]
    exact h.asked
  · rw [hrndis, h.found, Session.exchanges_append]
    refine exists_congr fun reply => ?_
    rw [List.mem_append, or_iff_left (hexchanges reply)]
  · rw [hrndis]
    exact Session.forall_append h.same hresult

/-- What was not known before is known after the first bearer was created. -/
theorem KnowsPath.learn (h : KnowsPath config past p.before) (hunknown : p.before.rndis = .unknown)
    (hknown : p.after.rndis ≠ .unknown) (hport : p.after.hasNetPort = p.before.hasNetPort)
    (hsent : p.sent.count "+GTRNDIS=?" = if p.after.hasNetPort then 1 else 0)
    (hfound : p.after.rndis = .supported ↔ ∃ reply, (question, .ok reply) ∈ p.exchanges)
    (hresult : p.result = .ok (.kind p.after.rndis.bearerKind)) :
    KnowsPath config (past ++ [(task, p)]) p.after := by
  -- unknown until now, so nothing has been asked
  have hunasked := h.asked
  rw [if_neg fun hasked => hasked.1 hunknown] at hunasked
  have hbefore : ∀ reply, (question, .ok reply) ∉ Session.exchanges past := fun reply hmem =>
    absurd (hunknown.symm.trans (h.found.mpr ⟨reply, hmem⟩)) nofun
  refine ⟨hport.trans h.hasNetPort, ?_, ?_, ?_⟩
  · rw [Session.sent_append, List.count_append, hunasked, hsent, Nat.zero_add]
    simp only [ne_eq, hknown, not_false_eq_true, true_and]
  · rw [hfound, Session.exchanges_append]
    refine exists_congr fun reply => ?_
    rw [List.mem_append, or_iff_right (hbefore reply)]
  · exact Session.forall_append (fun e he hcreate => absurd hunknown (h.same e he hcreate).1)
      fun _ => ⟨hknown, hresult⟩

/-- Every task keeps the invariant. -/
theorem KnowsPath.step (hgoes : Goes p task) (h : KnowsPath config past p.before) :
    KnowsPath config (past ++ [(task, p)]) p.after := by
  cases hgoes with
  | aside hother hpath hsent => exact h.keep hpath hsent fun hcreate => absurd hcreate hother
  | createBearer hfinds hport hsent hresult =>
    -- known already, settled by the missing port, or asked for while unknown
    cases hfinds with
    | known hknown hsame hnone =>
      rw [hnone] at hsent
      refine h.keep (Prod.ext hport hsame) (by rw [hsent]; nofun) fun _ => ⟨hknown, ?_⟩
      rw [hresult, hsame]
    | portless hunknown hnoport hnot hnone =>
      refine h.learn hunknown (by rw [hnot]; nofun) hport ?_ ?_ hresult
      · rw [hsent, hnone, hport, hnoport]
        rfl
      · rw [hnot, hnone]
        exact iff_of_false nofun nofun
    | asked answer hunknown hthere hfound hone =>
      refine h.learn hunknown (hfound ▸ Feature.ofQuery_known _) hport ?_ ?_ hresult
      · rw [hsent, hone, hport, hthere]
        rfl
      · rw [hfound, outcome_testRndis, hone]
        refine exists_congr fun reply => ?_
        rw [List.mem_singleton, Prod.mk.injEq, eq_self, true_and, eq_comm]

/-! ## The law

The first half is about a feature by itself, in any monad; the second is about the one feature of a
Fibocom modem. -/

/-- **The first call settles a feature.**  Of calls that begin with an unknown feature, no more than
one runs its query, and that is the first.  What is known after it stays known: that there is the
feature if the query ran and succeeded, and that there is not if it failed or there was none.  Every
other call gives what is known, or no value.

So in every session of a Fibocom modem the question whether there is a network interface is put at
most once, and never where there is no port.  All bearers are of one kind, the vendor's if the modem
took the question. -/
theorem settled_by_first_call {ε α : Type} (call : Feature.Call (Except ε α))
    (later : List (Feature.Call (Except ε α))) (config : Config) (calls : List (Task × Occasion)) :
    (∃ known value,
      (Feature.session .unknown (Feature.numbered (call :: later))).run [] =
        ((call.answer known value, known) :: later.map (fun c => (c.answer known none, known)),
          if call.query?.isSome then [0] else []) ∧
      (known = .supported ↔ ∃ v, call.query? = some (.ok v)) ∧
      (known = .notSupported ↔ ¬ ∃ v, call.query? = some (.ok v)) ∧
      ∀ v, value = some v ↔ call.query? = some (.ok v)) ∧
    ∃ entries, Session perform (ofConfig config) entries ∧
    entries.map (fun e => (e.1, e.2.occasion)) = calls ∧
      (Session.sent entries).count "+GTRNDIS=?" ≤ 1 ∧
      (config.hasNetPort = false → "+GTRNDIS=?" ∉ Session.sent entries) ∧
      ∃ kind, (kind = .vendor ↔
        ∃ reply, (Command.testRndis.request, .ok reply) ∈ Session.exchanges entries) ∧
        ∀ e ∈ entries, e.1 = .createBearer → e.2.result = .ok (.kind kind) := by
  refine ⟨⟨_, _, Feature.session_numbered call later, Feature.settled_eq_supported,
    Feature.settled_eq_notSupported, fun v => ?_⟩, ?_⟩
  · rcases call.query? with _ | _ | _ <;> simp [Except.toOption]
  · obtain ⟨entries, hsession, hcalls⟩ := exists_session perform (ofConfig config) calls
    obtain ⟨m, hend⟩ := hsession.invariant_end (I := KnowsPath config) (.start config)
      fun past call p hp h => h.step (goes hp)
    have hasked := hend.asked
    rw [hend.hasNetPort] at hasked
    refine ⟨entries, hsession, hcalls, ?_, fun hport => ?_, m.rndis.bearerKind, ?_, ?_⟩
    · rw [hasked]
      split <;> decide
    · rw [if_neg (by rw [hport]; nofun)] at hasked
      exact List.count_eq_zero.mp hasked
    · exact Iff.trans (by cases m.rndis <;> decide) hend.found
    · exact fun e he hcreate => (hend.same e he hcreate).2

end Cellular.Fibocom
