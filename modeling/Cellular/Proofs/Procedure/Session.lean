import Cellular.Proofs.Bench.Dispatch
import Cellular.Proofs.Procedure.Runs
/-!
# Calls one after another

Operations are called on one state, one after another.  Every call has an occasion of its own: the
bench that it finds, with whatever the far end is going to answer, and whatever happens meanwhile.
How a call went is a `Performance`.  In a `Session` each call finds the state that the one before it
left.

There is exactly one way for a session to go, whatever the calls and the occasions
(`exists_session`, `Session.unique`).  What is true of the past and the state when the session
begins, and is kept by every call, is true at every point of it (`Session.invariant`).

A session is the form that statements about a modem take when they are about what it remembers: any
calls, in any order, with any answers, and then something holds of what was sent and of the state.
The calls are given by an index, and the operation that belongs to a call may depend on what is
called with.  So one theorem of invariance serves for all modems, and a proof has to say what holds
at the beginning, and that each call keeps it.
-/

namespace Cellular

/-- Commands were sent and answered one after another, and besides only codes came. -/
inductive Bench.Converses : Bench → List (Request × Except LinkError Bytes) → Bench → Prop
  | nil {b : Bench} : Converses b [] b
  | cons {b b₁ b' : Bench} {r : Request} {before : Chronicle} {answer : Except LinkError Bytes}
    {rest : List (Request × Except LinkError Bytes)} (hanswered : b.Answered r before answer [] b₁)
    (hrest : Converses b₁ rest b') : Converses b ((r, answer) :: rest) b'

/-- The history tells of these exchanges. -/
theorem Bench.Converses.chronicle {b b' : Bench} {xs : List (Request × Except LinkError Bytes)}
    (h : b.Converses xs b') :
    ∃ es : Chronicle, b'.history = b.history ++ es ∧ es.exchanges = xs ∧
    es.requests.map Prod.snd = xs.map Prod.fst := by
  induction h with
  | @nil b => exact ⟨[], (List.append_nil _).symm, rfl, rfl⟩
  | @cons b b₁ b' r before answer rest hanswered _ ih =>
    obtain ⟨es, hes, hexchanges, hrequests⟩ := ih
    refine ⟨b.exchange r before answer [] ++ es, ?_, ?_, ?_⟩
    · rw [hes, hanswered.grows.history, List.append_assoc]
    · rw [hanswered.exchanges_eq, hexchanges]
    · rw [Chronicle.requests_append, List.map_append, hanswered.requests_eq, hrequests]
      rfl

/-- What a call finds: a bench, and what happens on it meanwhile. -/
structure Occasion where
  bench : Bench
  events : List (Nat × Event) := []

/-! ## How a call goes

The history of the bench that a call leaves has what it found, and behind it what happened during
the call.  What was sent and answered is read off that part. -/

/-- How a call went. -/
structure Performance (σ α : Type) where
  /-- What it found. -/
  occasion : Occasion
  /-- The state before it. -/
  before : σ
  /-- What it ended in. -/
  result : Except Error α
  /-- The state after it. -/
  after : σ
  /-- What happened between its beginning and its end. -/
  chronicle : Chronicle

variable {σ α κ : Type}

namespace Performance

/-- The commands that it sent, without what frames them. -/
def sent (p : Performance σ α) : List String := p.chronicle.requests.map (·.2.body)

/-- The commands that it sent, each with its answer. -/
def exchanges (p : Performance σ α) : List (Request × Except LinkError Bytes) :=
  p.chronicle.exchanges

/-- What the modem answers to the first command. -/
def answer (p : Performance σ α) : Except LinkError Bytes := p.occasion.bench.turn.answer

variable {p : Performance σ α} {b' : Bench}

/-- Where the history does not grow nothing was sent. -/
theorem sent_nothing (hhistory : b'.history = p.occasion.bench.history ++ p.chronicle)
    (hsame : b'.history = p.occasion.bench.history) : p.sent = [] := by
  have hnil : p.chronicle = [] := List.append_right_eq_self.mp (hhistory.symm.trans hsame)
  rw [sent, hnil]
  rfl

/-- What was sent is the bodies of the requests in the history. -/
theorem sent_of_requests {rs : List Request} (h : p.chronicle.requests.map Prod.snd = rs) :
    p.sent = rs.map Request.body := by
  rw [← h, List.map_map]
  rfl

variable {b : Bench} {xs : List (Request × Except LinkError Bytes)}

/-- Whatever else happens, the history tells what was sent and answered. -/
theorem recorded (hhistory : b'.history = p.occasion.bench.history ++ p.chronicle)
    (hsame : b.history = p.occasion.bench.history) (h : b.Converses xs b') :
    p.exchanges = xs ∧ p.chronicle.requests.map Prod.snd = xs.map Prod.fst := by
  obtain ⟨es, hes, hexchanges, hrequests⟩ := h.chronicle
  have hchronicle : p.chronicle = es := by
    rw [hsame] at hes
    exact List.append_cancel_left (hhistory.symm.trans hes)
  rw [exchanges, hchronicle]
  exact ⟨hexchanges, hrequests⟩

/-- Exchanges that follow one another are all that was sent and answered. -/
theorem exchanged (hhistory : b'.history = p.occasion.bench.history ++ p.chronicle)
    (hsame : b.history = p.occasion.bench.history) (h : b.Converses xs b') :
    p.exchanges = xs ∧ p.sent = xs.map (·.1.body) := by
  obtain ⟨hexchanges, hrequests⟩ := recorded hhistory hsame h
  refine ⟨hexchanges, ?_⟩
  rw [sent_of_requests hrequests, List.map_map]
  rfl

theorem exchanges_eq (hhistory : b'.history = p.occasion.bench.history ++ p.chronicle)
    (h : p.occasion.bench.Converses xs b') : p.exchanges = xs := (p.exchanged hhistory rfl h).1

theorem sent_eq (hhistory : b'.history = p.occasion.bench.history ++ p.chronicle)
    (h : p.occasion.bench.Converses xs b') : p.sent = xs.map (·.1.body) :=
    (p.exchanged hhistory rfl h).2

/-- Only what was sent is answered. -/
theorem body_mem_sent {x : Request × Except LinkError Bytes} (h : x ∈ p.exchanges) :
    x.1.body ∈ p.sent := by
  obtain ⟨hrequest, -⟩ := List.of_mem_zip h
  obtain ⟨e, he, hbody⟩ := List.mem_map.mp hrequest
  exact List.mem_map.mpr ⟨e, he, by rw [hbody]⟩

end Performance

/-! ## There is one way to go

On a bench that is given with everything that will happen on it, an operation comes to an end and
there is one end to come to.  So a session can be spoken of without saying for how long anything was
polled. -/

namespace Operation

/-- The operation goes like that. -/
def Performs (op : Operation σ α) (p : Performance σ α) : Prop :=
  ∃ b', Rehearsal.EndsIn p.occasion.bench p.occasion.events (op.run.run p.before)
    (p.result, p.after) b' ∧
    b'.history = p.occasion.bench.history ++ p.chronicle

variable {op : Operation σ α} {p q : Performance σ α}

/-- On every occasion the operation goes somehow. -/
theorem exists_performs (op : Operation σ α) (s : σ) (o : Occasion) :
    ∃ p : Performance σ α, p.occasion = o ∧ p.before = s ∧ op.Performs p := by
  obtain ⟨⟨result, s'⟩, b', hends, -⟩ := Rehearsal.exists_endsIn o.bench o.events (op.run.run s)
  obtain ⟨rounds, hrun⟩ := hends
  obtain ⟨es, hes, -⟩ := Rehearsal.sent_in_run (f := .start (op.run.run s)) trivial rounds o.bench
    (.ofList o.bench.now o.events)
  have hb : b' = (Rehearsal.run rounds o.bench o.events (op.run.run s)).2 :=
    (congrArg Prod.snd (hrun 0)).symm
  exact ⟨⟨o, s, result, s', es⟩, rfl, rfl, b', ⟨rounds, hrun⟩, by rw [hb]; exact hes⟩

/-- There is no other way to go. -/
theorem Performs.unique (h : op.Performs p) (h' : op.Performs q) (ho : q.occasion = p.occasion)
    (hs : q.before = p.before) : q = p := by
  obtain ⟨o, s, result, s', es⟩ := p
  obtain ⟨o', t, result', t', fs⟩ := q
  obtain rfl : o' = o := ho
  obtain rfl : t = s := hs
  obtain ⟨b', hends, hes⟩ := h
  obtain ⟨c', hends', hfs⟩ := h'
  obtain ⟨hresult, rfl⟩ := hends.unique hends'
  obtain ⟨rfl, rfl⟩ := Prod.mk.inj hresult
  obtain rfl := List.append_cancel_left (hes.symm.trans hfs)
  rfl

/-- What is true of every way in which the operation can end is true of how it went. -/
theorem Performs.runs (h : op.Performs p) :
    ∃ b', op.Runs p.before p.occasion.bench p.result p.after b' ∧
      b'.history = p.occasion.bench.history ++ p.chronicle := by
  obtain ⟨b', hends, hhistory⟩ := h
  obtain ⟨⟨result, s'⟩, c', hends', hruns⟩ :=
    Rehearsal.exists_endsIn p.occasion.bench p.occasion.events (op.run.run p.before)
  obtain ⟨hresult, rfl⟩ := hends.unique hends'
  rw [← hresult] at hruns
  exact ⟨b', hruns, hhistory⟩

/-- A rehearsal that is over after so many rounds shows how the operation goes. -/
theorem Performs.of_run (rounds : Nat)
    (hrun : (Rehearsal.run rounds p.occasion.bench p.occasion.events (op.run.run p.before)).1 =
      some (p.result, p.after))
    (hhistory : (Rehearsal.run rounds p.occasion.bench p.occasion.events
      (op.run.run p.before)).2.history =
      p.occasion.bench.history ++ p.chronicle) : op.Performs p :=
  ⟨_, Rehearsal.EndsIn.of_run hrun, hhistory⟩

end Operation

/-- Calls that were made one after another from the state `s` on, and how each of them went. -/
inductive Session (perform : κ → Operation σ α) : σ → List (κ × Performance σ α) → Prop
  | nil {s : σ} : Session perform s []
  | cons {call : κ} {p : Performance σ α} {entries : List (κ × Performance σ α)}
    (hp : (perform call).Performs p)
    (hrest : Session perform p.after entries) : Session perform p.before ((call, p) :: entries)

variable {perform : κ → Operation σ α} {s : σ} {entries entries' : List (κ × Performance σ α)}

/-- Whatever is called on whatever occasions, the session goes somehow. -/
theorem exists_session (perform : κ → Operation σ α) (s : σ) (calls : List (κ × Occasion)) :
    ∃ entries, Session perform s entries ∧ entries.map (fun e => (e.1, e.2.occasion)) = calls := by
  induction calls generalizing s with
  | nil => exact ⟨[], .nil, rfl⟩
  | cons call calls ih =>
    obtain ⟨p, hoccasion, rfl, hp⟩ := Operation.exists_performs (perform call.1) s call.2
    obtain ⟨entries, hentries, hcalls⟩ := ih p.after
    exact ⟨(call.1, p) :: entries, .cons hp hentries, by rw [List.map_cons, hcalls, hoccasion]⟩

/-- There is no other way for a session to go. -/
theorem Session.unique (h : Session perform s entries) (h' : Session perform s entries')
    (hcalls : entries'.map (fun e => (e.1, e.2.occasion)) = entries.map fun e =>
      (e.1, e.2.occasion)) :
    entries' = entries := by
  induction h generalizing entries' with
  | nil => exact List.map_eq_nil_iff.mp hcalls
  | @cons call p entries hp _ ih =>
    generalize hs : p.before = s at h'
    cases h' with
    | nil => cases hcalls
    | @cons call' q entries' hq hrest' =>
      obtain ⟨hhead, htail⟩ := List.cons.inj hcalls
      obtain ⟨rfl, hoccasion⟩ := Prod.mk.inj hhead
      obtain rfl := hp.unique hq hoccasion hs.symm
      rw [ih hrest' htail]

/-- What is true of the past and the state at the beginning, and is kept by every call, is true
whenever a call is made. -/
theorem Session.invariant {I : List (κ × Performance σ α) → σ → Prop}
    (h : Session perform s entries) (hs : I [] s)
    (hstep : ∀ past call p, (perform call).Performs p → I past p.before →
      I (past ++ [(call, p)]) p.after) :
    ∀ past call p later, entries = past ++ (call, p) :: later → (perform call).Performs p ∧
    I past p.before := by
  -- the entries that were taken off in front are part of the past
  suffices hall : ∀ earlier, I earlier s →
    ∀ past call p later, entries = past ++ (call, p) :: later →
      (perform call).Performs p ∧ I (earlier ++ past) p.before from hall [] hs
  clear hs
  induction h with
  | nil =>
    intro earlier _ past call p later hsplit
    exact absurd hsplit.symm (by simp)
  | @cons call p entries hp _ ih =>
    intro earlier hearlier past call' q later hsplit
    cases past with
    | nil =>
      obtain ⟨hhead, -⟩ := List.cons.inj hsplit
      obtain ⟨rfl, rfl⟩ := Prod.mk.inj hhead
      rw [List.append_nil]
      exact ⟨hp, hearlier⟩
    | cons e past =>
      obtain ⟨rfl, htail⟩ := List.cons.inj hsplit
      rw [List.append_cons]
      exact ih _ (hstep earlier call p hp hearlier) past call' q later htail

/-- Everything that was sent in the course of a session. -/
def Session.sent (entries : List (κ × Performance σ α)) : List String := entries.flatMap (·.2.sent)

/-- Everything that was sent in the course of a session, each with its answer. -/
def Session.exchanges (entries : List (κ × Performance σ α)) :
    List (Request × Except LinkError Bytes) :=
  entries.flatMap (·.2.exchanges)

theorem Session.sent_append (past : List (κ × Performance σ α)) (e : κ × Performance σ α) :
    sent (past ++ [e]) = sent past ++ e.2.sent := by
  rw [sent, List.flatMap_append, List.flatMap_singleton]
  rfl

theorem Session.exchanges_append (past : List (κ × Performance σ α)) (e : κ × Performance σ α) :
    exchanges (past ++ [e]) = exchanges past ++ e.2.exchanges := by
  rw [exchanges, List.flatMap_append, List.flatMap_singleton]
  rfl

/-- What holds of all calls of a kind still does after one more call. -/
theorem Session.forall_append {past : List (κ × Performance σ α)} {call kind : κ}
    {p : Performance σ α} {Q : κ × Performance σ α → Prop} (h : ∀ e ∈ past, e.1 = kind → Q e)
    (hlast : call = kind → Q (call, p)) :
    ∀ e ∈ past ++ [(call, p)], e.1 = kind → Q e := by
  intro e he hkind
  rcases List.mem_append.mp he with he | he
  · exact h e he hkind
  · obtain rfl := List.mem_singleton.mp he
    exact hlast hkind

/-- It is also true when everything has been called. -/
theorem Session.invariant_end {I : List (κ × Performance σ α) → σ → Prop}
    (h : Session perform s entries) (hs : I [] s)
    (hstep : ∀ past call p, (perform call).Performs p → I past p.before →
      I (past ++ [(call, p)]) p.after) :
    ∃ s', I entries s' := by
  rcases entries.eq_nil_or_concat with rfl | ⟨past, ⟨call, p⟩, hlast⟩
  · exact ⟨s, hs⟩
  · rw [List.concat_eq_append] at hlast
    subst hlast
    obtain ⟨hp, hbefore⟩ := h.invariant hs hstep past call p [] rfl
    exact ⟨p.after, hstep past call p hp hbefore⟩

end Cellular
