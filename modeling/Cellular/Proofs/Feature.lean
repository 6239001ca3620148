import Cellular.Feature
/-!
# The first call settles a feature

A feature may be asked for its support, for the value of its query, or told that there is no port,
in any order.  What is known stays known: a call that finds the feature known runs nothing
(`Call.perform_known`).  So in any monad the calls that begin with an unknown feature do what the
query of the first of them does, if it has one, and nothing else (`session_unknown`).  Where every
query leaves the place of its call behind, no place but the first is ever left (`session_numbered`).

Calls are taken apart into the query that they may run and the answer they give of what is known
after it (`Call.answer`).  That makes the theorem independent of the monad in which queries run: a
session is the query of one call, followed by answers that depend on its outcome only.
-/

namespace Cellular.Feature

variable {Q R ε α : Type}

/-- After a query one knows. -/
theorem ofQuery_known (x : Except ε α) : ofQuery x ≠ unknown := by
  cases x <;> nofun

/-! ## Calls

Three calls are told apart: one asks whether there is support, one wants the value of the query as
well, and one says that there is no port and so runs nothing. -/

/-- Something that a feature is asked for, with the query that it may run. -/
inductive Call (Q : Type) where
  | resolve (query : Q)
  | resolveValue (query : Q)
  | resolveWithoutPort

/-- What a call gives: what is known of the feature, or the value of a query that ran and
succeeded. -/
inductive Answer (α : Type) where
  | support (known : Feature)
  | value (value : Option α)
  deriving DecidableEq

namespace Call

/-- The query that comes with a call. -/
def query? : Call Q → Option Q
  | resolve query => some query
  | resolveValue query => some query
  | resolveWithoutPort => none

/-- The call with another query. -/
def map (f : Q → R) : Call Q → Call R
  | resolve query => resolve (f query)
  | resolveValue query => resolveValue (f query)
  | resolveWithoutPort => resolveWithoutPort

/-- What the call gives when that is known after it, and that is the value. -/
def answer (known : Feature) (value : Option α) : Call Q → Answer α
  | resolve _ => .support known
  | resolveValue _ => .value value
  | resolveWithoutPort => .support known

/-- What a call answers does not depend on its query. -/
theorem answer_map (f : Q → R) (known : Feature) (value : Option α) (c : Call Q) :
    (c.map f).answer known value = c.answer known value := by
  cases c <;> rfl

end Call

/-- What is known after a first call whose query, if it has one, ended so. -/
def settled : Option (Except ε α) → Feature
  | some outcome => ofQuery outcome
  | none => notSupported

theorem settled_known (outcome? : Option (Except ε α)) : settled outcome? ≠ unknown := by
  cases outcome? with
  | none => nofun
  | some outcome => exact ofQuery_known outcome

/-- A feature is supported just if the query of the first call ran and succeeded. -/
theorem settled_eq_supported {outcome? : Option (Except ε α)} :
    settled outcome? = supported ↔ ∃ value, outcome? = some (.ok value) := by
  rcases outcome? with _ | _ | _ <;> simp [settled, ofQuery]

/-- It is not supported if that query failed, or if the first call had none. -/
theorem settled_eq_notSupported {outcome? : Option (Except ε α)} :
    settled outcome? = notSupported ↔ ¬ ∃ value, outcome? = some (.ok value) := by
  rcases outcome? with _ | _ | _ <;> simp [settled, ofQuery]

/-! ## What calls do

A single call does one of two things, by what is known before it.  A session is an induction on its
calls: from the second one on something is known. -/

section

variable {m : Type → Type} [Monad m]

/-- Call a feature: what the call gives, and what is known after it. -/
def Call.perform (f : Feature) : Call (m (Except ε α)) → m (Answer α × Feature)
  | .resolve query => do
    let known ← f.resolve query
    return (.support known, known)
  | .resolveValue query => do
    let (value, known) ← f.resolveValue query
    return (.value value, known)
  | .resolveWithoutPort => return (.support f.resolveWithoutPort, f.resolveWithoutPort)

/-- Call a feature again and again: what each call gives, with what is known after it. -/
def session (f : Feature) : List (Call (m (Except ε α))) → m (List (Answer α × Feature))
  | [] => return []
  | call :: calls => do
    let entry ← call.perform f
    let entries ← session entry.2 calls
    return entry :: entries

/-- Run the query of a call, if it has one. -/
def Call.ask (call : Call (m (Except ε α))) : m (Option (Except ε α)) :=
  match call.query? with
  | some query => some <$> query
  | none => return none

variable [LawfulMonad m]

/-- What is known stays known, and nothing is run to find it out again. -/
theorem Call.perform_known {f : Feature} (h : f ≠ unknown) (call : Call (m (Except ε α))) :
    call.perform f = pure (call.answer f none, f) := by
  cases f with
  | unknown => exact absurd rfl h
  | supported => cases call <;> simp [perform, Feature.resolve, Feature.resolveValue,
      Feature.resolveWithoutPort, answer]
  | notSupported => cases call <;> simp [perform, Feature.resolve, Feature.resolveValue,
      Feature.resolveWithoutPort, answer]

/-- What is not known is found out by the query of the call. -/
theorem Call.perform_unknown (call : Call (m (Except ε α))) :
    call.perform unknown = do
      let outcome? ← call.ask
      return (call.answer (settled outcome?) (outcome?.bind Except.toOption),
          settled outcome?) := by
  cases call <;>
    simp [perform, ask, query?, Feature.resolve, Feature.resolveValue, Feature.resolveWithoutPort,
      answer, settled]

/-- Once a feature is known, calls answer at once. -/
theorem session_known {f : Feature} (h : f ≠ unknown) (calls : List (Call (m (Except ε α)))) :
    session f calls = pure (calls.map fun call => (call.answer f none, f)) := by
  induction calls with
  | nil => rfl
  | cons call calls ih => simp only [session, Call.perform_known h, pure_bind, ih, List.map_cons]

/-- The calls do what the query of the first of them does, and nothing else. -/
theorem session_unknown (call : Call (m (Except ε α))) (calls : List (Call (m (Except ε α)))) :
    session unknown (call :: calls) = do
      let outcome? ← call.ask
      return (call.answer (settled outcome?) (outcome?.bind Except.toOption), settled outcome?) ::
        calls.map fun later => (later.answer (settled outcome?) none, settled outcome?) := by
  rw [session, Call.perform_unknown, bind_assoc]
  congr 1
  funext outcome?
  rw [pure_bind, session_known (settled_known outcome?), pure_bind]

end

/-! ## Where queries are run

To count queries, each is made to leave the place of its call behind in a log.  The log of a session
then has the place of the first call in it, or nothing. -/

/-- A query that leaves a place behind when it runs, and ends in that outcome. -/
def marking (place : Nat) (outcome : Except ε α) : StateM (List Nat) (Except ε α) := do
  modify (· ++ [place])
  return outcome

/-- The calls with queries that leave the place of their call behind. -/
def numbered (calls : List (Call (Except ε α))) : List (Call (StateM (List Nat) (Except ε α))) :=
  calls.zipIdx.map fun c => c.1.map (marking c.2)

theorem ask_numbered (place : Nat) (call : Call (Except ε α)) :
    ((call.map (marking place)).ask).run [] =
      (call.query?, if call.query?.isSome then [place] else []) := by
  cases call <;> rfl

/-- What calls give does not depend on what their queries leave behind. -/
theorem map_answer_numbered (known : Feature) (calls : List (Call (Except ε α))) (start : Nat) :
    ((calls.zipIdx start).map fun c => c.1.map (marking c.2)).map
        (fun later => (later.answer known (none : Option α), known)) =
      calls.map fun later => (later.answer known none, known) := by
  calc ((calls.zipIdx start).map fun c => c.1.map (marking c.2)).map _
    _ = ((calls.zipIdx start).map Prod.fst).map fun later => (later.answer known none, known) := by
      simp only [List.map_map, Function.comp_def, Call.answer_map]
    _ = calls.map fun later => (later.answer known none, known) := by rw [List.zipIdx_map_fst]

/-- Only the first call runs its query. -/
theorem session_numbered (call : Call (Except ε α)) (calls : List (Call (Except ε α))) :
    (session unknown (numbered (call :: calls))).run [] =
      ((call.answer (settled call.query?) (call.query?.bind Except.toOption),
        settled call.query?) ::
          calls.map (fun later => (later.answer (settled call.query?) none, settled call.query?)),
        if call.query?.isSome then [0] else []) := by
  rw [numbered, List.zipIdx_cons, List.map_cons, session_unknown, StateT.run_bind, ask_numbered]
  simp only [map_answer_numbered, Call.answer_map]
  rfl

end Cellular.Feature
