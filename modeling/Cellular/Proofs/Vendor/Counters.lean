import Cellular.Proofs.Procedure.Session
import Cellular.Proofs.Radio.Lock
import Cellular.Vendor.Cinterion
/-!
# Reading the counters of the locks

The counters are asked for one after another, and one that cannot be read is passed over
(`readCounters_runs`).  What is read is set as it comes (`readings`).  The locks of the table are
all different, so each of them is known in the end just if its own answer could be read, and as that
(`unlock_retries_kept`).

The list of counters is arbitrary in the first half; there the induction is on the list, and every
answer is used up by its own command.  The table enters in the second half only, with two facts
about it that are checked by evaluation: its locks are distinct, and its commands are those that are
sent, in this order.
-/

namespace Cellular

/-! ## Answers and readings

The answers are counted from the command that comes next, so the answers to a list of commands are
known when the list is begun. -/

/-- The answers to so many commands to come. -/
def Bench.answersTo (b : Bench) (n : Nat) : List (Except LinkError Bytes) :=
  (List.range n).map fun i => (b.turnAt i).answer

/-- An answer is one to a command, and then there are those to the commands behind it. -/
theorem Bench.answersTo_succ {b b₁ : Bench} (h : b₁.script = b.script.tail) (n : Nat) :
    b.answersTo (n + 1) = b.turn.answer :: b₁.answersTo n := by
  have hturn : ∀ i, b₁.turnAt i = b.turnAt (i + 1) := fun i => by
    rw [turnAt_drop (h.trans List.drop_one.symm), Nat.add_comm]
  simp only [answersTo, List.range_succ_eq_map, List.map_cons, List.map_map,
    Function.comp_def, hturn]
  rfl

/-- The answer at a place is the answer of the turn at that place. -/
theorem Bench.getElem?_answersTo {b : Bench} {n i : Nat} {answer : Except LinkError Bytes} :
    (b.answersTo n)[i]? = some answer ↔ i < n ∧ (b.turnAt i).answer = answer := by
  simp only [answersTo, List.getElem?_eq_some_iff, List.length_map, List.length_range,
    List.getElem_map, List.getElem_range, exists_prop]

namespace Cinterion

open Operation

variable {m m' : Cinterion} {b b' : Bench} {lock : Lock} {n : Nat}
  {counters : List (Lock × Command Nat)}
  {answers : List (Except LinkError Bytes)}

/-- What the answer to a counter is read as, with its lock. -/
def reading (counter : Lock × Command Nat) (answer : Except LinkError Bytes) :
    Option (Lock × Nat) :=
  (counter.2.outcome answer).toOption.map (counter.1, ·)

/-- An answer is read if it is a reply that the command can read. -/
theorem reading_eq_some_iff {counter : Lock × Command Nat} {answer : Except LinkError Bytes} :
    reading counter answer = some (lock, n) ↔ counter.1 = lock ∧ ∃ reply, answer = .ok reply ∧
    counter.2.read reply = some n := by
  rw [← Command.outcome_eq_ok_iff, reading]
  cases counter.2.outcome answer <;> simp [Except.toOption]

/-- What the answers to counters are read as, without those that cannot be read. -/
def readings (counters : List (Lock × Command Nat)) (answers : List (Except LinkError Bytes)) :
    List (Lock × Nat) :=
  (counters.zip answers).filterMap fun x => reading x.1 x.2

/-- The first counter is read from the first answer. -/
theorem readings_cons (counter : Lock × Command Nat) (counters : List (Lock × Command Nat))
    (answer : Except LinkError Bytes) (answers : List (Except LinkError Bytes)) :
    readings (counter :: counters) (answer :: answers) =
      (reading counter answer).toList ++ readings counters answers := by
  rw [readings, List.zip_cons_cons, List.filterMap_cons]
  cases reading counter answer <;> rfl

/-- Every counter is read from its own answer. -/
theorem mem_readings :
    (lock, n) ∈ readings counters answers ↔ ∃ (i : Nat) (command : Command Nat) (reply : Bytes),
    counters[i]? = some (lock, command) ∧ answers[i]? = some (.ok reply) ∧
    command.read reply = some n := by
  rw [readings, List.mem_filterMap]
  constructor
  · rintro ⟨⟨⟨lock', command⟩, answer⟩, hmem, hread⟩
    obtain ⟨rfl, reply, rfl, hread⟩ := reading_eq_some_iff.mp hread
    obtain ⟨i, hi⟩ := List.mem_iff_getElem?.mp hmem
    obtain ⟨hcounter, hanswer⟩ := List.getElem?_zip_eq_some.mp hi
    exact ⟨i, command, reply, hcounter, hanswer, hread⟩
  · rintro ⟨i, command, reply, hcounter, hanswer, hread⟩
    have hzip : (counters.zip answers)[i]? = some ((lock, command), .ok reply) :=
      List.getElem?_zip_eq_some.mpr ⟨hcounter, hanswer⟩
    exact ⟨_, List.mem_of_getElem? hzip, reading_eq_some_iff.mpr ⟨rfl, reply, rfl, hread⟩⟩

/-- The locks of what is read are among those of the counters, in their order. -/
theorem locks_readings (counters : List (Lock × Command Nat))
    (answers : List (Except LinkError Bytes)) :
    ((readings counters answers).map Prod.fst).Sublist (counters.map Prod.fst) := by
  induction counters generalizing answers with
  | nil => exact List.Sublist.refl _
  | cons counter counters ih =>
    cases answers with
    | nil => exact List.nil_sublist _
    | cons answer answers =>
      rw [readings_cons]
      cases hread : reading counter answer with
      | none => exact (ih answers).cons _
      | some c =>
        obtain ⟨hlock, -⟩ := reading_eq_some_iff.mp hread
        rw [Option.toList_some, List.singleton_append, List.map_cons, List.map_cons, hlock]
        exact (ih answers).cons_cons _

/-- Every counter is asked for in its turn, whatever comes of the others. -/
theorem readCounters_runs {known : UnlockRetries} {r : Except Error UnlockRetries}
    (h : (readCounters counters known).Runs m b r m' b') :
    r = .ok ((readings counters (b.answersTo counters.length)).foldl
      (fun known c => known.set c.1 c.2) known) ∧ m' = m ∧
      b.Converses ((counters.map (·.2.request)).zip (b.answersTo counters.length)) b' := by
  induction counters generalizing known b with
  | nil =>
    obtain ⟨rfl, rfl, rfl⟩ := Runs.pure h
    exact ⟨rfl, rfl, .nil⟩
  | cons counter counters ih =>
    obtain ⟨before, b₁, hanswered, hrest⟩ := Runs.bind_attempt h
    rw [List.length_cons, Bench.answersTo_succ hanswered.script, readings_cons, List.foldl_append,
      List.map_cons, List.zip_cons_cons]
    rw [reading]
    -- a reply sets its lock and a failure sets none, and the queries go on in both cases
    cases hout : counter.2.outcome b.turn.answer with
    | ok n =>
      rw [hout] at hrest
      obtain ⟨hr, hm, hconverses⟩ := ih hrest
      exact ⟨hr, hm, .cons hanswered hconverses⟩
    | error e =>
      rw [hout] at hrest
      obtain ⟨hr, hm, hconverses⟩ := ih hrest
      exact ⟨hr, hm, .cons hanswered hconverses⟩

/-! ## The table

Every lock has one counter at most, and so what is read of a lock is read from one answer. -/

/-- No lock has two counters. -/
theorem nodup_pinCounters : (Command.pinCounters.map Prod.fst).Nodup := by decide

/-- All counters are read in the same way. -/
theorem read_of_pinCounters {i : Nat} {command : Command Nat}
    (h : Command.pinCounters[i]? = some (lock, command)) :
    command.read = pinCounter? := by
  have hall : ∀ counter ∈ Command.pinCounters, counter.2.read = pinCounter? := by
    simp [Command.pinCounters, Command.pinCounter]
  exact hall _ (List.mem_of_getElem? h)

/-- What is sent, in the order of the table. -/
theorem pinCounters_bodies : (Command.pinCounters.map (·.2.request)).map Request.body =
    ["^SPIC=\"SC\"", "^SPIC=\"SC\",1", "^SPIC=\"P2\"", "^SPIC=\"P2\",1", "^SPIC=\"PS\"",
      "^SPIC=\"PS\",1", "^SPIC=\"PN\"", "^SPIC=\"PN\",1"] := by decide

/-- All counters of the table are asked for, each with its answer. -/
theorem loadUnlockRetries_runs {r : Except Error UnlockRetries}
    (h : loadUnlockRetries.Runs m b r m' b') :
    r = .ok (.record (readings Command.pinCounters (b.answersTo 8))) ∧ m' = m ∧ ∃ es : Chronicle,
      b'.history = b.history ++ es ∧
        es.requests.map Prod.snd = Command.pinCounters.map (·.2.request) ∧
        es.exchanges.map Prod.snd = b.answersTo 8 := by
  obtain ⟨hr, hm, hconverses⟩ := readCounters_runs h
  obtain ⟨es, hhistory, hexchanges, hrequests⟩ := hconverses.chronicle
  have hlength : (Command.pinCounters.map (·.2.request)).length = (b.answersTo 8).length := by
    rw [Bench.answersTo, List.length_map, List.length_map, List.length_range]
    rfl
  refine ⟨hr, hm, es, hhistory, ?_, ?_⟩
  · rw [hrequests]
    exact List.map_fst_zip (Nat.le_of_eq hlength)
  · rw [hexchanges]
    exact List.map_snd_zip (Nat.le_of_eq hlength.symm)

/-- A lock of the table is known from the answer to its own query, and no other lock is. -/
theorem get?_record_readings :
    (UnlockRetries.record (readings Command.pinCounters (b.answersTo 8))).get? lock = some n ↔
    ∃ (i : Nat) (command : Command Nat) (reply : Bytes), Command.pinCounters[i]? =
      some (lock, command) ∧
      (b.turnAt i).answer = .ok reply ∧ pinCounter? reply = some n := by
  have hnodup : ((readings Command.pinCounters (b.answersTo 8)).map Prod.fst).Nodup :=
    (locks_readings _ _).nodup nodup_pinCounters
  rw [UnlockRetries.get?_record_eq_some_iff hnodup, mem_readings]
  constructor
  · rintro ⟨i, command, reply, hcounter, hanswer, hread⟩
    obtain ⟨-, hanswer⟩ := Bench.getElem?_answersTo.mp hanswer
    exact ⟨i, command, reply, hcounter, hanswer, read_of_pinCounters hcounter ▸ hread⟩
  · rintro ⟨i, command, reply, hcounter, hanswer, hread⟩
    obtain ⟨hi, -⟩ := List.getElem?_eq_some_iff.mp hcounter
    exact ⟨i, command, reply, hcounter, Bench.getElem?_answersTo.mpr ⟨hi, hanswer⟩,
      read_of_pinCounters hcounter ▸ hread⟩

/-! ## The law

Settings of any number and in any order come first, and then those that a load makes.  Both are
settings of a table, so the laws of tables apply to either. -/

/-- **What is known of the locks is what was set last, and what is set is what could be read.**
However often the attempts at locks are set, each lock that was set has one entry, with what it was
set to last, and a lock that was not set has none; so there is always room for the next setting.
When the counters of the locks are read, all eight are asked for in their order, whatever is
answered, and that ends well.  Then a lock is known just if the answer to its own query can be read,
and as that. -/
theorem unlock_retries_kept :
    (∀ calls : List (Lock × Nat),
      (∀ lock, (UnlockRetries.record calls).get? lock = UnlockRetries.lastSet calls lock) ∧
      (UnlockRetries.record calls).size = (calls.map Prod.fst).dedup.length ∧
      ((UnlockRetries.record calls).entries.map Prod.fst).Nodup ∧
      ∀ lock n, ((UnlockRetries.record calls).set lock n).get? lock = some n) ∧
    ∀ (m : Cinterion) (b : Bench) (events : List (Nat × Event)),
    ∃ (known : UnlockRetries) (b' : Bench) (es : Chronicle),
      Rehearsal.EndsIn b events (loadUnlockRetries.run.run m) (.ok known, m) b' ∧
      b'.history = b.history ++ es ∧
      es.requests.map (·.2.body) =
        ["^SPIC=\"SC\"", "^SPIC=\"SC\",1", "^SPIC=\"P2\"", "^SPIC=\"P2\",1", "^SPIC=\"PS\"",
          "^SPIC=\"PS\",1", "^SPIC=\"PN\"", "^SPIC=\"PN\",1"] ∧
      es.exchanges.map Prod.snd = (List.range 8).map (fun i => (b.turnAt i).answer) ∧
      ∀ lock n, known.get? lock = some n ↔ ∃ (i : Nat) (command : Command Nat) (reply : Bytes),
        Command.pinCounters[i]? = some (lock, command) ∧ (b.turnAt i).answer = .ok reply ∧
        pinCounter? reply = some n := by
  refine ⟨fun calls => ⟨UnlockRetries.get?_record calls, UnlockRetries.size_record calls,
    UnlockRetries.nodup_record calls, fun lock n => ?_⟩, fun m b events => ?_⟩
  · rw [UnlockRetries.get?_set (UnlockRetries.nodup_record calls), if_pos rfl]
  · obtain ⟨⟨r, m'⟩, b', hends, hruns⟩ :=
      Rehearsal.exists_endsIn b events (loadUnlockRetries.run.run m)
    obtain ⟨rfl, rfl, es, hhistory, hrequests, hanswers⟩ := loadUnlockRetries_runs hruns
    have hbodies : es.requests.map (·.2.body) = (es.requests.map Prod.snd).map Request.body := by
      rw [List.map_map]
      rfl
    exact ⟨_, b', es, hends, hhistory, by rw [hbodies, hrequests, pinCounters_bodies], hanswers,
      fun lock n => get?_record_readings⟩

end Cinterion

end Cellular
