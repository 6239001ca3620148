import Cellular.Bench.Rehearsal
import Cellular.Proofs.Unsolicited.Board
/-!
# What a bench's history says

A bench only ever adds to its history, and what it adds lies between the times before and after
(`Bench.Grows`).  As long as nobody reads the board, what the holder of a seat has not read grows by
the codes that the history tells of (`Bench.Keeps`).  Lines that are emitted, a caller who sets the
token and the clock itself leave nothing but codes in the history (`Bench.Drifts`).

Each of the three relations is reflexive and transitive, and each is stronger than the one before.
What happens on a bench is then said once for every primitive: sending, the coming of an answer, a
line, an event.  The form that commands take is always the same, an entry for the command, then
codes, then an entry for the answer, then codes; `Asked` says that such a stretch is half over and
`Answered` that it is complete, and both can be drawn out by what happens next.
-/

namespace Cellular

/-! ## Reading a history

A history is a list of happenings with their moments.  What is of interest is the entries of one
kind, in their order; taking them is a filter, so it goes along with putting histories one behind
the other. -/

/-- A part of a history. -/
abbrev Chronicle := List (Nat × Happening)

namespace Happening

def request? : Happening → Option Request
  | sent r => some r
  | _ => none

def look? : Happening → Option Bool
  | looked cancelled => some cancelled
  | _ => none

def code? : Happening → Option Urc
  | published code => some code
  | _ => none

def answer? : Happening → Option (Except LinkError Bytes)
  | answered answer => some answer
  | _ => none

end Happening

namespace Chronicle

variable {α : Type}

/-- The entries of one kind, with their times. -/
def pick (kind : Happening → Option α) (es : Chronicle) : List (Nat × α) :=
  es.filterMap fun e => (kind e.2).map (e.1, ·)

/-- The commands that were sent. -/
def requests (es : Chronicle) : List (Nat × Request) := es.pick Happening.request?

/-- The looks at the token. -/
def looks (es : Chronicle) : List (Nat × Bool) := es.pick Happening.look?

/-- The codes that were published. -/
def codes (es : Chronicle) : List (Nat × Urc) := es.pick Happening.code?

/-- The answers that came. -/
def answers (es : Chronicle) : List (Nat × Except LinkError Bytes) := es.pick Happening.answer?

/-- The commands that were sent, each with its answer.  There is one command under way at a time, so
the answers come in the order of the commands. -/
def exchanges (es : Chronicle) : List (Request × Except LinkError Bytes) :=
  (es.requests.map Prod.snd).zip (es.answers.map Prod.snd)

/-- Nothing but codes. -/
def Quiet (es : Chronicle) : Prop := ∀ e ∈ es, ∃ code, e.2 = .published code

@[simp] theorem pick_nil (kind : Happening → Option α) : pick kind [] = [] := rfl

/-- The entries of two histories are those of the one and those of the other. -/
@[simp] theorem pick_append (kind : Happening → Option α) (es fs : Chronicle) :
    pick kind (es ++ fs) = pick kind es ++ pick kind fs := List.filterMap_append

@[simp] theorem requests_append (es fs : Chronicle) :
    requests (es ++ fs) = requests es ++ requests fs := pick_append ..

@[simp] theorem looks_append (es fs : Chronicle) : looks (es ++ fs) = looks es ++ looks fs :=
  pick_append ..

@[simp] theorem codes_append (es fs : Chronicle) : codes (es ++ fs) = codes es ++ codes fs :=
  pick_append ..

@[simp] theorem answers_append (es fs : Chronicle) :
    answers (es ++ fs) = answers es ++ answers fs := pick_append ..

section

variable (t : Nat) (es : Chronicle)

@[simp] theorem requests_sent (r : Request) :
    requests ((t, .sent r) :: es) = (t, r) :: requests es := rfl

@[simp] theorem requests_answered (a : Except LinkError Bytes) :
    requests ((t, .answered a) :: es) = requests es := rfl

@[simp] theorem looks_sent (r : Request) : looks ((t, .sent r) :: es) = looks es := rfl

@[simp] theorem looks_answered (a : Except LinkError Bytes) :
    looks ((t, .answered a) :: es) = looks es := rfl

end

/-- A code is among the codes of a history just if it was published then. -/
theorem mem_codes {es : Chronicle} {t : Nat} {code : Urc} :
    (t, code) ∈ es.codes ↔ (t, .published code) ∈ es := by
  constructor
  · intro h
    obtain ⟨⟨t', happening⟩, hmem, hcode⟩ := List.mem_filterMap.mp h
    cases happening with
    | published code' =>
      obtain ⟨rfl, rfl⟩ := Prod.mk.inj (Option.some.inj hcode)
      exact hmem
    | _ => cases hcode
  · exact fun h => List.mem_filterMap.mpr ⟨_, h, rfl⟩

theorem Quiet.nil : Quiet [] := fun _ h => nomatch h

/-- Quiet stretches make a quiet stretch. -/
theorem Quiet.append {es fs : Chronicle} (h : es.Quiet) (h' : fs.Quiet) : Quiet (es ++ fs) :=
  fun e he => (List.mem_append.mp he).elim (h e) (h' e)

/-- There are no entries of another kind in a quiet stretch. -/
theorem Quiet.pick {kind : Happening → Option α} {es : Chronicle} (h : es.Quiet)
    (hkind : ∀ code, kind (.published code) = none) : es.pick kind = [] := by
  refine List.filterMap_eq_nil_iff.mpr fun e he => ?_
  obtain ⟨code, hcode⟩ := h e he
  rw [hcode, hkind]
  rfl

/-- Nothing is sent in it. -/
theorem Quiet.requests {es : Chronicle} (h : es.Quiet) : es.requests = [] := h.pick fun _ => rfl

/-- Nobody looks at the token in it. -/
theorem Quiet.looks {es : Chronicle} (h : es.Quiet) : es.looks = [] := h.pick fun _ => rfl

/-- No answer comes in it. -/
theorem Quiet.answers {es : Chronicle} (h : es.Quiet) : es.answers = [] := h.pick fun _ => rfl

/-- Nothing is sent and nobody looks around an answer. -/
theorem Quiet.requests_around {before after : Chronicle} (h : before.Quiet)
    (h' : after.Quiet) (t : Nat) (a : Except LinkError Bytes) :
    Chronicle.requests (before ++ (t, .answered a) :: after) = [] := by
  rw [requests_append, requests_answered, h.requests, h'.requests]
  rfl

/-- Nobody looks around an answer. -/
theorem Quiet.looks_around {before after : Chronicle} (h : before.Quiet)
    (h' : after.Quiet) (t : Nat) (a : Except LinkError Bytes) :
    Chronicle.looks (before ++ (t, .answered a) :: after) = [] := by
  rw [looks_append, looks_answered, h.looks, h'.looks]
  rfl

/-! ## Looks before commands

A sequence that is watched looks at the token right before each command.  `Watched` says so of a
history as a whole, and is put together from the parts of it. -/

/-- Every command was sent right after a look at the token that found it not set. -/
def Watched (es : Chronicle) : Prop :=
  ∀ before t r after, es = before ++ (t, .sent r) :: after →
    ∃ earlier, before = earlier ++ [(t, .looked false)]

/-- What was sent is among the requests. -/
theorem mem_requests {es : Chronicle} {t : Nat} {r : Request} (h : (t, .sent r) ∈ es) :
    (t, r) ∈ es.requests :=
  List.mem_filterMap.mpr ⟨_, h, rfl⟩

/-- A command that was sent splits the history. -/
theorem exists_sent {es : Chronicle} {k t : Nat} {r : Request} (h : es.requests[k]? = some (t, r)) :
    ∃ before after, es = before ++ (t, .sent r) :: after := by
  obtain ⟨⟨t', happening⟩, hmem, hsent⟩ := List.mem_filterMap.mp (List.mem_of_getElem? h)
  cases happening with
  | sent r' =>
    obtain ⟨rfl, rfl⟩ := Prod.mk.inj (Option.some.inj hsent)
    exact List.append_of_mem hmem
  | _ => cases hsent

/-- Where nothing was sent no look is missing. -/
theorem Watched.of_requests {es : Chronicle} (h : es.requests = []) : Watched es := by
  intro before t r after hes
  have hmem : (t, r) ∈ es.requests := mem_requests (by simp [hes])
  rw [h] at hmem
  cases hmem

/-- Two histories in which no look is missing make another. -/
theorem Watched.append {es fs : Chronicle} (h : es.Watched) (h' : fs.Watched) :
    Watched (es ++ fs) := by
  intro before t r after hsplit
  rcases List.append_eq_append_iff.mp hsplit with ⟨rest, rfl, hfs⟩ | ⟨rest, hes, hrest⟩
  · obtain ⟨earlier, rfl⟩ := h' rest t r after hfs
    exact ⟨es ++ earlier, by simp⟩
  · cases rest with
    | nil =>
      obtain ⟨earlier, hnil⟩ := h' [] t r after hrest.symm
      simp at hnil
    | cons e rest =>
      obtain ⟨rfl, -⟩ := List.cons.inj hrest
      exact h before t r rest hes

/-- A look, and then a command. -/
theorem Watched.dispatch {rest : Chronicle} (t : Nat) (r : Request) (h : rest.requests = []) :
    Watched ((t, .looked false) :: (t, .sent r) :: rest) := by
  intro before t' r' after hsplit
  rcases before with _ | ⟨look, _ | ⟨e, before⟩⟩
  · cases hsplit
  · simp only [List.cons_append, List.nil_append, List.cons.injEq, Prod.mk.injEq] at hsplit
    obtain ⟨rfl, ⟨rfl, -⟩, -⟩ := hsplit
    exact ⟨[], rfl⟩
  · obtain ⟨-, hrest⟩ := List.cons.inj (List.cons.inj hsplit).2
    have hmem : (t', r') ∈ rest.requests := mem_requests (by simp [hrest])
    rw [h] at hmem
    cases hmem

end Chronicle

/-! ## How a bench goes on

There are three ways for a bench to come after another, from the loosest to the tightest:
something has happened, nobody seated has read anything or left, and nothing but codes has come. 
Each is kept by going on in the same way, and each implies those before it. -/

/-- How long the answer takes. -/
def Turn.duration (turn : Turn) : Nat := turn.delay.getD 0

namespace Bench

/-- `b'` comes after `b`, and `es` happened between them. -/
structure Grows (b b' : Bench) (es : Chronicle) : Prop where
  history : b'.history = b.history ++ es
  now : b.now ≤ b'.now
  within : ∀ e ∈ es, b.now ≤ e.1 ∧ e.1 ≤ b'.now

/-- Nobody who is seated has read anything meanwhile, and nobody has left. -/
structure Keeps (b b' : Bench) (es : Chronicle) : Prop extends Grows b b' es where
  seated : ∀ ticket, b.board.Seated ticket → b'.board.Seated ticket
  unread : ∀ ticket, b.board.Seated ticket →
    b'.board.unread ticket = b.board.unread ticket ++ es.codes.map Prod.snd

/-- Nothing has happened meanwhile but codes that were published. -/
structure Drifts (b b' : Bench) (es : Chronicle) : Prop extends Keeps b b' es where
  quiet : es.Quiet
  script : b'.script = b.script

variable {b b' b'' : Bench} {es fs : Chronicle}

theorem Grows.refl (b : Bench) : b.Grows b [] := ⟨by simp, Nat.le_refl _, by simp⟩

/-- What happens in two stretches happens in one. -/
theorem Grows.trans (h : b.Grows b' es) (h' : b'.Grows b'' fs) : b.Grows b'' (es ++ fs) := by
  refine ⟨by rw [h'.history, h.history, List.append_assoc], Nat.le_trans h.now h'.now,
    fun e he => ?_⟩
  rcases List.mem_append.mp he with he | he
  · exact ⟨(h.within e he).1, Nat.le_trans (h.within e he).2 h'.now⟩
  · exact ⟨Nat.le_trans h.now (h'.within e he).1, (h'.within e he).2⟩

/-- Nobody who is seated has read anything in either stretch. -/
theorem Keeps.trans (h : b.Keeps b' es) (h' : b'.Keeps b'' fs) : b.Keeps b'' (es ++ fs) := by
  refine ⟨h.toGrows.trans h'.toGrows, fun t ht => h'.seated t (h.seated t ht), fun t ht => ?_⟩
  rw [h'.unread t (h.seated t ht), h.unread t ht, List.append_assoc, ← List.map_append]
  rw [Chronicle.codes_append]

/-- At most the clock has gone on. -/
theorem Drifts.idle (hhistory : b'.history = b.history) (hboard : b'.board = b.board)
    (hscript : b'.script = b.script) (hnow : b.now ≤ b'.now) : b.Drifts b' [] := by
  refine ⟨⟨⟨by rw [hhistory, List.append_nil], hnow, fun _ h => nomatch h⟩,
    fun ticket ht => hboard ▸ ht, fun ticket _ => ?_⟩, .nil, hscript⟩
  rw [hboard]
  exact (List.append_nil _).symm

theorem Drifts.refl (b : Bench) : b.Drifts b [] := .idle rfl rfl rfl (Nat.le_refl _)

/-- Nothing but codes came in either stretch. -/
theorem Drifts.trans (h : b.Drifts b' es) (h' : b'.Drifts b'' fs) : b.Drifts b'' (es ++ fs) :=
  ⟨h.toKeeps.trans h'.toKeeps, h.quiet.append h'.quiet, h'.script.trans h.script⟩

/-- An entry that is no code is all that `tell` adds. -/
theorem keeps_tell {h : Happening} (hcode : h.code? = none) : b.Keeps (b.tell h) [(b.now, h)] :=
  ⟨⟨rfl, Nat.le_refl _, by simp [tell]⟩, fun _ ht => ht,
    by simp [tell, Chronicle.codes, Chronicle.pick, hcode]⟩

/-- What is noted in the log is not in the history. -/
theorem drifts_note (r : Record) : b.Drifts (b.note r) [] := .idle rfl rfl rfl (Nat.le_refl _)

/-- Setting the token leaves no entry. -/
theorem drifts_cancelled (cancelled : Bool) : b.Drifts { b with cancelled } [] :=
  .idle rfl rfl rfl (Nat.le_refl _)

theorem drifts_now {now : Nat} (h : b.now ≤ now) : b.Drifts { b with now } [] := .idle rfl rfl rfl h

/-- A code that is published is written down. -/
theorem drifts_published {board : Board Urc} {code : Urc} (h : b.board.publish? code = some board) :
    b.Drifts ({ b with board }.tell (.published code)) [(b.now, .published code)] := by
  refine ⟨⟨⟨rfl, Nat.le_refl _, by simp [tell]⟩, fun t ht => ht.publish h, fun t ht => ?_⟩, ?_, rfl⟩
  · exact Board.unread_publish ht h
  · intro e he
    exact ⟨code, by rw [List.mem_singleton.mp he]⟩

/-- A line publishes a code or nothing. -/
theorem drifts_emit (b : Bench) (line : Bytes) :
    ∃ es, b.Drifts (b.emit line) es ∧ (b.emit line).now = b.now := by
  unfold emit
  split
  · exact ⟨[], .refl b, rfl⟩
  · split
    · rename_i board hboard
      exact ⟨_, drifts_published hboard, rfl⟩
    · exact ⟨[], drifts_note _, rfl⟩

/-- Lines publish some codes or nothing. -/
theorem drifts_emitAll (b : Bench) (lines : List Bytes) :
    ∃ es, b.Drifts (b.emitAll lines) es ∧ (b.emitAll lines).now = b.now := by
  induction lines generalizing b with
  | nil => exact ⟨[], .refl b, rfl⟩
  | cons line lines ih =>
    obtain ⟨es, hes, hnow⟩ := drifts_emit b line
    obtain ⟨fs, hfs, hnow'⟩ := ih (b.emit line)
    exact ⟨es ++ fs, hes.trans hfs, hnow'.trans hnow⟩

/-- An event publishes some codes or nothing. -/
theorem drifts_happen (b : Bench) (event : Event) :
    ∃ es, b.Drifts (b.happen event) es ∧ (b.happen event).now = b.now := by
  cases event with
  | line line => exact drifts_emit b line
  | cancel => exact ⟨[], drifts_cancelled true, rfl⟩

/-- An answer is the last that happens when it comes. -/
theorem keeps_conclude (b : Bench) (after : List Bytes) (answer : Except LinkError Bytes) :
    ∃ es : Chronicle, es.Quiet ∧
      b.Keeps (b.conclude after answer) (es ++ [(b.now, .answered answer)]) ∧
      (b.conclude after answer).now = b.now ∧ (b.conclude after answer).script = b.script := by
  obtain ⟨es, hes, hnow⟩ := drifts_emitAll b after
  refine ⟨es, hes.quiet, ?_, hnow, hes.script⟩
  have htell : (b.emitAll after).Keeps (b.conclude after answer) [(b.now, .answered answer)] := by
    rw [← hnow]
    exact keeps_tell rfl
  exact hes.toKeeps.trans htell

/-! ## Commands

A command is answered by the next turn of the script.  The turn tells what is emitted before the
answer, how long that takes, and what the answer is; it is used up when the command is sent, and not
when it is answered. -/

/-- The turn that the far end takes on a command to come, counted from 0.  Where the script has
none, the turn is an error at once. -/
def turnAt (b : Bench) (k : Nat) : Turn := b.script.getD k {}

/-- The turn that it takes on the next command. -/
def turn (b : Bench) : Turn := b.turnAt 0

/-- How long the answer to the next command takes. -/
def delay (b : Bench) : Nat := b.turn.duration

/-- Turns are counted on in what is left of the script. -/
theorem turnAt_drop {n : Nat} (h : b'.script = b.script.drop n) (k : Nat) :
    b'.turnAt k = b.turnAt (n + k) := by
  simp only [turnAt, h, List.getD_eq_getElem?_getD, List.getElem?_drop]

/-- A command was sent, and only codes came since. -/
def asking (b : Bench) (r : Request) (since : Chronicle) : Chronicle := (b.now, .sent r) :: since

/-- A command was sent and answered, and only codes came before and after the answer. -/
def exchange (b : Bench) (r : Request) (before : Chronicle) (answer : Except LinkError Bytes)
    (after : Chronicle) :
    Chronicle :=
  (b.now, .sent r) :: before ++ (b.now + b.delay, .answered answer) :: after

/-- A command was sent at `b`, and at `b'` its answer is on its way. -/
structure Asked (b : Bench) (r : Request) (since : Chronicle) (b' : Bench)
    (wait : Reply) : Prop where
  grows : b.Grows b' (b.asking r since)
  quiet : since.Quiet
  script : b'.script = b.script.tail
  answer : wait.answer = b.turn.answer
  timer : wait.timer = { expiresAt := b.now + b.delay, polled := true }
  on_time : b'.now ≤ b.now + b.delay

/-- A command was sent at `b`, and at `b'` it has been answered. -/
structure Answered (b : Bench) (r : Request) (before : Chronicle) (answer : Except LinkError Bytes)
    (after : Chronicle) (b' : Bench) : Prop where
  grows : b.Grows b' (b.exchange r before answer after)
  quiet : before.Quiet
  quiet' : after.Quiet
  script : b'.script = b.script.tail
  answer : answer = b.turn.answer

/-- The far end has the command and has begun its turn. -/
def opened (b : Bench) (r : Request) : Bench :=
  { (b.note (.sent r)).tell (.sent r) with
    script := b.script.tail, cancelled := b.cancelled || b.turn.cancels }.emitAll b.turn.before

/-- A command is answered at once, or its answer is on its way. -/
theorem send_eq (b : Bench) (r : Request) :
    b.send r = match b.turn.delay with
      | none => ((b.opened r).conclude b.turn.after b.turn.answer, .ready b.turn.answer)
      | some span =>
        (b.opened r).pollReply ⟨.after (b.opened r).now span, b.turn.after, b.turn.answer⟩ := by
  obtain ⟨now, cancelled, board, script, log, fault, modes, history⟩ := b
  cases script with
  | nil => simp [send, opened, turn, turnAt, note, tell, emitAll]
  | cons turn script => rfl

/-- When a turn is opened the command is written down, and only codes come. -/
theorem opened_spec (b : Bench) (r : Request) :
    ∃ es : Chronicle, es.Quiet ∧ b.Keeps (b.opened r) ((b.now, .sent r) :: es) ∧
      (b.opened r).now = b.now ∧
      (b.opened r).script = b.script.tail := by
  obtain ⟨es, hes, hnow⟩ := drifts_emitAll { (b.note (.sent r)).tell (.sent r) with
    script := b.script.tail, cancelled := b.cancelled || b.turn.cancels } b.turn.before
  have hsent : b.Keeps { (b.note (.sent r)).tell (.sent r) with
      script := b.script.tail, cancelled := b.cancelled || b.turn.cancels } [(b.now, .sent r)] :=
    ⟨⟨rfl, Nat.le_refl _, by simp [note, tell]⟩, fun _ ht => ht,
      by simp [note, tell, Chronicle.codes, Chronicle.pick, Happening.code?]⟩
  exact ⟨es, hes.quiet, hsent.trans hes.toKeeps, hnow, hes.script⟩

section

variable {r : Request} {before after fs : Chronicle} {answer : Except LinkError Bytes}
  {wait : Reply}

/-- A clock that does not pass the timer of an answer does not pass its moment. -/
theorem Asked.not_past {now : Nat} (h : b.Asked r before b' wait)
    (hnow : b'.now ≤ wait.timer.expiresAt → now ≤ wait.timer.expiresAt) :
    now ≤ b.now + b.delay := by
  have hexpires : wait.timer.expiresAt = b.now + b.delay := by rw [h.timer]
  rw [hexpires] at hnow
  exact hnow h.on_time

/-- While an answer is on its way codes may come, and the clock may go on up to its moment. -/
theorem Asked.drifts (h : b.Asked r before b' wait) (h' : b'.Drifts b'' fs)
    (hon : b''.now ≤ b.now + b.delay) :
    b.Asked r (before ++ fs) b'' wait :=
  ⟨h.grows.trans h'.toGrows, h.quiet.append h'.quiet, h'.script.trans h.script,
    h.answer, h.timer, hon⟩

/-- After an answer codes may come. -/
theorem Answered.drifts (h : b.Answered r before answer after b') (h' : b'.Drifts b'' fs) :
    b.Answered r before answer (after ++ fs) b'' := by
  refine ⟨?_, h.quiet, h.quiet'.append h'.quiet, h'.script.trans h.script, h.answer⟩
  simpa [exchange] using h.grows.trans h'.toGrows

/-- It is the one command that was sent. -/
theorem Answered.requests_eq (h : b.Answered r before answer after b') :
    (b.exchange r before answer after).requests = [(b.now, r)] :=
  congrArg (_ :: ·) (h.quiet.requests_around h.quiet' (b.now + b.delay) answer)

/-- It is the one answer that came. -/
theorem Answered.answers_eq (h : b.Answered r before answer after b') :
    (b.exchange r before answer after).answers = [(b.now + b.delay, answer)] := by
  have hanswers : (before ++ (b.now + b.delay, .answered answer) :: after).answers =
      [(b.now + b.delay, answer)] := by
    rw [Chronicle.answers_append, h.quiet.answers, List.nil_append]
    exact congrArg (_ :: ·) h.quiet'.answers
  exact hanswers

/-- The command and its answer are one exchange. -/
theorem Answered.exchanges_eq (h : b.Answered r before answer after b') (rest : Chronicle) :
    (b.exchange r before answer after ++ rest).exchanges = (r, answer) :: rest.exchanges := by
  rw [Chronicle.exchanges, Chronicle.requests_append, Chronicle.answers_append,
    h.requests_eq, h.answers_eq]
  rfl

/-- What is done to the board afterwards is no event. -/
theorem Grows.board (h : b.Grows b' fs) (board : Board Urc) : b.Grows { b' with board } fs :=
  ⟨h.history, h.now, h.within⟩

/-- It does not matter to an answer on its way. -/
theorem Asked.board (h : b.Asked r before b' wait) (board : Board Urc) :
    b.Asked r before { b' with board } wait :=
  ⟨h.grows.board board, h.quiet, h.script, h.answer, h.timer, h.on_time⟩

/-- Nor does it to one that has come. -/
theorem Answered.board (h : b.Answered r before answer after b') (board : Board Urc) :
    b.Answered r before answer after { b' with board } :=
  ⟨h.grows.board board, h.quiet, h.quiet', h.script, h.answer⟩

/-- The clock has gone on by the delay of the answer. -/
theorem Answered.on_time (h : b.Answered r before answer after b') : b.now + b.delay ≤ b'.now :=
  (h.grows.within (b.now + b.delay, .answered answer) (by simp [exchange])).2

end

/-- A command without a delay is answered at once; otherwise its answer is on its way. -/
theorem send_cases (b : Bench) (r : Request) :
    (∃ before b', b.send r = (b', .ready b.turn.answer) ∧ b.Answered r before b.turn.answer [] b' ∧
      b'.now = b.now ∧ b.delay = 0 ∧ b.Keeps b' (b.exchange r before b.turn.answer [])) ∨
    (∃ since b' wait, b.send r = (b', .pending wait) ∧ b.Asked r since b' wait ∧ b'.now = b.now ∧
      b.Keeps b' (b.asking r since)) := by
  obtain ⟨es, hquiet, hkeeps, hnow, hscript⟩ := opened_spec b r
  rw [send_eq]
  -- only an answer without a delay comes within the poll that sends the command
  cases hdelay : b.turn.delay with
  | none =>
    have hdelay' : b.delay = 0 := by
      show b.turn.delay.getD 0 = 0
      rw [hdelay]
      rfl
    obtain ⟨fs, hquiet', hkeeps', hnow', hscript'⟩ :=
      keeps_conclude (b.opened r) b.turn.after b.turn.answer
    have hall : b.Keeps ((b.opened r).conclude b.turn.after b.turn.answer)
        (b.exchange r (es ++ fs) b.turn.answer []) := by
      simpa [exchange, hdelay', hnow] using hkeeps.trans hkeeps'
    exact .inl ⟨es ++ fs, _, rfl,
      ⟨hall.toGrows, hquiet.append hquiet', .nil, hscript'.trans hscript, rfl⟩, by
        rw [hnow', hnow], hdelay', hall⟩
  | some span =>
    have hdelay' : b.delay = span := by
      show b.turn.delay.getD 0 = span
      rw [hdelay]
      rfl
    refine .inr ⟨es, b.opened r, ⟨⟨b.now + span, true⟩, b.turn.after, b.turn.answer⟩, ?_,
      ⟨hkeeps.toGrows, hquiet, hscript, rfl, by rw [hdelay'], ?_⟩, hnow, hkeeps⟩
    · simp [pollReply, Timer.poll_after, hnow]
    · rw [hnow]
      exact Nat.le_add_right _ _

/-- An answer comes when its time has come. -/
theorem pollReply_due {wait : Reply} (hpolled : wait.timer.polled = true)
    (hdue : wait.timer.expiresAt ≤ b.now) :
    b.pollReply wait = (b.conclude wait.after wait.answer, .ready wait.answer) := by
  simp [pollReply, Timer.poll, hpolled, hdue]

/-- It does not come before that. -/
theorem pollReply_early {wait : Reply} (hpolled : wait.timer.polled = true)
    (hearly : b.now < wait.timer.expiresAt) :
    b.pollReply wait = (b, .pending wait) := by
  obtain ⟨⟨expiresAt, polled⟩, after, answer⟩ := wait
  obtain rfl : polled = true := hpolled
  simp [pollReply, Timer.poll, Nat.not_le.mpr hearly]

/-- The answer comes when its time has come. -/
theorem Asked.conclude {r : Request} {since : Chronicle} {wait : Reply}
    (h : b.Asked r since b' wait) (hdue : wait.timer.expiresAt ≤ b'.now) :
    ∃ fs : Chronicle, fs.Quiet ∧
      b.Answered r (since ++ fs) wait.answer [] (b'.conclude wait.after wait.answer) ∧
      (b'.conclude wait.after wait.answer).now = b'.now ∧ b'.now = b.now + b.delay ∧
      b'.Keeps (b'.conclude wait.after wait.answer)
        (fs ++ [(b.now + b.delay, .answered wait.answer)]) := by
  obtain ⟨fs, hquiet, hkeeps, hnow, hscript⟩ := keeps_conclude b' wait.after wait.answer
  have hlate : b.now + b.delay ≤ b'.now := by simpa [h.timer] using hdue
  have heq : b'.now = b.now + b.delay := Nat.le_antisymm h.on_time hlate
  rw [heq] at hkeeps
  refine ⟨fs, hquiet, ⟨?_, h.quiet.append hquiet, .nil, hscript.trans h.script, h.answer⟩,
    hnow, heq, hkeeps⟩
  simpa [asking, exchange] using h.grows.trans hkeeps.toGrows

/-- The token was looked at and not set, a command was sent, and the answer came. -/
structure Exchanged (b : Bench) (r : Request) (b' : Bench) (es : Chronicle) : Prop where
  keeps : b.Keeps b' es
  requests : es.requests.map Prod.snd = [r]
  looks : es.looks.map Prod.snd = [false]
  watched : es.Watched
  script : b'.script = b.script.tail

/-- A look at the token, and then the command. -/
theorem Answered.exchanged {r : Request} {before : Chronicle} {answer : Except LinkError Bytes}
    (h : (b.tell (.looked false)).Answered r before answer [] b')
    (hkeeps : (b.tell (.looked false)).Keeps b'
      ((b.tell (.looked false)).exchange r before answer [])) :
    b.Exchanged r b'
      ((b.now, .looked false) :: (b.tell (.looked false)).exchange r before answer []) := by
  have hrequests := h.quiet.requests_around h.quiet'
    ((b.tell (.looked false)).now + (b.tell (.looked false)).delay) answer
  have hlooks := h.quiet.looks_around h.quiet'
    ((b.tell (.looked false)).now + (b.tell (.looked false)).delay) answer
  refine ⟨(keeps_tell rfl).trans hkeeps, ?_, ?_, .dispatch _ _ hrequests, h.script⟩
  · exact congrArg (r :: ·) (congrArg (List.map Prod.snd) hrequests)
  · exact congrArg (false :: ·) (congrArg (List.map Prod.snd) hlooks)

end Bench

end Cellular
