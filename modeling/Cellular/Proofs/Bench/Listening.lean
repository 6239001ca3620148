import Cellular.Bench.Listening
import Cellular.Proofs.Bench.History
import Cellular.Proofs.Unsolicited.Search
import Cellular.Proofs.Wait.Schedule
/-!
# A wait for a code on a bench is a search

On a bench a code is waited for beside a background that emits lines (`Listening.code`).  Whatever
comes of that comes of moves of a search too: its polls, and the codes that the bench publishes
between them (`Listening.code_is_search`).  So what holds of every search holds of every such wait
(`Listening.code_sees_its_prefix`).  The filter of that search counts the codes that it is asked
about, as the wait counts those that it has seen.

The correspondence is kept as an invariant of the run (`Listening.Led`): there are moves of a search
that lead from the beginning to here.  A poll of the wait adds a poll of the search, and an event
that publishes a code adds that code; everything else adds no move.
-/

namespace Cellular

variable {α : Type} {ticket : Nat} {b : Bench}

/-- What a filter becomes that counts the codes that it is asked about. -/
def Search.counting (f : Urc → Option α) (seen : Nat) (code : Urc) : Option α × Nat :=
  (f code, seen + 1)

/-- Such a filter has counted the codes that it was asked about. -/
theorem Search.Asked.counted {f : Urc → Option α} {seen seen' : Nat} {codes : List Urc}
    {found : Option α} (h : Asked (counting f) seen codes found seen') :
    seen' = seen + codes.length := by
  induction h with
  | nothing => rfl
  | found hcode => exact (congrArg Prod.snd hcode).symm
  | @passed seen seen₁ seen' code codes found hcode _ ih =>
    obtain rfl : seen + 1 = seen₁ := congrArg Prod.snd hcode
    rw [ih, List.length_cons, Nat.add_assoc, Nat.add_comm 1]

/-- An event publishes a code, or leaves the board as it is. -/
theorem Bench.happen_cases (b : Bench) (event : Event) :
    ((b.happen event).board = b.board ∧ (b.happen event).history = b.history) ∨
    ∃ code, b.board.publish? code = some (b.happen event).board ∧
      (b.happen event).history = b.history ++ [(b.now, .published code)] := by
  cases event with
  | cancel => exact .inl ⟨rfl, rfl⟩
  | line line =>
    rw [happen, emit]
    split
    · exact .inl ⟨rfl, rfl⟩
    · rename_i code _
      split
      · rename_i board hpublish
        exact .inr ⟨code, hpublish, rfl⟩
      · exact .inl ⟨rfl, rfl⟩

/-- So does the background, whenever it has its turn. -/
theorem Agenda.poll_cases (b : Bench) (agenda : Agenda) :
    ((agenda.poll b).1.board = b.board ∧ (agenda.poll b).1.history = b.history) ∨
    ∃ code, b.board.publish? code = some (agenda.poll b).1.board ∧
      (agenda.poll b).1.history = b.history ++ [(b.now, .published code)] := by
  cases agenda with
  | nil => exact .inl ⟨rfl, rfl⟩
  | cons head rest =>
    obtain ⟨timer, event⟩ := head
    cases hpoll : timer.poll b.now with
    | pending timer => exact .inl (by simp [Agenda.poll, hpoll])
    | ready => simpa only [Agenda.poll, hpoll] using b.happen_cases event

namespace Listening

open Search (counting published)

variable {l : Listening α} {f : Urc → Option α}

/-- How far the search has got. -/
def search (l : Listening α) : Search Nat Urc α :=
  { board := l.bench.board, memory := l.seen, found := l.found }

/-- The wait is polled like a search. -/
theorem search_pollBoard (f : Urc → Option α) (hseated : l.bench.board.Seated ticket)
    (hbegun : l.found = none) :
    (pollBoard ticket f l).search = l.search.poll (counting f) ticket := by
  have hcount : Board.firstMatchFrom (counting f) l.seen (l.bench.board.unread ticket) = _ :=
    Board.firstMatchFrom_counting f l.seen _
  simp only [search, Search.poll, hbegun, Board.nextMatchingFrom, hcount, pollBoard,
    Board.nextMatching]
  rw [Board.unread_setUnread hseated]

/-- A search leads from there to here, and these codes were published meanwhile. -/
def Led (f : Urc → Option α) (ticket : Nat) (b : Bench) (l : Listening α) : Prop :=
  l.bench.board.Seated ticket ∧ ∃ (moves : List (Search.Move Urc)) (es : Chronicle),
    Search.Course (counting f) ticket { board := b.board, memory := 0 } moves l.search ∧
    l.bench.history = b.history ++ es ∧ published moves = es.codes.map Prod.snd

/-- A poll of the wait is one move. -/
theorem Led.pollBoard (h : l.Led f ticket b) (hgoes : l.found = none) :
    (l.pollBoard ticket f).Led f ticket b := by
  obtain ⟨hseated, moves, es, hcourse, hhistory, hcodes⟩ := h
  refine ⟨hseated.setUnread ticket _, moves ++ [.poll], es, hcourse.append ?_, hhistory, ?_⟩
  · rw [search_pollBoard f hseated hgoes]
    exact .poll .nil
  · rw [Search.published_append, hcodes]
    exact List.append_nil _

/-- The background moves on by the codes that it publishes. -/
theorem Led.pollAgenda (h : l.Led f ticket b) : l.pollAgenda.Led f ticket b := by
  obtain ⟨hseated, moves, es, hcourse, hhistory, hcodes⟩ := h
  -- an event that publishes nothing is no move of the search
  rcases l.agenda.poll_cases l.bench with ⟨hboard, hsame⟩ | ⟨code, hpublish, hmore⟩
  · have hsearch : l.pollAgenda.search = l.search := by
      rw [search, search]
      exact congrArg (fun board =>
        ({ board, memory := l.seen, found := l.found } : Search Nat Urc α)) hboard
    exact ⟨hboard ▸ hseated, moves, es, hsearch ▸ hcourse, hsame.trans hhistory, hcodes⟩
  · refine ⟨hseated.publish hpublish, moves ++ [.around (.publish code)],
      es ++ [(l.bench.now, .published code)],
      hcourse.append (.around (.publish hpublish) .nil), ?_, ?_⟩
    · rw [← List.append_assoc, ← hhistory]
      exact hmore
    · rw [Search.published_append, hcodes, Chronicle.codes_append, List.map_append]
      rfl

/-- Whatever a wait for a code comes to on a bench, a search comes to. -/
theorem code_is_search (rounds : Nat) (events : List (Nat × Event)) (f : Urc → Option α)
    (hseated : b.board.Seated ticket) : (code rounds b events ticket f).Led f ticket b := by
  have hstart : Led f ticket b { bench := b, agenda := .ofList b.now events } :=
    ⟨hseated, [], [], .nil, (List.append_nil _).symm, rfl⟩
  -- a wait that has come to an end is not polled again, and would forget what it has found if it
  -- were
  refine Schedule.run_keeps_going (fun task htask l hgoes hl => ?_)
    (fun now l => ⟨rfl, id⟩) rounds rfl hstart
  have hgoes : l.found = none := Option.isNone_iff_eq_none.mp (by simpa [schedule] using hgoes)
  rcases List.mem_cons.mp htask with rfl | htask
  · exact hl.pollBoard hgoes
  · obtain rfl := List.mem_singleton.mp htask
    exact hl.pollAgenda

/-- **A wait for a code sees its prefix and nothing else.**  However long it lasts and whatever the
background does, the codes that were on the seat and those that are published are the ones that it
has seen, and those that are still on the seat.  Of the codes that it has seen none fits but the
last, and that only if it has come to an end. -/
theorem code_sees_its_prefix (rounds : Nat) (events : List (Nat × Event)) (f : Urc → Option α)
    (hseated : b.board.Seated ticket) :
    let l := code rounds b events ticket f
    ∃ (seen : List Urc) (es : Chronicle), l.bench.history = b.history ++ es ∧
      b.board.unread ticket ++ es.codes.map Prod.snd = seen ++ l.bench.board.unread ticket ∧
      l.seen = seen.length ∧
      Search.ComesTo f seen l.found := by
  intro l
  obtain ⟨-, moves, es, hcourse, hhistory, hcodes⟩ := code_is_search rounds events f hseated
  obtain ⟨-, seen, hseen, hasked⟩ := hcourse.asked hseated .nothing
  rw [hcodes] at hseen
  have hasked : Search.Asked (counting f) 0 seen l.found l.seen := hasked
  exact ⟨seen, es, hhistory, hseen, hasked.counted.trans (Nat.zero_add _),
    hasked.comesTo fun _ _ => rfl⟩

end Listening

end Cellular
