import Cellular.Proofs.Bench.Dispatch
/-!
# What a party with a seat has read

A party keeps a seat and reads one code after another, while codes are published and others sit
down, read and leave.  A `Reading` tells how far it is: its ticket, how long the history was when it
sat down, and what it has read since.  The invariant is that what was published since then is what
the party has read, followed by what it has still to read (`Reading.Current`).  Publishing adds to
the end of both sides; reading moves a code from the one part to the other; whatever others do with
seats of their own changes neither.

So the invariant can be kept in the books of any procedure that uses seats of its own
(`Served.stewardship`).

The relation is kept up by the party alone, so what others may do is allowed for in general: their
seats have other tickets, and tickets are not issued twice.  A reading that is current is handed
from one action to the next; it needs to be said nowhere how long the history is.
-/

namespace Cellular

/-! ## One reading

The split is an invariant: what was published since a party sat down is what it has read and then
what it has still to read.  Publishing adds at the end of the second part, and reading moves one
code from the second part to the first. -/

/-- The codes that reached the board since the history had that length. -/
def Bench.publishedSince (since : Nat) (b : Bench) : List Urc :=
  (Chronicle.codes (b.history.drop since)).map Prod.snd

/-- How far a party is that keeps a seat. -/
structure Reading where
  ticket : Nat
  /-- How long the history was when the party sat down. -/
  since : Nat
  /-- What it has read. -/
  read : List Urc := []

namespace Bench

variable {b b' : Bench} {since : Nat}

/-- What happens now comes behind what was published since. -/
theorem publishedSince_append {es : Chronicle} (h : b'.history = b.history ++ es)
    (hsince : since ≤ b.history.length) :
    b'.publishedSince since = b.publishedSince since ++ es.codes.map Prod.snd := by
  rw [publishedSince, h, List.drop_append_of_le_length hsince, Chronicle.codes_append,
    List.map_append]
  rfl

theorem publishedSince_now (b : Bench) : b.publishedSince b.history.length = [] := by
  rw [publishedSince, List.drop_length]
  rfl

end Bench

/-- The party has a seat of its own, and what was published since it sat down is what it has read
and what it has still to read, in that order. -/
structure Reading.Current (r : Reading) (held : List Nat) (b : Bench) : Prop where
  seated : b.board.Seated r.ticket
  own : r.ticket ∉ held
  since : r.since ≤ b.history.length
  split : b.publishedSince r.since = r.read ++ b.board.unread r.ticket

namespace Reading.Current

variable {r : Reading} {held : List Nat} {b b' : Bench} {board : Board Urc}

/-- Only the board and the history matter. -/
theorem frame (h : r.Current held b) (hboard : b'.board = b.board)
    (hhistory : b'.history = b.history) :
    r.Current held b' where
  seated := hboard ▸ h.seated
  own := h.own
  since := hhistory ▸ h.since
  split := by
    rw [Bench.publishedSince, hhistory, hboard]
    exact h.split

/-- Nobody's seat matters but that of the party. -/
theorem reboard (h : r.Current held b) (hseated : board.Seated r.ticket)
    (hunread : board.unread r.ticket = b.board.unread r.ticket) :
    r.Current held { b with board } where
  seated := hseated
  own := h.own
  since := h.since
  split := by
    rw [hunread]
    exact h.split

/-- What is no code changes nothing. -/
theorem tell (h : r.Current held b) {happening : Happening} (hcode : happening.code? = none) :
    r.Current held (b.tell happening) where
  seated := h.seated
  own := h.own
  since := by
    have hlength : (b.tell happening).history.length = b.history.length + 1 := List.length_append
    have hsince := h.since
    omega
  split := by
    have hnone : Chronicle.codes [(b.now, happening)] = [] := by
      simp [Chronicle.codes, Chronicle.pick, hcode]
    rw [Bench.publishedSince_append rfl h.since, hnone, List.map_nil, List.append_nil]
    exact h.split

/-- A code that is published is one more to read. -/
theorem publish (h : r.Current held b) {code : Urc}
    (hpublish : b.board.publish? code = some board) :
    r.Current held ({ b with board }.tell (.published code)) where
  seated := h.seated.publish hpublish
  own := h.own
  since := by
    have hlength : ({ b with board }.tell (.published code)).history.length =
        b.history.length + 1 := List.length_append
    have hsince := h.since
    omega
  split := by
    have hgrows : ({ b with board }.tell (.published code)).history =
        b.history ++ [(b.now, .published code)] := rfl
    have hunread : board.unread r.ticket = b.board.unread r.ticket ++ [code] :=
      Board.unread_publish h.seated hpublish
    calc ({ b with board }.tell (.published code)).publishedSince r.since
        = b.publishedSince r.since ++ [code] := Bench.publishedSince_append hgrows h.since
      _ = r.read ++ (b.board.unread r.ticket ++ [code]) := by rw [h.split, List.append_assoc]
      _ = r.read ++ board.unread r.ticket := by rw [hunread]

/-- The party reads the next code. -/
theorem readNext (h : r.Current held b) {code : Urc} {codes : List Urc}
    (hnext : b.board.unread r.ticket = code :: codes) :
    { r with read := r.read ++ [code] }.Current held
      { b with board := b.board.setUnread r.ticket codes } where
  seated := h.seated.setUnread r.ticket codes
  own := h.own
  since := h.since
  split := by
    have hsplit : b.publishedSince r.since = r.read ++ code :: codes := hnext ▸ h.split
    show b.publishedSince r.since = (r.read ++ [code]) ++
      (b.board.setUnread r.ticket codes).unread r.ticket
    rw [Board.unread_setUnread h.seated codes, hsplit, List.append_assoc]
    rfl

end Reading.Current

/-! ## Books

The books of a procedure are about its own seats.  With a reader among the others, they also say
that the reader is current; what the procedure does with its seats does not touch that. -/

/-- While the seats `held` are held, all tickets are in order, and so is the party that reads, if
there is one. -/
structure Served (reader : Option Reading) (held : List Nat) (b : Bench) : Prop where
  sound : b.board.Sound
  issued : ∀ ticket ∈ held, ticket < b.board.issued
  current : ∀ r ∈ reader, r.Current held b

namespace Served

variable {reader : Option Reading} {held : List Nat} {b b' : Bench} {board : Board Urc}

/-- To hold fewer seats is always in order. -/
theorem fewer {held' : List Nat} (hsub : ∀ ticket ∈ held', ticket ∈ held)
    (h : Served reader held b) :
    Served reader held' b where
  sound := h.sound
  issued ticket hticket := h.issued ticket (hsub ticket hticket)
  current r hr :=
    have hcurrent := h.current r hr
    { hcurrent with own := fun hmem => hcurrent.own (hsub _ hmem) }

/-- Only the board and the history matter. -/
theorem frame (h : Served reader held b) (hboard : b'.board = b.board)
    (hhistory : b'.history = b.history) :
    Served reader held b' where
  sound := hboard ▸ h.sound
  issued := hboard ▸ h.issued
  current r hr := (h.current r hr).frame hboard hhistory

/-- Publishing keeps the books in order. -/
theorem published (reader : Option Reading) (held : List Nat) :
    Bench.Published (Served reader held) where
  frame := frame
  tell hcode h := ⟨h.sound, h.issued, fun r hr => (h.current r hr).tell hcode⟩
  publish h hpublish :=
    ⟨h.sound.publish hpublish, Board.issued_publish hpublish ▸ h.issued, fun r hr =>
      (h.current r hr).publish hpublish⟩

/-- Somebody else has something else left to read. -/
theorem setUnread (h : Served reader held b) {ticket : Nat}
    (hother : ∀ r ∈ reader, r.ticket ≠ ticket) (codes : List Urc) :
    Served reader held { b with board := b.board.setUnread ticket codes } where
  sound := h.sound.setUnread ticket codes
  issued := h.issued
  current r hr :=
    have hcurrent := h.current r hr
    hcurrent.reboard (hcurrent.seated.setUnread ticket codes)
      (b.board.unread_setUnread_of_ne (hother r hr) codes)

/-- Somebody else leaves. -/
theorem unsubscribe (h : Served reader held b) {ticket : Nat}
    (hother : ∀ r ∈ reader, r.ticket ≠ ticket) :
    Served reader held (b.unsubscribe ticket) where
  sound := h.sound.unsubscribe ticket
  issued := h.issued
  current r hr :=
    have hcurrent := h.current r hr
    hcurrent.reboard (hcurrent.seated.unsubscribe (hother r hr))
      (b.board.unread_unsubscribe (hother r hr))

/-- Somebody else sits down. -/
theorem subscribe (h : Served reader held b) {ticket : Nat}
    (hseat : b.board.subscribe? = some (ticket, board)) :
    Served reader (ticket :: held) { b with board } := by
  obtain ⟨hticket, hissued⟩ := Board.issued_subscribe hseat
  refine ⟨h.sound.subscribe hseat, ?_, fun r hr => ?_⟩
  · have hheld : ∀ t ∈ held, t < board.issued := fun t ht => by
      have hlt := h.issued t ht
      omega
    have hnew : ticket < board.issued := by omega
    exact List.forall_mem_cons.mpr ⟨hnew, hheld⟩
  · have hcurrent := h.current r hr
    have hlt : r.ticket < b.board.issued := h.sound.lt_issued hcurrent.seated
    have hreboard : r.Current held { b with board } :=
      hcurrent.reboard (hcurrent.seated.subscribe hseat) (Board.unread_subscribe hseat r.ticket)
    refine { hreboard with own := fun hmem => ?_ }
    -- the new ticket has never been issued before, so it is not the one of the reader
    rcases List.mem_cons.mp hmem with heq | hmem
    · omega
    · exact hcurrent.own hmem

/-- The party that reads sits down. -/
theorem attend (h : Served none held b) {ticket : Nat}
    (hseat : b.board.subscribe? = some (ticket, board)) :
    Served (some { ticket, since := b.history.length }) held { b with board } := by
  obtain ⟨hticket, hissued⟩ := Board.issued_subscribe hseat
  obtain ⟨hseated, hunread⟩ := Board.subscribe?_eq_some h.sound hseat
  refine ⟨h.sound.subscribe hseat, fun t ht => ?_, ?_⟩
  · have hlt := h.issued t ht
    show t < board.issued
    omega
  · rintro r ⟨⟩
    refine ⟨hseated, fun hmem => ?_, Nat.le_refl _, ?_⟩
    · have hlt : ticket < b.board.issued := h.issued ticket hmem
      omega
    · show b.publishedSince b.history.length = [] ++ board.unread ticket
      rw [hunread, b.publishedSince_now]
      rfl

/-- The party reads the next code. -/
theorem readNext {r : Reading} (h : Served (some r) held b) {code : Urc} {codes : List Urc}
    (hnext : b.board.unread r.ticket = code :: codes) :
    Served (some { r with read := r.read ++ [code] }) held
      { b with board := b.board.setUnread r.ticket codes } := by
  refine ⟨h.sound.setUnread r.ticket codes, h.issued, ?_⟩
  rintro _ ⟨⟩
  exact (h.current r rfl).readNext hnext

/-- A procedure that uses seats of its own keeps the books. -/
theorem stewardship (reader : Option Reading) : Stewardship (Served reader) where
  published := published reader
  read codes hticket h := h.setUnread (fun r hr heq => (h.current r hr).own (heq ▸ hticket)) codes
  take h hseat := h.subscribe hseat
  give {held ticket b} h := by
    have hother : ∀ r ∈ reader, r.ticket ≠ ticket := fun r hr heq =>
      (h.current r hr).own (heq ▸ List.mem_cons_self)
    exact (h.unsubscribe hother).fewer fun _ => List.mem_cons_of_mem _

end Served

end Cellular
