import Cellular.Unsolicited.Board
/-!
# What the holder of a seat reads

A holder has a seat until it gives it up, and what it has not read grows by every code that is
published and by nothing else.  A ticket is issued once, so whoever sits down has nothing to read
yet.

A board changes in five ways: a seat is taken or given up, a code is published, codes are read, and
a search takes those up to one that it wants.  For each way there are lemmas on four things: who has
a seat (`Seated`), whether all tickets were issued (`Sound`), what is to be read on a seat, and
which tickets there are (`tickets`).  That is all that is used of a board elsewhere; the list of
seats is not looked into again.
-/

namespace Cellular.Board

/-! ## Seats and what there is to read

Codes go to every seat, and each seat is read on its own.  The lemmas say of each change to the
board what it does to what is on a seat, and that it does nothing to any other. -/

variable {μ β : Type}

/-- Somebody holds the ticket. -/
def Seated (b : Board μ) (ticket : Nat) : Prop := (b.seats.find? (·.1 = ticket)).isSome

/-- All tickets on the seats were issued. -/
def Sound (b : Board μ) : Prop := ∀ seat ∈ b.seats, seat.1 < b.issued

/-- Changing what is on the seats does not change who sits there. -/
theorem find?_map_codes (seats : List (Nat × List μ)) (ticket : Nat) (f : Nat × List μ → List μ) :
    (seats.map fun s => (s.1, f s)).find? (·.1 = ticket) =
      (seats.find? (·.1 = ticket)).map fun s => (s.1, f s) := by
  rw [List.find?_map]
  rfl

/-- A code that is published goes behind what there is on every seat. -/
theorem publish?_eq_some {b b' : Board μ} {code : μ} (h : b.publish? code = some b') :
    b' = { b with seats := b.seats.map fun s => (s.1, s.2 ++ [code]) } := by
  unfold publish? at h
  split at h
  · exact (Option.some.inj h).symm
  · cases h

theorem Seated.publish {b b' : Board μ} {ticket : Nat} {code : μ} (hs : b.Seated ticket)
    (h : b.publish? code = some b') : b'.Seated ticket := by
  rw [publish?_eq_some h, Seated, find?_map_codes _ _ fun s => s.2 ++ [code]]
  simpa [Seated] using hs

/-- A code that is published is read last. -/
theorem unread_publish {b b' : Board μ} {ticket : Nat} {code : μ} (hs : b.Seated ticket)
    (h : b.publish? code = some b') : b'.unread ticket = b.unread ticket ++ [code] := by
  obtain ⟨seat, hseat⟩ := Option.isSome_iff_exists.mp hs
  rw [publish?_eq_some h, unread, find?_map_codes _ _ fun s => s.2 ++ [code], unread, hseat]
  rfl

/-- What is on one seat is changed, and on no other. -/
theorem setUnread_seats (b : Board μ) (ticket : Nat) (codes : List μ) :
    (b.setUnread ticket codes).seats = b.seats.map fun s =>
      (s.1, if s.1 = ticket then codes else s.2) := by
  refine List.map_congr_left fun s _ => ?_
  split <;> rfl

/-- Reading takes nobody's seat. -/
theorem Seated.setUnread {b : Board μ} {ticket : Nat} (hs : b.Seated ticket) (other : Nat)
    (codes : List μ) :
    (b.setUnread other codes).Seated ticket := by
  rw [Seated, setUnread_seats, find?_map_codes _ _ fun s => if s.1 = other then codes else s.2]
  simpa [Seated] using hs

/-- What is left on a seat is there to be read. -/
theorem unread_setUnread {b : Board μ} {ticket : Nat} (hs : b.Seated ticket) (codes : List μ) :
    (b.setUnread ticket codes).unread ticket = codes := by
  obtain ⟨seat, hseat⟩ := Option.isSome_iff_exists.mp hs
  have hticket : seat.1 = ticket := by simpa using List.find?_some hseat
  rw [unread, setUnread_seats, find?_map_codes _ _ fun s => if s.1 = ticket then codes
    else s.2, hseat]
  simp [hticket]

/-- Only what was written last counts. -/
theorem setUnread_setUnread (b : Board μ) (ticket : Nat) (codes codes' : List μ) :
    (b.setUnread ticket codes).setUnread ticket codes' = b.setUnread ticket codes' := by
  simp only [setUnread, List.map_map, Board.mk.injEq, true_and]
  refine List.map_congr_left fun s _ => ?_
  by_cases h : s.1 = ticket <;> simp [h]

/-! ## Tickets

Tickets are numbers that are counted up, and a seat that is given up does not free its number.  So a
new ticket is different from all there are. -/

theorem sound_empty : ({} : Board μ).Sound := fun _ h => nomatch h

/-- A new ticket is issued when it is taken. -/
theorem Sound.subscribe {b b' : Board μ} {ticket : Nat} (hsound : b.Sound)
    (h : b.subscribe? = some (ticket, b')) :
    b'.Sound := by
  unfold subscribe? at h
  split at h
  · obtain ⟨-, rfl⟩ := Prod.mk.inj (Option.some.inj h)
    intro seat hseat
    rcases List.mem_append.mp hseat with hseat | hseat
    · exact Nat.lt_succ_of_lt (hsound seat hseat)
    · rw [List.mem_singleton.mp hseat]
      exact Nat.lt_succ_self _
  · cases h

/-- Giving a seat up brings in no ticket. -/
theorem Sound.unsubscribe {b : Board μ} (hsound : b.Sound) (ticket : Nat) :
    (b.unsubscribe ticket).Sound :=
  fun seat hseat => hsound seat (List.mem_filter.mp hseat).1

/-- Publishing changes no ticket. -/
theorem Sound.publish {b b' : Board μ} {code : μ} (hsound : b.Sound)
    (h : b.publish? code = some b') : b'.Sound := by
  rw [publish?_eq_some h]
  intro seat hseat
  obtain ⟨seat', hmem, rfl⟩ := List.mem_map.mp hseat
  exact hsound seat' hmem

/-- Reading changes no ticket. -/
theorem Sound.setUnread {b : Board μ} (hsound : b.Sound) (ticket : Nat) (codes : List μ) :
    (b.setUnread ticket codes).Sound := by
  intro seat hseat
  rw [setUnread_seats] at hseat
  obtain ⟨seat', hmem, rfl⟩ := List.mem_map.mp hseat
  exact hsound seat' hmem

/-- Whoever sits down has nothing to read. -/
theorem subscribe?_eq_some {b b' : Board μ} {ticket : Nat} (hsound : b.Sound)
    (h : b.subscribe? = some (ticket, b')) : b'.Seated ticket ∧ b'.unread ticket = [] := by
  unfold subscribe? at h
  split at h
  · obtain ⟨rfl, rfl⟩ := Prod.mk.inj (Option.some.inj h)
    have hnone : b.seats.find? (·.1 = b.issued) = none := by
      rw [List.find?_eq_none]
      intro seat hseat
      simpa using Nat.ne_of_lt (hsound seat hseat)
    simp [Seated, unread, List.find?_append, hnone]
  · cases h

/-- The tickets on the seats, in the order in which they were taken. -/
def tickets (b : Board μ) : List Nat := b.seats.map Prod.fst

/-- Publishing leaves the tickets as they are. -/
theorem tickets_publish {b b' : Board μ} {code : μ} (h : b.publish? code = some b') :
    b'.tickets = b.tickets := by
  rw [publish?_eq_some h]
  simp [tickets]

theorem tickets_setUnread (b : Board μ) (ticket : Nat) (codes : List μ) :
    (b.setUnread ticket codes).tickets = b.tickets := by
  rw [tickets, setUnread_seats]
  simp [tickets]

/-- A seat that is given up takes its ticket along. -/
theorem tickets_unsubscribe (b : Board μ) (ticket : Nat) :
    (b.unsubscribe ticket).tickets = b.tickets.filter (· ≠ ticket) := by
  simp only [tickets, unsubscribe, List.filter_map]
  rfl

/-- A seat that is taken has the next ticket, behind all others. -/
theorem tickets_subscribe {b b' : Board μ} {ticket : Nat} (h : b.subscribe? = some (ticket, b')) :
    ticket = b.issued ∧ b'.tickets = b.tickets ++ [ticket] := by
  unfold subscribe? at h
  split at h
  · obtain ⟨rfl, rfl⟩ := Prod.mk.inj (Option.some.inj h)
    simp [tickets]
  · cases h

/-- A ticket that is yet to be issued is on no seat. -/
theorem Sound.issued_not_mem {b : Board μ} (h : b.Sound) : b.issued ∉ b.tickets := fun hmem => by
  obtain ⟨seat, hseat, heq⟩ := List.mem_map.mp hmem
  exact Nat.ne_of_lt (h seat hseat) heq

/-- Where no two seats have the same ticket, everyone reads what is on the own seat. -/
theorem unread_of_mem {b : Board μ} (h : b.tickets.Nodup) {seat : Nat × List μ}
    (hseat : seat ∈ b.seats) :
    b.unread seat.1 = seat.2 := by
  -- the tickets are distinct, so the first seat with this one is the seat itself
  have hfind : ∀ seats : List (Nat × List μ), (seats.map Prod.fst).Nodup → seat ∈ seats →
      seats.find? (·.1 = seat.1) = some seat := by
    intro seats hnodup hmem
    induction seats with
    | nil => cases hmem
    | cons s seats ih =>
      obtain ⟨hnot, hnodup⟩ := List.nodup_cons.mp hnodup
      rcases List.mem_cons.mp hmem with rfl | hmem
      · simp
      · have hne : s.1 ≠ seat.1 := fun heq => hnot (heq ▸ List.mem_map_of_mem hmem)
        simp [hne, ih hnodup hmem]
  rw [unread, hfind b.seats h hseat]
  rfl

/-- Who has no seat has nothing to read. -/
theorem unread_of_not_seated {b : Board μ} {ticket : Nat} (h : ¬ b.Seated ticket) :
    b.unread ticket = [] := by
  rw [Seated, Option.not_isSome_iff_eq_none] at h
  rw [unread, h]
  rfl

/-- What is looked for is the first code that is wanted. -/
theorem firstMatch_wanted (wanted : μ → Bool) (codes : List μ) :
    (firstMatch (fun code => if wanted code then some code else none) codes).1 =
      codes.find? wanted := by
  induction codes with
  | nil => rfl
  | cons code codes ih =>
    by_cases h : wanted code = true
    · simp [firstMatch, h]
    · simp [firstMatch, h, ih]

/-- Who finds nothing has read everything. -/
theorem firstMatch_none {filter : μ → Option β} {codes : List μ}
    (h : (firstMatch filter codes).1 = none) :
    (firstMatch filter codes).2 = [] := by
  induction codes with
  | nil => rfl
  | cons code codes ih =>
    cases hcode : filter code with
    | some value => simp [firstMatch, hcode] at h
    | none =>
      simp only [firstMatch, hcode] at h ⊢
      exact ih h

/-- Who has read everything gets no code. -/
theorem next_of_nil {b : Board μ} {ticket : Nat} (h : b.unread ticket = []) :
    b.next ticket = (none, b) := by
  rw [next, h]

/-- Codes are read one by one, the oldest first. -/
theorem next_of_cons {b : Board μ} {ticket : Nat} {code : μ} {codes : List μ}
    (h : b.unread ticket = code :: codes) :
    b.next ticket = (some code, b.setUnread ticket codes) := by
  rw [next, h]

/-! ## What others do with their seats

Two parties on different seats do not affect each other.  For each of the things that the one may do
there is a lemma that the other has its seat as before and the same to read, and where the order of
two actions does not matter, one that says so. -/

/-- Whoever sits down has nothing to read, and nobody else has more or less to read for it. -/
theorem unread_subscribe {b b' : Board μ} {seat : Nat} (h : b.subscribe? = some (seat, b'))
    (ticket : Nat) :
    b'.unread ticket = b.unread ticket := by
  unfold subscribe? at h
  split at h
  · obtain ⟨rfl, rfl⟩ := Prod.mk.inj (Option.some.inj h)
    rw [unread, unread, List.find?_append]
    cases hfind : b.seats.find? (·.1 = ticket) with
    | some seat => rfl
    | none =>
      by_cases hticket : b.issued = ticket
      · simp [hticket]
      · simp [hticket]
  · cases h

/-- Nobody loses a seat when another one is taken. -/
theorem Seated.subscribe {b b' : Board μ} {seat ticket : Nat} (hs : b.Seated ticket)
    (h : b.subscribe? = some (seat, b')) : b'.Seated ticket := by
  unfold subscribe? at h
  split at h
  · obtain ⟨rfl, rfl⟩ := Prod.mk.inj (Option.some.inj h)
    rw [Seated, List.find?_append, Option.isSome_or, Bool.or_eq_true]
    exact .inl hs
  · cases h

theorem find?_unsubscribe (b : Board μ) {ticket other : Nat} (hne : ticket ≠ other) :
    (b.unsubscribe other).seats.find? (·.1 = ticket) = b.seats.find? (·.1 = ticket) := by
  rw [unsubscribe, List.find?_filter]
  congr 1
  funext seat
  by_cases hseat : seat.1 = ticket
  · simp [hseat, hne]
  · simp [hseat]

/-- Nobody loses a seat when another one is given up. -/
theorem Seated.unsubscribe {b : Board μ} {ticket other : Nat} (hs : b.Seated ticket)
    (hne : ticket ≠ other) :
    (b.unsubscribe other).Seated ticket := by
  rw [Seated, find?_unsubscribe b hne]
  exact hs

/-- Nor has anybody less to read for it. -/
theorem unread_unsubscribe (b : Board μ) {ticket other : Nat} (hne : ticket ≠ other) :
    (b.unsubscribe other).unread ticket = b.unread ticket := by
  rw [unread, find?_unsubscribe b hne, unread]

/-- Who gave up a seat has nothing to read on it. -/
theorem unread_unsubscribe_self (b : Board μ) (ticket : Nat) :
    (b.unsubscribe ticket).unread ticket = [] := by
  refine unread_of_not_seated fun hs => ?_
  obtain ⟨seat, hseat⟩ := Option.isSome_iff_exists.mp hs
  have hticket : seat.1 = ticket := by simpa using List.find?_some hseat
  have hleft := (List.mem_filter.mp (List.mem_of_find?_eq_some hseat)).2
  simp [hticket] at hleft

/-- What others read does not change what there is to read on one's own seat. -/
theorem unread_setUnread_of_ne (b : Board μ) {ticket other : Nat} (hne : ticket ≠ other)
    (codes : List μ) :
    (b.setUnread other codes).unread ticket = b.unread ticket := by
  rw [unread, setUnread_seats, find?_map_codes _ _ fun s => if s.1 = other then codes
    else s.2, unread]
  cases hfind : b.seats.find? (·.1 = ticket) with
  | none => rfl
  | some seat =>
    have hticket : seat.1 = ticket := by simpa using List.find?_some hfind
    simp [hticket, hne]

/-- Codes that are read on two seats can be read in any order. -/
theorem setUnread_comm (b : Board μ) {ticket other : Nat} (hne : ticket ≠ other)
    (codes codes' : List μ) :
    (b.setUnread other codes').setUnread ticket codes =
      (b.setUnread ticket codes).setUnread other codes' := by
  simp only [setUnread, List.map_map, Board.mk.injEq, true_and]
  refine List.map_congr_left fun seat _ => ?_
  by_cases h : seat.1 = ticket
  · simp [h, hne]
  · by_cases hother : seat.1 = other <;> simp [h, hother, Ne.symm hne]

theorem next_setUnread_of_ne (b : Board μ) {ticket other : Nat} (hne : ticket ≠ other)
    (codes : List μ) :
    (b.setUnread ticket codes).next other =
      ((b.next other).1, (b.next other).2.setUnread ticket codes) := by
  have hsame : (b.setUnread ticket codes).unread other = b.unread other :=
    unread_setUnread_of_ne b (Ne.symm hne) codes
  cases hcodes : b.unread other with
  | nil => rw [next_of_nil hcodes, next_of_nil (hsame.trans hcodes)]
  | cons code more =>
    rw [next_of_cons hcodes, next_of_cons (hsame.trans hcodes), setUnread_comm b hne]

theorem unsubscribe_setUnread (b : Board μ) (ticket other : Nat) (codes : List μ) :
    (b.setUnread ticket codes).unsubscribe other =
      (b.unsubscribe other).setUnread ticket codes := by
  simp only [unsubscribe, setUnread, List.filter_map, Board.mk.injEq, true_and]
  congr 1
  refine List.filter_congr fun seat _ => ?_
  by_cases h : seat.1 = ticket <;> simp [h]

/-- A code that is published is one more to read, at most. -/
theorem length_unread_publish {b b' : Board μ} {code : μ} (h : b.publish? code = some b')
    (ticket : Nat) :
    (b'.unread ticket).length ≤ (b.unread ticket).length + 1 := by
  by_cases hs : b.Seated ticket
  · rw [unread_publish hs h, List.length_append]
    exact Nat.le_refl _
  · have hnone : ¬ b'.Seated ticket := by
      rw [publish?_eq_some h, Seated, find?_map_codes _ _ fun s => s.2 ++ [code], Option.isSome_map]
      exact hs
    rw [unread_of_not_seated hnone]
    exact Nat.zero_le _

/-- Who has a code to read has a seat. -/
theorem seated_of_unread {b : Board μ} {ticket : Nat} (h : b.unread ticket ≠ []) :
    b.Seated ticket :=
  Classical.byContradiction fun hs => h (unread_of_not_seated hs)

theorem firstMatch_length_le (filter : μ → Option β) (codes : List μ) :
    (firstMatch filter codes).2.length ≤ codes.length := by
  induction codes with
  | nil => exact Nat.le_refl _
  | cons code codes ih =>
    rw [firstMatch]
    split
    · exact Nat.le_succ _
    · exact Nat.le_succ_of_le ih

/-- A ticket on a seat is below the next one. -/
theorem Sound.lt_issued {b : Board μ} (h : b.Sound) {ticket : Nat} (hs : b.Seated ticket) :
    ticket < b.issued := by
  obtain ⟨seat, hseat⟩ := Option.isSome_iff_exists.mp hs
  have hticket : seat.1 = ticket := by simpa using List.find?_some hseat
  exact hticket ▸ h seat (List.mem_of_find?_eq_some hseat)

theorem issued_subscribe {b b' : Board μ} {ticket : Nat} (h : b.subscribe? = some (ticket, b')) :
    ticket = b.issued ∧ b'.issued = b.issued + 1 := by
  unfold subscribe? at h
  split at h
  · obtain ⟨rfl, rfl⟩ := Prod.mk.inj (Option.some.inj h)
    exact ⟨rfl, rfl⟩
  · cases h

theorem issued_publish {b b' : Board μ} {code : μ} (h : b.publish? code = some b') :
    b'.issued = b.issued := by
  rw [publish?_eq_some h]

end Cellular.Board
