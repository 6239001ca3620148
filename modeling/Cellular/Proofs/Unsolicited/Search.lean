import Cellular.Proofs.Unsolicited.Board
/-!
# A search among other readers

Whoever waits for a code searches its seat: the codes are put to a filter one after another, up to
the first that the filter gives a value for.  The filter may remember what it was asked about; one
that remembers nothing makes the searches of the operations (`nextMatchingFrom_eq_nextMatching`).

A search is polled again and again until it has found a value.  Meanwhile codes are published, and
others sit down, read at their own pace and leave.  However these moves are interleaved, the filter
is asked about every code that is on the seat when the search is begun or comes later, once and in
order, up to the one that it gives a value for, and all others stay on the seat
(`search_takes_its_prefix`).  What the others read is the same without the search
(`Course.elsewhere_eq`).

The proof has two halves.

1. The seat of the one who searches.  Everything that happens around the search changes this seat by
   the codes that are published and not otherwise (`Around.Acts.unread`).  So between two polls the
   seat has what was left by the last poll and what was published since; and what the filter was
   asked about, put in front of it, is a list that only grows at its end (`Course.asked`).
2. The others.  A scene can be looked at without the seat of the search, and every move of the
   others does the same there (`Around.Acts.elsewhere`).  A poll changes nothing of it.  So what
   they read does not depend on the search.
-/

namespace Cellular

variable {σ μ β : Type} {filter : σ → μ → Option β × σ} {memory memory' memory'' : σ}
  {found : Option β}

/-! ## Filters that remember

The memory makes the filter's questions observable: a filter that writes down what it is asked about
shows that it is asked once about each code and in order, whatever the filter is otherwise. -/

namespace Search

/-- A filter that remembers is asked about these codes, about each of them once and in order.  It
gives a value for none but the last. -/
inductive Asked (filter : σ → μ → Option β × σ) : σ → List μ → Option β → σ → Prop
  | nothing {memory : σ} : Asked filter memory [] none memory
  | found {memory memory' : σ} {code : μ} {value : β}
    (hcode : filter memory code = (some value, memory')) :
    Asked filter memory [code] (some value) memory'
  | passed {memory memory' memory'' : σ} {code : μ} {codes : List μ} {found : Option β}
    (hcode : filter memory code = (none, memory'))
    (hcodes : Asked filter memory' codes found memory'') :
    Asked filter memory (code :: codes) found memory''

/-- A filter that gave no value is asked about more codes. -/
theorem Asked.append {codes codes' : List μ} (h : Asked filter memory codes none memory')
    (h' : Asked filter memory' codes' found memory'') :
    Asked filter memory (codes ++ codes') found memory'' := by
  generalize hnone : (none : Option β) = found₁ at h
  induction h with
  | nothing => exact h'
  | found => cases hnone
  | passed hcode _ ih => exact .passed hcode (ih h' hnone)

/-- The filter that writes down what it is asked about. -/
def noting (filter : σ → μ → Option β × σ) (memory : σ × List μ) (code : μ) :
    Option β × (σ × List μ) :=
  ((filter memory.1 code).1, ((filter memory.1 code).2, memory.2 ++ [code]))

/-- It writes down the codes that it is asked about. -/
theorem Asked.noting {codes : List μ} (h : Asked filter memory codes found memory')
    (written : List μ) :
    Asked (noting filter) (memory, written) codes found (memory', written ++ codes) := by
  induction h generalizing written with
  | nothing =>
    rw [List.append_nil]
    exact .nothing
  | found hcode => exact .found (by rw [Search.noting, hcode])
  | @passed memory memory' memory'' code codes found hcode _ ih =>
    have hrest := ih (written ++ [code])
    rw [List.append_assoc] at hrest
    exact .passed (by rw [Search.noting, hcode]) hrest

/-- The value of the last of the codes if there is one, where no code before it has one. -/
def ComesTo (f : μ → Option β) (codes : List μ) : Option β → Prop
  | none => ∀ code ∈ codes, f code = none
  | some value =>
    ∃ before code, codes = before ++ [code] ∧ (∀ code ∈ before, f code = none) ∧ f code = some value

/-- What a filter remembers may make no difference to its values. -/
theorem Asked.comesTo {f : μ → Option β} {codes : List μ}
    (hf : ∀ memory code, (filter memory code).1 = f code)
    (h : Asked filter memory codes found memory') : ComesTo f codes found := by
  induction h with
  | nothing => nofun
  | @found memory memory' code value hcode =>
    refine ⟨[], code, rfl, nofun, ?_⟩
    rw [← hf memory, hcode]
  | @passed memory memory' _ code codes found hcode _ ih =>
    have hnone : f code = none := by rw [← hf memory, hcode]
    cases found with
    | none => exact List.forall_mem_cons.mpr ⟨hnone, ih⟩
    | some value =>
      obtain ⟨before, last, rfl, hbefore, hlast⟩ := ih
      exact ⟨code :: before, last, rfl, List.forall_mem_cons.mpr ⟨hnone, hbefore⟩, hlast⟩

end Search

namespace Board

/-- What `firstMatch` is for a filter that remembers: the value, what the filter remembers then, and
the codes behind. -/
def firstMatchFrom (filter : σ → μ → Option β × σ) (memory : σ) : List μ → (Option β × σ) × List μ
  | [] => ((none, memory), [])
  | code :: codes =>
    match filter memory code with
    | (some value, memory) => ((some value, memory), codes)
    | (none, memory) => firstMatchFrom filter memory codes

/-- The filter is asked about the codes in front, and about all of them if it gives no value. -/
theorem asked_firstMatchFrom (filter : σ → μ → Option β × σ) (memory : σ) (codes : List μ) :
    ∃ taken, codes = taken ++ (firstMatchFrom filter memory codes).2 ∧
      Search.Asked filter memory taken (firstMatchFrom filter memory codes).1.1
        (firstMatchFrom filter memory codes).1.2 ∧
      ((firstMatchFrom filter memory codes).1.1 = none →
        (firstMatchFrom filter memory codes).2 = []) := by
  induction codes generalizing memory with
  | nil => exact ⟨[], rfl, .nothing, fun _ => rfl⟩
  | cons code codes ih =>
    rw [firstMatchFrom]
    split
    · rename_i value memory' hcode
      exact ⟨[code], rfl, .found hcode, nofun⟩
    · rename_i memory' hcode
      obtain ⟨taken, hcodes, hasked, hall⟩ := ih memory'
      exact ⟨code :: taken, congrArg (code :: ·) hcodes, .passed hcode hasked, hall⟩

/-- What `nextMatching` is for a filter that remembers. -/
def nextMatchingFrom (b : Board μ) (ticket : Nat) (filter : σ → μ → Option β × σ) (memory : σ) :
    (Option β × σ) × Board μ :=
  let (found, rest) := firstMatchFrom filter memory (b.unread ticket)
  (found, b.setUnread ticket rest)

/-- A filter that remembers nothing finds what it finds without a memory. -/
theorem firstMatchFrom_eq_firstMatch (f : μ → Option β) (memory : σ) (codes : List μ) :
    firstMatchFrom (fun memory code => (f code, memory)) memory codes =
      (((firstMatch f codes).1, memory), (firstMatch f codes).2) := by
  induction codes with
  | nil => rfl
  | cons code codes ih =>
    cases hcode : f code with
    | none => simp only [firstMatchFrom, firstMatch, hcode, ih]
    | some value => simp only [firstMatchFrom, firstMatch, hcode]

/-- With a filter that remembers nothing it is the same. -/
theorem nextMatchingFrom_eq_nextMatching (b : Board μ) (ticket : Nat) (f : μ → Option β)
    (memory : σ) :
    b.nextMatchingFrom ticket (fun memory code => (f code, memory)) memory =
      (((b.nextMatching ticket f).1, memory), (b.nextMatching ticket f).2) := by
  simp only [nextMatchingFrom, firstMatchFrom_eq_firstMatch, nextMatching]

/-- A filter may count the codes that it is asked about: those that are not left. -/
theorem firstMatchFrom_counting (f : μ → Option β) (seen : Nat) (codes : List μ) :
    firstMatchFrom (fun seen code => (f code, seen + 1)) seen codes =
      (((firstMatch f codes).1, seen + (codes.length - (firstMatch f codes).2.length)),
        (firstMatch f codes).2) := by
  induction codes generalizing seen with
  | nil => rfl
  | cons code codes ih =>
    have hleft := firstMatch_length_le f codes
    cases hcode : f code with
    | none =>
      simp only [firstMatchFrom, firstMatch, hcode, ih, List.length_cons]
      rw [show seen + 1 + (codes.length - (firstMatch f codes).2.length) =
        seen + (codes.length + 1 - (firstMatch f codes).2.length) by omega]
    | some value =>
      simp only [firstMatchFrom, firstMatch, hcode, List.length_cons]
      rw [show codes.length + 1 - codes.length = 1 by omega]

end Board

namespace Search

/-! ## Moves

Codes are published, and others do all that one can do with a seat, with any but the one of the
search. -/

/-- A board, and the codes that have been read by others than the one who searches, each with the
ticket of its reader. -/
structure Scene (μ : Type) where
  board : Board μ
  received : List (Nat × μ) := []

/-- What happens around a search. -/
inductive Around (μ : Type)
  /-- A code is published, and is not lost. -/
  | publish (code : μ)
  /-- Somebody reads the next code, if there is one. -/
  | read (other : Nat)
  /-- Somebody sits down. -/
  | subscribe
  /-- Somebody leaves. -/
  | unsubscribe (other : Nat)

namespace Around

/-- What comes of it.  Others do not use the seat of the one who searches. -/
inductive Acts (ticket : Nat) : Around μ → Scene μ → Scene μ → Prop
  | publish {code : μ} {s : Scene μ} {board : Board μ}
    (hpublish : s.board.publish? code = some board) :
    Acts ticket (publish code) s { s with board }
  | read {other : Nat} {s : Scene μ} (hne : ticket ≠ other) : Acts ticket (read other) s
    { board := (s.board.next other).2, received :=
      s.received ++ (s.board.next other).1.toList.map (other, ·) }
  | subscribe {s : Scene μ} {seat : Nat} {board : Board μ}
    (hseat : s.board.subscribe? = some (seat, board)) :
    Acts ticket subscribe s { s with board }
  | unsubscribe {other : Nat} {s : Scene μ} (hne : ticket ≠ other) :
    Acts ticket (unsubscribe other) s { s with board := s.board.unsubscribe other }

/-- The code that is published. -/
def code? : Around μ → Option μ
  | publish code => some code
  | read _ | subscribe | unsubscribe _ => none

variable {ticket : Nat} {a : Around μ} {s s' : Scene μ}

/-- Nothing but a code that is published makes a difference to a seat that is not used. -/
theorem Acts.unread (h : a.Acts ticket s s') (hseated : s.board.Seated ticket) :
    s'.board.Seated ticket ∧ s'.board.unread ticket = s.board.unread ticket ++ a.code?.toList := by
  cases h with
  | publish hpublish => exact ⟨hseated.publish hpublish, Board.unread_publish hseated hpublish⟩
  | @read other s hne =>
    -- a reader at another ticket takes nothing from this one
    rw [code?, Option.toList_none, List.append_nil]
    cases hcodes : s.board.unread other with
    | nil =>
      rw [Board.next_of_nil hcodes]
      exact ⟨hseated, rfl⟩
    | cons code codes =>
      rw [Board.next_of_cons hcodes]
      exact ⟨hseated.setUnread other codes, Board.unread_setUnread_of_ne _ hne codes⟩
  | subscribe hseat =>
    rw [code?, Option.toList_none, List.append_nil]
    exact ⟨hseated.subscribe hseat, Board.unread_subscribe hseat ticket⟩
  | unsubscribe hne =>
    rw [code?, Option.toList_none, List.append_nil]
    exact ⟨hseated.unsubscribe hne, Board.unread_unsubscribe _ hne⟩

end Around

/-! ## The scene without the search

A code is published only if there is room for it on the board.  What is left on the seat of the
search takes up room; so in the scene without the search a code is published whenever it was in the
scene with it, and there is room for it a fortiori. -/

/-- The scene but for what the one who searches has on the seat. -/
def Scene.elsewhere (ticket : Nat) (s : Scene μ) : Scene μ :=
  { s with board := s.board.setUnread ticket [] }

/-- What happens around a search, where nobody searches and there is room for every code. -/
def Around.elsewhere (ticket : Nat) : Around μ → Scene μ → Scene μ
  | publish code, s =>
    { s with board.seats :=
      s.board.seats.map fun seat => (seat.1, if seat.1 = ticket then [] else seat.2 ++ [code]) }
  | read other, s =>
    let (code, board) := s.board.next other
    { board, received := s.received ++ code.toList.map (other, ·) }
  | subscribe, s =>
    { s with board.issued := s.board.issued + 1, board.seats :=
      s.board.seats ++ [(s.board.issued, [])] }
  | unsubscribe other, s => { s with board := s.board.unsubscribe other }

/-- What happens is the same without the search. -/
theorem Around.Acts.elsewhere {ticket : Nat} {a : Around μ} {s s' : Scene μ}
    (h : a.Acts ticket s s') :
    s'.elsewhere ticket = a.elsewhere ticket (s.elsewhere ticket) := by
  cases h with
  | publish hpublish =>
    rw [Board.publish?_eq_some hpublish]
    -- that there was room is all that the seat of the search had to do with it
    simp only [Scene.elsewhere, Around.elsewhere, Board.setUnread, List.map_map, Scene.mk.injEq,
      Board.mk.injEq, true_and, and_true]
    refine List.map_congr_left fun seat _ => ?_
    by_cases hticket : seat.1 = ticket <;> simp [hticket]
  | @read other s hne =>
    simp only [Scene.elsewhere, Around.elsewhere, Board.next_setUnread_of_ne s.board hne]
  | subscribe hseat =>
    unfold Board.subscribe? at hseat
    split at hseat
    · obtain ⟨-, rfl⟩ := Prod.mk.inj (Option.some.inj hseat)
      simp [Scene.elsewhere, Around.elsewhere, Board.setUnread]
    · cases hseat
  | unsubscribe => simp only [Scene.elsewhere, Around.elsewhere, Board.unsubscribe_setUnread]

/-- The search is polled, or something happens around it. -/
inductive Move (μ : Type)
  | poll
  | around (a : Around μ)

/-- What happens around a search, without its polls. -/
def arounds : List (Move μ) → List (Around μ)
  | [] => []
  | .poll :: moves => arounds moves
  | .around a :: moves => a :: arounds moves

/-- The codes that are published. -/
def published (moves : List (Move μ)) : List μ := (arounds moves).filterMap Around.code?

theorem published_around (a : Around μ) (moves : List (Move μ)) :
    published (.around a :: moves) = a.code?.toList ++ published moves := by
  cases hcode : a.code? <;> simp [published, arounds, hcode]

/-- What happens around the search happens in one list after another. -/
theorem arounds_append (moves moves' : List (Move μ)) :
    arounds (moves ++ moves') = arounds moves ++ arounds moves' := by
  induction moves with
  | nil => rfl
  | cons move moves ih =>
    cases move with
    | poll => exact ih
    | around a => exact congrArg (a :: ·) ih

theorem published_append (moves moves' : List (Move μ)) :
    published (moves ++ moves') = published moves ++ published moves' := by
  rw [published, arounds_append, List.filterMap_append, published, published]

end Search

/-! ## Searches

A poll takes all that is on the seat, or all up to the code that the filter gives a value for.  A
search that has found something does no more. -/

/-- A search, and the scene around it. -/
structure Search (σ μ β : Type) extends Search.Scene μ where
  /-- What the filter remembers. -/
  memory : σ
  /-- The value that has been found. -/
  found : Option β := none

namespace Search

variable {ticket : Nat} {s s' k k' : Search σ μ β} {moves moves' front back : List (Move μ)}

/-- A search is polled until it has found a value. -/
def poll (filter : σ → μ → Option β × σ) (ticket : Nat) (s : Search σ μ β) : Search σ μ β :=
  match s.found with
  | some _ => s
  | none =>
    let ((found, memory), board) := s.board.nextMatchingFrom ticket filter s.memory
    { s with board, memory, found }

/-- The moves lead from one to the other. -/
inductive Course (filter : σ → μ → Option β × σ) (ticket : Nat) :
    Search σ μ β → List (Move μ) → Search σ μ β → Prop
  | nil {s : Search σ μ β} : Course filter ticket s [] s
  | poll {s k : Search σ μ β} {moves : List (Move μ)}
    (h : Course filter ticket (s.poll filter ticket) moves k) :
    Course filter ticket s (.poll :: moves) k
  | around {s k : Search σ μ β} {a : Around μ} {scene : Scene μ} {moves : List (Move μ)}
    (hacts : a.Acts ticket s.toScene scene)
    (h : Course filter ticket { s with toScene := scene } moves k) :
    Course filter ticket s (.around a :: moves) k

/-- Courses that meet make one course. -/
theorem Course.append (h : Course filter ticket s moves s')
    (h' : Course filter ticket s' moves' k) :
    Course filter ticket s (moves ++ moves') k := by
  induction h with
  | nil => exact h'
  | poll _ ih => exact .poll (ih h')
  | around hacts _ ih => exact .around hacts (ih h')

/-- A course passes through some state between any two of its parts. -/
theorem Course.split (h : Course filter ticket s (moves ++ moves') k) :
    ∃ s₁, Course filter ticket s moves s₁ ∧ Course filter ticket s₁ moves' k := by
  induction moves generalizing s with
  | nil => exact ⟨s, .nil, h⟩
  | cons move moves ih =>
    cases h with
    | poll h =>
      obtain ⟨s₁, hfront, hback⟩ := ih h
      exact ⟨s₁, .poll hfront, hback⟩
    | around hacts h =>
      obtain ⟨s₁, hfront, hback⟩ := ih h
      exact ⟨s₁, .around hacts hfront, hback⟩

/-- A poll asks the filter about the codes on the seat, and about all of them if it gives no
value. -/
theorem asked_poll (filter : σ → μ → Option β × σ) (hseated : s.board.Seated ticket)
    (hbegun : s.found = none) :
    (s.poll filter ticket).board.Seated ticket ∧ ∃ taken,
      s.board.unread ticket = taken ++ (s.poll filter ticket).board.unread ticket ∧
      Asked filter s.memory taken (s.poll filter ticket).found (s.poll filter ticket).memory ∧
      ((s.poll filter ticket).found = none → (s.poll filter ticket).board.unread ticket = []) := by
  obtain ⟨taken, hcodes, hasked, hall⟩ :=
    Board.asked_firstMatchFrom filter s.memory (s.board.unread ticket)
  simp only [poll, hbegun, Board.nextMatchingFrom]
  rw [Board.unread_setUnread hseated]
  exact ⟨hseated.setUnread ticket _, taken, hcodes, hasked, hall⟩

theorem poll_of_found {value : β} (h : s.found = some value) :
    s.poll filter ticket = s := by rw [poll, h]

/-- However often it was polled before, the codes that were on the seat and those that came have
been asked about or are still there. -/
theorem Course.asked {memory : σ} {taken : List μ} (h : Course filter ticket s moves k)
    (hseated : s.board.Seated ticket) (hasked : Asked filter memory taken s.found s.memory) :
    k.board.Seated ticket ∧ ∃ more,
      s.board.unread ticket ++ published moves = more ++ k.board.unread ticket ∧
      Asked filter memory (taken ++ more) k.found k.memory := by
  -- every poll moves codes from the seat to those that were taken before it
  induction h generalizing taken with
  | nil => exact ⟨hseated, [], List.append_nil _, by rwa [List.append_nil]⟩
  | @poll s k moves _ ih =>
    cases hfound : s.found with
    | some value =>
      rw [poll_of_found hfound] at ih
      exact ih hseated hasked
    | none =>
      obtain ⟨hseated', one, hcodes, hone, -⟩ := asked_poll filter hseated hfound
      rw [hfound] at hasked
      obtain ⟨hk, more, hmore, hall⟩ := ih hseated' (hasked.append hone)
      refine ⟨hk, one ++ more, ?_, by rwa [List.append_assoc] at hall⟩
      rw [hcodes, List.append_assoc, List.append_assoc, ← hmore]
      rfl
  | @around s k a scene moves hacts _ ih =>
    obtain ⟨hseated', hunread⟩ := hacts.unread hseated
    obtain ⟨hk, more, hmore, hall⟩ := ih hseated' hasked
    refine ⟨hk, more, ?_, hall⟩
    rw [published_around, ← List.append_assoc, ← hunread]
    exact hmore

/-- Where a search that is begun has got to when it is polled. -/
theorem Course.polled (h : Course filter ticket s moves k) (hseated : s.board.Seated ticket)
    (hbegun : s.found = none) :
    (k.poll filter ticket).board.Seated ticket ∧ ∃ taken,
      s.board.unread ticket ++ published moves =
        taken ++ (k.poll filter ticket).board.unread ticket ∧
      Asked filter s.memory taken (k.poll filter ticket).found (k.poll filter ticket).memory ∧
      ((k.poll filter ticket).found = none → (k.poll filter ticket).board.unread ticket = []) := by
  have hnothing : Asked filter s.memory [] s.found s.memory := by
    rw [hbegun]
    exact .nothing
  obtain ⟨hseated', taken, hcodes, hasked⟩ := h.asked hseated hnothing
  -- a search that has found its code reads nothing more
  cases hfound : k.found with
  | some value =>
    rw [poll_of_found hfound]
    exact ⟨hseated', taken, hcodes, hasked, fun hnone => by cases hfound.symm.trans hnone⟩
  | none =>
    obtain ⟨hseated'', one, hone, hasked', hall⟩ := asked_poll filter hseated' hfound
    rw [hfound] at hasked
    refine ⟨hseated'', taken ++ one, ?_, hasked.append hasked', hall⟩
    rw [hcodes, hone, List.append_assoc]

/-- While it is not polled, codes pile up on the seat. -/
theorem Course.unpolled (h : Course filter ticket s moves k) (hseated : s.board.Seated ticket)
    (hmoves : .poll ∉ moves) : k.found = s.found ∧ k.memory = s.memory ∧
      k.board.unread ticket = s.board.unread ticket ++ published moves := by
  induction h with
  | nil => exact ⟨rfl, rfl, (List.append_nil _).symm⟩
  | poll => exact absurd List.mem_cons_self hmoves
  | around hacts _ ih =>
    obtain ⟨hseated', hunread⟩ := hacts.unread hseated
    obtain ⟨hfound, hmemory, hmore⟩ := ih hseated' fun hmem => hmoves (List.mem_cons_of_mem _ hmem)
    refine ⟨hfound, hmemory, ?_⟩
    rw [hmore, hunread, published_around, List.append_assoc]

/-- What others read is what they would read without the search. -/
theorem Course.elsewhere_eq (h : Course filter ticket s moves k) : k.toScene.elsewhere ticket =
    (arounds moves).foldl (fun scene a => a.elsewhere ticket scene)
      (s.toScene.elsewhere ticket) := by
  induction h with
  | nil => rfl
  | @poll s k moves _ ih =>
    have hpoll : (s.poll filter ticket).toScene.elsewhere ticket = s.toScene.elsewhere ticket := by
      cases hfound : s.found with
      | some value => rw [poll_of_found hfound]
      | none => simp only [Search.poll, hfound, Board.nextMatchingFrom, Scene.elsewhere,
          Board.setUnread_setUnread]
    rw [ih, hpoll, arounds]
  | around hacts _ ih => rw [ih, hacts.elsewhere, arounds, List.foldl_cons]

/-- **A search takes its prefix and nothing else.**  The codes that are on the seat when it is
begun, and those that are published until it is polled for the last time, are the ones that the
filter has been asked about, each of them once and in order (one that writes down what it is asked
about has written down these), and those left behind the one that it gave a value for.  These are
still on the seat, and whatever came after them.  While the filter gives no value none is left: the
search waits for the next code.  A poll is `nextMatching` if the filter remembers nothing.

What others read is the same as beside any other search, with whatever filter and whenever it is
polled, or without one, as long as the same happens around it and no code is lost. -/
theorem search_takes_its_prefix (hseated : s.board.Seated ticket) (hbegun : s.found = none)
    (hback : .poll ∉ back) (h : Course filter ticket s (front ++ .poll :: back) k) :
    (∃ taken left, s.board.unread ticket ++ published front = taken ++ left ∧
      Asked filter s.memory taken k.found k.memory ∧
      (∀ written, Asked (noting filter) (s.memory, written) taken k.found
        (k.memory, written ++ taken)) ∧
      k.board.unread ticket = left ++ published back ∧ (k.found = none → left = [])) ∧
    (∀ f : μ → Option β, filter = (fun memory code => (f code, memory)) →
      ((s.poll filter ticket).found, (s.poll filter ticket).board) =
        s.board.nextMatching ticket f) ∧
    ∀ {σ' β' : Type} {filter' : σ' → μ → Option β' × σ'} {s' k' : Search σ' μ β'}
      {moves : List (Move μ)},
      Course filter' ticket s' moves k' → s'.toScene.elsewhere ticket = s.toScene.elsewhere ticket →
      arounds moves = arounds (front ++ .poll :: back) →
      k'.received = k.received ∧ ∀ other, other ≠ ticket →
      k'.board.unread other = k.board.unread other := by
  refine ⟨?_, fun f hf => ?_, fun {_ _ _ _ k' _} h' hsame harounds => ?_⟩
  · obtain ⟨s₁, hfront, hrest⟩ := h.split
    obtain ⟨hseated', taken, hcodes, hasked, hall⟩ := hfront.polled hseated hbegun
    cases hrest with
    | poll hrest =>
      obtain ⟨hfound, hmemory, hunread⟩ := hrest.unpolled hseated' hback
      rw [hfound, hmemory]
      exact ⟨taken, _, hcodes, hasked, hasked.noting, hunread, hall⟩
  · subst hf
    simp only [poll, hbegun, Board.nextMatchingFrom_eq_nextMatching]
  · -- both courses look the same elsewhere, and what others read is elsewhere
    have hscene : k'.toScene.elsewhere ticket = k.toScene.elsewhere ticket := by
      rw [h'.elsewhere_eq, h.elsewhere_eq, hsame, harounds]
    have hboard : k'.board.setUnread ticket [] = k.board.setUnread ticket [] :=
      congrArg Scene.board hscene
    have hreceived : (k'.toScene.elsewhere ticket).received =
        (k.toScene.elsewhere ticket).received := by rw [hscene]
    refine ⟨hreceived, fun other hne => ?_⟩
    rw [← Board.unread_setUnread_of_ne k'.board hne [], hboard,
      Board.unread_setUnread_of_ne k.board hne []]

/-- Codes on the seat, between two polls, and behind the one that is found; the filter writes down
what it is asked about, and somebody else reads one of the codes meanwhile. -/
theorem search_takes_its_prefix_even :
    let filter : List Nat → Nat → Option Nat × List Nat := fun asked code =>
      (if code % 2 = 0 then some code else none, asked ++ [code])
    let s : Search (List Nat) Nat Nat :=
      { board := { issued := 2, seats := [(0, [1]), (1, [])] }, memory := [] }
    let k : Search (List Nat) Nat Nat :=
      { board := { issued := 2, seats := [(0, [5, 6]), (1, [4, 5, 6])] }, received :=
        [(1, 3)], memory := [1, 3, 4],
        found := some 4 }
    let front : List (Move Nat) :=
      [.poll, .around (.publish 3), .around (.publish 4), .around (.read 1), .around (.publish 5)]
    let back : List (Move Nat) := [.around (.publish 6)]
    (s.board.Seated 0 ∧ s.found = none ∧ .poll ∉ back ∧
      Course filter 0 s (front ++ .poll :: back) k) ∧
      ∃ taken left, [1] ++ [3, 4, 5] = taken ++ left ∧ Asked filter [] taken (some 4) [1, 3, 4] ∧
      [5, 6] = left ++ [6] := by
  intro filter s k front back
  have hback : .poll ∉ back := by
    intro hmem
    cases List.mem_singleton.mp hmem
  have hcourse : Course filter 0 s (front ++ .poll :: back) k :=
    .poll (.around (.publish rfl)
      (.around (.publish rfl) (.around (.read (by decide)) (.around (.publish rfl)
      (.poll (.around (.publish rfl) .nil))))))
  have hseated : s.board.Seated 0 := rfl
  obtain ⟨⟨taken, left, hcodes, hasked, -, hunread, -⟩, -⟩ :=
    search_takes_its_prefix hseated rfl hback hcourse
  exact ⟨⟨hseated, rfl, hback, hcourse⟩, taken, left, hcodes, hasked, hunread⟩

end Search

end Cellular
