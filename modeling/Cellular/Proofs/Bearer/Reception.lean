import Cellular.Proofs.Bearer.Bookkeeping
import Cellular.Proofs.Bearer.Handover
import Cellular.Proofs.Bench.Backlog
import Cellular.Proofs.Bench.Reading
import Cellular.Proofs.Procedure.Modest
import Cellular.Proofs.Vendor.Seats
/-!
# Registration codes reach the bearer

One party keeps a seat, reads every code and hands the registration codes to the bearer.  A report
may force the bearer down, and while the vendor takes its time over that, the party is suspended:
codes are published, other parties act on the bearer, sit down, read and leave, and the codes that
the party has to read pile up.  A `Reception` is all of that: an interplay on a bearer that is
mounted on a bench, the party that reads, and what it has handed over.  Nothing restricts the order
of incidents.

The law (`registrations_in_order`) is that what was handed over is at every moment what was
published since the party sat down, without the codes that are not about registration and without
those that it has yet to read.  So nothing is lost, repeated or put in another order, however long
the party is suspended; and when it is not, nothing is left to read.

The invariant is that books on the bench are right that tell what the party has read (`Attuned`).
Everyone else keeps those books (`served_honoured`), and the party opens new ones whenever it has
read a code.

There are two sides to the invariant.  The books say what was published and what the party has read
of it, and they are kept by everybody: by the vendor's calls, since they use seats of their own; by
others, since they do not use the ticket of the party; and by the party when it reads.  The other
side is what has been handed over.  It is a function of what has been read, so nothing has to be
kept about it beyond the equation.
-/

namespace Cellular

/-- The registration statuses that were published since the history had that length. -/
def Bench.registrationsSince (since : Nat) (b : Bench) : List RegistrationStatus :=
  (b.publishedSince since).filterMap Urc.registration?

/-- Vendor calls that use seats of their own keep the books that tell what somebody else has
read. -/
theorem served_honoured {ν : Type} {connect disconnect : Operation ν Unit}
    (hconnect : connect.KeepsToItself) (hdisconnect : disconnect.KeepsToItself)
    (reader : Option Reading) :
    (Mounted.books connect disconnect (Served reader)).Honoured
      fun m m' => ∀ held, Served reader held m.bench → Served reader held m'.bench :=
  Mounted.books_honoured (Served.stewardship reader)
    (fun h => h.fewer fun _ hmem => nomatch hmem) hconnect hdisconnect

/-! ## A poll of the party

A poll reads codes until one of them makes it wait, or none is left.  After each code the books are
exchanged for those with one code more (`booksAfter`). -/

namespace Listener

variable {ν : Type} {connect disconnect : Operation ν Unit} {since : Nat} {done : List Urc}
  {waits : List (ActionWait (Mounted.backend connect disconnect).Call)} {b : Bearer (Mounted ν)}
    {ticket : Nat}

/-- The books when the party with that ticket has read those codes. -/
abbrev booksAfter (connect disconnect : Operation ν Unit) (ticket since : Nat) (done : List Urc) :
    (Mounted.backend connect disconnect).Pact :=
  Mounted.books connect disconnect (Served (some ⟨ticket, since, done⟩))

/-- Reading codes keeps the books, as long as they tell what has been read; and the registration
statuses among that are handed over. -/
theorem read_shared (hconnect : connect.KeepsToItself)
    (hdisconnect : disconnect.KeepsToItself) {n : Nat}
    (h : b.Shared (booksAfter connect disconnect ticket since done) waits) :
    ∃ codes, (read (Mounted.backend connect disconnect) Mounted.board ticket n b).1.Shared
        (booksAfter connect disconnect ticket since (done ++ codes))
        ((read (Mounted.backend connect disconnect) Mounted.board ticket n b).2.wait?.toList ++
          waits) ∧
      handedReading (Mounted.backend connect disconnect) Mounted.board ticket n b =
        codes.filterMap Urc.registration? := by
  induction n generalizing b done with
  | zero =>
    refine ⟨[], ?_, rfl⟩
    rw [List.append_nil]
    exact h
  | succ n ih =>
    rw [read, handedReading]
    cases hunread : b.vendor.bench.board.unread ticket with
    | nil =>
      have hnext : (Mounted.board.get b.vendor).next ticket = (none, b.vendor.bench.board) :=
        Board.next_of_nil hunread
      rw [hnext]
      refine ⟨[], ?_, rfl⟩
      rw [List.append_nil]
      exact h
    | cons code codes =>
      have hnext : (Mounted.board.get b.vendor).next ticket =
          (some code, b.vendor.bench.board.setUnread ticket codes) := Board.next_of_cons hunread
      have hread : Bearer.Shared (booksAfter connect disconnect ticket since (done ++ [code])) waits
          { b with vendor :=
            Mounted.board.set (b.vendor.bench.board.setUnread ticket codes) b.vendor } :=
        h.rebook fun held hheld => hheld.readNext hunread
      rw [hnext]
      dsimp only
      cases hcode : code.registration? with
      | none =>
        -- a code that is not about registration is read, and that is all
        obtain ⟨more, hmore, hhanded⟩ := ih hread
        refine ⟨code :: more, ?_, ?_⟩
        · rw [List.append_cons]
          exact hmore
        · rw [List.filterMap_cons_none hcode]
          exact hhanded
      | some status =>
        -- the bearer takes in the report, and may begin to disconnect on account of it
        have hcall := hread.call (served_honoured hconnect hdisconnect _) (.registered status)
        dsimp only
        rcases hresult : Bearer.call (Mounted.backend connect disconnect)
            { b with vendor :=
              Mounted.board.set (b.vendor.bench.board.setUnread ticket codes) b.vendor }
            (.registered status) with ⟨c, wait | result⟩ <;> rw [hresult] at hcall
        · refine ⟨[code], hcall, ?_⟩
          rw [List.filterMap_cons_some hcode]
          rfl
        · obtain ⟨more, hmore, hhanded⟩ := ih hcall
          refine ⟨code :: more, ?_, ?_⟩
          · rw [List.append_cons]
            exact hmore
          · rw [List.filterMap_cons_some hcode]
            exact congrArg (status :: ·) hhanded

/-- A poll of the party, which may have been suspended. -/
theorem poll_shared (hconnect : connect.KeepsToItself) (hdisconnect : disconnect.KeepsToItself)
    (most : Bearer (Mounted ν) → Nat)
    {listener : Listener (Mounted.backend connect disconnect).Call}
    (h : b.Shared (booksAfter connect disconnect ticket since done)
      (listener.wait?.toList ++ waits)) :
    ∃ codes, (listener.poll (Mounted.backend connect disconnect) Mounted.board ticket
      most b).1.Shared
        (booksAfter connect disconnect ticket since (done ++ codes))
        ((listener.poll (Mounted.backend connect disconnect) Mounted.board ticket most
          b).2.wait?.toList ++ waits) ∧
      listener.handed (Mounted.backend connect disconnect) Mounted.board ticket most b =
        codes.filterMap Urc.registration? := by
  cases listener with
  | listening => exact read_shared hconnect hdisconnect h
  | applying wait =>
    -- the code that was being dealt with first; the books do not change before the next one is read
    have hwait : b.Shared (booksAfter connect disconnect ticket since done) (wait :: waits) := h
    have hresume := hwait.resume (served_honoured hconnect hdisconnect _)
    rw [poll, handed]
    rcases hresult : b.resume (Mounted.backend connect disconnect) wait with ⟨c, wait' | result⟩ <;>
      rw [hresult] at hresume
    · refine ⟨[], ?_, rfl⟩
      rw [List.append_nil]
      exact hresume
    · exact read_shared hconnect hdisconnect hresume

end Listener

/-! ## Receptions

Incidents are moves of the interplay, things that are done on the bench outside it, and two of the
party that reads: it sits down, and it is polled. -/

/-- What other parties and the surroundings do on the bench. -/
inductive Outside where
  /-- The modem emits a line. -/
  | line (line : Bytes)
  /-- The clock is set. -/
  | clock (now : Nat)
  /-- Somebody sits down. -/
  | sit
  /-- The holder of a ticket reads a code. -/
  | read (ticket : Nat)
  /-- The holder of a ticket leaves. -/
  | leave (ticket : Nat)

/-- The ticket that is used. -/
def Outside.ticket? : Outside → Option Nat
  | .read ticket | .leave ticket => some ticket
  | _ => none

/-- Something is done on the bench. -/
def Bench.undergo (b : Bench) : Outside → Bench
  | .line line => b.emit line
  | .clock now => { b with now }
  | .sit => b.subscribe.1
  | .read ticket => { b with board := (b.board.next ticket).2 }
  | .leave ticket => b.unsubscribe ticket

/-- Who does not use the ticket of the party that reads keeps its books. -/
theorem Served.undergo {reader : Option Reading} {held : List Nat} {b : Bench}
    (h : Served reader held b) {o : Outside} (hspares : ∀ r ∈ reader, o.ticket? ≠ some r.ticket) :
    Served reader held (b.undergo o) := by
  cases o with
  | line line => exact (Served.published reader held).emit h line
  | clock now => exact h.frame rfl rfl
  | sit =>
    show Served reader held b.subscribe.1
    unfold Bench.subscribe
    split
    · rename_i seat board hseat
      exact (h.subscribe hseat).fewer fun _ => List.mem_cons_of_mem _
    · exact h
  | read ticket =>
    -- whoever reads here is not the reader, so its backlog stays as it is
    have hother : ∀ r ∈ reader, r.ticket ≠ ticket :=
      fun r hr heq => hspares r hr (congrArg some heq.symm)
    show Served reader held { b with board := (b.board.next ticket).2 }
    cases hunread : b.board.unread ticket with
    | nil =>
      rw [Board.next_of_nil hunread]
      exact h
    | cons code codes =>
      rw [Board.next_of_cons hunread]
      exact h.setUnread hother codes
  | leave ticket => exact h.unsubscribe fun r hr heq => hspares r hr (congrArg some heq.symm)

/-- The party that reads codes and hands them over. -/
structure Reader (κ : Type) where
  /-- The ticket of its seat. -/
  ticket : Nat
  /-- How long the history was when it sat down. -/
  since : Nat
  /-- Where it stands. -/
  listener : Listener κ := .listening
  /-- What it has handed over. -/
  handed : List RegistrationStatus := []

/-- Parties that act on a bearer on a bench, and the one that reads codes, once it has sat down. -/
structure Reception {ν : Type} (be : Backend (Mounted ν)) where
  interplay : Interplay be
  reader : Option (Reader be.Call) := none

/-- What may happen between two waits. -/
inductive Incident where
  /-- An action is called. -/
  | call (action : Action)
  /-- The action called at a position is polled. -/
  | poll (i : Nat)
  /-- The party that carries pending disconnects out is polled. -/
  | watch
  /-- Something is done on the bench. -/
  | outside (o : Outside)
  /-- The party that reads sits down. -/
  | attend
  /-- The party that reads is polled. -/
  | listen

/-- Somebody else than the party that reads makes a report. -/
def Incident.IsReport (i : Incident) : Prop := ∃ report : Report, i = .call report.action

namespace Reception

section

variable {ν : Type} {be : Backend (Mounted ν)}

/-- A bearer on which nobody has acted, on a bench. -/
def start (be : Backend (Mounted ν)) (allowRoaming mixed : Bool) (grace : Nat) (m : Mounted ν) :
    Reception be :=
  { interplay := .start be allowRoaming mixed grace m }

/-- The bench. -/
def bench (r : Reception be) : Bench := r.interplay.bearer.vendor.bench

/-- The bench is replaced by another. -/
def onBench (r : Reception be) (bench : Bench) : Interplay be :=
  r.interplay.step (.drift { r.interplay.bearer.vendor with bench })

/-- The party that reads sits down, where a seat is free.  It does so once. -/
def attend (r : Reception be) : Reception be :=
  match r.reader, r.bench.board.subscribe? with
  | none, some (ticket, board) =>
    { interplay := r.onBench { r.bench with board }
      reader := some { ticket, since := r.bench.history.length } }
  | _, _ => r

/-- The party that reads is polled. -/
def listen (r : Reception be) : Reception be :=
  match r.reader with
  | none => r
  | some reader =>
    let most b := Connection.readable b.vendor.bench reader.ticket
    let handed := reader.listener.handed be Mounted.board reader.ticket most r.interplay.bearer
    let (bearer, listener) :=
      reader.listener.poll be Mounted.board reader.ticket most r.interplay.bearer
    { interplay := { r.interplay with bearer }
      reader := some { reader with listener, handed := reader.handed ++ handed } }

/-- Let something happen.  Nobody else uses the ticket of the party that reads. -/
def step (r : Reception be) : Incident → Reception be
  | .call action => { r with interplay := r.interplay.step (.call action) }
  | .poll i => { r with interplay := r.interplay.step (.poll i) }
  | .watch => { r with interplay := r.interplay.step .watch }
  | .outside o =>
    if r.reader.any fun reader => o.ticket? = some reader.ticket then r
    else { r with interplay := r.onBench (r.bench.undergo o) }
  | .attend => r.attend
  | .listen => r.listen

/-- Let a list of things happen, one after another. -/
def run (r : Reception be) (incidents : List Incident) : Reception be := incidents.foldl step r

/-- How far the party that reads is, if there is one and it has read those codes. -/
def reading (r : Reception be) (done : List Urc) : Option Reading :=
  r.reader.map fun reader => ⟨reader.ticket, reader.since, done⟩

end

/-! ## Nothing is lost

The party may sit down at any moment, and before that there is nothing to say.  From then on every
incident keeps the books right. -/

section

variable {ν : Type} {connect disconnect : Operation ν Unit}
  {r : Reception (Mounted.backend connect disconnect)}

/-- The books are right that tell what the party has read, and it has handed over the registration
statuses among that. -/
def Attuned (r : Reception (Mounted.backend connect disconnect)) : Prop :=
  ∃ done, r.interplay.bearer.Shared (Mounted.books connect disconnect (Served (r.reading done)))
      (r.interplay.waits ++ (r.reader.bind (·.listener.wait?)).toList) ∧
    ∀ reader ∈ r.reader, reader.handed = done.filterMap Urc.registration?

/-- At the beginning nobody reads. -/
theorem attuned_start (allowRoaming mixed : Bool) (grace : Nat) {m : Mounted ν}
    (hsound : m.bench.board.Sound) :
    (start (Mounted.backend connect disconnect) allowRoaming mixed grace m).Attuned := by
  have hserved : Served none [] m.bench := ⟨hsound, fun _ h => (nomatch h), fun _ h => (nomatch h)⟩
  exact ⟨[], ⟨none, ⟨hserved, rfl⟩, .refl _⟩, fun _ h => nomatch h⟩

/-- The party that sits down has read nothing yet. -/
theorem Attuned.attend (h : r.Attuned) : r.attend.Attuned := by
  unfold Reception.attend
  split
  · rename_i ticket board hreader hseat
    obtain ⟨done, hshared, -⟩ := h
    rw [reading, hreader] at hshared
    refine ⟨[], ?_, ?_⟩
    · exact hshared.rebook (m := { r.interplay.bearer.vendor with bench := { r.bench with board } })
        fun held hheld => hheld.attend hseat
    · rintro reader ⟨⟩
      rfl
  · exact h

/-- A poll of the party leaves the books right. -/
theorem Attuned.listen (hconnect : connect.KeepsToItself) (hdisconnect : disconnect.KeepsToItself)
    (h : r.Attuned) :
    r.listen.Attuned := by
  unfold Reception.listen
  split
  · exact h
  · rename_i reader hreader
    obtain ⟨done, hshared, hhanded⟩ := h
    rw [reading, hreader] at hshared
    obtain ⟨codes, hpolled, hmore⟩ := Listener.poll_shared hconnect hdisconnect
      (fun b => Connection.readable b.vendor.bench reader.ticket)
      (hshared.perm List.perm_append_comm)
    refine ⟨done ++ codes, hpolled.perm List.perm_append_comm, ?_⟩
    rintro reader' ⟨⟩
    show reader.handed ++ _ = (done ++ codes).filterMap Urc.registration?
    rw [hmore, hhanded reader hreader, List.filterMap_append]

/-- **Every incident leaves the books right.** -/
theorem Attuned.step (hconnect : connect.KeepsToItself) (hdisconnect : disconnect.KeepsToItself)
    (h : r.Attuned) (i : Incident) : (r.step i).Attuned := by
  -- a move of the interplay keeps the books as soon as what happens aside does
  have hmove : ∀ m : Move (Mounted ν),
      (∀ vendor, m = .drift vendor → ∀ done held, Served (r.reading done) held r.bench →
        Served (r.reading done) held vendor.bench) →
      ({ r with interplay := r.interplay.step m } : Reception
        (Mounted.backend connect disconnect)).Attuned := by
    intro m hdrift
    obtain ⟨done, hshared, hhanded⟩ := h
    have hstep :=
      Interplay.shared_step (served_honoured hconnect hdisconnect (r.reading done)) hshared m
      fun vendor hm => hdrift vendor hm done
    exact ⟨done, hstep, hhanded⟩
  cases i with
  | call action => exact hmove (.call action) fun _ hm => nomatch hm
  | poll i => exact hmove (.poll i) fun _ hm => nomatch hm
  | watch => exact hmove .watch fun _ hm => nomatch hm
  | outside o =>
    show Attuned (if _ then _ else _)
    split
    · exact h
    · rename_i hspares
      -- the one thing that others may not do is to give up the reader's seat
      refine hmove (.drift { r.interplay.bearer.vendor with bench := r.bench.undergo o }) ?_
      rintro _ ⟨⟩ done held hheld
      refine hheld.undergo fun reading hreading heq => hspares ?_
      obtain ⟨reader, hreader, rfl⟩ := Option.map_eq_some_iff.mp hreading
      rw [hreader, Option.any_some, decide_eq_true_eq]
      exact heq
  | attend => exact h.attend
  | listen => exact h.listen hconnect hdisconnect

/-- So does every list of incidents. -/
theorem Attuned.run (hconnect : connect.KeepsToItself) (hdisconnect : disconnect.KeepsToItself)
    (h : r.Attuned) (incidents : List Incident) : (r.run incidents).Attuned := by
  induction incidents generalizing r with
  | nil => exact h
  | cons i incidents ih => exact ih (h.step hconnect hdisconnect i)

/-- What was published is what was handed over and what has yet to be read, as far as it is about
registration. -/
theorem Attuned.split (h : r.Attuned) {reader : Reader (Mounted.backend connect disconnect).Call}
    (hreader : r.reader = some reader) :
    r.bench.registrationsSince reader.since =
      reader.handed ++ (r.bench.board.unread reader.ticket).filterMap Urc.registration? := by
  obtain ⟨done, hshared, hhanded⟩ := h
  obtain ⟨held, hserved⟩ := hshared.booked
  have hcurrent :=
    hserved.current ⟨reader.ticket, reader.since, done⟩ (by rw [reading, hreader]; rfl)
  rw [Bench.registrationsSince, hhanded reader hreader, ← List.filterMap_append]
  exact congrArg (List.filterMap Urc.registration?) hcurrent.split

/-- When the party has been polled and does not wait for the bearer, nothing is left to read. -/
theorem listen_caught_up {reader : Reader (Mounted.backend connect disconnect).Call}
    (hreader : r.listen.reader = some reader) (hidle : reader.listener.wait? = none) :
    r.listen.bench.board.unread reader.ticket = [] := by
  cases hbefore : r.reader with
  | none =>
    rw [listen, hbefore] at hreader
    exact absurd (hbefore.symm.trans hreader) (by simp)
  | some before =>
    rcases hpoll : before.listener.poll (Mounted.backend connect disconnect)
      Mounted.board before.ticket
      (fun b => Connection.readable b.vendor.bench before.ticket) r.interplay.bearer with
        ⟨bearer, listener⟩
    simp only [listen, hbefore, hpoll] at hreader ⊢
    obtain rfl := Option.some.inj hreader
    -- a listener that goes on listening has read until nothing was left
    cases listener with
    | listening => exact Listener.caught_up before.ticket hpoll
    | applying wait => cases hidle

end

/-! ## What the tracker hears

If others make reports too, the tracker hears them as well, in between.  So this part is about
interleavings in which only the party reports. -/

section

variable {ν : Type} {be : Backend (Mounted ν)} {r : Reception be}

/-- What the party that reads has handed over, if there is one. -/
def handed (r : Reception be) : List RegistrationStatus := (r.reader.map Reader.handed).getD []

/-- The tracker has heard what the party that reads has handed over, and nothing else. -/
def Heard (t : Tracker) (r : Reception be) : Prop :=
  r.interplay.bearer.tracker = t.hear3gpp r.handed

/-- What others do does not reach the tracker. -/
theorem Heard.step {t : Tracker} (h : Heard t r) {i : Incident} (hi : ¬ i.IsReport) :
    Heard t (r.step i) := by
  cases i with
  | call action =>
    have hreport : ∀ report : Report, action ≠ report.action :=
      fun report heq => hi ⟨report, congrArg Incident.call heq⟩
    exact (r.interplay.bearer.call_tracker be action hreport).trans h
  | poll i =>
    have hsame : (r.interplay.step (.poll i)).bearer.tracker = r.interplay.bearer.tracker := by
      rw [Interplay.step]
      split
      · rename_i action wait _
        exact (Bearer.resume_leaves r.interplay.bearer wait).tracker
      · rfl
    exact hsame.trans h
  | watch => exact (r.interplay.executor.poll_tracker r.interplay.bearer).trans h
  | outside o =>
    show Heard t (if _ then _ else _)
    split <;> exact h
  | attend =>
    show Heard t r.attend
    unfold attend
    split
    · rename_i hreader _
      have hnothing : r.handed = [] := by rw [handed, hreader]; rfl
      rw [Heard, hnothing] at h
      exact h
    · exact h
  | listen =>
    show Heard t r.listen
    unfold listen
    split
    · exact h
    · rename_i reader hreader
      have hbefore : r.handed = reader.handed := by rw [handed, hreader]; rfl
      rw [Heard, hbefore] at h
      -- the statuses of one poll are heard behind those that were handed over before
      have hpoll := reader.listener.poll_tracker be Mounted.board reader.ticket
        (fun b => Connection.readable b.vendor.bench reader.ticket) r.interplay.bearer
      rw [h] at hpoll
      refine hpoll.trans ?_
      show _ = t.hear3gpp (reader.handed ++ _)
      rw [Tracker.hear3gpp, Tracker.hear3gpp, Tracker.hear3gpp, List.foldl_append]

/-- So the tracker has heard what was handed over. -/
theorem Heard.run {t : Tracker} (h : Heard t r) {incidents : List Incident}
    (hincidents : ∀ i ∈ incidents, ¬ i.IsReport) :
    Heard t (r.run incidents) := by
  induction incidents generalizing r with
  | nil => exact h
  | cons i incidents ih =>
    obtain ⟨hfirst, hrest⟩ := List.forall_mem_cons.mp hincidents
    exact ih (h.step hfirst) hrest

end

/-- **Registration codes reach the bearer in order, each of them once.**  Whatever the modem emits,
whoever acts on the bearer, and however long a forced disconnect suspends the party that reads: what
it has handed over is at every moment a prefix of the registration statuses that were published
since it sat down, and all of them if it has nothing left to read.  When it has been polled and is
not suspended, it has nothing left to read.  What it hands over is what the tracker hears. -/
theorem registrations_in_order {ν : Type} {connect disconnect : Operation ν Unit}
    (hconnect : connect.KeepsToItself) (hdisconnect : disconnect.KeepsToItself)
    (allowRoaming mixed : Bool) (grace : Nat) {m : Mounted ν} (hsound : m.bench.board.Sound)
    (incidents : List Incident) {reader : Reader (Mounted.backend connect disconnect).Call}
    (hreader : ((start (Mounted.backend connect disconnect) allowRoaming mixed grace m).run
      incidents).reader =
      some reader) :
    let r := (start (Mounted.backend connect disconnect) allowRoaming mixed grace m).run incidents
    reader.handed <+: r.bench.registrationsSince reader.since ∧
      (r.bench.board.unread reader.ticket = [] →
        reader.handed = r.bench.registrationsSince reader.since) ∧
      (∀ later, r.listen.reader = some later → later.listener.wait? = none →
        r.listen.bench.board.unread later.ticket = []) ∧
      ((∀ i ∈ incidents, ¬ i.IsReport) →
        r.interplay.bearer.tracker = Tracker.hear3gpp { allowRoaming, mixed } reader.handed) := by
  intro r
  have hattuned : r.Attuned :=
    (attuned_start allowRoaming mixed grace hsound).run hconnect hdisconnect incidents
  -- what was published is what was handed over and then what is still unread
  have hsplit : r.bench.registrationsSince reader.since =
      reader.handed ++ (r.bench.board.unread reader.ticket).filterMap Urc.registration? :=
      hattuned.split hreader
  refine ⟨?_, ?_, ?_, ?_⟩
  · exact ⟨_, hsplit.symm⟩
  · intro hnothing
    rw [hsplit, hnothing, List.filterMap_nil, List.append_nil]
  · intro later hlater hidle
    exact listen_caught_up hlater hidle
  · intro hincidents
    -- without other reports the tracker hears the readings and nothing else
    have hstart : Heard { allowRoaming, mixed }
        (start (Mounted.backend connect disconnect) allowRoaming mixed grace m) :=
      rfl
    have hheard : Heard { allowRoaming, mixed } r := hstart.run hincidents
    have hhanded : r.handed = reader.handed := by rw [handed, hreader]; rfl
    rw [Heard, hhanded] at hheard
    exact hheard

end Reception

/-! ## The bearers that vendors have

The law asks of the vendor's operations that they use seats of their own.  That is so of both kinds
of bearers. -/

namespace Samsung.Bearer

theorem dial_keepsToItself : Operation.KeepsToItself (discard dial) := fun p =>
  have hdial : (discard dial).Abides (OneSeat asksCause) (fun _ _ _ => True) p [] :=
    .discard (p.dial_accounts.mono fun _ _ _ _ => trivial)
  Procedure.Abides.mono (fun _ _ _ => trivial) (fun _ _ _ => trivial) hdial

theorem disconnect_keepsToItself : disconnect.KeepsToItself := fun p =>
  Procedure.Abides.mono (fun _ _ _ => trivial) (fun _ _ _ => trivial) p.disconnect_abides

end Samsung.Bearer

namespace Xmm.Bearer

open Operation

/-- Steps in a row take no seat. -/
theorem runSteps_modest (severity : Severity) (commands : List (Command Unit)) :
    (runSteps severity commands).Modest := by
  induction commands with
  | nil => exact .pure ()
  | cons c commands ih => exact (Modest.discard (.step true severity c)).bind fun _ => ih

theorem dial_keepsToItself : dial.KeepsToItself := by
  have hdial : dial.Modest :=
    .bind .get fun b => .bind (runSteps_modest .soft _) fun _ => runSteps_modest .fatal _
  exact hdial.keepsTo

theorem disconnect_keepsToItself : disconnect.KeepsToItself := by
  have hdisconnect : disconnect.Modest := .bind .get fun b => .discard (.step false .soft _)
  exact hdisconnect.keepsTo

end Xmm.Bearer

namespace Reception

/-- The context is brought up at once, and down within 10 ms. -/
def leaving : Bench where
  script := [{ answer := .ok [] }, { answer := .ok [] },
    { before := [Bytes.ofString "%IPDPACT: 3,1"], answer := .ok [] },
    { delay := some 10, answer := .ok [] }]

/-- A bearer that must not roam, on that bench. -/
def homely : Reception Samsung.Bearer.backend :=
  start Samsung.Bearer.backend false false 0 ⟨leaving, Samsung.Bearer.sample⟩

/-- The bearer is connected and roams, and two more reports come while it is brought down. -/
def whileLeaving : List Incident :=
  [.attend, .call .connect, .outside (.line (Bytes.ofString "+CREG: 5")), .listen,
    .outside (.line (Bytes.ofString "+CEREG: 1")), .outside (.line (Bytes.ofString "+CGREG: 1"))]

/-- Then it is down, and the party that reads goes on. -/
def onceDown : List Incident :=
  whileLeaving ++ [.outside (.clock 10), .outside (.line (Bytes.ofString "%IPDPACT: 3,0")), .listen]

/-- One of three statuses while the party is suspended, and all of them when it is not any more. -/
theorem registrations_in_order_leaving :
    (discard Samsung.Bearer.dial).KeepsToItself ∧ Samsung.Bearer.disconnect.KeepsToItself ∧
      leaving.board.Sound ∧
      (∃ reader, (homely.run whileLeaving).reader = some reader ∧ reader.listener.wait?.isSome ∧
        reader.handed = [.roaming] ∧
        reader.handed <+: (homely.run whileLeaving).bench.registrationsSince reader.since ∧
        (homely.run whileLeaving).bench.registrationsSince reader.since =
          [.roaming, .home, .home]) ∧
      ∃ reader, (homely.run onceDown).reader = some reader ∧ reader.listener.wait? = none ∧
        reader.handed = [.roaming, .home, .home] ∧
        reader.handed = (homely.run onceDown).bench.registrationsSince reader.since := by
  have hdial := Samsung.Bearer.dial_keepsToItself
  have hdisconnect := Samsung.Bearer.disconnect_keepsToItself
  have hsound : leaving.board.Sound := Board.sound_empty
  refine ⟨hdial, hdisconnect, hsound, ?_, ?_⟩
  · obtain ⟨hpart, -⟩ := registrations_in_order hdial hdisconnect false false 0
      (m := ⟨leaving, Samsung.Bearer.sample⟩) hsound whileLeaving rfl
    exact ⟨_, rfl, rfl, rfl, hpart, rfl⟩
  · obtain ⟨-, hall, -⟩ := registrations_in_order hdial hdisconnect false false 0
      (m := ⟨leaving, Samsung.Bearer.sample⟩) hsound onceDown rfl
    exact ⟨_, rfl, rfl, rfl, hall rfl⟩

end Reception

end Cellular
