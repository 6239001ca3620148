import Cellular.Proofs.Bearer.History
/-!
# What vendor calls leave standing

A connection stands once a vendor's connect has succeeded, until another vendor call succeeds
(`isStanding`).  Most vendor calls that are to bring a connection down find one that stands.  The
exception is the undoing of a connect that the vendor gave up, which finds none: it strays, unless
it is refused at once (`Strays`).  There is no other way to stray (`Course.excused`).

Both are statements about histories, and in both the place where a call begins splits the history.
So they are compared with one more event at the end: most events change nothing (`strays_aside`),
the end of a call changes nothing unless it is a refusal, and a call that begins may stray.  Along a
course a vendor call is to bring something down in the phases of leaving and of undoing, and in the
former the connection stands (`Phase.Grounded`).
-/

namespace Cellular

/-! ## Connections that stand

Whether a connection stands is read off the history: it stands from a vendor's connect that
succeeded until a vendor's disconnect that did.  A call goes astray that is to bring down what
does not stand. -/

/-- Whether the connection stands after an event, given whether it stood before. -/
def BearerEvent.standing (before : Bool) : BearerEvent → Bool
  | .ended errand (.ok ()) => errand = .connect
  | _ => before

/-- Whether the connection stands that did not at first. -/
def isStanding (es : List BearerEvent) : Bool := es.foldl BearerEvent.standing false

/-- A vendor call is refused since no seat is free. -/
def BearerEvent.refusal (errand : Errand) : BearerEvent :=
  .ended errand (.error (.subscriberOverflow .subscribers))

/-- Some vendor call is to bring down a connection that does not stand, and is not refused at
once. -/
def Strays (es : List BearerEvent) : Prop :=
  ∃ before errand after, es = before ++ .began errand :: after ∧ errand ≠ .connect ∧
    isStanding before = false ∧
    after.head? ≠ some (.refusal errand)

/-- Every vendor call that is to bring down a connection that does not stand undoes a connect that
the vendor gave up. -/
def Excused (es : List BearerEvent) : Prop :=
  ∀ before errand after, es = before ++ .began errand :: after → errand ≠ .connect →
    isStanding before = false →
    errand = .undo ∧
      ∃ earlier, before = earlier ++ [.ended .connect (.error .cancelled), .status .disconnecting]

variable {es fs : List BearerEvent} {e : BearerEvent} {errand : Errand}

theorem isStanding_append (es fs : List BearerEvent) :
    isStanding (es ++ fs) = fs.foldl BearerEvent.standing (isStanding es) := List.foldl_append

/-- A call that begins does not change it. -/
theorem isStanding_began (es : List BearerEvent) (errand : Errand) :
    isStanding (es ++ [.began errand]) = isStanding es := by
  rw [isStanding_append]
  rfl

/-- Nor does what happens aside. -/
theorem isStanding_aside (he : e.IsAside) : isStanding (es ++ [e]) = isStanding es := by
  rw [isStanding_append]
  cases e with
  | began | ended => exact absurd he id
  | status | asked | expired => rfl

/-! ## Calls that stray

A refusal comes right behind the beginning of its call, so whether a call that begins strays is only
known with the next event. -/

/-- What a list begins with, a longer one does. -/
theorem head?_ne_of_append {after : List BearerEvent} (h : (after ++ fs).head? ≠ some e) :
    after.head? ≠ some e := by
  cases after with
  | nil => simp
  | cons x after => exact h

/-- A history that strays still does after more events, unless these begin with a refusal. -/
theorem Strays.append (h : Strays es)
    (hfs : ∀ errand, errand ≠ .connect → fs.head? ≠ some (.refusal errand)) :
    Strays (es ++ fs) := by
  obtain ⟨before, errand, after, rfl, hne, hdown, hhead⟩ := h
  refine ⟨before, errand, after ++ fs, by simp, hne, hdown, ?_⟩
  cases after with
  | nil => exact hfs errand hne
  | cons x after => exact hhead

/-- A history that strays with its last event: either it did before, or the call that strays has
just begun. -/
theorem Strays.cases_concat (h : Strays (es ++ [e])) :
    Strays es ∨ ∃ errand, e = .began errand ∧ errand ≠ .connect ∧ isStanding es = false := by
  obtain ⟨before, errand, after, heq, hne, hdown, hhead⟩ := h
  rcases List.eq_nil_or_concat after with rfl | ⟨after, x, rfl⟩
  · obtain ⟨rfl, hlast⟩ := List.append_inj' heq rfl
    exact .inr ⟨errand, List.singleton_inj.mp hlast, hne, hdown⟩
  · rw [List.concat_eq_append, ← List.cons_append, ← List.append_assoc] at heq
    obtain ⟨rfl, -⟩ := List.append_inj' heq rfl
    rw [List.concat_eq_append] at hhead
    exact .inl ⟨before, errand, after, rfl, hne, hdown, head?_ne_of_append hhead⟩

/-- Events with which no call begins and none is refused make no difference. -/
theorem strays_concat_iff (hbegan : ∀ errand, e ≠ .began errand)
    (hrefused : ∀ errand, errand ≠ .connect → e ≠ .refusal errand) :
    Strays (es ++ [e]) ↔ Strays es := by
  refine ⟨fun h => ?_, fun h => h.append fun errand hne => by simpa using hrefused errand hne⟩
  rcases h.cases_concat with h | ⟨errand, rfl, -⟩
  · exact h
  · exact absurd rfl (hbegan errand)

/-- What happens aside makes no difference. -/
theorem strays_aside (he : e.IsAside) : Strays (es ++ [e]) ↔ Strays es := by
  refine strays_concat_iff ?_ ?_
  · rintro errand rfl
    exact he
  · rintro errand - rfl
    exact he

/-- Nor does the end of a call that is not refused. -/
theorem strays_ended_iff {result : Except Error Unit}
    (h : errand ≠ .connect → result ≠ .error (.subscriberOverflow .subscribers)) :
    Strays (es ++ [.ended errand result]) ↔ Strays es := by
  refine strays_concat_iff (by simp) fun errand' hne heq => ?_
  obtain ⟨rfl, hresult⟩ := BearerEvent.ended.inj heq
  exact h hne hresult

/-- A connect that begins does not stray. -/
theorem strays_began_connect : Strays (es ++ [.began .connect]) ↔ Strays es := by
  refine ⟨fun h => ?_, fun h => h.append (by simp [BearerEvent.refusal])⟩
  rcases h.cases_concat with h | ⟨errand, hbegan, hne, -⟩
  · exact h
  · exact absurd (BearerEvent.began.inj hbegan).symm hne

/-- A call that is refused at once does not stray. -/
theorem Strays.of_refused (h : Strays (es ++ [.began errand, .refusal errand])) : Strays es := by
  obtain ⟨before, errand', after, heq, hne, hdown, hhead⟩ := h
  have htwo : es ++ [.began errand, .refusal errand] =
      (es ++ [.began errand]) ++ [.refusal errand] := by simp
  rw [htwo] at heq
  rcases List.eq_nil_or_concat after with rfl | ⟨after, x, rfl⟩
  · obtain ⟨-, hlast⟩ := List.append_inj' heq rfl
    exact absurd (List.singleton_inj.mp hlast) (by simp [BearerEvent.refusal])
  · rw [List.concat_eq_append] at heq hhead
    rw [← List.cons_append, ← List.append_assoc] at heq
    obtain ⟨hinit, hlast⟩ := List.append_inj' heq rfl
    obtain rfl := List.singleton_inj.mp hlast
    rcases List.eq_nil_or_concat after with rfl | ⟨after, y, rfl⟩
    · -- the call that strays would be the one that is refused
      obtain ⟨-, hbegan⟩ := List.append_inj' hinit rfl
      obtain rfl := BearerEvent.began.inj (List.singleton_inj.mp hbegan)
      exact absurd rfl hhead
    · rw [List.concat_eq_append] at hinit hhead
      rw [← List.cons_append, ← List.append_assoc] at hinit
      obtain ⟨rfl, -⟩ := List.append_inj' hinit rfl
      exact ⟨before, errand', after, rfl, hne, hdown, head?_ne_of_append (head?_ne_of_append hhead)⟩

/-- A call that is to bring down what does not stand strays, until it is refused. -/
theorem strays_began (hne : errand ≠ .connect) (hdown : isStanding es = false) :
    Strays (es ++ [.began errand]) :=
  ⟨es, errand, [], rfl, hne, hdown, by simp⟩

/-! ## Along a course

What excuses a call is what came right before it: the vendor's connect ended as cancelled, and the
bearer began to go down. -/

/-- One more event is excused if it begins no call, or one that is excused. -/
theorem Excused.concat (h : Excused es)
    (he : ∀ errand, e = .began errand → errand ≠ .connect → isStanding es = false →
      errand = .undo ∧
        ∃ earlier, es = earlier ++ [.ended .connect (.error .cancelled), .status .disconnecting]) :
    Excused (es ++ [e]) := by
  intro before errand after heq hne hdown
  rcases List.eq_nil_or_concat after with rfl | ⟨after, x, rfl⟩
  · obtain ⟨rfl, hlast⟩ := List.append_inj' heq rfl
    exact he errand (List.singleton_inj.mp hlast) hne hdown
  · rw [List.concat_eq_append, ← List.cons_append, ← List.append_assoc] at heq
    obtain ⟨hes, -⟩ := List.append_inj' heq rfl
    exact h before errand after hes hne hdown

/-- Events with which no vendor call begins. -/
theorem Excused.append (h : Excused es) (hfs : ∀ e ∈ fs, ∀ errand, e ≠ .began errand) :
    Excused (es ++ fs) := by
  induction fs generalizing es with
  | nil => rwa [List.append_nil]
  | cons e fs ih =>
    have hfirst : Excused (es ++ [e]) :=
      h.concat fun errand he => absurd he (hfs e List.mem_cons_self errand)
    simpa using ih hfirst fun e' he' => hfs e' (List.mem_cons_of_mem _ he')

/-- A bearer that is up, or on its way down from there, has a connection that stands. -/
def Phase.Grounded (p : Phase) (es : List BearerEvent) : Prop :=
  p = .up ∨ (∃ forced, p = .leaving forced) → isStanding es = true

/-- In all other phases nothing has to stand. -/
theorem Phase.Grounded.of_not {p : Phase} (hup : p ≠ .up)
    (hleaving : ∀ forced, p ≠ .leaving forced) :
    p.Grounded es := by
  rintro (h | ⟨forced, h⟩)
  · exact absurd h hup
  · exact absurd h (hleaving forced)

/-- **Only the undoing of a connect that the vendor gave up can stray.** -/
theorem Beat.excused {p q : Phase} {own : Option Errand}
    {out : Poll (Option Errand) (Except Error Unit)} (h : Beat p own fs q out) (hp : p.Grounded es)
    (hes : Excused es) : q.Grounded (es ++ fs) ∧ Excused (es ++ fs) := by
  cases h with
  | rest | stay => simpa using ⟨hp, hes⟩
  | connect =>
    have hstatus : Excused (es ++ [.status .connecting]) := hes.append (by simp)
    refine ⟨.of_not (by simp) (by simp), ?_⟩
    simpa using hstatus.concat fun errand he hne => absurd (BearerEvent.began.inj he).symm hne
  | connected => exact ⟨fun _ => by rw [isStanding_append]; rfl, hes.append (by simp)⟩
  | failed => exact ⟨.of_not (by simp) (by simp), hes.append (by simp)⟩
  | @undo p r hconnect hr =>
    have hstatus : Excused (es ++ [.ended .connect r, .status .disconnecting]) :=
      hes.append (by simp)
    refine ⟨.of_not (by simp) (by simp), ?_⟩
    -- after a vendor's connect that succeeded the connection stands, so only a cancelled one strays
    have hundo := hstatus.concat (e := .began .undo) fun errand he hne hdown => by
      refine ⟨(BearerEvent.began.inj he).symm, es, ?_⟩
      rcases hr with rfl | ⟨rfl, -⟩
      · rfl
      · rw [isStanding_append] at hdown
        cases hdown
    simpa using hundo
  | undone => exact ⟨.of_not (by simp) (by simp), hes.append (by simp)⟩
  | ignored | expired =>
    refine ⟨fun h => ?_, hes.append (by simp)⟩
    rw [isStanding_append, hp h]
    rfl
  | cancel => exact ⟨.of_not (by simp) (by simp), hes.append (by simp)⟩
  | cancelForced => exact ⟨.of_not (by simp) (by simp), hes.append (by simp)⟩
  | @leave forced =>
    -- the bearer is up, so the connection stands and its disconnect does not stray
    have hup : isStanding (es ++ [.asked forced, .status .disconnecting]) = true := by
      rw [isStanding_append, hp (.inl rfl)]
      rfl
    have hstatus : Excused (es ++ [.asked forced, .status .disconnecting]) := hes.append (by simp)
    have hbegan := hstatus.concat (e := .began (.leaving forced)) fun errand _ _ hdown =>
      absurd hdown (by simp [hup])
    refine ⟨fun _ => ?_, by simpa using hbegan⟩
    rw [isStanding_append, hp (.inl rfl)]
    rfl
  | left => exact ⟨.of_not (by simp) (by simp), hes.append (by simp)⟩
  | stayed =>
    refine ⟨fun _ => ?_, hes.append (by simp)⟩
    rw [isStanding_append, hp (.inr ⟨false, rfl⟩)]
    rfl

/-- Along a course every call is excused. -/
theorem Course.excused {p q : Phase} (h : Course p fs q) (hp : p.Grounded es) (hes : Excused es) :
    Excused (es ++ fs) := by
  induction h generalizing es with
  | nil => simpa using hes
  | cons hb _ ih =>
    obtain ⟨hq, hes'⟩ := hb.excused hp hes
    simpa using ih hq hes'

/-- So it is in the whole history of a bearer that was down at first. -/
theorem Course.excused_start {q : Phase} (h : Course .down fs q) : Excused fs := by
  have hnil : Excused [] := fun before _ _ heq => by simp at heq
  have hdown : Phase.down.Grounded [] := .of_not (by simp) (by simp)
  exact h.excused hdown hnil

end Cellular
