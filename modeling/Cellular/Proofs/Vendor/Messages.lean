import Cellular.Proofs.Procedure.Session
import Cellular.Proofs.Procedure.Soft
import Cellular.Proofs.Reply.Support
import Cellular.Vendor.Cinterion
/-!
# How new messages are indicated

A Cinterion modem is asked what it has for new messages, and then told what to do about them.  There
is a list of preferences for each field of the command (`preferences`), and what is chosen is the
first of them that the modem offers (`Preferred`).

In a session the modem's offer is the last reply that could be read (`lastOffer`), whatever came in
between.  A choice either sends one command or, where a field is without anything that is preferred,
fails over the first such field (`Chooses`).

The reply that counts is far away from the command that depends on it: any number of calls may come
in between.  So the invariant of a session compares what the modem remembers with the list of all
calls (`Knows`).  It does not say that both are equal, since a reply is remembered as lists of
numbers; it says that the lists have just the numbers that the reply offers, which is all that a
choice looks at.
-/

namespace Cellular.Cinterion

open Operation MessageIndicationSupport

/-! ## The choice of settings

The four preferences are different lists, but a field is chosen in one way.  So the lemmas are about
a field at some place, and the four are gone through only where the command is put together. -/

/-- The fields that have to be chosen, with what is preferred for each. -/
def preferences : List (String × List Nat) :=
  [("mode", [2, 1]), ("mt", [2, 1]), ("bm", [2, 0]), ("ds", [2, 1, 0])]

variable {offered : Nat → Nat → Prop} {preference listed : List Nat} {field : String} {n : Nat}

/-- It is offered, and nothing that is preferred to it is. -/
def Preferred (offered : Nat → Prop) (preference : List Nat) (n : Nat) : Prop :=
  ∃ earlier later, preference = earlier ++ n :: later ∧ offered n ∧ ∀ m ∈ earlier, ¬ offered m

/-- Something that would do for the field at that place is offered. -/
def Met (offered : Nat → Nat → Prop) (place : Nat) : Prop :=
  ∃ field preference, preferences[place]? = some (field, preference) ∧
    ∃ n ∈ preference, offered place n

/-- What is picked is offered, and preferred to all else that is. -/
theorem pick_eq_ok (h : pick field listed preference = .ok n) :
    Preferred (· ∈ listed) preference n := by
  unfold pick at h
  split at h
  · rename_i found hfind
    obtain rfl := Except.ok.inj h
    obtain ⟨hlisted, earlier, later, hsplit, hearlier⟩ := List.find?_eq_some_iff_append.mp hfind
    exact ⟨earlier, later, hsplit, List.contains_iff_mem.mp hlisted,
      fun m hm => by simpa using hearlier m hm⟩
  · cases h

/-- Nothing is picked if nothing that is preferred is offered. -/
theorem pick_eq_error {e : Error} (h : pick field listed preference = .error e) :
    (∀ n ∈ preference, n ∉ listed) ∧ e = .unsupported (.messageSetting field preference) := by
  unfold pick at h
  split at h
  · cases h
  · rename_i hfind
    exact ⟨fun n hn => by simpa using List.find?_eq_none.mp hfind n hn, (Except.error.inj h).symm⟩

theorem Preferred.met {place : Nat} (hplace : preferences[place]? = some (field, preference))
    (h : Preferred (offered place) preference n) : Met offered place := by
  obtain ⟨earlier, later, rfl, hn, -⟩ := h
  exact ⟨field, _, hplace, n, List.mem_append_right _ List.mem_cons_self, hn⟩

/-- A field with nothing that would do is not. -/
theorem not_met {place : Nat} (hplace : preferences[place]? = some (field, preference))
    (h : ∀ n ∈ preference, ¬ offered place n) : ¬ Met offered place := by
  rintro ⟨field', preference', hplace', n, hn, hoffered⟩
  obtain ⟨-, rfl⟩ := Prod.mk.inj (Option.some.inj (hplace.symm.trans hplace'))
  exact h n hn hoffered

/-- The command with these values as it goes over the line. -/
def settingLine (mode mt bm ds : Nat) (flushes : Bool) : String :=
  "+CNMI=" ++ mode.repr ++ "," ++ mt.repr ++ "," ++ bm.repr ++ "," ++ ds.repr ++
    if flushes then ",1" else ""

/-- The command as it goes over the line. -/
theorem setMessageIndication_body (mode mt bm ds : Nat) (flushes : Bool) :
    (Command.setMessageIndication mode mt bm ds (if flushes then some 1 else none)).request.body =
      settingLine mode mt bm ds flushes := by
  have hone : Nat.repr 1 = "1" := rfl
  rw [← String.toList_inj]
  cases flushes <;>
    simp [Command.setMessageIndication, Command.set, Request.body, Request.argumentText,
      Argument.text, settingLine, hone]

/-- How a choice among what is offered goes. -/
inductive Setting (offered : Nat → Nat → Prop) : Except Error (Command Unit) → Prop
  /-- There is a field for which nothing that would do is offered, and no such field before it. -/
  | unmet (place : Nat) {field : String} {preference : List Nat}
    (hplace : preferences[place]? = some (field, preference))
    (hunmet : ¬ Met offered place) (hbefore : ∀ i < place, Met offered i) :
    Setting offered (.error (.unsupported (.messageSetting field preference)))
  /-- Every field gets what is preferred, and buffered messages are passed on if the modem can do
  that. -/
  | chosen {mode mt bm ds : Nat} {flushes : Bool} (hmode : Preferred (offered 0) [2, 1] mode)
    (hmt : Preferred (offered 1) [2, 1] mt) (hbm : Preferred (offered 2) [2, 0] bm)
    (hds : Preferred (offered 3) [2, 1, 0] ds) (hflushes : flushes = true ↔ offered 4 1) :
    Setting offered (.ok (.setMessageIndication mode mt bm ds (if flushes then some 1 else none)))

/-- The numbers that the settings have for the field at that place. -/
def Has (s : MessageIndicationSupport) (place n : Nat) : Prop := n ∈ s.lists[place]?.getD []

/-- One more field is chosen, or it is the first that cannot be. -/
theorem pick_setting (s : MessageIndicationSupport) (place : Nat)
    (hplace : preferences[place]? = some (field, preference))
    (hlisted : s.lists[place]? = some listed) (hbefore : ∀ i < place, Met (Has s) i) :
    (∃ n, pick field listed preference = .ok n ∧ Preferred (Has s place) preference n ∧
      ∀ i < place + 1, Met (Has s) i) ∨
      ∃ e, pick field listed preference = .error e ∧ Setting (Has s) (.error e) := by
  -- what the offer has at this place is the list that is picked from
  have hhas : Has s place = (· ∈ listed) := by
    funext n
    rw [Has, hlisted, Option.getD_some]
  cases hpick : pick field listed preference with
  | ok n =>
    have hpreferred : Preferred (Has s place) preference n := by
      rw [hhas]
      exact pick_eq_ok hpick
    refine .inl ⟨n, rfl, hpreferred, fun i hi => ?_⟩
    rcases Nat.lt_succ_iff_lt_or_eq.mp hi with hearlier | rfl
    · exact hbefore i hearlier
    · exact hpreferred.met hplace
  | error e =>
    obtain ⟨hnone, rfl⟩ := pick_eq_error hpick
    have hunmet : ∀ n ∈ preference, ¬ Has s place n := by
      rw [hhas]
      exact hnone
    exact .inr ⟨_, rfl, .unmet place hplace (not_met hplace hunmet) hbefore⟩

/-- The fields are chosen one after another. -/
theorem messageSetting_setting (s : MessageIndicationSupport) :
    Setting (Has s) (messageSetting s) := by
  unfold messageSetting
  -- field by field, each with those before it met; the first that fails is the result
  rcases pick_setting s 0 rfl rfl nofun with ⟨mode, hmode, hmodes, hone⟩ | ⟨e, he, hunmet⟩
  · rcases pick_setting s 1 rfl rfl hone with ⟨mt, hmt, hmts, htwo⟩ | ⟨e, he, hunmet⟩
    · rcases pick_setting s 2 rfl rfl htwo with ⟨bm, hbm, hbms, hthree⟩ | ⟨e, he, hunmet⟩
      · rcases pick_setting s 3 rfl rfl hthree with ⟨ds, hds, hdss, -⟩ | ⟨e, he, hunmet⟩
        · rw [hmode, hmt, hbm, hds]
          exact .chosen hmodes hmts hbms hdss List.contains_iff_mem
        · rw [hmode, hmt, hbm, he]
          exact hunmet
      · rw [hmode, hmt, he]
        exact hunmet
    · rw [hmode, he]
      exact hunmet
  · rw [he]
    exact hunmet

/-! ## One call

A question replaces what is remembered by what its reply says, if that can be read.  A choice looks
at what is remembered and changes nothing. -/

variable {p : Performance Cinterion Unit}

/-- How a question about the settings goes. -/
inductive Asks (p : Performance Cinterion Unit) : Prop
  /-- The reply is read, and the settings are remembered. -/
  | learns {reply : Bytes} {s : MessageIndicationSupport} (hanswer : p.answer = .ok reply)
    (hread : read? reply = some s)
    (hresult : p.result = .ok ()) (hafter : p.after = { p.before with messages := some s })
  /-- The reply cannot be read, which is put up with. -/
  | unread (hanswer : Command.testMessageIndication.Unreadable p.answer)
    (hresult : p.result = .ok ()) (hafter : p.after = p.before)
  /-- There is no reply. -/
  | fails {cause : LinkError} (hanswer : p.answer = .error cause) (hcause : cause ≠ .parse)
    (hresult : p.result = .error (.ofLink cause)) (hafter : p.after = p.before)

/-- A question goes in one of these ways. -/
theorem checkMessaging_performs (h : checkMessaging.Performs p) :
    p.sent = ["+CNMI=?"] ∧ Asks p := by
  obtain ⟨b', hruns, hhistory⟩ := h.runs
  obtain ⟨before, b₁, hanswered, hrest⟩ := hruns.bind_attempt
  have hcomes := Command.testMessageIndication.comes p.answer
  have hanswer : p.occasion.bench.turn.answer = p.answer := rfl
  rw [hanswer] at hrest
  generalize Command.testMessageIndication.outcome p.answer = x at hcomes hrest
  cases hcomes with
  | read hreply hread =>
    obtain ⟨hresult, hafter, rfl⟩ := hrest.modify
    exact ⟨Performance.sent_eq hhistory (.cons hanswered .nil), .learns hreply hread hresult hafter⟩
  | unreadable hunreadable =>
    obtain ⟨hresult, hafter, rfl⟩ := hrest.pure
    exact ⟨Performance.sent_eq hhistory (.cons hanswered .nil), .unread hunreadable hresult hafter⟩
  | @failed cause hcause hother =>
    -- a failure is passed on, unlike a reply that cannot be read
    have hfailure := Error.isCommandFailure_ofLink hother
    split at hrest
    · contradiction
    · rename_i message hmessage
      rw [Except.error.inj hmessage] at hfailure
      cases hfailure
    · rename_i e _ he
      obtain rfl := Except.error.inj he
      obtain ⟨hresult, hafter, rfl⟩ := hrest.throw
      exact ⟨Performance.sent_eq hhistory (.cons hanswered .nil),
        .fails hcause hother hresult hafter⟩

/-- A choice sends one command, or fails over what it remembers. -/
theorem enableMessaging_performs (h : enableMessaging.Performs p) :
    p.after = p.before ∧
      match messageSetting (p.before.messages.getD {}) with
      | .ok c => p.sent = [c.request.body] ∧ p.result = c.outcome p.answer
      | .error e => p.sent = [] ∧ p.result = .error e := by
  obtain ⟨b', hruns, hhistory⟩ := h.runs
  rcases hruns.bind_get.bind with ⟨c, _, b₁, hlift, hsend⟩ | ⟨e, hresult, hlift⟩
  · obtain ⟨hc, rfl, rfl⟩ := hlift.liftExcept
    obtain ⟨hafter, hresult, before, hanswered⟩ := hsend.send
    rw [← hc]
    exact ⟨hafter, Performance.sent_eq hhistory (.cons hanswered .nil), hresult⟩
  · obtain ⟨he, hafter, rfl⟩ := hlift.liftExcept
    rw [← he]
    exact ⟨hafter, Performance.sent_nothing hhistory rfl, hresult⟩

/-! ## A session

The offer is found by looking back through the calls, for the last question whose reply could be
read. -/

/-- What a session is made of. -/
inductive Call where
  /-- Ask what the modem has for new messages. -/
  | ask
  /-- Choose what to do about them. -/
  | choose
  deriving DecidableEq

namespace Call

/-- What is done about it. -/
def perform : Call → Operation Cinterion Unit
  | ask => checkMessaging
  | choose => enableMessaging

/-- The reply, if it is one to a question and it can be read. -/
def offer? : Call × Performance Cinterion Unit → Option Bytes
  | (ask, p) =>
    match p.answer with
    | .ok reply => if (read? reply).isSome then some reply else none
    | .error _ => none
  | (choose, _) => none

end Call

variable {past : List (Call × Performance Cinterion Unit)} {last : Option Bytes}
  {messages : Option MessageIndicationSupport}

/-- The last reply to a question that could be read. -/
def lastOffer (past : List (Call × Performance Cinterion Unit)) : Option Bytes :=
  (past.filterMap Call.offer?).getLast?

/-- One more call makes the last offer if it makes one. -/
theorem lastOffer_append (past : List (Call × Performance Cinterion Unit))
    (e : Call × Performance Cinterion Unit) :
    lastOffer (past ++ [e]) = (Call.offer? e).or (lastOffer past) := by
  rw [lastOffer, List.filterMap_append]
  cases h : Call.offer? e with
  | none => simp [h, lastOffer]
  | some reply => simp [h]

/-- A reply that cannot be read is no offer. -/
theorem offer?_eq_none (h : ∀ reply, p.answer = .ok reply → read? reply = none) :
    Call.offer? (.ask, p) = none := by
  rw [Call.offer?]
  cases hanswer : p.answer with
  | ok reply => simp [h reply hanswer]
  | error cause => rfl

/-- What that reply has for the field at that place. -/
def Offered (last : Option Bytes) (place n : Nat) : Prop :=
  ∃ reply, last = some reply ∧ Offers reply place n

/-- What is remembered is what that reply says. -/
inductive Knows : Option Bytes → Option MessageIndicationSupport → Prop
  | nothing : Knows none none
  | read {reply : Bytes} {s : MessageIndicationSupport} (h : read? reply = some s) :
      Knows (some reply) (some s)

/-- What is remembered has just the numbers that were offered. -/
theorem Knows.has_iff (h : Knows last messages) {place : Nat} :
    Has (messages.getD {}) place n ↔ Offered last place n := by
  cases h with
  | nothing => simp [Has, lists_empty, Offered]
  | read hread =>
    rw [Has, Option.getD_some, mem_lists_iff hread]
    simp [Offered]

/-- Every call leaves it so. -/
theorem Knows.step {call : Call} (hp : call.perform.Performs p)
    (h : Knows (lastOffer past) p.before.messages) :
    Knows (lastOffer (past ++ [(call, p)])) p.after.messages := by
  rw [lastOffer_append]
  cases call with
  | choose =>
    rw [(enableMessaging_performs hp).1]
    exact h
  | ask =>
    cases (checkMessaging_performs hp).2 with
    | @learns reply found hanswer hread _ hafter =>
      have hoffer : Call.offer? (.ask, p) = some reply := by simp [Call.offer?, hanswer, hread]
      rw [hoffer, hafter]
      exact .read hread
    | unread hunread _ hafter =>
      -- a reply that cannot be read offers nothing, so the last offer stays
      have hnone : Call.offer? (.ask, p) = none := offer?_eq_none fun reply hreply => by
        rcases hunread with hparse | ⟨reply', hreply', hread⟩
        · cases hreply.symm.trans hparse
        · obtain rfl := Except.ok.inj (hreply.symm.trans hreply')
          exact hread
      rw [hnone, hafter]
      exact h
    | fails hanswer _ _ hafter =>
      have hnone : Call.offer? (.ask, p) = none :=
        offer?_eq_none fun reply hreply => nomatch hreply.symm.trans hanswer
      rw [hnone, hafter]
      exact h

theorem place_lt {place : Nat} (h : preferences[place]? = some (field, preference)) : place < 4 :=
  (List.getElem?_eq_some_iff.mp h).1

/-- Before a reply could be read nothing is offered. -/
theorem not_met_none (place : Nat) : ¬ Met (Offered none) place := by
  rintro ⟨field, preference, -, n, -, reply, hreply, -⟩
  cases hreply

/-- What a choice among that does: one command with what is preferred of it, or nothing but fail
over the first field. -/
structure Chooses (offered : Nat → Nat → Prop) (p : Performance Cinterion Unit) : Prop where
  sent : ∀ text ∈ p.sent, p.sent = [text] ∧
    ∃ mode mt bm ds flushes, text = settingLine mode mt bm ds flushes ∧
    Preferred (offered 0) [2, 1] mode ∧ Preferred (offered 1) [2, 1] mt ∧
    Preferred (offered 2) [2, 0] bm ∧
    Preferred (offered 3) [2, 1, 0] ds ∧ (flushes = true ↔ offered 4 1) ∧
    p.result = (Command.setMessageIndication mode mt bm ds
      (if flushes then some 1 else none)).outcome p.answer
  nothing : p.sent = [] ↔ ∃ place < 4, ¬ Met offered place
  unmet : ∀ place field preference, preferences[place]? = some (field, preference) →
    ¬ Met offered place →
    (∀ i < place, Met offered i) →
      p.result = .error (.unsupported (.messageSetting field preference))

/-- A choice takes what is preferred of the last offer. -/
theorem enableMessaging_chooses (hp : enableMessaging.Performs p)
    (h : Knows last p.before.messages) :
    Chooses (Offered last) p := by
  have hoffered : Has (p.before.messages.getD {}) = Offered last := by
    funext place n
    exact propext h.has_iff
  have hsetting := messageSetting_setting (p.before.messages.getD {})
  have hcall := (enableMessaging_performs hp).2
  rw [hoffered] at hsetting
  -- from here on a setting counts only by what it has of the offer
  generalize messageSetting (p.before.messages.getD {}) = x at hsetting hcall
  cases hsetting with
  | unmet place hplace hunmet hbefore =>
    obtain ⟨hsent, hresult⟩ := hcall
    refine ⟨fun text htext => ?_, iff_of_true hsent ⟨place, place_lt hplace, hunmet⟩,
      fun place' _ _ hplace' hunmet' hbefore' => ?_⟩
    · rw [hsent] at htext
      cases htext
    · -- there is only one first field that is not met
      obtain rfl : place' = place := by
        rcases Nat.lt_trichotomy place' place with hless | rfl | hmore
        · exact absurd (hbefore _ hless) hunmet'
        · rfl
        · exact absurd (hbefore' _ hmore) hunmet
      obtain ⟨rfl, rfl⟩ := Prod.mk.inj (Option.some.inj (hplace.symm.trans hplace'))
      exact hresult
  | @chosen mode mt bm ds flushes hmode hmt hbm hds hflushes =>
    obtain ⟨hsent, hresult⟩ := hcall
    rw [setMessageIndication_body] at hsent
    have hmet : ∀ place < 4, Met (Offered last) place := fun place hplace => by
      match place, hplace with
      | 0, _ => exact hmode.met rfl
      | 1, _ => exact hmt.met rfl
      | 2, _ => exact hbm.met rfl
      | 3, _ => exact hds.met rfl
    refine ⟨fun text htext => ?_, ?_, fun place _ _ hplace hunmet _ =>
      absurd (hmet place (place_lt hplace)) hunmet⟩
    · rw [hsent] at htext
      obtain rfl := List.mem_singleton.mp htext
      exact ⟨hsent, mode, mt, bm, ds, flushes, rfl, hmode, hmt, hbm, hds, hflushes, hresult⟩
    · refine iff_of_false (by rw [hsent]; nofun) ?_
      rintro ⟨place, hplace, hunmet⟩
      exact hunmet (hmet place hplace)

/-- A question succeeds if it is answered at all, and it changes nothing if the reply cannot be
read. -/
theorem Asks.eq_ok_iff (h : Asks p) :
    p.result = .ok () ↔ ∀ cause, p.answer = .error cause → cause = .parse := by
  cases h with
  | learns hanswer _ hresult =>
    exact iff_of_true hresult fun cause hcause => nomatch hanswer.symm.trans hcause
  | unread hunread hresult =>
    refine iff_of_true hresult fun cause hcause => ?_
    rcases hunread with hparse | ⟨reply, hreply, -⟩
    · exact Except.error.inj (hcause.symm.trans hparse)
    · cases hcause.symm.trans hreply
  | fails hanswer hother hresult =>
    refine iff_of_false (by rw [hresult]; nofun) fun hall => hother (hall _ hanswer)

/-- A question whose reply cannot be read changes nothing. -/
theorem Asks.unchanged (h : Asks p) (hunread : ∀ reply, p.answer = .ok reply → read? reply = none) :
    p.after = p.before := by
  cases h with
  | learns hanswer hread => cases hread.symm.trans (hunread _ hanswer)
  | unread _ _ hafter => exact hafter
  | fails _ _ _ hafter => exact hafter

/-- **Settings are taken from the modem's offer.**  In every session of questions and choices, what
a choice sends is one command, and each of its values is offered for its field by the last reply
that could be read, while nothing that is preferred to it is; buffered messages are passed on just
if that is offered.  If there is a field for which nothing that would do is offered, or no reply
could be read yet, nothing is sent, and the choice fails over the first such field.  A question
whose reply cannot be read, or that fails, changes nothing about the offer. -/
theorem settings_taken_from_offer (radio : Modes) (config : Config)
    (calls : List (Call × Occasion)) :
    ∃ entries, Session Call.perform (ofConfig radio config) entries ∧
      entries.map (fun e => (e.1, e.2.occasion)) = calls ∧
      ∀ past call p later, entries = past ++ (call, p) :: later →
        (call = .ask →
          p.sent = ["+CNMI=?"] ∧
          (p.result = .ok () ↔ ∀ cause, p.answer = .error cause → cause = .parse) ∧
          ((∀ reply, p.answer = .ok reply → read? reply = none) →
            p.after = p.before ∧ lastOffer (past ++ [(call, p)]) = lastOffer past)) ∧
        (call = .choose →
          p.after = p.before ∧ lastOffer (past ++ [(call, p)]) = lastOffer past ∧
          Chooses (Offered (lastOffer past)) p ∧
          (lastOffer past = none → p.sent = [] ∧
            p.result = .error (.unsupported (.messageSetting "mode" [2, 1])))) := by
  obtain ⟨entries, hsession, hcalls⟩ := exists_session Call.perform (ofConfig radio config) calls
  refine ⟨entries, hsession, hcalls, fun past call p later hsplit => ?_⟩
  -- what the modem keeps is the last offer of the session
  obtain ⟨hp, hknows⟩ :=
    hsession.invariant (I := fun past m => Knows (lastOffer past) m.messages) .nothing
    (fun past call p hp h => h.step hp) past call p later hsplit
  refine ⟨?_, ?_⟩
  · rintro rfl
    obtain ⟨hsent, hasks⟩ := checkMessaging_performs hp
    refine ⟨hsent, hasks.eq_ok_iff, fun hunread => ⟨hasks.unchanged hunread, ?_⟩⟩
    rw [lastOffer_append, offer?_eq_none hunread, Option.none_or]
  · rintro rfl
    have hchooses := enableMessaging_chooses hp hknows
    refine ⟨(enableMessaging_performs hp).1, by rw [lastOffer_append]; rfl, hchooses,
      fun hnone => ?_⟩
    rw [hnone] at hchooses
    exact ⟨hchooses.nothing.mpr ⟨0, by decide, not_met_none 0⟩,
      hchooses.unmet 0 _ _ rfl (not_met_none 0) nofun⟩

end Cellular.Cinterion
