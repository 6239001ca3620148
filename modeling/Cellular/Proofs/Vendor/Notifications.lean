import Cellular.Proofs.Vendor.Mbim
/-!
# The subscriptions of an MBIM modem

The device takes one list with everything that it is to report.  So whoever wants one category more,
or one less, has to name all the others again, and the groups that are toggled overlap with the
services that the list is made of.

The entries of a list stand for categories: `Category.ofCommand?` reads a command of a service back.
A list that is built for a set of categories asks for the commands of those and of no others
(`asks_subscribeList`), and names no service twice.  The set that is wanted is, at any time, the set
of the categories that were last switched on (`enabled_after`).  Whether the device took the lists
in between has nothing to do with it.

Three things are kept apart.  A list is a value built from a set of categories, and what it asks for
can be compared with the set.  What is wanted is a field of the modem, and changes with toggles
whether or not the device plays along.  What the device has is not known to the modem at all; it is
modelled beside it (`Link`), as the last list that the device took.
-/

namespace Cellular.Mbim

/-! ## What a list asks for

The list has four entries at most, of one service each, and an entry is left out where it would ask
for nothing.  So each service is named once just because there is one entry for it. -/

/-- The category that a command of a service reports.  The numbers of commands mean something for
one service only. -/
def Category.ofCommand? : Service → Nat → Option Category
  | .basicConnect, 2 => some .subscriberInfo
  | .basicConnect, 9 => some .registrationUpdates
  | .basicConnect, 10 => some .packetService
  | .basicConnect, 11 => some .signalQuality
  | .basicConnect, 12 => some .connect
  | .basicConnectExtensions, 9 => some .pco
  | .sms, 2 => some .smsRead
  | .sms, 6 => some .smsRead
  | .ussd, 1 => some .ussd
  | _, _ => none

/-- The commands that report a category. -/
def Category.commands : Category → List (Service × Nat)
  | .signalQuality => [(.basicConnect, 11)]
  | .registrationUpdates => [(.basicConnect, 9)]
  | .smsRead => [(.sms, 2), (.sms, 6)]
  | .connect => [(.basicConnect, 12)]
  | .subscriberInfo => [(.basicConnect, 2)]
  | .packetService => [(.basicConnect, 10)]
  | .pco => [(.basicConnectExtensions, 9)]
  | .ussd => [(.ussd, 1)]

/-- A command is read back as the category that it reports. -/
theorem Category.ofCommand?_eq_some {service : Service} {cid : Nat} {c : Category} :
    ofCommand? service cid = some c ↔ (service, cid) ∈ c.commands := by
  constructor
  · intro h
    unfold ofCommand? at h
    split at h <;> cases h <;> decide
  · intro h
    cases c <;> simp only [commands, List.mem_cons, Prod.mk.injEq, List.not_mem_nil, or_false] at h
    case smsRead => rcases h with ⟨rfl, rfl⟩ | ⟨rfl, rfl⟩ <;> rfl
    all_goals
      obtain ⟨rfl, rfl⟩ := h
      rfl

/-- Every category is reported by some command. -/
theorem Category.exists_command (c : Category) :
    ∃ service cid, ofCommand? service cid = some c := by
  have hsome : ∃ command, command ∈ c.commands := by cases c <;> exact ⟨_, List.mem_cons_self⟩
  obtain ⟨⟨service, cid⟩, hcommand⟩ := hsome
  exact ⟨service, cid, ofCommand?_eq_some.mpr hcommand⟩

/-- The list asks for the notifications of a command of a service. -/
def Asks (list : List Entry) (service : Service) (cid : Nat) : Prop :=
  ∃ e ∈ list, e.service = service ∧ cid ∈ e.cids

/-- Two lists ask for what either of them asks for. -/
theorem asks_append {list list' : List Entry} {service : Service} {cid : Nat} :
    Asks (list ++ list') service cid ↔ Asks list service cid ∨ Asks list' service cid := by
  constructor
  · rintro ⟨e, he, h⟩
    exact (List.mem_append.mp he).imp (⟨e, ·, h⟩) (⟨e, ·, h⟩)
  · rintro (⟨e, he, h⟩ | ⟨e, he, h⟩)
    · exact ⟨e, List.mem_append_left _ he, h⟩
    · exact ⟨e, List.mem_append_right _ he, h⟩

/-- An entry asks for the commands that it names. -/
theorem asks_entry {service service' : Service} {cids : List Nat} {cid : Nat} :
    Asks (entry service cids) service' cid ↔ service = service' ∧ cid ∈ cids := by
  unfold entry
  cases cids with
  | nil => simp [Asks]
  | cons first rest => simp [Asks]

/-- The list that is built for a set of categories asks for the commands of those, and of no
others. -/
theorem asks_subscribeList {s : Categories} {service : Service} {cid : Nat} :
    Asks (subscribeList s) service cid ↔ ∃ c, Category.ofCommand? service cid = some c ∧
    s.has c = true := by
  have hif : ∀ (c : Category) (cids : List Nat),
      cid ∈ (if s.has c = true then cids else []) ↔ cid ∈ cids ∧ s.has c = true := by
    intro c cids
    split <;> simp [*]
  simp only [subscribeList, asks_append, asks_entry, hif, Category.ofCommand?_eq_some]
  constructor
  · -- the list has four parts, and all but the first belong to one category each
    rintro (((⟨rfl, h⟩ | ⟨rfl, h, hhas⟩) | ⟨rfl, h, hhas⟩) | ⟨rfl, h, hhas⟩)
    · obtain ⟨⟨c, cid'⟩, hmem, rfl⟩ := List.mem_map.mp h
      obtain ⟨hlisted, hhas⟩ := List.mem_filter.mp hmem
      refine ⟨c, ?_, hhas⟩
      simp only [basicCids, List.mem_cons, Prod.mk.injEq, List.not_mem_nil, or_false] at hlisted
      rcases hlisted with ⟨rfl, rfl⟩ | ⟨rfl, rfl⟩ | ⟨rfl, rfl⟩ | ⟨rfl, rfl⟩ | ⟨rfl, rfl⟩ <;> decide
    · exact ⟨.pco, by simpa [Category.commands] using h, hhas⟩
    · exact ⟨.smsRead, by simpa [Category.commands] using h, hhas⟩
    · exact ⟨.ussd, by simpa [Category.commands] using h, hhas⟩
  · rintro ⟨c, hcommand, hhas⟩
    have hbasic : ∀ cid', (c, cid') ∈ basicCids →
        cid' ∈ (basicCids.filter fun e => s.has e.1).map Prod.snd :=
      fun cid' hlisted => List.mem_map.mpr ⟨(c, cid'), List.mem_filter.mpr ⟨hlisted, hhas⟩, rfl⟩
    cases c <;> simp only [Category.commands, List.mem_cons, Prod.mk.injEq, List.not_mem_nil,
      or_false] at hcommand
    case smsRead =>
      rcases hcommand with ⟨rfl, rfl⟩ | ⟨rfl, rfl⟩
      · exact .inl (.inr ⟨rfl, by decide, hhas⟩)
      · exact .inl (.inr ⟨rfl, by decide, hhas⟩)
    case pco =>
      obtain ⟨rfl, rfl⟩ := hcommand
      exact .inl (.inl (.inr ⟨rfl, by decide, hhas⟩))
    case ussd =>
      obtain ⟨rfl, rfl⟩ := hcommand
      exact .inr ⟨rfl, by decide, hhas⟩
    all_goals
      obtain ⟨rfl, rfl⟩ := hcommand
      exact .inl (.inl (.inl ⟨rfl, hbasic _ (by decide)⟩))

/-- An entry names its service once at most. -/
theorem services_entry (service : Service) (cids : List Nat) :
    ((entry service cids).map Entry.service).Sublist [service] := by
  unfold entry
  split
  · exact List.nil_sublist _
  · exact List.Sublist.refl _

/-- No service is named twice. -/
theorem nodup_subscribeList (s : Categories) : ((subscribeList s).map Entry.service).Nodup := by
  have hsub : ((subscribeList s).map Entry.service).Sublist
      ([.basicConnect] ++ [.basicConnectExtensions] ++ [.sms] ++ [.ussd]) := by
    simp only [subscribeList, List.map_append]
    exact (((services_entry _ _).append (services_entry _ _)).append (services_entry _ _)).append
      (services_entry _ _)
  exact hsub.nodup (by decide)

/-! ## What is wanted

Groups overlap, so switching one on may switch on what is on already, and switching it off takes
away what another group had switched on.  For a single category only the last switch counts. -/

/-- What a task switches a category to, if it does. -/
def Task.switches? (m : Modem) (c : Category) : Task → Option Bool
  | .want group enable => if (m.group group).has c then some enable else none
  | _ => none

/-- What a category was last switched to, if it ever was. -/
def lastSwitch? (m : Modem) (course : List (Task × Answers)) (c : Category) : Option Bool :=
  (course.filterMap fun e => e.1.switches? m c).getLast?

/-- A switch counts if there is none after it. -/
theorem lastSwitch?_cons (m : Modem) (e : Task × Answers) (course : List (Task × Answers))
    (c : Category) :
    lastSwitch? m (e :: course) c = (lastSwitch? m course c).or (e.1.switches? m c) := by
  cases hswitch : e.1.switches? m c with
  | none => simp [lastSwitch?, hswitch]
  | some enable =>
    cases hlast : (course.filterMap fun e => e.1.switches? m c).getLast? <;>
      simp [lastSwitch?, hswitch, hlast, List.getLast?_cons]

namespace Modem

variable {m m' : Modem}

/-- Groups depend on the options alone. -/
theorem group_congr (h : m'.options = m.options) (group : Group) :
    m'.group group = m.group group := by
  cases group with
  | basic => rw [Modem.group, Modem.group, Modem.basic, Modem.basic, h]
  | registration => rfl
  | messaging => rfl
  | ussd => rfl

/-- So does what a task switches. -/
theorem switches_congr (h : m'.options = m.options) (c : Category) (task : Task) :
    task.switches? m' c = task.switches? m c := by
  cases task with
  | want group enable => rw [Task.switches?, Task.switches?, group_congr h]
  | _ => rfl

/-- A task switches what it switches, and no more. -/
theorem enabled_perform (m : Modem) (answers : Answers) (task : Task) (c : Category) :
    (m.perform answers task).modem.enabled.has c = (task.switches? m c).getD (m.enabled.has c) := by
  cases task with
  | currentCapabilities =>
    exact congrArg (fun s : Categories => s.has c) (m.perform_loaded answers).enabled
  | supportedCapabilities =>
    exact congrArg (fun m : Modem => m.enabled.has c) (m.loadSupportedCapabilities_modem answers)
  | currentModes =>
    exact congrArg (fun m : Modem => m.enabled.has c) (m.loadCurrentModes_modem answers)
  | supportedModes =>
    exact congrArg (fun m : Modem => m.enabled.has c) (m.loadSupportedModes_modem answers)
  | setModes mode =>
    exact congrArg (fun m : Modem => m.enabled.has c) (m.setCurrentModes_modem answers mode)
  | setupEvents => rfl
  | cleanupEvents => rfl
  | process => rfl
  | ignore => rfl
  | want group enable =>
    -- only a toggle changes what is enabled
    show (if enable then m.enabled.union (m.group group)
      else m.enabled.remove (m.group group)).has c = _
    cases enable <;> cases hgroup : (m.group group).has c <;>
      simp [Task.switches?, Categories.union, Categories.remove, hgroup]

/-- The last switch decides. -/
theorem enabled_after (m : Modem) (course : List (Task × Answers)) (c : Category) :
    (m.after course).enabled.has c = (lastSwitch? m course c).getD (m.enabled.has c) := by
  induction course generalizing m with
  | nil => rfl
  | cons e course ih =>
    have hcongr : ∀ e' : Task × Answers, e'.1.switches? (m.perform e.2 e.1).modem c =
        e'.1.switches? m c :=
      fun e' => switches_congr (m.perform_stays e.2 e.1).options c e'.1
    have hlast : lastSwitch? (m.perform e.2 e.1).modem course c = lastSwitch? m course c := by
      simp only [lastSwitch?, hcongr]
    rw [after_cons, ih, hlast, enabled_perform, lastSwitch?_cons]
    cases lastSwitch? m course c <;> rfl

end Modem
/-- The list names each service at most once, and asks for all that reports these categories and for
nothing else. -/
structure SubscribesTo (list : List Entry) (wanted : Category → Prop) : Prop where
  services : (list.map Entry.service).Nodup
  asks : ∀ service cid, Asks list service cid ↔
    ∃ c, Category.ofCommand? service cid = some c ∧ wanted c
  all : ∀ c, wanted c → ∃ service cid, Category.ofCommand? service cid = some c ∧
    Asks list service cid

/-- The list that is built for a set subscribes to the set. -/
theorem subscribesTo_subscribeList (s : Categories) :
    SubscribesTo (subscribeList s) fun c => s.has c = true where
  services := nodup_subscribeList s
  asks _ _ := asks_subscribeList
  all c hwanted := by
    obtain ⟨service, cid, hcommand⟩ := c.exists_command
    exact ⟨service, cid, hcommand, asks_subscribeList.mpr ⟨c, hcommand, hwanted⟩⟩

/-! ## What the device has

The device takes a list or refuses it, as it likes.  A list that it takes replaces the one before as
a whole. -/

/-- A modem, and the list that its device took last. -/
structure Link where
  modem : Modem
  subscribed : List Entry := []

/-- What the device is subscribed to after a message: a list that it takes replaces the one
before. -/
def Answers.subscribed (answers : Answers) (current : List Entry) : Call → List Entry
  | .subscribe list =>
    match answers.subscribe list with
    | .ok () => list
    | .error _ => current
  | _ => current

namespace Link

/-- Modem and device after a task. -/
def step (l : Link) (e : Task × Answers) : Link :=
  let outcome := l.modem.perform e.2 e.1
  { modem := outcome.modem, subscribed := outcome.calls.foldl e.2.subscribed l.subscribed }

/-- Modem and device after a course of tasks. -/
def run (l : Link) (course : List (Task × Answers)) : Link := course.foldl step l

/-- A course is gone through up to its last task, and then that is done. -/
theorem run_concat (l : Link) (course : List (Task × Answers)) (e : Task × Answers) :
    l.run (course ++ [e]) = (l.run course).step e := by
  rw [run, List.foldl_append]
  rfl

/-- The modem does not see what the device has. -/
theorem run_modem (l : Link) (course : List (Task × Answers)) :
    (l.run course).modem = l.modem.after course := by
  induction course generalizing l with
  | nil => rfl
  | cons e course ih => exact ih (l.step e)

end Link

/-! ## A toggle

A toggle pushes the list of all that is wanted, and not only of what has changed. -/

section

variable (tunnel : Bool) (options : Options) (past : List (Task × Answers)) (group : Group)
  (enable : Bool)
  (answers : Answers)

/-- The set that is wanted once a new modem has gone through a course. -/
theorem enabled_of_fresh (course : List (Task × Answers)) (c : Category) :
    ((Modem.fresh tunnel options).after course).enabled.has c = true ↔
      lastSwitch? (.fresh tunnel options) course c = some true := by
  rw [Modem.enabled_after]
  cases lastSwitch? (.fresh tunnel options) course c with
  | none => simp [Modem.fresh, Categories.none]
  | some enable => cases enable <;> simp

/-- A toggle pushes the list of what is wanted once it is over. -/
theorem calls_want (m : Modem) :
    ((m.after past).perform answers (.want group enable)).calls =
      [.subscribe (subscribeList (m.after (past ++ [(.want group enable, answers)])).enabled)] := by
  rw [Modem.after_append]
  rfl

/-- Where the device takes the list, it is subscribed to that. -/
theorem Link.subscribed_of_ok (l : Link)
    (hok : (l.modem.perform answers (.want group enable)).result = .ok .nothing) :
    (l.step (.want group enable, answers)).subscribed =
      subscribeList (l.step (.want group enable, answers)).modem.enabled := by
  show answers.subscribed l.subscribed
    (.subscribe (subscribeList (l.step (.want group enable, answers)).modem.enabled)) = _
  have hresult : (l.modem.perform answers (.want group enable)).result =
      (answers.subscribe (subscribeList (l.step (.want group enable, answers)).modem.enabled)).map
        fun _ => .nothing := rfl
  rw [hok] at hresult
  simp only [Answers.subscribed]
  cases hanswer :
    answers.subscribe (subscribeList (l.step (.want group enable, answers)).modem.enabled) with
  | ok _ => rfl
  | error e =>
    rw [hanswer] at hresult
    cases hresult

/-- **The subscriptions follow the toggles.**  Ask whatever you like of a new modem, and let the
device take and refuse lists as it likes.  Each toggle pushes one list; it names no service twice,
and it asks for exactly the categories that were last switched on.  If the device takes it, the
device is subscribed to exactly what is wanted.  Two courses that switched every category to the
same in the end push the same list, and no toggle has to do with what is processed. -/
theorem subscriptions_follow_toggles :
    let m : Modem := .fresh tunnel options
    let course := past ++ [(.want group enable, answers)]
    let before := Link.run { modem := m } past
    let now := Link.run { modem := m } course
    let outcome := before.modem.perform answers (.want group enable)
    (∃ list, outcome.calls = [.subscribe list] ∧
      SubscribesTo list (fun c => lastSwitch? m course c = some true)) ∧
    (∀ c, now.modem.enabled.has c = true ↔ lastSwitch? m course c = some true) ∧
    (outcome.result = .ok .nothing → SubscribesTo now.subscribed fun c =>
      now.modem.enabled.has c = true) ∧
    (∀ tunnel' options' past' group' enable' answers',
      (∀ c, lastSwitch? (.fresh tunnel' options') (past' ++ [(.want group' enable', answers')]) c =
        lastSwitch? m course c) →
        (((Modem.fresh tunnel' options').after past').perform answers'
          (.want group' enable')).calls = outcome.calls) ∧
    now.modem.setup = before.modem.setup := by
  intro m course before now outcome
  have hnow : now = before.step (.want group enable, answers) := Link.run_concat _ _ _
  have hwanted : ∀ c, now.modem.enabled.has c = true ↔ lastSwitch? m course c = some true := by
    intro c
    show (Link.run { modem := m } course).modem.enabled.has c = true ↔ _
    rw [Link.run_modem]
    exact enabled_of_fresh tunnel options course c
  have hcalls : outcome.calls = [.subscribe (subscribeList (m.after course).enabled)] := by
    show (before.modem.perform answers (.want group enable)).calls = _
    rw [show before.modem = m.after past from Link.run_modem _ _]
    exact calls_want past group enable answers m
  refine ⟨⟨_, hcalls, ?_⟩, hwanted, ?_, ?_, ?_⟩
  · rw [← funext fun c => propext (enabled_of_fresh tunnel options course c)]
    exact subscribesTo_subscribeList _
  · intro hok
    have htaken : now.subscribed = subscribeList now.modem.enabled := by
      rw [hnow]
      exact before.subscribed_of_ok group enable answers hok
    rw [htaken]
    exact subscribesTo_subscribeList _
  · -- the list is a function of the set, and the set is one of the last switches
    intro tunnel' options' past' group' enable' answers' hsame
    have hset :
      ((Modem.fresh tunnel' options').after (past' ++ [(.want group' enable', answers')])).enabled =
        (m.after course).enabled := by
      ext c
      rw [Modem.enabled_after, Modem.enabled_after, hsame]
      rfl
    rw [calls_want, hset, hcalls]
  · rw [hnow]
    rfl

end

end Cellular.Mbim
