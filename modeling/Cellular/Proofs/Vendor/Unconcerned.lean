import Cellular.Proofs.Procedure.Confined
import Cellular.Vendor.Cinterion
/-!
# What has nothing to do with the features of a Cinterion modem

Three features of a Cinterion modem are found out by a command and remembered: the level it sleeps
at, its network connections, and the `psinfo` indicator.  Five of its tasks have to do with them.
All others are unconcerned: they send no command about any of the three, and leave what is known of
them as it is (`perform_unconcerned`).

That a command is not about a feature shows by its text, which does not begin like one of theirs.
Most commands have a name that is enough to tell (`Apart`); a few share a name with a command of a
feature, and need a look at their arguments as well.  Then each operation is put together by the
rules for confined operations.
-/

namespace Cellular

/-- A command begins with its name. -/
theorem Request.name_prefix (r : Request) : r.name.toList <+: r.body.toList := by
  unfold body
  split
  · exact List.prefix_rfl
  · split
    · rw [String.append_assoc, String.toList_append]
      exact List.prefix_append _ _
    · rw [String.toList_append]
      exact List.prefix_append _ _

namespace Cinterion

open Operation

/-! ## Commands about the features

Texts are compared from the front, so it is enough to know how a command begins.  Where the
arguments are not fixed, the name decides whatever they are. -/

/-- How the commands begin that have to do with the features. -/
def featureCommands : List String := ["+CFUN", "^SWWAN", "^SIND=\"psinfo\""]

/-- A command that begins otherwise. -/
def Aside (body : String) : Prop := ∀ start ∈ featureCommands, ¬ start.toList <+: body.toList

instance (body : String) : Decidable (Aside body) :=
  inferInstanceAs (Decidable (∀ start ∈ featureCommands, ¬ start.toList <+: body.toList))

/-- A name that alone makes the command begin otherwise. -/
def Apart (name : String) : Prop :=
  ∀ start ∈ featureCommands, ¬ start.toList <+: name.toList ∧ ¬ name.toList <+: start.toList

instance (name : String) : Decidable (Apart name) :=
  inferInstanceAs (Decidable (∀ start ∈ featureCommands, ¬ start.toList <+: name.toList ∧
    ¬ name.toList <+: start.toList))

/-- A name that is apart makes the command so. -/
theorem aside_of_name {r : Request} (name : String) (h : Apart name) (hname : r.name = name) :
    Aside r.body := by
  intro start hstart hprefix
  obtain ⟨hstart, hname'⟩ := h start hstart
  rcases List.prefix_or_prefix_of_prefix hprefix r.name_prefix with hlong | hshort
  · exact hstart (hname ▸ hlong)
  · exact hname' (hname ▸ hshort)

/-- Asking for the SIM goes by the command for indicators, but for another one. -/
theorem aside_simStatus : Aside (Command.setIndicator "simstatus" 2).request.body := by decide

/-- The counters have a command of their own. -/
theorem aside_pinCounter (facility : String) (puk : Option Nat) :
    Aside (Command.pinCounter facility puk).request.body :=
  aside_of_name "^SPIC" (by decide) rfl

/-- Choosing an operator is not about a feature. -/
theorem aside_selection (operator : Option String) : Aside (selection operator).request.body := by
  cases operator with
  | none => exact aside_of_name "+COPS=0" (by decide) rfl
  | some operator => exact aside_of_name "+COPS=1,2," (by decide) rfl

/-! ## Tasks that are not about them

The view is what is known of the three features and whether there is a port.  An unconcerned
operation may change anything else, and send anything else. -/

/-- What is known of the features, and whether there is a port for network connections. -/
structure Features where
  hasNetPort : Bool
  sleepMode : SleepMode
  wwan : Feature
  psinfo : Feature

/-- What the modem knows of its features. -/
def features (m : Cinterion) : Features := ⟨m.hasNetPort, m.sleepMode, m.wwan, m.psinfo⟩

/-- Nothing about the features is asked, and nothing is learned about them. -/
abbrev Unconcerned {α : Type} (op : Operation Cinterion α) : Prop :=
  op.Confined (Aside ·.body) features

theorem powerOff_unconcerned : Unconcerned powerOff :=
  Confined.get.bind fun _ => .joined (aside_of_name "^SMSO" (by decide) rfl) _ _ _

theorem setupFlowControl_unconcerned : Unconcerned setupFlowControl :=
  .send (aside_of_name "\\Q3" (by decide) rfl)

/-- Reading counters is, if their commands are not about the features. -/
theorem readCounters_unconcerned (locks : List (Lock × Command Nat)) (known : UnlockRetries)
    (h : ∀ lock ∈ locks, Aside lock.2.request.body) : Unconcerned (readCounters locks known) := by
  induction locks generalizing known with
  | nil => exact .pure known
  | cons lock locks ih =>
    obtain ⟨hlock, hrest⟩ := List.forall_mem_cons.mp h
    refine (Confined.attempt hlock).bind fun answer => ?_
    cases answer with
    | ok retries => exact ih _ hrest
    | error e => exact ih _ hrest

/-- The counters of the table are such. -/
theorem loadUnlockRetries_unconcerned : Unconcerned loadUnlockRetries := by
  refine readCounters_unconcerned _ _ fun lock hlock => ?_
  simp only [Command.pinCounters, List.mem_cons, List.not_mem_nil, or_false] at hlock
  rcases hlock with rfl | rfl | rfl | rfl | rfl | rfl | rfl | rfl <;> exact aside_pinCounter _ _

/-- Waiting for the SIM is unconcerned. -/
theorem awaitSim_unconcerned (interval retries : Nat) :
    Unconcerned (awaitSim interval retries) := by
  induction retries with
  | zero => exact .pure ()
  | succ retries ih =>
    refine (Confined.attempt aside_simStatus).bind fun answer => ?_
    split
    · exact .pure ()
    · exact (Confined.pause interval).bind fun _ => ih

theorem afterSimUnlock_unconcerned : Unconcerned afterSimUnlock :=
  Confined.get.bind fun _ => awaitSim_unconcerned _ _

/-- Asking for the bands there are is unconcerned. -/
theorem loadSupportedBands_unconcerned : Unconcerned loadSupportedBands := by
  refine (Confined.send (aside_of_name "^SCFG=?" (by decide) rfl)).bind fun _ =>
    Confined.bind (.modify ?_) fun _ => .pure _
  exact fun _ => rfl

/-- So is asking for the bands. -/
theorem loadCurrentBands_unconcerned : Unconcerned loadCurrentBands :=
  .send (aside_of_name "^SCFG=\"Radio/Band\"" (by decide) rfl)

/-- So is choosing bands. -/
theorem setCurrentBands_unconcerned (bands : List Band) : Unconcerned (setCurrentBands bands) := by
  refine Confined.get.bind fun m => ?_
  split
  · exact Confined.bind_liftExcept fun mask _ =>
      .send (aside_of_name "^SCFG=\"Radio/Band\"," (by decide) rfl)
  · refine Confined.bind_liftExcept fun mask _ => ?_
    split
    · exact .send (aside_of_name "^SCFG=\"Radio/Band\"," (by decide) rfl)
    · exact .throw _

theorem loadSupportedModes_unconcerned : Unconcerned loadSupportedModes :=
  Confined.parentModes.bind fun _ => Confined.get.bind fun _ => .pure _

/-- So is choosing modes. -/
theorem setCurrentModes_unconcerned (mode : ModeCombination) :
    Unconcerned (setCurrentModes mode) := by
  have hforced : ∀ act, Unconcerned (send (.operatorTechnology act)) := by
    intro act
    exact .send (aside_of_name "+COPS=,,," (by decide) rfl)
  have hselection : ∀ operator, Unconcerned (send (selection operator)) := by
    intro operator
    exact .send (aside_selection operator)
  -- one of the two commands is sent, whichever way is taken
  unfold setCurrentModes
  split
  · refine (Confined.throw _).bind fun _ => Confined.get.bind fun m => ?_
    split
    · exact hforced _
    · exact hselection _
  · refine Confined.get.bind fun m => ?_
    split
    · exact hforced _
    · exact hselection _

/-- So is a registration. -/
theorem registerInNetwork_unconcerned (operator : Option String) :
    Unconcerned (registerInNetwork operator) := by
  have hregister : Unconcerned (do
      send (selection operator)
      modify fun m => { m with operator } : Operation Cinterion Unit) :=
    (Confined.send (aside_selection _)).bind fun _ => .modify fun _ => rfl
  unfold registerInNetwork
  split
  · exact (Confined.throw _).bind fun _ => hregister
  · exact hregister

/-- A code that comes of its own accord tells nothing about the features. -/
theorem features_handle (m : Cinterion) (code : Urc) : (m.handle code).1.features = m.features := by
  cases code with
  | indicator name value =>
    show (if name = "psinfo" then ({ m with technology := technologyOfPsinfo value }, true)
      else (m, false)).1.features = _
    split <;> rfl
  | _ => rfl

/-- So is a question about messages. -/
theorem checkMessaging_unconcerned : Unconcerned checkMessaging := by
  refine (Confined.attempt (aside_of_name "+CNMI=?" (by decide) rfl)).bind fun answer => ?_
  split
  · exact .modify fun _ => rfl
  · exact .pure ()
  · exact .throw _

/-- What succeeds has succeeded in both its parts. -/
theorem ok_of_bind {ε α β : Type} {x : Except ε α} {f : α → Except ε β} {b : β}
    (h : (x >>= f) = .ok b) :
    ∃ a, x = .ok a ∧ f a = .ok b := by
  cases x with
  | error e => cases h
  | ok a => exact ⟨a, rfl, h⟩

/-- Whichever settings are chosen, they are chosen by one command. -/
theorem messageSetting_aside {settings : MessageIndicationSupport} {c : Command Unit}
    (h : messageSetting settings = .ok c) : Aside c.request.body := by
  obtain ⟨mode, -, h⟩ := ok_of_bind h
  obtain ⟨mt, -, h⟩ := ok_of_bind h
  obtain ⟨bm, -, h⟩ := ok_of_bind h
  obtain ⟨ds, -, h⟩ := ok_of_bind h
  obtain rfl := Except.ok.inj h
  exact aside_of_name "+CNMI" (by decide) rfl

/-- So is a choice of what to do about them. -/
theorem enableMessaging_unconcerned : Unconcerned enableMessaging :=
  Confined.get.bind fun _ => Confined.bind_liftExcept fun _ h => .send (messageSetting_aside h)

/-- The task has to do with the features. -/
def Task.Concerned : Task → Prop
  | .powerDown => True
  | .enableEvents => True
  | .disableEvents => True
  | .loadTechnology => True
  | .createBearer => True
  | _ => False

/-- So is taking notice of a code. -/
theorem handle_unconcerned (code : Urc) : Unconcerned (perform (.handle code)) :=
  Confined.bind_get fun m _ => ⟨rfl, features_handle m code⟩

/-- All other tasks are unconcerned. -/
theorem perform_unconcerned {task : Task} (h : ¬ task.Concerned) : Unconcerned (perform task) := by
  cases task with
  | powerDown => exact absurd trivial h
  | enableEvents => exact absurd trivial h
  | disableEvents => exact absurd trivial h
  | loadTechnology => exact absurd trivial h
  | createBearer => exact absurd trivial h
  | powerOff => exact powerOff_unconcerned.bind fun _ => .pure _
  | setupFlowControl => exact setupFlowControl_unconcerned.bind fun _ => .pure _
  | loadUnlockRetries => exact loadUnlockRetries_unconcerned.bind fun _ => .pure _
  | afterSimUnlock => exact afterSimUnlock_unconcerned.bind fun _ => .pure _
  | loadSupportedBands => exact loadSupportedBands_unconcerned.bind fun _ => .pure _
  | loadCurrentBands => exact loadCurrentBands_unconcerned.bind fun _ => .pure _
  | setCurrentBands bands => exact (setCurrentBands_unconcerned bands).bind fun _ => .pure _
  | loadSupportedModes => exact loadSupportedModes_unconcerned.bind fun _ => .pure _
  | setCurrentModes mode => exact (setCurrentModes_unconcerned mode).bind fun _ => .pure _
  | registerInNetwork operator =>
    exact (registerInNetwork_unconcerned operator).bind fun _ => .pure _
  | handle code => exact handle_unconcerned code
  | checkMessaging => exact checkMessaging_unconcerned.bind fun _ => .pure _
  | enableMessaging => exact enableMessaging_unconcerned.bind fun _ => .pure _

end Cinterion

end Cellular
