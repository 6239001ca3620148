import Cellular.Vendor.Mbim
/-!
# Courses of tasks on an MBIM modem

Whatever is asked of a modem, one task after another, each task meets answers of its own: those of
the device and those that come through the tunnel.  Such a list of tasks with their answers is a
course, and `Modem.after` is the modem at its end.

Of all that is known about the modem each task changes little.  The options and the tunnel never
change.  What is wanted changes with a toggle alone, and what is processed with a setup alone.  Once
everything goes through the tunnel it stays like that.

A task is a function of the modem and of the answers, so the modem after a course is a fold, and no
relation is needed.  `Loaded` takes the one task apart that has several ways to go; all others leave
the modem alone or change one field, which their definitions show.
-/

namespace Cellular.Mbim

namespace Modem

/-- A modem of which nothing is known yet. -/
def fresh (hasTunnel : Bool) (options : Options) : Modem := { hasTunnel, options }

/-- The modem after a course of tasks. -/
def after (m : Modem) (course : List (Task × Answers)) : Modem :=
  course.foldl (fun m e => (m.perform e.2 e.1).modem) m

variable {m : Modem} {answers : Answers} {task : Task} {course later : List (Task × Answers)}

/-- A course begins with its first task. -/
theorem after_cons (e : Task × Answers) :
    m.after (e :: course) = (m.perform e.2 e.1).modem.after course := rfl

theorem after_append : m.after (course ++ later) = (m.after course).after later := List.foldl_append

/-! ## One task

Four tasks only ask.  A load of the capabilities may turn everything to the tunnel, a toggle changes
what is wanted, and a setup what is processed. -/

/-- How a load of the capabilities goes. -/
inductive Loaded (m : Modem) (answers : Answers) : Except Error Value → Modem → Prop where
  /-- The device does not tell its capabilities. -/
  | refused (e : Error) (hdevice : answers.deviceCaps = .error e) : Loaded m answers (.error e) m
  /-- The tunnel reports some, and they win. -/
  | reported (caps : DeviceCaps) (hdevice : answers.deviceCaps = .ok caps)
    (hsome : m.tunnelCapability answers ≠ .none) :
    Loaded m answers (.ok (.capability (m.tunnelCapability answers)))
      { m with caps, switching := true }
  /-- The tunnel reports none, and those of the device are taken. -/
  | fallenBack (caps : DeviceCaps) (hdevice : answers.deviceCaps = .ok caps)
    (hnone : m.tunnelCapability answers = .none) :
    Loaded m answers (.ok (.capability caps.capability)) { m with caps }

/-- A load of the capabilities goes in one of these ways. -/
theorem perform_loaded (m : Modem) (answers : Answers) :
    Loaded m answers (m.perform answers .currentCapabilities).result
      (m.perform answers .currentCapabilities).modem := by
  simp only [perform, Outcome.map, loadCurrentCapabilities]
  cases hdevice : answers.deviceCaps with
  | error e => exact .refused e hdevice
  | ok caps =>
    have hsame : ({ m with caps } : Modem).tunnelCapability answers =
        m.tunnelCapability answers := rfl
    by_cases hsome : m.tunnelCapability answers ≠ .none
    · simp only [hsame, if_pos hsome]
      exact .reported caps hdevice hsome
    · simp only [hsame, if_neg hsome]
      exact .fallenBack caps hdevice (Decidable.not_not.mp hsome)

/-- Asking for the capabilities there are leaves the modem alone. -/
theorem loadSupportedCapabilities_modem (m : Modem) (answers : Answers) :
    (m.loadSupportedCapabilities answers).modem = m := by
  unfold loadSupportedCapabilities
  split
  · rfl
  · split <;> rfl

/-- So does asking for the modes there are. -/
theorem loadSupportedModes_modem (m : Modem) (answers : Answers) :
    (m.loadSupportedModes answers).modem = m := by
  unfold loadSupportedModes
  split
  · rfl
  · split <;> rfl

/-- So does asking for the modes. -/
theorem loadCurrentModes_modem (m : Modem) (answers : Answers) :
    (m.loadCurrentModes answers).modem = m := by
  unfold loadCurrentModes
  split <;> rfl

theorem setCurrentModes_modem (m : Modem) (answers : Answers) (mode : ModeCombination) :
    (m.setCurrentModes answers mode).modem = m := by
  unfold setCurrentModes
  split <;> rfl

/-- What no task changes, and what is not taken back. -/
structure Stays (m m' : Modem) : Prop where
  hasTunnel : m'.hasTunnel = m.hasTunnel
  options : m'.options = m.options
  switching : m.switching = true → m'.switching = true

theorem Stays.refl (m : Modem) : m.Stays m := ⟨rfl, rfl, id⟩

/-- What stays from one modem to the next stays all along. -/
theorem Stays.trans {m' m'' : Modem} (h : m.Stays m') (h' : m'.Stays m'') : m.Stays m'' :=
  ⟨h'.hasTunnel.trans h.hasTunnel, h'.options.trans h.options, h'.switching ∘ h.switching⟩

/-- A load of the capabilities changes no options, and takes nothing back. -/
theorem Loaded.stays {result : Except Error Value} {m' : Modem} (h : Loaded m answers result m') :
    m.Stays m' := by
  cases h with
  | refused => exact .refl m
  | reported => exact ⟨rfl, rfl, fun _ => rfl⟩
  | fallenBack => exact ⟨rfl, rfl, id⟩

/-- What is wanted is not changed by a load. -/
theorem Loaded.enabled {result : Except Error Value} {m' : Modem} (h : Loaded m answers result m') :
    m'.enabled = m.enabled := by
  cases h with
  | refused => rfl
  | reported => rfl
  | fallenBack => rfl

/-- No task changes the options, and none takes the tunnel back. -/
theorem perform_stays (m : Modem) (answers : Answers) (task : Task) :
    m.Stays (m.perform answers task).modem := by
  cases task with
  | currentCapabilities => exact (m.perform_loaded answers).stays
  | supportedCapabilities => exact (m.loadSupportedCapabilities_modem answers).symm ▸ .refl m
  | currentModes => exact (m.loadCurrentModes_modem answers).symm ▸ .refl m
  | supportedModes => exact (m.loadSupportedModes_modem answers).symm ▸ .refl m
  | setModes mode => exact (m.setCurrentModes_modem answers mode).symm ▸ .refl m
  | setupEvents => exact ⟨rfl, rfl, id⟩
  | cleanupEvents => exact ⟨rfl, rfl, id⟩
  | process => exact ⟨rfl, rfl, id⟩
  | ignore => exact ⟨rfl, rfl, id⟩
  | want => exact ⟨rfl, rfl, id⟩

/-- So it is with a whole course. -/
theorem after_stays (m : Modem) (course : List (Task × Answers)) : m.Stays (m.after course) := by
  induction course generalizing m with
  | nil => exact .refl m
  | cons e course ih => exact (m.perform_stays e.2 e.1).trans (ih _)

end Modem

end Cellular.Mbim
