import Cellular.Proofs.Vendor.Mbim
/-!
# Where capabilities and modes come from

An MBIM modem with a tunnel for QMI messages has two sources for its capabilities and modes.  Once a
load of the capabilities has returned some that the tunnel reported, everything goes through the
tunnel (`tunnelled_of_reported`), and all but one of the later tasks return what the tunnel answers
to them.

The exception is the load itself.  It asks both sources every time and takes the device's whenever
the tunnel reports nothing, so a tunnel that fails once is enough to bring back the device's
capabilities (`later_load_falls_back`), beside modes that still come through the tunnel.

Whether a modem goes through the tunnel is a flag that is set once and never taken back
(`Modem.Stays`).  So a course is split at the load that set it, and at the task in question.  For
the load itself the flag makes no difference, which is the exception; for all others one case
distinction by task is enough (`fromTunnel_of_tunnelled`).
-/

namespace Cellular.Mbim

/-! ## Sources

A result is said to come from the tunnel if it is what the tunnel answered to a message of the task.
Where both sources would have given the same it counts as coming from the tunnel. -/

/-- What the tunnel answers to a message, if that goes through the tunnel. -/
def Answers.ofTunnel? (answers : Answers) : Call → Option (Except Error Value)
  | .capabilities => some (answers.capabilities.map .capability)
  | .supportedCapabilities =>
    some (answers.supportedCapabilities.map fun cs =>
      .capabilities (cs.take Modem.capabilitiesCapacity))
  | .modes => some (answers.modes.map .modes)
  | .supportedModes =>
    some (answers.supportedModes.map fun ms => .choices (ms.take ModeCombination.listCapacity))
  | .setModes mode => some ((answers.setModes mode).map fun _ => .nothing)
  | .deviceCaps => none
  | .subscribe _ => none

/-- The task ended in what the tunnel answered to one of its messages. -/
def FromTunnel (answers : Answers) (outcome : Outcome Value) : Prop :=
  ∃ call ∈ outcome.calls, answers.ofTunnel? call = some outcome.result

/-- The task is about capabilities or modes. -/
def Task.IsRouted : Task → Prop
  | .currentCapabilities => True
  | .supportedCapabilities => True
  | .currentModes => True
  | .supportedModes => True
  | .setModes _ => True
  | _ => False

/-- In the course a load of the capabilities returned some that the tunnel had reported. -/
def Reported (m : Modem) (course : List (Task × Answers)) : Prop :=
  ∃ earlier answers later c, course = earlier ++ (.currentCapabilities, answers) :: later ∧
    c ≠ Capability.none ∧
    ((m.after earlier).perform answers .currentCapabilities).result = .ok (.capability c) ∧
    FromTunnel answers ((m.after earlier).perform answers .currentCapabilities)

/-- The tunnel reports no capabilities: it fails, or it tells of none while the device has some. -/
def Answers.Silent (answers : Answers) : Prop :=
  (∃ e, answers.capabilities = .error e) ∨
    (answers.capabilities = .ok .none ∧ ∃ caps, answers.deviceCaps = .ok caps ∧
      caps.capability ≠ .none)

namespace Modem

variable {m : Modem} {answers : Answers} {course : List (Task × Answers)}

/-! ## Once the tunnel has reported

A load that returns what the tunnel reported sets the flag.  That a course contains such a load is
therefore enough to know how the modem stands at its end. -/

/-- A load asks the tunnel, where there is one, and the device. -/
theorem calls_load (m : Modem) (answers : Answers) :
    (m.perform answers .currentCapabilities).calls =
      (if m.hasTunnel then [.capabilities] else []) ++ [.deviceCaps] := by
  simp only [perform, Outcome.map, loadCurrentCapabilities]
  cases answers.deviceCaps with
  | error e => rfl
  | ok caps =>
    simp only
    split <;> rfl

/-- What comes of a load is what the tunnel answered only if there is a tunnel and it answered
so. -/
theorem fromTunnel_load :
    FromTunnel answers (m.perform answers .currentCapabilities) ↔ m.hasTunnel = true ∧
      answers.capabilities.map .capability = (m.perform answers .currentCapabilities).result := by
  unfold FromTunnel
  rw [calls_load]
  cases m.hasTunnel <;> simp [Answers.ofTunnel?]

/-- A value that is a capability was one before. -/
theorem capabilities_of_map {x : Except Error Capability} {c : Capability}
    (h : x.map Value.capability = .ok (.capability c)) : x = .ok c := by
  cases x with
  | error e => cases h
  | ok c' => cases h; rfl

/-- With a tunnel, what it answers decides. -/
theorem tunnelCapability_of_ok {c : Capability} (htunnel : m.hasTunnel = true)
    (h : answers.capabilities = .ok c) :
    m.tunnelCapability answers = c := by
  rw [tunnelCapability, if_pos htunnel, h]

/-- A tunnel that fails reports nothing. -/
theorem tunnelCapability_of_error {e : Error} (h : answers.capabilities = .error e) :
    m.tunnelCapability answers = .none := by
  unfold tunnelCapability
  rw [h]
  split <;> rfl

/-- A load that returns capabilities which the tunnel reported sends everything through the
tunnel. -/
theorem tunnelled_of_load {c : Capability} (hsome : c ≠ .none)
    (hresult : (m.perform answers .currentCapabilities).result = .ok (.capability c))
    (hfrom : FromTunnel answers (m.perform answers .currentCapabilities)) :
    m.hasTunnel = true ∧ (m.perform answers .currentCapabilities).modem.switching = true := by
  obtain ⟨htunnel, hanswer⟩ := fromTunnel_load.mp hfrom
  have hreports := tunnelCapability_of_ok htunnel (capabilities_of_map (hanswer.trans hresult))
  refine ⟨htunnel, ?_⟩
  have hloaded := m.perform_loaded answers
  rw [hresult] at hloaded
  generalize (m.perform answers .currentCapabilities).modem = m' at hloaded ⊢
  cases hloaded with
  | reported => rfl
  | fallenBack caps hdevice hnone => exact absurd (hreports.symm.trans hnone) hsome

/-- Once the tunnel has reported, everything goes through it. -/
theorem tunnelled_of_reported (h : Reported m course) : (m.after course).tunnelled = true := by
  obtain ⟨earlier, answers, later, c, rfl, hsome, hresult, hfrom⟩ := h
  obtain ⟨htunnel, hswitching⟩ := tunnelled_of_load hsome hresult hfrom
  have hload := (m.after earlier).perform_stays answers .currentCapabilities
  have hlater := ((m.after earlier).perform answers .currentCapabilities).modem.after_stays later
  rw [after_append, after_cons, tunnelled, hlater.switching hswitching, hlater.hasTunnel,
    hload.hasTunnel, htunnel]
  rfl

/-! ## One task through the tunnel

Each of the tasks that are about capabilities or modes sends one message through the tunnel.  The
answer to it decides, unless the task is a load. -/

theorem hasTunnel_of_tunnelled (h : m.tunnelled = true) : m.hasTunnel = true :=
  (Bool.and_eq_true_iff.mp h).2

/-- All but the load of the capabilities end in what the tunnel answers. -/
theorem fromTunnel_of_tunnelled {task : Task} (h : m.tunnelled = true) (hrouted : task.IsRouted)
    (hother : task ≠ .currentCapabilities) : FromTunnel answers (m.perform answers task) := by
  cases task with
  | currentCapabilities => exact absurd rfl hother
  | supportedCapabilities =>
    refine ⟨.supportedCapabilities, ?_⟩
    simp only [perform, loadSupportedCapabilities, if_pos h, Outcome.map, Answers.ofTunnel?,
      List.mem_singleton, true_and]
    cases answers.supportedCapabilities <;> rfl
  | currentModes =>
    refine ⟨.modes, ?_⟩
    simp only [perform, loadCurrentModes, if_pos h, Outcome.map, Answers.ofTunnel?,
      List.mem_singleton, true_and]
  | supportedModes =>
    refine ⟨.supportedModes, ?_⟩
    simp only [perform, loadSupportedModes, if_pos h, Outcome.map, Answers.ofTunnel?,
      List.mem_singleton, true_and]
    cases answers.supportedModes <;> rfl
  | setModes mode =>
    refine ⟨.setModes mode, ?_⟩
    simp only [perform, setCurrentModes, if_pos h, Outcome.map, Answers.ofTunnel?,
      List.mem_singleton, true_and]
  | setupEvents => exact hrouted.elim
  | cleanupEvents => exact hrouted.elim
  | process => exact hrouted.elim
  | ignore => exact hrouted.elim
  | want => exact hrouted.elim

/-- A load takes what the tunnel reports, or what the device reports where the tunnel is silent. -/
theorem load_of_tunnelled {v : Value} (h : m.tunnelled = true)
    (hok : (m.perform answers .currentCapabilities).result = .ok v) :
    (¬ answers.Silent ∧ FromTunnel answers (m.perform answers .currentCapabilities)) ∨
    (answers.Silent ∧ ¬ FromTunnel answers (m.perform answers .currentCapabilities) ∧
      ∃ caps, answers.deviceCaps = .ok caps ∧ v = .capability caps.capability) := by
  have htunnel := hasTunnel_of_tunnelled h
  rw [fromTunnel_load, hok]
  have hloaded := m.perform_loaded answers
  rw [hok] at hloaded
  generalize (m.perform answers .currentCapabilities).modem = m' at hloaded
  cases hanswer : answers.capabilities with
  | error e =>
    cases hloaded with
    | reported caps hdevice hsome => exact absurd (tunnelCapability_of_error hanswer) hsome
    | fallenBack caps hdevice hnone =>
      exact .inr ⟨.inl ⟨e, hanswer⟩, fun hsame => (by cases hsame.2), caps, hdevice, rfl⟩
  | ok c =>
    have hreports := tunnelCapability_of_ok htunnel hanswer
    cases hloaded with
    | reported caps hdevice hsome =>
      refine .inl ⟨?_, htunnel, by rw [hreports]; rfl⟩
      rintro (⟨e, he⟩ | ⟨hc, -⟩)
      · rw [hanswer] at he
        cases he
      · rw [hanswer] at hc
        exact hsome (hreports.trans (Except.ok.inj hc))
    | fallenBack caps hdevice hnone =>
      -- a tunnel that reports nothing is silent only if the device has something to report
      obtain rfl : c = .none := hreports.symm.trans hnone
      by_cases hcaps : caps.capability = .none
      · refine .inl ⟨?_, htunnel, by rw [hcaps]; rfl⟩
        rintro (⟨e, he⟩ | ⟨-, caps', hdevice', hsome⟩)
        · rw [hanswer] at he
          cases he
        · rw [hdevice] at hdevice'
          exact hsome (Except.ok.inj hdevice' ▸ hcaps)
      · refine .inr ⟨.inr ⟨hanswer, caps, hdevice, hcaps⟩, fun hsame => ?_, caps, hdevice, rfl⟩
        exact hcaps (Value.capability.inj (Except.ok.inj hsame.2)).symm

end Modem

/-! ## A course of tasks

Whether the tunnel has reported is remembered for good, but a load can still return what the
device reports.  So the exact condition is about the task at hand: it must go through the tunnel,
unless it is a load and the tunnel is silent. -/

section

variable (tunnel : Bool) (options : Options) (past : List (Task × Answers)) (task : Task)
  (answers : Answers) (v : Value)

/-- **Who decides once the tunnel has reported.**  Ask whatever you like of a new modem, and suppose
that a load of the capabilities returned some that the tunnel had reported.  A later task on
capabilities or modes that succeeds returns what the tunnel answers to it, unless it is again a load
of the capabilities and the tunnel is silent this time.  Then it returns the capabilities that the
device reports. -/
theorem tunnel_decides_iff (hreported : Reported (.fresh tunnel options) past)
    (hrouted : task.IsRouted)
    (hok : (((Modem.fresh tunnel options).after past).perform answers task).result = .ok v) :
    (FromTunnel answers (((Modem.fresh tunnel options).after past).perform answers task) ↔
      ¬ (task = .currentCapabilities ∧ answers.Silent)) ∧
    (task = .currentCapabilities → answers.Silent →
      ∃ caps, answers.deviceCaps = .ok caps ∧ v = .capability caps.capability) := by
  have htunnelled := Modem.tunnelled_of_reported hreported
  by_cases hload : task = .currentCapabilities
  · subst hload
    rcases Modem.load_of_tunnelled htunnelled hok with ⟨hheard, hfrom⟩ | ⟨hsilent, hnot, hdevice⟩
    · exact ⟨⟨fun _ h => hheard h.2, fun _ => hfrom⟩, fun _ hsilent => absurd hsilent hheard⟩
    · exact ⟨⟨fun hfrom => absurd hfrom hnot, fun h => absurd ⟨rfl, hsilent⟩ h⟩, fun _ _ => hdevice⟩
  · exact ⟨⟨fun _ h => hload h.1, fun _ => Modem.fromTunnel_of_tunnelled htunnelled hrouted hload⟩,
      fun h => absurd h hload⟩

end

/-- A device that tells of GSM alone, and a tunnel with these capabilities that fails otherwise. -/
def gsmDevice (capabilities : Except Error Capability) : Answers where
  deviceCaps := .ok { cellularClass := 1 }
  subscribe _ := .ok ()
  capabilities := capabilities
  supportedCapabilities := .error .timeout
  modes := .error .timeout
  supportedModes := .error .timeout
  setModes _ := .error .timeout

theorem reported_once : Reported (.fresh true {}) [(.currentCapabilities, gsmDevice (.ok .lte))] :=
  ⟨[], gsmDevice (.ok .lte), [], .lte, rfl, by decide, rfl, .capabilities, by decide, rfl⟩

/-- A load that the tunnel does not answer, after one that it did. -/
theorem tunnel_decides_iff_silent :
    (gsmDevice (.error .timeout)).Silent ∧
    ¬ FromTunnel (gsmDevice (.error .timeout))
      (((Modem.fresh true {}).after [(.currentCapabilities, gsmDevice (.ok .lte))]).perform
        (gsmDevice (.error .timeout)) .currentCapabilities) := by
  have hsilent : (gsmDevice (.error .timeout)).Silent := .inl ⟨_, rfl⟩
  obtain ⟨hiff, -⟩ :=
    tunnel_decides_iff true {} [(.currentCapabilities, gsmDevice (.ok .lte))] .currentCapabilities
    (gsmDevice (.error .timeout)) (.capability .gsmUmts) reported_once trivial rfl
  exact ⟨hsilent, fun hfrom => hiff.mp hfrom ⟨rfl, hsilent⟩⟩

/-- Once the tunnel fails, a load returns the device's capabilities again. -/
theorem later_load_falls_back :
    let past := [(Task.currentCapabilities, gsmDevice (.ok .lte))]
    let now := gsmDevice (.error .timeout)
    let outcome := ((Modem.fresh true {}).after past).perform now .currentCapabilities
    Reported (.fresh true {}) past ∧ outcome.result = .ok (.capability .gsmUmts) ∧
      now.deviceCaps = .ok { cellularClass := 1 } ∧ ¬ FromTunnel now outcome := by
  refine ⟨reported_once, rfl, rfl, ?_⟩
  rw [Modem.fromTunnel_load]
  rintro ⟨-, hsame⟩
  cases hsame

end Cellular.Mbim
