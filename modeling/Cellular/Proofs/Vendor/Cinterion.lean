import Cellular.Proofs.Procedure.Modest
import Cellular.Vendor.Cinterion
/-!
# The operations of a Cinterion modem are modest

Only switching the module off takes a seat on the board, and it gives it up again.

So all operations are modest, and what a line does that comes too late for one of them is settled by
a general lemma.  The lemmas below go through the operations one by one; each is put together along
the definition of its operation, and says nothing about what is sent.
-/

namespace Cellular.Cinterion

open Operation

/-! ## Switching on and off

The rules for modest operations are applied to the body of each operation, in the order of its
steps.  Only switching off takes a seat. -/

/-- Once it is known how to put the module to sleep. -/
theorem sleep_modest : Modest (do
    match (← MonadState.get).sleepMode with
    | .level n => Functor.discard <| step false .soft (.setFunctionality n)
    | _ => Pure.pure () : Operation Cinterion Unit) := by
  refine Modest.get.bind fun m => ?_
  split
  · exact (Modest.step _ _ _).discard
  · exact .pure ()

/-- Putting the radio to sleep takes no seat. -/
theorem powerDown_modest : powerDown.Modest := by
  refine Modest.get.bind fun m => ?_
  split
  · exact (Modest.attempt _).bind fun levels => (Modest.modify _).bind fun _ => sleep_modest
  · exact sleep_modest

/-- Switching off takes one seat and gives it up. -/
theorem powerOff_modest : powerOff.Modest := by
  refine Modest.get.bind fun m s held => Abides.withSeat rfl fun ticket => Abides.discard ?_
  exact Abides.join List.mem_cons_self trivial fun r => ⟨rfl, rfl⟩

theorem setupFlowControl_modest : setupFlowControl.Modest := .send _

/-- Reading counters takes no seat, however many there are. -/
theorem readCounters_modest (locks : List (Lock × Command Nat)) (known : UnlockRetries) :
    (readCounters locks known).Modest := by
  induction locks generalizing known with
  | nil => exact .pure known
  | cons lock locks ih =>
    refine (Modest.attempt lock.2).bind fun answer => ?_
    cases answer with
    | ok retries => exact ih _
    | error e => exact ih _

theorem loadUnlockRetries_modest : loadUnlockRetries.Modest := readCounters_modest _ _

/-- Waiting for the SIM takes no seat, however often it is asked for. -/
theorem awaitSim_modest (interval retries : Nat) : (awaitSim interval retries).Modest := by
  induction retries with
  | zero => exact .pure ()
  | succ retries ih =>
    refine (Modest.attempt _).bind fun answer => ?_
    split
    · exact .pure ()
    · exact (Modest.pause interval).bind fun _ => ih

theorem afterSimUnlock_modest : afterSimUnlock.Modest :=
  Modest.get.bind fun _ => awaitSim_modest _ _

/-! ## Bands, modes and registration -/

theorem loadSupportedBands_modest : loadSupportedBands.Modest :=
  (Modest.send _).bind fun _ => (Modest.modify _).bind fun _ => .pure _

theorem loadCurrentBands_modest : loadCurrentBands.Modest := .send _

/-- Choosing bands takes no seat. -/
theorem setCurrentBands_modest (bands : List Band) : (setCurrentBands bands).Modest := by
  refine Modest.get.bind fun m => ?_
  split
  · exact (Modest.liftExcept _).bind fun mask => .send _
  · refine (Modest.liftExcept _).bind fun mask => ?_
    split
    · exact .send _
    · exact .throw _

/-- Listing modes takes no seat. -/
theorem loadSupportedModes_modest : loadSupportedModes.Modest :=
  Modest.parentModes.bind fun _ => Modest.get.bind fun _ => .pure _

/-- Once it is known that no mode is preferred. -/
theorem chooseModes_modest (mode : ModeCombination) : Modest (do
    let m ← MonadState.get
    match forcedTechnologies.find? fun t => mode.allowed = t.1 && m.radio.contains t.1 with
    | some (_, act) => send (.operatorTechnology act)
    | none => send (selection m.operator) : Operation Cinterion Unit) := by
  refine Modest.get.bind fun m => ?_
  split
  · exact .send _
  · exact .send _

/-- Choosing modes takes no seat. -/
theorem setCurrentModes_modest (mode : ModeCombination) : (setCurrentModes mode).Modest := by
  unfold setCurrentModes
  split
  · exact (Modest.throw _).bind fun _ => chooseModes_modest mode
  · exact chooseModes_modest mode

/-- Registering takes no seat. -/
theorem registerInNetwork_modest (operator : Option String) :
    (registerInNetwork operator).Modest := by
  have hregister : Modest (do
      send (selection operator)
      modify fun m => { m with operator } : Operation Cinterion Unit) :=
        (Modest.send _).bind fun _ => .modify _
  unfold registerInNetwork
  split
  · exact (Modest.throw _).bind fun _ => hregister
  · exact hregister

/-! ## Events, bearers and messages -/

/-- A call to the generic modem takes no seat here. -/
theorem parentIgnored_modest (call : ParentCall) : (parentIgnored call).Modest :=
  (Modest.parent call).catching.discard

/-- The technology that the indicator tells, if it tells one. -/
theorem takeTechnology_modest (state : Option IndicatorState) : Modest (match state with
    | some state => modify fun m => { m with technology := technologyOfPsinfo state.value }
    | none => Pure.pure () : Operation Cinterion Unit) := by
  cases state with
  | none => exact .pure ()
  | some state => exact .modify _

/-- Switching reports on takes no seat. -/
theorem enableEvents_modest : enableEvents.Modest := by
  refine (parentIgnored_modest _).bind fun _ => Modest.get.bind fun m => ?_
  split
  · exact takeTechnology_modest none
  · refine Modest.get.bind fun m' =>
      ((Modest.attempt _).resolveValue m'.psinfo).bind fun found => ?_
    exact (Modest.modify _).bind fun _ => takeTechnology_modest found.1
  · exact (Modest.attempt _).bind fun answer => takeTechnology_modest answer.toOption

/-- Nor does switching them off. -/
theorem disableEvents_modest : disableEvents.Modest := by
  refine Modest.get.bind fun m => ?_
  split
  · exact (Modest.attempt _).discard.bind fun _ => parentIgnored_modest _
  · exact parentIgnored_modest _

/-- Asking for the access technology takes no seat. -/
theorem loadTechnology_modest : loadTechnology.Modest := by
  have hload : Modest (do
      let technology ← send .gprsMonitor
      modify fun m => { m with technology }
      return technology : Operation Cinterion AccessTechnology) :=
    (Modest.send _).bind fun _ => (Modest.modify _).bind fun _ => .pure _
  refine Modest.get.bind fun m => ?_
  split
  · exact (Modest.throw _).bind fun _ => hload
  · exact hload

/-- Creating a bearer takes no seat. -/
theorem createBearer_modest : createBearer.Modest := by
  have hrest : Modest (do
      let wwan ← (← MonadState.get).wwan.resolve (attempt .testWwan)
      modify fun m => { m with wwan }
      return wwan.bearerKind : Operation Cinterion BearerKind) :=
    Modest.get.bind fun m => ((Modest.attempt _).resolve m.wwan).bind fun wwan =>
      (Modest.modify _).bind fun _ => .pure _
  refine Modest.get.bind fun m => Modest.get.bind fun m' => ?_
  split
  · exact (Modest.modify _).bind fun _ => hrest
  · exact hrest

/-- Asking about messages takes no seat. -/
theorem checkMessaging_modest : checkMessaging.Modest := by
  refine (Modest.attempt _).bind fun answer => ?_
  split
  · exact .modify _
  · exact .pure ()
  · exact .throw _

theorem enableMessaging_modest : enableMessaging.Modest := Modest.get.bind fun _ =>
  (Modest.liftExcept _).bind fun command => .send command

/-- The operations that a Cinterion modem has. -/
inductive IsOperation : {α : Type} → Operation Cinterion α → Prop where
  | powerDown : IsOperation powerDown
  | powerOff : IsOperation powerOff
  | setupFlowControl : IsOperation setupFlowControl
  | loadUnlockRetries : IsOperation loadUnlockRetries
  | afterSimUnlock : IsOperation afterSimUnlock
  | loadSupportedBands : IsOperation loadSupportedBands
  | loadCurrentBands : IsOperation loadCurrentBands
  | setCurrentBands (bands : List Band) : IsOperation (setCurrentBands bands)
  | loadSupportedModes : IsOperation loadSupportedModes
  | setCurrentModes (mode : ModeCombination) : IsOperation (setCurrentModes mode)
  | registerInNetwork (operator : Option String) : IsOperation (registerInNetwork operator)
  | enableEvents : IsOperation enableEvents
  | disableEvents : IsOperation disableEvents
  | loadTechnology : IsOperation loadTechnology
  | createBearer : IsOperation createBearer
  | checkMessaging : IsOperation checkMessaging
  | enableMessaging : IsOperation enableMessaging

/-- Whatever the operation, it is modest. -/
theorem IsOperation.modest {α : Type} {op : Operation Cinterion α} (h : IsOperation op) :
    op.Modest := by
  cases h with
  | powerDown => exact powerDown_modest
  | powerOff => exact powerOff_modest
  | setupFlowControl => exact setupFlowControl_modest
  | loadUnlockRetries => exact loadUnlockRetries_modest
  | afterSimUnlock => exact afterSimUnlock_modest
  | loadSupportedBands => exact loadSupportedBands_modest
  | loadCurrentBands => exact loadCurrentBands_modest
  | setCurrentBands bands => exact setCurrentBands_modest bands
  | loadSupportedModes => exact loadSupportedModes_modest
  | setCurrentModes mode => exact setCurrentModes_modest mode
  | registerInNetwork operator => exact registerInNetwork_modest operator
  | enableEvents => exact enableEvents_modest
  | disableEvents => exact disableEvents_modest
  | loadTechnology => exact loadTechnology_modest
  | createBearer => exact createBearer_modest
  | checkMessaging => exact checkMessaging_modest
  | enableMessaging => exact enableMessaging_modest

end Cellular.Cinterion
