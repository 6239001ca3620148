import Cellular.Proofs.Bearer.History
/-!
# What connecting and disconnecting leave alone

Connecting and disconnecting change neither what registration forbids nor the disconnects that are
pending, and whatever they do after their start they do without asking for another disconnect.  Here
that is proved once for every step of theirs (`Bearer.Leaves`).

`Leaves` is a relation between two bearers, reflexive and transitive, and so what an action does can
be followed step by step.  Each step either changes nothing of interest or adds one event.  The
lemmas go from the inside to the outside: from the end of a vendor call to its polls, to its
beginning, and to actions.
-/

namespace Cellular

namespace Bearer

variable {σ : Type} {be : Backend σ}

/-- A bearer that changes, but not in what registration forbids nor in what is pending, and nobody
asks for a disconnect on the way. -/
structure Leaves (b b' : Bearer σ) : Prop where
  tracker : b'.tracker = b.tracker
  threeGpp : b'.threeGpp = b.threeGpp
  cdma : b'.cdma = b.cdma
  history : ∃ es, b'.history = b.history ++ es ∧ isAsked es = false

/-- Nothing happens that the history tells. -/
theorem Leaves.quiet {b b' : Bearer σ} (ht : b'.tracker = b.tracker) (h3 : b'.threeGpp = b.threeGpp)
    (hc : b'.cdma = b.cdma) (hh : b'.history = b.history) : b.Leaves b' :=
  ⟨ht, h3, hc, [], by rw [hh, List.append_nil], rfl⟩

theorem Leaves.refl (b : Bearer σ) : b.Leaves b := .quiet rfl rfl rfl rfl

/-- What is left alone twice is left alone. -/
theorem Leaves.trans {a b c : Bearer σ} (h : a.Leaves b) (h' : b.Leaves c) : a.Leaves c := by
  obtain ⟨es, hh, ha⟩ := h.history
  obtain ⟨es', hh', ha'⟩ := h'.history
  refine ⟨h'.tracker.trans h.tracker, h'.threeGpp.trans h.threeGpp, h'.cdma.trans h.cdma,
    es ++ es', ?_, ?_⟩
  · rw [hh', hh, List.append_assoc]
  · rw [isAsked_append, ha, ha']; rfl

/-- One event that is not that a disconnect is asked for. -/
theorem Leaves.event {b b' : Bearer σ} {e : BearerEvent} (ht : b'.tracker = b.tracker)
    (h3 : b'.threeGpp = b.threeGpp) (hc : b'.cdma = b.cdma) (hh : b'.history = b.history ++ [e])
    (he : e.isAsked = false) : b.Leaves b' :=
  ⟨ht, h3, hc, [e], hh, by simp [isAsked, he]⟩

/-- The end of an action leaves all of it alone. -/
theorem finish_leaves (b : Bearer σ) (status : BearerStatus) (result : Except Error Unit) :
    b.Leaves (b.finish be status result).1 := .event rfl rfl rfl rfl rfl

/-- So does what follows the vendor's disconnect. -/
theorem afterDisconnect_leaves (b : Bearer σ) (errand : Errand) (r : Except Error Unit) :
    b.Leaves (b.afterDisconnect be errand r).1 := by
  unfold afterDisconnect
  split <;> exact finish_leaves _ _ _

/-- So does a poll of it. -/
theorem pollDisconnect_leaves (b : Bearer σ) (errand : Errand) (call : be.Call) :
    b.Leaves (b.pollDisconnect be errand call).1 := by
  unfold pollDisconnect
  split
  · exact .quiet rfl rfl rfl rfl
  · rename_i vendor result _
    have hended : b.Leaves ({ b with vendor }.note (.ended errand result)) :=
      .event rfl rfl rfl rfl rfl
    exact hended.trans (afterDisconnect_leaves _ _ _)

/-- So does undoing a connect. -/
theorem undo_leaves (b : Bearer σ) : b.Leaves (b.undo be).1 := by
  have hstatus : b.Leaves (b.setStatus .disconnecting) := .event rfl rfl rfl rfl rfl
  have hbegan : b.Leaves ((b.setStatus .disconnecting).note (.began .undo)) :=
    hstatus.trans (.event rfl rfl rfl rfl rfl)
  exact hbegan.trans (pollDisconnect_leaves _ _ _)

/-- So does what follows the vendor's connect. -/
theorem afterConnect_leaves (b : Bearer σ) (r : Except Error Unit) :
    b.Leaves (b.afterConnect be r).1 := by
  unfold afterConnect
  split
  · exact undo_leaves b
  · exact finish_leaves _ _ _
  · split
    · exact undo_leaves b
    · exact finish_leaves _ _ _

/-- So does a poll of any vendor call. -/
theorem pollVendor_leaves (b : Bearer σ) (errand : Errand) (call : be.Call) :
    b.Leaves (b.pollVendor be errand call).1 := by
  unfold pollVendor
  split
  · unfold pollConnect
    split
    · exact .quiet rfl rfl rfl rfl
    · rename_i vendor result _
      have hended : b.Leaves ({ b with vendor }.note (.ended .connect result)) :=
        .event rfl rfl rfl rfl rfl
      exact hended.trans (afterConnect_leaves _ _)
  · exact pollDisconnect_leaves _ _ _

/-- So does beginning one. -/
theorem launch_leaves (b : Bearer σ) (errand : Errand) : b.Leaves (b.launch be errand).1 := by
  unfold launch
  split
  · exact .refl b
  · have hbegan : b.Leaves ({ b with locked := true }.note (.began errand)) :=
      .event rfl rfl rfl rfl rfl
    exact hbegan.trans (pollVendor_leaves _ _ _)

/-- So does waiting for the end of a connect. -/
theorem awaitEnd_leaves (b : Bearer σ) : b.Leaves (b.awaitEnd be).1 := by
  unfold awaitEnd
  split <;> exact .refl b

/-- Whatever an action does after its first wait. -/
theorem resume_leaves (b : Bearer σ) (wait : ActionWait be.Call) :
    b.Leaves (b.resume be wait).1 := by
  cases wait with
  | lock errand => exact launch_leaves b errand
  | vendor errand call => exact pollVendor_leaves b errand call
  | ending => exact awaitEnd_leaves b

/-- So does a connect, up to its first wait. -/
theorem connect_leaves (b : Bearer σ) : b.Leaves (b.connect be).1 := by
  unfold connect
  split
  · exact .refl b
  · exact .refl b
  · split
    · exact .refl b
    · split
      · exact .refl b
      · have hstatus : b.Leaves ({ b with cancelled := false }.setStatus .connecting) :=
          .event rfl rfl rfl rfl rfl
        exact hstatus.trans (launch_leaves _ _)

/-- A disconnect, after it was asked for. -/
theorem disconnect_leaves (b : Bearer σ) : (b.note (.asked false)).Leaves (b.disconnect be).1 := by
  have hstatus : (b.note (.asked false)).Leaves
      ((b.note (.asked false)).setStatus .disconnecting) :=
    .event rfl rfl rfl rfl rfl
  unfold disconnect
  dsimp only
  -- one case per status: down, going down, connecting, up
  split
  · exact .refl _
  · exact .refl _
  · have hcancel : (b.note (.asked false)).Leaves
        { (b.note (.asked false)).setStatus .disconnecting with cancelled := true } :=
      hstatus.trans (.quiet rfl rfl rfl rfl)
    exact hcancel.trans (awaitEnd_leaves _)
  · exact hstatus.trans (launch_leaves _ _)

/-- A forced disconnect, after it was asked for. -/
theorem force_leaves (b : Bearer σ) : (b.note (.asked true)).Leaves (b.force be).1 := by
  have hstatus : (b.note (.asked true)).Leaves ((b.note (.asked true)).setStatus .disconnecting) :=
    .event rfl rfl rfl rfl rfl
  unfold force
  dsimp only
  split
  · exact .refl _
  · exact .refl _
  · exact .quiet rfl rfl rfl rfl
  · exact hstatus.trans (launch_leaves _ _)

end Bearer

end Cellular
