import Cellular.Wait.Debouncer
/-!
# The party that waits for a debouncer to expire

A party that is asleep remembers the generation of the deadline it sleeps on.  The generation wraps
around, and expiry does not count as one, so equal generations do not tell equal deadlines.  They do
tell that some deadline is set: arms and cancels take turns, so while a party sleeps the debouncer
is armed exactly when its generation is as even or odd as the one remembered (`Sleeper.Fits`).
Hence what expires was armed (`pollExpired_ready`).

They tell more where the party looks often enough.  If the deadline has been set or taken away fewer
times since it looked than there are generations (`Sleeper.Behind`), then equal generations do tell
equal deadlines: what expires is due (`Sleeper.Behind.ready`), and a party that waits on after a
poll sleeps on the deadline that is set (`Sleeper.Behind.pending`).

Both invariants are about numbers of 32 bits that are counted up by one at a time.  The first needs
only that adding one changes parity, also at the end of the range, where it goes back to zero.  The
second needs that fewer steps than the size of the range never lead back to the same number
(`no_change_of_generation`).
-/

namespace Cellular.Debouncer

/-! ## Even and odd generations

An arm or a cancel that takes effect adds one to the generation, and it changes whether a deadline
is set.  So a party that fell asleep while one was set can tell whether one is set now from
whether the generation is as even, or as odd, as it was then.  The number of generations is even,
so that wrapping around does no harm. -/

/-- What a party that is asleep may take for granted. -/
def Sleeper.Fits (d : Debouncer) : Sleeper → Prop
  | .idle => True
  | .asleep _ generation => d.isArmed ↔ d.generation.toNat % 2 = generation.toNat % 2

/-- One arm or cancel more makes even odd and odd even, also where the generation wraps around. -/
theorem generation_add_one (g : UInt32) : (g + 1).toNat % 2 = 1 - g.toNat % 2 := by
  have hlt : g.toNat < 4294967296 := g.toNat_lt
  have hadd : (g + 1).toNat = (g.toNat + 1) % 4294967296 := UInt32.toNat_add g 1
  omega

/-- Whoever looks knows how things stand. -/
theorem settle_fits (d : Debouncer) : d.settle.Fits d := by
  unfold settle
  split
  · trivial
  · rename_i deadline h
    simp [Sleeper.Fits, isArmed, h]

/-- A cancel leaves no deadline. -/
theorem isArmed_cancel (d : Debouncer) : d.cancel.1.isArmed = false := by
  unfold cancel
  split
  · rename_i h
    simp [isArmed, h]
  · rfl

/-- An arm leaves a deadline. -/
theorem isArmed_arm (d : Debouncer) (now : Nat) : (d.arm now).1.isArmed = true := by
  unfold arm
  split
  · rename_i h
    simp [isArmed, h]
  · rfl

@[simp] theorem cancel_deadline (d : Debouncer) : d.cancel.1.deadline = none := by
  unfold cancel
  split
  · assumption
  · rfl

@[simp] theorem cancel_timeout (d : Debouncer) : d.cancel.1.timeout = d.timeout := by
  unfold cancel
  split <;> rfl

@[simp] theorem arm_timeout (d : Debouncer) (now : Nat) : (d.arm now).1.timeout = d.timeout := by
  unfold arm
  split <;> rfl

/-- A deadline that is set or taken away: both sides change. -/
theorem Sleeper.Fits.toggle {d d' : Debouncer} {s : Sleeper} (h : s.Fits d)
    (hg : d'.generation = d.generation + 1) (ha : d'.isArmed = !d.isArmed) : s.Fits d' := by
  cases s with
  | idle => trivial
  | asleep timer generation =>
    have hiff : d.isArmed = true ↔ d.generation.toNat % 2 = generation.toNat % 2 := h
    show d'.isArmed = true ↔ d'.generation.toNat % 2 = generation.toNat % 2
    -- both sides of the equivalence turn into their opposite
    rw [hg, generation_add_one, ha]
    cases hd : d.isArmed <;> simp [hd] at hiff ⊢ <;> omega

/-- An arm keeps what the party takes for granted. -/
theorem Sleeper.Fits.arm {d : Debouncer} {s : Sleeper} (h : s.Fits d) (now : Nat) :
    s.Fits (d.arm now).1 := by
  cases hd : d.deadline with
  | some deadline =>
    have hsame : (d.arm now).1 = d := by simp [Debouncer.arm, hd]
    rw [hsame]
    exact h
  | none => exact h.toggle (by simp [Debouncer.arm, hd]) (by simp [Debouncer.arm, isArmed, hd])

/-- So does a cancel. -/
theorem Sleeper.Fits.cancel {d : Debouncer} {s : Sleeper} (h : s.Fits d) : s.Fits d.cancel.1 := by
  cases hd : d.deadline with
  | some deadline =>
    exact h.toggle (by simp [Debouncer.cancel, hd]) (by simp [Debouncer.cancel, isArmed, hd])
  | none =>
    have hsame : d.cancel.1 = d := by simp [Debouncer.cancel, hd]
    rw [hsame]
    exact h

/-- A party that goes on waiting leaves the debouncer alone. -/
theorem pollExpired_pending {d d' : Debouncer} {now : Nat} {s s' : Sleeper} (hs : s.Fits d)
    (h : d.pollExpired now s = (d', .pending s')) : d' = d ∧ s'.Fits d := by
  cases s with
  | idle =>
    obtain ⟨rfl, hs'⟩ := Prod.mk.inj h
    obtain rfl := Poll.pending.inj hs'
    exact ⟨rfl, settle_fits d⟩
  | asleep timer generation =>
    simp only [pollExpired] at h
    split at h <;> split at h <;>
      simp only [Prod.mk.injEq, Poll.pending.injEq, reduceCtorEq, and_false] at h
    · obtain ⟨rfl, rfl⟩ := h
      exact ⟨rfl, settle_fits d⟩
    · obtain ⟨rfl, rfl⟩ := h
      exact ⟨rfl, hs⟩
    · obtain ⟨rfl, rfl⟩ := h
      exact ⟨rfl, settle_fits d⟩

/-- What expires was armed, and is disarmed. -/
theorem pollExpired_ready {d d' : Debouncer} {now : Nat} {s : Sleeper} (hs : s.Fits d)
    (h : d.pollExpired now s = (d', .ready ())) :
    d.isArmed = true ∧ d' = { d with deadline := none } := by
  cases s with
  | idle => cases h
  | asleep timer generation =>
    simp only [pollExpired] at h
    split at h <;> split at h <;> simp only [Prod.mk.injEq, reduceCtorEq, and_false, and_true] at h
    rename_i _ hg
    exact ⟨hs.mpr (by rw [hg]), h.symm⟩

/-- A party to which another poll makes no difference is not asleep while no deadline is set. -/
theorem Sleeper.Fits.at_rest {d : Debouncer} {now : Nat} {s : Sleeper} (h : s.Fits d)
    (hd : d.deadline = none) (hpoll : d.pollExpired now s = (d, .pending s)) : s = .idle := by
  cases s with
  | idle => rfl
  | asleep timer generation =>
    have hne : d.generation ≠ generation := by
      intro hg
      have harmed : d.isArmed = true := h.mpr (by rw [hg])
      simp [isArmed, hd] at harmed
    simp only [pollExpired] at hpoll
    split at hpoll <;> simp [hne, settle, hd] at hpoll

/-! ## A party that looks often enough

Beside the generation that it remembers, a party has a count of changes since.  The count is no part
of the program; it is what a run provides, and all that is used of it is that it stays below the
number of generations. -/

/-- The deadline has been set or taken away so many times since the party looked. -/
def Sleeper.Behind (d : Debouncer) (changes : Nat) : Sleeper → Prop
  | .idle => True
  | .asleep timer generation => d.generation = generation + UInt32.ofNat changes ∧
      (changes = 0 → d.deadline = some timer.expiresAt)

/-- After fewer changes than there are generations, the generation is the same only if there was
none. -/
theorem no_change_of_generation {g : UInt32} {changes : Nat} (hlt : changes < UInt32.size)
    (h : g = g + UInt32.ofNat changes) : changes = 0 := by
  have hnat : g.toNat = (g.toNat + changes) % 4294967296 := by
    have h' := congrArg UInt32.toNat h
    rw [UInt32.toNat_add, UInt32.toNat_ofNat'] at h'
    omega
  have hbound : g.toNat < 4294967296 := g.toNat_lt
  have hsize : UInt32.size = 4294967296 := rfl
  omega

/-- Whoever looks has missed nothing. -/
theorem settle_behind (d : Debouncer) : d.settle.Behind d 0 := by
  unfold settle
  split
  · trivial
  · rename_i deadline h
    exact ⟨by simp, fun _ => h⟩

/-- One more change is one more that the party has not seen. -/
theorem Sleeper.Behind.change {d d' : Debouncer} {s : Sleeper} {changes : Nat}
    (h : s.Behind d changes) (hg : d'.generation = d.generation + 1) :
    s.Behind d' (changes + 1) := by
  cases s with
  | idle => trivial
  | asleep timer generation =>
    obtain ⟨hgen, -⟩ := h
    refine ⟨?_, by simp⟩
    rw [hg, hgen, UInt32.ofNat_add, UInt32.add_assoc]
    rfl

/-- An arm is one more change at most. -/
theorem Sleeper.Behind.arm {d : Debouncer} {s : Sleeper} {changes : Nat}
    (h : s.Behind d changes) (now : Nat) :
    ∃ changes' ≤ changes + 1, s.Behind (d.arm now).1 changes' := by
  cases hd : d.deadline with
  | some deadline =>
    have hsame : (d.arm now).1 = d := by simp [Debouncer.arm, hd]
    exact ⟨changes, Nat.le_succ _, by rw [hsame]; exact h⟩
  | none => exact ⟨changes + 1, Nat.le_refl _, h.change (by simp [Debouncer.arm, hd])⟩

/-- So is a cancel. -/
theorem Sleeper.Behind.cancel {d : Debouncer} {s : Sleeper} {changes : Nat}
    (h : s.Behind d changes) :
    ∃ changes' ≤ changes + 1, s.Behind d.cancel.1 changes' := by
  cases hd : d.deadline with
  | some deadline => exact ⟨changes + 1, Nat.le_refl _, h.change (by simp [Debouncer.cancel, hd])⟩
  | none =>
    have hsame : d.cancel.1 = d := by simp [Debouncer.cancel, hd]
    exact ⟨changes, Nat.le_succ _, by rw [hsame]; exact h⟩

/-- A party that polls has looked: it sleeps on the deadline that is set. -/
theorem Sleeper.Behind.pending {d d' : Debouncer} {now changes : Nat} {s s' : Sleeper}
    (h : s.Behind d changes) (hlt : changes < UInt32.size)
    (hpoll : d.pollExpired now s = (d', .pending s')) : s' = d.settle := by
  cases s with
  | idle => exact (Poll.pending.inj (Prod.mk.inj hpoll).2).symm
  | asleep timer generation =>
    obtain ⟨hgen, hdeadline⟩ := h
    simp only [pollExpired] at hpoll
    split at hpoll <;> split at hpoll <;>
      simp only [Prod.mk.injEq, Poll.pending.injEq, reduceCtorEq, and_false] at hpoll
    · exact hpoll.2.symm
    · -- still the same deadline, since the generation is the same
      rename_i timer' htimer hsame
      have hd := hdeadline (no_change_of_generation hlt (hsame ▸ hgen))
      unfold Timer.poll at htimer
      split at htimer
      · cases htimer
      · obtain rfl := Poll.pending.inj htimer
        rw [← hpoll.2, settle, hd, hsame]
    · exact hpoll.2.symm

/-- What expires is due. -/
theorem Sleeper.Behind.ready {d d' : Debouncer} {now changes : Nat} {s : Sleeper}
    (h : s.Behind d changes) (hlt : changes < UInt32.size)
    (hpoll : d.pollExpired now s = (d', .ready ())) :
    ∃ deadline, d.deadline = some deadline ∧ deadline ≤ now := by
  cases s with
  | idle => cases hpoll
  | asleep timer generation =>
    obtain ⟨hgen, hdeadline⟩ := h
    simp only [pollExpired] at hpoll
    split at hpoll <;> split at hpoll <;>
      simp only [Prod.mk.injEq, reduceCtorEq, and_false, and_true] at hpoll
    rename_i _ htimer hsame
    -- the generation is the one that the sleeper went to sleep with, so nothing has changed
    have hzero : changes = 0 := no_change_of_generation hlt (hsame ▸ hgen)
    refine ⟨timer.expiresAt, hdeadline hzero, ?_⟩
    unfold Timer.poll at htimer
    split at htimer
    · rename_i hdue
      exact hdue.2
    · cases htimer

/-- A party that has looked goes on as soon as the deadline is due. -/
theorem pollExpired_settle {d : Debouncer} {deadline : Nat}
    (hd : d.deadline = some deadline) (now : Nat) :
    d.pollExpired now d.settle =
      if deadline ≤ now then ({ d with deadline := none }, .ready ())
      else (d, .pending d.settle) := by
  by_cases hdue : deadline ≤ now <;> simp [settle, hd, pollExpired, Timer.poll, hdue]

/-- A party that has looked and waits on sleeps until the deadline that is set. -/
theorem settle_waits {d d' : Debouncer} {now deadline : Nat} {s : Sleeper}
    (hpoll : d.pollExpired now d.settle = (d', .pending s)) (hd : d.deadline = some deadline) :
    deadline ∈ d.settle.timers ∧ now < deadline := by
  rw [pollExpired_settle hd] at hpoll
  split at hpoll
  · cases (Prod.mk.inj hpoll).2
  · rename_i hnot
    exact ⟨by simp [settle, hd, Sleeper.timers], Nat.lt_of_not_le hnot⟩

end Cellular.Debouncer
