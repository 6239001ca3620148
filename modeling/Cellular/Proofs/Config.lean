import Cellular.Config
import Cellular.Proofs.Json.RoundTrip
/-!
# A stored configuration

Reading what a configuration is stored as gives the configuration with its durations cut to whole
seconds, all the rest as it was (`Config.read_stored`).  So it comes back as it was exactly when it
had nothing but whole seconds.

A record is read by the names of its members.  The general fact is `Json.record?_object`; for a set
of bounds and for a configuration it is left to see that every member is read as it is stored.

Two things have to be seen of every record.  Its text is read back exactly (`Json.Exact`), which
needs all of its numbers to have 64 bits; and every member is found under its name, which needs the
names to be distinct.  The only information that is lost on the way are fractions of a second, and
whether there are any can be told duration by duration (`inWholeSeconds_eq_iff`).
-/

namespace Cellular

/-! ## Records

Members are found by their names, wherever they stand, and a name that occurs twice would make the
record unreadable.  So distinct names are all that reading a written record needs. -/

namespace Json

variable {members : List (String × Json)} {m : String × Json}

/-- Where names are distinct, a member is the only one with its name. -/
theorem filter_name (hnodup : (members.map Prod.fst).Nodup) (hm : m ∈ members) :
    members.filter (fun other => other.1 = m.1) = [m] := by
  induction members with
  | nil => cases hm
  | cons other members ih =>
    obtain ⟨hother, hnodup⟩ := List.nodup_cons.mp hnodup
    rcases List.mem_cons.mp hm with rfl | hm
    · have hnone : members.filter (fun other => other.1 = m.1) = [] := by
        refine List.filter_eq_nil_iff.mpr fun other hmem heq => hother ?_
        exact of_decide_eq_true heq ▸ List.mem_map_of_mem hmem
      rw [List.filter_cons, if_pos (decide_eq_true rfl), hnone]
    · have hne : other.1 ≠ m.1 := fun heq => hother (heq ▸ List.mem_map_of_mem hm)
      rw [List.filter_cons, if_neg (by simpa using hne), ih hnodup hm]

/-- A member is found under its name. -/
theorem only?_of_mem (hnodup : (members.map Prod.fst).Nodup) (hm : m ∈ members) :
    only? members m.1 = some m.2 := by
  rw [only?, filter_name hnodup hm]

/-- A record is read by the names of its members. -/
theorem record?_object (hnodup : (members.map Prod.fst).Nodup) :
    (object members).record? (members.map Prod.fst) = some (members.map Prod.snd) :=
  mapM_written fun _ hm => only?_of_mem hnodup hm

theorem below?_nat {bound n : Nat} (h : n < bound) : (nat n).below? bound = some n := if_pos h

theorem stringWithin?_string {capacity : Nat} {s : String} (h : s.utf8ByteSize ≤ capacity) :
    (string s).stringWithin? capacity = some s := if_pos h

/-- A number of 64 bits is written and read back exactly. -/
theorem exact_nat {n : Nat} (h : n < 18446744073709551616) : Exact (nat n) :=
  .whole ⟨by omega, by omega⟩

end Json

/-! ## Bounds of waits

Four of the bounds are durations, stored in seconds, and the fifth is a number of retries.  The
durations are treated alike: each loses its fraction of a second, and fits when its seconds do. -/

namespace Timing

/-- The durations among the bounds. -/
def durations (t : Timing) : List Nat :=
  [t.deferredUnregistration, t.dialCompletion, t.powerOffWait, t.simReadyInterval]

/-- The bounds with nothing but whole seconds left of their durations. -/
def inWholeSeconds (t : Timing) : Timing where
  deferredUnregistration := t.deferredUnregistration / 1000 * 1000
  dialCompletion := t.dialCompletion / 1000 * 1000
  powerOffWait := t.powerOffWait / 1000 * 1000
  simReadyInterval := t.simReadyInterval / 1000 * 1000
  simReadyRetries := t.simReadyRetries

/-- What there can be: seconds of 64 bits and an octet of retries. -/
structure Fits (t : Timing) : Prop where
  durations : ∀ d ∈ t.durations, d / 1000 < secondsBound
  retries : t.simReadyRetries < 256

variable {t : Timing}

/-- Nothing is lost of bounds whose durations are whole seconds, and of no others. -/
theorem inWholeSeconds_eq_iff : t.inWholeSeconds = t ↔ ∀ d ∈ t.durations, 1000 ∣ d := by
  have hwhole (d : Nat) : d / 1000 * 1000 = d ↔ 1000 ∣ d :=
    ⟨fun h => ⟨d / 1000, by omega⟩, Nat.div_mul_cancel⟩
  cases t
  simp [inWholeSeconds, durations, hwhole]

/-- A duration comes back in whole seconds. -/
theorem seconds?_nat {d : Nat} (h : d / 1000 < secondsBound) :
    seconds? (.nat (d / 1000)) = some (d / 1000 * 1000) := by
  rw [seconds?, Json.below?_nat h, Option.map_some]

/-- Bounds that fit are read back in whole seconds. -/
theorem ofJson?_toJson (h : t.Fits) : ofJson? t.toJson = some t.inWholeSeconds := by
  have hrecord : t.toJson.record? memberNames = some _ :=
    Json.record?_object (show memberNames.Nodup by decide)
  obtain ⟨hdurations, hretries⟩ := h
  simp only [durations, List.forall_mem_cons] at hdurations
  simp [ofJson?, hrecord, seconds?_nat, hdurations, Json.below?_nat hretries, inWholeSeconds]

theorem exact_toJson (h : t.Fits) : t.toJson.Exact := by
  obtain ⟨hdurations, hretries⟩ := h
  simp only [durations, List.forall_mem_cons] at hdurations
  refine .object ?_
  simp only [List.forall_mem_cons]
  exact ⟨Json.exact_nat hdurations.1, Json.exact_nat hdurations.2.1,
    Json.exact_nat hdurations.2.2.1, Json.exact_nat hdurations.2.2.2.1,
    Json.exact_nat (by omega), nofun⟩

end Timing

/-! ## Configurations

A configuration holds a record of bounds among its members, so its lemmas are those of the bounds
with strings and switches around them. -/

namespace Config

/-- The configuration with nothing but whole seconds left of its durations. -/
def inWholeSeconds (c : Config) : Config := { c with timing := c.timing.inWholeSeconds }

/-- What there can be: strings within their capacity, and bounds that fit. -/
structure Fits (c : Config) : Prop where
  apn : c.apn.utf8ByteSize ≤ 64
  user : c.user.utf8ByteSize ≤ 32
  password : c.password.utf8ByteSize ≤ 32
  timing : c.timing.Fits

/-- The text that a configuration is stored as. -/
def stored (c : Config) : String := c.toJson.text

/-- The configuration that a text stores. -/
def ofStored? (s : String) : Option Config := (Json.read? s).bind ofJson?

variable {c : Config}

/-- A configuration that fits is read back in whole seconds. -/
theorem ofJson?_toJson (h : c.Fits) : ofJson? c.toJson = some c.inWholeSeconds := by
  have hrecord : c.toJson.record? memberNames = some _ :=
    Json.record?_object (show memberNames.Nodup by decide)
  simp [ofJson?, hrecord, Json.bool?, Json.stringWithin?_string, h.apn, h.user, h.password,
    Timing.ofJson?_toJson h.timing, inWholeSeconds]

theorem exact_toJson (h : c.Fits) : c.toJson.Exact := by
  refine .object ?_
  simp only [List.forall_mem_cons]
  exact ⟨.bool _, .string _, .string _, .string _, .bool _, .bool _, .bool _,
    Timing.exact_toJson h.timing, nofun⟩

/-- What a configuration is stored as is read as the configuration in whole seconds. -/
theorem read_stored (h : c.Fits) : ofStored? c.stored = some c.inWholeSeconds := by
  rw [ofStored?, stored, Json.read?_text (exact_toJson h), Option.bind_some, ofJson?_toJson h]

/-- Nothing is lost of a configuration whose durations are whole seconds, and of no other. -/
theorem inWholeSeconds_eq_iff : c.inWholeSeconds = c ↔ ∀ d ∈ c.timing.durations, 1000 ∣ d := by
  rw [← Timing.inWholeSeconds_eq_iff]
  constructor
  · intro h
    exact congrArg timing h
  · intro h
    rw [inWholeSeconds, h]

/-- A stored configuration comes back in whole seconds, and so as it was exactly when all its
durations are whole seconds. -/
theorem stored_comes_back (c : Config) (h : c.Fits) :
    ofStored? c.stored = some c.inWholeSeconds ∧
      (ofStored? c.stored = some c ↔ ∀ d ∈ c.timing.durations, 1000 ∣ d) := by
  refine ⟨read_stored h, ?_⟩
  rw [read_stored h, Option.some.injEq, inWholeSeconds_eq_iff]

/-- An escaped password is kept, and half a second of a grace period is not. -/
theorem stored_comes_back_cut :
    let c : Config :=
      { apn := "internet", password := "\"\\\t", timing := { deferredUnregistration := 1500 } }
    c.Fits ∧ ofStored? c.stored =
      some { c with timing := { c.timing with deferredUnregistration := 1000 } } := by
  have hfits : Fits { apn := "internet", password := "\"\\\t", timing :=
    { deferredUnregistration := 1500 } } :=
    ⟨by decide, by decide, by decide, by decide, by decide⟩
  exact ⟨hfits, (stored_comes_back _ hfits).1⟩

/-- A grace period of less than a second is lost. -/
theorem brief_grace_lost : ¬ ∀ c : Config, c.Fits → ofStored? c.stored = some c := by
  intro hall
  have hfits : Fits { timing := { deferredUnregistration := 40 } } :=
    ⟨by decide, by decide, by decide, by decide, by decide⟩
  have hread := read_stored hfits
  rw [hall _ hfits, Option.some.injEq] at hread
  exact absurd hread (by decide)

end Config

end Cellular
