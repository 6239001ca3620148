import Cellular.Radio.Lock
import Mathlib.Data.List.Dedup
import Mathlib.Data.List.Induction
import Mathlib.Data.List.Perm.Subperm
/-!
# The counters of locks as a map

A lock has one entry at most, and there is room for an entry of every lock (`room_of_not_mem`).  So
no setting is ever left out (`get?_set`), and what is known of a lock is what it was set to last
(`get?_record`).

The table is a list with a capacity, and `setIn` drops a setting when the list is full and has no
entry of the lock.  The theory shows that this never happens: the list has no duplicates to begin
with, setting a lock keeps it so (`nodup_set`), and a list of distinct locks is no longer than the
list of all locks.

1. One entry: what `setIn` does to the list, in either of its two cases.
2. One setting: the invariant, and what is known after it.
3. Any number of settings: an induction from the back, since it is the last setting of a lock that
   counts.
-/

namespace Cellular

/-- Every kind of lock. -/
def Lock.all : List Lock :=
  [.simPin, .simPuk, .simPin2, .simPuk2, .phFsimPin, .phFsimPuk, .phNetPin, .phNetPuk]

theorem Lock.mem_all (lock : Lock) : lock ∈ all := by cases lock <;> decide

namespace UnlockRetries

variable {room n : Nat} {lock other : Lock} {es : List (Lock × Nat)} {r : UnlockRetries}
  {calls : List (Lock × Nat)}

/-! ## One entry

Setting a lock either replaces its entry where that stands or adds one behind all others.  The
capacity plays a part in the second case only. -/

/-- The entry of a lock that has one is replaced, and any other lock gets one while there is
room. -/
theorem map_setIn : (setIn room lock n es).map Prod.fst =
    if lock ∈ es.map Prod.fst then es.map Prod.fst
    else if es.length < room then es.map Prod.fst ++ [lock] else es.map Prod.fst := by
  induction es generalizing room with
  | nil => cases room <;> simp [setIn]
  | cons e es ih =>
    rw [setIn]
    split
    · rename_i heq
      simp [heq]
    · rename_i hne
      -- one entry passed, and one place less
      have hroom : es.length < room - 1 ↔ es.length + 1 < room := by omega
      simp only [List.map_cons, ih, List.mem_cons, List.length_cons, Ne.symm hne, false_or, hroom]
      split
      · rfl
      · split <;> rfl

/-- A lock that has an entry, or for which there is room, is known afterwards as it was set. -/
theorem find?_setIn_self (h : lock ∈ es.map Prod.fst ∨ es.length < room) :
    (setIn room lock n es).find? (·.1 = lock) = some (lock, n) := by
  induction es generalizing room with
  | nil =>
    have hroom : room ≠ 0 := by simpa [Nat.pos_iff_ne_zero] using h
    simp [setIn, hroom]
  | cons e es ih =>
    rw [setIn]
    split
    · simp
    · rename_i hne
      have hrest : lock ∈ es.map Prod.fst ∨ es.length < room - 1 := by
        refine h.imp (fun hmem => ?_) fun hroom => by rw [List.length_cons] at hroom; omega
        exact (List.mem_cons.mp hmem).resolve_left (Ne.symm hne)
      simp [hne, ih hrest]

/-- What is known of other locks stays as it was. -/
theorem find?_setIn_other (h : other ≠ lock) :
    (setIn room lock n es).find? (·.1 = other) = es.find? (·.1 = other) := by
  induction es generalizing room with
  | nil => cases room <;> simp [setIn, h.symm]
  | cons e es ih =>
    rw [setIn]
    split
    · rename_i heq
      simp [heq, h.symm]
    · rw [List.find?_cons, List.find?_cons, ih]

/-! ## One setting

The locks of a table are distinct, which every setting preserves.  From that it follows that there
is room for a lock without an entry, so the side condition of the lemmas above is always met. -/

/-- The locks that are known. -/
def locks (r : UnlockRetries) : List Lock := r.entries.map Prod.fst

theorem size_eq (r : UnlockRetries) : r.size = r.locks.length := (List.length_map _).symm

/-- There is room for a lock that has no entry. -/
theorem room_of_not_mem (h : r.locks.Nodup) (hlock : lock ∉ r.locks) :
    r.entries.length < capacity := by
  have hnodup : (lock :: r.locks).Nodup := List.nodup_cons.mpr ⟨hlock, h⟩
  have hmany : (lock :: r.locks).length ≤ Lock.all.length :=
    (hnodup.subperm fun lock _ => lock.mem_all).length_le
  rw [List.length_cons, ← size_eq] at hmany
  exact hmany

theorem locks_set (h : r.locks.Nodup) :
    (r.set lock n).locks = if lock ∈ r.locks then r.locks else r.locks ++ [lock] := by
  have hlocks : (r.set lock n).locks = (setIn capacity lock n r.entries).map Prod.fst := rfl
  rw [hlocks, map_setIn]
  by_cases hlock : lock ∈ r.locks
  · rw [if_pos hlock]
    exact if_pos hlock
  · rw [if_neg hlock, if_pos (room_of_not_mem h hlock)]
    exact if_neg hlock

/-- A setting gives no lock a second entry. -/
theorem nodup_set (h : r.locks.Nodup) : (r.set lock n).locks.Nodup := by
  rw [locks_set h]
  split
  · exact h
  · rename_i hlock
    exact List.Nodup.append h (List.nodup_singleton lock) (List.disjoint_singleton.mpr hlock)

/-- After a setting its lock is known, and besides it those that were known before. -/
theorem mem_locks_set (h : r.locks.Nodup) :
    other ∈ (r.set lock n).locks ↔ other ∈ r.locks ∨ other = lock := by
  rw [locks_set h]
  split
  · rename_i hlock
    exact ⟨.inl, fun hor => hor.elim id fun heq => heq ▸ hlock⟩
  · rw [List.mem_append, List.mem_singleton]

/-- What is set is known, and nothing else changes. -/
theorem get?_set (h : r.locks.Nodup) (lock other : Lock) (n : Nat) :
    (r.set lock n).get? other = if other = lock then some n else r.get? other := by
  split
  · rename_i heq
    subst heq
    -- there are as many places as locks, so a lock that is not listed finds one
    have hroom : other ∈ r.locks ∨ r.entries.length < capacity :=
      (Decidable.em _).imp_right (room_of_not_mem h)
    have hfind : ((r.set other n).entries.find? (·.1 = other)) = some (other, n) :=
      find?_setIn_self hroom
    rw [get?, hfind]
    rfl
  · rename_i hne
    have hfind : ((r.set lock n).entries.find? (·.1 = other)) = r.entries.find? (·.1 = other) :=
      find?_setIn_other hne
    rw [get?, hfind, get?]

/-! ## Any number of settings

The settings are taken from the last one backwards: with one more setting at the end, the last
setting of its lock is that one, and those of all other locks are as before. -/

/-- What is known once all of these have been set, one after another. -/
def record (calls : List (Lock × Nat)) : UnlockRetries := calls.foldl (fun r c => r.set c.1 c.2) {}

/-- The last of the settings of a lock. -/
def lastSet (calls : List (Lock × Nat)) (lock : Lock) : Option Nat :=
  ((calls.filter (·.1 = lock)).getLast?).map Prod.snd

theorem record_append (calls : List (Lock × Nat)) (c : Lock × Nat) :
    record (calls ++ [c]) = (record calls).set c.1 c.2 := by
  rw [record, List.foldl_append]
  rfl

/-- One more setting is the last one of its lock, and of no other. -/
theorem lastSet_append (calls : List (Lock × Nat)) (c : Lock × Nat) (lock : Lock) :
    lastSet (calls ++ [c]) lock = if lock = c.1 then some c.2 else lastSet calls lock := by
  rw [lastSet, List.filter_append]
  split
  · rename_i heq
    simp [heq]
  · rename_i hne
    simp [Ne.symm hne, lastSet]

/-- No lock has two entries. -/
theorem nodup_record (calls : List (Lock × Nat)) : (record calls).locks.Nodup := by
  induction calls using List.reverseRecOn with
  | nil => exact List.nodup_nil
  | append_singleton calls c ih =>
    rw [record_append]
    exact nodup_set ih

/-- What is known of a lock is what it was set to last. -/
theorem get?_record (calls : List (Lock × Nat)) (lock : Lock) :
    (record calls).get? lock = lastSet calls lock := by
  induction calls using List.reverseRecOn with
  | nil => rfl
  | append_singleton calls c ih =>
    rw [record_append, get?_set (nodup_record calls), ih, lastSet_append]

/-- A lock is known just if it was set. -/
theorem mem_locks_record (calls : List (Lock × Nat)) :
    lock ∈ (record calls).locks ↔ lock ∈ calls.map Prod.fst := by
  induction calls using List.reverseRecOn with
  | nil => rfl
  | append_singleton calls c ih =>
    rw [record_append, mem_locks_set (nodup_record calls), ih, List.map_append, List.mem_append,
      List.map_singleton, List.mem_singleton]

/-- There are as many entries as locks that were set. -/
theorem size_record (calls : List (Lock × Nat)) :
    (record calls).size = (calls.map Prod.fst).dedup.length := by
  have hsame : (record calls).locks.Perm (calls.map Prod.fst).dedup :=
    (List.perm_ext_iff_of_nodup (nodup_record calls) (List.nodup_dedup _)).mpr fun lock => by
      rw [mem_locks_record, List.mem_dedup]
  rw [size_eq, hsame.length_eq]

example : (record [(.simPin, 3), (.simPuk, 10), (.simPin, 2)]).entries =
    [(.simPin, 2), (.simPuk, 10)] := by decide

/-- A lock that is set once at most is known as it was set. -/
theorem get?_record_eq_some_iff (h : (calls.map Prod.fst).Nodup) :
    (record calls).get? lock = some n ↔ (lock, n) ∈ calls := by
  rw [get?_record, lastSet, Option.map_eq_some_iff]
  have hlast : ∀ c, (calls.filter (·.1 = lock)).getLast? = some c → c ∈ calls ∧ c.1 = lock :=
    fun c hc => by
    simpa using List.mem_filter.mp (List.mem_of_getLast? hc)
  constructor
  · rintro ⟨c, hc, rfl⟩
    obtain ⟨hmem, rfl⟩ := hlast c hc
    exact hmem
  · -- each lock is set once, so the last set of this one is the one that is given
    intro hmem
    have hne : calls.filter (·.1 = lock) ≠ [] :=
      List.ne_nil_of_mem (List.mem_filter.mpr ⟨hmem, by simp⟩)
    have hsome : (calls.filter (·.1 = lock)).getLast? =
        some ((calls.filter (·.1 = lock)).getLast hne) :=
      List.getLast?_eq_some_getLast hne
    obtain ⟨hmem', hlock⟩ := hlast _ hsome
    have hsame := List.inj_on_of_nodup_map h hmem' hmem hlock
    exact ⟨_, hsome, by rw [hsame]⟩

end UnlockRetries

end Cellular
