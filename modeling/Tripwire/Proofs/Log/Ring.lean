import Mathlib.Data.List.DropRight
import Mathlib.Data.List.Induction
import Tripwire.Circuit.State

/-!
# What a ring holds

A ring reads as the last entries that were appended to it, as many as it has room for. While it fills up the next
place is its first; then the places are overwritten in turn, and none outside the ring is ever touched.
-/
namespace Tripwire.Log

namespace Ring

variable {α : Type} {ring : Ring α} {a : α} {as : List α} {few most place : Nat}

theorem rtake_rtake (le : few ≤ most) : (as.rtake most).rtake few = as.rtake few := by
  simp [List.rtake_eq_reverse_take_reverse, List.take_take, Nat.min_eq_left le]

theorem rtake_of_length_le (le : as.length ≤ most) : as.rtake most = as := by
  rw [List.rtake, Nat.sub_eq_zero_of_le le, List.drop_zero]

theorem rtake_append_rtake (positive : 0 < most) :
    (as.rtake most ++ [a]).rtake most = (as ++ [a]).rtake most := by
  obtain ⟨few, rfl⟩ := Nat.exists_eq_succ_of_ne_zero (Nat.ne_of_gt positive)
  rw [List.rtake_concat_succ, List.rtake_concat_succ, rtake_rtake (Nat.le_succ few)]

theorem drop_append_take_set (within : place < as.length) (a : α) :
    (as.set place a).drop ((place + 1) % as.length) ++ (as.set place a).take ((place + 1) % as.length) =
      as.drop (place + 1) ++ as.take place ++ [a] := by
  have written : as.set place a = as.take place ++ [a] ++ as.drop (place + 1) := by
    rw [List.set_eq_take_append_cons_drop, if_pos within, List.append_cons]
  have length : (as.take place ++ [a]).length = place + 1 := by
    rw [List.length_append, List.length_take, Nat.min_eq_left (Nat.le_of_lt within),
      List.length_singleton]
  rw [written]
  -- Behind the last place reading begins at the first.
  by_cases last : place + 1 = as.length
  · rw [last, Nat.mod_self, List.drop_zero, List.take_zero, List.drop_length]
    simp
  · have further : place + 1 < as.length := Nat.lt_of_le_of_ne within last
    rw [Nat.mod_eq_of_lt further, List.drop_left' length, List.take_left' length, List.append_assoc]

theorem rtake_turned (within : place < as.length) (a : α) :
    (as.drop place ++ as.take place ++ [a]).rtake as.length =
      as.drop (place + 1) ++ as.take place ++ [a] := by
  have beyond : (as.drop place ++ as.take place ++ [a]).length - as.length = 1 := by
    simp only [List.length_append, List.length_drop, List.length_take, List.length_singleton]
    omega
  rw [List.rtake, beyond, List.drop_eq_getElem_cons within]
  rfl

/-- A ring fills up from its first place. Once it is full, the next place is one of its own. -/
structure Sound (ring : Ring α) : Prop where
  size_le : ring.entries.size ≤ ring.capacity
  next_lt : ring.next < ring.capacity
  next_eq : ring.entries.size < ring.capacity → ring.next = 0

theorem sound_ofCapacity (capacity : Nat) : Sound (ofCapacity capacity : Ring α) where
  size_le := Nat.zero_le _
  next_lt := Nat.le_max_right capacity 1
  next_eq _ := rfl

theorem length_toList (ring : Ring α) : ring.toList.length = ring.size := by
  rw [toList, List.length_append, List.length_drop, List.length_take, size, Array.length_toList]
  omega

theorem capacity_append (ring : Ring α) (a : α) : (ring.append a).capacity = ring.capacity := by
  unfold append
  split <;> rfl

theorem Sound.append (sound : Sound ring) (a : α) : Sound (ring.append a) := by
  unfold Ring.append
  split
  · rename_i room
    refine ⟨?_, sound.next_lt, fun _ => sound.next_eq room⟩
    rw [Array.size_push]
    exact room
  · rename_i full
    refine ⟨?_, Nat.mod_lt _ (Nat.zero_lt_of_lt sound.next_lt), ?_⟩
    · rw [Array.size_setIfInBounds]
      exact sound.size_le
    · rw [Array.size_setIfInBounds]
      exact fun room => absurd room full

theorem Sound.toList_append (sound : Sound ring) (a : α) :
    (ring.append a).toList = (ring.toList ++ [a]).rtake ring.capacity := by
  unfold Ring.append
  split
  · rename_i room
    have first := sound.next_eq room
    have whole : ring.toList = ring.entries.toList := by simp [toList, first]
    have length : (ring.toList ++ [a]).length ≤ ring.capacity := by
      rw [List.length_append, length_toList]
      exact room
    rw [rtake_of_length_le length, whole]
    simp [toList, first]
  · rename_i full
    have length : ring.entries.toList.length = ring.capacity :=
      Nat.le_antisymm sound.size_le (Nat.le_of_not_lt full)
    have within : ring.next < ring.entries.toList.length := length ▸ sound.next_lt
    calc _ = ring.entries.toList.drop (ring.next + 1) ++ ring.entries.toList.take ring.next ++ [a] := by
          rw [← drop_append_take_set within, length, toList, Array.toList_setIfInBounds]
      _ = (ring.toList ++ [a]).rtake ring.capacity := by rw [toList, ← length, rtake_turned within]

theorem foldl_append (capacity : Nat) (as : List α) :
    Sound (as.foldl append (ofCapacity capacity)) ∧
      (as.foldl append (ofCapacity capacity)).capacity = max capacity 1 ∧
      (as.foldl append (ofCapacity capacity)).toList = as.rtake (max capacity 1) := by
  induction as using List.reverseRecOn with
  | nil => exact ⟨sound_ofCapacity capacity, rfl, by simp [toList, ofCapacity, List.rtake]⟩
  | append_singleton as a ih =>
      obtain ⟨sound, room, held⟩ := ih
      rw [List.foldl_append, List.foldl_cons, List.foldl_nil]
      refine ⟨sound.append a, (capacity_append _ a).trans room, ?_⟩
      rw [sound.toList_append, room, held, rtake_append_rtake (Nat.le_max_right capacity 1)]

theorem toList_foldl_append (few : as.length ≤ standardCapacity) :
    (as.foldl append standard).toList = as := by
  obtain ⟨-, -, held⟩ := foldl_append standardCapacity as
  exact held.trans (rtake_of_length_le (Nat.le_trans few (Nat.le_max_left _ _)))

/-- Appending that fails where a place outside the entries would be written. -/
def append? (ring : Ring α) (a : α) : Option (Ring α) :=
  if ring.entries.size < ring.capacity then some { ring with entries := ring.entries.push a }
  else if within : ring.next < ring.entries.size then
    some { ring with
      entries := ring.entries.set ring.next a within
      next := (ring.next + 1) % ring.capacity }
  else none

def read? (ring : Ring Entry) (category? : Option Category) : Option (List Entry) :=
  if ring.next ≤ ring.entries.size then
    let (newer, older) := ring.entries.toList.splitAt ring.next
    some ((older ++ newer).filter fun e => category?.all (· = e.category))
  else none

theorem Sound.next_le (sound : Sound ring) : ring.next ≤ ring.entries.size := by
  rcases Nat.lt_or_ge ring.entries.size ring.capacity with room | full
  · rw [sound.next_eq room]
    exact Nat.zero_le _
  · exact Nat.le_trans (Nat.le_of_lt sound.next_lt) full

theorem Sound.append?_eq (sound : Sound ring) (a : α) : ring.append? a = some (ring.append a) := by
  unfold append? Ring.append
  split
  · rfl
  · rename_i full
    have within : ring.next < ring.entries.size :=
      Nat.lt_of_lt_of_le sound.next_lt (Nat.le_of_not_lt full)
    rw [dif_pos within, Array.setIfInBounds_def, dif_pos within]

theorem Sound.foldlM_append? (sound : Sound ring) (as : List α) :
    as.foldlM append? ring = some (as.foldl Ring.append ring) := by
  induction as generalizing ring with
  | nil => rfl
  | cons a as ih =>
      rw [List.foldlM_cons, sound.append?_eq]
      exact ih (sound.append a)

theorem Sound.read?_eq {ring : Ring Entry} (sound : Sound ring) (category? : Option Category) :
    ring.read? category? = some (ring.toList.filter fun e => category?.all (· = e.category)) := by
  rw [read?, if_pos sound.next_le, List.splitAt_eq]
  rfl

/-- A ring never leaves its places, and it reads as the last entries of all that were appended. The log of a circuit
reads so, too. -/
theorem ring_holds_last (capacity : Nat) (entries : List Entry) :
    ∃ ring : Ring Entry, entries.foldlM append? (ofCapacity capacity) = some ring ∧
      ring = entries.foldl append (ofCapacity capacity) ∧
      ring.read? none = some (entries.rtake (max capacity 1)) ∧
      (∀ category, ring.read? (some category) =
        some ((entries.rtake (max capacity 1)).filter (·.category = category))) ∧
      ring.size = (entries.rtake (max capacity 1)).length ∧
      ring.capacity = max capacity 1 ∧ ring.size ≤ ring.capacity ∧
      ring.next ≤ ring.size ∧ ring.next < ring.capacity ∧
      ∀ (c : Circuit) (notes : List Circuit.Noted), notes.map Circuit.Noted.entry = entries →
        c.log = notes.foldl append (ofCapacity capacity) →
        ∀ category?, ring.read? category? = some (c.entries category?) := by
  obtain ⟨sound, room, held⟩ := foldl_append capacity entries
  refine ⟨_, (sound_ofCapacity capacity).foldlM_append? entries, rfl, ?_, ?_, ?_, room, sound.size_le,
    sound.next_le, sound.next_lt, ?_⟩
  · rw [sound.read?_eq, held]
    simp
  · intro category
    rw [sound.read?_eq, held]
    simp [eq_comm]
  · rw [← length_toList, held]
  · rintro c notes rfl log category?
    obtain ⟨-, -, noted⟩ := foldl_append capacity notes
    rw [sound.read?_eq, held, Circuit.entries, log, noted, List.rtake, List.rtake, List.map_drop,
      List.length_map]

end Ring

end Tripwire.Log
