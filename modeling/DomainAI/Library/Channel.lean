import Mathlib.Data.List.Basic

/-!
# Bounded channels

A channel holds as many elements as its capacity; its one sender waits with the next where
it is full.  Nothing is lost, nothing comes twice, and the order stays.
-/

namespace DomainAI
namespace Library

structure Channel (alpha : Type) (capacity : Nat) where
  buffered : List alpha
  waiting : Option alpha
  bounded : buffered.length ≤ capacity
  full : waiting.isSome = true -> buffered.length = capacity

namespace Channel

variable {alpha : Type} {capacity : Nat}

def empty (alpha : Type) (capacity : Nat) : Channel alpha capacity where
  buffered := []
  waiting := none
  bounded := Nat.zero_le _
  full h := by cases h

/-- The elements on their way, the oldest first. -/
def contents (c : Channel alpha capacity) : List alpha :=
  c.buffered ++ c.waiting.toList

/-- Send an element; a sender who waits sends nothing. -/
def send (x : alpha) (c : Channel alpha capacity) : Channel alpha capacity :=
  if hroom : c.buffered.length < capacity then
    { buffered := c.buffered ++ [x]
      waiting := none
      bounded := by
        rw [List.length_append]
        exact hroom
      full := fun h => by cases h }
  else
    { buffered := c.buffered
      waiting := some x
      bounded := c.bounded
      full := fun _ => Nat.le_antisymm c.bounded (Nat.not_lt.mp hroom) }

/-- Receive the oldest element; what the sender waits with moves up. -/
def receive (c : Channel alpha capacity) : Option (alpha × Channel alpha capacity) :=
  match h : c.buffered with
  | [] => c.waiting.map fun x => (x, empty alpha capacity)
  | x :: rest =>
      some (x,
        { buffered := rest ++ c.waiting.toList
          waiting := none
          bounded := by
            have hbounded := c.bounded
            rw [h, List.length_cons] at hbounded
            rw [List.length_append]
            cases c.waiting with
            | none => exact Nat.le_of_succ_le hbounded
            | some y => exact hbounded
          full := fun hnone => by cases hnone })

def giveUp (c : Channel alpha capacity) : Channel alpha capacity where
  buffered := c.buffered
  waiting := none
  bounded := c.bounded
  full h := by cases h

@[simp] theorem contents_empty : (empty alpha capacity).contents = [] := rfl

@[simp] theorem contents_giveUp (c : Channel alpha capacity) :
    c.giveUp.contents = c.buffered :=
  List.append_nil _

theorem send_of_room {c : Channel alpha capacity} (hroom : c.buffered.length < capacity)
    (x : alpha) :
    (c.send x).buffered = c.buffered ++ [x] ∧ (c.send x).waiting = none := by
  rw [send, dif_pos hroom]
  exact ⟨rfl, rfl⟩

theorem send_of_full {c : Channel alpha capacity}
    (hfull : ¬ c.buffered.length < capacity) (x : alpha) :
    (c.send x).buffered = c.buffered ∧ (c.send x).waiting = some x := by
  rw [send, dif_neg hfull]
  exact ⟨rfl, rfl⟩

theorem contents_send {c : Channel alpha capacity} (h : c.waiting = none) (x : alpha) :
    (c.send x).contents = c.contents ++ [x] := by
  by_cases hroom : c.buffered.length < capacity
  · rcases send_of_room hroom x with ⟨hbuffered, hwaiting⟩
    simp [contents, hbuffered, hwaiting, h]
  · rcases send_of_full hroom x with ⟨hbuffered, hwaiting⟩
    simp [contents, hbuffered, hwaiting, h]

theorem receive_of_cons {c : Channel alpha capacity} {x : alpha} {rest : List alpha}
    (h : c.buffered = x :: rest) :
    exists c', c.receive = some (x, c') ∧ c'.buffered = rest ++ c.waiting.toList ∧
      c'.waiting = none := by
  unfold receive
  split
  · rename_i hnil
    rw [h] at hnil
    cases hnil
  · rename_i x' rest' hcons
    rw [h] at hcons
    cases hcons
    exact ⟨_, rfl, rfl, rfl⟩

theorem contents_receive {c c' : Channel alpha capacity} {x : alpha}
    (h : c.receive = some (x, c')) : c.contents = x :: c'.contents := by
  cases hbuffered : c.buffered with
  | nil =>
      unfold receive at h
      split at h
      · rcases Option.map_eq_some_iff.mp h with ⟨y, hy, hpair⟩
        cases hpair
        simp [contents, hbuffered, hy, empty]
      · rename_i hcons
        rw [hbuffered] at hcons
        cases hcons
  | cons y rest =>
      rcases receive_of_cons hbuffered with ⟨c'', hreceive, hrest, hnone⟩
      rw [hreceive] at h
      cases h
      simp [contents, hbuffered, hrest, hnone]

theorem contents_length_le (c : Channel alpha capacity) :
    c.contents.length ≤ capacity + 1 := by
  have hbounded := c.bounded
  rw [contents, List.length_append]
  cases c.waiting with
  | none => exact Nat.le_succ_of_le hbounded
  | some x => exact Nat.succ_le_succ hbounded

end Channel
end Library
end DomainAI
