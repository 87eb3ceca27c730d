import Mathlib.Data.List.Basic
import Mathlib.Tactic.SplitIfs

/-!
# Streams of framed messages

A stream is cut into messages by a function that reads the size of the first
message off the stream.  The messages come back exactly if every one of them
tells its own length, with the rest of the stream behind it.
-/

namespace IotivityLite

section Framing

variable {α : Type} (packetSize : List α → Option Nat)

/-- The messages of a stream; `none` when the stream does not end with a
message.  A message has at least one element, so the length of the stream is
enough fuel. -/
def cutStream : (fuel : Nat) → (stream : List α) → Option (List (List α))
  | _, [] => some []
  | 0, _ :: _ => none
  | fuel + 1, head :: tail =>
      match packetSize (head :: tail) with
      | none => none
      | some size =>
          if size = 0 ∨ (head :: tail).length < size then none
          else
            (cutStream fuel ((head :: tail).drop size)).map fun messages =>
              (head :: tail).take size :: messages

/-- Every message tells its length. -/
def TellLengths : List (List α) → Prop
  | [] => True
  | message :: messages =>
      packetSize (message ++ messages.flatten) = some message.length ∧
        TellLengths messages

theorem cutStream_succ {fuel : Nat} {stream : List α}
    (someLeft : stream ≠ []) :
    cutStream packetSize (fuel + 1) stream =
      (packetSize stream).bind fun size =>
        if size = 0 ∨ stream.length < size then none
        else (cutStream packetSize fuel (stream.drop size)).map
          fun messages => stream.take size :: messages := by
  cases stream with
  | nil => exact absurd rfl someLeft
  | cons head tail =>
      rw [cutStream]
      cases packetSize (head :: tail) with
      | none => rfl
      | some size => rfl

variable {messages : List (List α)}

theorem length_le_length_flatten {messages : List (List α)}
    (nonempty : ∀ message ∈ messages, message ≠ []) :
    messages.length ≤ messages.flatten.length := by
  induction messages with
  | nil => exact Nat.le_refl _
  | cons message messages ih =>
      have positive :=
        List.length_pos_iff.mpr (nonempty message List.mem_cons_self)
      have others := ih fun message member =>
        nonempty message (List.mem_cons_of_mem _ member)
      rw [List.flatten_cons, List.length_cons, List.length_append]
      omega

variable {packetSize}

theorem cutStream_iff_of_fuel {fuel : Nat}
    (nonempty : ∀ message ∈ messages, message ≠ [])
    (enough : messages.length ≤ fuel) :
    cutStream packetSize fuel messages.flatten = some messages ↔
      TellLengths packetSize messages := by
  induction messages generalizing fuel with
  | nil =>
      cases fuel with
      | zero => exact iff_of_true rfl trivial
      | succ fuel => exact iff_of_true rfl trivial
  | cons message messages ih =>
      obtain ⟨fuel, rfl⟩ : ∃ less, fuel = less + 1 :=
        ⟨fuel - 1, by rw [List.length_cons] at enough; omega⟩
      have filled : message ≠ [] := nonempty message List.mem_cons_self
      have positive := List.length_pos_iff.mpr filled
      have rest := @ih fuel
        (fun message member => nonempty message (List.mem_cons_of_mem _ member))
        (Nat.le_of_succ_le_succ enough)
      have left : message ++ messages.flatten ≠ [] :=
        List.append_ne_nil_of_left_ne_nil filled _
      rw [List.flatten_cons, cutStream_succ packetSize left]
      constructor
      · intro cut
        obtain ⟨size, told, cut⟩ := Option.bind_eq_some_iff.mp cut
        split_ifs at cut with broken
        obtain ⟨cutRest, restCut, same⟩ := Option.map_eq_some_iff.mp cut
        obtain ⟨first, rfl⟩ := List.cons.inj same
        -- the first message has the size that was taken
        have length : message.length = size := by
          rw [← first, List.length_take_of_le (by omega)]
        rw [← length, List.drop_left] at restCut
        exact ⟨by rw [told, length], rest.mp restCut⟩
      · rintro ⟨told, others⟩
        have whole : ¬ (message.length = 0 ∨
            (message ++ messages.flatten).length < message.length) := by
          rw [List.length_append]
          omega
        rw [told, Option.bind_some, if_neg whole, List.drop_left,
          List.take_left, rest.mpr others, Option.map_some]

theorem cutStream_flatten_iff (nonempty : ∀ message ∈ messages, message ≠ []) :
    cutStream packetSize messages.flatten.length messages.flatten =
        some messages ↔
      TellLengths packetSize messages :=
  cutStream_iff_of_fuel nonempty (length_le_length_flatten nonempty)

end Framing

end IotivityLite
