import Mathlib.Data.List.Infix

/-!
# Texts cut at a separator

A text is cut at every place where a separator stands.  A reader that takes
the separator for the end of a piece sees the same pieces, except that there
is no empty piece behind the last separator.  Both are described by what
follows the first separator, which is what a scanner with a position looks
for.
-/

namespace IotivityLite

namespace Separated

variable {α : Type} [DecidableEq α] {separator : α}

/-- The first place from `start` on where the separator stands. -/
def next (separator : α) (text : List α) (start : Nat) : Option Nat :=
  ((text.drop start).idxOf? separator).map (start + ·)

/-- The pieces that end at a separator or at the end of a text that goes on
behind the last separator. -/
def ended (separator : α) (text : List α) : List (List α) :=
  if (text.splitOn separator).getLast? = some [] then
    (text.splitOn separator).dropLast
  else text.splitOn separator

variable {text : List α}

theorem drop_of_next {start place : Nat}
    (found : next separator text start = some place) :
    ∃ piece, separator ∉ piece ∧ place = start + piece.length ∧
      text.drop start = piece ++ separator :: text.drop (place + 1) := by
  obtain ⟨index, first, rfl⟩ := Option.map_eq_some_iff.mp found
  obtain ⟨below, here, before⟩ := List.findIdx?_eq_some_iff_getElem.mp first
  have separated : (text.drop start)[index] = separator := by simpa using here
  refine ⟨(text.drop start).take index, ?_, ?_, ?_⟩
  · intro member
    obtain ⟨place, small, same⟩ := List.mem_iff_getElem.mp member
    rw [List.length_take] at small
    rw [List.getElem_take] at same
    exact before place (by omega) (by simpa using same)
  · rw [List.length_take]
    omega
  · conv_lhs => rw [← List.take_append_drop index (text.drop start)]
    rw [List.drop_eq_getElem_cons below, separated, List.drop_drop,
      Nat.add_assoc]

theorem not_mem_of_next {start : Nat}
    (missing : next separator text start = none) :
    separator ∉ text.drop start :=
  List.idxOf?_eq_none_iff.mp (Option.map_eq_none_iff.mp missing)

theorem next_of_drop {text piece rest : List α} {start : Nat}
    (here : text.drop start = piece ++ separator :: rest)
    (clean : separator ∉ piece) :
    next separator text start = some (start + piece.length) := by
  have first : (piece ++ separator :: rest).idxOf? separator =
      some piece.length := by
    rw [List.idxOf?, List.findIdx?_append,
      List.findIdx?_eq_none_iff.mpr]
    · simp [List.findIdx?_cons]
    · intro item member
      simpa using fun same : item = separator => clean (same ▸ member)
  rw [next, here, first, Option.map_some]

theorem ended_nil : ended separator [] = [] := by
  simp [ended]

theorem ended_of_not_mem (clean : separator ∉ text) (nonempty : text ≠ []) :
    ended separator text = [text] := by
  rw [ended, List.splitOn_eq_singleton clean]
  simp [nonempty]

theorem ended_cons {piece : List α} (clean : separator ∉ piece)
    (rest : List α) :
    ended separator (piece ++ separator :: rest) =
      piece :: ended separator rest := by
  have more := List.splitOn_ne_nil separator rest
  rw [ended, ended, List.splitOn_append_cons_self_of_not_mem clean,
    List.getLast?_cons_of_ne_nil more, List.dropLast_cons_of_ne_nil more]
  split <;> rfl

theorem ended_ne_nil (nonempty : text ≠ []) :
    ended separator text ≠ [] := by
  cases found : next separator text 0 with
  | none =>
      have clean : separator ∉ text := not_mem_of_next found
      simp [ended_of_not_mem clean nonempty]
  | some place =>
      obtain ⟨piece, clean, -, whole⟩ := drop_of_next found
      rw [List.drop_zero] at whole
      rw [whole, ended_cons clean]
      exact List.cons_ne_nil _ _

end Separated

end IotivityLite
