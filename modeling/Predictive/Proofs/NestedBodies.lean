import Predictive.Json.Body
import Predictive.Json.Writer

/-! Bodies that nest too deep. The reader opens only so many arrays and objects inside of each other
and gives up at the next one, whatever comes behind it. -/

set_option autoImplicit false

namespace Predictive

namespace Json

/-- Arrays inside of each other around a null. -/
def nested : Nat → Json
  | 0 => .null
  | count + 1 => .array [nested count]

theorem toList_write_nested (count : Nat) :
    ∃ rest, (nested count).write.toList = List.replicate count '[' ++ rest := by
  induction count with
  | zero => exact ⟨_, rfl⟩
  | succ count ih =>
    obtain ⟨rest, inner⟩ := ih
    refine ⟨rest ++ [']'], ?_⟩
    simp [nested, write, writeElements, inner, List.replicate_succ]

theorem skipSpace_cons {c : Char} (solid : isSpace c = false) (rest : List Char) :
    skipSpace (c :: rest) = c :: rest := by
  simp [skipSpace, solid]

theorem skipSpace_brackets {count : Nat} (some : count ≠ 0) (rest : List Char) :
    skipSpace (List.replicate count '[' ++ rest) = List.replicate count '[' ++ rest := by
  obtain ⟨count, rfl⟩ := Nat.exists_eq_add_one_of_ne_zero some
  exact skipSpace_cons (by decide) _

/-- Reading gives up at the first bracket that is too many. Every bracket before it takes two calls:
one for the array, and one for its first element. -/
theorem readValue_brackets {fuel depth count : Nat} (deep : depth < count)
    (enough : 2 * depth < fuel) (rest : List Char) :
    readValue fuel depth (List.replicate count '[' ++ rest) = .error .tooDeep := by
  induction depth generalizing fuel count with
  | zero =>
    obtain ⟨count, rfl⟩ := Nat.exists_eq_add_one_of_ne_zero (by omega : count ≠ 0)
    obtain ⟨fuel, rfl⟩ := Nat.exists_eq_add_one_of_ne_zero (by omega : fuel ≠ 0)
    simp [List.replicate_succ, readValue]
  | succ depth ih =>
    obtain ⟨count, rfl⟩ := Nat.exists_eq_add_of_le' (by omega : 2 ≤ count)
    obtain ⟨fuel, rfl⟩ := Nat.exists_eq_add_of_le' (by omega : 2 ≤ fuel)
    have inner : readValue fuel depth (List.replicate (count + 1) '[' ++ rest) = .error .tooDeep :=
      ih (by omega) (by omega)
    rw [List.replicate_succ, List.cons_append, readValue, skipSpace_brackets (by omega)]
    rw [List.replicate_succ, List.cons_append] at inner ⊢
    simp [readElements, inner]

theorem readString?_x (rest : List Char) :
    readString? [] ('x' :: '"' :: rest) = some ("x", rest) := by
  simp [readString?]

theorem read_member_brackets {depth count : Nat} (deep : depth < count)
    (enough : 2 * depth ≤ count) (rest : List Char) :
    read (depth + 1) ('\x7b' :: '"' :: 'x' :: '"' :: ':' :: (List.replicate count '[' ++ rest)) =
      .error .tooDeep := by
  have members (fuel : Nat) (long : 2 * depth < fuel) :
      readMembers (fuel + 1) depth []
        ('"' :: 'x' :: '"' :: ':' :: (List.replicate count '[' ++ rest)) = .error .tooDeep := by
    rw [readMembers, readString?_x]
    dsimp only
    rw [skipSpace_cons (by decide)]
    simp only [skipSpace_brackets (by omega : count ≠ 0), readValue_brackets deep long]
  have value (fuel : Nat) (long : 2 * depth + 2 < fuel) :
      readValue fuel (depth + 1)
        ('\x7b' :: '"' :: 'x' :: '"' :: ':' :: (List.replicate count '[' ++ rest)) =
          .error .tooDeep := by
    obtain ⟨fuel, rfl⟩ := Nat.exists_eq_add_of_le' (by omega : 2 ≤ fuel)
    rw [readValue, skipSpace_cons (by decide)]
    exact members fuel (by omega)
  unfold read
  dsimp only
  rw [skipSpace_cons (by decide), value _ (by simp; omega)]

/-- However deep the reader opens arrays and objects, there is a body in which one member nests too
deep. It is not read, which is not the same as a body that is no JSON. -/
theorem readBody_nested (nesting : Nat) :
    readBody nesting (Json.object [("x", nested (2 * nesting))]).write = .error .tooDeep := by
  obtain ⟨rest, inner⟩ := toList_write_nested (2 * nesting)
  have body : (Json.object [("x", nested (2 * nesting))]).write.toList =
      '\x7b' :: '"' :: 'x' :: '"' :: ':' ::
        (List.replicate (2 * nesting) '[' ++ (rest ++ ['\x7d'])) := by
    have key : (writeString "x").toList = ['"', 'x', '"'] := by decide
    simp [write, writeMembers, key, inner]
  have chars : bodyChars? (Json.object [("x", nested (2 * nesting))]).write.toList =
      some (Json.object [("x", nested (2 * nesting))]).write.toList := by
    rw [body]
    rfl
  unfold readBody
  rw [chars, body]
  cases nesting with
  | zero => rfl
  | succ depth => exact read_member_brackets (by omega) (by omega) _

end Json

end Predictive
