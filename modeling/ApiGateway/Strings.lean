import Mathlib.Data.List.Basic

/-!
# ApiGateway.Strings

The functions of Go's `strings` package the gateway calls, on the characters of a string. Every
separator and cut set here is one ASCII character, which no byte of a multi-byte UTF-8 character
equals, so splitting the characters is splitting the bytes.

* `split_eq_pair`: `Split(s, sep)` has exactly the two fields `a` and `b` iff `s` is `a`, the
  separator, then `b`, and neither field holds the separator.
-/

namespace ApiGateway
namespace Strings

/-- `strings.Split` on the characters of a string, for a one-character separator. -/
def splitChars (sep : Char) : List Char → List (List Char)
  | [] => [[]]
  | c :: cs =>
    if c = sep then [] :: splitChars sep cs
    else
      match splitChars sep cs with
      | w :: ws => (c :: w) :: ws
      | [] => [[c]]

/-- `strings.Split(s, sep)`. -/
def split (s : String) (sep : Char) : List String := (splitChars sep s.data).map String.mk

/-- `strings.Trim(s, cut)` for a one-character cut set. -/
def trim (s : String) (cut : Char) : String :=
  ⟨((s.data.dropWhile (· = cut)).reverse.dropWhile (· = cut)).reverse⟩

/-- `strings.TrimPrefix(s, pre)`. -/
def trimPrefix (s pre : String) : String :=
  if pre.data.isPrefixOf s.data then ⟨s.data.drop pre.length⟩ else s

theorem splitChars_ne_nil (sep : Char) (l : List Char) : splitChars sep l ≠ [] := by
  cases l with
  | nil => simp [splitChars]
  | cons c cs =>
    simp only [splitChars]
    split
    · simp
    · split <;> simp

/-- The fields of `splitChars` hold no separator, and joining them with it gives the input. -/
theorem splitChars_spec (sep : Char) (l : List Char) :
    (∀ w ∈ splitChars sep l, sep ∉ w) ∧
      l = ((splitChars sep l).intersperse [sep]).flatten := by
  induction l with
  | nil => simp [splitChars]
  | cons c cs ih =>
    obtain ⟨hfree, hjoin⟩ := ih
    simp only [splitChars]
    split
    · rename_i hc
      subst hc
      refine ⟨fun w hw => ?_, ?_⟩
      · rcases List.mem_cons.mp hw with rfl | hw
        · simp
        · exact hfree w hw
      · obtain ⟨w, ws, hw⟩ := List.exists_cons_of_ne_nil (splitChars_ne_nil c cs)
        rw [hw] at hjoin ⊢
        simp [List.intersperse_cons_cons, hjoin]
    · rename_i hc
      split
      · rename_i w ws hw
        rw [hw] at hfree hjoin
        refine ⟨fun v hv => ?_, ?_⟩
        · rcases List.mem_cons.mp hv with rfl | hv
          · simp only [List.mem_cons, not_or]
            exact ⟨Ne.symm hc, hfree w (List.mem_cons_self _ _)⟩
          · exact hfree v (List.mem_cons_of_mem _ hv)
        · cases ws with
          | nil => simpa using hjoin
          | cons v vs => simp [List.intersperse_cons_cons] at hjoin ⊢; exact hjoin
      · exact absurd ‹_› (splitChars_ne_nil sep cs)

theorem split_eq_pair {s a b : String} {sep : Char} (h : split s sep = [a, b]) :
    s = ⟨a.data ++ sep :: b.data⟩ ∧ sep ∉ a.data ∧ sep ∉ b.data := by
  obtain ⟨hfree, hjoin⟩ := splitChars_spec sep s.data
  simp only [split, List.map_eq_cons_iff, List.map_eq_nil_iff] at h
  obtain ⟨a', rest, hs, rfl, b', tl, hrest, rfl, rfl⟩ := h
  subst hrest
  rw [hs] at hfree hjoin
  refine ⟨?_, hfree a' (by simp), hfree b' (by simp)⟩
  cases s
  exact congrArg String.mk (by simpa [List.intersperse_cons_cons] using hjoin)

end Strings
end ApiGateway
