/-
  ProbablePrime.Proofs.Text.Splitting — texts cut at one character, and behind a number of bytes.

  Paths are cut at slashes and filters at commas, and the cutting is done on places in the text.
  Here it is brought down to the list of the characters, where it can be computed.

  Main results:
    * `splitOn_singleton` — the parts of a text are those of its characters between the cuts;
    * `dropBytes?_append` and `takeBytes?_append` — a text cut behind the bytes of its front.
-/
import Mathlib
import ProbablePrime.Text.Bytes

namespace ProbablePrime.Text

open String.Pos.Raw (get next atEnd)

/-! ## §1. Cuts at one character. -/

/-- A separator of one character is found where that character is. -/
theorem splitOnAux_singleton (text : String) (c : Char) (start place : String.Pos.Raw)
    (parts : List String) :
    text.splitOnAux (String.singleton c) start place 0 parts
      = text.splitAux (· == c) start place parts := by
  have hfirst : get (String.singleton c) 0 = c := by
    simpa using String.get_of_valid [] [c]
  have hlast : next (String.singleton c) 0 = (0 : String.Pos.Raw) + c := by
    rw [next, hfirst]
  have hwhole : atEnd (String.singleton c) ((0 : String.Pos.Raw) + c) = true := by
    simp [String.Pos.Raw.le_iff]
  fun_induction String.splitAux text (· == c) start place parts with
  | case1 start place parts hend => rw [String.splitOnAux, if_pos hend]
  | case2 start place parts hend _ hcut behind ih =>
    have hchar : get text place = c := by simpa using hcut
    -- The part ends where the separator begins, as far in front of its end as it is long.
    have hback : (next text place).unoffsetBy ((0 : String.Pos.Raw) + c) = place := by
      rw [next, hchar, String.Pos.Raw.ext_iff]
      simp
    rw [String.splitOnAux, if_neg hend, hfirst, if_pos hcut, hlast]
    dsimp only
    rw [if_pos hwhole, hback]
    exact ih
  | case3 start place parts hend _ hother ih =>
    rw [String.splitOnAux, if_neg hend, hfirst, if_neg hother]
    exact ih

/-- **The parts of a text** are what stands between the cuts. -/
theorem splitOn_singleton (text : String) (c : Char) :
    text.splitOn (String.singleton c) = (text.toList.splitOnP (· == c)).map String.ofList := by
  have hsome : ¬ (String.singleton c == "") = true := by
    simp
  rw [← String.splitToList_of_valid, String.splitOn, if_neg hsome, splitOnAux_singleton]
  rfl

/-! ## §2. Cuts behind a number of bytes. -/

theorem byteSize_cons (c : Char) (text : List Char) :
    byteSize (c :: text) = c.utf8Size + byteSize text := rfl

theorem byteSize_append (front back : List Char) :
    byteSize (front ++ back) = byteSize front + byteSize back := by
  induction front with
  | nil => exact (Nat.zero_add _).symm
  | cons c front ih => rw [List.cons_append, byteSize_cons, byteSize_cons, ih, Nat.add_assoc]

/-- A text with a character in front takes some bytes, and without them it takes those of the rest. -/
theorem byteSize_cons_eq_succ (c : Char) (text : List Char) :
    ∃ size, byteSize (c :: text) = size + 1 ∧ c.utf8Size ≤ size + 1
      ∧ size + 1 - c.utf8Size = byteSize text := by
  have hc : 0 < c.utf8Size := c.utf8Size_pos
  refine ⟨byteSize (c :: text) - 1, ?_⟩
  rw [byteSize_cons]
  omega

/-- Behind as many bytes as the front of a text takes, its back is left. -/
theorem dropBytes?_append (front back : List Char) :
    dropBytes? (byteSize front) (front ++ back) = some back := by
  induction front with
  | nil => cases back <;> rfl
  | cons c front ih =>
    obtain ⟨size, hsize, hle, hrest⟩ := byteSize_cons_eq_succ c front
    rw [hsize, List.cons_append, dropBytes?, if_pos hle, hrest]
    exact ih

/-- As many bytes as the front of a text takes are the front. -/
theorem takeBytes?_append (front back : List Char) :
    takeBytes? (byteSize front) (front ++ back) = some front := by
  induction front with
  | nil => cases back <;> rfl
  | cons c front ih =>
    obtain ⟨size, hsize, hle, hrest⟩ := byteSize_cons_eq_succ c front
    rw [hsize, List.cons_append, takeBytes?, if_pos hle, hrest, ih]
    rfl

end ProbablePrime.Text
