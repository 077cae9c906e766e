import Custody.Proofs.Bytes
import Custody.Wire.Frame

/-!
What stands in front of a row of bytes: a whole frame, a head that announces too much, or neither. More bytes
behind it change only the last of these.
-/

namespace Custody

namespace Frame

/-- What stands in front: a frame, with what follows it; a head that announces too much; or neither yet. -/
inductive Front where
  | frame (body rest : Bytes)
  | tooBig
  | short

def front (limit : Nat) (b : Bytes) : Front :=
  if b.length < headLength then .short
  else
    let n := Bytes.ofBigEndian (b.take headLength)
    let rest := b.drop headLength
    if limit < n then .tooBig
    else if rest.length < n then .short
    else .frame (rest.take n) (rest.drop n)

/-- The bodies whose length a head can tell. -/
def most : Nat := 256 ^ headLength

variable {limit n : Nat} {b body rest : Bytes}

theorem length_encode (body : Bytes) : (encode body).length = headLength + body.length := by
  rw [encode, List.length_append, Bytes.length_bigEndian]

theorem front_head (small : n < most) (b : Bytes) :
    front limit (Bytes.bigEndian headLength n ++ b) =
      if limit < n then .tooBig else if b.length < n then .short else .frame (b.take n) (b.drop n) := by
  have size := Bytes.length_bigEndian headLength n
  have told : Bytes.ofBigEndian (Bytes.bigEndian headLength n) = n := Bytes.ofBigEndian_bigEndian small
  have long : ¬(Bytes.bigEndian headLength n ++ b).length < headLength := by
    rw [List.length_append, size]
    omega
  rw [front, if_neg long, List.take_left' size, List.drop_left' size, told]

theorem front_encode (fits : body.length ≤ limit) (small : body.length < most) (rest : Bytes) :
    front limit (encode body ++ rest) = .frame body rest := by
  rw [encode, List.append_assoc, front_head small, if_neg (by omega), if_neg (by simp)]
  rw [List.take_left, List.drop_left]

theorem front_short (h : b.length < headLength) : front limit b = .short := if_pos h

theorem exists_head (long : ¬b.length < headLength) :
    ∃ n rest, n < most ∧ b = Bytes.bigEndian headLength n ++ rest := by
  have size : (b.take headLength).length = headLength := by
    rw [List.length_take]
    omega
  have small := Bytes.ofBigEndian_lt (b.take headLength)
  have head := Bytes.bigEndian_ofBigEndian (b.take headLength)
  rw [size] at small head
  refine ⟨_, b.drop headLength, small, ?_⟩
  rw [head, List.take_append_drop]

theorem front_eq_frame :
    front limit b = .frame body rest ↔ b = encode body ++ rest ∧ body.length ≤ limit ∧ body.length < most := by
  constructor
  · intro found
    by_cases short : b.length < headLength
    · rw [front_short short] at found
      cases found
    · obtain ⟨n, more, small, rfl⟩ := exists_head short
      rw [front_head small] at found
      split_ifs at found with big cut
      cases found
      have size : (more.take n).length = n := by
        rw [List.length_take]
        omega
      rw [encode, size, List.append_assoc, List.take_append_drop]
      exact ⟨rfl, by omega, small⟩
  · rintro ⟨rfl, fits, small⟩
    exact front_encode fits small rest

theorem front_frame_append (found : front limit b = .frame body rest) (more : Bytes) :
    front limit (b ++ more) = .frame body (rest ++ more) := by
  obtain ⟨rfl, fits, small⟩ := front_eq_frame.mp found
  rw [List.append_assoc, front_encode fits small]

theorem front_tooBig_append (found : front limit b = .tooBig) (more : Bytes) :
    front limit (b ++ more) = .tooBig := by
  by_cases short : b.length < headLength
  · rw [front_short short] at found
    cases found
  · obtain ⟨n, behind, small, rfl⟩ := exists_head short
    rw [front_head small] at found
    split_ifs at found with big
    rw [List.append_assoc, front_head small, if_pos big]

theorem front_begun {come missing : Bytes} (fits : body.length ≤ limit) (small : body.length < most)
    (whole : come ++ missing = encode body ++ rest) :
    front limit come =
      if (encode body).length ≤ come.length then .frame body (come.drop (encode body).length) else .short := by
  have all : front limit (come ++ missing) = .frame body rest := whole ▸ front_encode fits small rest
  split_ifs with long
  · have first : come.take (encode body).length = encode body := by
      have first := congrArg (List.take (encode body).length) whole
      rwa [List.take_append_of_le_length long, List.take_left] at first
    have shape : come = encode body ++ come.drop (encode body).length :=
      (List.take_append_drop (encode body).length come).symm.trans (congrArg (· ++ _) first)
    rw [front_eq_frame]
    exact ⟨shape, fits, small⟩
  · cases found : front limit come with
    | short => rfl
    | tooBig => cases all.symm.trans (front_tooBig_append found missing)
    | frame other behind =>
      cases all.symm.trans (front_frame_append found missing)
      refine absurd ?_ long
      rw [(front_eq_frame.mp found).1, List.length_append]
      exact Nat.le_add_right _ _

theorem length_rest_lt {more : Bytes} (before : front limit b = .short)
    (found : front limit (b ++ more) = .frame body rest) : rest.length < more.length := by
  obtain ⟨shape, fits, small⟩ := front_eq_frame.mp found
  have length := congrArg List.length shape
  simp only [List.length_append] at length
  by_cases whole : (encode body).length ≤ b.length
  · -- then the frame stood there before
    have start : b = encode body ++ b.drop (encode body).length := by
      have first := congrArg (List.take (encode body).length) shape
      rw [List.take_append_of_le_length whole, List.take_left] at first
      rw [← first, List.length_take, Nat.min_eq_left whole, List.take_append_drop]
    rw [start, front_encode fits small] at before
    cases before
  · omega

end Frame

end Custody
