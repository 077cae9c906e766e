/-!
The room of a receiving buffer. Bytes are taken in as far as the storage reaches; where it does not
reach, those that are held are moved to its front or the storage is enlarged. Which bytes arrive does
not depend on it, only how many of them are taken in at once.
-/

namespace Custody

structure Room where
  /-- How much of the storage lies in front of the bytes that are held. -/
  spent : Nat
  size : Nat
deriving DecidableEq, Repr

namespace Room

/-- The size of a storage at the start, and the least size of one that is made anew. -/
def usual : Nat := 8192

def start : Room := ⟨0, usual⟩

def free (held : Nat) (r : Room) : Nat := r.size - (r.spent + held)

def spend (n : Nat) (r : Room) : Room := { r with spent := r.spent + n }

/-- Makes room for `more` bytes behind those that are held. They are moved to the front if that is
enough and no more are held than lie spent there; otherwise the storage grows to twice its size or to
what is needed. -/
def reserve (held more : Nat) (r : Room) : Room :=
  if r.spent + held + more ≤ r.size then r
  else if held ≤ r.spent && held + more ≤ r.size then ⟨0, r.size⟩
  else ⟨r.spent, max (2 * r.size) (r.spent + held + more)⟩

/-- Makes room while a body that was taken off still occupies the storage: where it does not reach, only
a new one will do. -/
def renew (held more : Nat) (r : Room) : Room :=
  if r.spent + held + more ≤ r.size then r else ⟨0, max usual (held + more)⟩

theorem free_reserve (held more : Nat) (r : Room) : more ≤ (r.reserve held more).free held := by
  unfold reserve
  split
  · rename_i enough; unfold free; omega
  · split
    · rename_i moved
      simp only [Bool.and_eq_true, decide_eq_true_eq] at moved
      simp only [free]
      omega
    · simp only [free]
      omega

end Room

end Custody
