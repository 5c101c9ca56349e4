import Mathlib.Tactic.Common
import Mathlib.Order.Lattice
import Mathlib.Data.List.Basic

/-!
# Element-by-element copies on one array

A forward copy reads and writes one element at a time. The loops below do just that on a list that
stands for the array, and they also return the accesses they make, in order: a bound on the indices
and the absence of a read after an overwrite are then facts about that list, and the effect on the
array is a fact about the result.
-/

namespace MuduoCore

inductive Access where
  | read (index : Nat)
  | write (index : Nat)
  deriving DecidableEq, Repr

namespace Access

def index : Access → Nat
  | read i => i
  | write i => i

/-- A write followed by a read of the same element: the read no longer sees what was there. -/
def Clobbers (earlier later : Access) : Prop :=
  ∃ i, earlier = write i ∧ later = read i

def InBounds (size : Nat) (accesses : List Access) : Prop :=
  ∀ access ∈ accesses, access.index < size

/-- No element is read after it was overwritten. -/
def ReadsFresh (accesses : List Access) : Prop :=
  accesses.Pairwise fun earlier later => ¬earlier.Clobbers later

theorem inBounds_nil (size : Nat) : InBounds size [] := by simp [InBounds]

theorem readsFresh_nil : ReadsFresh [] := List.Pairwise.nil

end Access

variable {α : Type*}

def copyIn (mem : List α) (dest : Nat) : List α → List α × List Access
  | [] => (mem, [])
  | d :: ds =>
      let rest := copyIn (mem.set dest d) (dest + 1) ds
      (rest.1, .write dest :: rest.2)

/-- Copies `n` elements of `mem` from index `first` on to index `dest` on, one after the other. -/
def copyWithin (fill : α) (mem : List α) (first dest : Nat) : Nat → List α × List Access
  | 0 => (mem, [])
  | n + 1 =>
      let rest := copyWithin fill (mem.set dest (mem.getD first fill)) (first + 1) (dest + 1) n
      (rest.1, .read first :: .write dest :: rest.2)

def slice (mem : List α) (first n : Nat) : List α := (mem.drop first).take n

@[simp]
theorem slice_zero (mem : List α) (first : Nat) : slice mem first 0 = [] := by simp [slice]

theorem length_slice {mem : List α} {first n : Nat} (h : first + n ≤ mem.length) :
    (slice mem first n).length = n := by
  simp [slice]
  omega

theorem slice_append_slice (mem : List α) (first m n : Nat) :
    slice mem first m ++ slice mem (first + m) n = slice mem first (m + n) := by
  simp only [slice]
  rw [← List.drop_drop, ← List.take_add]

theorem slice_drop (mem : List α) (first m n : Nat) :
    (slice mem first n).drop m = slice mem (first + m) (n - m) := by
  simp only [slice]
  rw [List.drop_take, List.drop_drop]

theorem slice_take {m n : Nat} (mem : List α) (first : Nat) (h : m ≤ n) :
    (slice mem first n).take m = slice mem first m := by
  simp only [slice]
  rw [List.take_take, Nat.min_eq_left h]

theorem slice_congr {mem mem' : List α} {first n : Nat}
    (h : ∀ i, first ≤ i → i < first + n → mem[i]? = mem'[i]?) :
    slice mem first n = slice mem' first n := by
  apply List.ext_getElem?
  intro i
  simp only [slice, List.getElem?_take, List.getElem?_drop]
  split
  · exact h _ (by omega) (by omega)
  · rfl

section CopyIn

variable (mem : List α) (dest : Nat) (data : List α)

@[simp]
theorem length_copyIn : (copyIn mem dest data).1.length = mem.length := by
  induction data generalizing mem dest with
  | nil => rfl
  | cons d ds ih => simp [copyIn, ih]

theorem copyIn_accesses :
    (copyIn mem dest data).2 = (List.range' dest data.length).map Access.write := by
  induction data generalizing mem dest with
  | nil => rfl
  | cons d ds ih => simp [copyIn, ih, List.range'_succ]

theorem copyIn_inBounds (h : dest + data.length ≤ mem.length) :
    Access.InBounds mem.length (copyIn mem dest data).2 := by
  rw [copyIn_accesses]
  intro access hmem
  obtain ⟨i, hi, rfl⟩ := List.mem_map.mp hmem
  have := List.mem_range'_1.mp hi
  simp only [Access.index]
  omega

theorem getElem?_copyIn_of_lt {i : Nat} (h : i < dest) :
    (copyIn mem dest data).1[i]? = mem[i]? := by
  induction data generalizing mem dest with
  | nil => rfl
  | cons d ds ih =>
      simp only [copyIn]
      rw [ih _ _ (by omega), List.getElem?_set_ne (by omega)]

theorem slice_copyIn (h : dest + data.length ≤ mem.length) :
    slice (copyIn mem dest data).1 dest data.length = data := by
  induction data generalizing mem dest with
  | nil => simp
  | cons d ds ih =>
      have hhead : slice (copyIn mem dest (d :: ds)).1 dest 1 = [d] := by
        have hlt : dest < mem.length := by simp at h; omega
        have hget : (copyIn mem dest (d :: ds)).1[dest]? = some d := by
          simp only [copyIn]
          rw [getElem?_copyIn_of_lt _ _ _ (by omega)]
          simp [hlt]
        simp only [slice, List.take_one, List.head?_drop, hget, Option.toList]
      have htail : slice (copyIn mem dest (d :: ds)).1 (dest + 1) ds.length = ds := by
        apply ih (mem.set dest d) (dest + 1)
        simp at h ⊢
        omega
      have hsplit := slice_append_slice (copyIn mem dest (d :: ds)).1 dest 1 ds.length
      rw [hhead, htail] at hsplit
      rw [List.length_cons, Nat.add_comm ds.length 1, ← hsplit]
      rfl

end CopyIn

section CopyWithin

variable (fill : α) (mem : List α) (first dest n : Nat)

@[simp]
theorem length_copyWithin : (copyWithin fill mem first dest n).1.length = mem.length := by
  induction n generalizing mem first dest with
  | zero => rfl
  | succ n ih => simp [copyWithin, ih]

theorem mem_copyWithin_accesses {access : Access}
    (h : access ∈ (copyWithin fill mem first dest n).2) :
    (∃ k < n, access = .read (first + k)) ∨ ∃ k < n, access = .write (dest + k) := by
  induction n generalizing mem first dest with
  | zero => simp [copyWithin] at h
  | succ n ih =>
      simp only [copyWithin, List.mem_cons] at h
      rcases h with rfl | rfl | hrest
      · exact Or.inl ⟨0, by omega, rfl⟩
      · exact Or.inr ⟨0, by omega, rfl⟩
      · rcases ih _ _ _ hrest with ⟨k, hk, rfl⟩ | ⟨k, hk, rfl⟩
        · exact Or.inl ⟨k + 1, by omega, by rw [Nat.add_assoc, Nat.add_comm 1]⟩
        · exact Or.inr ⟨k + 1, by omega, by rw [Nat.add_assoc, Nat.add_comm 1]⟩

theorem copyWithin_inBounds (hfirst : first + n ≤ mem.length) (hdest : dest + n ≤ mem.length) :
    Access.InBounds mem.length (copyWithin fill mem first dest n).2 := by
  intro access hmem
  rcases mem_copyWithin_accesses fill mem first dest n hmem with ⟨k, hk, rfl⟩ | ⟨k, hk, rfl⟩ <;>
    simp only [Access.index] <;> omega

/-- A forward copy to a lower index, overlapping or not, reads each element before writing it. -/
theorem copyWithin_readsFresh (h : dest ≤ first) :
    Access.ReadsFresh (copyWithin fill mem first dest n).2 := by
  induction n generalizing mem first dest with
  | zero => exact Access.readsFresh_nil
  | succ n ih =>
      simp only [copyWithin, Access.ReadsFresh, List.pairwise_cons]
      refine ⟨?_, ?_, ih _ _ _ (by omega)⟩
      · rintro later - ⟨i, hwrite, -⟩
        cases hwrite
      · rintro later hlater ⟨i, hwrite, rfl⟩
        obtain rfl : dest = i := by simpa using hwrite
        -- every later read is at an index above `first`, so above `dest`
        rcases mem_copyWithin_accesses fill _ _ _ _ hlater with ⟨k, -, hread⟩ | ⟨k, -, hread⟩
        · have : dest = first + 1 + k := by simpa using hread
          omega
        · cases hread

theorem getElem?_copyWithin_of_lt {i : Nat} (h : i < dest) :
    (copyWithin fill mem first dest n).1[i]? = mem[i]? := by
  induction n generalizing mem first dest with
  | zero => rfl
  | succ n ih =>
      simp only [copyWithin]
      rw [ih _ _ _ (by omega), List.getElem?_set_ne (by omega)]

theorem slice_copyWithin (hle : dest ≤ first) (hfirst : first + n ≤ mem.length) :
    slice (copyWithin fill mem first dest n).1 dest n = slice mem first n := by
  induction n generalizing mem first dest with
  | zero => simp
  | succ n ih =>
      set moved := mem.set dest (mem.getD first fill) with hmoved
      have hlt : first < mem.length := by omega
      have hhead : slice (copyWithin fill mem first dest (n + 1)).1 dest 1 = slice mem first 1 := by
        have hget : (copyWithin fill mem first dest (n + 1)).1[dest]? = mem[first]? := by
          simp only [copyWithin]
          rw [getElem?_copyWithin_of_lt _ _ _ _ _ (by omega)]
          simp [hlt, show dest < mem.length by omega]
        simp only [slice, List.take_one, List.head?_drop, hget]
      have htail : slice (copyWithin fill mem first dest (n + 1)).1 (dest + 1) n
          = slice mem (first + 1) n := by
        have hih := ih moved (first + 1) (dest + 1) (by omega) (by simp [hmoved]; omega)
        refine hih.trans (slice_congr ?_)
        intro i hi _
        rw [hmoved, List.getElem?_set_ne (by omega)]
      rw [Nat.add_comm n 1, ← slice_append_slice, ← slice_append_slice, ← htail, ← hhead,
        Nat.add_comm 1 n]

end CopyWithin

end MuduoCore
