import Mathlib.Data.List.Induction
import Mathlib.Data.List.TakeDrop

/-!
# Files that are written in blocks

A file is the list of its bytes. A write beyond the end leaves a gap that reads as `hole`; a write of
nothing does not touch the file. `extent` is the length after a list of writes, `extend` the file with
a gap up to a length. Files are compared with an intended content block by block (`HoldsBlock`).
-/

namespace Cypher.Lib

variable {α : Type} (hole : α)

def writeAt (file : List α) (offset : Nat) (data : List α) : List α :=
  if data = [] then file
  else (file ++ List.replicate (offset - file.length) hole).take offset ++ data ++
    file.drop (offset + data.length)

/-- The file with a gap up to a length. -/
def extend (file : List α) (length : Nat) : List α :=
  file ++ List.replicate (length - file.length) hole

def writeAll (file : List α) (writes : List (Nat × List α)) : List α :=
  writes.foldl (fun file w => writeAt hole file w.1 w.2) file

def extent (length : Nat) (writes : List (Nat × List α)) : Nat :=
  writes.foldl (fun length w => if w.2 = [] then length else max length (w.1 + w.2.length)) length

def Covers (w : Nat × List α) (k : Nat) : Prop :=
  w.1 ≤ k ∧ k < w.1 + w.2.length

variable {hole} {file data : List α} {offset k : Nat}

theorem length_writeAt :
    (writeAt hole file offset data).length =
      if data = [] then file.length else max file.length (offset + data.length) := by
  unfold writeAt
  split
  · rfl
  · simp only [List.length_append, List.length_take, List.length_replicate, List.length_drop]
    omega

theorem getElem?_writeAt_covered (h : Covers (offset, data) k) :
    (writeAt hole file offset data)[k]? = data[k - offset]? := by
  obtain ⟨hle, hlt⟩ : offset ≤ k ∧ k < offset + data.length := h
  have hne : data ≠ [] := by
    rintro rfl
    simp only [List.length_nil] at hlt
    omega
  have htake : ((file ++ List.replicate (offset - file.length) hole).take offset).length = offset := by
    simp only [List.length_take, List.length_append, List.length_replicate]
    omega
  rw [writeAt, if_neg hne, List.append_assoc,
    List.getElem?_append_right (by omega), htake, List.getElem?_append_left (by omega)]

theorem getElem?_extend (length : Nat) :
    (extend hole file length)[k]? =
      if k < file.length then file[k]? else if k < length then some hole else none := by
  unfold extend
  split
  · next hlt => exact List.getElem?_append_left hlt
  · next hge =>
    rw [List.getElem?_append_right (by omega), List.getElem?_replicate]
    split
    · rw [if_pos (by omega)]
    · rw [if_neg (by omega)]

theorem getElem?_writeAt_left (h : ¬ Covers (offset, data) k) :
    (writeAt hole file offset data)[k]? =
      (extend hole file (writeAt hole file offset data).length)[k]? := by
  have hleft : ¬ (offset ≤ k ∧ k < offset + data.length) := h
  rw [getElem?_extend, length_writeAt]
  by_cases hempty : data = []
  · simp only [writeAt, if_pos hempty]
    split
    · rfl
    · next hge => exact List.getElem?_eq_none (by omega)
  · rw [if_neg hempty, writeAt, if_neg hempty, List.append_assoc]
    have htake : ((file ++ List.replicate (offset - file.length) hole).take offset).length =
        offset := by
      simp only [List.length_take, List.length_append, List.length_replicate]
      omega
    by_cases hbefore : k < offset
    · rw [List.getElem?_append_left (by omega), List.getElem?_take_of_lt hbefore]
      by_cases hin : k < file.length
      · rw [if_pos hin, List.getElem?_append_left hin]
      · rw [if_neg hin, if_pos (by omega), List.getElem?_append_right (by omega),
          List.getElem?_replicate, if_pos (by omega)]
    · rw [List.getElem?_append_right (by omega), htake, List.getElem?_append_right (by omega),
        List.getElem?_drop]
      rw [show offset + data.length + (k - offset - data.length) = k by omega]
      by_cases hin : k < file.length
      · rw [if_pos hin]
      · rw [if_neg hin, if_neg (by omega)]
        exact List.getElem?_eq_none (by omega)

/-! ## Lists of writes -/

variable {writes : List (Nat × List α)}

theorem extent_le (length : Nat) (writes : List (Nat × List α)) :
    length ≤ extent length writes := by
  induction writes generalizing length with
  | nil => exact Nat.le_refl _
  | cons w writes ih =>
    rw [extent, List.foldl_cons]
    refine Nat.le_trans ?_ (ih _)
    split
    · exact Nat.le_refl _
    · exact Nat.le_max_left _ _

theorem extent_eq_self {length : Nat}
    (h : ∀ w ∈ writes, w.2 = [] ∨ w.1 + w.2.length ≤ length) : extent length writes = length := by
  induction writes with
  | nil => rfl
  | cons w writes ih =>
    have hw : (if w.2 = [] then length else max length (w.1 + w.2.length)) = length := by
      rcases h w List.mem_cons_self with hempty | hle
      · rw [if_pos hempty]
      · rw [Nat.max_eq_left hle, ite_self]
    rw [extent, List.foldl_cons, hw]
    exact ih fun w' hw' => h w' (List.mem_cons_of_mem _ hw')

theorem length_writeAll (file : List α) (writes : List (Nat × List α)) :
    (writeAll hole file writes).length = extent file.length writes := by
  induction writes generalizing file with
  | nil => rfl
  | cons w writes ih =>
    rw [writeAll, List.foldl_cons, ← writeAll, ih, length_writeAt]
    rfl

theorem getElem?_writeAll_left (h : ∀ w ∈ writes, ¬ Covers w k) :
    (writeAll hole file writes)[k]? =
      (extend hole file (extent file.length writes))[k]? := by
  induction writes generalizing file with
  | nil => simp [writeAll, extend, extent]
  | cons w writes ih =>
    have hle : (writeAt hole file w.1 w.2).length ≤
        extent (writeAt hole file w.1 w.2).length writes := extent_le _ _
    have hstep : extent file.length (w :: writes) =
        extent (writeAt hole file w.1 w.2).length writes := by
      rw [length_writeAt]
      rfl
    rw [writeAll, List.foldl_cons, ← writeAll,
      ih fun w' hw' => h w' (List.mem_cons_of_mem _ hw'), hstep, getElem?_extend, getElem?_extend,
      getElem?_writeAt_left (h w List.mem_cons_self), getElem?_extend]
    have hgrows : file.length ≤ (writeAt hole file w.1 w.2).length := by
      rw [length_writeAt]
      split <;> omega
    by_cases hin : k < file.length
    · rw [if_pos (show k < (writeAt hole file w.1 w.2).length by omega), if_pos hin, if_pos hin]
    · by_cases hmid : k < (writeAt hole file w.1 w.2).length
      · rw [if_pos hmid, if_neg hin, if_pos hmid, if_neg hin, if_pos (by omega)]
      · rw [if_neg hmid, if_neg hin]

theorem getElem?_writeAll_covered {content : List α}
    (hagree : ∀ w ∈ writes, Covers w k → w.2[k - w.1]? = content[k]?)
    (hcovered : ∃ w ∈ writes, Covers w k) :
    (writeAll hole file writes)[k]? = content[k]? := by
  -- the last write that covers the position decides
  induction writes using List.reverseRecOn with
  | nil =>
    obtain ⟨w, hw, -⟩ := hcovered
    cases hw
  | append_singleton writes w ih =>
    rw [writeAll, List.foldl_append, List.foldl_cons, List.foldl_nil, ← writeAll]
    by_cases hw : Covers w k
    · rw [getElem?_writeAt_covered hw]
      exact hagree w (List.mem_append_right _ (List.mem_singleton.mpr rfl)) hw
    · obtain ⟨w', hw', hcovers⟩ := hcovered
      have hmem : w' ∈ writes := by
        rcases List.mem_append.mp hw' with hmem | hmem
        · exact hmem
        · rw [List.mem_singleton.mp hmem] at hcovers
          exact absurd hcovers hw
      have hbefore := ih (fun v hv => hagree v (List.mem_append_left _ hv)) ⟨w', hmem, hcovers⟩
      have hlt : k < (writeAll hole file writes).length := by
        obtain ⟨hle, hend⟩ := hcovers
        by_contra hge
        rw [List.getElem?_eq_none (by omega),
          ← hagree w' (List.mem_append_left _ hmem) ⟨hle, hend⟩] at hbefore
        have := List.getElem?_eq_none_iff.mp hbefore.symm
        omega
      rw [getElem?_writeAt_left hw, getElem?_extend, if_pos hlt]
      exact hbefore

/-! ## Blocks -/

/-- Block `i` of a list that is cut into blocks of length `c`. -/
def block (c : Nat) (content : List α) (i : Nat) : List α :=
  (content.drop (i * c)).take c

/-- The file has the bytes of block `i` of `content` in their place. -/
def HoldsBlock (c : Nat) (file content : List α) (i : Nat) : Prop :=
  ∀ k < content.length, k / c = i → file[k]? = content[k]?

instance [DecidableEq α] (c : Nat) (file content : List α) (i : Nat) :
    Decidable (HoldsBlock c file content i) :=
  inferInstanceAs (Decidable (∀ k < content.length, k / c = i → file[k]? = content[k]?))

variable {c i : Nat} {content : List α}

theorem length_block : (block c content i).length = min c (content.length - i * c) := by
  simp [block]

theorem covers_block (hc : 0 < c) :
    Covers (i * c, block c content i) k ↔ k < content.length ∧ k / c = i := by
  have hdiv : k / c = i ↔ i * c ≤ k ∧ k < i * c + c := by
    rw [Nat.div_eq_iff hc, Nat.mul_comm i c]
    omega
  unfold Covers
  dsimp only
  rw [length_block, hdiv]
  omega

theorem getElem?_block (hk : k < c) : (block c content i)[k]? = content[i * c + k]? := by
  rw [block, List.getElem?_take_of_lt hk, List.getElem?_drop]

theorem take_eq_iff_holdsBlock :
    file.take content.length = content ↔ ∀ i, HoldsBlock c file content i := by
  constructor
  · intro htake i k hk _
    rw [← List.getElem?_take_of_lt hk, htake]
  · intro hholds
    apply List.ext_getElem?
    intro k
    by_cases hk : k < content.length
    · rw [List.getElem?_take_of_lt hk]
      exact hholds (k / c) k hk rfl
    · rw [List.getElem?_eq_none (by rw [List.length_take]; omega), List.getElem?_eq_none (by omega)]

/-- After blocks of `content` were written, in any order and any number of times, the file holds a
block exactly if it is among them or the file had it, gaps included. -/
theorem holdsBlock_writeAll (hc : 0 < c) (file : List α) (is : List Nat) :
    HoldsBlock c (writeAll hole file (is.map fun i => (i * c, block c content i))) content i ↔
      i ∈ is ∨ HoldsBlock c (extend hole file
        (extent file.length (is.map fun i => (i * c, block c content i)))) content i := by
  have hagree : ∀ k, ∀ w ∈ is.map fun i => (i * c, block c content i), Covers w k →
      w.2[k - w.1]? = content[k]? := by
    intro k w hw hcovers
    obtain ⟨j, -, rfl⟩ := List.mem_map.mp hw
    obtain ⟨hle, hlt⟩ : j * c ≤ k ∧ k < j * c + (block c content j).length := hcovers
    rw [length_block] at hlt
    dsimp only
    rw [getElem?_block (by omega), show j * c + (k - j * c) = k by omega]
  by_cases hi : i ∈ is
  · refine iff_of_true ?_ (.inl hi)
    intro k hk hdiv
    exact getElem?_writeAll_covered (hagree k)
      ⟨_, List.mem_map.mpr ⟨i, hi, rfl⟩, (covers_block hc).mpr ⟨hk, hdiv⟩⟩
  · rw [or_iff_right hi]
    refine forall₃_congr fun k hk hdiv => ?_
    rw [getElem?_writeAll_left]
    intro w hw hcovers
    obtain ⟨j, hj, rfl⟩ := List.mem_map.mp hw
    obtain ⟨-, rfl⟩ := (covers_block hc).mp hcovers
    rw [hdiv] at hj
    exact hi hj

end Cypher.Lib
