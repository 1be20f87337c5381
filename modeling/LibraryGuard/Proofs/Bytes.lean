import LibraryGuard.Bytes
import LibraryGuard.Proofs.Except
import Mathlib.Data.Bool.Basic

/-!
# What stands at an offset

`HoldsAt` says that some bytes stand in a file from an offset on, with anything before and behind them. A file that holds two
stretches one after the other holds each of them at its own offset (`HoldsAt.split`), so a layout that is written as one list
is taken apart into the places of its parts, and each part can be sliced out (`HoldsAt.slice?_eq`).

`IsStart` says that a file goes on where another one ends. What lies within the first one is found at the same place of the
second one, so a slice or a number that is read from the first one is read from both (`slice?_kept`, `nat?_kept`).
-/

namespace LibraryGuard.Bytes

/-- Some bytes stand in a file from an offset on. -/
def HoldsAt (b : Bytes) (offset : Nat) (bytes : List UInt8) : Prop :=
  ∃ before after, b.toList = before ++ bytes ++ after ∧ before.length = offset

variable {b : Bytes} {offset : Nat} {bytes : List UInt8}

/-- A file holds its content at its beginning. -/
theorem holdsAt_zero (bytes : List UInt8) : HoldsAt bytes.toArray 0 bytes := ⟨[], [], by simp, rfl⟩

/-- Of two stretches one after the other, the second one stands behind the first. -/
theorem HoldsAt.split {x y : List UInt8} (h : HoldsAt b offset (x ++ y)) :
    HoldsAt b offset x ∧ HoldsAt b (offset + x.length) y := by
  obtain ⟨before, after, hb, rfl⟩ := h
  exact ⟨⟨before, y ++ after, by simp [hb], rfl⟩, ⟨before ++ x, after, by simp [hb], by simp⟩⟩

/-- What stands at an offset ends within the file. -/
theorem HoldsAt.end_le (h : HoldsAt b offset bytes) : offset + bytes.length ≤ b.size := by
  obtain ⟨before, after, hb, rfl⟩ := h
  have hsize := congrArg List.length hb
  simp only [Array.length_toList, List.length_append] at hsize
  omega

/-- What stands at an offset is the stretch of its length there. -/
theorem HoldsAt.extract_eq (h : HoldsAt b offset bytes) : b.extract offset (offset + bytes.length) = bytes.toArray := by
  obtain ⟨before, after, hb, rfl⟩ := h
  rw [← Array.toList_inj, Array.toList_extract, hb]
  simp [List.extract_eq_take_drop]

/-- What stands at an offset can be sliced out. -/
theorem HoldsAt.slice?_eq (h : HoldsAt b offset bytes) : b.slice? offset bytes.length = some bytes.toArray := by
  rw [slice?, fits, if_pos (by simpa using h.end_le), h.extract_eq]

/-! ## Files that go on -/

/-- A file is the start of another one, which may go on behind it. -/
def IsStart (b b' : Bytes) : Prop := ∃ rest, b' = b ++ rest

variable {b' : Bytes}

theorem isStart_append (b rest : Bytes) : IsStart b (b ++ rest) := ⟨rest, rfl⟩

theorem IsStart.size_le (h : IsStart b b') : b.size ≤ b'.size := by
  obtain ⟨rest, rfl⟩ := h
  rw [Array.size_append]
  exact Nat.le_add_right ..

theorem IsStart.getD_eq (h : IsStart b b') {i : Nat} (hi : i < b.size) (d : UInt8) : b'.getD i d = b.getD i d := by
  obtain ⟨rest, rfl⟩ := h
  rw [Array.getD_eq_getD_getElem?, Array.getD_eq_getD_getElem?, Array.getElem?_append_left hi]

/-- A stretch that ends within a file is the same where the file goes on. -/
theorem IsStart.extract_eq (h : IsStart b b') {i j : Nat} (hj : j ≤ b.size) : b'.extract i j = b.extract i j := by
  obtain ⟨rest, rfl⟩ := h
  rw [Array.extract_append, Nat.sub_eq_zero_of_le hj]
  simp

@[gcongr] theorem fits_le (h : IsStart b b') (offset length : Nat) : b.fits offset length ≤ b'.fits offset length := by
  rw [Bool.le_iff_imp, fits, fits, decide_eq_true_iff, decide_eq_true_iff]
  exact fun hfits => Nat.le_trans hfits h.size_le

theorem IsStart.not_fits (h : IsStart b b') {length : Nat} (hnot : (!b'.fits offset length) = true) :
    (!b.fits offset length) = true := by
  rw [Bool.not_eq_true'] at hnot ⊢
  exact Bool.eq_false_of_le_false (hnot ▸ fits_le h offset length)

@[gcongr] theorem slice?_kept (h : IsStart b b') (offset length : Nat) :
    IsKeptBy (b.slice? offset length) (b'.slice? offset length) := by
  intro s hs
  rw [slice?] at hs ⊢
  obtain ⟨hfits, hs⟩ := Option.ite_none_right_eq_some.1 hs
  rw [if_pos (Bool.le_iff_imp.1 (fits_le h _ _) hfits), h.extract_eq (of_decide_eq_true hfits)]
  exact hs

@[gcongr] theorem nat?_kept (h : IsStart b b') (order : Order) (offset width : Nat) :
    IsKeptBy (b.nat? order offset width) (b'.nat? order offset width) := by
  unfold nat?
  gcongr

end LibraryGuard.Bytes
