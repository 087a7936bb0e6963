import ImageLinker.Evm.Machine
import ImageLinker.Proofs.Words

/-! What reading gives back of what was written, and how far memory has grown. -/
namespace ImageLinker.Evm

namespace Memory

variable {m : Memory} {bytes : List UInt8} {start stop count : Nat}

/-- Memory that already covers a range does not grow. -/
theorem growTo_of_le (h : (stop + 31) / 32 * 32 ≤ m.size) : m.growTo stop = m := by
  unfold size at h
  unfold growTo
  rw [Nat.sub_eq_zero_of_le h, Array.replicate_zero, Array.append_empty]

theorem size_growTo (m : Memory) (stop : Nat) :
    (m.growTo stop).size = max m.size ((stop + 31) / 32 * 32) := by
  simp only [growTo, size, Array.size_append, Array.size_replicate]
  omega

/-- A range that is no range of positions passes the limit. -/
theorem reserve?_eq (m : Memory) (offset size : Word) : m.reserve? offset size =
    if size.toNat = 0 then some (0, m)
    else if offset.toNat + size.toNat ≤ limit then
      some (offset.toNat, m.growTo (offset.toNat + size.toNat))
    else none := by
  have hlimit : limit < 2 ^ 64 := by decide
  unfold reserve?
  cases hsize : size.toIndex? with
  | none =>
    have hle := Word.toIndex?_eq_none_iff.mp hsize
    rw [if_neg (by omega), if_neg (by omega)]
    rfl
  | some count =>
    obtain ⟨rfl, hlt⟩ := Word.toIndex?_eq_some_iff.mp hsize
    by_cases hzero : size.toNat = 0
    · rw [if_pos hzero, hzero]
      rfl
    rw [if_neg hzero]
    cases hoffset : offset.toIndex? with
    | none =>
      have hle := Word.toIndex?_eq_none_iff.mp hoffset
      rw [if_neg (by omega)]
      simp [hzero]
    | some start =>
      obtain ⟨rfl, hlt'⟩ := Word.toIndex?_eq_some_iff.mp hoffset
      by_cases hle : offset.toNat + size.toNat ≤ limit
      · have hsum : addIndex? offset.toNat size.toNat = some (offset.toNat + size.toNat) :=
          if_pos (Nat.lt_of_le_of_lt hle hlimit)
        simp [hzero, hsum, hle, Nat.not_lt.mpr hle]
      · rw [if_neg hle]
        by_cases hsum : offset.toNat + size.toNat < UInt64.size
        · simp [hzero, addIndex?, hsum, Nat.lt_of_not_le hle]
        · simp [hzero, addIndex?, hsum]

/-- A range at the start of memory can be had up to the limit; none is needed for an empty one. -/
theorem reserve?_zero {n : Nat} (h : n ≤ limit) :
    m.reserve? (.ofNat 0) (.ofNat n) = some (0, m.growTo n) := by
  have hlt : n < 2 ^ 64 := Nat.lt_of_le_of_lt h (by decide)
  rw [reserve?_eq, Word.toNat_ofNat hlt, Word.toNat_ofNat (by decide), Nat.zero_add, if_pos h]
  by_cases hn : n = 0
  · rw [if_pos hn, hn, growTo_of_le (Nat.zero_le _)]
  · rw [if_neg hn]

theorem reserve?_of_pos {offset size : Nat} (hsize : 0 < size) (h : offset + size ≤ limit) :
    m.reserve? (.ofNat offset) (.ofNat size) = some (offset, m.growTo (offset + size)) := by
  have hlt : offset + size < 2 ^ 64 := Nat.lt_of_le_of_lt h (by decide)
  rw [reserve?_eq, Word.toNat_ofNat (by omega), Word.toNat_ofNat (by omega),
    if_neg (Nat.ne_of_gt hsize), if_pos h]

theorem size_write (m : Memory) (start : Nat) (bytes : List UInt8) :
    (m.write start bytes).size = m.size := by
  induction bytes generalizing m start with
  | nil => rfl
  | cons b rest ih =>
    rw [write, ih]
    exact Array.size_setIfInBounds

theorem getElem?_write (m : Memory) (start : Nat) (bytes : List UInt8) (i : Nat) :
    (m.write start bytes).bytes[i]? =
      if start ≤ i ∧ i < start + bytes.length ∧ i < m.bytes.size then bytes[i - start]?
      else m.bytes[i]? := by
  induction bytes generalizing m start with
  | nil =>
    rw [write, if_neg]
    simp only [List.length_nil]
    omega
  | cons b rest ih =>
    have hlen : (b :: rest).length = rest.length + 1 := List.length_cons
    rw [write, ih, Array.getElem?_setIfInBounds, Array.size_setIfInBounds]
    rcases Nat.lt_trichotomy i start with hlt | rfl | hgt
    · rw [if_neg (by omega), if_neg (by omega), if_neg (by omega)]
    · rw [if_neg (by omega), if_pos rfl, Nat.sub_self]
      by_cases hi : i < m.bytes.size
      · rw [if_pos hi, if_pos (by omega)]
        rfl
      · rw [if_neg hi, if_neg (by omega), Array.getElem?_eq_none (Nat.le_of_not_lt hi)]
    · rw [if_neg (by omega : ¬ start = i)]
      by_cases hi : i < start + 1 + rest.length ∧ i < m.bytes.size
      · rw [if_pos (by omega), if_pos (by omega), show i - start = i - (start + 1) + 1 by omega,
          List.getElem?_cons_succ]
      · rw [if_neg (by omega), if_neg (by omega)]

/-- Inside what was written, memory reads as the bytes that were written there. -/
theorem read_write {offset : Nat} (hm : start + bytes.length ≤ m.size)
    (hb : offset + count ≤ bytes.length) :
    (m.write start bytes).read (start + offset) count = (bytes.drop offset).take count := by
  apply List.ext_getElem?
  intro i
  unfold read
  rw [Array.getElem?_toList, Array.getElem?_extract, getElem?_write]
  by_cases hi : i < count
  · have hsize := size_write m start bytes
    unfold size at hsize hm
    rw [List.getElem?_take_of_lt hi, List.getElem?_drop, if_pos (by omega), if_pos (by omega)]
    congr 1
    omega
  · rw [List.getElem?_take_eq_none (Nat.le_of_not_lt hi), if_neg (by omega)]

/-- A reading of the range at the start of memory that was just filled returns what it was filled
with. -/
theorem read_growTo_write {n : Nat} (h : bytes.length = n) :
    (((m.growTo n).write 0 bytes).growTo n).read 0 n = bytes := by
  have hsize := size_growTo m n
  have hread : ((m.growTo n).write 0 bytes).read (0 + 0) n = (bytes.drop 0).take n :=
    read_write (by omega) (by omega)
  rw [growTo_of_le (by rw [size_write]; omega)]
  rwa [List.drop_zero, List.take_of_length_le (Nat.le_of_eq h)] at hread

def cell (m : Memory) (i : Nat) : UInt8 := m.bytes[i]?.getD 0

/-- Growing uncovers zeros. -/
theorem cell_growTo (m : Memory) (stop i : Nat) : (m.growTo stop).cell i = m.cell i := by
  unfold cell growTo
  rw [Array.getElem?_append]
  split
  · rfl
  · next hi =>
    have hend : m.bytes[i]? = none := Array.getElem?_eq_none (Nat.le_of_not_lt hi)
    rw [hend, Array.getElem?_replicate]
    split <;> rfl

theorem cell_write (h : start + bytes.length ≤ m.size) (i : Nat) : (m.write start bytes).cell i =
    if start ≤ i ∧ i < start + bytes.length then bytes[i - start]?.getD 0 else m.cell i := by
  unfold size at h
  unfold cell
  rw [getElem?_write]
  by_cases hi : start ≤ i ∧ i < start + bytes.length
  · rw [if_pos hi, if_pos ⟨hi.1, hi.2, Nat.lt_of_lt_of_le hi.2 h⟩]
  · rw [if_neg hi, if_neg fun hwritten => hi ⟨hwritten.1, hwritten.2.1⟩]

theorem read_eq_map_cell (h : start + count ≤ m.size) :
    m.read start count = (List.range count).map fun i => m.cell (start + i) := by
  unfold size at h
  apply List.ext_getElem?
  intro i
  unfold read cell
  rw [Array.getElem?_toList, Array.getElem?_extract, List.getElem?_map]
  by_cases hi : i < count
  · rw [if_pos (by omega), List.getElem?_range hi, Option.map_some,
      Array.getElem?_eq_getElem (by omega), Option.getD_some]
  · rw [if_neg (by omega), List.getElem?_eq_none (by rw [List.length_range]; omega),
      Option.map_none]

end Memory

section

variable {source : Array UInt8} {offset count : Nat}

theorem length_window (source : Array UInt8) (offset count : Nat) :
    (window source offset count).length = count := by
  simp [window]

/-- Below the last position nothing is lost to the size of positions. -/
theorem window_of_le (h : offset + count ≤ UInt64.size) : window source offset count =
    (List.range count).map fun i => source[offset + i]?.getD 0 := by
  unfold window
  refine List.map_congr_left fun i hi => ?_
  have hlt : offset + i < UInt64.size :=
    Nat.lt_of_lt_of_le (Nat.add_lt_add_left (List.mem_range.mp hi) offset) h
  rw [addIndex?, if_pos hlt, Option.bind_some]

/-- A source in memory has no byte past the last position. -/
theorem window_of_size_le (h : source.size ≤ UInt64.size) : window source offset count =
    (List.range count).map fun i => source[offset + i]?.getD 0 := by
  unfold window
  refine List.map_congr_left fun i _ => ?_
  unfold addIndex?
  split
  · rfl
  · next hlt =>
    rw [Array.getElem?_eq_none (Nat.le_trans h (Nat.le_of_not_lt hlt))]
    rfl

/-- A window inside a source shows its bytes as they are. -/
theorem window_toArray {code : List UInt8} (h : offset + count ≤ code.length)
    (hcount : offset + count ≤ UInt64.size) :
    window code.toArray offset count = (code.drop offset).take count := by
  rw [window_of_le hcount]
  apply List.ext_getElem?
  intro i
  rw [List.getElem?_map]
  by_cases hi : i < count
  · rw [List.getElem?_range hi, Option.map_some, List.getElem?_take_of_lt hi, List.getElem?_drop,
      List.getElem?_toArray, List.getElem?_eq_getElem (by omega), Option.getD_some]
  · rw [List.getElem?_take_eq_none (Nat.le_of_not_lt hi),
      List.getElem?_eq_none (by rw [List.length_range]; omega), Option.map_none]

end

namespace Frame

variable {f : Frame} {what : CopySource}

/-- Whatever the offset is, calldata goes on with zeros. -/
theorem loaded_eq (h : f.calldata.size ≤ UInt64.size) (offset : Word) : f.loaded offset =
    (List.range 32).map fun i => f.calldata[offset.toNat + i]?.getD 0 := by
  unfold loaded
  cases hindex : offset.toIndex? with
  | some start =>
    obtain ⟨rfl, -⟩ := Word.toIndex?_eq_some_iff.mp hindex
    exact window_of_size_le h
  | none =>
    have hle : UInt64.size ≤ offset.toNat := Word.toIndex?_eq_none_iff.mp hindex
    refine (List.eq_replicate_iff.mpr ⟨by simp, fun b hb => ?_⟩).symm
    obtain ⟨i, -, rfl⟩ := List.mem_map.mp hb
    rw [Array.getElem?_eq_none (by omega)]
    rfl

theorem copied_ofNat {offset count : Nat} (hoffset : offset < 2 ^ 64) (hcount : count < 2 ^ 64) :
    f.copied what (.ofNat offset) (.ofNat count) = window (f.source what) offset count := by
  rw [copied, Word.toIndex?_ofNat hoffset, Word.toNat_ofNat hcount, Option.getD_some]

/-- Whatever the offset is, a source goes on with zeros: there is no byte at the last position. -/
theorem copied_eq (h : (f.source what).size < UInt64.size) (offset size : Word) :
    f.copied what offset size =
      (List.range size.toNat).map fun i => (f.source what)[offset.toNat + i]?.getD 0 := by
  rw [copied, window_of_size_le (Nat.le_of_lt h)]
  cases hindex : offset.toIndex? with
  | some start =>
    obtain ⟨rfl, -⟩ := Word.toIndex?_eq_some_iff.mp hindex
    rfl
  | none =>
    have hle : UInt64.size ≤ offset.toNat := Word.toIndex?_eq_none_iff.mp hindex
    refine List.map_congr_left fun i _ => ?_
    have hlast : (f.source what).size ≤ lastIndex + i := by
      unfold lastIndex
      omega
    rw [Option.getD_none, Array.getElem?_eq_none hlast, Array.getElem?_eq_none (by omega)]

end Frame

end ImageLinker.Evm
