import ImageLinker.Proofs.Checks.Modules

/-!
The probes of a section and the bytes that they are made of. A stream is taken in chunks from its
first byte on: a sentinel is the next chunk of its width that does not begin with zero, made odd,
and the chunks ahead of it are passed over.
-/
namespace ImageLinker

namespace ByteStream

/-- Byte `i` of those still to come: the given ones, then fillers without end. -/
def byte (s : ByteStream) (i : Nat) : UInt8 := s.rest[i]?.getD filler

theorem byte_skip (s : ByteStream) (count i : Nat) :
    (s.skip count).byte i = s.byte (count + i) := by
  rw [byte, skip, List.getElem?_drop, byte]

theorem skip_skip (s : ByteStream) (a b : Nat) : (s.skip a).skip b = s.skip (a + b) := by
  simp only [skip, List.drop_drop, Nat.add_assoc]

theorem getElem?_peek (s : ByteStream) {count i : Nat} (h : i < count) :
    (s.peek count)[i]? = some (s.byte i) := by
  unfold peek byte
  dsimp only
  rw [List.getElem?_append, List.getElem?_take_of_lt h, List.getElem?_replicate, List.length_take]
  by_cases hi : i < s.rest.length
  · rw [if_pos (by omega), List.getElem?_eq_getElem hi, Option.getD_some]
  · rw [if_neg (by omega), if_pos (by omega), List.getElem?_eq_none (Nat.le_of_not_lt hi)]
    rfl

end ByteStream

namespace Sentinel

variable {s : ByteStream} {sentinel : Sentinel} {start stop : Nat}

def value (sentinel : Sentinel) : Nat := Evm.Word.bigEndian sentinel.bytes

/-- The bytes of a stream from a position on, with the lowest bit of the last one set. -/
def IsChunk (sentinel : Sentinel) (s : ByteStream) (start : Nat) : Prop :=
  ∀ j < sentinel.width, sentinel.bytes[j]? = some
    (if j + 1 = sentinel.width then s.byte (start + j) ||| 1 else s.byte (start + j))

/-- What a sentinel takes of a stream: chunks of its width that begin with zero, then the one that
it is. -/
inductive DrawnFrom (s : ByteStream) (sentinel : Sentinel) : (start stop : Nat) → Prop
  | rejected {start stop : Nat} (hzero : s.byte start = 0)
      (h : DrawnFrom s sentinel (start + sentinel.width) stop) : DrawnFrom s sentinel start stop
  | accepted {start : Nat} (hfirst : s.byte start ≠ 0) (hchunk : sentinel.IsChunk s start) :
      DrawnFrom s sentinel start (start + sentinel.width)

/-- What sentinels take of a stream one behind the other. -/
inductive DrawnInTurn (s : ByteStream) : List Sentinel → (start stop : Nat) → Prop
  | nil {start : Nat} : DrawnInTurn s [] start start
  | cons {sentinel : Sentinel} {sentinels : List Sentinel} {start middle stop : Nat}
      (h : DrawnFrom s sentinel start middle) (hs : DrawnInTurn s sentinels middle stop) :
      DrawnInTurn s (sentinel :: sentinels) start stop

theorem isChunk_makeOdd (h : sentinel.bytes = makeOdd ((s.skip start).peek sentinel.width)) :
    sentinel.IsChunk s start := by
  intro j hj
  have hlen : ((s.skip start).peek sentinel.width).length = sentinel.width :=
    ByteStream.length_peek _ _
  have hget := (s.skip start).getElem?_peek hj
  rw [ByteStream.byte_skip] at hget
  rw [h, Checked.makeOdd_eq_set (by omega)]
  split
  · next hlast =>
    have hj' : ((s.skip start).peek sentinel.width).length - 1 = j := by omega
    have hjlt : j < ((s.skip start).peek sentinel.width).length := by omega
    have hvalue := (List.getElem?_eq_some_iff.mp hget).2
    simp only [hj', List.getElem?_set_self hjlt, hvalue]
  · next hlast => rw [List.getElem?_set_ne (by omega), hget]

theorem drawnFrom_makeOdd {width : Nat} (hfirst : s.byte start ≠ 0)
    (h : sentinel.bytes = makeOdd ((s.skip start).peek width)) :
    DrawnFrom s sentinel start (start + width) := by
  obtain rfl : sentinel.width = width := by
    rw [Sentinel.width, h, length_makeOdd, ByteStream.length_peek]
  exact .accepted hfirst (isChunk_makeOdd h)

/-- Drawing takes chunks until one does not begin with zero. -/
theorem drawChunk_drawnFrom {width : Nat} (hwidth : 1 < width) {t : ByteStream}
    (ht : t = s.skip start) : ∃ stop, (drawChunk width t).2 = s.skip stop ∧
      ∀ sentinel : Sentinel, sentinel.bytes = (drawChunk width t).1 →
        DrawnFrom s sentinel start stop := by
  fun_induction drawChunk width t generalizing start with
  | case1 tail used hle => exact absurd hwidth (Nat.not_lt.mpr hle)
  | case2 tail used hle ih =>
    have hzero : s.byte start = 0 := by
      rw [← Nat.add_zero start, ← ByteStream.byte_skip, ← ht]
      rfl
    have hnext : (⟨tail.drop (width - 1), used + width⟩ : ByteStream) =
        s.skip (start + width) := by
      rw [← ByteStream.skip_skip, ← ht, ByteStream.skip, ← Nat.sub_add_cancel hwidth.le]
      rfl
    obtain ⟨stop, hstop, hdrawn⟩ := ih hnext
    refine ⟨stop, hstop, fun sentinel hbytes => .rejected hzero ?_⟩
    obtain rfl : sentinel.width = width := by rw [Sentinel.width, hbytes, length_drawChunk]
    exact hdrawn sentinel hbytes
  | case3 t hnot =>
    have hfirst : s.byte start ≠ 0 := by
      rw [← Nat.add_zero start, ← ByteStream.byte_skip, ← ht]
      obtain ⟨rest, used⟩ := t
      cases rest with
      | nil => exact show ByteStream.filler ≠ 0 by decide
      | cons b tail => exact fun hb => hnot tail used (by rw [show b = 0 from hb])
    subst ht
    exact ⟨_, ByteStream.skip_skip _ _ _, fun sentinel => drawnFrom_makeOdd hfirst⟩

theorem draw_drawnFrom {width : Nat} (hlt : 1 < width) (hle : width ≤ 32) (s : ByteStream)
    (start : Nat) : ∃ sentinel stop, draw width (s.skip start) = .ok (sentinel, s.skip stop) ∧
      sentinel.width = width ∧ DrawnFrom s sentinel start stop := by
  obtain ⟨stop, hstop, hdrawn⟩ := drawChunk_drawnFrom hlt (rfl : s.skip start = s.skip start)
  have hlen := length_drawChunk width (s.skip start)
  refine ⟨⟨(drawChunk width (s.skip start)).1, by omega, by omega⟩, stop, ?_, hlen, hdrawn _ rfl⟩
  rw [← hstop]
  exact dif_pos ⟨Nat.le_of_lt hlt, hle⟩

theorem DrawnFrom.exists_chunk (h : DrawnFrom s sentinel start stop) :
    ∃ position, s.byte position ≠ 0 ∧ sentinel.IsChunk s position := by
  induction h with
  | rejected _ _ ih => exact ih
  | accepted hfirst hchunk => exact ⟨_, hfirst, hchunk⟩

theorem value_lt (sentinel : Sentinel) : sentinel.value < 256 ^ sentinel.width :=
  Evm.Word.bigEndian_lt sentinel.bytes

theorem bytes_ne_nil (sentinel : Sentinel) : sentinel.bytes ≠ [] :=
  List.length_pos_iff.mp sentinel.width_pos

theorem odd_or_one (b : UInt8) : Odd (b ||| 1).toNat := by
  rw [UInt8.toNat_or, Nat.odd_iff]
  exact Nat.or_mod_two_eq_one.mpr (.inr rfl)

namespace IsChunk

theorem odd_value (h : sentinel.IsChunk s start) : Odd sentinel.value := by
  have hpos : 1 ≤ sentinel.width := sentinel.width_pos
  have hlast := h (sentinel.width - 1) (by omega)
  rw [if_pos (by omega), width, ← List.getLast?_eq_getElem?, List.getLast?_eq_some_iff] at hlast
  obtain ⟨init, hbytes⟩ := hlast
  rw [value, hbytes, Evm.Word.bigEndian_append]
  have heven : Even (Evm.Word.bigEndian init * 256) := (by decide : Even 256).mul_left _
  exact heven.add_odd (odd_or_one _)

theorem head?_ne (h : sentinel.IsChunk s start) (hfirst : s.byte start ≠ 0) :
    sentinel.bytes.head? ≠ some 0 := by
  have hget := h 0 sentinel.width_pos
  rw [Nat.add_zero, ← List.head?_eq_getElem?] at hget
  rw [hget, ne_eq, Option.some.injEq]
  split
  · exact Checked.or_one_ne_zero _
  · exact hfirst

end IsChunk

end Sentinel

theorem Layout.probesPerModule_eq (layout : Layout) :
    layout.probesPerModule = 2 ^ (layout.shift - 5) :=
  Nat.pow_div layout.shift_ge (by decide)

/-- Probe number `k`, counted from 0, where the offsets begin anew after so many. -/
structure Probe.IsNumber (group k : Nat) (p : Probe) : Prop where
  width : p.sentinel.width = if k = 0 then 29 else 28
  offset : p.offset.toNat + k % group = 255
  odd : Odd p.sentinel.value
  least : 256 ^ (p.sentinel.width - 1) ≤ p.sentinel.value
  lt : p.sentinel.value < 256 ^ p.sentinel.width

namespace ProbePlan

variable {layout : Layout} {modules : Nat} {s : ByteStream}

theorem offsetAt_add (layout : Layout) (modules k : Nat) :
    ((make layout modules).offsetAt k).toNat + k % layout.probesPerModule = 255 := by
  have hmod := Nat.mod_lt k layout.probesPerModule_pos
  have hle := Checked.probesPerModule_le layout
  have hvalue : (UInt8.ofNat (k % layout.probesPerModule)).toNat = k % layout.probesPerModule :=
    UInt8.toNat_ofNat_of_lt (show _ < 256 by omega)
  have hbelow : UInt8.ofNat (k % layout.probesPerModule) ≤ 0xff :=
    UInt8.le_iff_toNat_le.mpr (by rw [hvalue]; exact show _ ≤ 255 by omega)
  rw [offsetAt, make, UInt8.toNat_sub_of_le _ _ hbelow, hvalue]
  exact Nat.sub_add_cancel (show _ ≤ 255 by omega)

/-- Probes are drawn in turn, each with the width and the offset of its number. -/
theorem drawFrom_drawnInTurn (layout : Layout) (modules : Nat) (s : ByteStream)
    (done : Array Probe) (k count start : Nat) : ∃ probes stop,
      (make layout modules).drawFrom done k count (s.skip start) =
        .ok (done.toList ++ probes, s.skip stop) ∧
      probes.length = count ∧
      (∀ (j : Nat) (p : Probe), probes[j]? = some p → p.IsNumber layout.probesPerModule (k + j)) ∧
      Sentinel.DrawnInTurn s (probes.map Probe.sentinel) start stop := by
  induction count generalizing done k start with
  | zero => exact ⟨[], start, by rw [List.append_nil]; rfl, rfl, nofun, .nil⟩
  | succ count ih =>
    have hwidth : 1 < sentinelWidth k ∧ sentinelWidth k ≤ 32 := by
      unfold sentinelWidth
      split <;> omega
    obtain ⟨sentinel, middle, hdraw, hw, hdrawn⟩ :=
      Sentinel.draw_drawnFrom hwidth.1 hwidth.2 s start
    obtain ⟨probes, stop, hfrom, hlen, hall, hturn⟩ :=
      ih (done.push ⟨(make layout modules).offsetAt k, sentinel⟩) (k + 1) middle
    obtain ⟨position, hfirst, hchunk⟩ := hdrawn.exists_chunk
    refine ⟨⟨(make layout modules).offsetAt k, sentinel⟩ :: probes, stop, ?_, ?_, ?_, ?_⟩
    · rw [drawFrom, hdraw]
      dsimp only [bind, Except.bind]
      rw [hfrom, Array.toList_push, List.append_assoc, List.singleton_append]
    · rw [List.length_cons, hlen]
    · rintro (_ | j) p hp
      · cases hp
        exact ⟨hw, offsetAt_add layout modules k, hchunk.odd_value,
          Evm.Word.le_bigEndian sentinel.bytes_ne_nil (hchunk.head?_ne hfirst), sentinel.value_lt⟩
      · rw [Nat.add_comm j, ← Nat.add_assoc]
        exact hall j p hp
    · exact .cons hdrawn hturn

theorem nodup_offsets {group : Nat} {probes : List Probe}
    (h : ∀ (k : Nat) (p : Probe), probes[k]? = some p → p.IsNumber group k) (g : Nat) :
    (((probes.drop (g * group)).take group).map Probe.offset).Nodup := by
  have hoffset (k : Nat) (hk : k < group) (p : Probe)
      (hp : ((probes.drop (g * group)).take group)[k]? = some p) : p.offset.toNat + k = 255 := by
    rw [List.getElem?_take_of_lt hk, List.getElem?_drop] at hp
    have hmod := (h _ p hp).offset
    rwa [Nat.mul_comm, Nat.mul_add_mod, Nat.mod_eq_of_lt hk] at hmod
  rw [List.Nodup, List.pairwise_map, List.pairwise_iff_getElem]
  intro i j hi hj hlt heq
  have hgroup := List.length_take_le group (probes.drop (g * group))
  have hi' := hoffset i (by omega) _ (List.getElem?_eq_getElem hi)
  have hj' := hoffset j (by omega) _ (List.getElem?_eq_getElem hj)
  rw [heq] at hi'
  omega

theorem exists_last {group i : Nat} {probes : List Probe} (hgroup : 0 < group)
    (hlen : probes.length = (i + 1) * group)
    (h : ∀ (k : Nat) (p : Probe), probes[k]? = some p → p.IsNumber group k) :
    ∃ last, probes.getLast? = some last ∧ last.offset.toNat + group = 256 := by
  have hend : probes.length = group * i + group := by rw [hlen, Nat.succ_mul, Nat.mul_comm]
  have hlt : group * i + (group - 1) < probes.length := by omega
  have hget := List.getElem?_eq_getElem hlt
  refine ⟨probes[group * i + (group - 1)], ?_, ?_⟩
  · rw [List.getLast?_eq_getElem?, ← hget]
    congr 1
    omega
  · have hoffset := (h _ _ hget).offset
    rw [Nat.mul_add_mod, Nat.mod_eq_of_lt (by omega)] at hoffset
    omega

/-- Every section of a plan gets as many probes as are planned for it, also where each difference
and each width is checked. Their offsets go down from 255 in every group, which never passes zero,
and they take of the stream the chunks that become sentinels and those that begin with zero. -/
theorem draw_takes_chunks {i : Nat} (hpos : 1 ≤ i) (hle : i ≤ modules) (s : ByteStream) :
    let group := 2 ^ (layout.shift - 5)
    ∃ probes rest taken,
      (make layout modules).draw i s = .ok (probes, rest) ∧
      Checked.draw (make layout modules) i s = .ok (probes, rest) ∧
      probes.length = i * group ∧
      (∀ (k : Nat) (p : Probe), probes[k]? = some p → p.IsNumber group k) ∧
      (∀ g, (((probes.drop (g * group)).take group).map Probe.offset).Nodup) ∧
      (∃ last, probes.getLast? = some last ∧ last.offset.toNat + group = 256) ∧
      Sentinel.DrawnInTurn s (probes.map Probe.sentinel) 0 taken ∧
      rest.used = s.used + taken ∧ ∀ n, rest.byte n = s.byte (taken + n) := by
  obtain ⟨i, rfl⟩ : ∃ j, i = j + 1 := ⟨i - 1, by omega⟩
  obtain ⟨probes, taken, hfrom, hlen, hall, hturn⟩ :=
    drawFrom_drawnInTurn layout modules s #[] 0 (layout.probesPerModule * (i + 1)) 0
  obtain ⟨probes', rest, hchecked, hdraw⟩ := Checked.draw_eq layout hle s
  have hsame : (make layout modules).draw (i + 1) s = .ok (probes, s.skip taken) := by
    rw [draw, probesFor_make hle]
    exact hfrom
  rw [hsame] at hdraw
  cases hdraw
  simp only [Nat.zero_add, layout.probesPerModule_eq] at hall hlen
  rw [Nat.mul_comm] at hlen
  exact ⟨probes, s.skip taken, taken, hsame, hchecked, hlen, hall, nodup_offsets hall,
    exists_last (Nat.two_pow_pos _) hlen hall, hturn, rfl, s.byte_skip taken⟩

/-- The first chunk of each width begins with zero. -/
theorem draw_takes_chunks_zeros : ∃ probes : List Probe,
    let s : ByteStream := ⟨List.replicate 29 0 ++ List.replicate 29 2 ++ List.replicate 28 0, 0⟩
    (make .standard 2).draw 2 s = .ok (probes, ⟨[], 170⟩) ∧ probes.length = 4 ∧
      Sentinel.DrawnInTurn s (probes.map Probe.sentinel) 0 170 := by
  let s : ByteStream := ⟨List.replicate 29 0 ++ List.replicate 29 2 ++ List.replicate 28 0, 0⟩
  obtain ⟨probes, rest, taken, hdraw, -, hlen, -, -, -, hturn, hused, -⟩ :=
    @draw_takes_chunks .standard 2 2 (by decide) (by decide) s
  have hrest : ((make .standard 2).draw 2 s).map Prod.snd = .ok ⟨[], 170⟩ := by cbv
  rw [hdraw] at hrest
  cases hrest
  obtain rfl : 170 = taken := hused.trans (Nat.zero_add taken)
  exact ⟨probes, hdraw, hlen, hturn⟩

end ProbePlan

end ImageLinker
