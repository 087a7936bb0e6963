import ImageLinker.Proofs.Compatibility
import ImageLinker.Proofs.Sentinels
import ImageLinker.Proofs.Stepping

/-!
A probe as text and as bytes. The literals of its statement are read back as its offset and as the
value of its sentinel, its bytes push the same two numbers in the shortest way and store one at the
other, and the bytes of probes one behind the other belong to no other probes.
-/
namespace ImageLinker

namespace Evm

/-- An instruction of a target, with all of its data, that pushes a number. -/
inductive Pushes (variant : Variant) : List UInt8 → Nat → Prop
  | zero {opcode : UInt8} (hop : Operation.ofByte opcode = .pushZero) (h : variant = .push0) :
      Pushes variant [opcode] 0
  | data {opcode : UInt8} {data : List UInt8} (hop : Operation.ofByte opcode = .push data.length) :
      Pushes variant (opcode :: data) (Word.bigEndian data)

/-- The push of a number that all others are longer than. -/
structure ShortestPush (variant : Variant) (push : List UInt8) (n : Nat) : Prop where
  pushes : Pushes variant push n
  shortest {other : List UInt8} (h : Pushes variant other n) (hne : other ≠ push) :
    push.length < other.length

variable {variant : Variant} {opcode : UInt8}

theorem Operation.toNat_of_push {width : Nat} (h : Operation.ofByte opcode = .push width) :
    opcode.toNat = 0x5f + width ∧ 1 ≤ width ∧ width ≤ 32 := by
  have hplain (n : Nat) : Operation.ofPlainByte n ≠ .push width := by
    unfold Operation.ofPlainByte
    split <;> nofun
  unfold Operation.ofByte at h
  dsimp only at h
  split_ifs at h
  · cases h
    omega
  · exact absurd h (hplain _)

/-- The opcode and the data of a push follow from how many bytes of data it has and from the number
that they write. -/
theorem push_unique {opcode' : UInt8} {data data' : List UInt8}
    (hop : Operation.ofByte opcode = .push data.length)
    (hop' : Operation.ofByte opcode' = .push data'.length) (hlen : data'.length = data.length)
    (h : Word.bigEndian data' = Word.bigEndian data) : opcode' :: data' = opcode :: data := by
  obtain ⟨hvalue, -⟩ := Operation.toNat_of_push hop
  obtain ⟨hvalue', -⟩ := Operation.toNat_of_push hop'
  rw [Word.bigEndian_inj hlen h, UInt8.toNat_inj.mp (show opcode'.toNat = opcode.toNat by omega)]

/-- Data that does not begin with zero cannot be shorter. -/
theorem shortestPush_data {data : List UInt8} (hop : Operation.ofByte opcode = .push data.length)
    (hfirst : data.head? ≠ some 0) :
    ShortestPush variant (opcode :: data) (Word.bigEndian data) := by
  obtain ⟨-, hpos, -⟩ := Operation.toNat_of_push hop
  have hle := Word.le_bigEndian (List.length_pos_iff.mp hpos) hfirst
  refine ⟨.data hop, fun {other} h hne => ?_⟩
  generalize hn : Word.bigEndian data = n at h hle
  cases h with
  | zero => exact absurd hle (Nat.not_le.mpr (Nat.pow_pos (by decide)))
  | @data opcode' data' hop' =>
    have hlt := Word.bigEndian_lt data'
    have hpow : 256 ^ (data.length - 1) < 256 ^ data'.length := Nat.lt_of_le_of_lt hle hlt
    have hlen := (Nat.pow_lt_pow_iff_right (by decide : 1 < 256)).mp hpow
    -- with as many bytes it would be the same push
    have hdiff : data'.length ≠ data.length := fun h => hne (push_unique hop hop' h hn.symm)
    simp only [List.length_cons]
    omega

theorem shortestPush_offset (variant : Variant) (offset : UInt8) :
    ShortestPush variant (Probe.offsetPush variant offset) offset.toNat := by
  unfold Probe.offsetPush
  split
  · next hzero =>
    obtain ⟨hvariant, rfl⟩ := hzero
    refine ⟨.zero (by decide) hvariant, fun {other} h hne => ?_⟩
    generalize hn : (0 : UInt8).toNat = n at h
    cases h with
    | zero hop => exact absurd (congrArg (fun b => [b]) (Operation.eq_push0_of_pushZero hop)) hne
    | data hop =>
      obtain ⟨-, hpos, -⟩ := Operation.toNat_of_push hop
      exact Nat.succ_lt_succ hpos
  · next hzero =>
    have hvalue : Word.bigEndian [offset] = offset.toNat := Nat.zero_add _
    have hop : Operation.ofByte Opcode.push1 = .push [offset].length := rfl
    refine ⟨hvalue ▸ .data hop, fun {other} h hne => ?_⟩
    generalize hn : offset.toNat = n at h
    cases h with
    | zero _ hvariant => exact absurd ⟨hvariant, UInt8.toNat_inj.mp hn⟩ hzero
    | @data opcode' data' hop' =>
      obtain ⟨-, hpos, -⟩ := Operation.toNat_of_push hop'
      have hdiff : data'.length ≠ [offset].length := fun h =>
        hne (push_unique hop hop' h (by rw [hvalue, hn]))
      simp only [List.length_cons, List.length_nil] at hdiff ⊢
      omega

variable {code front push : List UInt8} {env : Environment}
  {spawn : Option (List UInt8 → Outcome)} {m₀ m : Machine} {k n : Nat}

/-- A push puts its number on the stack, wherever it stands in a code. -/
theorem Machine.after_pushes (hpush : Pushes variant push n) (hcode : front ++ push <+: code)
    (henv : variant = .push0 → env.push0 = true)
    (h : m₀.after (.ofCode code env) spawn k = .next m) (hpc : m.pc = front.length)
    (hroom : m.stack.length < stackLimit) (hs : m.steps < stepLimit) :
    ∃ w : Word, w.toNat = n ∧ m₀.after (.ofCode code env) spawn (k + 1) = .next { m with
      pc := m.pc + push.length, stack := w :: m.stack, steps := m.steps + 1 } := by
  have hhead (opcode : UInt8) (data : List UInt8) :
      (front ++ opcode :: data)[m.pc]? = some opcode := by
    rw [hpc, List.getElem?_append_right (Nat.le_refl _), Nat.sub_self]
    rfl
  cases hpush with
  | @zero opcode hop hvariant =>
    have hexists : (Frame.ofCode code env).push0 = true := henv hvariant
    refine ⟨.zero, rfl, ?_⟩
    rw [after_perform hcode h (hhead opcode []) hs, perform_pushZero hop, if_pos hexists,
      push_of_lt (m := { m with steps := m.steps + 1 }) hroom]
    rfl
  | @data opcode data hop =>
    obtain ⟨-, -, hle⟩ := Operation.toNat_of_push hop
    have hlen : m.pc + 1 + data.length ≤ (front ++ opcode :: data).length := by
      rw [List.length_append, List.length_cons]
      omega
    have hdata : ((front ++ opcode :: data).drop (m.pc + 1)).take data.length = data := by
      rw [hpc, ← List.drop_drop, List.drop_left, List.drop_one, List.tail_cons, List.take_length]
    refine ⟨.ofImmediate data data.length, ?_, ?_⟩
    · rw [Word.toNat_ofImmediate (Nat.le_refl _) hle, Nat.sub_self, List.replicate_zero,
        List.append_nil]
    · rw [after_push hcode h (hhead opcode data) hop hlen hroom hs, hdata, Nat.add_right_comm]
      rfl

/-- Memory after a number was stored at an offset, in 32 bytes. -/
structure Memory.Stored (before : Memory) (offset n : Nat) (after : Memory) : Prop where
  size : after.size = max before.size ((offset + 32 + 31) / 32 * 32)
  length : (after.read offset 32).length = 32
  value : Word.bigEndian (after.read offset 32) = n
  others (i : Nat) (h : i < offset ∨ offset + 32 ≤ i) : after.cell i = before.cell i

theorem Memory.stored_write (before : Memory) (offset : Nat) (w : Word) :
    before.Stored offset w.toNat ((before.growTo (offset + 32)).write offset w.toBytes) := by
  have hsize := before.size_growTo (offset + 32)
  have hlen := w.length_toBytes
  have hroom : offset + w.toBytes.length ≤ (before.growTo (offset + 32)).size := by omega
  have hread : ((before.growTo (offset + 32)).write offset w.toBytes).read offset 32 =
      w.toBytes := by
    have hall : ((before.growTo (offset + 32)).write offset w.toBytes).read (offset + 0) 32 =
        (w.toBytes.drop 0).take 32 := read_write hroom (by omega)
    rwa [List.drop_zero, List.take_of_length_le (Nat.le_of_eq hlen)] at hall
  refine ⟨?_, ?_, ?_, fun i hi => ?_⟩
  · rw [size_write, hsize]
  · rw [hread, hlen]
  · rw [hread, Word.bigEndian_toBytes]
  · rw [cell_write hroom, if_neg (by omega), cell_growTo]

/-- Two pushes and a store leave a machine as it was, but for what it has in memory. -/
theorem Machine.after_store {value offset : List UInt8} {n k : Nat}
    (hvalue : Pushes variant value n) (hoffset : Pushes variant offset k)
    (hk : k + 32 ≤ Memory.limit) (hcode : front ++ value ++ offset ++ [Opcode.mstore] <+: code)
    (henv : variant = .push0 → env.push0 = true) (spawn : Option (List UInt8 → Outcome))
    (hpc : m.pc = front.length) (hroom : m.stack.length + 2 ≤ stackLimit)
    (hs : m.steps + 3 ≤ stepLimit) :
    ∃ memory, m.memory.Stored k n memory ∧ m.after (.ofCode code env) spawn 3 = .next { m with
      pc := m.pc + (value ++ offset ++ [Opcode.mstore]).length, memory, steps := m.steps + 3 } := by
  have hcode₂ := (List.prefix_append _ [Opcode.mstore]).trans hcode
  have hcode₁ := (List.prefix_append _ offset).trans hcode₂
  have hpc₁ : m.pc + value.length = (front ++ value).length := by rw [List.length_append, hpc]
  have hpc₂ : m.pc + value.length + offset.length = (front ++ value ++ offset).length := by
    rw [List.length_append, hpc₁]
  obtain ⟨v, rfl, h₁⟩ := after_pushes hvalue hcode₁ henv
    (after_zero (.ofCode code env) spawn m) hpc (Nat.lt_of_succ_lt hroom) (by omega)
  obtain ⟨o, rfl, h₂⟩ := after_pushes hoffset hcode₂ henv h₁ hpc₁ hroom (Nat.lt_of_succ_lt hs)
  have hstore : (front ++ value ++ offset ++ [Opcode.mstore])[
      m.pc + value.length + offset.length]? = some Opcode.mstore := by
    rw [hpc₂, List.getElem?_concat_length]
  have hrange : m.memory.reserve? o (.ofNat 32) =
      some (o.toNat, m.memory.growTo (o.toNat + 32)) := by
    rw [Memory.reserve?_eq, if_neg (by decide)]
    exact if_pos hk
  have h₃ := after_mstore hcode h₂ hstore rfl rfl hrange hs
  refine ⟨_, m.memory.stored_write o.toNat v, h₃.trans ?_⟩
  simp only [List.length_append, List.length_singleton, Nat.add_assoc]

end Evm

namespace Probe

open Evm

variable {p q : Probe} {variant : Variant}

theorem encoding_eq_pushes (p : Probe) (variant : Variant) : ∃ opcode,
    Operation.ofByte opcode = .push p.sentinel.bytes.length ∧
    p.encoding variant = opcode :: p.sentinel.bytes ++ offsetPush variant p.offset ++
      [Opcode.mstore] := by
  have hpush : Opcode.push? p.sentinel.width = some (.ofNat (0x5f + p.sentinel.width)) :=
    if_pos ⟨p.sentinel.width_pos, p.sentinel.width_le⟩
  refine ⟨_, Operation.ofByte_of_push? hpush, ?_⟩
  rw [encoding, hpush]
  rfl

/-- Wherever a probe stands in a code, it stores its sentinel at its offset. -/
theorem after_encoding {code : List UInt8} {env : Environment} {m : Machine}
    (spawn : Option (List UInt8 → Outcome)) (hcode : p.encoding variant <+: code.drop m.pc)
    (henv : variant = .push0 → env.push0 = true) (hroom : m.stack.length ≤ 1022)
    (hs : m.steps + 3 ≤ stepLimit) :
    ∃ memory, m.memory.Stored p.offset.toNat p.sentinel.value memory ∧
      m.after (.ofCode code env) spawn 3 = .next { m with
        pc := m.pc + (p.encoding variant).length, memory, steps := m.steps + 3 } := by
  obtain ⟨opcode, hop, hencoding⟩ := p.encoding_eq_pushes variant
  have hpc : m.pc ≤ code.length := by
    by_contra hout
    rw [List.drop_of_length_le (by omega)] at hcode
    exact p.encoding_ne_nil variant (List.prefix_nil.mp hcode)
  have hlimit : p.offset.toNat + 32 ≤ Memory.limit :=
    Nat.le_trans (Nat.add_le_add_right (Nat.le_of_lt p.offset.toNat_lt) 32) (by decide)
  have hwhole := (List.prefix_append_right_inj (code.take m.pc)).mpr hcode
  rw [List.take_append_drop, hencoding, ← List.append_assoc, ← List.append_assoc] at hwhole
  rw [hencoding]
  exact Machine.after_store (.data hop) (shortestPush_offset variant p.offset).pushes hlimit hwhole
    henv spawn (List.length_take_of_le hpc).symm (Nat.add_le_add_right hroom 2) hs

theorem offsetPush_append_inj {o o' : UInt8} {rest rest' : List UInt8}
    (h : offsetPush variant o ++ rest = offsetPush variant o' ++ rest') :
    o = o' ∧ rest = rest' := by
  unfold offsetPush at h
  split_ifs at h with ho ho' ho'
  · exact ⟨ho.2.trans ho'.2.symm, (List.cons.inj h).2⟩
  · exact absurd (List.cons.inj h).1 (by decide)
  · exact absurd (List.cons.inj h).1 (by decide)
  · obtain ⟨hoffset, hrest⟩ := List.cons.inj (List.cons.inj h).2
    exact ⟨hoffset, hrest⟩

/-- No other probe has the same bytes in front of anything. -/
theorem encoding_append_inj {rest rest' : List UInt8}
    (h : p.encoding variant ++ rest = q.encoding variant ++ rest') : p = q ∧ rest = rest' := by
  obtain ⟨opcode, hop, hp⟩ := p.encoding_eq_pushes variant
  obtain ⟨opcode', hop', hq⟩ := q.encoding_eq_pushes variant
  rw [hp, hq] at h
  simp only [List.append_assoc, List.cons_append] at h
  obtain ⟨hopcode, hdata⟩ := List.cons.inj h
  rw [hopcode, hop'] at hop
  obtain ⟨hbytes, hstore⟩ := List.append_inj hdata (Operation.push.inj hop).symm
  obtain ⟨hoffset, hbehind⟩ := offsetPush_append_inj hstore
  obtain ⟨offset, ⟨bytes, _, _⟩⟩ := p
  obtain ⟨offset', ⟨bytes', _, _⟩⟩ := q
  cases hoffset
  cases hbytes
  exact ⟨rfl, (List.cons.inj hbehind).2⟩

theorem eq_of_flatMap_encoding_eq {ps qs : List Probe}
    (h : ps.flatMap (encoding · variant) = qs.flatMap (encoding · variant)) : ps = qs := by
  induction ps generalizing qs with
  | nil =>
    cases qs with
    | nil => rfl
    | cons q qs =>
      rw [List.flatMap_nil, List.flatMap_cons, eq_comm, List.append_eq_nil_iff] at h
      exact absurd h.1 (q.encoding_ne_nil variant)
  | cons p ps ih =>
    cases qs with
    | nil =>
      rw [List.flatMap_nil, List.flatMap_cons, List.append_eq_nil_iff] at h
      exact absurd h.1 (p.encoding_ne_nil variant)
    | cons q qs =>
      rw [List.flatMap_cons, List.flatMap_cons] at h
      obtain ⟨rfl, hrest⟩ := encoding_append_inj h
      rw [ih hrest]

/-- The text and the bytes of a probe say the same: the literals are its offset and the value of its
sentinel, the bytes push both in the shortest way and store the one at the other, and they tell
probes apart, alone and one behind the other. -/
theorem yul_encoding_agree (variant : Variant) :
    (∀ p : Probe,
      (∃ offset value, p.yul = " mstore(" ++ offset ++ "," ++ value ++ ")" ∧
        Hex.literal? offset = some p.offset.toNat ∧ Hex.literal? value = some p.sentinel.value) ∧
      (p.sentinel.bytes.head? ≠ some 0 → ∃ value offset,
        p.encoding variant = value ++ offset ++ [Opcode.mstore] ∧
        ShortestPush variant value p.sentinel.value ∧
        ShortestPush variant offset p.offset.toNat) ∧
      ∀ (code : List UInt8) (env : Environment) (spawn : Option (List UInt8 → Outcome))
        (m : Machine), p.encoding variant <+: code.drop m.pc →
        (variant = .push0 → env.push0 = true) → m.stack.length ≤ 1022 →
        m.steps + 3 ≤ stepLimit →
        ∃ memory, m.memory.Stored p.offset.toNat p.sentinel.value memory ∧
          m.after (.ofCode code env) spawn 3 = .next { m with
            pc := m.pc + (p.encoding variant).length, memory, steps := m.steps + 3 }) ∧
    (∀ p q : Probe, p.encoding variant <+: q.encoding variant → p = q) ∧
    ∀ ps qs : List Probe,
      ps.flatMap (encoding · variant) = qs.flatMap (encoding · variant) → ps = qs := by
  refine ⟨fun p => ⟨?_, fun hfirst => ?_, ?_⟩, ?_, ?_⟩
  · refine ⟨"0x" ++ Hex.ofNat 1 p.offset.toNat, "0x" ++ p.sentinel.text, ?_,
      Hex.literal?_ofNat 1 _, Hex.literal?_encode p.sentinel.bytes_ne_nil⟩
    rw [yul, show (" mstore(0x" : String) = " mstore(" ++ "0x" from rfl,
      show (",0x" : String) = "," ++ "0x" from rfl]
    simp only [String.append_assoc]
  · obtain ⟨opcode, hop, hencoding⟩ := p.encoding_eq_pushes variant
    exact ⟨_, _, hencoding, shortestPush_data hop hfirst, shortestPush_offset variant p.offset⟩
  · intro code env spawn m hcode henv hroom hs
    exact after_encoding spawn hcode henv hroom hs
  · rintro p q ⟨rest, h⟩
    exact (encoding_append_inj (h.trans (List.append_nil _).symm)).1
  · intro ps qs h
    exact eq_of_flatMap_encoding_eq h

/-- A probe of two bytes at offset zero, behind another instruction. -/
theorem yul_encoding_agree_zero :
    let p : Probe := ⟨0, ⟨[1, 2], by decide, by decide⟩⟩
    (∃ value offset, [0x61, 1, 2, 0x5f, 0x52] = value ++ offset ++ [Opcode.mstore] ∧
      ShortestPush .push0 value 258 ∧ ShortestPush .push0 offset 0) ∧
    (∃ memory, ({} : Memory).Stored 0 258 memory ∧
      Machine.after (.ofCode [0x5b, 0x61, 1, 2, 0x5f, 0x52, 0x00] ⟨[], true⟩) none { pc := 1 } 3 =
        .next { pc := 6, memory, steps := 3 }) ∧
    ∀ ps, ps.flatMap (encoding · .push0) = p.encoding .push0 ++ p.encoding .push0 →
      ps = [p, p] := by
  intro p
  obtain ⟨hprobe, -, hlists⟩ := yul_encoding_agree .push0
  obtain ⟨-, hshortest, hstores⟩ := hprobe p
  refine ⟨hshortest (by decide), ?_, fun ps h => hlists ps [p, p] ?_⟩
  · exact hstores [0x5b, 0x61, 1, 2, 0x5f, 0x52, 0x00] ⟨[], true⟩ none { pc := 1 } (by decide)
      (fun _ => rfl) (by decide) (by decide)
  · rw [h]
    rfl

end Probe

end ImageLinker
