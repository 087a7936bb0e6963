import ImageLinker.Initcode
import ImageLinker.Proofs.Assembly
import ImageLinker.Proofs.Stepping

/-! The initcode of one image returns that image, whatever its bytes are. -/
namespace ImageLinker.Initcode

open Evm

/-- The two bytes of a length push the length. -/
theorem ofImmediate_length {n : Nat} (h : n ≤ maxImageLength) :
    Word.ofImmediate [UInt8.ofNat (n / 256), UInt8.ofNat n] 2 = .ofNat n := by
  unfold maxImageLength at h
  rw [Word.ofImmediate_pair, UInt8.toNat_ofNat', UInt8.toNat_ofNat']
  congr 1
  omega

theorem lengthBytes_of_le {n : Nat} (h : n ≤ maxImageLength) :
    lengthBytes n = .ok (UInt8.ofNat (n / 256), UInt8.ofNat n) := if_pos h

theorem lengthBytes_of_lt {n : Nat} (h : maxImageLength < n) :
    lengthBytes n = .error (.imageTooLarge n maxImageLength) := if_neg (Nat.not_le.mpr h)

/-- The bytes in front of an image of this length. -/
def stub (n : Nat) : List UInt8 :=
  [Opcode.push2, UInt8.ofNat (n / 256), UInt8.ofNat n, Opcode.dup1, Opcode.push1, 0x0a,
    Opcode.returnDataSize, Opcode.codeCopy, Opcode.returnDataSize, Opcode.ret]

theorem length_stub (n : Nat) : (stub n).length = 10 := rfl

theorem deployStub_of_le {n : Nat} (h : n ≤ maxImageLength) : deployStub n = .ok (stub n) := by
  unfold deployStub
  rw [lengthBytes_of_le h]
  rfl

theorem single_of_le {image : Image} (h : image.length ≤ maxImageLength) :
    single image = .ok (stub image.length ++ image.bytes) := by
  unfold single
  rw [deployStub_of_le h]
  rfl

theorem single_of_lt {image : Image} (h : maxImageLength < image.length) :
    single image = .error (.imageTooLarge image.length maxImageLength) := by
  unfold single deployStub
  rw [lengthBytes_of_lt h]
  rfl

/-- The stub copies all that follows it to the start of memory and returns it. -/
theorem run_stub {image : List UInt8} (hlen : image.length ≤ maxImageLength) (env : Environment) :
    run (stub image.length ++ image) env = ⟨.returned image, [], 7⟩ := by
  generalize hn : image.length = n at hlen
  have hcode : stub n <+: stub n ++ image := List.prefix_append _ _
  have hlimit : n ≤ Memory.limit := Nat.le_trans hlen (by decide)
  have hlt : n < 2 ^ 64 := Nat.lt_of_le_of_lt hlen (by decide)
  have hword : (Word.ofNat n).toNat = n := Word.toNat_ofNat hlt
  have hwindow : window (stub n ++ image).toArray 10 n = image := by
    have hsize : (stub n ++ image).length = 10 + n := by
      rw [List.length_append, length_stub, hn]
    have hlast : 10 + n ≤ UInt64.size := Nat.le_trans (Nat.add_le_add_left hlen 10) (by decide)
    rw [window_toArray (Nat.le_of_eq hsize.symm) hlast, List.drop_left' (length_stub n), ← hn,
      List.take_length]
  have h1 : ({} : Machine).after (.ofCode (stub n ++ image) env) env.spawn 1 =
      .next { pc := 3, stack := [.ofImmediate [UInt8.ofNat (n / 256), UInt8.ofNat n] 2]
              steps := 1 } :=
    Machine.after_push hcode (Machine.after_zero _ _ {}) rfl rfl
  rw [ofImmediate_length hlen] at h1
  have h2 : ({} : Machine).after (.ofCode (stub n ++ image) env) env.spawn 2 =
      .next { pc := 4, stack := [.ofNat n, .ofNat n], steps := 2 } :=
    Machine.after_dup hcode h1 rfl rfl rfl
  have h3 : ({} : Machine).after (.ofCode (stub n ++ image) env) env.spawn 3 =
      .next { pc := 6, stack := [.ofNat 10, .ofNat n, .ofNat n], steps := 3 } :=
    Machine.after_push_one hcode h2 rfl rfl rfl
  have h4 : ({} : Machine).after (.ofCode (stub n ++ image) env) env.spawn 4 =
      .next { pc := 7, stack := [.ofNat 0, .ofNat 10, .ofNat n, .ofNat n], steps := 4 } :=
    Machine.after_read hcode h3 rfl rfl
  have h5 : ({} : Machine).after (.ofCode (stub n ++ image) env) env.spawn 5 =
      .next { pc := 8, stack := [.ofNat n], memory := (({} : Memory).growTo n).write 0 image
              steps := 5 } := by
    rw [Machine.after_copy hcode h4 rfl rfl rfl (Memory.reserve?_zero hlimit),
      Frame.copied_ofNat (by decide) hlt]
    exact congrArg (fun bytes => Transition.next
      { pc := 8, stack := [.ofNat n], memory := (({} : Memory).growTo n).write 0 bytes
        steps := 5 }) hwindow
  have h6 : ({} : Machine).after (.ofCode (stub n ++ image) env) env.spawn 6 =
      .next { pc := 9, stack := [.ofNat 0, .ofNat n]
              memory := (({} : Memory).growTo n).write 0 image, steps := 6 } :=
    Machine.after_read hcode h5 rfl rfl
  have h7 := Machine.after_ret hcode h6 rfl rfl rfl (Memory.reserve?_zero hlimit)
  rw [hword, Memory.read_growTo_write hn] at h7
  rw [run_eq_outcome_after, Machine.after_of_halt h7 (Nat.le_of_ble_eq_true rfl)]
  rfl

/-- An image goes into an initcode just when its length fits the stub's push, and then every call
that runs the initcode returns the image, in seven steps and without a jump. -/
theorem single_deploys {layout : Layout} {variant : Variant} {compiled : List CompiledModule}
    {image : Image} (h : Image.assemble layout variant compiled = .ok image) :
    image.length = layout.capacity * (compiled.length + 1) ∧
    (single image = .error (.imageTooLarge image.length maxImageLength) ↔ 65535 < image.length) ∧
    (image.length ≤ 65535 → ∃ initcode, single image = .ok initcode ∧
      ∀ env, run initcode env = ⟨.returned image.bytes, [], 7⟩) := by
  refine ⟨Image.length_of_assemble h, ⟨fun herror => ?_, single_of_lt⟩, fun hle => ?_⟩
  · by_cases hle : image.length ≤ maxImageLength
    · rw [single_of_le hle] at herror
      cases herror
    · exact Nat.lt_of_not_le hle
  · exact ⟨_, single_of_le hle, run_stub hle⟩

theorem single_deploys_two : ∃ initcode,
    single (.linked .standard .legacy
      [⟨⟨"a.yul", 1⟩, [0x5b, 0x00], []⟩, ⟨⟨"b.yul", 2⟩, [0x5b, 0x7f], []⟩]) = .ok initcode ∧
    ∀ env, run initcode env = ⟨.returned (Image.linked .standard .legacy
      [⟨⟨"a.yul", 1⟩, [0x5b, 0x00], []⟩, ⟨⟨"b.yul", 2⟩, [0x5b, 0x7f], []⟩]).bytes, [], 7⟩ := by
  have h : Image.assemble .standard .legacy
      [⟨⟨"a.yul", 1⟩, [0x5b, 0x00], []⟩, ⟨⟨"b.yul", 2⟩, [0x5b, 0x7f], []⟩] = .ok _ :=
    Image.assemble_eq_ok_iff.mpr ⟨by decide, by decide, rfl⟩
  obtain ⟨hlen, _, hsingle⟩ := single_deploys h
  exact hsingle (by rw [hlen]; decide)

end ImageLinker.Initcode
