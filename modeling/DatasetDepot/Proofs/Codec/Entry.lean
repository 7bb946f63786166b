import DatasetDepot.Codec.Zip
import Mathlib.Algebra.Group.Nat.Defs

/-!
The first entry of an archive, byte for byte.

An entry is a local header of fixed layout, a name and extra data of the lengths the header gives,
and a body.  Main statements: reading a header gives back what was written, every archive that is
long enough and signed starts with the bytes of a header, and decoding takes the outcome the method
and the flags of the header call for, whatever its other fields are and whatever comes behind.
-/

namespace DatasetDepot

namespace Bytes

/-- A number in so many bytes, the least significant first. -/
def ofNumber : (width number : Nat) → Bytes
  | 0, _ => []
  | width + 1, number => UInt8.ofNat number :: ofNumber width (number / 256)

theorem readNumber?_ofNumber {width number : Nat} (fits : number < 256 ^ width) (rest : Bytes) :
    readNumber? width (ofNumber width number ++ rest) = some (number, rest) := by
  induction width generalizing number with
  | zero =>
      have isZero : number = 0 := Nat.lt_one_iff.mp fits
      rw [isZero]
      rfl
  | succ width inductionHypothesis =>
      have higher : number / 256 < 256 ^ width := by
        rw [Nat.div_lt_iff_lt_mul (by decide), ← Nat.pow_succ]
        exact fits
      have lowest : (UInt8.ofNat number).toNat + 256 * (number / 256) = number := by
        rw [UInt8.toNat_ofNat']
        exact Nat.mod_add_div number 256
      simp only [ofNumber, List.cons_append, readNumber?, inductionHypothesis higher,
        Option.map_some, lowest]

/-- Bytes start with some number as long as there are enough of them. -/
theorem exists_ofNumber (width others : Nat) {bytes : Bytes}
    (enough : width + others ≤ bytes.length) :
    ∃ number, number < 256 ^ width ∧
      ∃ rest, bytes = ofNumber width number ++ rest ∧ others ≤ rest.length := by
  induction width generalizing bytes with
  | zero =>
      rw [Nat.zero_add] at enough
      exact ⟨0, Nat.one_pos, bytes, rfl, enough⟩
  | succ width inductionHypothesis =>
      cases bytes with
      | nil =>
          rw [List.length_nil] at enough
          omega
      | cons byte bytes =>
          rw [List.length_cons] at enough
          obtain ⟨higher, fits, rest, rfl, left⟩ :=
            inductionHypothesis (show width + others ≤ bytes.length by omega)
          have small : byte.toNat < 256 := byte.toNat_lt
          have lowest : UInt8.ofNat (byte.toNat + 256 * higher) = byte := by
            apply UInt8.toNat_inj.mp
            rw [UInt8.toNat_ofNat']
            omega
          have upper : (byte.toNat + 256 * higher) / 256 = higher := by omega
          refine ⟨byte.toNat + 256 * higher, ?_, rest, ?_, left⟩
          · rw [Nat.pow_succ]
            omega
          · simp only [ofNumber, lowest, upper, List.cons_append]

theorem exists_word (others : Nat) {bytes : Bytes} (enough : 2 + others ≤ bytes.length) :
    ∃ (word : UInt16) (rest : Bytes),
      bytes = ofNumber 2 word.toNat ++ rest ∧ others ≤ rest.length := by
  obtain ⟨number, fits, rest, split, left⟩ := exists_ofNumber 2 others enough
  exact ⟨UInt16.ofNatLT number fits, rest, split, left⟩

theorem exists_doubleWord (others : Nat) {bytes : Bytes} (enough : 4 + others ≤ bytes.length) :
    ∃ (word : UInt32) (rest : Bytes),
      bytes = ofNumber 4 word.toNat ++ rest ∧ others ≤ rest.length := by
  obtain ⟨number, fits, rest, split, left⟩ := exists_ofNumber 4 others enough
  exact ⟨UInt32.ofNatLT number fits, rest, split, left⟩

end Bytes

namespace Zip

/-- All fields of a local header. -/
structure LocalHeader where
  version : UInt16
  flags : UInt16
  method : UInt16
  time : UInt16
  date : UInt16
  checksum : UInt32
  compressedSize : UInt32
  size : UInt32
  nameLength : UInt16
  extraLength : UInt16

/-- What every local header starts with. -/
abbrev signature : Bytes := [0x50, 0x4B, 0x03, 0x04]

namespace LocalHeader

def bytes (header : LocalHeader) : Bytes :=
  signature ++ Bytes.ofNumber 2 header.version.toNat ++ Bytes.ofNumber 2 header.flags.toNat ++
    Bytes.ofNumber 2 header.method.toNat ++ Bytes.ofNumber 2 header.time.toNat ++
    Bytes.ofNumber 2 header.date.toNat ++ Bytes.ofNumber 4 header.checksum.toNat ++
    Bytes.ofNumber 4 header.compressedSize.toNat ++ Bytes.ofNumber 4 header.size.toNat ++
    Bytes.ofNumber 2 header.nameLength.toNat ++ Bytes.ofNumber 2 header.extraLength.toNat

/-- The size of the data stands behind them, not in the header. -/
def sizeAfterData (header : LocalHeader) : Bool :=
  header.flags.toNat.testBit 3

/-- How much lies between a header and the body of its entry. -/
def gap (header : LocalHeader) : Nat :=
  header.nameLength.toNat + header.extraLength.toNat

end LocalHeader

theorem field_of_drop {bytes tail : Bytes} {place width number : Nat}
    (behind : bytes.drop place = Bytes.ofNumber width number ++ tail)
    (fits : number < 256 ^ width) : field bytes place width = number := by
  unfold field
  rw [behind, Bytes.readNumber?_ofNumber fits]
  rfl

theorem readHeader_bytes (header : LocalHeader) (rest : Bytes) :
    readHeader (header.bytes ++ rest) =
      .ok
        ({ sizeAfterData := header.sizeAfterData
           method := header.method.toNat
           compressedSize := header.compressedSize.toNat
           nameLength := header.nameLength.toNat
           extraLength := header.extraLength.toNat }, rest) := by
  have long : ¬ (header.bytes ++ rest).length < headerSize := by
    have count : header.bytes.length = headerSize := rfl
    rw [List.length_append, count]
    omega
  have signed : ¬ (header.bytes ++ rest).take 4 ≠ signature := fun other => other rfl
  have flags : field (header.bytes ++ rest) 6 2 = header.flags.toNat :=
    field_of_drop rfl header.flags.toNat_lt
  have method : field (header.bytes ++ rest) 8 2 = header.method.toNat :=
    field_of_drop rfl header.method.toNat_lt
  have compressedSize : field (header.bytes ++ rest) 18 4 = header.compressedSize.toNat :=
    field_of_drop rfl header.compressedSize.toNat_lt
  have nameLength : field (header.bytes ++ rest) 26 2 = header.nameLength.toNat :=
    field_of_drop rfl header.nameLength.toNat_lt
  have extraLength : field (header.bytes ++ rest) 28 2 = header.extraLength.toNat :=
    field_of_drop rfl header.extraLength.toNat_lt
  unfold readHeader
  rw [if_neg long, if_neg signed, flags, method, compressedSize, nameLength, extraLength]
  rfl

/-- An archive with the size and the signature of a header starts with one. -/
theorem exists_header {bytes : Bytes} (long : headerSize ≤ bytes.length)
    (signed : bytes.take 4 = signature) :
    ∃ (header : LocalHeader) (rest : Bytes), bytes = header.bytes ++ rest := by
  obtain ⟨fields, rfl⟩ : ∃ fields, bytes = signature ++ fields :=
    ⟨bytes.drop 4, by rw [← signed, List.take_append_drop]⟩
  have left26 : 26 ≤ fields.length := by
    have count : (signature ++ fields).length = 4 + fields.length := List.length_append
    unfold headerSize at long
    omega
  obtain ⟨version, fields, rfl, left24⟩ := Bytes.exists_word 24 left26
  obtain ⟨flags, fields, rfl, left22⟩ := Bytes.exists_word 22 left24
  obtain ⟨method, fields, rfl, left20⟩ := Bytes.exists_word 20 left22
  obtain ⟨time, fields, rfl, left18⟩ := Bytes.exists_word 18 left20
  obtain ⟨date, fields, rfl, left16⟩ := Bytes.exists_word 16 left18
  obtain ⟨checksum, fields, rfl, left12⟩ := Bytes.exists_doubleWord 12 left16
  obtain ⟨compressedSize, fields, rfl, left8⟩ := Bytes.exists_doubleWord 8 left12
  obtain ⟨size, fields, rfl, left4⟩ := Bytes.exists_doubleWord 4 left8
  obtain ⟨nameLength, fields, rfl, left2⟩ := Bytes.exists_word 2 left4
  obtain ⟨extraLength, rest, rfl, _⟩ := Bytes.exists_word 0 left2
  refine ⟨⟨version, flags, method, time, date, checksum, compressedSize, size, nameLength,
    extraLength⟩, rest, ?_⟩
  simp only [LocalHeader.bytes, List.append_assoc]

theorem decode_bytes (header : LocalHeader) (rest : Bytes) :
    decode (header.bytes ++ rest) =
      if header.method.toNat = 8 then
        (Deflate.inflate (rest.drop header.gap)).map fun (output, _) => output.toList
      else if header.method.toNat = 0 then
        if header.sizeAfterData then .error .sizeAfterData
        else .ok ((rest.drop header.gap).take header.compressedSize.toNat)
      else .error (.unsupportedMethod header.method.toNat) := by
  unfold decode
  rw [readHeader_bytes]
  change (if header.method.toNat = 8 then _ else _) = _
  split
  · change (Deflate.inflate (rest.drop header.gap) >>= _) = _
    cases Deflate.inflate (rest.drop header.gap) with
    | error damage => rfl
    | ok inflated => rfl
  · rfl

theorem decode_stored {header : LocalHeader} (method : header.method = 0)
    (before : header.sizeAfterData = false) (rest : Bytes) :
    decode (header.bytes ++ rest) =
      .ok ((rest.drop header.gap).take header.compressedSize.toNat) := by
  rw [decode_bytes, method, before]
  rfl

/-- What decoding an archive comes to.  Fields of a header that do not appear do not matter, nor
does what follows a stored body. -/
inductive Extracts : Bytes → Except Damage Bytes → Prop
  | short {bytes : Bytes} (short : bytes.length < headerSize) :
      Extracts bytes (.error (.truncatedEntryHeader "failed to fill whole buffer"))
  | unsigned {bytes : Bytes} (long : headerSize ≤ bytes.length)
      (unsigned : bytes.take 4 ≠ signature) : Extracts bytes (.error .missingEntryHeader)
  | stored {header : LocalHeader} {skipped body : Bytes} (skips : skipped.length = header.gap)
      (method : header.method = 0) (before : header.sizeAfterData = false)
      (whole : header.compressedSize.toNat ≤ body.length) :
      Extracts (header.bytes ++ (skipped ++ body)) (.ok (body.take header.compressedSize.toNat))
  | deflated {header : LocalHeader} {skipped body : Bytes} (skips : skipped.length = header.gap)
      (method : header.method = 8) :
      Extracts (header.bytes ++ (skipped ++ body))
        ((Deflate.inflate body).map fun (output, _) => output.toList)
  | late {header : LocalHeader} {rest : Bytes} (method : header.method = 0)
      (late : header.sizeAfterData = true) :
      Extracts (header.bytes ++ rest) (.error .sizeAfterData)
  | unknown {header : LocalHeader} {rest : Bytes} (notStored : header.method ≠ 0)
      (notDeflated : header.method ≠ 8) :
      Extracts (header.bytes ++ rest) (.error (.unsupportedMethod header.method.toNat))

theorem decode_of_extracts {bytes : Bytes} {outcome : Except Damage Bytes}
    (extracts : Extracts bytes outcome) : decode bytes = outcome := by
  have behind {header : LocalHeader} {skipped body : Bytes} (skips : skipped.length = header.gap) :
      (skipped ++ body).drop header.gap = body := by
    rw [← skips, List.drop_left]
  cases extracts with
  | short short =>
      unfold decode readHeader
      rw [if_pos short]
      rfl
  | unsigned long unsigned =>
      unfold decode readHeader
      rw [if_neg (Nat.not_lt.mpr long), if_pos unsigned]
      rfl
  | stored skips method before whole =>
      rw [decode_stored method before, behind skips]
  | deflated skips method =>
      rw [decode_bytes, method, behind skips]
      rfl
  | late method late =>
      rw [decode_bytes, method, late]
      rfl
  | @unknown header rest notStored notDeflated =>
      have not8 : header.method.toNat ≠ 8 := fun same => notDeflated (UInt16.toNat_inj.mp same)
      have not0 : header.method.toNat ≠ 0 := fun same => notStored (UInt16.toNat_inj.mp same)
      rw [decode_bytes, if_neg not8, if_neg not0]

end Zip

end DatasetDepot
