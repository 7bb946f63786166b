import DatasetDepot.Frame
import DatasetDepot.Text.Utf8

/-!
Packings: ways to write items one after the other as bytes and to read them back.

A packing is faithful when whatever follows an item, reading gives the item and what
follows.  Numbers are written seven bits to a byte, the lowest first, and everything
else is written as numbers.
-/

namespace DatasetDepot.Snapshot

structure Packing (Item : Type) where
  pack : Item → Bytes
  unpack? : Bytes → Option (Item × Bytes)

namespace Packing

variable {Item Other : Type}

abbrev IsFaithful (packing : Packing Item) : Prop :=
  ∀ item rest, packing.unpack? (packing.pack item ++ rest) = some (item, rest)

/-- Bytes of a number: all but the last have their top bit set. -/
def packCount (count : Nat) : Bytes :=
  if count < 128 then [count.toUInt8]
  else (count % 128 + 128).toUInt8 :: packCount (count / 128)
termination_by count

def unpackCount? : Bytes → Option (Nat × Bytes)
  | [] => none
  | byte :: rest =>
      if byte.toNat < 128 then some (byte.toNat, rest)
      else (unpackCount? rest).map fun (upper, rest) => (byte.toNat % 128 + 128 * upper, rest)

def count : Packing Nat := ⟨packCount, unpackCount?⟩

theorem isFaithful_count : count.IsFaithful := by
  intro number rest
  induction number using packCount.induct with
  | case1 number small =>
      have exact : number.toUInt8.toNat = number := by
        rw [Nat.toUInt8, UInt8.toNat_ofNat']; omega
      change unpackCount? (packCount number ++ rest) = _
      rw [packCount, if_pos small]
      simp only [List.singleton_append, unpackCount?, exact, if_pos small]
  | case2 number large inductionHypothesis =>
      have exact : (number % 128 + 128).toUInt8.toNat = number % 128 + 128 := by
        rw [Nat.toUInt8, UInt8.toNat_ofNat']; omega
      change unpackCount? (packCount number ++ rest) = _
      change unpackCount? (packCount (number / 128) ++ rest) = _ at inductionHypothesis
      rw [packCount, if_neg large]
      simp only [List.cons_append, unpackCount?, exact, inductionHypothesis]
      rw [if_neg (by omega), Option.map_some]
      congr 2
      omega

/-- Items written as others that stand for them. -/
def via (packing : Packing Other) (write : Item → Other) (read? : Other → Option Item) :
    Packing Item where
  pack item := packing.pack (write item)
  unpack? bytes := do
    let (other, rest) ← packing.unpack? bytes
    return (← read? other, rest)

theorem IsFaithful.via {packing : Packing Other} (faithful : packing.IsFaithful)
    {write : Item → Other} {read? : Other → Option Item}
    (reads : ∀ item, read? (write item) = some item) : (packing.via write read?).IsFaithful := by
  intro item rest
  simp [Packing.via, faithful, reads]

/-- Two items one after the other. -/
def both (first : Packing Item) (second : Packing Other) : Packing (Item × Other) where
  pack pair := first.pack pair.1 ++ second.pack pair.2
  unpack? bytes := do
    let (item, rest) ← first.unpack? bytes
    let (other, rest) ← second.unpack? rest
    return ((item, other), rest)

theorem IsFaithful.both {first : Packing Item} {second : Packing Other}
    (firstFaithful : first.IsFaithful) (secondFaithful : second.IsFaithful) :
    (first.both second).IsFaithful := by
  intro pair rest
  simp [Packing.both, firstFaithful, secondFaithful, List.append_assoc]

/-- An item, or a zero where there is none. -/
def option (packing : Packing Item) : Packing (Option Item) where
  pack
    | none => packCount 0
    | some item => packCount 1 ++ packing.pack item
  unpack? bytes := do
    let (present, rest) ← unpackCount? bytes
    if present = 0 then return (none, rest)
    let (item, rest) ← packing.unpack? rest
    return (some item, rest)

theorem IsFaithful.option {packing : Packing Item} (faithful : packing.IsFaithful) :
    packing.option.IsFaithful := by
  have reads : ∀ number rest, unpackCount? (packCount number ++ rest) = some (number, rest) :=
    isFaithful_count
  intro item rest
  cases item with
  | none => simp [Packing.option, reads]
  | some item => simp [Packing.option, reads, faithful, List.append_assoc]

/-- As many items as this. -/
def unpackMany? (packing : Packing Item) : Nat → Bytes → Option (List Item × Bytes)
  | 0, bytes => some ([], bytes)
  | more + 1, bytes => do
      let (item, rest) ← packing.unpack? bytes
      let (items, rest) ← unpackMany? packing more rest
      return (item :: items, rest)

/-- How many items there are, and then the items. -/
def list (packing : Packing Item) : Packing (List Item) where
  pack items := packCount items.length ++ items.flatMap packing.pack
  unpack? bytes := do
    let (length, rest) ← unpackCount? bytes
    packing.unpackMany? length rest

theorem unpackMany?_flatMap {packing : Packing Item} (faithful : packing.IsFaithful)
    (items : List Item) (rest : Bytes) :
    packing.unpackMany? items.length (items.flatMap packing.pack ++ rest) = some (items, rest) := by
  induction items with
  | nil => rfl
  | cons item items inductionHypothesis =>
      rw [List.flatMap_cons, List.append_assoc, List.length_cons, unpackMany?, faithful]
      simp [inductionHypothesis]

theorem IsFaithful.list {packing : Packing Item} (faithful : packing.IsFaithful) :
    packing.list.IsFaithful := by
  have reads : ∀ number rest, unpackCount? (packCount number ++ rest) = some (number, rest) :=
    isFaithful_count
  intro items rest
  simp [Packing.list, reads, List.append_assoc, unpackMany?_flatMap faithful]

def text : Packing String :=
  (list count).via (fun text => text.toList.map Char.toNat)
    fun numbers => some (String.ofList (numbers.map Char.ofNat))

/-- Single precision numbers, by their bits. -/
def single : Packing Single :=
  count.via (fun number => number.toBits.toNat) fun bits => some (Single.ofBits bits.toUInt32)

def double : Packing Double :=
  count.via (fun number => number.bits.toNat) fun bits => some ⟨bits.toUInt64⟩

def integer : Packing Int32 :=
  count.via (fun number => number.toUInt32.toNat) fun bits => some bits.toUInt32.toInt32

def truth : Packing Bool :=
  count.via Bool.toNat fun number => some (number ≠ 0)

def array (packing : Packing Item) : Packing (Array Item) :=
  packing.list.via Array.toList fun items => some items.toArray

/-- Cells of one type, missing ones among them. -/
def cellsOf (packing : Packing Item) : Packing (Array (Option Item)) := packing.option.array

/-- Cells, after a number that stands for their type. -/
def cells : Packing Cells where
  pack
    | .float32 cells => packCount 0 ++ single.cellsOf.pack cells
    | .float64 cells => packCount 1 ++ double.cellsOf.pack cells
    | .int32 cells => packCount 2 ++ integer.cellsOf.pack cells
    | .utf8 cells => packCount 3 ++ text.cellsOf.pack cells
    | .boolean cells => packCount 4 ++ truth.cellsOf.pack cells
    | .other type missing => packCount 5 ++ (text.both truth.array).pack (type, missing)
  unpack? bytes := do
    let (kind, rest) ← unpackCount? bytes
    match kind with
    | 0 => return (← single.cellsOf.unpack? rest).map .float32 id
    | 1 => return (← double.cellsOf.unpack? rest).map .float64 id
    | 2 => return (← integer.cellsOf.unpack? rest).map .int32 id
    | 3 => return (← text.cellsOf.unpack? rest).map .utf8 id
    | 4 => return (← truth.cellsOf.unpack? rest).map .boolean id
    | 5 =>
        return (← (text.both truth.array).unpack? rest).map (fun other => .other other.1 other.2) id
    | _ => none

def column : Packing Column :=
  (text.both cells).via (fun column => (column.name, column.cells))
    fun (name, cells) => some ⟨name, cells⟩

/-- The columns of a frame.  Without columns there is nothing to tell the number of rows
by, so that it reads back as zero. -/
def frame : Packing Frame :=
  column.list.via Frame.columns fun columns =>
    Frame.ofColumns? ((columns.head?.map fun column => column.cells.size).getD 0) columns

end Packing

end DatasetDepot.Snapshot
