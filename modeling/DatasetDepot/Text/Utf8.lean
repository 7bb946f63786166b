/-!
Bytes and the text they encode.

`Utf8.scan` reads characters as long as the bytes are well formed; what it leaves
starts with the first byte that rules the text out.  `Utf8.decode?` accepts bytes
that are well formed as a whole.
-/

namespace DatasetDepot

/-- The contents of a file. -/
abbrev Bytes := List UInt8

namespace Text.Utf8

/-- The bytes after the first of a character. -/
def isTail (byte : UInt8) : Bool :=
  0x80 ≤ byte && byte ≤ 0xBF

/-- The bytes that may follow this first byte of three: longer forms of shorter
characters and surrogates are ruled out. -/
def isSecondOfThree (first second : UInt8) : Bool :=
  if first = 0xE0 then 0xA0 ≤ second && second ≤ 0xBF
  else if first = 0xED then 0x80 ≤ second && second ≤ 0x9F
  else isTail second

/-- The bytes that may follow this first byte of four: longer forms of shorter
characters and numbers past the last character are ruled out. -/
def isSecondOfFour (first second : UInt8) : Bool :=
  if first = 0xF0 then 0x90 ≤ second && second ≤ 0xBF
  else if first = 0xF4 then 0x80 ≤ second && second ≤ 0x8F
  else isTail second

/-- The payload of a byte whose leading bits only mark its place. -/
def payload (byte : UInt8) (width : Nat) : Nat :=
  byte.toNat % Nat.pow 2 width

/-- Reads characters from the front; the second part is empty exactly when all
bytes are well formed, and else starts with the first character that is not. -/
def scan : Bytes → List Char × Bytes
  | [] => ([], [])
  | a :: rest =>
      if a < 0x80 then
        let (letters, left) := scan rest
        (Char.ofNat a.toNat :: letters, left)
      else if 0xC2 ≤ a && a ≤ 0xDF then
        match rest with
        | b :: rest =>
            if isTail b then
              let (letters, left) := scan rest
              (Char.ofNat (payload a 5 * 64 + payload b 6) :: letters, left)
            else ([], a :: b :: rest)
        | [] => ([], [a])
      else if 0xE0 ≤ a && a ≤ 0xEF then
        match rest with
        | b :: c :: rest =>
            if isSecondOfThree a b && isTail c then
              let (letters, left) := scan rest
              (Char.ofNat ((payload a 4 * 64 + payload b 6) * 64 + payload c 6) :: letters, left)
            else ([], a :: b :: c :: rest)
        | rest => ([], a :: rest)
      else if 0xF0 ≤ a && a ≤ 0xF4 then
        match rest with
        | b :: c :: d :: rest =>
            if isSecondOfFour a b && isTail c && isTail d then
              let (letters, left) := scan rest
              (Char.ofNat
                (((payload a 3 * 64 + payload b 6) * 64 + payload c 6) * 64 + payload d 6) ::
                letters, left)
            else ([], a :: b :: c :: d :: rest)
        | rest => ([], a :: rest)
      else ([], a :: rest)

/-- The text these bytes encode, if they are well formed. -/
def decode? (bytes : Bytes) : Option (List Char) :=
  match scan bytes with
  | (letters, []) => some letters
  | (_, _ :: _) => none

/-- How many bytes are well formed before the first that are not. -/
def validLength (bytes : Bytes) : Nat :=
  bytes.length - (scan bytes).2.length

/-- The bytes of a text. -/
def encode (text : String) : Bytes :=
  text.toUTF8.toList

end Text.Utf8

end DatasetDepot
