/-!
Texts encoded as UTF-8: a strict reader, and a lenient one that puts the replacement character in the
place of each longest piece that begins a character and does not go on as one.
-/

namespace ClauseExchange.Utf8

def decode? (bytes : List UInt8) : Option String :=
  String.fromUTF8? (ByteArray.mk bytes.toArray)

/-- The closed ranges that the bytes after a first byte have to lie in, and the bits that the first
byte adds to the code point. No character begins with any other byte. -/
def opening? (first : UInt8) : Option (List (Nat × Nat) × Nat) :=
  let byte := first.toNat
  let following := (0x80, 0xBF)
  if byte < 0x80 then some ([], byte)
  else if byte < 0xC2 then none
  else if byte < 0xE0 then some ([following], byte - 0xC0)
  else if byte = 0xE0 then some ([(0xA0, 0xBF), following], 0)
  else if byte = 0xED then some ([(0x80, 0x9F), following], 0xD)
  else if byte < 0xF0 then some ([following, following], byte - 0xE0)
  else if byte = 0xF0 then some ([(0x90, 0xBF), following, following], 0)
  else if byte < 0xF4 then some ([following, following, following], byte - 0xF0)
  else if byte = 0xF4 then some ([(0x80, 0x8F), following, following], 4)
  else none

/-- The characters read so far, newest first, with the ranges that the character under way still
waits for and the bits it has. -/
structure Scan where
  characters : List Char := []
  awaited : List (Nat × Nat) := []
  bits : Nat := 0

def Scan.replace (scan : Scan) : Scan :=
  { characters := '\uFFFD' :: scan.characters }

/-- A character under way at the end of the bytes is not a whole one. -/
def Scan.finish (scan : Scan) : Scan :=
  if scan.awaited.isEmpty then scan else scan.replace

def Scan.extend (scan : Scan) (awaited : List (Nat × Nat)) (bits : Nat) : Scan :=
  if awaited.isEmpty then
    { characters := Char.ofNat bits :: scan.characters }
  else
    { scan with awaited, bits }

def Scan.start (scan : Scan) (byte : UInt8) : Scan :=
  match opening? byte with
  | none => scan.replace
  | some (awaited, bits) => scan.extend awaited bits

def Scan.read (scan : Scan) (byte : UInt8) : Scan :=
  match scan.awaited with
  | [] => scan.start byte
  | (least, greatest) :: awaited =>
      if least ≤ byte.toNat ∧ byte.toNat ≤ greatest then
        scan.extend awaited (64 * scan.bits + byte.toNat % 64)
      else
        scan.replace.start byte

def decodeLossy (bytes : List UInt8) : String :=
  String.ofList (bytes.foldl Scan.read {}).finish.characters.reverse

end ClauseExchange.Utf8
