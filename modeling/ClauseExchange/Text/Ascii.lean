/-!
Characters of one byte. Bytes from 128 upwards become characters of the same number, none of which is
a digit, a sign or a blank of the ASCII range.
-/

namespace ClauseExchange.Ascii

def encode (text : List Char) : List UInt8 :=
  text.map fun character => UInt8.ofNat character.toNat

def decode (bytes : List UInt8) : List Char :=
  bytes.map fun byte => Char.ofNat byte.toNat

def space : UInt8 := 32

def zero : UInt8 := 48

/-- Space, tab, line feed, form feed and carriage return. -/
def isBlank (byte : UInt8) : Bool :=
  byte == space || byte == 9 || byte == 10 || byte == 12 || byte == 13

def tokens (bytes : List UInt8) : List (List UInt8) :=
  (bytes.splitOnP isBlank).filter fun piece => !piece.isEmpty

end ClauseExchange.Ascii
