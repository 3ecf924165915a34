import ClauseExchange.Line
import ClauseExchange.Numeral.Base128
import ClauseExchange.Numeral.Decimal
import ClauseExchange.Text.Ascii

/-!
The written form of a line. A record is a line without its separator: the byte of the action, then the
literals, in base 128 or as decimal numerals between spaces, a textual record ending in the numeral
zero. Reading refuses every record that is not the form of a line.
-/

namespace ClauseExchange

namespace Literal

def encodeBinary (literal : Literal) : Bytes :=
  Base128.encode literal.code

/-- At most five groups make up a code. -/
def ofGroups? (groups : Bytes) : Option Literal :=
  if groups.length ≤ 5 then ofCode? (Base128.value groups) else none

def numeral (literal : Literal) : Bytes :=
  Ascii.encode (Decimal.ofInt literal.value)

def encodeText (literal : Literal) : Bytes :=
  literal.numeral ++ [Ascii.space]

def ofNumeral? (numeral : Bytes) : Option Literal :=
  (Decimal.readInt? (Ascii.decode numeral)).bind ofInt?

end Literal

namespace Line

def record : Encoding → Line → Bytes
  | .binary, line =>
      line.action.byte :: line.literals.flatMap Literal.encodeBinary
  | .text, line =>
      line.action.byte :: Ascii.space ::
        (line.literals.flatMap Literal.encodeText ++ [Ascii.zero])

def encode (encoding : Encoding) (line : Line) : Bytes :=
  line.record encoding ++ [encoding.separator]

def readBinary? : Bytes → Option Line
  | [] => none
  | first :: codes => do
      let action ← Action.ofByte? first
      let numbers ← Base128.split? codes
      let literals ← numbers.mapM Literal.ofGroups?
      pure ⟨action, literals⟩

/-- The last token has the value zero, and no other token has. -/
def readText? (record : Bytes) : Option Line :=
  match Ascii.tokens record with
  | [first] :: rest => do
      let action ← Action.ofByte? first
      let ending ← rest.getLast?
      guard (Decimal.readInt? (Ascii.decode ending) = some 0)
      let literals ← rest.dropLast.mapM Literal.ofNumeral?
      pure ⟨action, literals⟩
  | _ => none

def read? : Encoding → Bytes → Option Line
  | .binary, record => readBinary? record
  | .text, record => readText? record

end Line

end ClauseExchange
