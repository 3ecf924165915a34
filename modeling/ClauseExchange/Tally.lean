import ClauseExchange.Line
import ClauseExchange.Numeral.Hundredths

/-!
Counts over the lines of a proof, and the report made from them.
-/

namespace ClauseExchange

/-- What a flush did: records written, records lost to a failing store, and bytes kept back. -/
structure Delivery where
  written : Nat := 0
  dropped : Nat := 0
  retained : Nat := 0
deriving DecidableEq

structure Tally where
  added : Nat := 0
  deleted : Nat := 0
  lines : Nat := 0
  literals : Nat := 0
  records : Nat := 0
  dropped : Nat := 0
deriving DecidableEq

namespace Tally

def countLine (tally : Tally) (line : Line) : Tally :=
  { tally with
    added := tally.added + if line.action = .add then 1 else 0
    deleted := tally.deleted + if line.action = .delete then 1 else 0
    lines := tally.lines + 1
    literals := tally.literals + line.literals.length }

def countDelivery (tally : Tally) (delivery : Delivery) : Tally :=
  { tally with
    records := tally.records + delivery.written
    dropped := tally.dropped + delivery.dropped }

end Tally

structure ReportLine where
  name : String
  count : Nat
  ratio : Float
  unit : String
  per : String

namespace ReportLine

/-- The floating point number nearest to a count that fits 64 bits. -/
def countFloat (count : Nat) : Float :=
  (UInt64.ofNat count).toFloat

def average (part whole : Nat) : Float :=
  if whole = 0 then 0 else countFloat part / countFloat whole

def percentage (part whole : Nat) : Float :=
  if whole = 0 then 0 else 100 * countFloat part / countFloat whole

def padLeft (width : Nat) (text : String) : String :=
  String.ofList (List.replicate (width - text.length) ' ') ++ text

def padRight (width : Nat) (text : String) : String :=
  text ++ String.ofList (List.replicate (width - text.length) ' ')

def text (line : ReportLine) : String :=
  String.intercalate " "
    ["c", padRight 22 (line.name ++ ":"), padLeft 13 (toString line.count),
     padLeft 14 (Hundredths.render line.ratio), padRight 2 line.unit ++ line.per]

end ReportLine

namespace Tally

def share (tally : Tally) (name : String) (count : Nat) : ReportLine :=
  ⟨name, count, ReportLine.percentage count tally.lines, "%", "per line"⟩

def report (tally : Tally) (verbose : Bool) : List ReportLine :=
  let changes :=
    [tally.share "proof_added" tally.added, tally.share "proof_deleted" tally.deleted]
  if verbose then
    changes ++
      [⟨"proof_lines", tally.lines, 100, "%", ""⟩,
       ⟨"proof_literals", tally.literals,
        ReportLine.average tally.literals tally.lines, "", "per line"⟩,
       tally.share "proof_records" tally.records, tally.share "proof_dropped" tally.dropped]
  else
    changes

end Tally

end ClauseExchange
