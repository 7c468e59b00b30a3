import SymbolTables.Decimal.Shortest

/-!
# Numbers as text

Two ways to write a number, each one record: `plain` writes every number out in full, `json` writes
large and small ones with an exponent and marks whole numbers with `.0`.
-/
namespace SymbolTables.Decimal

structure Layout where
  tie : Tie
  /-- Exponents of the leading digit that are written without an exponent; `none` for all. -/
  positional : Option (Int × Int)
  /-- Follows a whole number written without an exponent. -/
  wholeMark : String
deriving DecidableEq

/-- Never an exponent: `1`, `0.00001`, `100000000000000000000`. -/
def plain : Layout := ⟨.up, none, ""⟩

/-- An exponent below `10^-5` and from `10^16` on: `1.0`, `0.00001`, `1e-6`, `1e+16`. -/
def json : Layout := ⟨.even, some (-5, 15), ".0"⟩

def zeros (n : Nat) : String := String.ofList (List.replicate n '0')

/-- Digits with the point after the leading one and the exponent behind them. -/
def Layout.scientific (digits : List Char) (leading : Int) : String :=
  let sign := if leading < 0 then "-" else "+"
  let fraction := if digits.length ≤ 1 then "" else "." ++ String.ofList (digits.drop 1)
  String.ofList (digits.take 1) ++ fraction ++ "e" ++ sign ++ toString leading.natAbs

/-- Digits written out, with the zeros that reach to the point. -/
def Layout.positionalText (l : Layout) (digits : List Char) (exponent : Int) : String :=
  if 0 ≤ exponent then String.ofList digits ++ zeros exponent.toNat ++ l.wholeMark
  else
    let places := exponent.natAbs
    if places < digits.length then
      String.ofList (digits.take (digits.length - places)) ++ "."
        ++ String.ofList (digits.drop (digits.length - places))
    else "0." ++ zeros (places - digits.length) ++ String.ofList digits

/-- The text of a positive decimal. -/
def Layout.ofDecimal (l : Layout) (d : Decimal) : String :=
  let digits := (toString d.digits).toList
  let leading := d.exponent + digits.length - 1
  match l.positional with
  | none => l.positionalText digits d.exponent
  | some (lowest, highest) =>
    if lowest ≤ leading ∧ leading ≤ highest then l.positionalText digits d.exponent
    else Layout.scientific digits leading

/-- The text of any number; zero keeps its sign. -/
def Layout.render (l : Layout) (x : Binary64) : String :=
  if x.isNaN then "NaN"
  else
    let sign := if x.isNegative then "-" else ""
    if x.isInfinite then sign ++ "inf"
    else if x.isZero then sign ++ "0" ++ l.wholeMark
    else sign ++ l.ofDecimal (shortest l.tie x)

end SymbolTables.Decimal
