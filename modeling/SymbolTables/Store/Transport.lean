import SymbolTables.Store.Writer

/-!
# The transport store

A small store to try things on: two canning plants, three markets, and what is shipped between them.
It has symbols of all four kinds, element texts, an acronym and special values.
-/
namespace SymbolTables.Transport

open StoreWriter (Operation)

def plants : List String := ["seattle", "san-diego"]

def markets : List String := ["new-york", "chicago", "topeka"]

/-- A number given in thousandths. -/
def thousandths (n : Nat) : Binary64 := if n = 0 then .zero else .ofRatio n 1000

/-- Level and marginal with the bounds of an unbounded variable. -/
def unbounded (level marginal : Binary64) : Slots :=
  ⟨level, marginal, .negate .infinity, .infinity, .ofNat 1⟩

/-- The records of a parameter: labels and thousandths. -/
def values (nr : Nat) (records : List (List String × Nat)) : List Operation :=
  records.map fun r => .value nr r.1 (thousandths r.2)

/-- Plants and markets in all combinations, plants first. -/
def routes : List (List String) := plants.flatMap fun plant => markets.map fun market => [plant, market]

def shipments : List (Nat × Binary64) :=
  [(50, .zero), (300, .zero), (0, thousandths 36),
   (275, .zero), (0, thousandths 9), (275, SpecialValue.epsilon.stored)]

def operations : List Operation :=
  [.acronym "open",
   .symbol "i" .set ["*"] "canning plants",
   .element 0 ["seattle"] (some "west coast"),
   .element 0 ["san-diego"] none,
   .symbol "j" .set ["*"] "markets"]
  ++ markets.map (fun market => .element 1 [market] none)
  ++ [.symbol "a" .parameter ["i"] "capacity of plant i in cases"]
  ++ values 2 [(["seattle"], 350000), (["san-diego"], 600000)]
  ++ [.symbol "b" .parameter ["j"] "demand at market j in cases"]
  ++ values 3 [(["new-york"], 325000), (["chicago"], 300000), (["topeka"], 275000)]
  ++ [.symbol "d" .parameter ["i", "j"] "distance in thousands of miles"]
  ++ values 4 (routes.zip [2500, 1700, 1800, 2500, 1800, 1400])
  ++ [.symbol "f" .parameter [] "freight in dollars per case per thousand miles"]
  ++ values 5 [([], 90000)]
  ++ [.symbol "status" .parameter ["i"] "plant status",
      .value 6 ["seattle"] (Acronym.value 1),
      .value 6 ["san-diego"] SpecialValue.notAvailable.stored,
      .symbol "x" .var ["i", "j"] "shipment quantities in cases"]
  ++ (routes.zip shipments).map (fun r =>
      .values 7 r.1 { unbounded (.ofNat r.2.1) r.2.2 with lower := .zero })
  ++ [.symbol "z" .var [] "total transportation costs in thousands of dollars",
      .values 8 [] (unbounded (thousandths 153675) .zero),
      .symbol "supply" .equation ["i"] "observe supply limit at plant i",
      .values 9 ["seattle"]
        { unbounded (.ofNat 350) SpecialValue.epsilon.stored with upper := .ofNat 350 },
      .values 9 ["san-diego"] { unbounded (.ofNat 550) .zero with upper := .ofNat 600 }]

def store : StoreWriter := StoreWriter.empty.run operations

end SymbolTables.Transport
