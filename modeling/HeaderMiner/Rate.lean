import HeaderMiner.Double
/-!
# Hash rates

A rate is shown with two decimal places in the largest unit below it, from hashes to peta-hashes a
second; above that the number just grows.
-/

namespace HeaderMiner.Rate

/-- the units above the plain one, each a thousand of the one before -/
def largerUnits : List String := ["KH/s", "MH/s", "GH/s", "TH/s", "PH/s"]

/-- the rate in the largest unit that leaves it at one or more -/
def scaled (rate : Float) (unit : String) : List String → Float × String
  | [] => (rate, unit)
  | next :: rest => if 1000 ≤ rate then scaled (rate / 1000) next rest else (rate, unit)

def format (rate : Float) : String :=
  let r := scaled rate "H/s" largerUnits
  Double.fixed 2 r.1 ++ " " ++ r.2

end HeaderMiner.Rate
