import MarketReplay.Decimal.Layout

/-!
# Fixed places

Amounts in reports and messages have a fixed number of decimal places. The exact value of the
float is rounded once, a half going to the even neighbour, and the sign of a float is kept even
when every digit shown is zero.
-/

set_option autoImplicit false

namespace MarketReplay.Decimal

/-- A natural number of units of `10^-places`, with the point in its place. Zeros are put before a
number that has too few digits, so that one stands before the point. -/
def fixedDigits (places units : Nat) : String :=
  let text := Nat.repr units
  let padded := zeros (places + 1 - text.length) ++ text
  let cut := padded.length - places
  let whole := String.ofList (padded.toList.take cut)
  if places = 0 then whole
  else whole ++ "." ++ String.ofList (padded.toList.drop cut)

/-- A float with `places` decimal places, and `+` before what is not negative if `plus` holds. -/
def fixed (places : Nat) (plus : Bool) (x : Float) : String :=
  let sign := fun (negative : Bool) => if negative then "-" else if plus then "+" else ""
  match magnitude x with
  | .notANumber => "NaN"
  | .infinite negative => sign negative ++ "inf"
  | .finite negative m q =>
    let units := roundDiv .even (m * twoTo q.toNat * tenTo places) (twoTo (-q).toNat)
    sign negative ++ fixedDigits places units

/-- A text brought to at least `width` characters by blanks before it. A text that is longer is not
cut. -/
def rightAligned (width : Nat) (text : String) : String :=
  String.ofList (List.replicate (width - text.length) ' ') ++ text

end MarketReplay.Decimal
