import CorridorRank.Num.Shortest

/-!
# Writing a double

A double is written with the fewest digits that read back (`Decimal.shortest`); a
`FloatStyle` fixes the rest of the text: for which positions of the decimal point the digits
are written positionally, whether a whole number keeps a `.0`, how the exponent is marked
and padded, and the spelling of not-a-number and infinity. `FloatStyle.render` is the one
function that lays out the digits.
-/

namespace CorridorRank

/-- The layout decisions of a float text. The decimal point position `p` of a decimal
`0.d₁d₂… · 10^p` decides the form: positional when `lowestPoint ≤ p ≤ highestPoint`. -/
structure FloatStyle where
  lowestPoint : Int
  highestPoint : Int
  keepPointZero : Bool
  exponentMark : String
  exponentPlus : Bool
  exponentWidth : Nat
  nanText : String
  infText : String

namespace FloatStyle

/-- Left-pads a digit string with zeros to the given width. -/
def padDigits
    (width : Nat)
    (ds : List Char) :
    List Char :=
  List.replicate (width - ds.length) '0' ++ ds

/-- The text of the positive decimal `digits · 10^exp` in this style. -/
def layout
    (st : FloatStyle)
    (d : Decimal.Sci) :
    String :=
  let ds := Decimal.digitsOf d.digits
  let n := ds.length
  let point : Int := d.exp + n
  if st.lowestPoint ≤ point && point ≤ st.highestPoint then
    if point ≤ 0 then
      "0." ++ String.ofList (List.replicate (-point).toNat '0' ++ ds)
    else if point < n then
      String.ofList (ds.take point.toNat) ++ "." ++ String.ofList (ds.drop point.toNat)
    else
      String.ofList (ds ++ List.replicate (point.toNat - n) '0') ++
        (if st.keepPointZero then ".0" else "")
  else
    let e := point - 1
    let mant := match ds with
      | [] => "0"
      | [c] => String.ofList [c]
      | c :: rest => String.ofList (c :: '.' :: rest)
    let sign := if e < 0 then "-" else if st.exponentPlus then "+" else ""
    mant ++ st.exponentMark ++ sign ++
      String.ofList (padDigits st.exponentWidth (Decimal.digitsOf e.natAbs))

/-- The text of a double in this style. -/
def render
    (st : FloatStyle)
    (x : Float) :
    String :=
  match Binary64.shape x with
  | .nan => st.nanText
  | .infinite neg => if neg then "-" ++ st.infText else st.infText
  | .finite neg sig exp =>
    let body := if sig == 0 then
        (if st.keepPointZero then "0.0" else "0")
      else st.layout (Decimal.shortest sig exp)
    if neg then "-" ++ body else body

end FloatStyle

end CorridorRank
