import QbbNet.Rounding
import QbbNet.TopologyFile

set_option autoImplicit false

/- What the streams of the standard library make of doubles. A finite double is the
number it stands for. -/
namespace QbbNet

/-- What `iss >> d` leaves. -/
structure ExtractedDouble where
  value : ℚ
  ok : Bool
  rest : Line
  deriving DecidableEq

/-- `iss >> d` for a double that holds `old`. Behind an e there must be an exponent. At
the end of the line the double is left as it is, without digits it is 0, and out of
range it is the largest. -/
def readDouble (old : ℚ) (chars : Line) : ExtractedDouble :=
  match chars.dropWhile isSpace with
  | [] => ⟨old, false, []⟩
  | c :: rest =>
      let body := if c = '+' ∨ c = '-' then rest else c :: rest
      let whole := body.takeWhile Char.isDigit
      let after := body.dropWhile Char.isDigit
      let tail := if after.head? = some '.' then after.tail else after
      let fraction := if after.head? = some '.' then tail.takeWhile Char.isDigit else []
      let after := if after.head? = some '.' then tail.dropWhile Char.isDigit else after
      let mantissa : ℚ := digitsValue (whole ++ fraction) / 10 ^ fraction.length
      let signed (d : ℚ) : ℚ := if c = '-' then -d else d
      let finish (number : ℚ) (rest : Line) : ExtractedDouble :=
        match nearestDouble number with
        | none => ⟨signed maxDouble, false, rest⟩
        | some d => ⟨signed d, true, rest⟩
      if whole ++ fraction = [] then ⟨0, false, after⟩
      else if after.head? = some 'e' ∨ after.head? = some 'E' then
        let negative := after.tail.head? = some '-'
        let tail := if negative ∨ after.tail.head? = some '+' then after.tail.tail else after.tail
        let exponent := digitsValue (tail.takeWhile Char.isDigit)
        let rest := tail.dropWhile Char.isDigit
        if tail.takeWhile Char.isDigit = [] then ⟨0, false, rest⟩
        else finish (if negative then mantissa / 10 ^ exponent else mantissa * 10 ^ exponent) rest
      else finish mantissa after

example : readDouble 0 [' ', '-', '1', '.', '5', 'e', '1', 'x'] = ⟨-15, true, ['x']⟩ := by
  decide +kernel

/-- Six digits without the zeros at the end. -/
def significant (digits : Line) : Line := (digits.reverse.dropWhile (· = '0')).reverse

/-- `oss << d` for a double with this sign and this size, which is infinite if there is none. -/
def formatDouble (negative : Bool) (size : Option ℚ) : Line :=
  let text :=
    match size with
    | none => ['i', 'n', 'f']
    | some d =>
        if d = 0 then ['0']
        else
          let rounded := roundHalfEven (d * 10 ^ (5 - Int.log 10 d))
          let e := if rounded = 1000000 then Int.log 10 d + 1 else Int.log 10 d
          let digits := Nat.toDigits 10 (if rounded = 1000000 then 100000 else rounded.toNat)
          let point (whole fraction : Line) :=
            if significant fraction = [] then whole else whole ++ '.' :: significant fraction
          if e < -4 ∨ 6 ≤ e then
            let exponent := Nat.toDigits 10 e.natAbs
            point (digits.take 1) (digits.drop 1) ++ 'e' :: (if e < 0 then '-' else '+') ::
              (if exponent.length = 1 then '0' :: exponent else exponent)
          else if e < 0 then point ['0'] (List.replicate (-e - 1).toNat '0' ++ digits)
          else point (digits.take (e.toNat + 1)) (digits.drop (e.toNat + 1))
  if negative then '-' :: text else text

example : formatDouble false (some (50 / 7)) = ['7', '.', '1', '4', '2', '8', '6'] := by
  decide +kernel

example : formatDouble true (some (1 / 20000)) = ['-', '5', 'e', '-', '0', '5'] := by decide +kernel

end QbbNet
