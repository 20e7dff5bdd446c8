import Mathlib.Data.List.Sort
import QbbNet.Doubles
import QbbNet.SizeSampling

set_option autoImplicit false

/- The file that gives the flow sizes, and the table that LoadSizeCdf makes of it. -/
namespace QbbNet

/-- A size is rounded to the nearest number. What becomes of one of more than 32 bits
is not defined, so it is open. -/
def sizeOf (outside : ℚ → UInt32) (sizeVal : ℚ) : UInt32 :=
  let whole := ⌊(nearestDouble (max 0 sizeVal + 1 / 2)).getD maxDouble⌋
  if whole < 4294967296 then UInt32.ofNat whole.toNat else outside sizeVal

/-- The entry of a line, if it has one. -/
def readEntry (outside : ℚ → UInt32) (line : Line) : Option (UInt32 × ℚ) :=
  if isComment line then none
  else
    let sizeVal := readDouble 0 line
    let cdfPct := readDouble 0 sizeVal.rest
    if sizeVal.ok ∧ cdfPct.ok then
      let pct := if cdfPct.value < 0 then 0 else cdfPct.value
      some (sizeOf outside sizeVal.value, if 100 < pct then 100 else pct)
    else none

/-- The order in which the entries are sorted. -/
def entryLe (a b : UInt32 × ℚ) : Prop := if a.2 = b.2 then a.1 ≤ b.1 else a.2 < b.2

instance : DecidableRel entryLe := fun a b =>
  inferInstanceAs (Decidable (if a.2 = b.2 then _ else _))

/-- The table as far as it is cleaned, and the two running values of the loop. -/
structure Cleaning where
  cleaned : SizeCdf
  lastCdf : ℚ
  lastSize : UInt32

def Cleaning.new : Cleaning := ⟨[], -1, 0⟩

def Cleaning.add (s : Cleaning) (p : UInt32 × ℚ) : Cleaning :=
  if p.2 < s.lastCdf then s
  else if s.cleaned = [] then ⟨[p], p.2, p.1⟩
  else if p.2 = s.lastCdf then
    if p.1 < s.lastSize then
      { s with
        cleaned := s.cleaned.dropLast ++ s.cleaned.getLast?.toList.map fun back => (p.1, back.2)
        lastSize := p.1 }
    else s
  else
    let size := if p.1 < s.lastSize then s.lastSize else p.1
    ⟨s.cleaned ++ [(size, p.2)], p.2, size⟩

/-- `out.insert(out.begin(), (0, 0.0))` if the first percentage is larger. -/
def addFront (out : SizeCdf) : SizeCdf :=
  match out.head? with
  | none => out
  | some front => if 0 < front.2 then (0, 0) :: out else out

/-- `out.push_back((out.back().first, 100.0))` if the last percentage is smaller. -/
def addBack (out : SizeCdf) : SizeCdf :=
  match out.getLast? with
  | none => out
  | some back => if back.2 < 100 then out ++ [(back.1, 100)] else out

/-- LoadSizeCdf, given the lines of the file if it can be opened: the table, or the error. -/
def loadSizeCdf (outside : ℚ → UInt32) (path : String) (file : Option (List Line)) :
    Except String SizeCdf :=
  match file with
  | none => .error ("无法打开 CDF 文件: " ++ path)
  | some lines =>
      let out := lines.filterMap (readEntry outside)
      if out = [] then .error "CDF 文件为空或格式不正确"
      else
        let cleaned := ((out.insertionSort entryLe).foldl Cleaning.add .new).cleaned
        .ok (addBack (addFront cleaned))

end QbbNet
