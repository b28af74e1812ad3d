import RowMajor.Binary64.Text

/-!
# Complex numbers

A complex number is a pair of floating-point numbers. Its text leaves out a real part
that is plain zero; otherwise it stands in parentheses and the imaginary part carries
its sign.
-/

namespace RowMajor

structure Complex where
  re : Binary64
  im : Binary64
deriving DecidableEq

namespace Complex

def ofReal (x : Binary64) : Complex :=
  ⟨x, Binary64.zero⟩

/-- The sign in front of an imaginary part; a minus is already part of its text. -/
def signText (x : Binary64) : String :=
  if x.isNegative then "" else "+"

def text (z : Complex) : String :=
  let im := z.im.textWith Binary64.partLayout ++ "j"
  if z.re = Binary64.zero then im
  else "(" ++ z.re.textWith Binary64.partLayout ++ signText z.im ++ im ++ ")"

end Complex

end RowMajor
