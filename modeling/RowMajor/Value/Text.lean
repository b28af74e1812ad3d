import RowMajor.Text.Quoted
import RowMajor.Value.Basic

/-!
# Values as text

A value is written as the name of its kind of grid with the shape and the elements.
Shapes are written as tuples, where a single entry keeps a comma behind it. Boxes show
the value they hold.
-/

namespace RowMajor

namespace Text

/-- Entries in a bracketed list. -/
def listText (entries : List String) : String :=
  "[" ++ ", ".intercalate entries ++ "]"

def tupleText : List String → String
  | [entry] => "(" ++ entry ++ ",)"
  | entries => "(" ++ ", ".intercalate entries ++ ")"

end Text

namespace Value

/-- The written form of a grid whose elements are already written. -/
def gridText (kind : Kind) (shape : Shape) (elements : List String) : String :=
  kind.gridName ++ "(shape=" ++ Text.tupleText (shape.map toString) ++
    ", data=" ++ Text.listText elements ++ ")"

mutual

/-- The written form of a value. -/
def text : Value → String
  | .number a => gridText .number a.shape (a.items.map Binary64.text)
  | .byte a => gridText .byte a.shape (a.items.map fun b => toString b.toNat)
  | .complex a => gridText .complex a.shape (a.items.map Complex.text)
  | .character a => gridText .character a.shape (a.items.map fun c => Text.quoted [c])
  | .box ⟨shape, items⟩ => gridText .box shape (boxTexts items)
  | .mixed kind ⟨shape, items⟩ => gridText kind shape (itemTexts items)

def boxTexts : List Value → List String
  | [] => []
  | v :: values => ("Boxed(" ++ v.text ++ ")") :: boxTexts values

def itemText : Item Value → String
  | .number x => x.text
  | .byte b => toString b.toNat
  | .complex z => z.text
  | .character c => Text.quoted [c]
  | .box v => "Boxed(" ++ v.text ++ ")"

def itemTexts : List (Item Value) → List String
  | [] => []
  | x :: items => itemText x :: itemTexts items

end

/-- A value as it is written inside a box. -/
def boxedText (v : Value) : String :=
  "Boxed(" ++ v.text ++ ")"

end Value

end RowMajor
