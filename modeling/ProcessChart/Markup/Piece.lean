import ProcessChart.Decimal.Whole
import ProcessChart.Markup.Escape

/-!
A markup document as a list of tags and stretches of text. Attribute values and
text are kept in their written form, so that whoever builds a piece decides what
is escaped.
-/
namespace ProcessChart.Markup

structure Attribute where
  name : String
  written : List Char

namespace Attribute

def escaped (name value : String) : Attribute := ⟨name, escapeChars value.toList⟩

/-- The value stands in the document as it is. -/
def verbatim (name value : String) : Attribute := ⟨name, value.toList⟩

def integer (name : String) (value : Int) : Attribute := ⟨name, Decimal.integer value⟩

def write (a : Attribute) : List Char :=
  [' '] ++ a.name.toList ++ ['=', '"'] ++ a.written ++ ['"']

end Attribute

inductive Piece where
  | opening (name : String) (attributes : List Attribute)
  | closing (name : String)
  | single (name : String) (attributes : List Attribute)
  | text (written : List Char)

def Piece.attributes : Piece → List Attribute
  | opening _ attributes => attributes
  | closing _ => []
  | single _ attributes => attributes
  | text _ => []

/-- `finish` ends a tag that has no content. -/
def Piece.write (finish : String) : Piece → List Char
  | opening name attributes =>
    ['<'] ++ name.toList ++ attributes.flatMap Attribute.write ++ ['>']
  | closing name => ['<', '/'] ++ name.toList ++ ['>']
  | single name attributes =>
    ['<'] ++ name.toList ++ attributes.flatMap Attribute.write ++ finish.toList
  | text written => written

def writePieces (finish : String) (pieces : List Piece) : List Char :=
  pieces.flatMap (Piece.write finish)

def escapedText (content : String) : Piece := .text (escapeChars content.toList)

end ProcessChart.Markup
