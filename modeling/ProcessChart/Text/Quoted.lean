import ProcessChart.Text.HiddenClass
import ProcessChart.Decimal.Whole

/-!
Text in double quotes as messages show it: quotes, backslashes and the common
control characters have escapes of two characters, and every other character
that cannot be told apart in print is given by its code point.
-/
namespace ProcessChart.Text

def quotedChar (c : Char) : List Char :=
  if c = '\x00' then ['\\', '0']
  else if c = '\t' then ['\\', 't']
  else if c = '\n' then ['\\', 'n']
  else if c = '\r' then ['\\', 'r']
  else if c = '"' then ['\\', '"']
  else if c = '\\' then ['\\', '\\']
  else if hiddenClass.contains c then
    ['\\', 'u', '\x7b'] ++ Decimal.hexDigits c.toNat ++ ['\x7d']
  else [c]

def quoted (s : String) : String :=
  String.ofList (['"'] ++ s.toList.flatMap quotedChar ++ ['"'])

end ProcessChart.Text
