import PatternSampler.Text.Numeral
import PatternSampler.Unicode.Visible
/-!
# Quoted text

Text as diagnostics and listings show it: between quotes, with the quote itself and the backslash
escaped, and everything that would not show as itself written as an escape.
-/
set_option autoImplicit false

namespace PatternSampler.Text

/-- One character between quotes of the given kind. -/
def quotedChar (quote c : Char) : String :=
  if c = '\x00' then "\\0"
  else if c = '\t' then "\\t"
  else if c = '\r' then "\\r"
  else if c = '\n' then "\\n"
  else if c = '\\' then "\\\\"
  else if c = quote then "\\" ++ String.singleton c
  else if Unicode.isVisible c then String.singleton c
  else "\\u\x7b" ++ hex c.toNat ++ "\x7d"

/-- A character between single quotes. -/
def quoteChar (c : Char) : String := "'" ++ quotedChar '\'' c ++ "'"

/-- A text between double quotes. -/
def quote (text : String) : String :=
  "\"" ++ String.join (text.toList.map (quotedChar '"')) ++ "\""

end PatternSampler.Text
