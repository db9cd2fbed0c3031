/-
Module: CompositeModels.Text.Quoted
Purpose: Text between quotes, with escapes for what cannot stand for itself.
Main exports: Quoted.quoteFor, Quoted.escape, Quoted.encode
-/
import CompositeModels.Text.Printable

namespace CompositeModels.Quoted

/-- Text is put between single quotes, unless it has a single quote and no double quote. -/
def quoteFor (text : String) : Char :=
  if text.contains '\'' && !text.contains '"' then '"' else '\''

/-- A number in hexadecimal digits, padded with zeros to the given width. -/
def hexadecimal (width n : Nat) : String :=
  let digits := String.ofList (Nat.toDigits 16 n)
  "".pushn '0' (width - digits.length) ++ digits

/-- How a character is written between the given quotes. The shortest of three numeric escapes that
fits is used where a character cannot stand for itself. -/
def escape (quote c : Char) : String :=
  if c == quote || c == '\\' then "\\" ++ c.toString
  else if c == '\n' then "\\n"
  else if c == '\r' then "\\r"
  else if c == '\t' then "\\t"
  else if Printable.isPrintable c then c.toString
  else if c.toNat < 0x100 then "\\x" ++ hexadecimal 2 c.toNat
  else if c.toNat < 0x10000 then "\\u" ++ hexadecimal 4 c.toNat
  else "\\U" ++ hexadecimal 8 c.toNat

/-- Text between quotes. -/
def encode (text : String) : String :=
  let quote := quoteFor text
  quote.toString ++ String.join (text.toList.map (escape quote)) ++ quote.toString

end CompositeModels.Quoted
