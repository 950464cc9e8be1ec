import Vetting.Unicode.Extender
import Vetting.Unicode.Printable

/-! Texts and characters in quotes. What would not show is written as an escape, and so is the
closing quote, so that the quoted form can be read back. -/

namespace Vetting.Text

def hexadecimal (c : Char) : List Char := Nat.toDigits 16 c.toNat

def escape (quote : Char) (c : Char) : List Char :=
  if c = '\x00' then ['\\', '0']
  else if c = '\t' then ['\\', 't']
  else if c = '\r' then ['\\', 'r']
  else if c = '\n' then ['\\', 'n']
  else if c = '\\' || c = quote then ['\\', c]
  else if Unicode.isExtender c || !Unicode.isPrintable c then
    ['\\', 'u', '\x7b'] ++ hexadecimal c ++ ['\x7d']
  else [c]

def enclose (quote : Char) (cs : List Char) : String :=
  String.ofList (quote :: (cs.flatMap (escape quote) ++ [quote]))

def quote (s : String) : String := enclose '"' s.toList

def quoteChar (c : Char) : String := enclose '\'' [c]

end Vetting.Text
