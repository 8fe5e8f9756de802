import SkidSteer.Text.Unprintable

namespace SkidSteer.Text

def hex (n : Nat) : String := String.ofList (Nat.toDigits 16 n)

def escape (c : Char) : String :=
  if c = '"' then "\\\""
  else if c = '\\' then "\\\\"
  else if c = '\t' then "\\t"
  else if c = '\n' then "\\n"
  else if c = '\r' then "\\r"
  else if c = '\x00' then "\\0"
  else if c.toNat < 0x20 || (0x7f ≤ c.toNat && isUnprintable c) then
    "\\u\x7b" ++ hex c.toNat ++ "\x7d"
  else c.toString

def quoted (s : String) : String := "\"" ++ String.join (s.toList.map escape) ++ "\""

def quotedList (texts : List String) : String :=
  "[" ++ ", ".intercalate (texts.map quoted) ++ "]"

end SkidSteer.Text
