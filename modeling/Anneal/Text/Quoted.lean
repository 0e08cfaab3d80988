import Anneal.Text.Unmarked

/-!
# Texts shown in messages

A text shown in quotes has its quotes and backslashes escaped; line ends, tabs and all other
unmarked characters appear as escapes.
-/

namespace Anneal.Text

def showChar (c : Char) : String :=
  if c = '"' then "\\\""
  else if c = '\\' then "\\\\"
  else if c = '\n' then "\\n"
  else if c = '\r' then "\\r"
  else if c = '\t' then "\\t"
  else if c = '\x00' then "\\0"
  else if isUnmarked c then
    "\\u\x7b" ++ String.ofList (Nat.toDigits 16 c.toNat) ++ "\x7d"
  else String.ofList [c]

def showQuoted (s : String) : String :=
  "\"" ++ s.toList.foldl (fun acc c => acc ++ showChar c) "" ++ "\""

end Anneal.Text
