import Workflow.Text.Hidden

/-!
# Quoted text in messages

Texts are quoted in messages so that every character can be told: quotes, backslashes and the usual
controls have an escape of one letter, and characters without a shape are written by their number.

* `quotedChar`   one character;
* `quoted`       a text between quotes.
-/

namespace Workflow.Text

def quotedChar (c : Char) : List Char :=
  if c = '\x00' then ['\\', '0']
  else if c = '\t' then ['\\', 't']
  else if c = '\r' then ['\\', 'r']
  else if c = '\n' then ['\\', 'n']
  else if c = '"' then ['\\', '"']
  else if c = '\\' then ['\\', '\\']
  else if isHidden c then ['\\', 'u', '\x7b'] ++ Nat.toDigits 16 c.toNat ++ ['\x7d']
  else [c]

def quoted (s : String) : String := String.ofList ('"' :: (s.toList.flatMap quotedChar ++ ['"']))

end Workflow.Text
