/-
# Texts in messages

A message that repeats a text puts it between quotes and escapes what could be misread: the quote, the
backslash, and all hidden characters, which are written by their number unless they have a short
escape.

Key definitions: `Text.escape`, `Text.quoted`.
-/
import Outbox.Text.Visible

namespace Outbox
namespace Text

/-- A character as it stands in a quoted text. -/
def escape (c : Char) : List Char :=
  match c with
  | '"' => ['\\', '"']
  | '\\' => ['\\', '\\']
  | '\x00' => ['\\', '0']
  | '\t' => ['\\', 't']
  | '\n' => ['\\', 'n']
  | '\r' => ['\\', 'r']
  | c => if isHidden c then ['\\', 'u', '\x7b'] ++ Nat.toDigits 16 c.toNat ++ ['\x7d'] else [c]

/-- A text between quotes. -/
def quoted (s : String) : String := String.ofList ('"' :: (s.toList.flatMap escape ++ ['"']))

end Text
end Outbox
