/-!
Quoted text: a string between quotes with its special characters escaped, the form in which
error messages show a string.

The quote is `'` unless the text holds a `'` and no `"`. Backslash, the quote, tab, line feed
and carriage return are escaped by a letter; other characters that do not print (controls,
format characters, separators other than the space, private use) by their code in hex.
-/

namespace DocWeaver.Text

def hexDigits (width n : Nat) : String :=
  let ds := Nat.toDigits 16 n
  String.ofList (List.replicate (width - ds.length) '0' ++ ds)

def isPrintable (c : Char) : Bool :=
  let n := c.toNat
  if n < 0x20 || (0x7F ≤ n && n < 0xA0) then false
  else if n == 0xA0 || n == 0xAD || n == 0x1680 || n == 0x180E || (0x2000 ≤ n && n ≤ 0x200F) then false
  else if (0x2028 ≤ n && n ≤ 0x202F) || (0x205F ≤ n && n ≤ 0x206F) || n == 0x3000 then false
  else if (0x600 ≤ n && n ≤ 0x605) || n == 0x61C || n == 0x6DD || n == 0x70F || n == 0x8E2 then false
  else if n == 0xFEFF || (0xFFF9 ≤ n && n ≤ 0xFFFB) || n == 0xFFFE || n == 0xFFFF then false
  else if (0xE000 ≤ n && n ≤ 0xF8FF) || 0xF0000 ≤ n then false
  else if n == 0x110BD || (0x1BCA0 ≤ n && n ≤ 0x1BCA3) || (0x1D173 ≤ n && n ≤ 0x1D17A) then false
  else if n == 0xE0001 || (0xE0020 ≤ n && n ≤ 0xE007F) then false
  else true

def quoteChar (q : Char) (c : Char) : String :=
  if c == '\\' then "\\\\"
  else if c == q then "\\" ++ c.toString
  else if c == '\t' then "\\t"
  else if c == '\n' then "\\n"
  else if c == '\r' then "\\r"
  else if isPrintable c then c.toString
  else
    let n := c.toNat
    if n < 0x100 then "\\x" ++ hexDigits 2 n
    else if n < 0x10000 then "\\u" ++ hexDigits 4 n
    else "\\U" ++ hexDigits 8 n

def quote (s : String) : String :=
  let q := if s.contains '\'' && !s.contains '"' then '"' else '\''
  q.toString ++ String.join (s.toList.map (quoteChar q)) ++ q.toString

end DocWeaver.Text
