import Mathlib

/-!
# Python text

The text methods the campaign engine calls on untrusted values: `str.strip`, `str.splitlines` at
`"\n"`, `repr` of a text, and the decimal reading of `int`.  A Python text is a Lean `String`; each
method works on the list of its characters.

What Python takes from the Unicode tables of its build (case folding, printable characters, decimal
digits), from its shortest-digits float printer and from `hashlib` is not fixed by the language, so
it is collected in `Runtime` and every definition that needs it is stated over an arbitrary one.
-/

namespace CodingOS.Python

/-- The tables and digests the Python process brings along.  No law is assumed of any of them. -/
class Runtime where
  /-- `str.casefold` on a text with a character outside ASCII. -/
  casefoldUnicode : String → String
  /-- `str.lower` on a text with a character outside ASCII. -/
  lowerUnicode : String → String
  /-- `str.isprintable`, for one character. -/
  isPrintable : Char → Bool
  /-- The value `int` gives to one decimal digit. -/
  decimalDigit : Char → Option ℕ
  /-- `repr` of a finite float. -/
  floatRepr : ℚ → String
  /-- `hashlib.sha256(text.encode("utf-8")).hexdigest()`. -/
  sha256 : String → String
  /-- `hashlib.sha512(data).digest()`. -/
  sha512 : List UInt8 → List UInt8
  /-- `os.path.normcase(str(Path(text).expanduser().resolve(strict=False)))`. -/
  resolvedPath : String → String
  /-- `str(Path(text).resolve(strict=False))`. -/
  absolutePath : String → String

/-! ### Whitespace -/

/-- The characters `str.isspace` accepts, by code point. -/
def whitespacePoints : List ℕ :=
  [0x09, 0x0A, 0x0B, 0x0C, 0x0D, 0x1C, 0x1D, 0x1E, 0x1F, 0x20, 0x85, 0xA0, 0x1680, 0x2000, 0x2001,
   0x2002, 0x2003, 0x2004, 0x2005, 0x2006, 0x2007, 0x2008, 0x2009, 0x200A, 0x2028, 0x2029, 0x202F,
   0x205F, 0x3000]

def isSpace (c : Char) : Bool := whitespacePoints.contains c.toNat

def lstripChars (cs : List Char) : List Char := cs.dropWhile isSpace

def rstripChars (cs : List Char) : List Char := (cs.reverse.dropWhile isSpace).reverse

/-- `str.strip()`. -/
def strip (s : String) : String := String.ofList (rstripChars (lstripChars s.toList))

/-- `str.rstrip()`. -/
def rstrip (s : String) : String := String.ofList (rstripChars s.toList)

/-- A text is blank when `strip` leaves nothing of it: the test of `_nonempty`. -/
def isBlank (s : String) : Bool := strip s == ""

/-! ### Case folding -/

def isAscii (s : String) : Bool := s.toList.all fun c => c.toNat < 128

/-- `str.casefold()`: lower case on an ASCII text, the tables on any other. -/
def casefold [Runtime] (s : String) : String :=
  if isAscii s then String.ofList (s.toList.map Char.toLower) else Runtime.casefoldUnicode s

/-- `str.lower()`. -/
def lower [Runtime] (s : String) : String :=
  if isAscii s then String.ofList (s.toList.map Char.toLower) else Runtime.lowerUnicode s

/-- `part in text`. -/
def contains (text part : String) : Bool := decide (part.toList <:+: text.toList)

/-! ### Lines -/

/-- `s.replace("\r\n", "\n").replace("\r", "\n")`, on characters. -/
def normalizeNewlines : List Char → List Char
  | [] => []
  | '\r' :: '\n' :: cs => '\n' :: normalizeNewlines cs
  | '\r' :: cs => '\n' :: normalizeNewlines cs
  | c :: cs => c :: normalizeNewlines cs

/-- `str.split(sep)` for a separator of one character. -/
def splitChars (sep : Char) : List Char → List (List Char)
  | [] => [[]]
  | c :: cs =>
      if c = sep then [] :: splitChars sep cs
      else match splitChars sep cs with
        | [] => [[c]]
        | l :: ls => (c :: l) :: ls

/-- The lines `^` and `$` delimit under `re.MULTILINE`. -/
def lines (cs : List Char) : List (List Char) := splitChars '\n' cs

/-! ### `repr` of a text -/

def hexDigit (n : ℕ) : Char := (Nat.digitChar n)

/-- The last `width` hexadecimal digits of `n`. -/
def hexDigits : ℕ → ℕ → List Char
  | 0, _ => []
  | width + 1, n => hexDigits width (n / 16) ++ [hexDigit (n % 16)]

section Repr

variable [Runtime]

/-- One character of `repr(text)` between the quotes `quote`. -/
def reprChar (quote c : Char) : List Char :=
  if c = quote ∨ c = '\\' then ['\\', c]
  else if c = '\n' then ['\\', 'n']
  else if c = '\r' then ['\\', 'r']
  else if c = '\t' then ['\\', 't']
  else if 0x20 ≤ c.toNat ∧ c.toNat < 0x7F then [c]
  else if 0x80 ≤ c.toNat ∧ Runtime.isPrintable c then [c]
  else if c.toNat ≤ 0xFF then '\\' :: 'x' :: hexDigits 2 c.toNat
  else if c.toNat ≤ 0xFFFF then '\\' :: 'u' :: hexDigits 4 c.toNat
  else '\\' :: 'U' :: hexDigits 8 c.toNat

/-- `repr(text)`: single quotes, unless the text holds one and no double quote. -/
def reprText (s : String) : String :=
  let cs := s.toList
  let quote := if cs.contains '\'' && !cs.contains '"' then '"' else '\''
  String.ofList (quote :: cs.flatMap (reprChar quote) ++ [quote])

end Repr

/-! ### `int(text)` -/

section Int

variable [Runtime]

def digitValue (c : Char) : Option ℕ :=
  if '0' ≤ c ∧ c ≤ '9' then some (c.toNat - '0'.toNat) else Runtime.decimalDigit c

/-- Digits with single underscores between them, as `int` reads them; `acc` holds the value so far
and `started` whether a digit came last. -/
def readDigits : List Char → ℕ → Bool → Option ℕ
  | [], acc, started => if started then some acc else none
  | '_' :: cs, acc, started => if started then readDigits cs acc false else none
  | c :: cs, acc, _ =>
      match digitValue c with
      | some d => readDigits cs (10 * acc + d) true
      | none => none

/-- `int(text)`: surrounding whitespace, one sign, digits. -/
def readInt (s : String) : Option ℤ :=
  match rstripChars (lstripChars s.toList) with
  | '-' :: cs => (readDigits cs 0 false).map fun n => -(n : ℤ)
  | '+' :: cs => (readDigits cs 0 false).map fun n => (n : ℤ)
  | cs => (readDigits cs 0 false).map fun n => (n : ℤ)

end Int

/-! ### Hexadecimal and base64 texts -/

/-- Whether every character is one of `"0123456789abcdef"`. -/
def isLowerHex (s : String) : Bool := s.toList.all fun c => "0123456789abcdef".toList.contains c

/-- The six bits one base64 character stands for. -/
def base64Value (c : Char) : Option ℕ :=
  if 'A' ≤ c ∧ c ≤ 'Z' then some (c.toNat - 65)
  else if 'a' ≤ c ∧ c ≤ 'z' then some (c.toNat - 71)
  else if '0' ≤ c ∧ c ≤ '9' then some (c.toNat + 4)
  else if c = '+' then some 62
  else if c = '/' then some 63
  else none

/-- `base64.b64decode(text, validate=True)`, four characters at a time; padding ends the text. -/
def base64Decode : List Char → Option (List UInt8)
  | [] => some []
  | [a, b, '=', '='] => do
      let n := (← base64Value a) * 64 + (← base64Value b)
      some [UInt8.ofNat (n / 16)]
  | [a, b, c, '='] => do
      let n := ((← base64Value a) * 64 + (← base64Value b)) * 64 + (← base64Value c)
      some [UInt8.ofNat (n / 1024), UInt8.ofNat (n / 4)]
  | a :: b :: c :: d :: rest => do
      let n := (((← base64Value a) * 64 + (← base64Value b)) * 64 + (← base64Value c)) * 64
        + (← base64Value d)
      let tail ← base64Decode rest
      some (UInt8.ofNat (n / 65536) :: UInt8.ofNat (n / 256) :: UInt8.ofNat n :: tail)
  | _ => none

/-- The character of six bits. -/
def base64Char (n : ℕ) : Char :=
  if n < 26 then Char.ofNat (n + 65)
  else if n < 52 then Char.ofNat (n + 71)
  else if n < 62 then Char.ofNat (n - 4)
  else if n = 62 then '+' else '/'

/-- `base64.b64encode(data)`, three bytes at a time. -/
def base64Encode : List UInt8 → List Char
  | [] => []
  | [a] =>
      let n := a.toNat * 16
      [base64Char (n / 64), base64Char (n % 64), '=', '=']
  | [a, b] =>
      let n := (a.toNat * 256 + b.toNat) * 4
      [base64Char (n / 4096), base64Char (n / 64 % 64), base64Char (n % 64), '=']
  | a :: b :: c :: rest =>
      let n := (a.toNat * 256 + b.toNat) * 256 + c.toNat
      base64Char (n / 262144) :: base64Char (n / 4096 % 64) :: base64Char (n / 64 % 64) ::
        base64Char (n % 64) :: base64Encode rest

/-- The text of an integer: `str(n)`. -/
def intText (n : ℤ) : String := toString n

end CodingOS.Python
