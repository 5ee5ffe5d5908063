import CodingOS.Python.Text

/-!
# Bytes

The digest of a byte string is a parameter, as that of a text is.  The other operations are those the
program uses to build the byte strings it digests.
-/

namespace CodingOS.Python

/-- `hashlib.sha256(data).hexdigest()`, for bytes. -/
class FileDigest where
  sha256 : List UInt8 → String

/-- `text.encode("utf-8")`. -/
def utf8 (s : String) : List UInt8 := s.toUTF8.toList

theorem length_toList_loop (bytes : ByteArray) (i : ℕ) (r : List UInt8) :
    (ByteArray.toList.loop bytes i r).length = r.length + (bytes.size - i) := by
  fun_induction ByteArray.toList.loop bytes i r with
  | case1 i r hi ih =>
      rw [ih, List.length_cons]
      omega
  | case2 i r hi =>
      rw [List.length_reverse]
      omega

/-- A text has as many bytes as its encoding. -/
theorem utf8_length (s : String) : (utf8 s).length = s.utf8ByteSize := by
  rw [utf8, ByteArray.toList, length_toList_loop, List.length_nil, Nat.zero_add, Nat.sub_zero]
  rfl

def hexDigitValue (c : Char) : ℕ :=
  if c.isDigit then c.toNat - '0'.toNat else c.toNat - 'a'.toNat + 10

/-- `bytes.fromhex(text)`, of the lower-case digits of a digest. -/
def fromHex : List Char → List UInt8
  | high :: low :: rest =>
      UInt8.ofNat (16 * hexDigitValue high + hexDigitValue low) :: fromHex rest
  | _ => []

example : fromHex "0fa1".toList = [15, 161] := by decide

end CodingOS.Python
