import CodingOS.Python.Text

/-!
# A sample process

A process for the runs on fixed inputs: it knows ASCII, and has one digest for every text.
-/

namespace CodingOS.Python.SampleProcess

scoped instance runtime : Runtime where
  casefoldUnicode s := s
  lowerUnicode s := s
  isPrintable c := 32 ≤ c.toNat && c.toNat < 127
  decimalDigit c := if c.isDigit then some (c.toNat - 48) else none
  floatRepr _ := "0.0"
  sha256 _ := "8dc417117cb169c69976f3b56f908d591975bc169686c9a4bcbf6892035f4552"
  sha512 bytes := bytes
  resolvedPath s := s
  absolutePath s := s

end CodingOS.Python.SampleProcess
