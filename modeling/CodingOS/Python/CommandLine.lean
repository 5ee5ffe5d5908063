import CodingOS.Python.Text

/-!
# Command lines

`shlex.quote` and `subprocess.list2cmdline`: how the program writes one command for a POSIX shell and for
Windows.
-/

namespace CodingOS.Python

/-- The characters `_find_unsafe` does not match: the word characters of ASCII and eight others. -/
def isShellSafe (c : Char) : Bool := c.isAlphanum || "_@%+=:,.-/".toList.contains c

/-- `text.replace("'", "'\"'\"'")`, one character. -/
def shellChar (c : Char) : List Char := if c = '\'' then "'\"'\"'".toList else [c]

/-- `shlex.quote(text)`. -/
def shellQuote (s : String) : String :=
  if s = "" then "''"
  else if s.toList.all isShellSafe then s
  else String.ofList ('\'' :: s.toList.flatMap shellChar ++ ['\''])

/-- The inner loop of `list2cmdline`: the backslashes held back, then the rest of the argument. -/
def commandChars (needQuote : Bool) : ℕ → List Char → List Char
  | held, [] => List.replicate held '\\' ++ if needQuote then List.replicate held '\\' else []
  | held, c :: cs =>
      if c = '\\' then commandChars needQuote (held + 1) cs
      else if c = '"' then List.replicate (2 * held) '\\' ++ '\\' :: '"' :: commandChars needQuote 0 cs
      else List.replicate held '\\' ++ c :: commandChars needQuote 0 cs

def commandArgument (s : String) : List Char :=
  let needQuote := s.toList.contains ' ' || s.toList.contains '\t' || s.isEmpty
  let body := commandChars needQuote 0 s.toList
  if needQuote then '"' :: body ++ ['"'] else body

/-- `subprocess.list2cmdline(args)`. -/
def list2cmdline (args : List String) : String :=
  String.ofList (List.intercalate [' '] (args.map commandArgument))

example : list2cmdline ["a b\\", "c\"d", ""] = "\"a b\\\\\" c\\\"d \"\"" := by decide

theorem flatMap_shellChar {cs : List Char} (h : '\'' ∉ cs) : cs.flatMap shellChar = cs := by
  induction cs with
  | nil => rfl
  | cons c cs ih =>
      have hc : c ≠ '\'' := fun e => h (e ▸ List.mem_cons_self)
      rw [List.flatMap_cons, shellChar, if_neg hc, ih fun hmem => h (List.mem_cons_of_mem _ hmem)]
      rfl

/-- Quoting leaves a part of the text without a quote as it is. -/
theorem infix_shellQuote {s : String} {part : List Char} (hquote : '\'' ∉ part) (hpart : part <:+: s.toList) :
    part <:+: (shellQuote s).toList := by
  unfold shellQuote
  split
  · next hempty =>
      subst hempty
      have hnil : part = [] := List.infix_nil.mp hpart
      rw [hnil]
      exact List.nil_infix
  · split
    · exact hpart
    · obtain ⟨front, back, h⟩ := hpart
      have hmap : s.toList.flatMap shellChar = front.flatMap shellChar ++ part ++ back.flatMap shellChar := by
        rw [← h, List.flatMap_append, List.flatMap_append, flatMap_shellChar hquote]
      rw [String.toList_ofList, hmap]
      exact ⟨'\'' :: front.flatMap shellChar, back.flatMap shellChar ++ ['\''], by simp⟩

end CodingOS.Python
