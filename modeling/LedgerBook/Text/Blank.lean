import LedgerBook.Text.Basic
/-!
White space and trimming. Two sets of characters count as white space: the wide one, which also
holds the four separators of records, is used where a text is tidied; the narrow one, which leaves
them out, is used where a number is read.
-/
namespace LedgerBook.Text

/-- The characters with the Unicode property of white space, of every script. -/
def isSpace (c : Char) : Bool :=
  let n := c.toNat
  (9 ≤ n && n ≤ 13) || n == 0x20 || n == 0x85 || n == 0xA0 || n == 0x1680
    || (0x2000 ≤ n && n ≤ 0x200A) || n == 0x2028 || n == 0x2029 || n == 0x202F || n == 0x205F
    || n == 0x3000

/-- White space, and the separators of files, groups, records and units, U+001C to U+001F. -/
def isBlank (c : Char) : Bool :=
  isSpace c || (0x1C ≤ c.toNat && c.toNat ≤ 0x1F)

/-- Drops what belongs to a class from both ends. -/
def trimWhere {α : Type} (drops : α → Bool) (items : List α) : List α :=
  ((items.dropWhile drops).reverse.dropWhile drops).reverse

def strip (text : Text) : Text :=
  trimWhere (·.isIn isBlank) text

example : strip "\u2003 a b\x1f\n" = "a b" := by decide +kernel
example : strip "\u200bx" = "\u200bx" := by decide +kernel

end LedgerBook.Text
