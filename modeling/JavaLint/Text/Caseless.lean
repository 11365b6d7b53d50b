/-!
Matching ASCII words without regard to case. Besides the two cases of a letter, a long s counts as
an s, a Kelvin sign as a k, and a dotted capital or dotless small i as an i.
-/
namespace JavaLint.Text

/-- `c` stands for the letter that `pattern`, a lower-case or caseless ASCII character, names. -/
def matchesLetter (pattern c : Char) : Bool :=
  c.toLower == pattern ||
    (pattern == 's' && c == '\u017F') ||
    (pattern == 'k' && c == '\u212A') ||
    (pattern == 'i' && (c == '\u0130' || c == '\u0131'))

def dropWord? : List Char → List Char → Option (List Char)
  | [], text => some text
  | _ :: _, [] => none
  | p :: word, c :: text => if matchesLetter p c then dropWord? word text else none

def startsWithWord (word text : List Char) : Bool := (dropWord? word text).isSome

end JavaLint.Text
