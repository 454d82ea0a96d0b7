/-! Texts as they are compared where the case of letters does not matter. Some characters beyond ASCII are written
    forms of its letters: the long s, the sharp s, the sign of the kelvin and the ligatures of f and of s with t. -/

namespace MfaConsole
namespace Text

/-- The characters beyond ASCII that stand for small letters of ASCII. -/
def letterForms : List (Char × String) :=
  [('\u00df', "ss"), ('\u017f', "s"), ('\u1e9e', "ss"), ('\u212a', "k"), ('\ufb00', "ff"), ('\ufb01', "fi"),
   ('\ufb02', "fl"), ('\ufb03', "ffi"), ('\ufb04', "ffl"), ('\ufb05', "st"), ('\ufb06', "st")]

/-- The small letters of ASCII that a character stands for; any other character stands for itself. -/
def foldChar (c : Char) : List Char := ((letterForms.lookup c).map String.toList).getD [c.toLower]

/-- A text in small letters. It is the same for texts of ASCII that differ in the case of letters alone. -/
def fold (cs : List Char) : List Char := cs.flatMap foldChar

end Text
end MfaConsole
