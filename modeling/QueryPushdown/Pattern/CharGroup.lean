import QueryPushdown.Pattern.CaseFolding
import QueryPushdown.Pattern.Category
import QueryPushdown.Pattern.Property

/-!
# Groups of characters

Unions of general categories, and the properties that differ from such a union by a few characters:
letters and digits, parts of identifiers, characters of words, and letters that change with case.
-/

namespace QueryPushdown.Pattern.CharGroup

open CharSet (unions)

section

open Category

def casedLetter : CharSet := unions [uppercaseLetter, lowercaseLetter, titlecaseLetter]

def letter : CharSet := unions [casedLetter, modifierLetter, otherLetter]

def mark : CharSet := unions [nonspacingMark, spacingMark, enclosingMark]

def number : CharSet := unions [decimalNumber, letterNumber, otherNumber]

def punctuation : CharSet :=
  unions [connectorPunctuation, dashPunctuation, openPunctuation, closePunctuation,
    initialPunctuation, finalPunctuation, otherPunctuation]

def symbol : CharSet := unions [mathSymbol, currencySymbol, modifierSymbol, otherSymbol]

def separator : CharSet := unions [spaceSeparator, lineSeparator, paragraphSeparator]

/-- Halves of surrogate pairs, which are no characters. -/
def surrogate : CharSet := .run 0xd800 0xdfff

/-- Characters that have a category of their own. -/
def assigned : CharSet := unions (Category.assigned.map (·.set))

def unassigned : CharSet := (assigned.union surrogate).compl

/-- Characters that are neither letters, marks, numbers, punctuation, symbols nor separators. -/
def other : CharSet := unions [control, format, privateUse, surrogate, unassigned]

/-- Letters, and numbers that are written like letters. -/
def letterLike : CharSet := letter.union letterNumber

def lowercase : CharSet := lowercaseLetter.union Property.otherLowercase

def uppercase : CharSet := uppercaseLetter.union Property.otherUppercase

def cased : CharSet := unions [lowercase, uppercase, titlecaseLetter]

def alphabetic : CharSet := letterLike.union Property.otherAlphabetic

def math : CharSet := mathSymbol.union Property.otherMath

def idStart : CharSet :=
  (letterLike.union Property.otherIdStart).diff Property.notIdentifier

def idContinue : CharSet :=
  unions [idStart, nonspacingMark, spacingMark, decimalNumber, connectorPunctuation,
    Property.otherIdContinue]

def caseIgnorable : CharSet :=
  unions [nonspacingMark, enclosingMark, format, modifierLetter, modifierSymbol,
    Property.otherCaseIgnorable]

def graphemeExtend : CharSet :=
  unions [nonspacingMark, enclosingMark, Property.otherGraphemeExtend]

def graphemeBase : CharSet :=
  assigned.diff (unions [graphemeExtend, control, format, privateUse, lineSeparator,
    paragraphSeparator])

/-- Characters of words: letters, marks, digits, connectors and joiners. -/
def word : CharSet :=
  unions [alphabetic, mark, decimalNumber, connectorPunctuation, Property.joinControl]

end

/-- Letters that simple folding changes. -/
def folding : CharSet := .ofCodes (foldPairs.map Prod.fst)

/-- Letters that others fold to. -/
def foldHead : CharSet := .ofCodes (foldPairs.map Prod.snd)

/-- Cherokee letters, where folding leads to the upper case. -/
def cherokeeCapital : CharSet := .run 0x13a0 0x13f5

/-- Characters that folding changes. Three of the letters that fold to another one are different
from it when they are taken apart. -/
def casefolded : CharSet :=
  (folding.union Property.otherCasefolded).diff ⟨[8126, 8127, 8147, 8148, 8163, 8164]⟩

/-- Characters that lower case changes. -/
def lowercased : CharSet :=
  unions [folding.inter uppercase, Category.titlecaseLetter, .run 0x130 0x130, cherokeeCapital]

/-- Characters that upper case changes. -/
def uppercased : CharSet :=
  (unions [foldHead, folding.diff uppercase, Property.otherUppercased]).diff cherokeeCapital

/-- Characters that title case changes. Georgian letters keep their case there. -/
def titlecased : CharSet :=
  ((uppercased.diff Category.titlecaseLetter).diff ⟨[4304, 4347, 4349, 4352]⟩).union
    ⟨[452, 453, 455, 456, 458, 459, 497, 498]⟩

def casemapped : CharSet := unions [lowercased, uppercased, titlecased]

end QueryPushdown.Pattern.CharGroup
