import QueryPushdown.Pattern.CharGroup
import QueryPushdown.Pattern.Script

/-!
# Boundaries in texts

The roles that characters play where a text is cut into visible characters, words and sentences.
Each list gives the roles of one kind of boundary with the names that patterns know them by; a
character in none of them plays no role.
-/

namespace QueryPushdown.Pattern.Segmentation

open CharSet (unions)
open CharGroup (alphabetic graphemeExtend lowercase unassigned uppercase)

section

open Category

/-- The own characters of a script. -/
def ownOf (script : String) : CharSet :=
  ((Script.named? Script.all script).map (·.set)).getD .empty

def joiner : CharSet := .run 0x200d 0x200d

def carriageReturn : CharSet := .run 13 13

def lineFeed : CharSet := .run 10 10

/-- The first syllables of Korean rows: those without a final consonant. -/
def openSyllable : CharSet := ⟨(List.range 399).flatMap fun i => [44032 + 28 * i, 44033 + 28 * i]⟩

def syllable : CharSet := .run 44032 55203

/-- Characters that join the visible character before them. -/
def clusterExtend : CharSet := graphemeExtend.union Property.emojiModifier

/-- Spacing marks that stand on their own. -/
def freeMark : CharSet := ⟨[
  4139, 4141, 4152, 4153, 4194, 4197, 4199, 4206, 4227, 4228, 4231, 4237, 4239, 4240, 4250, 4253,
  6753, 6754, 6755, 6757, 43643, 43644, 43645, 43646, 71456, 71458]⟩

/-- Marks that join the visible character after them. -/
def clusterPrepend : CharSet :=
  Property.prependedMark.union ⟨[
    3406, 3407, 70082, 70084, 70609, 70610, 71999, 72000, 72001, 72002, 72250, 72251, 72324, 72330,
    73030, 73031, 73474, 73475]⟩

def clusterControl : CharSet :=
  (unions [control, format, lineSeparator, paragraphSeparator,
    unassigned.inter Property.defaultIgnorable]).diff
    (unions [clusterExtend, joiner, carriageReturn, lineFeed, Property.prependedMark])

/-- Roles within visible characters. -/
def graphemeClusterBreaks : List NamedCharSet := [
  ⟨["cr"], carriageReturn⟩,
  ⟨["cn", "control"], clusterControl⟩,
  ⟨["ex", "extend"], clusterExtend⟩,
  ⟨["l"], ⟨[4352, 4448, 43360, 43389]⟩⟩,
  ⟨["lf"], lineFeed⟩,
  ⟨["lv"], openSyllable⟩,
  ⟨["lvt"], syllable.diff openSyllable⟩,
  ⟨["pp", "prepend"], clusterPrepend⟩,
  ⟨["ri", "regionalindicator"], Property.regionalIndicator⟩,
  ⟨["sm", "spacingmark"],
    (spacingMark.union ⟨[3635, 3636, 3763, 3764]⟩).diff (clusterExtend.union freeMark)⟩,
  ⟨["t"], ⟨[4520, 4608, 55243, 55292]⟩⟩,
  ⟨["v"], ⟨[4448, 4520, 55216, 55239, 93539, 93540, 93543, 93547]⟩⟩,
  ⟨["zwj"], joiner⟩]

def hebrewLetter : CharSet := (ownOf "hebrew").inter otherLetter

def katakana : CharSet :=
  (ownOf "katakana").union ⟨[
    12337, 12342, 12443, 12445, 12448, 12449, 12540, 12541, 65392, 65393]⟩

def wordExtend : CharSet := unions [graphemeExtend, spacingMark, Property.emojiModifier]

/-- Letters of scripts that put no blanks between words. -/
def unspacedLetter : CharSet := ⟨[
  3585, 3633, 3634, 3636, 3648, 3655, 3713, 3715, 3716, 3717, 3718, 3723, 3724, 3748, 3749, 3750,
  3751, 3761, 3762, 3764, 3773, 3774, 3776, 3781, 3782, 3783, 3804, 3808, 4096, 4139, 4159, 4160,
  4176, 4182, 4186, 4190, 4193, 4194, 4197, 4199, 4206, 4209, 4213, 4226, 4238, 4239, 6016, 6068,
  6103, 6104, 6108, 6109, 6480, 6510, 6512, 6517, 6528, 6572, 6576, 6602, 6688, 6741, 6823, 6824,
  43488, 43493, 43494, 43504, 43514, 43519, 43616, 43639, 43642, 43643, 43646, 43696, 43697, 43698,
  43701, 43703, 43705, 43710, 43712, 43713, 43714, 43715, 43739, 43742, 71424, 71451, 71488, 71495]⟩

/-- Marks and punctuation that words hold like letters. -/
def letterSign : CharSet := ⟨[
  706, 710, 722, 728, 734, 736, 741, 748, 749, 750, 751, 768, 1370, 1373, 1374, 1375, 1418, 1419,
  1523, 1524, 1807, 1808, 42760, 42775, 42784, 42786, 42889, 42891, 43867, 43868]⟩

def wordLetter : CharSet :=
  (alphabetic.diff (unions [Property.ideographic, katakana, ownOf "hiragana", hebrewLetter,
    wordExtend, unspacedLetter])).union letterSign

/-- Marks that stand before the digits they enclose, and the decimal separator of Arabic. -/
def numberSign : CharSet := (Property.prependedMark.diff ⟨[1807, 1808]⟩).union ⟨[1643, 1644]⟩

/-- Roles within words. -/
def wordBreaks : List NamedCharSet := [
  ⟨["le", "aletter"], wordLetter⟩,
  ⟨["cr"], carriageReturn⟩,
  ⟨["dq", "doublequote"], ⟨[34, 35]⟩⟩,
  ⟨["extend"], wordExtend⟩,
  ⟨["ex", "extendnumlet"], connectorPunctuation.union ⟨[8239, 8240]⟩⟩,
  ⟨["fo", "format"],
    format.diff (unions [⟨[8203, 8206]⟩, graphemeExtend, Property.prependedMark])⟩,
  ⟨["hl", "hebrewletter"], hebrewLetter⟩,
  ⟨["ka", "katakana"], katakana⟩,
  ⟨["lf"], lineFeed⟩,
  ⟨["ml", "midletter"], ⟨[
    58, 59, 183, 184, 903, 904, 1375, 1376, 1524, 1525, 8231, 8232, 65043, 65044, 65109, 65110,
    65306, 65307]⟩⟩,
  ⟨["mn", "midnum"], ⟨[
    44, 45, 59, 60, 894, 895, 1417, 1418, 1548, 1550, 1644, 1645, 2040, 2041, 8260, 8261, 65040,
    65041, 65044, 65045, 65104, 65105, 65108, 65109, 65292, 65293, 65307, 65308]⟩⟩,
  ⟨["mb", "midnumlet"], ⟨[
    46, 47, 8216, 8218, 8228, 8229, 65106, 65107, 65287, 65288, 65294, 65295]⟩⟩,
  ⟨["nl", "newline"], ⟨[11, 13, 133, 134, 8232, 8234]⟩⟩,
  ⟨["nu", "numeric"], decimalNumber.union numberSign⟩,
  ⟨["ri", "regionalindicator"], Property.regionalIndicator⟩,
  ⟨["sq", "singlequote"], ⟨[39, 40]⟩⟩,
  ⟨["wsegspace"], spaceSeparator.diff ⟨[160, 161, 8199, 8200, 8239, 8240]⟩⟩,
  ⟨["zwj"], joiner⟩]

def sentenceExtend : CharSet := unions [graphemeExtend, spacingMark, joiner]

/-- Lower case letters of sentences. Georgian ones count as letters without case. -/
def sentenceLower : CharSet := lowercase.diff ⟨[837, 838, 4304, 4347, 4349, 4352]⟩

def sentenceUpper : CharSet :=
  (uppercase.union titlecaseLetter).diff ⟨[7312, 7355, 7357, 7360]⟩

/-- Full stops. -/
def sentenceStop : CharSet := ⟨[46, 47, 8228, 8229, 65106, 65107, 65294, 65295]⟩

def sentenceSeparator : CharSet := ⟨[133, 134, 8232, 8234]⟩

/-- Roles within sentences. -/
def sentenceBreaks : List NamedCharSet := [
  ⟨["at", "aterm"], sentenceStop⟩,
  ⟨["cr"], carriageReturn⟩,
  ⟨["cl", "close"],
    (unions [openPunctuation, closePunctuation, initialPunctuation, finalPunctuation,
      Property.quotationMark,
      ⟨[10075, 10081, 11776, 11778, 11782, 11785, 11787, 11788, 128630, 128633]⟩]).diff
      ⟨[65282, 65283, 65287, 65288]⟩⟩,
  ⟨["ex", "extend"], sentenceExtend⟩,
  ⟨["fo", "format"],
    format.diff (unions [⟨[8204, 8206]⟩, sentenceExtend, Property.prependedMark])⟩,
  ⟨["lf"], lineFeed⟩,
  ⟨["lo", "lower"], sentenceLower⟩,
  ⟨["nu", "numeric"], (decimalNumber.union numberSign).union ⟨[1644, 1645]⟩⟩,
  ⟨["le", "oletter"],
    (alphabetic.diff (unions [sentenceLower, sentenceUpper, sentenceExtend])).union
      ⟨[1523, 1524, 1807, 1808]⟩⟩,
  ⟨["sc", "scontinue"], ⟨[
    44, 46, 58, 60, 894, 895, 1373, 1374, 1548, 1550, 2040, 2041, 6146, 6147, 6152, 6153, 8211,
    8213, 12289, 12290, 65040, 65042, 65043, 65045, 65073, 65075, 65104, 65106, 65108, 65110,
    65112, 65113, 65123, 65124, 65292, 65294, 65306, 65308, 65380, 65381]⟩⟩,
  ⟨["se", "sep"], sentenceSeparator⟩,
  ⟨["sp"], Property.whiteSpace.diff (unions [carriageReturn, lineFeed, sentenceSeparator])⟩,
  ⟨["st", "sterm"], Property.sentenceTerminal.diff sentenceStop⟩,
  ⟨["up", "upper"], sentenceUpper⟩]

end

end QueryPushdown.Pattern.Segmentation
